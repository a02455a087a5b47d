/-
**What a revision has to tell.**

Each thing is told once, in the order in which it first came up.

* `tell`: a list with one more thing, unless it is there;
* `Account`: all that was told of a component since it was read.
-/

import AnimationCode.Framework
import AnimationCode.Text.Position

namespace AnimationCode

/-- Something that another framework has no way to say. -/
structure Limitation where
  construct : String
  message : String
  location? : Option Location
deriving DecidableEq, Repr, Inhabited

/-- A list with one more thing at its end, unless it is there. -/
def tell {α : Type} [DecidableEq α] (told : List α) (item : α) : List α :=
  if item ∈ told then told else told ++ [item]

/-- A list with more things told one after another. -/
def tellAll {α : Type} [DecidableEq α] (told : List α) (items : List α) : List α :=
  items.foldl tell told

/-- What was told of a component since it was read. -/
structure Account where
  /-- The framework that the component was written for. -/
  sourceFramework : Framework
  /-- What is left for a person to write. -/
  placeholders : List String
  limitations : List Limitation
  suggestions : List String
  removedImports : List String
  notes : List String
deriving DecidableEq, Repr, Inhabited

/-- A remark of a conversion. -/
inductive Remark where
  | limitation (limitation : Limitation)
  | note (message : String)
  | placeholder (message : String)
deriving DecidableEq, Repr, Inhabited

namespace Account

/-- Nothing told of a component. -/
def start (framework : Framework) : Account := ⟨framework, [], [], [], [], []⟩

/-- An account with one more remark. -/
def addRemark (account : Account) (remark : Remark) : Account :=
  match remark with
  | .limitation limitation => { account with limitations := tell account.limitations limitation }
  | .note message => { account with notes := tell account.notes message }
  | .placeholder message => { account with placeholders := tell account.placeholders message }

/-- An account with more remarks. -/
def addRemarks (account : Account) (remarks : List Remark) : Account := remarks.foldl addRemark account

/-- An account with more suggestions. -/
def suggest (account : Account) (suggestions : List String) : Account :=
  { account with suggestions := tellAll account.suggestions suggestions }

end Account

end AnimationCode
