/-
**What a caller is told of a failure.**

A diagnosis has the words for the failure, its class, and advice. Without advice for the class the words
are repeated; a failure from outside the library is called unexpected.

* `Diagnosis.ofMessage`: the diagnosis of a failure by where it comes from;
* `Failure.diagnosis`: the diagnosis of a cause.
-/

import AnimationCode.Failure

namespace AnimationCode

/-- Where a failure comes from. -/
inductive Origin where
  | source | patterns | parameters | length | elsewhere
  /-- Outside the library, under a name. -/
  | foreign (name : String)
deriving DecidableEq, Repr, Inhabited

/-- The class of a failure if nothing else is said. -/
def Origin.category : Origin → Category
  | source => .parseFailed
  | patterns => .patternNotFound
  | parameters => .parameterInvalid
  | length => .sourceTooLarge
  | elsewhere | foreign _ => .unknown

/-- What a caller is told. -/
structure Diagnosis where
  error : String
  category : Category
  hint : String
deriving DecidableEq, Repr, Inhabited

namespace Diagnosis

/-- The diagnosis of a failure of a class. -/
def ofCategory (category : Category) (message : String) : Diagnosis :=
  ⟨message, category, category.hint?.getD message⟩

/-- The diagnosis of a failure by where it comes from, and its class if that is said. -/
def ofMessage (origin : Origin) (category? : Option Category) (message : String) : Diagnosis :=
  match origin with
  | .foreign name => ⟨message, .unknown, "Unexpected " ++ name ++ ": " ++ message⟩
  | _ => ofCategory (category?.getD origin.category) message

end Diagnosis

/-- The diagnosis of a cause. -/
def Failure.diagnosis (failure : Failure) : Diagnosis :=
  .ofCategory failure.category failure.message

end AnimationCode
