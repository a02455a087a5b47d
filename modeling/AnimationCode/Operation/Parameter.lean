/-
**Settings and parameters of the operations.**

A parameter is any data; each kind of parameter says what it accepts, and what is wrong with the rest.

* `Settings.checkLength`: whether a source is short enough to be read;
* `Parameter.framework`: the framework that is meant;
* `Parameter.componentName`: the name of a component, or the one that is used if none is given;
* `Parameter.texts`, `Parameter.focusAreas`: lists of texts.
-/

import AnimationCode.Component.OfSource
import AnimationCode.Context
import AnimationCode.Number.Binary64
import AnimationCode.Rules
import AnimationCode.Value.Shown

namespace AnimationCode

/-- What holds for all operations. Settings are data, and are looked at when they are needed. -/
structure Settings where
  /-- The most characters that a source may have. -/
  maxLength : Value := .int 100000
  /-- Whether code is typed if nobody says. -/
  typescript : Value := .bool true
  rules : Value := .object Rules.standard
deriving Repr, Inhabited

namespace Settings

/-- Settings from data; rules that are empty in any way are the standard ones. -/
def ofFields (fields : Fields Value) : Settings :=
  let standard : Settings := {}
  let rules := (fields.get? "rules").getD .null
  { maxLength := (fields.get? "max_source_length").getD standard.maxLength
    typescript := (fields.get? "default_typescript").getD standard.typescript
    rules := if rules.isTruthy then rules else standard.rules }

/-- The quantity that a bound is; a truth value counts as one or zero. -/
def bound? : Value → Option Quantity
  | .bool b => some (.whole b.toNat)
  | value => value.quantity?

/-- A source, if it is short enough. -/
def checkLength (settings : Settings) (code : String) : Outcome String :=
  match bound? settings.maxLength with
  | none => .error .unfitType
  | some limit =>
    if limit.lt (.whole code.length) then
      .error (settings.maxLength.told (.sourceTooLarge code.length))
    else .ok code

end Settings

namespace Parameter

/-- Whether a text has no more than blanks. -/
def isBlankText (text : String) : Bool := Text.isBlankText text.toList

/-- The framework that a parameter means. -/
def framework (name : String) (value : Value) : Outcome Framework :=
  match value with
  | .null => .error (.missingParameter name)
  | .text text =>
    if isBlankText text then .error (.missingParameter name)
    else match Framework.ofName? text with
      | some framework => .ok framework
      | none => .error (value.told (.invalidFramework name))
  | _ => .error (value.told (.invalidFramework name))

/-- Whether a text can be the name of a component. -/
def isName : List Char → Bool
  | [] => false
  | c :: rest => (c.isAlpha || c == '_' || c == '$') && rest.all fun d => Text.isWord d || d == '$'

/-- The name of a component. -/
def componentName (value : Value) : Outcome String :=
  match value with
  | .null => .ok Source.placeholderName
  | .text "" => .ok Source.placeholderName
  | .text text =>
    if Text.isLineOf isName text.toList then .ok text
    else .error (value.told .invalidComponentName)
  | _ => .error (value.told .invalidComponentName)

/-- A list of texts, none of them empty. -/
def texts (name : String) (value : Value) : Outcome (List String) :=
  match value with
  | .list items =>
    if items.all fun item => item.text?.any (· != "") then .ok (items.filterMap Value.text?)
    else .error (.blankInList name)
  | _ => .error (.notStringList name)

/-- A list of texts that may be missing. -/
def optionalTexts (name : String) (value : Value) : Outcome (List String) :=
  match value with
  | .null => .ok []
  | _ => texts name value

/-- A list of texts that has at least one. -/
def someTexts (name : String) (value : Value) : Outcome (List String) :=
  match value with
  | .null => .error (.missingParameter name)
  | _ => do
    let found ← texts name value
    if found.isEmpty then throw (.emptyList name) else return found

/-- The names of the focus areas. -/
def areaNames : List String := ["performance", "accessibility", "bundle-size"]

/-- The focus areas that are asked for; all of them if none is. -/
def focusAreas (value : Value) : Outcome (List String) := do
  let asked ← optionalTexts "focus_areas" value
  if asked.isEmpty then return areaNames
  else asked.mapM fun area =>
    let name := Focus.areaName area
    if areaNames.contains name then pure name
    else throw (.unknownFocusArea (Text.shown area) (", ".intercalate areaNames))

/-- A source that is short enough to be read. -/
def code (settings : Settings) (value : Value) : Outcome String :=
  match value with
  | .text text =>
    if isBlankText text then .error (.missingParameter "code") else settings.checkLength text
  | _ => .error (.missingParameter "code")

/-- Whether code is typed. -/
def typescript (value : Value) : Outcome Bool :=
  match value with
  | .bool b => .ok b
  | _ => .error (.notBoolean "typescript")

/-- Whether code is typed, if anything is said of it. -/
def optionalTypescript (value : Value) : Outcome (Option Bool) :=
  match value with
  | .null => .ok none
  | _ => some <$> typescript value

end Parameter

end AnimationCode
