/-
**Why an operation fails.**

Each cause is a constructor with what its message names.

* `Failure.category`: the class of the cause that a caller is told;
* `Failure.message`: the words for it;
* `Failure.place?`: where in the source it lies.
-/

import AnimationCode.Text.Position
import AnimationCode.Text.Word

namespace AnimationCode

/-- The class of a failure. -/
inductive Category where
  | parseFailed | patternNotFound | patternUnsupported | patternSeedInvalid
  | parameterMissing | parameterInvalid | sourceTooLarge | unknown
deriving DecidableEq, Repr, Inhabited

/-- The name of a class of failures. -/
def Category.label : Category → String
  | .parseFailed => "PARSE_FAILED"
  | .patternNotFound => "PATTERN_NOT_FOUND"
  | .patternUnsupported => "PATTERN_UNSUPPORTED"
  | .patternSeedInvalid => "PATTERN_SEED_INVALID"
  | .parameterMissing => "PARAMETER_MISSING"
  | .parameterInvalid => "PARAMETER_INVALID"
  | .sourceTooLarge => "SOURCE_TOO_LARGE"
  | .unknown => "UNKNOWN"

/-- The classes of failures. -/
def Category.all : List Category :=
  [.parseFailed, .patternNotFound, .patternUnsupported, .patternSeedInvalid, .parameterMissing,
    .parameterInvalid, .sourceTooLarge, .unknown]

/-- The class of a name. -/
def Category.ofLabel? (name : String) : Option Category := all.find? fun category => category.label == name

/-- What to do about a class of failures; the unknown ones have no advice. -/
def Category.hint? : Category → Option String
  | .parseFailed => some "Check the code compiles for the given framework and typescript setting"
  | .patternNotFound =>
    some "Unknown pattern id; list available ids with PatternLibrary.all_patterns()"
  | .patternUnsupported =>
    some "Pattern does not support this framework; pick another pattern or framework"
  | .patternSeedInvalid => some "Pattern seed failed validation; fix the seed file"
  | .parameterMissing => some "A required parameter is missing"
  | .parameterInvalid => some "A parameter has an invalid value"
  | .sourceTooLarge =>
    some "Source exceeds the configured maximum length; split it into smaller snippets"
  | .unknown => none

/-- A step into a record: a name or an index. -/
inductive Step where
  | name (text : String)
  | index (n : Nat)
deriving DecidableEq, Repr, Inhabited

/-- A fault found in a record: where it is, what it is, and the words for a broken rule of the
record's own. -/
structure Fault where
  path : List Step
  kind : String
  message : Option String
deriving Repr, Inhabited

/-- Why an operation fails. -/
inductive Failure where
  -- the source
  | emptySource
  | unsupportedFramework (name : String)
  | malformedScript (language : String)
  | malformedExpression (text : String)
  | unclosedTemplate (line : Nat)
  | unexpectedClosingTag (tag : String) (place : Location)
  | unclosedTag (tag : String) (place : Location)
  | malformedBinding (text : String) (cause : String) (place : Location)
  -- patterns
  | unknownPattern (id : String)
  | patternUnsupported (id framework : String)
  | frameworkWithoutPatterns (name : String)
  | invalidSeed (faults : List Fault)
  | unreadableSeed
  -- parameters
  | missingParameter (name : String)
  | invalidFramework (name shown : String)
  | invalidComponentName (shown : String)
  | notStringList (name : String)
  | blankInList (name : String)
  | emptyList (name : String)
  | unknownFocusArea (shown known : String)
  | stepsNotList
  | invalidInterval
  | notBoolean (name : String)
  | invalidStep (faults : List Fault)
  | sourceTooLarge (length : Nat) (limit : String)
  -- data that does not have the shape that a computation needs
  | invalidRecord (faults : List Fault)
  | unfitValue
  | unfitType
  | missingKey
  | missingMember
  | numberTooLarge
  | numberTooLong
  | unwritable
deriving Repr, Inhabited

namespace Failure

/-- The class of the cause. -/
def category : Failure → Category
  | .emptySource | .unsupportedFramework _ | .malformedScript _ | .malformedExpression _
  | .unclosedTemplate _ | .unexpectedClosingTag _ _ | .unclosedTag _ _
  | .malformedBinding _ _ _ => .parseFailed
  | .unknownPattern _ => .patternNotFound
  | .patternUnsupported _ _ | .frameworkWithoutPatterns _ => .patternUnsupported
  | .invalidSeed _ | .unreadableSeed => .patternSeedInvalid
  | .missingParameter _ | .emptyList _ => .parameterMissing
  | .invalidFramework _ _ | .invalidComponentName _ | .notStringList _ | .blankInList _
  | .unknownFocusArea _ _ | .stepsNotList | .invalidInterval | .notBoolean _
  | .invalidStep _ => .parameterInvalid
  | .sourceTooLarge _ _ => .sourceTooLarge
  | .invalidRecord _ | .unfitValue | .unfitType | .missingKey | .missingMember
  | .numberTooLarge | .numberTooLong | .unwritable => .unknown

/-- Where in the source the cause lies: a line and perhaps a column. -/
def place? : Failure → Option (Nat × Option Nat)
  | .unclosedTemplate line => some (line, none)
  | .unexpectedClosingTag _ place | .unclosedTag _ place | .malformedBinding _ _ place =>
    some (place.line, some place.column)
  | _ => none

/-- A place as it stands at the end of a message; without a column it is the first. -/
def placeText (line : Int) (column : Option Int) : String :=
  let column := match column with
    | some 0 => 1
    | some column => column
    | none => 1
  " (line " ++ toString line ++ ", column " ++ toString column ++ ")"

/-- The words for the cause without its place. -/
def bareMessage : Failure → String
  | .emptySource => "Source is empty"
  | .unsupportedFramework name => "Unsupported framework '" ++ name ++ "'"
  | .malformedScript language => "Invalid " ++ language ++ " syntax"
  | .malformedExpression text => "Invalid expression: " ++ text
  | .unclosedTemplate _ => "Unclosed <template> block"
  | .unexpectedClosingTag tag _ => "Unexpected closing tag </" ++ tag ++ ">"
  | .unclosedTag tag _ => "Unclosed tag <" ++ tag ++ ">"
  | .malformedBinding text cause _ =>
    "Invalid binding expression " ++ Text.shown text ++ ": " ++ cause
  | .unknownPattern id => "Pattern '" ++ id ++ "' not found"
  | .patternUnsupported id framework =>
    "Pattern '" ++ id ++ "' not supported for " ++ framework
  | .frameworkWithoutPatterns name => "Framework '" ++ name ++ "' not supported"
  | .invalidSeed _ => "Invalid pattern seed"
  | .unreadableSeed => "Cannot read pattern seed"
  | .missingParameter name => "Missing required parameter '" ++ name ++ "'"
  | .invalidFramework name shown =>
    "Invalid " ++ name ++ " " ++ shown ++ "; expected react, vue or js"
  | .invalidComponentName shown => "Invalid component name " ++ shown
  | .notStringList name => "'" ++ name ++ "' must be a list of strings"
  | .blankInList name => "'" ++ name ++ "' must be a list of non-empty strings"
  | .emptyList name => "'" ++ name ++ "' must not be empty"
  | .unknownFocusArea shown known =>
    "Unknown focus area " ++ shown ++ "; expected one of " ++ known
  | .stepsNotList => "'steps' must be a non-empty list"
  | .invalidInterval => "'stagger_interval' must be a non-negative number"
  | .notBoolean name => "'" ++ name ++ "' must be a boolean"
  | .invalidStep _ => "Invalid sequence step"
  | .sourceTooLarge length limit =>
    "Source is " ++ toString length ++ " characters; the limit is " ++ limit
  | .invalidRecord _ => "Invalid record"
  | .unfitValue => "Unfit value"
  | .unfitType => "Unfit type"
  | .missingKey => "Missing key"
  | .missingMember => "Missing member"
  | .numberTooLarge => "Number too large"
  | .numberTooLong => "Number too long"
  | .unwritable => "Not data"

/-- The words for the cause, with its place if it has one. -/
def message (failure : Failure) : String :=
  match failure.place? with
  | some (line, column) => failure.bareMessage ++ placeText line (column.map Int.ofNat)
  | none => failure.bareMessage

/-- The faults of a record that the cause reports. -/
def faults? : Failure → Option (List Fault)
  | .invalidSeed faults => some faults
  | .invalidStep faults => some faults
  | .invalidRecord faults => some faults
  | _ => none

end Failure

/-- A result, or why there is none. -/
abbrev Outcome := Except Failure

end AnimationCode
