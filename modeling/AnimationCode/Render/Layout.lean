/-
**Lines, indentation and tags.**

* `Layout.tag`: an opening tag; one with more than one item has each on a line of its own;
* `Layout.elementLines`: an element with all inside it, one level deeper inside;
* `Layout.indentBlock`: the lines of a text, moved in; blank lines become empty.
-/

import AnimationCode.Element.Basic
import AnimationCode.Text.Blank

namespace AnimationCode

namespace Layout

/-- The indentation of one level. -/
def unit : String := "  "

/-- The indentation of some levels. -/
def indent (depth : Nat) : String := String.join (List.replicate depth unit)

/-- Lines as a text. -/
def joined (lines : List String) : String := "\n".intercalate lines

/-- Lines as a text that ends with a line feed. -/
def document (lines : List String) : String := joined lines ++ "\n"

/-- The lines of a text, moved in; blank lines become empty. -/
def indentBlock (pad : String) (text : List Char) : List String :=
  (Text.lines text).map fun line =>
    if Text.isBlankText line then "" else pad ++ String.ofList line

/-- An opening tag with its items, at an indentation. -/
def tag (name : String) (items : List String) (base : String) (selfClosing : Bool) : String :=
  let close := if selfClosing then "/>" else ">"
  let gap := if selfClosing then " " else ""
  match items with
  | [] => "<" ++ name ++ gap ++ close
  | [item] => "<" ++ name ++ " " ++ item ++ gap ++ close
  | _ => "<" ++ name ++ "\n" ++ joined (items.map fun item => base ++ unit ++ item) ++ "\n" ++ base ++
    close

/-- How the elements of a framework are written: their names and the items of their opening tags. -/
structure TagStyle where
  name : Motion → String
  items : Motion → List String

/-- The opening tag of an element. -/
def TagStyle.opening (style : TagStyle) (motion : Motion) (base : String) (selfClosing : Bool) :
    String :=
  tag (style.name motion) (style.items motion) base selfClosing

/-- What stands inside an element that has no elements inside: its text, or what stands in for it. -/
def filling (motion : Motion) (standIn : Option String) : Option String :=
  match motion.content? with
  | some text => if text = "" then standIn else some text
  | none => standIn

mutual

/-- The lines of an element at a depth. -/
def elementLines (style : TagStyle) (depth : Nat) (standIn : Option String) :
    Element → List String
  | ⟨own, children⟩ =>
    let base := indent depth
    let inner := match children with
      | [] => (filling own standIn).toList.map fun text => base ++ unit ++ text
      | child :: others => forestLines style (depth + 1) (child :: others)
    if inner.isEmpty then [base ++ style.opening own base true]
    else
      (base ++ style.opening own base false) :: inner ++ [base ++ "</" ++ style.name own ++ ">"]

/-- The lines of elements side by side. -/
def forestLines (style : TagStyle) (depth : Nat) : List Element → List String
  | [] => []
  | element :: rest => elementLines style depth none element ++ forestLines style depth rest

end

/-- Whether a forest is one element with nothing inside, so that there is room for what others put in
it. -/
def hasRoom (forest : Forest) : Bool :=
  match forest with
  | [element] => element.children.isEmpty && (filling element.own none).isNone
  | _ => false

/-- The lines of a forest; what stands in for a missing content goes into the only element. -/
def rootLines (style : TagStyle) (depth : Nat) (standIn : String) (forest : Forest) : List String :=
  if hasRoom forest then
    List.flatMap (elementLines style depth (some standIn)) forest
  else forestLines style depth forest

/-- What is left for a person to write, as remarks of the script. -/
def placeholderLines (placeholders : List String) : List String :=
  placeholders.map fun text => "// PLACEHOLDER: " ++ text

end Layout

end AnimationCode
