/-
**Statements and whole scripts.**

* `Statement.declared`: the declarations that a module may hand out;
* `Statement.statement`: one statement;
* `Statement.program`: a whole script.

The parts of a script contain one another without end, so they are read to a depth. Each part takes at
least a character from the parts around it but for a few steps, so a depth of a few levels for every
character is never reached.

* `Script.rule`: how each part is read at a depth;
* `Script.parse?`: the syntax tree of a source, if it is a script of the dialect.
-/

import AnimationCode.Script.Grammar.Expression

namespace AnimationCode

namespace Script

namespace Statement

open Reader Binding

/-! ### Variables -/

/-- A variable with its pattern and its value. -/
def declarator (rule : Grammar) (ends : Bool) : Reader Node :=
  construct .declarator do
    let target ← rule .pattern
    guarded (target.kind == .identifier || target.kind == .otherPattern)
    if ← typed then
      discard (opt (sign "!"))
      discard (opt (Typing.ascription rule))
    let value ← maybe (initializer rule ends)
    return target.as .name :: value.map (·.as .value)

/-- Variables from their keyword on. -/
def variableList (rule : Grammar) : Reader Node := do
  let kind : Kind := if (← nextWord) == "var" then .variableDeclaration else .lexicalDeclaration
  construct kind do
    firstOf [word "var", word "let", word "const"]
    let items ← commaList1 do return [← declarator rule true]
    let valued := items.getLast?.any fun item => (item.child? .value).isSome
    semicolon valued
    return items

/-! ### Typed declarations -/

/-- A name with qualifiers, or a string, that names a module. -/
def moduleName : Reader Unit :=
  firstOf [
    discard (lexeme .string stringLength?),
    discard (name .identifier *> many (sign "." *> anyName .propertyName))]

/-- A declaration that only the typed forms of the language have. -/
def typedDeclaration (rule : Grammar) : Reader Node := do
  guarded (← typed)
  match ← nextWord with
  | "type" =>
    construct .typeAlias do
      word "type"
      let title ← name .identifier
      discard (opt (Typing.parameters rule))
      sign "="
      Typing.anyType rule
      semicolon false
      return [title.as .name]
  | "interface" =>
    construct .interfaceDeclaration do
      word "interface"
      let title ← name .identifier
      discard (opt (Typing.parameters rule))
      discard (opt (word "extends" *> commaList1 (Typing.reference rule *> pure [])))
      Typing.objectType rule
      return [title.as .name]
  | "enum" => enumeration
  | "const" =>
    construct .otherStatement do
      word "const"
      return (← enumeration).children
  | "namespace" =>
    construct .otherStatement do
      word "namespace"
      moduleName
      return (← opt (block rule)).toList
  | "module" =>
    construct .otherStatement do
      word "module"
      moduleName
      return (← opt (block rule)).toList
  | "import" =>
    construct .otherStatement do
      word "import"
      discard (name .identifier)
      sign "="
      discard (name .identifier *> many (sign "." *> anyName .propertyName))
      semicolon true
      return []
  | "abstract" => Class.definition rule .otherStatement true
  | "declare" =>
    construct .otherStatement do
      word "declare"
      let inner ← firstOf [
        rule .statement,
        do
          word "global"
          block rule]
      return [inner]
  | "function" => Class.announcedFunction rule
  | "async" => Class.announcedFunction rule
  | _ => failure
where
  /-- An enumeration. -/
  enumeration : Reader Node :=
    construct .otherStatement do
      word "enum"
      discard (name .identifier)
      sign "\x7b"
      let members ← commaListOpen do
        discard (propertyKey rule)
        maybe (initializer rule false)
      sign "\x7d"
      return members

/-- A declaration. -/
def declared (rule : Grammar) : Reader Node := do
  match ← nextWord with
  | "var" => variableList rule
  | "let" => variableList rule
  | "const" => firstOf [typedDeclaration rule, variableList rule]
  | "function" => firstOf [function, typedDeclaration rule]
  | "async" => firstOf [function, typedDeclaration rule]
  | "class" => Class.definition rule .classDeclaration true
  | "" => Class.definition rule .classDeclaration true
  | _ => typedDeclaration rule
where
  /-- A function with its name. -/
  function : Reader Node := Class.function rule .functionDeclaration .generatorDeclaration true

/-! ### Modules -/

/-- The name under which a module hands something out. -/
def outerName (kind : Kind) : Reader Node :=
  firstOf [lexeme kind stringLength?, name kind, wordDefault]
where
  /-- The word `default` as a name. -/
  wordDefault : Reader Node := construct kind (word "default" *> pure [])

/-- What an import takes from a module by name. -/
def importSpecifier : Reader Node :=
  construct .importSpecifier do
    let plain : Reader (List Node) :=
      firstOf [
        do
          let outer ← outerName .identifier
          word "as"
          let inner ← name .identifier
          return [outer.as .name, inner.as .alias_],
        do return [(← name .identifier).as .name]]
    if ← typed then
      firstOf [
        do
          firstOf [word "type", word "typeof"]
          let names ← plain
          guarded ((← nextSign ",") || (← nextSign "\x7d"))
          return names,
        plain]
    else plain

/-- The names that an import takes. -/
def namedImports : Reader Node :=
  construct .namedImports do
    sign "\x7b"
    let items ← commaListOpen do return [← importSpecifier]
    sign "\x7d"
    return items

/-- The import of a whole module under one name. -/
def namespaceImport : Reader Node :=
  construct .namespaceImport do
    sign "*"
    word "as"
    return [← name .identifier]

/-- What an import binds. -/
def importClause : Reader Node :=
  construct .importClause <| firstOf [
    do return [← namespaceImport],
    do return [← namedImports],
    do
      let default ← name .identifier
      let others ← maybe do
        sign ","
        firstOf [namespaceImport, namedImports]
      return default :: others]

/-- Where an import or an export takes from. -/
def fromClause : Reader Node := do
  word "from"
  return (← lexeme .string stringLength?).as .source

/-- The attributes of an import. -/
def importAttributes (rule : Grammar) : Reader (List Node) := do
  let found ← opt do
    word "with"
    return [← rule (.primary false)]
  return found.getD []

/-- An import. -/
def importStatement (rule : Grammar) : Reader Node :=
  construct .importStatement do
    word "import"
    let sourced : Reader (List Node) := do
      let clause ← importClause
      return [clause, ← fromClause]
    let items ← firstOf [
      do
        guarded (← typed)
        let typeWord ← firstOf [mark .typeMark .plain (word "type"), mark .token .plain (word "typeof")]
        return typeWord :: (← sourced),
      sourced,
      do
        guarded (← typed)
        discard (opt (firstOf [word "type", word "typeof"]))
        discard (name .identifier)
        sign "="
        word "require"
        sign "("
        discard (lexeme .string stringLength?)
        sign ")"
        return [],
      do return [(← lexeme .string stringLength?).as .source]]
    let attributes ← importAttributes rule
    semicolon false
    return items ++ attributes

/-- What an export hands out by name. -/
def exportSpecifier : Reader Node :=
  construct .exportSpecifier do
    if ← typed then
      discard <| opt do
        firstOf [word "type", word "typeof"]
        let after ← upcoming
        guarded (after.head?.any fun c => isNameFirst c || c == '"' || c == '\'')
        guarded ((← nextWord) != "as")
    let outer ← outerName .identifier
    let renamed ← maybe do
      word "as"
      outerName .identifier
    return outer.as .name :: renamed.map (·.as .alias_)

/-- The names that an export hands out. -/
def exportClause : Reader Node :=
  construct .exportClause do
    sign "\x7b"
    let items ← commaListOpen do return [← exportSpecifier]
    sign "\x7d"
    return items

/-- What follows the words `export default`. -/
def exportDefault (rule : Grammar) : Reader (List Node) := do
  let word ← mark .defaultMark .plain (word "default")
  firstOf [
    do return [word, (← declared rule).as .declaration],
    do
      let value ← rule (.expression true)
      semicolon true
      return [word, value.as .value]]

/-- An export. -/
def exportStatement (rule : Grammar) : Reader Node :=
  construct .exportStatement do
    let decorators ← many (decorator rule)
    word "export"
    let items ← firstOf [
      do
        sign "*"
        let items ← opt (word "as" *> outerName .identifier)
        let source ← fromClause
        discard (importAttributes rule)
        semicolon false
        return items.toList ++ [source],
      do
        if ← typed then discard (opt (mark .typeMark .plain (word "type")))
        let clause ← exportClause
        let source ← maybe fromClause
        discard (importAttributes rule)
        semicolon false
        return clause :: source,
      exportDefault rule,
      do return [(← declared rule).as .declaration],
      do
        guarded (← typed)
        firstOf [
          do
            signBut "=" "=>"
            let value ← rule (.expression true)
            semicolon true
            return [value],
          do
            word "as"
            word "namespace"
            discard (name .identifier)
            semicolon false
            return []]]
    return decorators ++ items

/-! ### Control -/

/-- A condition in parentheses. -/
def condition (rule : Grammar) : Reader Node := Expression.parenthesized rule

/-- The header of a loop over the parts of a value. -/
def overHeader (rule : Grammar) : Reader (List Node) := do
  sign "("
  let target ← firstOf [
    do
      firstOf [word "var", word "let", word "const"]
      let target ← rule .pattern
      return target,
    rule .pattern,
    rule (.operand false)]
  firstOf [word "in", word "of"]
  let whole ← rule (.sequence false)
  sign ")"
  return [target, whole]

/-- The header of a counting loop. -/
def countHeader (rule : Grammar) : Reader (List Node) := do
  sign "("
  let before ← firstOf [
    do
      sign ";"
      return [],
    do
      let items ← construct .lexicalDeclaration do
        firstOf [word "var", word "let", word "const"]
        commaList1 do return [← declarator rule false]
      sign ";"
      return [items],
    do
      let items ← rule (.sequence false)
      sign ";"
      return [items]]
  let test ← maybe (rule (.sequence false))
  sign ";"
  let step ← maybe (rule (.sequence false))
  sign ")"
  return before ++ test ++ step

/-- A case of a switch. -/
def switchCase (rule : Grammar) : Reader Node :=
  construct .otherStatement do
    let value ← firstOf [
      do
        word "case"
        return [← rule (.sequence false)],
      do
        word "default"
        return []]
    sign ":"
    return value ++ (← statements rule)

/-- A jump with the label it may have. -/
def jump (text : String) : Reader Node :=
  construct .otherStatement do
    word text
    if !(← endsHere false) then discard (opt (name .identifier))
    semicolon false
    return []

/-- A statement that begins with a word of its own. -/
def worded (rule : Grammar) : Reader Node := do
  match ← nextWord with
  | "if" =>
    construct .otherStatement do
      word "if"
      let test ← condition rule
      let branch ← rule .statement
      let other ← maybe (word "else" *> rule .statement)
      return test :: branch :: other
  | "for" =>
    construct .otherStatement do
      word "for"
      discard (opt (word "await"))
      let header ← firstOf [overHeader rule, countHeader rule]
      return header ++ [← rule .statement]
  | "while" =>
    construct .otherStatement do
      word "while"
      let test ← condition rule
      return [test, ← rule .statement]
  | "do" =>
    construct .otherStatement do
      word "do"
      let body ← rule .statement
      word "while"
      let test ← condition rule
      discard (opt (semicolon false))
      return [body, test]
  | "try" =>
    construct .otherStatement do
      word "try"
      let body ← block rule
      let handler ← maybe <| construct .otherStatement do
        word "catch"
        let caught ← maybe do
          sign "("
          let target ← rule .pattern
          if ← typed then discard (opt (Typing.ascription rule))
          sign ")"
          return target
        return caught ++ [← block rule]
      let finish ← maybe (word "finally" *> block rule)
      return body :: handler ++ finish
  | "switch" =>
    construct .otherStatement do
      word "switch"
      let value ← condition rule
      sign "\x7b"
      let cases ← many (switchCase rule)
      sign "\x7d"
      return value :: cases
  | "with" =>
    construct .otherStatement do
      word "with"
      let value ← condition rule
      return [value, ← rule .statement]
  | "return" =>
    construct .returnStatement do
      word "return"
      if ← endsHere false then
        semicolon false
        return []
      let value ← maybe (rule (.sequence true))
      semicolon !value.isEmpty
      return value
  | "throw" =>
    construct .otherStatement do
      word "throw"
      let value ← rule (.sequence true)
      semicolon true
      return [value]
  | "break" => jump "break"
  | "continue" => jump "continue"
  | "debugger" =>
    construct .otherStatement do
      word "debugger"
      semicolon false
      return []
  | _ => failure

/-- A statement with a label. -/
def labelled (rule : Grammar) : Reader Node :=
  construct .otherStatement do
    discard (name .identifier)
    signBut ":" ":"
    return [← rule .statement]

/-- Words that begin nothing but a declaration in the typed forms of the language. -/
def declaringWords : List String := ["interface", "abstract", "enum"]

/-- An expression as a statement. -/
def expressionStatement (rule : Grammar) : Reader Node :=
  construct .expressionStatement do
    guarded !((← typed) && declaringWords.contains (← nextWord))
    let value ← rule (.sequence true)
    semicolon true
    return [value]

/-- A statement. -/
def statement (rule : Grammar) : Reader Node := do
  match ← upcoming with
  | '\x7b' :: _ => firstOf [block rule, expressionStatement rule]
  | ';' :: _ => construct .emptyStatement (sign ";" *> pure [])
  | '@' :: _ => firstOf [exportStatement rule, declared rule, expressionStatement rule]
  | _ =>
    match ← nextWord with
    | "" => expressionStatement rule
    | "import" => firstOf [importStatement rule, typedDeclaration rule, expressionStatement rule]
    | "export" => exportStatement rule
    | _ => firstOf [worded rule, declared rule, labelled rule, expressionStatement rule]

/-- The first line of a script that names its interpreter. -/
def interpreterLine : Reader (List Node) := do
  let text ← rest
  if Text.startsWith "#!".toList text then
    let length := (text.takeWhile fun c => c != '\n').length
    take length
    return [.mk .otherStatement .plain ⟨0, length⟩ []]
  else return []

/-- A whole script. -/
def program (rule : Grammar) : Reader (List Node) := do
  let first ← interpreterLine
  let items ← statements rule
  blanks
  guarded (← rest).isEmpty
  return first ++ items

end Statement

/-! ### Reading to a depth -/

/-- How each part is read, given how the parts inside it are. -/
def layer (rule : Grammar) : Grammar
  | .expression ends => Expression.single rule ends
  | .sequence ends => Expression.sequence rule ends
  | .operand ends => Expression.operand rule ends
  | .primary ends => Expression.primary rule ends
  | .statement => Statement.statement rule
  | .typing => Typing.node rule
  | .pattern => Binding.pattern rule
  | .element => Markup.element rule

/-- How each part is read at a depth. -/
def rule : Nat → Grammar
  | 0 => fun _ => failure
  | depth + 1 => layer (rule depth)

/-- The cursor at the beginning of a source. -/
def Cursor.atStart (dialect : Dialect) (source : List Char) : Cursor := ⟨dialect, source, 0, 0, []⟩

/-- The syntax tree of a source, comments included. -/
def parse? (dialect : Dialect) (source : List Char) : Option Node :=
  let depth := 8 * source.length + 16
  (Statement.program (rule depth) (Cursor.atStart dialect source)).map fun (statements, cursor) =>
    Node.insertRemarks cursor.remarks.reverse
      (.mk .program .plain ⟨0, source.length⟩ statements)

end Script

end AnimationCode
