/-
**Syntax trees of scripts.**

A node has a kind, the role it plays in its parent, the interval of the source it covers, and its
children from left to right. Tokens that no reading needs are not kept. How a text becomes a tree is up to the
parser, which whatever reads scripts is given.

* `Parser`: what makes trees of texts;
* `Node.walk`: the nodes of a tree, parents before children, from left to right;
* `Node.walkUnder`: the same nodes, each with its ancestors from the nearest on;
* `Node.insertRemarks`: comments put into the innermost node that covers them.
-/

namespace AnimationCode

/-- An interval of code points, its end excluded. -/
structure Span where
  start : Nat
  stop : Nat
deriving DecidableEq, Repr, Inhabited

/-- Whether an interval covers another. -/
def Span.covers (outer inner : Span) : Bool := outer.start ≤ inner.start && inner.stop ≤ outer.stop

namespace Script

/-- What a node is. -/
inductive Kind where
  -- statements
  | program | block | expressionStatement | emptyStatement | returnStatement
  | importStatement | importClause | namespaceImport | namedImports | importSpecifier
  | exportStatement | exportClause | exportSpecifier
  | functionDeclaration | generatorDeclaration | classDeclaration
  | lexicalDeclaration | variableDeclaration | declarator
  | interfaceDeclaration | typeAlias
  | otherStatement
  -- expressions
  | identifier | propertyName | shorthand | undefinedName
  | number | string | template | substitution | regex | trueLiteral | falseLiteral | nullLiteral
  | object | pair | spread | method | array
  | parenthesized | sequence | asType | satisfiesType | unary | ternary
  | call | arguments | member | subscript | awaiting
  | arrowFunction | functionExpression
  | otherExpression
  -- patterns and types
  | shorthandPattern | assignmentPattern | objectAssignmentPattern | pairPattern
  | otherPattern | typeExpression
  -- markup
  | element | openingTag | closingTag | selfClosingTag | attribute | container
  | markupText | characterReference
  -- tokens and remarks
  | token | typeMark | defaultMark | comment | markupComment
deriving DecidableEq, Repr, Inhabited

/-- A kind that is a construct and no mere token. -/
def Kind.isNamed : Kind → Bool
  | .token | .typeMark | .defaultMark => false
  | _ => true

/-- What a node is to its parent. -/
inductive Role where
  | plain | name | value | key | alias_ | source | declaration
  | callee | arguments | object | property | left | operator | argument
  | condition | consequence | alternative | body | openTag
deriving DecidableEq, Repr, Inhabited

/-- A node of a syntax tree. -/
inductive Node where
  | mk (kind : Kind) (role : Role) (span : Span) (children : List Node)
deriving Repr, Inhabited

namespace Node

/-- What the node is. -/
def kind : Node → Kind
  | mk kind _ _ _ => kind

/-- What the node is to its parent. -/
def role : Node → Role
  | mk _ role _ _ => role

/-- The interval that the node covers. -/
def span : Node → Span
  | mk _ _ span _ => span

/-- The children of the node. -/
def children : Node → List Node
  | mk _ _ _ children => children

/-- The node in a role. -/
def as (node : Node) (role : Role) : Node :=
  match node with
  | mk kind _ span children => mk kind role span children

/-- The children that are constructs. -/
def named (node : Node) : List Node := node.children.filter (·.kind.isNamed)

/-- The first child in a role. -/
def child? (node : Node) (role : Role) : Option Node := node.children.find? (·.role == role)

/-- The source text of the node. -/
def text (source : List Char) (node : Node) : List Char :=
  (source.drop node.span.start).take (node.span.stop - node.span.start)

mutual

/-- The node and all below it, parents first, from left to right. -/
def walk : Node → List Node
  | mk kind role span children => mk kind role span children :: walkAll children

/-- The nodes of several trees. -/
def walkAll : List Node → List Node
  | [] => []
  | node :: rest => walk node ++ walkAll rest

end

mutual

/-- The nodes of a tree with the ancestors of each, the nearest first. -/
def walkUnder (ancestors : List Node) : Node → List (Node × List Node)
  | mk kind role span children =>
    (mk kind role span children, ancestors) ::
      walkAllUnder (mk kind role span children :: ancestors) children

/-- The nodes of several trees under the same ancestors. -/
def walkAllUnder (ancestors : List Node) : List Node → List (Node × List Node)
  | [] => []
  | node :: rest => walkUnder ancestors node ++ walkAllUnder ancestors rest

end

/-- A childless node for a remark. -/
def ofRemark (remark : Kind × Span) : Node := mk remark.1 .plain remark.2 []

mutual

/-- The tree with remarks put into it, each into the innermost node that covers it. -/
def insertRemarks (remarks : List (Kind × Span)) : Node → Node
  | mk kind role span children => mk kind role span (insertAmong remarks children)

/-- The children of a node with its remarks among them. -/
def insertAmong (remarks : List (Kind × Span)) : List Node → List Node
  | [] => remarks.map ofRemark
  | mk kind role span children :: rest =>
    let before := remarks.filter fun remark => remark.2.stop ≤ span.start
    let inside := remarks.filter fun remark => span.covers remark.2
    let after := remarks.filter fun remark =>
      !(decide (remark.2.stop ≤ span.start) || span.covers remark.2)
    before.map ofRemark ++ insertRemarks inside (mk kind role span children) ::
      insertAmong after rest

end

end Node

/-- The forms of the script language. -/
structure Dialect where
  /-- Whether types are read. -/
  typed : Bool
  /-- Whether markup is read as an expression. -/
  markup : Bool
deriving DecidableEq, Repr, Inhabited

/-- A parser of scripts: the tree of a text, if the text is a script in a form of the language. -/
abbrev Parser := Dialect → List Char → Option Node

end Script

end AnimationCode
