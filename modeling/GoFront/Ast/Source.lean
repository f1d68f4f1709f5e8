import GoFront.Ast.Basic

/-!
# Typed nodes of source files

The declarations, statements and expressions of a source file with the parts they are asked for.
-/

namespace GoFront

/-! ## The types -/

/-- A source file. -/
abbrev SourceFile := Typed .sourceFile
/-- A package clause. -/
abbrev PackageClause := Typed .packageClause
/-- A declaration of imports. -/
abbrev ImportDeclaration := Typed .importDeclaration
/-- An import. -/
abbrev ImportSpec := Typed .importSpec
/-- A function or a method. -/
abbrev FunctionDeclaration := Typed .functionDeclaration
/-- Parameters between parentheses. -/
abbrev ParameterList := Typed .parameterList
/-- A parameter. -/
abbrev Parameter := Typed .parameter
/-- A declaration of types. -/
abbrev TypeDeclaration := Typed .typeDeclaration
/-- A declared type. -/
abbrev TypeSpec := Typed .typeSpec
/-- A declaration of variables. -/
abbrev VariableDeclaration := Typed .variableDeclaration
/-- Declared variables. -/
abbrev VariableSpec := Typed .variableSpec
/-- A declaration of constants. -/
abbrev ConstantDeclaration := Typed .constantDeclaration
/-- Declared constants. -/
abbrev ConstantSpec := Typed .constantSpec
/-- An identifier that a declaration introduces. -/
abbrev DeclaredName := Typed .name
/-- A block. -/
abbrev Block := Typed .block
/-- An expression as a statement. -/
abbrev ExpressionStatement := Typed .expressionStatement
/-- A `return`. -/
abbrev ReturnStatement := Typed .returnStatement
/-- An `if`. -/
abbrev IfStatement := Typed .ifStatement
/-- A `for`. -/
abbrev ForStatement := Typed .forStatement
/-- A literal. -/
abbrev Literal := Typed .literal
/-- A reference by name. -/
abbrev NameRef := Typed .nameRef
/-- A binary operator and its operands. -/
abbrev BinaryExpression := Typed .binaryExpression
/-- A unary operator and its operand. -/
abbrev UnaryExpression := Typed .unaryExpression
/-- A call. -/
abbrev CallExpression := Typed .callExpression
/-- The arguments of a call. -/
abbrev ArgumentList := Typed .argumentList

/-- An expression, by its form. -/
inductive Expression where
  /-- A literal. -/
  | literal (n : Literal)
  /-- A reference by name. -/
  | nameRef (n : NameRef)
  /-- A binary operator and its operands. -/
  | binary (n : BinaryExpression)
  /-- A unary operator and its operand. -/
  | unary (n : UnaryExpression)
  /-- A call. -/
  | call (n : CallExpression)
  /-- Any other expression. -/
  | other (n : Node)

/-- A statement, by its form. -/
inductive Statement where
  /-- An expression as a statement. -/
  | expression (n : ExpressionStatement)
  /-- A `return`. -/
  | returns (n : ReturnStatement)
  /-- An `if`. -/
  | ifs (n : IfStatement)
  /-- A `for`. -/
  | loop (n : ForStatement)
  /-- A block. -/
  | block (n : Block)
  /-- Any other statement, or a stretch in the place of one. -/
  | other (n : Node)

namespace Expression

/-- Kinds of expressions without a form of their own. -/
def isOther : Kind → Bool
  | .parenExpression | .selectorExpression | .indexExpression | .sliceExpression
  | .typeAssertExpression | .compositeLiteral | .functionLiteral => true
  | _ => false

/-- A node as an expression. -/
def ofNode? (n : Node) : Option Expression :=
  (n.as? .literal).map .literal
    <|> (n.as? .nameRef).map .nameRef
    <|> (n.as? .binaryExpression).map .binary
    <|> (n.as? .unaryExpression).map .unary
    <|> (n.as? .callExpression).map .call
    <|> (if isOther n.kind then some (.other n) else none)

/-- The node of an expression. -/
def node : Expression → Node
  | .literal n => n.node
  | .nameRef n => n.node
  | .binary n => n.node
  | .unary n => n.node
  | .call n => n.node
  | .other n => n

end Expression

namespace Statement

/-- A node as a statement. -/
def ofNode? (n : Node) : Option Statement :=
  (n.as? .expressionStatement).map .expression
    <|> (n.as? .returnStatement).map .returns
    <|> (n.as? .ifStatement).map .ifs
    <|> (n.as? .forStatement).map .loop
    <|> (n.as? .block).map .block
    <|> (if n.kind.isStatement || n.kind == .error then some (.other n) else none)

/-- The node of a statement. -/
def node : Statement → Node
  | .expression n => n.node
  | .returns n => n.node
  | .ifs n => n.node
  | .loop n => n.node
  | .block n => n.node
  | .other n => n

end Statement

namespace Node

/-- The first child that is an expression. -/
def expression? (n : Node) : Option Expression := n.nodes.findSome? Expression.ofNode?

/-- The children that are expressions. -/
def expressions (n : Node) : List Expression := n.nodes.filterMap Expression.ofNode?

end Node

/-! ## Files and declarations -/

namespace SourceFile

/-- The package clause. -/
def packageClause? (f : SourceFile) : Option PackageClause := f.node.child? _

/-- The declarations of imports. -/
def imports (f : SourceFile) : List ImportDeclaration := f.node.typedChildren _

/-- The functions and methods. -/
def functions (f : SourceFile) : List FunctionDeclaration := f.node.typedChildren _

/-- All declarations, in the order of the text. -/
def declarations (f : SourceFile) : List Node :=
  f.node.nodes.filter fun n => n.kind.isDeclaration && n.kind != .packageClause

end SourceFile

/-- The name of the package. -/
def PackageClause.name? (p : PackageClause) : Option DeclaredName := p.node.child? _

namespace DeclaredName

/-- The identifier. -/
def identifier? (n : DeclaredName) : Option Leaf := n.node.tokenOf? .identifier

/-- The characters of the identifier. -/
def text (n : DeclaredName) : Text := (n.identifier?.map Leaf.text).getD []

end DeclaredName

/-- The imports of a declaration. -/
def ImportDeclaration.specs (d : ImportDeclaration) : List ImportSpec := d.node.typedChildren _

namespace ImportSpec

/-- The name the package gets in the file, `_` and `.` included. -/
def alias? (s : ImportSpec) : Option Leaf :=
  ((s.node.child? .name).bind DeclaredName.identifier?) <|> s.node.tokenOf? .dot

/-- The token of the path. -/
def pathToken? (s : ImportSpec) : Option Leaf :=
  s.node.tokens.find? fun l =>
    match l.kind with
    | .string | .rawString | .unterminatedString | .unterminatedRawString => true
    | _ => false

/-- Quotes of either kind. -/
def isQuote (c : Char) : Bool := c = '"' || c = '`'

/-- A text without one quote at its front. -/
def dropQuote : Text → Text
  | [] => []
  | c :: cs => if isQuote c then cs else c :: cs

/-- A text without one quote at its front and one at its end. -/
def unquote (t : Text) : Text := (dropQuote (dropQuote t).reverse).reverse

/-- The path without its quotes. -/
def path? (s : ImportSpec) : Option Text := s.pathToken?.map fun l => unquote l.text

end ImportSpec

namespace FunctionDeclaration

/-- The name. -/
def name? (f : FunctionDeclaration) : Option DeclaredName := f.node.child? _

/-- The receiver of a method. -/
def receiver? (f : FunctionDeclaration) : Option Node := f.node.nodeOf? .receiver

/-- The parameters. -/
def parameters? (f : FunctionDeclaration) : Option ParameterList := f.node.child? _

/-- The result. -/
def result? (f : FunctionDeclaration) : Option Node := f.node.nodeOf? .result

/-- The body. -/
def body? (f : FunctionDeclaration) : Option Block := f.node.child? _

end FunctionDeclaration

/-- The parameters of a list. -/
def ParameterList.parameters (l : ParameterList) : List Parameter := l.node.typedChildren _

namespace Parameter

/-- The name. -/
def name? (p : Parameter) : Option DeclaredName := p.node.child? _

/-- The type. -/
def type? (p : Parameter) : Option Node := p.node.nodes.find? (·.kind != .name)

end Parameter

/-- The types of a declaration. -/
def TypeDeclaration.specs (d : TypeDeclaration) : List TypeSpec := d.node.typedChildren _

namespace TypeSpec

/-- The name. -/
def name? (s : TypeSpec) : Option DeclaredName := s.node.child? _

/-- Whether the type is another name for an existing one. -/
def isAlias (s : TypeSpec) : Bool := (s.node.tokenOf? .assign).isSome

/-- What the type stands for. -/
def type? (s : TypeSpec) : Option Node :=
  s.node.nodes.find? fun n => n.kind != .name && n.kind != .typeParameterList

end TypeSpec

/-- The specifications of a declaration of variables. -/
def VariableDeclaration.specs (d : VariableDeclaration) : List VariableSpec := d.node.typedChildren _

/-- The names of declared variables. -/
def VariableSpec.names (s : VariableSpec) : List DeclaredName := s.node.typedChildren _

/-- The specifications of a declaration of constants. -/
def ConstantDeclaration.specs (d : ConstantDeclaration) : List ConstantSpec := d.node.typedChildren _

/-- The names of declared constants. -/
def ConstantSpec.names (s : ConstantSpec) : List DeclaredName := s.node.typedChildren _

/-! ## Statements -/

/-- The statements of a block. -/
def Block.statements (b : Block) : List Statement := b.node.nodes.filterMap Statement.ofNode?

/-- The expression of a statement. -/
def ExpressionStatement.expression? (s : ExpressionStatement) : Option Expression := s.node.expression?

/-- The values of a `return`, those of a list one by one. -/
def ReturnStatement.values (s : ReturnStatement) : List Expression :=
  ((s.node.nodeOf? .expressionList).getD s.node).expressions

namespace IfStatement

/-- The semicolon in the header. -/
def semicolon? (s : IfStatement) : Option Leaf := s.node.tokenOf? .semicolon

/-- The statement before the semicolon of the header. -/
def init? (s : IfStatement) : Option Node := do
  let semicolon ← s.semicolon?
  let first ← s.node.nodes.head?
  if first.span.stop ≤ semicolon.span.start then some first else none

/-- The condition: the first expression of the header, behind its semicolon if there is one. -/
def condition? (s : IfStatement) : Option Expression :=
  let start := (s.semicolon?.map (·.span.stop)).getD 0
  let header := s.node.nodes.takeWhile (·.kind != .block)
  (header.filter (start ≤ ·.span.start)).findSome? Expression.ofNode?

/-- The block behind the condition. -/
def thenBranch? (s : IfStatement) : Option Block := s.node.child? _

/-- The `if` or block behind the `else`. -/
def elseBranch? (s : IfStatement) : Option Statement := do
  let _ ← s.node.tokenOf? .elseKeyword
  let branch ← (s.node.nodes.filter fun n => n.kind == .ifStatement || n.kind == .block)[1]?
  Statement.ofNode? branch

end IfStatement

namespace ForStatement

/-- The clause or the condition before the body. -/
def header? (s : ForStatement) : Option Node := (s.node.nodes.takeWhile (·.kind != .block)).head?

/-- The body. -/
def body? (s : ForStatement) : Option Block := s.node.child? _

end ForStatement

/-! ## Expressions -/

/-- The token of a literal. -/
def Literal.token? (l : Literal) : Option Leaf := l.node.firstSignificant?

/-- The characters of a name. -/
def NameRef.text (n : NameRef) : Text := ((n.node.tokenOf? .identifier).map Leaf.text).getD []

namespace BinaryExpression

/-- The operator. -/
def operator? (e : BinaryExpression) : Option Leaf := e.node.firstSignificant?

/-- The left operand. -/
def left? (e : BinaryExpression) : Option Expression := e.node.nodes.head?.bind Expression.ofNode?

/-- The right operand: the first node behind the operator. -/
def right? (e : BinaryExpression) : Option Expression := do
  let operator ← e.operator?
  let node ← e.node.nodes.find? (operator.span.stop ≤ ·.span.start)
  Expression.ofNode? node

end BinaryExpression

namespace UnaryExpression

/-- The operator. -/
def operator? (e : UnaryExpression) : Option Leaf := e.node.firstSignificant?

/-- The operand. -/
def operand? (e : UnaryExpression) : Option Expression := e.node.expression?

end UnaryExpression

namespace CallExpression

/-- What is called. -/
def callee? (e : CallExpression) : Option Expression := e.node.nodes.head?.bind Expression.ofNode?

/-- The arguments. -/
def arguments? (e : CallExpression) : Option ArgumentList := e.node.child? _

end CallExpression

/-- The arguments of a list. -/
def ArgumentList.arguments (l : ArgumentList) : List Expression := l.node.expressions

end GoFront
