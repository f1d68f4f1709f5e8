import GoFront.Ast.Source
import GoFront.Ast.Template
import GoFront.Tree.Walk

/-!
# Outlines

The outline of a tree lists its typed nodes in the order in which they start, each with the name of its
type and the parts it has by name.
-/

namespace GoFront

/-- What a named part of a typed node can be. -/
inductive OutlineValue where
  /-- There is no such part. -/
  | absent
  /-- A yes or no. -/
  | flag (b : Bool)
  /-- Characters. -/
  | text (t : Text)
  /-- A node. -/
  | node (n : Node)
  /-- A token. -/
  | token (l : Leaf)
  /-- A node and the form it has. -/
  | form (tag : String) (n : Node)
  /-- Several parts. -/
  | list (vs : List OutlineValue)

/-- An entry of an outline. -/
structure OutlineEntry where
  /-- The name of the type. -/
  type : String
  /-- The node. -/
  node : Node
  /-- The parts by name. -/
  fields : List (String × OutlineValue)

namespace OutlineValue

/-- A part that may be missing. -/
def ofOption {α : Type} (f : α → OutlineValue) : Option α → OutlineValue
  | some a => f a
  | none => .absent

/-- A typed node. -/
def typed {k : Kind} (t : Typed k) : OutlineValue := .node t.node

/-- A typed node that may be missing. -/
def typed? {k : Kind} (t : Option (Typed k)) : OutlineValue := ofOption typed t

/-- Typed nodes. -/
def typedList {k : Kind} (ts : List (Typed k)) : OutlineValue := .list (ts.map typed)

/-- A node that may be missing. -/
def node? (n : Option Node) : OutlineValue := ofOption .node n

/-- Nodes. -/
def nodes (ns : List Node) : OutlineValue := .list (ns.map .node)

/-- A token that may be missing. -/
def token? (l : Option Leaf) : OutlineValue := ofOption .token l

/-- The name of the form of an expression. -/
def expressionTag : Expression → String
  | .literal _ => "Literal"
  | .nameRef _ => "NameRef"
  | .binary _ => "Binary"
  | .unary _ => "Unary"
  | .call _ => "Call"
  | .other _ => "Other"

/-- The name of the form of a statement. -/
def statementTag : Statement → String
  | .expression _ => "Expr"
  | .returns _ => "Return"
  | .ifs _ => "If"
  | .loop _ => "For"
  | .block _ => "Block"
  | .other _ => "Other"

/-- An expression. -/
def expression (e : Expression) : OutlineValue := .form (expressionTag e) e.node

/-- An expression that may be missing. -/
def expression? (e : Option Expression) : OutlineValue := ofOption expression e

/-- Expressions. -/
def expressions (es : List Expression) : OutlineValue := .list (es.map expression)

/-- A statement. -/
def statement (s : Statement) : OutlineValue := .form (statementTag s) s.node

end OutlineValue

namespace Outline

open OutlineValue

/-- The parts of declarations. -/
def declaration? (n : Node) : Option (String × List (String × OutlineValue)) :=
  (n.as? .sourceFile).map (fun (f : SourceFile) => ("SourceFile", [
    ("package_clause", typed? f.packageClause?), ("imports", typedList f.imports),
    ("funcs", typedList f.functions), ("decls", nodes f.declarations)]))
  <|> (n.as? .packageClause).map (fun (p : PackageClause) => ("PackageClause", [
    ("name", typed? p.name?)]))
  <|> (n.as? .name).map (fun (m : DeclaredName) => ("Name", [
    ("ident", token? m.identifier?), ("text", .text m.text)]))
  <|> (n.as? .importDeclaration).map (fun (d : ImportDeclaration) => ("ImportDecl", [
    ("specs", typedList d.specs)]))
  <|> (n.as? .importSpec).map (fun (s : ImportSpec) => ("ImportSpec", [
    ("alias", token? s.alias?), ("path_token", token? s.pathToken?),
    ("path", ofOption .text s.path?)]))
  <|> (n.as? .functionDeclaration).map (fun (f : FunctionDeclaration) => ("FuncDecl", [
    ("name", typed? f.name?), ("receiver", node? f.receiver?), ("params", typed? f.parameters?),
    ("result", node? f.result?), ("body", typed? f.body?)]))
  <|> (n.as? .parameterList).map (fun (l : ParameterList) => ("ParamList", [
    ("params", typedList l.parameters)]))
  <|> (n.as? .parameter).map (fun (p : Parameter) => ("Param", [
    ("name", typed? p.name?), ("ty", node? p.type?)]))
  <|> (n.as? .typeDeclaration).map (fun (d : TypeDeclaration) => ("TypeDecl", [
    ("specs", typedList d.specs)]))
  <|> (n.as? .typeSpec).map (fun (s : TypeSpec) => ("TypeSpec", [
    ("name", typed? s.name?), ("is_alias", .flag s.isAlias), ("ty", node? s.type?)]))
  <|> (n.as? .variableDeclaration).map (fun (d : VariableDeclaration) => ("VarDecl", [
    ("specs", typedList d.specs)]))
  <|> (n.as? .variableSpec).map (fun (s : VariableSpec) => ("VarSpec", [
    ("names", typedList s.names)]))
  <|> (n.as? .constantDeclaration).map (fun (d : ConstantDeclaration) => ("ConstDecl", [
    ("specs", typedList d.specs)]))
  <|> (n.as? .constantSpec).map (fun (s : ConstantSpec) => ("ConstSpec", [
    ("names", typedList s.names)]))

/-- The parts of statements and expressions. -/
def statement? (n : Node) : Option (String × List (String × OutlineValue)) :=
  (n.as? .block).map (fun (b : Block) => ("Block", [
    ("statements", .list (b.statements.map statement))]))
  <|> (n.as? .expressionStatement).map (fun (s : ExpressionStatement) => ("ExprStmt", [
    ("expr", OutlineValue.expression? s.expression?)]))
  <|> (n.as? .returnStatement).map (fun (s : ReturnStatement) => ("ReturnStmt", [
    ("values", expressions s.values)]))
  <|> (n.as? .ifStatement).map (fun (s : IfStatement) => ("IfStmt", [
    ("init", node? s.init?), ("condition", OutlineValue.expression? s.condition?),
    ("then_branch", typed? s.thenBranch?), ("else_branch", ofOption statement s.elseBranch?)]))
  <|> (n.as? .forStatement).map (fun (s : ForStatement) => ("ForStmt", [
    ("header", node? s.header?), ("body", typed? s.body?)]))
  <|> (n.as? .literal).map (fun (l : Literal) => ("Literal", [("token", token? l.token?)]))
  <|> (n.as? .nameRef).map (fun (r : NameRef) => ("NameRef", [("text", .text r.text)]))
  <|> (n.as? .binaryExpression).map (fun (e : BinaryExpression) => ("BinaryExpr", [
    ("lhs", OutlineValue.expression? e.left?), ("op", token? e.operator?),
    ("rhs", OutlineValue.expression? e.right?)]))
  <|> (n.as? .unaryExpression).map (fun (e : UnaryExpression) => ("UnaryExpr", [
    ("op", token? e.operator?), ("operand", OutlineValue.expression? e.operand?)]))
  <|> (n.as? .callExpression).map (fun (e : CallExpression) => ("CallExpr", [
    ("callee", OutlineValue.expression? e.callee?), ("args", typed? e.arguments?)]))
  <|> (n.as? .argumentList).map (fun (l : ArgumentList) => ("ArgList", [
    ("args", expressions l.arguments)]))

/-- The parts every block directive has. -/
def blockParts {b : BlockKind} (d : BlockDirective b) : List (String × OutlineValue) :=
  [("pipeline", typed? d.pipeline?), ("body", typed? d.body?), ("end", typed? d.end?)]

/-- The parts of a condition or a loop. -/
def controlParts {b : BlockKind} (d : BlockDirective b) : List (String × OutlineValue) :=
  blockParts d ++ [("else_clauses", typedList d.elseClauses)]

/-- The parts of a definition. -/
def definitionParts {b : BlockKind} (d : BlockDirective b) : List (String × OutlineValue) :=
  blockParts d ++ [("name", token? d.name?)]

/-- The parts of templates. -/
def template? (n : Node) : Option (String × List (String × OutlineValue)) :=
  (n.as? .template).map (fun (t : TemplateRoot) => ("Template", [("directives", nodes t.directives)]))
  <|> (n.as? .templateList).map (fun (l : TemplateList) => ("TmplList", [
    ("directives", nodes l.directives), ("texts", .list (l.texts.map .token))]))
  <|> (n.as? .templateAction).map (fun (a : TemplateAction) => ("Action", [
    ("pipeline", typed? a.pipeline?)]))
  <|> (n.as? BlockKind.conditional.kind).map (fun d => ("TmplIf", controlParts d))
  <|> (n.as? BlockKind.range.kind).map (fun d => ("TmplRange", controlParts d))
  <|> (n.as? BlockKind.with.kind).map (fun d => ("TmplWith", controlParts d))
  <|> (n.as? BlockKind.define.kind).map (fun d => ("TmplDefine", definitionParts d))
  <|> (n.as? BlockKind.block.kind).map (fun d => ("TmplBlock", definitionParts d))
  <|> (n.as? .templateCall).map (fun (c : TemplateCall) => ("TmplTemplate", [
    ("name", token? c.name?), ("pipeline", typed? c.pipeline?)]))
  <|> (n.as? .templateElse).map (fun (e : TemplateElse) => ("TmplElse", [
    ("chained_keyword", token? e.chainedKeyword?), ("pipeline", typed? e.pipeline?),
    ("body", typed? e.body?)]))
  <|> (n.as? .templateEnd).map (fun _ => ("TmplEnd", []))
  <|> (n.as? .templatePipeline).map (fun (p : Pipeline) => ("Pipeline", [
    ("declaration", typed? p.declaration?), ("commands", typedList p.commands)]))
  <|> (n.as? .templateDeclaration).map (fun (d : PipelineDeclaration) => ("Declaration", [
    ("variables", typedList d.targets), ("is_assignment", .flag d.isAssignment)]))
  <|> (n.as? .templateCommand).map (fun (c : Command) => ("Command", [("operands", nodes c.operands)]))
  <|> (n.as? .templateFieldChain).map (fun (c : FieldChain) => ("FieldChain", [
    ("fields", .list (c.fields.map .text))]))
  <|> (n.as? .templateVariable).map (fun (v : TemplateVariable) => ("Variable", [
    ("name", .text v.name)]))

/-- The entry of a node, if its kind has a type. -/
def entry? (n : Node) : Option OutlineEntry :=
  (declaration? n <|> statement? n <|> template? n).map fun (type, fields) => ⟨type, n, fields⟩

end Outline

/-- The typed nodes of a tree in the order in which they start. -/
def SyntaxTree.outline (t : SyntaxTree) : List OutlineEntry := t.root.descendants.filterMap Outline.entry?

end GoFront
