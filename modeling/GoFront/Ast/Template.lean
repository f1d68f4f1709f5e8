import GoFront.Ast.Basic

/-!
# Typed nodes of templates

The directives and pipelines of a template with the parts they are asked for.
-/

namespace GoFront

/-- A template. -/
abbrev TemplateRoot := Typed .template
/-- The sequence in a block. -/
abbrev TemplateList := Typed .templateList
/-- A directive that prints a pipeline, or a comment. -/
abbrev TemplateAction := Typed .templateAction
/-- A call of a template. -/
abbrev TemplateCall := Typed .templateCall
/-- An `else` branch. -/
abbrev TemplateElse := Typed .templateElse
/-- The `end` of a block. -/
abbrev TemplateEnd := Typed .templateEnd
/-- A pipeline. -/
abbrev Pipeline := Typed .templatePipeline
/-- The declaration at the front of a pipeline. -/
abbrev PipelineDeclaration := Typed .templateDeclaration
/-- A command. -/
abbrev Command := Typed .templateCommand
/-- Fields that follow one another. -/
abbrev FieldChain := Typed .templateFieldChain
/-- A variable. -/
abbrev TemplateVariable := Typed .templateVariable

/-- The block directives. -/
inductive BlockKind where
  /-- A condition. -/
  | conditional
  /-- A loop. -/
  | range
  /-- A condition that moves the dot. -/
  | with
  /-- A definition. -/
  | define
  /-- A definition and its use. -/
  | block
  deriving DecidableEq, Repr

/-- The kind of the nodes of a block directive. -/
def BlockKind.kind : BlockKind → Kind
  | .conditional => .templateIf
  | .range => .templateRange
  | .with => .templateWith
  | .define => .templateDefine
  | .block => .templateBlock

/-- A block directive. -/
abbrev BlockDirective (b : BlockKind) := Typed b.kind

/-- The directives of a template, without the text between them. -/
def TemplateRoot.directives (t : TemplateRoot) : List Node := t.node.nodes

namespace TemplateList

/-- The directives of a sequence. -/
def directives (l : TemplateList) : List Node := l.node.nodes

/-- The text between the directives of a sequence. -/
def texts (l : TemplateList) : List Leaf := l.node.tokens.filter (·.kind == .text)

end TemplateList

/-- The pipeline of a directive. -/
def TemplateAction.pipeline? (a : TemplateAction) : Option Pipeline := a.node.child? _

/-- The name of a template as written, quotes included. -/
def Node.templateName? (n : Node) : Option Leaf := n.tokenOf? .string <|> n.tokenOf? .rawString

namespace BlockDirective

variable {b : BlockKind}

/-- The pipeline of the directive that opens the block. -/
def pipeline? (d : BlockDirective b) : Option Pipeline := d.node.child? _

/-- The body. -/
def body? (d : BlockDirective b) : Option TemplateList := d.node.child? _

/-- The `end`. -/
def end? (d : BlockDirective b) : Option TemplateEnd := d.node.child? _

/-- The `else` branches in order. -/
def elseClauses (d : BlockDirective b) : List TemplateElse := d.node.typedChildren _

/-- The name of a definition. -/
def name? (d : BlockDirective b) : Option Leaf := d.node.templateName?

end BlockDirective

namespace TemplateCall

/-- The name of the template that is called. -/
def name? (c : TemplateCall) : Option Leaf := c.node.templateName?

/-- The pipeline whose value the template gets. -/
def pipeline? (c : TemplateCall) : Option Pipeline := c.node.child? _

end TemplateCall

namespace TemplateElse

/-- The keyword of a branch with a condition of its own. -/
def chainedKeyword? (e : TemplateElse) : Option Leaf :=
  e.node.tokenOf? .ifKeyword <|> e.node.tokenOf? .withKeyword

/-- The condition of the branch. -/
def pipeline? (e : TemplateElse) : Option Pipeline := e.node.child? _

/-- The body of the branch. -/
def body? (e : TemplateElse) : Option TemplateList := e.node.child? _

end TemplateElse

namespace Pipeline

/-- The declaration at the front. -/
def declaration? (p : Pipeline) : Option PipelineDeclaration := p.node.child? _

/-- The commands. -/
def commands (p : Pipeline) : List Command := p.node.typedChildren _

end Pipeline

namespace PipelineDeclaration

/-- The variables that are declared or set. -/
def targets (d : PipelineDeclaration) : List TemplateVariable := d.node.typedChildren _

/-- Whether the variables are set rather than declared. -/
def isAssignment (d : PipelineDeclaration) : Bool := (d.node.tokenOf? .assign).isSome

end PipelineDeclaration

/-- The operands of a command. -/
def Command.operands (c : Command) : List Node := c.node.nodes

/-- The fields of a chain without the dots before them. -/
def FieldChain.fields (c : FieldChain) : List Text :=
  (c.node.tokens.filter (·.kind == .field)).map fun l => l.text.dropWhile (· = '.')

/-- The name of a variable, its dollar sign included. -/
def TemplateVariable.name (v : TemplateVariable) : Text :=
  ((v.node.tokenOf? .variable).map Leaf.text).getD []

end GoFront
