import AnnotatedApi.Source.Token

/-! # Syntax of Rust source

The syntax trees that source files are read into. They keep what the rest of the library asks for:
attributes, structs with their fields and types, implementation blocks, functions and modules, and
from the bodies those expressions that can spell routes. Everything else that can hold expressions
is kept as a list of parts, in the order of the text. -/

namespace AnnotatedApi.Source

/-- What kind of expression a compound expression is, as far as reading the text after it depends on
it. -/
inductive ExprShape where
  /-- A block, a loop, a condition or a match. -/
  | blockLike
  | range
  /-- A macro call with braces. -/
  | braceMacro
  /-- A macro call with other delimiters. -/
  | plainMacro
  /-- An expression that is kept as mere text, with nothing in it. -/
  | textOnly
  | plain
  deriving DecidableEq, Repr

/-- What stands before the segments of a path. -/
inductive PathStart where
  | plain
  /-- A pair of colons. -/
  | global
  /-- A type in angle brackets. -/
  | qualified
  deriving DecidableEq, Repr

/-- What generic arguments follow the name of a segment. -/
inductive ArgsForm where
  | none
  /-- Angle brackets with nothing between them. -/
  | empty
  | angle
  deriving DecidableEq, Repr

mutual

/-- A type. -/
inductive TypeExpr where
  /-- A path, with the parts of what stands before its segments. -/
  | path (start : PathStart) (parts : List Part) (segments : List PathSegment)
  | reference (target : TypeExpr)
  /-- A slice or an array. -/
  | sequence (parts : List Part)
  /-- Bounds without a word before them; `isSingle` when it is one bound and no plus sign. -/
  | bounds (isSingle : Bool) (parts : List Part)
  | other (parts : List Part)

/-- A segment of a path: its name, what arguments follow it, the first of them if that is a type,
and the parts within them. -/
inductive PathSegment where
  | mk (name : String) (args : ArgsForm) (firstType : Option TypeExpr) (parts : List Part)

/-- An expression. The parts of the attributes before it come first in it. -/
inductive Expr where
  | literal (attrs : List Part) (value : Literal)
  /-- A path, with the parts of what stands before its segments. -/
  | path (start : PathStart) (parts : List Part) (segments : List PathSegment)
  | call (attrs : List Part) (callee : Expr) (args : List Expr)
  | methodCall (attrs : List Part) (receiver : Expr) (method : String) (parts : List Part)
      (args : List Expr)
  /-- An operator or a cast, with its left operand and the parts after that. -/
  | operation (isComparison : Bool) (left : Expr) (parts : List Part)
  /-- Any other expression with what it holds. -/
  | compound (shape : ExprShape) (parts : List Part)

/-- A part of a body: an expression, a name bound to the value of one, or a function with its own
parts. -/
inductive Part where
  | expr (value : Expr)
  | binding (name : String) (value : Expr)
  | function (name : String) (parts : List Part)

end

instance : Inhabited Expr := ⟨.compound .plain []⟩

instance : Inhabited TypeExpr := ⟨.other []⟩

namespace PathSegment

/-- The name of the segment. -/
def name : PathSegment → String
  | mk name _ _ _ => name

/-- What arguments follow the name. -/
def args : PathSegment → ArgsForm
  | mk _ args _ _ => args

/-- Whether arguments follow the name, be it an empty list of them. -/
def hasArgs (segment : PathSegment) : Bool :=
  segment.args != .none

/-- The parts within the generic arguments. -/
def parts : PathSegment → List Part
  | mk _ _ _ parts => parts

end PathSegment

namespace TypeExpr

/-- The parts within a type. -/
def parts : TypeExpr → List Part
  | path _ parts segments => parts ++ segments.flatMap PathSegment.parts
  | reference target => target.parts
  | sequence parts => parts
  | bounds _ parts => parts
  | other parts => parts

/-- The last segment of a type that is a path. -/
def lastSegment? : TypeExpr → Option PathSegment
  | path _ _ segments => segments.getLast?
  | _ => none

/-- The name that a type goes by: that of its last segment, references looked through. -/
def name? : TypeExpr → Option String
  | path _ _ segments => segments.getLast?.map PathSegment.name
  | reference target => target.name?
  | _ => none

end TypeExpr

namespace Expr

/-- The shape of an expression. -/
def shape : Expr → ExprShape
  | compound shape _ => shape
  | _ => .plain

/-- Whether the expression compares its operands. -/
def isComparison : Expr → Bool
  | operation isComparison _ _ => isComparison
  | _ => false

/-- A compound expression of plain shape that holds others. -/
def holding (exprs : List Expr) : Expr :=
  compound .plain (exprs.map .expr)

/-- Put the parts of attributes before an expression. -/
def withAttrs (attrs : List Part) : Expr → Expr
  | literal own value => literal (attrs ++ own) value
  | path start parts segments => path start (attrs ++ parts) segments
  | call own callee args => call (attrs ++ own) callee args
  | methodCall own receiver method parts args =>
      methodCall (attrs ++ own) receiver method parts args
  | operation isComparison left parts => operation isComparison (left.withAttrs attrs) parts
  | compound .textOnly parts => compound .textOnly parts
  | compound shape parts => compound shape (attrs ++ parts)

end Expr

/-! ## Attributes and items -/

/-- What follows the path of an attribute. -/
inductive AttributeForm where
  /-- Nothing. -/
  | bare
  /-- Tokens between delimiters. -/
  | list (tokens : List Token)
  /-- An equals sign and an expression. -/
  | value (expr : Expr)

/-- An attribute. -/
structure Attribute where
  isGlobal : Bool
  path : List String
  form : AttributeForm

namespace Attribute

/-- Whether the path of the attribute is the single word. -/
def isNamed (word : String) (a : Attribute) : Bool :=
  !a.isGlobal && a.path == [word]

/-- The parts within an attribute. -/
def parts (a : Attribute) : List Part :=
  match a.form with
  | .value e => [.expr e]
  | _ => []

end Attribute

/-- The parts within attributes. -/
def attributeParts (attrs : List Attribute) : List Part :=
  attrs.flatMap Attribute.parts

/-- A field of a struct; the fields of a tuple have no names. -/
structure Field where
  attrs : List Attribute
  name : Option String
  type : TypeExpr

/-- A struct. -/
structure StructItem where
  attrs : List Attribute
  name : String
  isGeneric : Bool
  fields : List Field

/-- A function or method with a body. -/
structure FunctionItem where
  attrs : List Attribute
  name : String

/-- An implementation block: the last segment of the trait's path if there is a trait, the type, and
the methods. -/
structure ImplItem where
  attrs : List Attribute
  traitName : Option String
  selfType : TypeExpr
  methods : List FunctionItem

/-- An item of a file or module, with the parts within it. -/
inductive Item where
  | struct (item : StructItem) (parts : List Part)
  | implementation (item : ImplItem) (parts : List Part)
  | function (item : FunctionItem) (parts : List Part)
  /-- A module; it has no content when it lives in another file. -/
  | module (attrs : List Attribute) (name : String) (content : Option (List Item))
      (parts : List Part)
  | other (parts : List Part)

namespace Item

/-- The parts within an item. -/
def parts : Item → List Part
  | struct _ parts => parts
  | implementation _ parts => parts
  | function _ parts => parts
  | module _ _ _ parts => parts
  | other parts => parts

end Item

/-- A source file. -/
structure SourceFile where
  attrs : List Attribute
  items : List Item

namespace SourceFile

/-- The parts of a file. -/
def parts (file : SourceFile) : List Part :=
  attributeParts file.attrs ++ file.items.flatMap Item.parts

end SourceFile

end AnnotatedApi.Source
