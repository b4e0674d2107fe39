import AnnotatedShader.Position
import AnnotatedShader.Number.Binary64
import AnnotatedShader.Statement.Attribute

set_option autoImplicit false

/-!
# Statements

The annotations of a file are a list of statements: imports, declarations and comments, each at its
position.  An import or a declaration introduces one name.

A `Module` is a file with its statements.  Types are kept as references, a name with an element and
a size, because a name may belong to another file.
-/

namespace AnnotatedShader

/-- A type as it is written: a name, an element type behind a colon, an array size in brackets. -/
structure TypeRef where
  name : String
  element : Option String
  size : Option Nat
  deriving DecidableEq, Repr, Inhabited

/-- How a written type is shown. -/
def TypeRef.render (t : TypeRef) : String :=
  t.name ++ (t.element.map (":" ++ ·)).getD "" ++
    (t.size.map fun n => "[" ++ toString n ++ "]").getD ""

/-- A typed name: a member of a struct or format, a constant, an output. -/
structure Property where
  type : TypeRef
  name : String
  attr : Option Attribute
  index : Nat
  position : Position
  deriving DecidableEq, Repr, Inhabited

/-- The value of a state entry. -/
inductive StateValue where
  | bool (b : Bool)
  | int (n : Int)
  | float (x : Number.Binary64)
  | name (s : String)
  deriving DecidableEq, Repr, Inhabited

/-- A key and its value in a pipeline or blend function. -/
structure StateEntry where
  key : String
  value : StateValue
  deriving DecidableEq, Repr, Inhabited

/-- A declaration: all that a file offers to other files. -/
inductive Declaration where
  | buffer (name : String) (attr : Option Attribute) (fields : List Property)
  | constant (p : Property)
  | output (p : Property)
  | vertexFormat (name : String) (attr : Option Attribute) (fields : List Property)
  | pipeline (name : String) (entries : List StateEntry)
  | blendFunc (name : String) (entries : List StateEntry)
  deriving DecidableEq, Repr, Inhabited

namespace Declaration

/-- The name that a declaration introduces. -/
def name : Declaration → String
  | .buffer name _ _ | .vertexFormat name _ _ | .pipeline name _ | .blendFunc name _ => name
  | .constant p | .output p => p.name

/-- The class of a declaration in a listing of symbols. -/
def kind : Declaration → String
  | .buffer _ _ _ => "constant_buffer"
  | .constant _ => "constant"
  | .output _ => "output"
  | .vertexFormat _ _ _ => "vertex_format"
  | .pipeline _ _ => "pipeline"
  | .blendFunc _ _ => "blendfunc"

end Declaration

/-- An import of a declaration of another file, under a name of its own or its given one. -/
structure Use where
  file : String
  member : String
  rename : Option String
  deriving DecidableEq, Repr, Inhabited

/-- The name that an import introduces. -/
def Use.name (u : Use) : String := u.rename.getD u.member

/-- What a statement is. -/
inductive StatementBody where
  | use (u : Use)
  | declare (d : Declaration)
  | comment (text : String)
  deriving DecidableEq, Repr, Inhabited

/-- A statement at the position of its first token. -/
structure Statement where
  position : Position
  body : StatementBody
  deriving DecidableEq, Repr, Inhabited

namespace Statement

/-- The name that a statement introduces; a comment introduces none. -/
def name? (s : Statement) : Option String :=
  match s.body with
  | .use u => some u.name
  | .declare d => some d.name
  | .comment _ => none

end Statement

/-- The statements of a file. -/
structure Module where
  file : String
  statements : List Statement
  deriving DecidableEq, Repr, Inhabited

namespace Module

/-- The imports of a file with their positions, in order. -/
def uses (m : Module) : List (Use × Position) :=
  m.statements.filterMap fun s =>
    match s.body with
    | .use u => some (u, s.position)
    | _ => none

/-- The declarations of a file with their positions, in order. -/
def declarations (m : Module) : List (Declaration × Position) :=
  m.statements.filterMap fun s =>
    match s.body with
    | .declare d => some (d, s.position)
    | _ => none

end Module

end AnnotatedShader
