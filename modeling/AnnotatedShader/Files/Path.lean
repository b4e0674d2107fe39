import AnnotatedShader.Text.Line

set_option autoImplicit false

/-!
# Paths

A path is a sequence of names between slashes, below a root if it starts with one.  Repeated slashes
count once and the name `.` counts for nothing, so a path has one spelling that messages show; but
two slashes in front, and no more, are a root of their own.

Paths are compared and shown in their parts; where one leads is a matter of a file tree.  The stem
of a path is the name under which a file of the batch is known.
-/

namespace AnnotatedShader

open AnnotatedShader.Text

/-- A path: the slashes of its root, if it has one, and its names. -/
structure Path where
  root : String
  names : List String
  deriving DecidableEq, Repr, Inhabited

namespace Path

/-- The texts between the slashes of a text. -/
def components : List Char → List (List Char)
  | [] => [[]]
  | '/' :: rest => [] :: components rest
  | c :: rest => consToFirst c (components rest)

/-- The root of a path with so many slashes in front. -/
def rootOf : Nat → String
  | 0 => ""
  | 2 => "//"
  | _ => "/"

/-- Whether a component names something. -/
def isName (component : List Char) : Bool := component != [] && component != ['.']

/-- The path that a text spells. -/
def ofText (text : String) : Path :=
  ⟨rootOf (text.toList.takeWhile (· == '/')).length,
    ((components text.toList).filter isName).map String.ofList⟩

/-- The spelling of a path. -/
def render (p : Path) : String :=
  if p.root.isEmpty && p.names.isEmpty then "." else p.root ++ "/".intercalate p.names

/-- The directory that a path leads through last. -/
def parent (p : Path) : Path := { p with names := p.names.dropLast }

/-- The path of a name below a directory. -/
def child (p : Path) (name : String) : Path := { p with names := p.names ++ [name] }

/-- A name without its suffix.  The suffix starts at the last dot, which must neither start nor end
the name. -/
def withoutSuffix (name : List Char) : List Char :=
  let suffix := name.reverse.takeWhile (· != '.')
  match name.reverse.drop suffix.length with
  | _ :: stem => if suffix.isEmpty || stem.isEmpty then name else stem.reverse
  | [] => name

/-- The last name of a path, without its suffix. -/
def stem (p : Path) : String :=
  match p.names.getLast? with
  | some name => String.ofList (withoutSuffix name.toList)
  | none => ""

end Path

end AnnotatedShader
