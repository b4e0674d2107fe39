import AnnotatedShader.Diagnostic
import AnnotatedShader.Source.Line
import AnnotatedShader.Source.Stage

set_option autoImplicit false

/-!
# Annotated sources

An annotated source is a text whose lines have roles and whose stage is known.  Its blocks, its
directive lines and its annotation text are read off the roles.  The annotation text keeps the
numbering of the file: every line that is no annotation is blank there, so a position in it is a
position in the file.

The last directive decides about the stage, with a warning for each one that it replaces.  A source
is refused for a directive that names no stage, and for a block that is never closed, in this order.
-/

namespace AnnotatedShader.Source

open AnnotatedShader.Text

/-- A block of annotations, between the lines of its two sentinels. -/
structure Block where
  opening : Nat
  closing : Nat
  deriving DecidableEq, Repr, Inhabited

/-- Whether a line lies strictly inside a block. -/
def Block.contains (b : Block) (line : Nat) : Bool := b.opening < line && line < b.closing

/-- The blocks among lines numbered from `line` on; `opened` is the line of an open sentinel. -/
def blocksFrom : (line : Nat) → (opened : Option Nat) → List LineRole → List Block
  | _, _, [] => []
  | line, _, .opening :: rest => blocksFrom (line + 1) (some line) rest
  | line, some opened, .closing :: rest => ⟨opened, line⟩ :: blocksFrom (line + 1) none rest
  | line, opened, _ :: rest => blocksFrom (line + 1) opened rest

/-- The line of a sentinel that no other one closes. -/
def unclosedFrom : (line : Nat) → (opened : Option Nat) → List LineRole → Option Nat
  | _, opened, [] => opened
  | line, _, .opening :: rest => unclosedFrom (line + 1) (some line) rest
  | line, _, .closing :: rest => unclosedFrom (line + 1) none rest
  | line, opened, _ :: rest => unclosedFrom (line + 1) opened rest

/-- A stage directive: its line, the column of its `#` and its value. -/
structure Directive where
  line : Nat
  column : Nat
  value : String
  deriving DecidableEq, Repr, Inhabited

/-- The stage directives among lines numbered from `line` on. -/
def directivesFrom : (line : Nat) → List (String × LineRole) → List Directive
  | _, [] => []
  | line, (text, .directive value) :: rest =>
    ⟨line, markColumn text, value⟩ :: directivesFrom (line + 1) rest
  | line, _ :: rest => directivesFrom (line + 1) rest

/-- Things that deserve a warning but stop nothing. -/
inductive Warning where
  | stageOverridden (file old new : String)
  | stageMissing (file : String)
  deriving DecidableEq, Repr, Inhabited

/-- The stage of a source without a directive. -/
def defaultStage : Stage := .vertex

/-- The wording of a warning. -/
def Warning.message : Warning → String
  | .stageOverridden file old new =>
    file ++ ": stage directive overrides '" ++ old ++ "' with '" ++ new ++ "'"
  | .stageMissing file => file ++ ": no shader stage specified, assuming " ++ defaultStage.name

/-- The warnings for stages that replace each other in turn. -/
def overrides (file : String) : List Stage → List Warning
  | a :: b :: rest =>
    if a = b then overrides file (b :: rest)
    else .stageOverridden file a.name b.name :: overrides file (b :: rest)
  | _ => []

/-- A source whose lines have their roles. -/
structure Annotated where
  stage : Stage
  lines : List String
  roles : List LineRole
  deriving DecidableEq, Repr, Inhabited

namespace Annotated

/-- The blocks, in the order of the file. -/
def blocks (a : Annotated) : List Block := blocksFrom 1 none a.roles

/-- Whether a line is a sentinel or a stage directive. -/
def isDirective : LineRole → Bool
  | .opening | .closing | .directive _ => true
  | .annotated | .body => false

/-- The numbers of the sentinels and stage directives. -/
def directiveLines (a : Annotated) : List Nat :=
  (a.roles.zipIdx 1).filterMap fun (role, line) => if isDirective role then some line else none

/-- The index of the block that a line lies in. -/
def blockOf? (a : Annotated) (line : Nat) : Option Nat := a.blocks.findIdx? (·.contains line)

/-- A line as the annotation text has it. -/
def annotationLine : String × LineRole → String
  | (text, .annotated) => text
  | _ => ""

/-- The annotations at their own lines, with blank lines for all others. -/
def annotationText (a : Annotated) : String :=
  joinLines ((a.lines.zip a.roles).map annotationLine) ++ "\n"

end Annotated

/-- The outcome of reading the roles of a source, and the warnings on the way. -/
structure Reading where
  outcome : Except Diagnostic Annotated
  warnings : List Warning

/-- The stages that directives name, as far as the first that names none. -/
def namedStages (ds : List Directive) : List Stage :=
  (ds.map fun d => Stage.ofName? d.value).takeWhile Option.isSome |>.filterMap id

/-- Reads a source.  A directive for an unknown stage is reported before an open block, for which
the reader has to see the whole file. -/
def read (file text : String) : Reading :=
  let ls := lines text
  let rs := roles ls
  let directives := directivesFrom 1 (ls.zip rs)
  let stages := namedStages directives
  let changes := overrides file stages
  match directives.find? (fun d => (Stage.ofName? d.value).isNone) with
  | some d => ⟨.error ⟨file, ⟨d.line, d.column⟩, .unknownStage d.value⟩, changes⟩
  | none =>
    match unclosedFrom 1 none rs with
    | some line => ⟨.error ⟨file, ⟨line, 1⟩, .unterminatedBlock⟩, changes⟩
    | none =>
      match stages.getLast? with
      | some stage => ⟨.ok ⟨stage, ls, rs⟩, changes⟩
      | none => ⟨.ok ⟨defaultStage, ls, rs⟩, changes ++ [.stageMissing file]⟩

end AnnotatedShader.Source
