import AnnotatedShader.Glsl.Declaration
import AnnotatedShader.Glsl.Rewrite

set_option autoImplicit false

/-!
# GLSL from an annotated source

The generated text is that of the source, with the declarations of a block in the place of the block
and references rewritten in the body.  Stage directives vanish.  A source that does not state a
version gets one in front.

The lines of a source are grouped into segments, a block or a stretch of body text each.  A stretch
is rewritten as one text, because a call may go on in the next line.  Whether the source states a
version is asked of the lines outside its blocks; the line that is added holds the version of the
options as a numeral, and this can fail like any other numeral (`versionText`).
-/

namespace AnnotatedShader.Glsl

open AnnotatedShader.Text

/-- A stretch of a source: consecutive body lines, or a block by its index. -/
inductive Segment where
  | body (lines : List String)
  | block (index : Nat)
  deriving DecidableEq, Repr, Inhabited

/-- A body segment, unless there are no lines. -/
def bodySegment (chunk : List String) : List Segment :=
  if chunk.isEmpty then [] else [.body chunk]

/-- The segments of lines behind a stretch of body lines; `index` is that of the next block. -/
def segmentsFrom : (chunk : List String) → (index : Nat) → List (String × Source.LineRole) →
    List Segment
  | chunk, _, [] => bodySegment chunk
  | chunk, index, (_, .opening) :: rest =>
    bodySegment chunk ++ .block index :: segmentsFrom [] (index + 1) rest
  | chunk, index, (line, .body) :: rest => segmentsFrom (chunk ++ [line]) index rest
  | chunk, index, _ :: rest => segmentsFrom chunk index rest

/-- The segments of a source. -/
def segments (a : Source.Annotated) : List Segment := segmentsFrom [] 0 (a.lines.zip a.roles)

/-- What a rewritten body refers to.  The root buffer has no instance, so its constants keep their
names; of two members that a body refers to by one name the later counts. -/
def rewritingOf (m : Model) : Rewriting :=
  ⟨((m.buffers.filter fun b => !b.isRoot).flatMap fun b =>
      b.members.map fun member =>
        (b.name ++ "_" ++ member.name, b.name ++ "." ++ member.name)).reverse,
    m.textures.map fun t => (t.name, t.name)⟩

/-- Whether a line states the version. -/
def statesVersion (line : String) : Bool := "#version".toList.isPrefixOf (trimStart line.toList)

/-- Whether a line lies outside all blocks. -/
def isOutside : Source.LineRole → Bool
  | .annotated => false
  | _ => true

/-- Whether a source states its version outside its blocks. -/
def hasVersion (a : Source.Annotated) : Bool :=
  (a.lines.zip a.roles).any fun (line, role) => isOutside role && statesVersion line

/-- The number of the version as a text shows it, if it has not too many digits; a number that is
not given is shown as an empty list of numbers. -/
def versionText (o : Options) : Except Failure String :=
  match o.glslVersion with
  | some n => writeInt n
  | none => .ok "[]"

/-- The line that states the version. -/
def versionLine (o : Options) : Except Failure String := do
  let version ← versionText o
  .ok (String.ofList (trimEnd ("#version " ++ version ++ " " ++ o.profile).toList))

/-- What stands in front of a text: the version, unless its source states one. -/
def heading (a : Source.Annotated) (o : Options) : Except Failure (List String) :=
  if hasVersion a then .ok []
  else do
    let line ← versionLine o
    .ok [line]

/-- The text of a segment: lines of declarations, or rewritten lines of the body as one piece. -/
def segmentLines (r : Rewriting) (is : List Item) : Segment → Except Failure (List String)
  | .body ls => .ok [String.ofList (rewrite r (joinLines ls).toList)]
  | .block index => do
    let parts ← (declarationsOf is index).mapM Declaration.lines
    .ok parts.flatten

/-- The GLSL text of a source with its model. -/
def generate (a : Source.Annotated) (m : Model) (o : Options) : Except Failure String := do
  let items ← items a m o
  let parts ← (segments a).mapM (segmentLines (rewritingOf m) items)
  let heading ← heading a o
  .ok (joinLines (heading ++ parts.flatten) ++ "\n")

end AnnotatedShader.Glsl
