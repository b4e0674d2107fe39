import AnnotatedShader.Glsl.Generate
import AnnotatedShader.Model.Build
import AnnotatedShader.Reflection
import AnnotatedShader.Slot.Program
import AnnotatedShader.Statement.Parser
import AnnotatedShader.Validator

set_option autoImplicit false

/-!
# Compiling a batch

All files of a batch are read before the first is analysed, because they import from each other, and
all are analysed before the first is generated, because they share their slots.  A diagnostic ends
the work on its own file only.

A file whose pins clash with those of other files loses its model, and the slots are computed again
for the rest.

`Work` is what is known of a file between two phases, and `compile` is the sequence of the phases.
A diagnostic is kept with its file by `spare`; every other failure passes through and ends the
batch.  The validator is an argument, and it is asked about the generated text of a file only when
the options want this.
-/

namespace AnnotatedShader

/-- A file of a batch.  Other files import from it by its name. -/
structure SourceFile where
  name : String
  text : String
  deriving DecidableEq, Repr, Inhabited

/-- A file that has been read. -/
structure ParsedFile where
  source : Source.Annotated
  module : Module
  deriving DecidableEq, Repr, Inhabited

/-- The work on a file: what it has been read as, its model as long as nothing is wrong, and what
has gone wrong. -/
structure Work where
  name : String
  parsed : Option ParsedFile
  model : Option Model
  diagnostics : List Diagnostic
  deriving DecidableEq, Repr, Inhabited

/-- What has become of a file. -/
structure FileResult where
  name : String
  stage : Option Stage
  source : Option String
  reflection : Option Reflection
  diagnostics : List Diagnostic
  validation : Option ValidationResult
  deriving DecidableEq, Repr, Inhabited

/-- Whether nothing is wrong with a file. -/
def FileResult.isOk (r : FileResult) : Bool := r.diagnostics.isEmpty

/-- A failure as a diagnostic of one file, if it is one. -/
def spare {α : Type} : Except Failure α → Except Failure (Except Diagnostic α)
  | .ok a => .ok (.ok a)
  | .error (.diagnosed d) => .ok (.error d)
  | .error e => .error e

namespace Batch

/-! ## Reading -/

/-- Reads a file. -/
def readFile (f : SourceFile) : Except Failure ParsedFile :=
  match (Source.read f.name f.text).outcome with
  | .error d => .error (.diagnosed d)
  | .ok a => do
    let statements ← Statement.parse f.name a.annotationText
    .ok ⟨a, ⟨f.name, statements⟩⟩

/-- Work that has ended with a diagnostic. -/
def rejected (name : String) (d : Diagnostic) : Work := ⟨name, none, none, [d]⟩

/-- The diagnostic for a file of a name that another file has. -/
def duplicateFile (name : String) : Diagnostic := ⟨name, .nowhere, .duplicate .file name⟩

/-- Reads files in order.  Of files of one name the first counts. -/
def readAll : (seen : List String) → List SourceFile → Except Failure (List Work)
  | _, [] => .ok []
  | seen, f :: rest => do
    if seen.contains f.name then do
      let others ← readAll seen rest
      .ok (rejected f.name (duplicateFile f.name) :: others)
    else do
      let outcome ← spare (readFile f)
      let others ← readAll (f.name :: seen) rest
      match outcome with
      | .ok p => .ok (⟨f.name, some p, none, []⟩ :: others)
      | .error d => .ok (rejected f.name d :: others)

/-- The files whose text is read: of each name the first. -/
def firstOfName : (seen : List String) → List SourceFile → List SourceFile
  | _, [] => []
  | seen, f :: rest =>
    if seen.contains f.name then firstOfName seen rest
    else f :: firstOfName (f.name :: seen) rest

/-- The warnings that reading gives. -/
def warnings (files : List SourceFile) : List Source.Warning :=
  (firstOfName [] files).flatMap fun f => (Source.read f.name f.text).warnings

/-- The namespace of all files that have been read. -/
def namespaceOf (ws : List Work) : Namespace :=
  .ofModules (ws.filterMap fun w => w.parsed.map ParsedFile.module)

/-! ## Analysis -/

/-- The model of a file, with its slots. -/
def analyse (ns : Namespace) (p : ParsedFile) : Except Failure Model := do
  let imports ← p.module.resolveImports ns
  let m ← Model.build p.module p.source.stage ns imports
  m.assignSlots

/-- Analyses a file that has been read. -/
def analyseWork (ns : Namespace) (w : Work) : Except Failure Work :=
  match w.parsed with
  | none => .ok w
  | some p => do
    match ← spare (analyse ns p) with
    | .ok m => .ok { w with model := some m }
    | .error d => .ok { w with diagnostics := w.diagnostics ++ [d] }

/-! ## Slots of the program -/

/-- The models that are left. -/
def models (ws : List Work) : List Model := ws.filterMap Work.model

/-- Takes the model from the first file that a diagnostic is about. -/
def dropModel (d : Diagnostic) : List Work → List Work
  | [] => []
  | w :: rest =>
    if (w.model.map Model.file) = some d.file then
      { w with model := none, diagnostics := w.diagnostics ++ [d] } :: rest
    else w :: dropModel d rest

/-- Puts models into the places of those that are left. -/
def replaceModels : List Work → List Model → List Work
  | [], _ => []
  | w :: rest, ms =>
    match w.model, ms with
    | some _, m :: ms => { w with model := some m } :: replaceModels rest ms
    | _, ms => w :: replaceModels rest ms

/-- Gives the files common slots, without those whose pins clash; `fuel` bounds their number. -/
def relocateFrom : Nat → List Work → List Work
  | 0, ws => ws
  | fuel + 1, ws =>
    match Program.relocate (models ws) with
    | .ok ms => replaceModels ws ms
    | .error d => relocateFrom fuel (dropModel d ws)

/-- Gives the files common slots.  Every round but the last takes a model. -/
def relocate (ws : List Work) : List Work := relocateFrom (ws.length + 1) ws

/-! ## Generation -/

/-- The result for a file. -/
def generate (o : Options) (v : Validator) (w : Work) : Except Failure FileResult :=
  let failed : FileResult :=
    ⟨w.name, w.parsed.map (·.source.stage), none, none, w.diagnostics, none⟩
  match w.parsed, w.model with
  | some p, some m => do
    let source ← Glsl.generate p.source m o
    let done : FileResult :=
      { failed with
        source := some source
        reflection := if o.emitReflection then some (.ofModel m) else none }
    if o.validate then do
      match ← spare (v.validate o.environment source m.stage m.file) with
      | .ok r => .ok { done with validation := some r }
      | .error d => .ok { done with diagnostics := done.diagnostics ++ [d] }
    else .ok done
  | _, _ => .ok failed

/-! ## All of it -/

/-- The work on all files up to generation. -/
def analyseAll (o : Options) (files : List SourceFile) : Except Failure (List Work) := do
  let ws ← readAll [] files
  let ns := namespaceOf ws
  let ws ← ws.mapM (analyseWork ns)
  .ok (if o.programBindings then relocate ws else ws)

/-- Compiles files, and gives one result for each in their order. -/
def compile (o : Options) (v : Validator) (files : List SourceFile) :
    Except Failure (List FileResult) := do
  let ws ← analyseAll o files
  ws.mapM (generate o v)

/-- What a validator is asked in the course of a batch: the source of each file that has one. -/
def validated (o : Options) (rs : List FileResult) : List (Stage × String) :=
  if o.validate then
    rs.filterMap fun r => do
      let stage ← r.stage
      let source ← r.source
      some (stage, source)
  else []

end Batch

end AnnotatedShader
