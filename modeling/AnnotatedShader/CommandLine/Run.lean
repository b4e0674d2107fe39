import AnnotatedShader.Batch.Narration
import AnnotatedShader.CommandLine.Help
import AnnotatedShader.CommandLine.Request
import AnnotatedShader.Files.Tree

set_option autoImplicit false

/-!
# Runs of the command line

A run takes arguments, a file tree and a validator, and gives a status, two texts and the tree that
it leaves.  All inputs are read before anything is written, and each file that compiled is written
below the output directory under the name of its input, whatever stands there.

The validator is asked only where the arguments want generated GLSL to be validated.  It may be any
validator: what a run leaves alone, and which texts it writes, is proved without assumptions on it.

`Outcome` has everything that can be observed of a run.  It ends with a status, or with a
`Breakdown` where an exception passes through the program: the texts and the tree are then those of
the moment.
-/

namespace AnnotatedShader.CommandLine

/-- Why a run breaks off. -/
inductive Breakdown where
  | batch (e : Failure)
  | file (e : FileFault) (path : Path)
  /-- a flag that was given nothing where a number is wanted -/
  | numberMissing (f : Flag)
  deriving DecidableEq, Repr, Inhabited

/-- How a run ends. -/
inductive Ending where
  | status (code : Nat)
  | broken (b : Breakdown)
  deriving DecidableEq, Repr, Inhabited

/-- What comes of a run. -/
structure Outcome where
  ending : Ending
  output : String
  log : String
  tree : FileTree
  deriving DecidableEq, Repr, Inhabited

/-! ## Inputs -/

/-- The first path that leads to nothing, unless this cannot be said of one before it. -/
def firstAbsent? (t : FileTree) : List Path → Except Breakdown (Option Path)
  | [] => .ok none
  | p :: rest =>
    match t.contains p with
    | .ok true => firstAbsent? t rest
    | .ok false => .ok (some p)
    | .error e => .error (.file e p)

/-- Reads the inputs.  A file is named by its stem. -/
def readInputs (t : FileTree) : List Path → Except Breakdown (List SourceFile)
  | [] => .ok []
  | p :: rest =>
    match t.readText p with
    | .error e => .error (.file e p)
    | .ok text => do
      let others ← readInputs t rest
      .ok (⟨p.stem, text⟩ :: others)

/-! ## Outputs -/

/-- A file to write. -/
structure Delivery where
  path : Path
  text : Except Failure String

/-- The files to write for a result: none if something is wrong with it. -/
def deliveriesOf (directory : Path) (r : FileResult) : List Delivery :=
  if r.isOk then
    [⟨directory.child (r.name ++ ".glsl"), .ok (r.source.getD "")⟩] ++
      (r.reflection.map fun x =>
        (⟨directory.child (r.name ++ ".json"), x.document⟩ : Delivery)).toList
  else []

/-- Writes files in order, and gives the paths of those that were written. -/
def deliver : FileTree → List Delivery → List Path × FileTree × Option Breakdown
  | t, [] => ([], t, none)
  | t, d :: rest =>
    match d.text with
    | .error e => ([], t, some (.batch e))
    | .ok text =>
      match t.writeText d.path text with
      | .error e => ([], t, some (.file e d.path))
      | .ok t =>
        let (paths, t, b) := deliver t rest
        (d.path :: paths, t, b)

/-- The lines that report written files. -/
def writtenText (paths : List Path) : String :=
  linesText (paths.map fun p => "Wrote " ++ p.render)

/-- The lines that report diagnostics. -/
def diagnosticText (rs : List FileResult) : String :=
  linesText (rs.flatMap fun r => r.diagnostics.map fun d => "Error: " ++ d.render)

/-! ## Runs -/

/-- The narration of a batch as far as it is asked for. -/
def narrationText (v : Validator) (r : Request) (files : List SourceFile) : String :=
  match Narration.ofBatch r.options v files with
  | .ok remarks =>
    linesText ((remarks.filter fun x => r.verbose || x.severity == .warning).map Remark.render)
  | .error _ => ""

/-- The directory that outputs go to: unless one is given, that of the first input. -/
def outputDirectory (r : Request) (paths : List Path) : Path :=
  match r.outputDirectory with
  | some text => .ofText text
  | none => (paths.head?.map Path.parent).getD (.ofText "")

/-- The status of a run: whether all files compiled. -/
def statusOf (rs : List FileResult) : Nat := if rs.all FileResult.isOk then 0 else 1

/-- Writes results. -/
def writeResults (directory : Path) (log : String) (rs : List FileResult) (t : FileTree) :
    Outcome :=
  match t.makeDirectory directory with
  | .error e => ⟨.broken (.file e directory), "", log, t⟩
  | .ok t =>
    match deliver t (rs.flatMap (deliveriesOf directory)) with
    | (paths, t, some b) => ⟨.broken b, writtenText paths, log, t⟩
    | (paths, t, none) =>
      ⟨.status (statusOf rs), writtenText paths, log ++ diagnosticText rs, t⟩

/-- Compiles inputs that are there. -/
def compileInputs (v : Validator) (r : Request) (paths : List Path) (t : FileTree) : Outcome :=
  match readInputs t paths with
  | .error b => ⟨.broken b, "", "", t⟩
  | .ok files =>
    match Batch.compile r.options v files with
    | .error e => ⟨.broken (.batch e), "", "", t⟩
    | .ok rs => writeResults (outputDirectory r paths) (narrationText v r files) rs t

/-- Does what a request asks for.  Files are independent of each other in every phase, so the number
of jobs has no effect, but it must be one. -/
def perform (v : Validator) (r : Request) (t : FileTree) : Outcome :=
  if r.inputs.isEmpty then ⟨.status 0, helpText, "", t⟩
  else
    let paths := r.inputs.map Path.ofText
    match firstAbsent? t paths with
    | .error b => ⟨.broken b, "", "", t⟩
    | .ok (some p) => ⟨.status 1, "", linesText ["Error: file not found: " ++ p.render], t⟩
    | .ok none =>
      if r.jobs.isNone then ⟨.broken (.numberMissing .jobs), "", "", t⟩
      else compileInputs v r paths t

/-- Runs the command line; the validator is what generated GLSL is handed to on request. -/
def run (arguments : List String) (t : FileTree) (v : Validator := .default) : Outcome :=
  match Request.ofArguments arguments with
  | .ok r => perform v r t
  | .error .help => ⟨.status 0, helpText, "", t⟩
  | .error .version => ⟨.status 0, versionText, "", t⟩
  | .error (.misused e) => ⟨.status 2, "", e.text, t⟩

end AnnotatedShader.CommandLine
