import AnnotatedShader.Batch.Compile

set_option autoImplicit false

/-!
# The narration of a batch

A batch can be told as a sequence of remarks: what was read, what each file exports and imports,
what its statements introduce, which slots it got, what was generated and what went wrong.  The
narration follows the phases of the batch; within a phase it follows the order of the files.  What
warns of something is always said, the rest only on request.

Nothing is recorded while a batch is compiled.  The remarks are read off the results of its phases,
which are computed again here: `reading`, `analysis`, `relocation` and `generation` have the remarks
on one file or on one round, and `ofBatch` puts them together.  A state block or a packed struct is
announced before its visit and is told even where the visit fails; all else is told when it stands.
-/

namespace AnnotatedShader

/-- How much a remark matters. -/
inductive Severity where
  | debug | warning
  deriving DecidableEq, Repr, Inhabited

/-- How a remark shows its severity. -/
def Severity.text : Severity → String
  | .debug => "DEBUG"
  | .warning => "WARNING"

/-- Which part of the work a remark is about. -/
inductive Topic where
  | source | batch | exports | models | slots | glsl | validator
  deriving DecidableEq, Repr, Inhabited

/-- How a remark shows its topic. -/
def Topic.text : Topic → String
  | .source => "salc.preprocessor"
  | .batch => "salc.compiler"
  | .exports => "salc.analysis.namespace"
  | .models => "salc.analysis.semantic"
  | .slots => "salc.analysis.binding_allocator"
  | .glsl => "salc.codegen.glsl"
  | .validator => "salc.codegen.backend"

/-- A remark on the work. -/
structure Remark where
  severity : Severity
  topic : Topic
  text : String
  deriving DecidableEq, Repr, Inhabited

/-- The line that shows a remark. -/
def Remark.render (r : Remark) : String :=
  r.severity.text ++ " " ++ r.topic.text ++ ": " ++ r.text

namespace Narration

/-- A remark that is made on request. -/
def note (topic : Topic) (text : String) : Remark := ⟨.debug, topic, text⟩

/-- A remark on a fault of a file. -/
def faultNote (file : String) (d : Diagnostic) : Remark :=
  note .batch (file ++ ": " ++ d.renderRaised)

/-! ## Reading -/

/-- The warnings of a file, and the number of its statements if it could be read. -/
def reading (f : SourceFile) : List Remark :=
  (Source.read f.name f.text).warnings.map (fun w => ⟨.warning, .source, w.message⟩) ++
    match Batch.readFile f with
    | .ok p =>
      [note .batch (f.name ++ ": parsed " ++ toString p.module.statements.length ++
        " statement(s)")]
    | .error _ => []

/-- The number of names that a file exports. -/
def registration (ns : Namespace) (file : String) : Remark :=
  let count := ((ns.scope? file).map fun s => s.exports.length).getD 0
  note .exports ("registered " ++ toString count ++ " export(s) for " ++ file)

/-! ## Analysis -/

/-- The imports of a file that were found before one was not. -/
def imports (ns : Namespace) (m : Module) : List Remark :=
  if (ns.dependencyCycle? m.file).isSome then []
  else
    (m.uses.takeWhile fun u => (ns.lookup u.1.file u.1.member).isSome).map fun (u, _) =>
      note .exports (m.file ++ ": resolved use " ++ u.file ++ "::" ++ u.member ++ " as " ++ u.name)

/-- What is said of a constant outside all structs. -/
def constantText (name : String) (p : Property) : String :=
  match p.attr with
  | some (.sampler s) => "visit texture: " ++ name ++ " (sampler " ++ s ++ ")"
  | _ =>
    if p.type.name = ShaderType.samplerName then "visit sampler: " ++ name
    else "visit root constant: " ++ name

/-- What is said of a buffer. -/
def bufferText (b : Buffer) : String :=
  "visit constant buffer: " ++ b.name ++ " (order=" ++ (b.order.map toString).getD "None" ++
    ", size=" ++ toString b.layout.size ++ ")"

/-- Whether a visit ended with nothing worse than a negative slot number. -/
def reachesSlot : Except Failure Model.Draft → Bool
  | .ok _ => true
  | .error (.diagnosed ⟨_, _, .misuse (.negativeSlot _)⟩) => true
  | .error _ => false

/-- What is said of an introduction whose visit ended so.  State blocks and struct types are
announced, outputs are reported before their slot is checked, all else when it stands. -/
def visitText? (i : Model.Introduction) (outcome : Except Failure Model.Draft) : Option String :=
  match i.declaration with
  | .buffer _ (some .pack) _ => some ("constant struct '" ++ i.name ++ "' is a packed struct type")
  | .buffer _ _ _ => outcome.toOption.bind fun d => d.model.buffers.getLast?.map bufferText
  | .constant p => outcome.toOption.map fun _ => constantText i.name p
  | .output _ => if reachesSlot outcome then some ("visit output: " ++ i.name) else none
  | .vertexFormat _ _ fields =>
    outcome.toOption.map fun _ =>
      "visit vertex format: " ++ i.name ++ " (" ++ toString fields.length ++ " attribute(s))"
  | .pipeline _ _ => some ("visit pipeline: " ++ i.name)
  | .blendFunc _ _ => some ("visit blend function: " ++ i.name)

/-- What is said of statements numbered from an index on, as far as the first that fails. -/
def visits (ns : Namespace) (file : String) (rs : List ResolvedImport) :
    (index : Nat) → Model.Draft → List Statement → List Remark
  | _, _, [] => []
  | index, d, s :: rest =>
    match Model.introduction? file rs index s with
    | .error _ => []
    | .ok none => visits ns file rs (index + 1) d rest
    | .ok (some i) =>
      let outcome := Model.visit ns file d i
      ((visitText? i outcome).map (note .models)).toList ++
        match outcome with
        | .ok d => visits ns file rs (index + 1) d rest
        | .error _ => []

/-- What is said of the statements of a file.  They are visited if the imports are found and all
names differ. -/
def statements (ns : Namespace) (p : ParsedFile) : List Remark :=
  let m := p.module
  match m.resolveImports ns, Model.distinctNames m.file [] m.statements with
  | .ok rs, .ok _ => visits ns m.file rs 0 ⟨.empty m.file p.source.stage, [], []⟩ m.statements
  | _, _ => []

/-- How the analysis of a file ended. -/
def ending (file : String) : Except Failure Model → List Remark
  | .ok m =>
    [note .slots (file ++ ": assigned " ++ toString m.buffers.length ++ " buffer(s), " ++
      toString m.textures.length ++ " texture(s), " ++ toString m.outputs.length ++
      " output(s)")]
  | .error (.diagnosed d) => [faultNote file d]
  | .error _ => []

/-- The analysis of a file. -/
def analysis (ns : Namespace) (p : ParsedFile) : List Remark :=
  imports ns p.module ++ statements ns p ++ ending p.module.file (Batch.analyse ns p)

/-! ## Slots of the program -/

/-- The rounds in which files get common slots; `fuel` bounds their number. -/
def relocationFrom : Nat → List Work → List Remark
  | 0, _ => []
  | fuel + 1, ws =>
    match Batch.models ws with
    | [] => []
    | m :: ms =>
      match Program.relocate (m :: ms) with
      | .ok rs =>
        [note .slots ("relocated bindings across " ++ toString rs.length ++ " stage(s)")]
      | .error d => faultNote d.file d :: relocationFrom fuel (Batch.dropModel d ws)

/-- The rounds in which files get common slots, if they do. -/
def relocation (o : Options) (ws : List Work) : List Remark :=
  if o.programBindings then relocationFrom (ws.length + 1) ws else []

/-! ## Generation -/

/-- What a validator says while it is run. -/
def validation (o : Options) (v : Validator) (m : Model) (source : String) : List Remark :=
  note .validator (m.file ++ ": validating " ++ m.stage.name ++ " stage") ::
    ((v.refusal? o.environment source m.stage).map fun refusal =>
      note .validator ("cannot run " ++ refusal)).toList ++
    match v.validate o.environment source m.stage m.file with
    | .error (.diagnosed d) => [faultNote m.file d]
    | _ => []

/-- The generation of a file, and its validation if there is any. -/
def generation (o : Options) (v : Validator) (w : Work) : List Remark :=
  match w.parsed, w.model with
  | some p, some m =>
    match Glsl.generate p.source m o with
    | .ok source =>
      note .glsl (m.file ++ ": generated " ++ toString (source.toList.count '\n') ++
          " line(s) of GLSL") ::
        if o.validate then validation o v m source else []
    | .error _ => []
  | _, _ => []

/-! ## All of it -/

/-- The diagnostics of all files. -/
def diagnostics (rs : List FileResult) : List Remark :=
  rs.flatMap fun r => r.diagnostics.map fun d => note .batch ("diagnostic: " ++ d.render)

/-- The narration of a batch that compiles. -/
def ofBatch (o : Options) (v : Validator) (files : List SourceFile) :
    Except Failure (List Remark) := do
  let read ← Batch.readAll [] files
  let parsed := read.filterMap Work.parsed
  let ns := Batch.namespaceOf read
  let analysed ← read.mapM (Batch.analyseWork ns)
  let live := if o.programBindings then Batch.relocate analysed else analysed
  let results ← live.mapM (Batch.generate o v)
  .ok ((Batch.firstOfName [] files).flatMap reading ++
    parsed.map (fun p => registration ns p.module.file) ++
    note .batch ("namespace frozen with " ++ toString ns.files.length ++ " file(s)") ::
    (parsed.flatMap (analysis ns) ++ relocation o analysed ++ live.flatMap (generation o v) ++
      diagnostics results))

end Narration

end AnnotatedShader
