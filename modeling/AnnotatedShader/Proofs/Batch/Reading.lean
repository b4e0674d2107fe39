import AnnotatedShader.Batch.Compile
import AnnotatedShader.Proofs.Except
import AnnotatedShader.Proofs.Lists
import AnnotatedShader.Proofs.Namespace.Graph

set_option autoImplicit false

/-!
# Reading a batch

When the names of the files are distinct, each file is read on its own.  Every file that has been
read is the only module of its name in the namespace of the batch.

Reading goes over a batch with the names that it has seen, and gives the second file of a name a
diagnostic.  With distinct names it is a `mapM` of `readWork` (`readAll_eq_mapM`), and `ReadAs` says
what the work on a file holds behind it.  All that follows the reading is `finish`, which depends on
the work alone (`compile_eq_finish`), so that theorems on two batches can start there.

The modules of a batch are those of the files that could be read (`modulesIn`).  `Uses` is the graph
of their use statements, the one in which cycles are looked for.
-/

namespace AnnotatedShader.Batch

theorem spare_eq_ok_ok_iff {α : Type} {x : Except Failure α} {a : α} :
    spare x = .ok (.ok a) ↔ x = .ok a := by
  unfold spare
  split <;> simp

/-- The work on a file when it has been read. -/
def readWork (f : SourceFile) : Except Failure Work := do
  match ← spare (readFile f) with
  | .ok p => .ok ⟨f.name, some p, none, []⟩
  | .error d => .ok (rejected f.name d)

theorem readAll_eq_mapM {seen : List String} {files : List SourceFile}
    (hnames : (files.map SourceFile.name).Nodup) (hseen : ∀ f ∈ files, f.name ∉ seen) :
    readAll seen files = files.mapM readWork := by
  induction files generalizing seen with
  | nil => rfl
  | cons f rest ih =>
    obtain ⟨hfresh, hrest⟩ := List.nodup_cons.mp hnames
    have hseen' : ∀ other ∈ rest, other.name ∉ f.name :: seen := by
      intro other hother hmem
      rcases List.mem_cons.mp hmem with heq | hmem
      · exact hfresh (List.mem_map.mpr ⟨other, hother, heq⟩)
      · exact hseen other (List.mem_cons_of_mem _ hother) hmem
    have hf : ¬ seen.contains f.name = true := by
      simpa using hseen f List.mem_cons_self
    rw [readAll, if_neg hf, List.mapM_cons, ih hrest hseen', readWork]
    cases spare (readFile f) with
    | error e => rfl
    | ok outcome =>
      cases outcome <;> cases rest.mapM readWork <;> rfl

theorem readFile_eq_ok {f : SourceFile} {p : ParsedFile} (h : readFile f = .ok p) :
    ∃ a statements, (Source.read f.name f.text).outcome = .ok a ∧
      Statement.parse f.name a.annotationText = .ok statements ∧ p = ⟨a, ⟨f.name, statements⟩⟩ := by
  unfold readFile at h
  split at h
  · simp at h
  · rename_i a ha
    rw [bind_eq_ok_iff] at h
    obtain ⟨statements, hparse, h⟩ := h
    exact ⟨a, statements, ha, hparse, (Except.ok.inj h).symm⟩

theorem readFile_module_file {f : SourceFile} {p : ParsedFile} (h : readFile f = .ok p) :
    p.module.file = f.name := by
  obtain ⟨a, statements, _, _, rfl⟩ := readFile_eq_ok h
  rfl

/-- What the reading of a file leaves. -/
structure ReadAs (f : SourceFile) (w : Work) : Prop where
  name : w.name = f.name
  model : w.model = none
  parsed : ∀ p, w.parsed = some p → readFile f = .ok p ∧ w.diagnostics = []

theorem readWork_readAs {f : SourceFile} {w : Work} (h : readWork f = .ok w) : ReadAs f w := by
  unfold readWork at h
  rw [bind_eq_ok_iff] at h
  obtain ⟨outcome, houtcome, h⟩ := h
  cases outcome with
  | ok p =>
    obtain rfl := Except.ok.inj h
    refine ⟨rfl, rfl, fun p' hp' => ⟨?_, rfl⟩⟩
    obtain rfl := Option.some.inj hp'
    exact spare_eq_ok_ok_iff.mp houtcome
  | error d =>
    obtain rfl := Except.ok.inj h
    exact ⟨rfl, rfl, fun p' hp' => by simp [rejected] at hp'⟩

/-- Files of distinct names are read one by one. -/
theorem forall₂_readAs {files : List SourceFile} {ws : List Work}
    (hnames : (files.map SourceFile.name).Nodup) (h : readAll [] files = .ok ws) :
    List.Forall₂ ReadAs files ws := by
  rw [readAll_eq_mapM hnames (by simp)] at h
  exact (forall₂_of_mapM h).imp fun _ _ => readWork_readAs

/-! ## Behind the reading -/

/-- What becomes of files that have been read. -/
def finish (o : Options) (v : Validator) (ws : List Work) : Except Failure (List FileResult) := do
  let analysed ← ws.mapM (analyseWork (namespaceOf ws))
  (if o.programBindings then relocate analysed else analysed).mapM (generate o v)

theorem compile_eq_finish (o : Options) (v : Validator) (files : List SourceFile) :
    compile o v files = readAll [] files >>= finish o v := by
  rw [compile, analyseAll]
  cases readAll [] files with
  | error e => rfl
  | ok ws =>
    show ((ws.mapM (analyseWork (namespaceOf ws))) >>= _) >>= _ = _
    cases hanalysed : ws.mapM (analyseWork (namespaceOf ws)) with
    | error e =>
      show _ = finish o v ws
      rw [finish, hanalysed]
      rfl
    | ok as =>
      show _ = finish o v ws
      rw [finish, hanalysed]
      rfl

/-! ## The namespace of a batch -/

/-- The modules of the files that have been read. -/
def modulesIn (ws : List Work) : List Module := ws.filterMap fun w => w.parsed.map ParsedFile.module

/-- A file of a batch imports from another file. -/
def Uses (files : List SourceFile) (a b : String) : Prop :=
  ∃ f ∈ files, f.name = a ∧ ∃ p, readFile f = .ok p ∧ ∃ entry ∈ p.module.uses, entry.1.file = b

theorem mem_modulesIn {files : List SourceFile} {ws : List Work}
    (hread : List.Forall₂ ReadAs files ws) {m : Module} (hm : m ∈ modulesIn ws) :
    ∃ f ∈ files, ∃ p, readFile f = .ok p ∧ p.module = m ∧ ∃ w ∈ ws, w.parsed = some p := by
  obtain ⟨w, hw, hparsed⟩ := List.mem_filterMap.mp hm
  obtain ⟨p, hp, rfl⟩ := Option.map_eq_some_iff.mp hparsed
  obtain ⟨f, hf, hreadAs⟩ := exists_left_of_forall₂ hread hw
  exact ⟨f, hf, p, (hreadAs.parsed p hp).1, rfl, w, hw, hp⟩

/-- No two modules of a batch are of one file. -/
theorem eq_of_file_eq {files : List SourceFile} {ws : List Work}
    (hnames : (files.map SourceFile.name).Nodup) (hread : List.Forall₂ ReadAs files ws)
    {m m' : Module} (hm : m ∈ modulesIn ws) (hm' : m' ∈ modulesIn ws) (hfile : m.file = m'.file) :
    m = m' := by
  obtain ⟨f, hf, p, hp, rfl, _⟩ := mem_modulesIn hread hm
  obtain ⟨f', hf', p', hp', rfl, _⟩ := mem_modulesIn hread hm'
  rw [readFile_module_file hp, readFile_module_file hp'] at hfile
  obtain rfl := List.inj_on_of_nodup_map hnames hf hf' hfile
  rw [Except.ok.inj (hp.symm.trans hp')]

/-- A file imports in the namespace what its only module imports. -/
theorem mem_usesOf_iff {files : List SourceFile} {ws : List Work}
    (hnames : (files.map SourceFile.name).Nodup) (hread : List.Forall₂ ReadAs files ws)
    {m : Module} (hm : m ∈ modulesIn ws) (entry : Use × Position) :
    entry ∈ m.uses ↔ entry ∈ (namespaceOf ws).usesOf m.file := by
  show _ ↔ entry ∈ (Namespace.ofModules (modulesIn ws)).usesOf m.file
  rw [Namespace.usesOf_ofModules, List.mem_flatMap]
  constructor
  · exact fun h => ⟨m, List.mem_filter.mpr ⟨hm, beq_self_eq_true _⟩, h⟩
  · rintro ⟨m', hm', hentry⟩
    obtain ⟨hm', hfile⟩ := List.mem_filter.mp hm'
    rwa [eq_of_file_eq hnames hread hm hm' (eq_of_beq hfile).symm]

theorem uses_of_mem_usesOf {files : List SourceFile} {ws : List Work}
    (hread : List.Forall₂ ReadAs files ws) {file : String} {entry : Use × Position}
    (h : entry ∈ (namespaceOf ws).usesOf file) : Uses files file entry.1.file := by
  change entry ∈ (Namespace.ofModules (modulesIn ws)).usesOf file at h
  rw [Namespace.usesOf_ofModules, List.mem_flatMap] at h
  obtain ⟨m, hm, hentry⟩ := h
  obtain ⟨hm, hfile⟩ := List.mem_filter.mp hm
  obtain ⟨f, hf, p, hp, rfl, _⟩ := mem_modulesIn hread hm
  exact ⟨f, hf, (readFile_module_file hp).symm.trans (eq_of_beq hfile), p, hp, entry, hentry, rfl⟩

end AnnotatedShader.Batch
