import AnnotatedShader.Proofs.Batch.Acceptance
import AnnotatedShader.Proofs.Batch.Analysis
import AnnotatedShader.Proofs.Slot.Reports
import AnnotatedShader.Proofs.Source.Landmark

set_option autoImplicit false

/-!
# Places that reports on batches name

A diagnostic of a batch names a file and a place.  The place is a landmark of the text of that file,
or no place at all.  There is one exception: a vertex format that is imported into a file that has
one is reported in that file, but at the place where the other file declares it (`ImportedFormat`).

The files whose texts count are those that are read, of each name the first (`ReadIn`).  `Located`
is what is said of a diagnostic then, and `Charted` of the work on a file: all its diagnostics are
located, and the sites of its model are landmarks of its own text (`Own`).  Reading starts this,
from the sentinels and directives of a source and the tokens of its annotations; analysis and
relocation keep it, one lemma each.
-/

namespace AnnotatedShader.Batch

open Failure (Reports reports_diagnosed)
open Model (Introduces SecondFormat)
open Source (Landmark)

variable {fs : List SourceFile}

/-- A landmark of the file of a name. -/
def Own (fs : List SourceFile) (name : String) (q : Position) : Prop :=
  ∃ f ∈ fs, f.name = name ∧ Landmark f.name f.text q

/-- A report on a vertex format that a file imports besides another one: under the name of the file,
at the place where the format is declared. -/
inductive ImportedFormat (fs : List SourceFile) : Diagnostic → Prop
  | intro (f g : SourceFile) (hf : f ∈ fs) (hg : g ∈ fs) (p q : ParsedFile)
    (hread : readFile f = .ok p) (hsource : readFile g = .ok q) (place declared : Position)
    (u : Use)
    (huse : ⟨place, .use u⟩ ∈ p.module.statements) (hfile : u.file = g.name)
    (attr : Option Attribute) (fields : List Property)
    (hdeclared : ⟨declared, .declare (.vertexFormat u.member attr fields)⟩ ∈ q.module.statements) :
    ImportedFormat fs ⟨f.name, declared, .duplicate .vertexFormat u.name⟩

theorem ImportedFormat.fault {d : Diagnostic} (h : ImportedFormat fs d) :
    ∃ name, d.fault = .duplicate .vertexFormat name := by
  cases h
  exact ⟨_, rfl⟩

/-- How a diagnostic names its place. -/
inductive Located (fs : List SourceFile) (d : Diagnostic) : Prop
  | unplaced (h : d.position = .nowhere)
  | own (h : Own fs d.file d.position)
  | imported (h : ImportedFormat fs d)

/-! ## Reading -/

theorem spare_eq_ok_error_iff {α : Type} {x : Except Failure α} {d : Diagnostic} :
    spare x = .ok (.error d) ↔ x = .error (.diagnosed d) := by
  unfold spare
  split <;> simp_all

theorem readFile_reports {f : SourceFile} (hf : f ∈ fs) :
    FailsOnly (Reports (Located fs)) (readFile f) := by
  unfold readFile
  split
  · rename_i d hread
    obtain ⟨hfile, hplace⟩ := Source.read_reports hread
    exact failsOnly_error (reports_diagnosed (.own ⟨f, hf, hfile.symm, hplace⟩))
  · rename_i a hread
    refine ((Statement.parse_reports f.name a.annotationText).imp fun e he => ?_).bind
      fun _ _ => failsOnly_ok _ _
    exact he.imp fun d hd => .own ⟨f, hf, hd.1.symm, Source.landmark_of_scanned hread hd.2⟩

/-- The statements of a file that has been read are landmarks of it. -/
theorem stands_of_readFile {f : SourceFile} (hf : f ∈ fs) {p : ParsedFile}
    (h : readFile f = .ok p) : p.module.Stands (Own fs) := by
  unfold readFile at h
  split at h
  · contradiction
  · rename_i a hread
    obtain ⟨statements, hparse, h⟩ := bind_eq_ok_iff.mp h
    obtain rfl := Except.ok.inj h
    intro s hs
    refine ⟨⟨f, hf, rfl, .statement a hread statements hparse s hs⟩, fun p hp => ?_⟩
    exact ⟨f, hf, rfl, .property a hread statements hparse s hs p hp⟩

/-- What reading leaves of a file. -/
structure ReadIn (fs : List SourceFile) (w : Work) : Prop where
  unmodelled : w.model = none
  diagnostics : ∀ d ∈ w.diagnostics, Located fs d
  parsed : ∀ p, w.parsed = some p → ∃ f ∈ fs, readFile f = .ok p

theorem ReadIn.rejected {name : String} {d : Diagnostic} (h : Located fs d) :
    ReadIn fs (rejected name d) :=
  ⟨rfl, List.forall_mem_singleton.mpr h, fun _ hp => nomatch hp⟩

theorem readAll_readIn {seen : List String} {files : List SourceFile} {ws : List Work}
    (hfs : ∀ f ∈ firstOfName seen files, f ∈ fs) (h : readAll seen files = .ok ws) :
    ∀ w ∈ ws, ReadIn fs w := by
  induction files generalizing seen ws with
  | nil =>
    obtain rfl := Except.ok.inj h
    simp
  | cons f rest ih =>
    unfold readAll at h
    unfold firstOfName at hfs
    split at h
    · rename_i hseen
      rw [if_pos hseen] at hfs
      obtain ⟨others, hothers, h⟩ := bind_eq_ok_iff.mp h
      obtain rfl := Except.ok.inj h
      exact List.forall_mem_cons.mpr ⟨.rejected (.unplaced rfl), ih hfs hothers⟩
    · rename_i hfresh
      rw [if_neg hfresh] at hfs
      obtain ⟨hf, hrest⟩ := List.forall_mem_cons.mp hfs
      simp only [bind_eq_ok_iff] at h
      obtain ⟨outcome, houtcome, others, hothers, h⟩ := h
      cases outcome with
      | ok p =>
        obtain rfl := Except.ok.inj h
        refine List.forall_mem_cons.mpr ⟨⟨rfl, by simp, fun p' hp' => ⟨f, hf, ?_⟩⟩,
          ih hrest hothers⟩
        rw [← Option.some.inj hp']
        exact spare_eq_ok_ok_iff.mp houtcome
      | error d =>
        obtain rfl := Except.ok.inj h
        have hd := (readFile_reports hf).of_eq _ (spare_eq_ok_error_iff.mp houtcome) d rfl
        exact List.forall_mem_cons.mpr ⟨.rejected hd, ih hrest hothers⟩

/-! ## Analysis -/

section Analysis

variable {ms : List Module} (hms : ∀ m ∈ ms, ∃ f ∈ fs, ∃ p, readFile f = .ok p ∧ p.module = m)
  {f : SourceFile} (hf : f ∈ fs) {p : ParsedFile} (hread : readFile f = .ok p)

include hms hf hread

/-- A second vertex format is imported, or it stands in the file that it is reported in. -/
theorem located_of_secondFormat {imports : List ResolvedImport}
    (himports : List.Forall₂ (Resolves (.ofModules ms)) p.module.uses imports)
    {i : Model.Introduction}
    (hi : Introduces p.module.file imports 0 p.module.statements i) {d : Diagnostic}
    (hd : SecondFormat p.module.file i d) : Located fs d := by
  obtain ⟨⟨name, attr, fields, hdecl⟩, rfl⟩ := hd
  have hstands := stands_of_readFile hf hread
  obtain ⟨k, s, hs, hi⟩ := hi.introducedBy
  cases hi with
  | declare d hbody => exact .own (hstands s hs).1
  | use r hbody hmem =>
    obtain ⟨entry, _, hresolves⟩ := exists_left_of_forall₂ himports hmem
    obtain ⟨_, hname, m, hm, hfile, hdeclared⟩ :=
      Namespace.lookup_ofModules_eq_some hresolves.lookup
    obtain ⟨g, hg, q, hsource, rfl⟩ := hms m hm
    change r.target.declaration = .vertexFormat name attr fields at hdecl
    rw [readFile_module_file hread]
    have huse : ⟨s.position, .use r.use⟩ ∈ p.module.statements := by
      rw [← hbody]
      exact hs
    have hmember : r.target.declaration = .vertexFormat r.use.member attr fields := by
      have htarget : r.target.name = name := by rw [Symbol.name, hdecl]; rfl
      rw [hdecl, hresolves.use, ← hname, htarget]
    refine .imported (.intro f g hf hg p q hread hsource s.position r.target.position r.use huse ?_
      attr fields ?_)
    · rw [hresolves.use, ← hfile, readFile_module_file hsource]
    · rw [← hmember]
      exact Module.mem_statements_of_mem_declarations hdeclared

omit hf hread in
theorem stands_of_read : (Namespace.ofModules ms).Stands (Own fs) := by
  refine Namespace.stands_ofModules fun m hm => ?_
  obtain ⟨f, hf, p, hread, rfl⟩ := hms m hm
  exact stands_of_readFile hf hread

theorem analyse_reports : FailsOnly (Reports (Located fs)) (analyse (.ofModules ms) p) := by
  have hown : ∀ {α : Type} {x : Except Failure α}, FailsOnly (AtSpot (Own fs)) x →
      FailsOnly (Reports (Located fs)) x := fun hx => hx.imp fun _ he => he.imp fun _ => .own
  have hstands := stands_of_readFile hf hread
  refine (hown (Module.resolveImports_atSpot hstands)).bind fun imports hresolve => ?_
  have himports := (Module.resolveImports_eq_ok hresolve).2
  refine FailsOnly.bind ?_ fun model hmodel => hown (Model.assignSlots_atSpot ?_)
  · refine (Model.build_reports hstands (stands_of_read hms) himports p.source.stage).imp
      fun e he => he.imp ?_
    rintro d (hd | ⟨i, hi, hd⟩)
    · exact .own hd
    · exact located_of_secondFormat hms hf hread himports hi hd
  · rw [Model.build_file hmodel]
    exact Model.sites_spot hstands (stands_of_read hms) himports hmodel

/-- The entities of a model are landmarks of its file. -/
theorem sites_own {m : Model} (h : analyse (.ofModules ms) p = .ok m) :
    ∀ site ∈ m.sites, Own fs m.file site.position := by
  simp only [analyse, bind_eq_ok_iff] at h
  obtain ⟨imports, hresolve, model, hmodel, hassign⟩ := h
  rw [Model.assignSlots_sites hassign, Model.assignSlots_file hassign, Model.build_file hmodel]
  exact Model.sites_spot (stands_of_readFile hf hread) (stands_of_read hms)
    (Module.resolveImports_eq_ok hresolve).2 hmodel

end Analysis

/-! ## The work on a file -/

/-- From its analysis on, what the work on a file reports is located, and its model is of landmarks
of its file. -/
structure Charted (fs : List SourceFile) (w : Work) : Prop where
  diagnostics : ∀ d ∈ w.diagnostics, Located fs d
  sites : ∀ m, w.model = some m → ∀ site ∈ m.sites, Own fs m.file site.position

theorem analyseWork_charted {ms : List Module}
    (hms : ∀ m ∈ ms, ∃ f ∈ fs, ∃ p, readFile f = .ok p ∧ p.module = m) {w a : Work}
    (hw : ReadIn fs w) (h : analyseWork (.ofModules ms) w = .ok a) : Charted fs a := by
  have hunmodelled : ∀ m, w.model = some m → ∀ site ∈ m.sites, Own fs m.file site.position := by
    intro m hm
    rw [hw.unmodelled] at hm
    contradiction
  unfold analyseWork at h
  split at h
  · obtain rfl := Except.ok.inj h
    exact ⟨hw.diagnostics, hunmodelled⟩
  · rename_i p hparsed
    obtain ⟨f, hf, hread⟩ := hw.parsed p hparsed
    obtain ⟨outcome, houtcome, h⟩ := bind_eq_ok_iff.mp h
    cases outcome with
    | error d =>
      obtain rfl := Except.ok.inj h
      refine ⟨List.forall_mem_append.mpr ⟨hw.diagnostics, List.forall_mem_singleton.mpr ?_⟩,
        hunmodelled⟩
      exact (analyse_reports hms hf hread).of_eq _ (spare_eq_ok_error_iff.mp houtcome) d rfl
    | ok m =>
      obtain rfl := Except.ok.inj h
      refine ⟨hw.diagnostics, fun m' hm' => ?_⟩
      rw [← Option.some.inj hm']
      exact sites_own hms hf hread (spare_eq_ok_ok_iff.mp houtcome)

theorem dropModel_charted {d : Diagnostic} (hd : Located fs d) {ws : List Work}
    (h : ∀ w ∈ ws, Charted fs w) : ∀ w ∈ dropModel d ws, Charted fs w := by
  induction ws with
  | nil => exact h
  | cons w rest ih =>
    obtain ⟨hw, hrest⟩ := List.forall_mem_cons.mp h
    unfold dropModel
    split
    · refine List.forall_mem_cons.mpr ⟨⟨?_, fun _ hm => by cases hm⟩, hrest⟩
      exact List.forall_mem_append.mpr ⟨hw.diagnostics, List.forall_mem_singleton.mpr hd⟩
    · exact List.forall_mem_cons.mpr ⟨hw, ih hrest⟩

theorem relocateFrom_charted {fuel : Nat} {ws : List Work} (h : ∀ w ∈ ws, Charted fs w) :
    ∀ w ∈ relocateFrom fuel ws, Charted fs w := by
  induction fuel generalizing ws with
  | zero => exact h
  | succ fuel ih =>
    unfold relocateFrom
    split
    · rename_i ms hms
      obtain ⟨buffers, textures, _, rfl⟩ := exists_tables hms
      rw [replaceModels_map]
      refine List.forall_mem_map.mpr fun w hw => ⟨(h w hw).diagnostics, fun m hm => ?_⟩
      obtain ⟨old, hold, rfl⟩ := Option.map_eq_some_iff.mp hm
      rw [Model.rebind_sites]
      exact (h w hw).sites old hold
    · rename_i d hd
      have hsites : ∀ m ∈ models ws, ∀ site ∈ m.sites, Own fs m.file site.position := by
        intro m hm
        obtain ⟨w, hw, hmodel⟩ := List.mem_filterMap.mp hm
        exact (h w hw).sites m hmodel
      exact ih (dropModel_charted ((Program.relocate_atSpot hsites hd).elim .unplaced .own) h)

theorem analyseAll_charted {o : Options} {files : List SourceFile} {ws : List Work}
    (h : analyseAll o files = .ok ws) : ∀ w ∈ ws, Charted (firstOfName [] files) w := by
  simp only [analyseAll, bind_eq_ok_iff] at h
  obtain ⟨read, hread, analysed, hanalysed, h⟩ := h
  have hworks := readAll_readIn (fun _ hf => hf) hread
  have hms : ∀ m ∈ modulesIn read, ∃ f ∈ firstOfName [] files, ∃ p, readFile f = .ok p ∧
      p.module = m := by
    intro m hm
    obtain ⟨w, hw, hparsed⟩ := List.mem_filterMap.mp hm
    obtain ⟨p, hp, rfl⟩ := Option.map_eq_some_iff.mp hparsed
    obtain ⟨f, hf, hreadFile⟩ := (hworks w hw).parsed p hp
    exact ⟨f, hf, p, hreadFile, rfl⟩
  have hcharted : ∀ a ∈ analysed, Charted (firstOfName [] files) a := by
    intro a ha
    obtain ⟨w, hw, hstep⟩ := exists_left_of_forall₂ (forall₂_of_mapM hanalysed) ha
    exact analyseWork_charted hms (hworks w hw) hstep
  obtain rfl := Except.ok.inj h
  split
  · exact relocateFrom_charted hcharted
  · exact hcharted

/-- Without validation every diagnostic that names a place names one in the file that it names: a
landmark of the text, which is the place of one of its characters.  Only the place of a vertex
format that is imported besides another one is in the file that declares it. -/
theorem compile_located {o : Options} {v : Validator} {files : List SourceFile}
    {rs : List FileResult} (hvalidate : o.validate = false) (h : compile o v files = .ok rs)
    {r : FileResult} (hr : r ∈ rs) {d : Diagnostic} (hd : d ∈ r.diagnostics)
    (hplaced : d.position ≠ .nowhere) (hown : ¬ ImportedFormat (firstOfName [] files) d) :
    ∃ f ∈ firstOfName [] files, f.name = d.file ∧ Landmark f.name f.text d.position ∧
      Source.InText f.text d.position ∧ d.position.line ≤ (Text.lines f.text).length := by
  obtain ⟨ws, hws, hgenerate⟩ := bind_eq_ok_iff.mp h
  obtain ⟨w, hw, hstep⟩ := exists_left_of_forall₂ (forall₂_of_mapM hgenerate) hr
  rw [(generate_generated hstep).diagnostics hvalidate] at hd
  cases (analyseAll_charted hws w hw).diagnostics d hd with
  | unplaced hnowhere => exact absurd hnowhere hplaced
  | imported himported => exact absurd himported hown
  | own hlandmark =>
    obtain ⟨f, hf, hname, hmark⟩ := hlandmark
    exact ⟨f, hf, hname, hmark, hmark.inText, hmark.inText.line_le.2⟩

/-- A file that imports what no other file declares. -/
def rains : List SourceFile :=
  [⟨"Cloud", "#stage pixel\n#sal\nconst float Mist;\n#sal\n"⟩,
    ⟨"Rain", "#stage vertex\nvoid main() \x7b\x7d\n#sal\n  use Cloud::Drop;\n#sal\n"⟩]

theorem compile_located_rains : Options.default.validate = false ∧
    ∃ rs, compile .default (.script default) rains = .ok rs ∧ ∃ r ∈ rs, ∃ d ∈ r.diagnostics,
      d.position ≠ .nowhere ∧ ¬ ImportedFormat (firstOfName [] rains) d ∧
        ∃ f ∈ firstOfName [] rains, f.name = d.file ∧ Landmark f.name f.text d.position ∧
          Source.InText f.text d.position ∧ d.position.line ≤ (Text.lines f.text).length := by
  obtain ⟨rs, hrs, hreported⟩ := exists_eq_ok_of_any
    (show ((compile .default (.script default) rains).toOption.any fun rs =>
      rs.any fun r => r.diagnostics.contains
        ⟨"Rain", ⟨4, 3⟩, .unresolvedImport "Cloud" "Drop"⟩) = true by
        decide +kernel)
  obtain ⟨r, hr, hcontains⟩ := List.any_eq_true.mp hreported
  have hd := List.contains_iff_mem.mp hcontains
  have hplaced : (⟨4, 3⟩ : Position) ≠ .nowhere := by decide
  have hown : ¬ ImportedFormat (firstOfName [] rains)
      ⟨"Rain", ⟨4, 3⟩, .unresolvedImport "Cloud" "Drop"⟩ := fun himported =>
    nomatch himported.fault
  exact ⟨rfl, rs, hrs, r, hr, _, hd, hplaced, hown,
    compile_located (v := .script default) rfl hrs hr hd hplaced hown⟩

end AnnotatedShader.Batch
