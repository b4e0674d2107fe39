import AnnotatedShader.Proofs.Batch.Reading
import AnnotatedShader.Proofs.Batch.Relocation
import AnnotatedShader.Proofs.Model.Alike
import AnnotatedShader.Proofs.Model.Introduction

set_option autoImplicit false

/-!
# Analysis of one file

The model of a file knows its file, and is the same in namespaces that are alike in a region of the
file.

The analysis of a file looks at the batch through its namespace only.  `analyse_alike` says what of
the namespace it depends on, for a namespace with the same files, names and cycles as far as they
are reached from the file.  The other lemmas are about names: analysis gives a model under the name
of its file (`analyse_file`), and work on a file stays under that name (`analyseWork_named`).  The
theorems on single files of a batch and on files that are left out rest on these.
-/

namespace AnnotatedShader

namespace Model

theorem Visited.file_eq {ns : Namespace} {d d' : Draft} {i : Introduction}
    (h : Visited ns d i d') : d'.model.file = d.model.file := by
  cases h <;> rfl

theorem build_file {m : Module} {stage : Stage} {ns : Namespace} {imports : List ResolvedImport}
    {model : Model} (h : build m stage ns imports = .ok model) : model.file = m.file := by
  obtain ⟨_, d, hvisit, hroot, _⟩ := build_eq_ok h
  have hd : d.model.file = m.file :=
    visitAll_induction (P := fun d => d.model.file = m.file) rfl
      (fun _ _ _ hd _ hv => hv.file_eq.trans hd) hvisit
  cases hroot <;> exact hd

theorem assignSlots_file {m m' : Model} (h : m.assignSlots = .ok m') : m'.file = m.file := by
  simp only [assignSlots, bind_eq_ok_iff] at h
  obtain ⟨_, _, _, _, _, _, _, _, _, _, _, _, _, _, h⟩ := h
  rw [← Except.ok.inj h]

end Model

namespace Batch

theorem analyse_file {ns : Namespace} {p : ParsedFile} {m : Model} (h : analyse ns p = .ok m) :
    m.file = p.module.file := by
  simp only [analyse, bind_eq_ok_iff] at h
  obtain ⟨_, _, model, hbuild, hassign⟩ := h
  rw [Model.assignSlots_file hassign, Model.build_file hbuild]

section Alike

variable {P : String → Prop} {ns ns' : Namespace} (h : Alike P ns ns') {p : ParsedFile}
  (hp : P p.module.file) (huses : ∀ entry, entry ∈ p.module.uses ↔ entry ∈ ns.usesOf p.module.file)

include h hp huses

/-- A file whose imports are resolved alike is analysed alike. -/
theorem analyse_eq_of_resolveImports_eq
    (himports : p.module.resolveImports ns = p.module.resolveImports ns') :
    analyse ns p = analyse ns' p := by
  rw [analyse, analyse, ← himports]
  cases hresolve : p.module.resolveImports ns with
  | error e => rfl
  | ok imports =>
    have hregion : ∀ i, Model.Introduces p.module.file imports 0 p.module.statements i →
        P i.origin := by
      intro i hi
      obtain ⟨k, s, hs, hi⟩ := hi.introducedBy
      cases hi with
      | declare d hbody => exact hp
      | use r hbody hr =>
        obtain ⟨entry, hentry, hresolves⟩ :=
          exists_left_of_forall₂ (Module.resolveImports_eq_ok hresolve).2 hr
        have hfile := h.closed _ hp entry ((huses entry).mp hentry)
        show P r.target.file
        rwa [h.origin _ hfile _ _ hresolves.lookup]
    simp only [bind, Except.bind, Model.build_alike h hregion]

/-- A file is analysed alike, or both namespaces report a cycle. -/
theorem analyse_alike (hns : ns.files.Nodup) (hns' : ns'.files.Nodup) :
    analyse ns p = analyse ns' p ∨
      ∃ e e', analyse ns p = .error e ∧ analyse ns' p = .error e' ∧
        IsCycleFailure p.module.file e ∧ IsCycleFailure p.module.file e' := by
  rcases h.resolveImports hns hns' hp huses with himports | ⟨e, e', he, he', hcycle, hcycle'⟩
  · exact .inl (analyse_eq_of_resolveImports_eq h hp huses himports)
  · right
    refine ⟨e, e', ?_, ?_, hcycle, hcycle'⟩
    · rw [analyse, he]
      rfl
    · rw [analyse, he']
      rfl

end Alike

theorem analyseWork_name {w a : Work} {ns : Namespace} (h : analyseWork ns w = .ok a) :
    a.name = w.name := by
  unfold analyseWork at h
  split at h
  · rw [Except.ok.inj h]
  · rw [bind_eq_ok_iff] at h
    obtain ⟨outcome, _, h⟩ := h
    cases outcome with
    | error d => rw [← Except.ok.inj h]
    | ok m => rw [← Except.ok.inj h]

/-- What the analysis makes of a file that has been read. -/
theorem analyseWork_named {f : SourceFile} {w a : Work} {ns : Namespace} (hread : ReadAs f w)
    (h : analyseWork ns w = .ok a) :
    (∀ m, a.model = some m → m.file = a.name) ∧ (a.diagnostics ≠ [] → a.model = none) := by
  unfold analyseWork at h
  split at h
  · obtain rfl := Except.ok.inj h
    refine ⟨?_, fun _ => hread.model⟩
    intro m hm
    rw [hread.model] at hm
    simp at hm
  · rename_i p hparsed
    obtain ⟨hreadFile, hdiagnostics⟩ := hread.parsed p hparsed
    rw [bind_eq_ok_iff] at h
    obtain ⟨outcome, houtcome, h⟩ := h
    cases outcome with
    | error d =>
      obtain rfl := Except.ok.inj h
      refine ⟨?_, fun _ => hread.model⟩
      intro m hm
      rw [show ({ w with diagnostics := w.diagnostics ++ [d] } : Work).model = none from
        hread.model] at hm
      simp at hm
    | ok m =>
      obtain rfl := Except.ok.inj h
      refine ⟨?_, fun hwrong => absurd hdiagnostics hwrong⟩
      intro m' hm'
      obtain rfl := Option.some.inj hm'
      show m.file = w.name
      rw [analyse_file (spare_eq_ok_ok_iff.mp houtcome), readFile_module_file hreadFile, hread.name]

/-- After the analysis of a batch each model knows its file, and no file with a diagnostic has a
model. -/
theorem named_of_analysed {files : List SourceFile} {ns : Namespace} {ws as : List Work}
    (hnames : (files.map SourceFile.name).Nodup) (hread : List.Forall₂ ReadAs files ws)
    (h : ws.mapM (analyseWork ns) = .ok as) : Named as ∧ Clean as := by
  have hanalysed := forall₂_of_mapM h
  have hspec : ∀ a ∈ as, (∀ m, a.model = some m → m.file = a.name) ∧
      (a.diagnostics ≠ [] → a.model = none) := by
    intro a ha
    obtain ⟨w, hw, hstep⟩ := exists_left_of_forall₂ hanalysed ha
    obtain ⟨f, _, hf⟩ := exists_left_of_forall₂ hread hw
    exact analyseWork_named hf hstep
  have hfiles : ws.map Work.name = files.map SourceFile.name :=
    map_eq_of_forall₂ hread fun _ _ hw => hw.name
  have hworks : as.map Work.name = ws.map Work.name :=
    map_eq_of_forall₂ hanalysed fun _ _ hstep => analyseWork_name hstep
  exact ⟨⟨by rwa [hworks, hfiles], fun a ha => (hspec a ha).1⟩, fun a ha => (hspec a ha).2⟩

end Batch

end AnnotatedShader
