import AnnotatedShader.Proofs.Batch.Acceptance
import AnnotatedShader.Proofs.Batch.Analysis
import AnnotatedShader.Proofs.Batch.Annotated
import AnnotatedShader.Proofs.Batch.Relocation
import AnnotatedShader.Proofs.Lists
import Mathlib.Data.List.Nodup

set_option autoImplicit false

/-!
# Failing files leave no trace

A file that fails and that no other file reaches can be taken out of a batch without a change to the
results of the others.  Only which cycle is reported to a file that reaches several ones depends on
the whole batch.

The two batches are run side by side.  `SameWork` relates the work on a file in both, `SameResult`
its results; they allow for a different cycle in the same report, and for nothing else.  Reading
does not see other files but for their names, analysis sees the namespace, which is alike in the
region of every file that does not reach the one that is left out (`namespaceOf_alike`), and
relocation passes over a file without a model (`settle_withoutFile`).  Generation looks at one file
alone.

The example has a batch in which the pins of two files clash, one of which is left out.
-/

namespace AnnotatedShader.Batch

open Relation

/-- Two results that are the same, or both report a cycle in place of a source. -/
inductive SameResult : FileResult → FileResult → Prop
  | same (r : FileResult) : SameResult r r
  | cycle (name : String) (stage : Option Stage) (p p' : Position) (path path' : List String) :
    SameResult ⟨name, stage, none, none, [⟨name, p, .importCycle path⟩], none⟩
      ⟨name, stage, none, none, [⟨name, p', .importCycle path'⟩], none⟩

/-- The same of the work on two files. -/
inductive SameWork : Work → Work → Prop
  | same (w : Work) : SameWork w w
  | cycle (name : String) (parsed : Option ParsedFile) (p p' : Position)
      (path path' : List String) :
    SameWork ⟨name, parsed, none, [⟨name, p, .importCycle path⟩]⟩
      ⟨name, parsed, none, [⟨name, p', .importCycle path'⟩]⟩

/-! ## Analysis -/

section Analysis

variable {files : List SourceFile} {ws : List Work} {gone : String}
  (hnames : (files.map SourceFile.name).Nodup) (hread : List.Forall₂ ReadAs files ws)
  (hunreached : ∀ f ∈ files, f.name ≠ gone → ¬ TransGen (Uses files) f.name gone)

include hread

theorem modulesIn_filter :
    modulesIn (ws.filter fun w => ¬ w.name = gone) =
      (modulesIn ws).filter fun m => ¬ m.file = gone := by
  induction hread with
  | nil => rfl
  | @cons f w _ rest hw _ ih =>
    have hfile : ∀ p, w.parsed = some p → p.module.file = w.name := fun p hp => by
      rw [readFile_module_file (hw.parsed p hp).1, hw.name]
    by_cases hname : w.name = gone
    · rw [List.filter_cons_of_neg (by simpa using hname), ih]
      cases hparsed : w.parsed with
      | none => simp [modulesIn, hparsed]
      | some p => simp [modulesIn, hparsed, hfile p hparsed, hname]
    · rw [List.filter_cons_of_pos (by simpa using hname)]
      cases hparsed : w.parsed with
      | none => simpa [modulesIn, hparsed] using ih
      | some p => simpa [modulesIn, hparsed, hfile p hparsed, hname] using ih

include hunreached

/-- Without a file that no other file reaches, a namespace is the same for the other files. -/
theorem namespaceOf_alike :
    Alike (· ≠ gone) (namespaceOf ws) (namespaceOf (ws.filter fun w => ¬ w.name = gone)) := by
  have hmodules : ∀ file, file ≠ gone →
      modulesOf (modulesIn (ws.filter fun w => ¬ w.name = gone)) file =
        modulesOf (modulesIn ws) file := by
    intro file hfile
    rw [modulesIn_filter hread, modulesOf, modulesOf, List.filter_filter]
    apply List.filter_congr
    intro m _
    by_cases heq : m.file = file
    · simp [heq, hfile]
    · simp [heq]
  have hns : ∀ ws, namespaceOf ws = Namespace.ofModules (modulesIn ws) := fun _ => rfl
  refine ⟨?_, ?_, ?_, ?_⟩
  · intro file hfile name
    rw [hns, hns, Namespace.lookup_ofModules, Namespace.lookup_ofModules, hmodules file hfile]
  · intro file hfile
    rw [hns, hns, Namespace.usesOf_ofModules, Namespace.usesOf_ofModules, hmodules file hfile]
  · intro file hfile entry hentry heq
    have huses := uses_of_mem_usesOf hread hentry
    have huses' := huses
    obtain ⟨f, hf, rfl, _⟩ := huses'
    rw [heq] at huses
    exact hunreached f hf hfile (.single huses)
  · intro file _ name s hs
    exact (Namespace.lookup_ofModules_eq_some hs).1

include hnames

/-- The analysis of another file is the same, or both report a cycle. -/
theorem analyseWork_same {w a : Work} (hw : w ∈ ws) (hname : ¬ w.name = gone)
    (h : analyseWork (namespaceOf ws) w = .ok a) :
    ∃ a', analyseWork (namespaceOf (ws.filter fun w => ¬ w.name = gone)) w = .ok a' ∧
      SameWork a a' := by
  obtain ⟨f, hf, hreadAs⟩ := exists_left_of_forall₂ hread hw
  obtain ⟨name, parsed, model, diagnostics⟩ := w
  obtain rfl : model = none := hreadAs.model
  cases parsed with
  | none => exact ⟨a, h, .same a⟩
  | some p =>
    obtain ⟨hreadFile, hdiagnostics⟩ := hreadAs.parsed p rfl
    obtain rfl : diagnostics = [] := hdiagnostics
    have hfile : p.module.file = name := (readFile_module_file hreadFile).trans hreadAs.name.symm
    have hmodule : p.module ∈ modulesIn ws := List.mem_filterMap.mpr ⟨_, hw, rfl⟩
    have hanalyse := analyse_alike (namespaceOf_alike hread hunreached) (hfile ▸ hname)
      (mem_usesOf_iff hnames hread hmodule) (Namespace.nodup_files_ofModules _)
      (Namespace.nodup_files_ofModules _)
    rcases hanalyse with heq | ⟨_, _, he, he', ⟨position, path, rfl⟩, ⟨position', path', rfl⟩⟩
    · refine ⟨a, ?_, .same a⟩
      simpa only [analyseWork, ← heq] using h
    · rw [hfile] at he he'
      simp only [analyseWork, he, Failure.at_, spare, bind, Except.bind, List.nil_append] at h
      obtain rfl := Except.ok.inj h
      refine ⟨⟨name, some p, none, [⟨name, position', .importCycle path'⟩]⟩, ?_, .cycle ..⟩
      simp only [analyseWork, he', Failure.at_, spare, bind, Except.bind, List.nil_append]

end Analysis

/-! ## Relocation -/

/-- The work on all files but one, up to the cycles that are reported. -/
abbrev WithoutFile (gone : String) : List Work → List Work → Prop :=
  Without (fun w => w.name = gone) SameWork

variable {gone : String} {ws ws' : List Work}

/-- A file that loses its model takes no part in the pass. -/
theorem settle_withoutFile {pins : List Program.Pin} (h : WithoutFile gone ws ws')
    (hgone : ∀ w ∈ settle pins ws, w.name = gone → w.model = none) :
    WithoutFile gone (settle pins ws) (settle pins ws') := by
  induction h generalizing pins with
  | nil => exact .nil
  | @keep w w' rest rest' hname hsame _ ih =>
    cases hsame with
    | same =>
      obtain ⟨left, pins', heq, hleft, _⟩ := settle_cons pins w
      rw [heq] at hgone
      rw [heq, heq]
      refine .keep (hleft ▸ hname) (.same left) (ih ?_)
      intro x hx
      exact hgone x (List.mem_cons_of_mem _ hx)
    | cycle name parsed p p' path path' =>
      refine .keep hname (.cycle ..) (ih ?_)
      intro x hx
      exact hgone x (List.mem_cons_of_mem _ hx)
  | @drop w rest rest' hname _ ih =>
    obtain ⟨left, pins', heq, hleft, _, hpins⟩ := settle_cons pins w
    rw [heq] at hgone
    -- the file has no model behind the pass, so the others are asked to agree with the same pins
    have hsame : pins' = pins := hpins (hgone left List.mem_cons_self (hleft.trans hname))
    rw [heq, hsame]
    rw [hsame] at hgone
    refine .drop (hleft.trans hname) (ih ?_)
    intro x hx
    exact hgone x (List.mem_cons_of_mem _ hx)

theorem models_withoutFile (h : WithoutFile gone ws ws')
    (hgone : ∀ w ∈ ws, w.name = gone → w.model = none) : models ws = models ws' := by
  induction h with
  | nil => rfl
  | keep _ hsame _ ih =>
    have hrest := ih fun x hx => hgone x (List.mem_cons_of_mem _ hx)
    cases hsame with
    | same =>
      rw [models, models, List.filterMap_cons, List.filterMap_cons]
      rw [models, models] at hrest
      rw [hrest]
    | cycle => exact hrest
  | drop hname _ ih =>
    rw [models_cons_none (hgone _ List.mem_cons_self hname)]
    exact ih fun x hx => hgone x (List.mem_cons_of_mem _ hx)

/-- New models for the same works. -/
theorem replaceModels_withoutFile (h : WithoutFile gone ws ws')
    (hgone : ∀ w ∈ ws, w.name = gone → w.model = none) (ms : List Model) :
    WithoutFile gone (replaceModels ws ms) (replaceModels ws' ms) := by
  induction h generalizing ms with
  | nil => exact .nil
  | @keep w w' _ _ hname hsame _ ih =>
    have hrest := ih fun x hx => hgone x (List.mem_cons_of_mem _ hx)
    cases hsame with
    | same =>
      obtain ⟨model, ms', heq⟩ := replaceModels_cons w ms
      rw [heq, heq]
      exact .keep hname (.same _) (hrest ms')
    | cycle => exact .keep hname (.cycle ..) (hrest ms)
  | @drop w rest rest' hname _ ih =>
    have hrest := ih fun x hx => hgone x (List.mem_cons_of_mem _ hx)
    rw [replaceModels_cons_none (hgone w List.mem_cons_self hname)]
    exact .drop hname (hrest ms)

/-! ## Generation -/

variable {o : Options} {v : Validator}

theorem generate_same {w w' : Work} {r : FileResult} (hsame : SameWork w w')
    (h : generate o v w = .ok r) : ∃ r', generate o v w' = .ok r' ∧ SameResult r r' := by
  cases hsame with
  | same => exact ⟨r, h, .same r⟩
  | cycle name parsed p p' path path' =>
    have hnone : ∀ ds, generate o v ⟨name, parsed, none, ds⟩ =
        .ok ⟨name, parsed.map (·.source.stage), none, none, ds, none⟩ := by
      intro ds
      cases parsed <;> rfl
    rw [hnone] at h ⊢
    obtain rfl := Except.ok.inj h
    exact ⟨_, rfl, .cycle ..⟩

/-! ## Whole batches -/

section Batches

variable {files : List SourceFile} {gone : String}
  (hnames : (files.map SourceFile.name).Nodup)
  (hunreached : ∀ f ∈ files, f.name ≠ gone → ¬ TransGen (Uses files) f.name gone)

include hnames

theorem readAll_without {ws : List Work} (h : readAll [] files = .ok ws) :
    readAll [] (files.filter fun f => ¬ f.name = gone) =
      .ok (ws.filter fun w => ¬ w.name = gone) := by
  have hnames' : ((files.filter fun f => ¬ f.name = gone).map SourceFile.name).Nodup :=
    hnames.sublist (List.filter_sublist.map _)
  rw [readAll_eq_mapM hnames (by simp)] at h
  rw [readAll_eq_mapM hnames' (by simp)]
  obtain ⟨ws', hws', hwithout⟩ : ∃ ws', (files.filter fun f => ¬ f.name = gone).mapM readWork =
      .ok ws' ∧ Without (fun w : Work => w.name = gone) (· = ·) ws ws' :=
    (Without.of_filter files).mapM (fun f _ f' w _ heq hw => ⟨w, heq ▸ hw, rfl⟩)
      (fun f _ w hw => by rw [(readWork_readAs hw).name]) h
  have heq := hwithout.forall₂
  rw [List.forall₂_eq_eq_eq] at heq
  rw [hws', heq]

include hunreached

/-- The analysis of the other files is the same up to the cycles that are reported. -/
theorem mapM_analyseWork_without {ws as : List Work} (hread : List.Forall₂ ReadAs files ws)
    (h : ws.mapM (analyseWork (namespaceOf ws)) = .ok as) :
    ∃ as', (ws.filter fun w => ¬ w.name = gone).mapM
        (analyseWork (namespaceOf (ws.filter fun w => ¬ w.name = gone))) = .ok as' ∧
      WithoutFile gone as as' := by
  refine Without.mapM (Without.of_filter ws) ?_ (fun w _ a ha => by rw [analyseWork_name ha]) h
  intro w hw w' a hname heq ha
  subst heq
  exact analyseWork_same hnames hread hunreached hw hname ha

end Batches

/-- In common slots a file that has gone wrong leaves no trace. -/
theorem relocate_without {as as' : List Work} (has : Named as) (has' : Named as')
    (hclean : Clean as)
    (h : WithoutFile gone as as')
    (hwrong : ∃ w ∈ relocate as, w.name = gone ∧ w.diagnostics ≠ []) :
    WithoutFile gone (relocate as) (relocate as') := by
  obtain ⟨ms, hms, heq⟩ := relocate_eq has
  obtain ⟨ms', hms', heq'⟩ := relocate_eq has'
  have hgone : ∀ w ∈ settle [] as, w.name = gone → w.model = none := by
    obtain ⟨w, hw, hname, hdiagnostics⟩ := hwrong
    rw [heq] at hw
    obtain ⟨old, hold, holdName, holdDiagnostics⟩ := mem_replaceModels hw
    have hnodup : ((settle [] as).map Work.name).Nodup := map_name_settle [] as ▸ has.nodup
    intro w' hw' hname'
    have hsame : w'.name = old.name := by rw [hname', ← holdName, hname]
    rw [List.inj_on_of_nodup_map hnodup hw' hold hsame]
    exact settle_clean hclean old hold (holdDiagnostics ▸ hdiagnostics)
  have hsettled := settle_withoutFile h hgone
  rw [models_withoutFile hsettled hgone, hms'] at hms
  obtain rfl := Except.ok.inj hms
  rw [heq, heq']
  exact replaceModels_withoutFile hsettled hgone _

/-- A file that fails and that no other file reaches can be taken out of a batch: the results of the
others stay the same, except that another cycle may be reported. -/
theorem compile_without {o : Options} {v : Validator} {files : List SourceFile}
    {rs : List FileResult} {gone : String} (hnames : (files.map SourceFile.name).Nodup)
    (hvalidate : o.validate = false) (h : compile o v files = .ok rs)
    (hfails : ∃ r ∈ rs, r.name = gone ∧ r.diagnostics ≠ [])
    (hunreached : ∀ f ∈ files, f.name ≠ gone → ¬ TransGen (Uses files) f.name gone) :
    ∃ rs', compile o v (files.filter fun f => ¬ f.name = gone) = .ok rs' ∧
      List.Forall₂ SameResult (rs.filter fun r => ¬ r.name = gone) rs' := by
  unfold compile at h
  rw [bind_eq_ok_iff] at h
  obtain ⟨final, hanalyse, hgenerate⟩ := h
  simp only [analyseAll, bind_eq_ok_iff] at hanalyse
  obtain ⟨ws, hreadAll, as, has, hfinal⟩ := hanalyse
  obtain rfl := Except.ok.inj hfinal
  have hread := forall₂_readAs hnames hreadAll
  have hreadAll' : readAll [] (files.filter fun f => ¬ f.name = gone) =
      .ok (ws.filter fun w => ¬ w.name = gone) := readAll_without hnames hreadAll
  have hnames' : ((files.filter fun f => ¬ f.name = gone).map SourceFile.name).Nodup :=
    hnames.sublist (List.filter_sublist.map _)
  obtain ⟨as', has', hwithout⟩ := mapM_analyseWork_without hnames hunreached hread has
  obtain ⟨hnamed, hclean⟩ := named_of_analysed hnames hread has
  obtain ⟨hnamed', _⟩ := named_of_analysed hnames' (forall₂_readAs hnames' hreadAll') has'
  have hfinal : WithoutFile gone (if o.programBindings then relocate as else as)
      (if o.programBindings then relocate as' else as') := by
    split
    · rename_i hbindings
      apply relocate_without hnamed hnamed' hclean hwithout
      obtain ⟨r, hr, hname, hdiagnostics⟩ := hfails
      obtain ⟨w, hw, hstep⟩ := exists_left_of_forall₂ (forall₂_of_mapM hgenerate) hr
      rw [if_pos hbindings] at hw
      have hgenerated := generate_generated hstep
      exact ⟨w, hw, hgenerated.name ▸ hname, hgenerated.diagnostics hvalidate ▸ hdiagnostics⟩
    · exact hwithout
  obtain ⟨rs', hrs', hresults⟩ : ∃ rs', (if o.programBindings then relocate as' else as').mapM
      (generate o v) = .ok rs' ∧ Without (fun r : FileResult => r.name = gone) SameResult rs rs' :=
    hfinal.mapM (fun w _ w' r _ hsame hr => generate_same hsame hr)
      (fun w _ r hr => by rw [(generate_generated hr).name]) hgenerate
  refine ⟨rs', ?_, hresults.forall₂⟩
  simp only [compile, analyseAll, hreadAll', bind, Except.bind, has', hrs']

/-! ## A batch in which the pins of two files clash -/

/-- Two files that pin a buffer to the same slot, and a file that imports from the first of them. -/
def clashing : List SourceFile :=
  [annotated "Camera" "const struct Camera : ORDER_0 { float Zoom; }",
   annotated "Skin" "const struct Skin : ORDER_0 { float Bone; }",
   annotated "Lit" "use Camera::Camera;"]

/-- No file of the batch imports from the second. -/
theorem clashing_unreached : ∀ f ∈ clashing, f.name ≠ "Skin" →
    ¬ TransGen (Uses clashing) f.name "Skin" := by
  have huses : ∀ f ∈ clashing, ∀ p, readFile f = .ok p →
      (p.module.uses.all fun entry => entry.1.file ≠ "Skin") = true := by
    rw [show clashing = [(_, _), (_, _), (_, _)].map annotatedFile from rfl]
    exact forall_read_annotated (by decide) (by decide +kernel)
  have hedge : ∀ a, ¬ Uses clashing a "Skin" := by
    rintro _ ⟨f, hf, _, p, hp, entry, hentry, hfile⟩
    exact of_decide_eq_true (List.all_eq_true.mp (huses f hf p hp) entry hentry) hfile
  intro f _ _ hpath
  obtain ⟨last, _, hlast⟩ := TransGen.tail'_iff.mp hpath
  exact hedge last hlast

theorem compile_without_skin :
    ∃ rs rs', compile .default (.script default) clashing = .ok rs ∧
      (∃ r ∈ rs, r.name = "Skin" ∧ r.diagnostics ≠ []) ∧
      compile .default (.script default) (clashing.filter fun f => ¬ f.name = "Skin") = .ok rs' ∧
      List.Forall₂ SameResult (rs.filter fun r => ¬ r.name = "Skin") rs' := by
  have hcompile : ((compile .default (.script default) clashing).toOption.any fun rs =>
      rs.any fun r => r.name = "Skin" ∧ r.diagnostics ≠ []) = true := by
    rw [show clashing = [(_, _), (_, _), (_, _)].map annotatedFile from rfl,
      compile_annotated (by decide) (by decide)]
    decide +kernel
  obtain ⟨rs, hrs, hany⟩ := exists_eq_ok_of_any hcompile
  have hfails : ∃ r ∈ rs, r.name = "Skin" ∧ r.diagnostics ≠ [] := by
    simpa only [List.any_eq_true, decide_eq_true_eq] using hany
  obtain ⟨rs', hrs', hsame⟩ := compile_without (by decide) rfl hrs hfails clashing_unreached
  exact ⟨rs, rs', hrs, hfails, hrs', hsame⟩

end AnnotatedShader.Batch
