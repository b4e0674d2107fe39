import AnnotatedShader.Batch.Compile
import AnnotatedShader.Proofs.Batch.Reading
import AnnotatedShader.Proofs.Except

set_option autoImplicit false

/-!
# Accepted files

A file without diagnostics has been read, has been analysed to a model, has kept that model in the
program, and has got its source and its reflection from it.  Every theorem on accepted files starts
from here, so that none of them has to follow the phases again.

The work on a file is followed backwards.  `Generated` says what generation gives for the work that
analysis leaves, with or without a model.  `ReadOf` and `AnalysedOf` say where such work comes from,
and each step of reading, analysis and relocation keeps them.  `Accepted` puts this together for a
result: the file that was read, the model that was analysed, the model with the slots that the file
has in the end (`Placed`), and the text and the record that were made of that one.
`compile_acceptedIn` gives it for every accepted result of a batch, along with what the whole batch
was read to.

With validation a text counts only if the validator has answered for it.  The last section says so
once for all callers (`exists_generate`), and that a validator that has answered for one text does
so for every other one (`answers_of_compile`).
-/

/-!
## Generation for one file

A file that still has its model gets a source, and after that can only fail because of the
validator.  Any other file gets a result that holds its diagnostics.
-/

namespace AnnotatedShader.Batch

/-- What generation makes of the work on a file. -/
inductive Generated (o : Options) (w : Work) : FileResult → Prop
  | failed (hnone : w.parsed = none ∨ w.model = none) :
    Generated o w ⟨w.name, w.parsed.map (·.source.stage), none, none, w.diagnostics, none⟩
  | done (p : ParsedFile) (m : Model) (source : String) (more : List Diagnostic)
    (validation : Option ValidationResult) (hparsed : w.parsed = some p) (hmodel : w.model = some m)
    (hsource : Glsl.generate p.source m o = .ok source) (hmore : o.validate = false → more = []) :
    Generated o w ⟨w.name, some p.source.stage, some source,
      if o.emitReflection then some (.ofModel m) else none, w.diagnostics ++ more, validation⟩

theorem generate_generated {o : Options} {v : Validator} {w : Work} {r : FileResult}
    (h : generate o v w = .ok r) : Generated o w r := by
  obtain ⟨name, parsed, model, diagnostics⟩ := w
  cases parsed with
  | none =>
    obtain rfl := Except.ok.inj h
    exact .failed (.inl rfl)
  | some p =>
    cases model with
    | none =>
      obtain rfl := Except.ok.inj h
      exact .failed (.inr rfl)
    | some m =>
      simp only [generate, bind_eq_ok_iff] at h
      obtain ⟨source, hsource, h⟩ := h
      by_cases hvalidate : o.validate = true
      · simp only [hvalidate, if_true, bind_eq_ok_iff] at h
        obtain ⟨verdict, _, h⟩ := h
        cases verdict with
        | ok validation =>
          obtain rfl := Except.ok.inj h
          simpa using Generated.done p m source [] (some validation) rfl rfl hsource
            (fun _ => rfl) (w := ⟨name, some p, some m, diagnostics⟩)
        | error d =>
          obtain rfl := Except.ok.inj h
          exact .done p m source [d] none rfl rfl hsource fun hoff => by simp [hvalidate] at hoff
      · simp only [hvalidate] at h
        obtain rfl := Except.ok.inj h
        simpa using Generated.done p m source [] none rfl rfl hsource
          (fun _ => rfl) (w := ⟨name, some p, some m, diagnostics⟩)

namespace Generated

variable {o : Options} {w : Work} {r : FileResult}

theorem name (h : Generated o w r) : r.name = w.name := by
  cases h <;> rfl

theorem diagnostics (h : Generated o w r) (hvalidate : o.validate = false) :
    r.diagnostics = w.diagnostics := by
  cases h with
  | failed => rfl
  | done p m source more validation hparsed hmodel hsource hmore => simp [hmore hvalidate]

end Generated

end AnnotatedShader.Batch

/-! ## Acceptance -/

namespace AnnotatedShader.Batch

open Program

/-- The tables of slots of a program. -/
structure Tables (ms : List Model) (buffers textures : Slots) : Prop where
  buffers : slots ResourceClass.constantBuffer.text (ms.map buffersOf) = .ok buffers
  textures : slots ResourceClass.texture.text (ms.map texturesOf) = .ok textures

theorem exists_tables {ms placed : List Model} (h : Program.relocate ms = .ok placed) :
    ∃ buffers textures, Tables ms buffers textures ∧ placed = ms.map (rebind buffers textures) := by
  simp only [Program.relocate, bind_eq_ok_iff] at h
  obtain ⟨buffers, hbuffers, textures, htextures, h⟩ := h
  exact ⟨buffers, textures, ⟨hbuffers, htextures⟩, (Except.ok.inj h).symm⟩

/-- The model that a file ends with: that of its analysis, or the same with the slots of a program
that it belongs to. -/
inductive Placed (m : Model) : Model → Prop
  | alone : Placed m m
  | shared (ms : List Model) (buffers textures : Slots) (hm : m ∈ ms)
    (htables : Tables ms buffers textures) : Placed m (rebind buffers textures m)

/-- What an accepted file has gone through. -/
inductive Accepted (o : Options) (ns : Namespace) (f : SourceFile) (r : FileResult) : Prop
  | intro (p : ParsedFile) (analysed m : Model) (source : String) (hread : readFile f = .ok p)
    (hanalyse : analyse ns p = .ok analysed) (hplaced : Placed analysed m)
    (hgenerate : Glsl.generate p.source m o = .ok source) (hname : r.name = f.name)
    (hsource : r.source = some source)
    (hreflection : r.reflection = if o.emitReflection then some (.ofModel m) else none)

/-! ## Works without diagnostics -/

/-- The work on a file has a diagnostic, or the file has been read. -/
def ReadOf (f : SourceFile) (w : Work) : Prop :=
  w.name = f.name ∧ (w.diagnostics = [] → ∃ p, readFile f = .ok p ∧ w.parsed = some p)

/-- The work on a file has a diagnostic, or the file has been analysed and has a model. -/
def AnalysedOf (ns : Namespace) (Kept : Model → Model → Prop) (f : SourceFile) (w : Work) : Prop :=
  w.name = f.name ∧ (w.diagnostics = [] → ∃ p analysed m, readFile f = .ok p ∧ w.parsed = some p ∧
    analyse ns p = .ok analysed ∧ Kept analysed m ∧ w.model = some m)

theorem AnalysedOf.placed {ns : Namespace} {f : SourceFile} {w : Work} (h : AnalysedOf ns Eq f w) :
    AnalysedOf ns Placed f w := by
  refine ⟨h.1, fun hclean => ?_⟩
  obtain ⟨p, analysed, m, hread, hparsed, hanalyse, rfl, hmodel⟩ := h.2 hclean
  exact ⟨p, analysed, analysed, hread, hparsed, hanalyse, .alone, hmodel⟩

theorem readAll_readOf {seen : List String} {files : List SourceFile} {ws : List Work}
    (h : readAll seen files = .ok ws) : List.Forall₂ ReadOf files ws := by
  induction files generalizing seen ws with
  | nil =>
    obtain rfl := Except.ok.inj h
    exact .nil
  | cons f rest ih =>
    have hrejected : ∀ d, ReadOf f (rejected f.name d) := fun d => ⟨rfl, by simp [rejected]⟩
    unfold readAll at h
    split at h
    · rw [bind_eq_ok_iff] at h
      obtain ⟨others, hothers, h⟩ := h
      obtain rfl := Except.ok.inj h
      exact .cons (hrejected _) (ih hothers)
    · simp only [bind_eq_ok_iff] at h
      obtain ⟨outcome, houtcome, others, hothers, h⟩ := h
      cases outcome with
      | error d =>
        obtain rfl := Except.ok.inj h
        exact .cons (hrejected d) (ih hothers)
      | ok p =>
        obtain rfl := Except.ok.inj h
        exact .cons ⟨rfl, fun _ => ⟨p, spare_eq_ok_ok_iff.mp houtcome, rfl⟩⟩ (ih hothers)

theorem analyseWork_analysedOf {ns : Namespace} {f : SourceFile} {w a : Work} (hread : ReadOf f w)
    (h : analyseWork ns w = .ok a) : AnalysedOf ns Eq f a := by
  obtain ⟨hname, hread⟩ := hread
  unfold analyseWork at h
  split at h
  · rename_i hnone
    obtain rfl := Except.ok.inj h
    refine ⟨hname, fun hclean => ?_⟩
    obtain ⟨p, _, hp⟩ := hread hclean
    simp [hnone] at hp
  · rename_i p hparsed
    rw [bind_eq_ok_iff] at h
    obtain ⟨outcome, houtcome, h⟩ := h
    cases outcome with
    | error d =>
      obtain rfl := Except.ok.inj h
      exact ⟨hname, by simp⟩
    | ok m =>
      obtain rfl := Except.ok.inj h
      refine ⟨hname, fun hclean => ?_⟩
      obtain ⟨q, hq, hparsed'⟩ := hread hclean
      obtain rfl := Option.some.inj (hparsed.symm.trans hparsed')
      exact ⟨p, m, m, hq, hparsed, spare_eq_ok_ok_iff.mp houtcome, rfl, rfl⟩

section Relocation

variable {ns : Namespace} {files : List SourceFile} {ws : List Work}

/-- A file that loses its model has a diagnostic from then on. -/
theorem dropModel_analysedOf (d : Diagnostic) (h : List.Forall₂ (AnalysedOf ns Eq) files ws) :
    List.Forall₂ (AnalysedOf ns Eq) files (dropModel d ws) := by
  induction h with
  | nil => exact .nil
  | cons hfirst hrest ih =>
    rw [dropModel]
    split
    -- The file has a diagnostic now, so nothing is claimed of it any more.
    · exact .cons ⟨hfirst.1, by simp⟩ hrest
    · exact .cons hfirst ih

theorem replaceModels_map (g : Model → Model) (ws : List Work) :
    replaceModels ws ((models ws).map g) = ws.map fun w => { w with model := w.model.map g } := by
  induction ws with
  | nil => rfl
  | cons w rest ih =>
    obtain ⟨name, parsed, model, diagnostics⟩ := w
    rw [models] at ih ⊢
    cases model <;> simp [replaceModels, ih]

/-- The rounds of relocation take models away, and the last one places those that are left. -/
theorem relocateFrom_analysedOf {fuel : Nat} (h : List.Forall₂ (AnalysedOf ns Eq) files ws) :
    List.Forall₂ (AnalysedOf ns Placed) files (relocateFrom fuel ws) := by
  induction fuel generalizing ws with
  | zero => exact h.imp fun _ _ hw => hw.placed
  | succ fuel ih =>
    unfold relocateFrom
    split
    · rename_i ms hms
      obtain ⟨buffers, textures, htables, rfl⟩ := exists_tables hms
      rw [replaceModels_map, List.forall₂_map_right_iff]
      refine forall₂_imp_of_mem h fun f w hw hwork => ⟨hwork.1, fun hclean => ?_⟩
      obtain ⟨p, analysed, m, hread, hparsed, hanalyse, rfl, hmodel⟩ := hwork.2 hclean
      have hmem : analysed ∈ models ws := List.mem_filterMap.mpr ⟨w, hw, hmodel⟩
      exact ⟨p, analysed, _, hread, hparsed, hanalyse,
        .shared (models ws) buffers textures hmem htables, by simp [hmodel]⟩
    · exact ih (dropModel_analysedOf _ h)

end Relocation

/-- The files without diagnostics have gone through all steps up to generation. -/
theorem analyseAll_analysedOf {o : Options} {files : List SourceFile} {placed : List Work}
    (h : analyseAll o files = .ok placed) : ∃ ws, readAll [] files = .ok ws ∧
      List.Forall₂ (AnalysedOf (namespaceOf ws) Placed) files placed := by
  simp only [analyseAll, bind_eq_ok_iff] at h
  obtain ⟨ws, hread, as, hanalyse, hplaced⟩ := h
  have hanalysed : List.Forall₂ (AnalysedOf (namespaceOf ws) Eq) files as :=
    forall₂_trans (readAll_readOf hread) (forall₂_of_mapM hanalyse)
      fun _ _ _ => analyseWork_analysedOf
  refine ⟨ws, hread, ?_⟩
  obtain rfl := Except.ok.inj hplaced
  split
  · exact relocateFrom_analysedOf hanalysed
  · exact hanalysed.imp fun _ _ hw => hw.placed

/-- Every file that a batch accepts has gone through all steps, in the namespace of the files that
are read. -/
theorem compile_acceptedIn {o : Options} {v : Validator} {files : List SourceFile}
    {rs : List FileResult} (h : compile o v files = .ok rs) :
    ∃ ws, readAll [] files = .ok ws ∧
      List.Forall₂ (fun f r => r.isOk = true → Accepted o (namespaceOf ws) f r) files rs := by
  obtain ⟨placed, hplaced, hgenerate⟩ := bind_eq_ok_iff.mp h
  obtain ⟨ws, hread, hworks⟩ := analyseAll_analysedOf hplaced
  refine ⟨ws, hread, ?_⟩
  refine forall₂_trans hworks (forall₂_of_mapM hgenerate) fun f w r hw hr hok => ?_
  obtain ⟨hname, hw⟩ := hw
  have hclean : r.diagnostics = [] := by simpa [FileResult.isOk] using hok
  cases generate_generated hr with
  | failed hnone =>
    obtain ⟨p, _, m, _, hparsed, _, _, hmodel⟩ := hw hclean
    simp [hparsed, hmodel] at hnone
  | done p m source more validation hparsed hmodel hsource =>
    obtain ⟨q, analysed, m', hread, hparsed', hanalyse, hplaced, hmodel'⟩ :=
      hw (List.append_eq_nil_iff.mp hclean).1
    obtain rfl := Option.some.inj (hparsed.symm.trans hparsed')
    obtain rfl := Option.some.inj (hmodel.symm.trans hmodel')
    exact ⟨p, analysed, m, source, hread, hanalyse, hplaced, hsource, hname, rfl, rfl⟩

/-- Every file that a batch accepts has gone through all steps. -/
theorem compile_accepted {o : Options} {v : Validator} {files : List SourceFile}
    {rs : List FileResult} (h : compile o v files = .ok rs) :
    ∃ ns, List.Forall₂ (fun f r => r.isOk = true → Accepted o ns f r) files rs := by
  obtain ⟨ws, _, haccepted⟩ := compile_acceptedIn h
  exact ⟨namespaceOf ws, haccepted⟩

/-! ## Validation -/

/-- The options where generated GLSL is validated. -/
def validating : Options := { Options.default with validate := true }

/-- The source of an accepted file has been accepted by the validator, if there is one to ask. -/
theorem run_of_generate {o : Options} {v : Validator} {w : Work} {r : FileResult}
    (h : generate o v w = .ok r) (hok : r.isOk = true) {source : String}
    (hsource : r.source = some source) (hvalidate : o.validate = true) :
    ∃ stage answer, v.run o.environment source stage = .ok answer ∧ answer.success = true := by
  obtain ⟨name, parsed, model, diagnostics⟩ := w
  cases parsed with
  | none =>
    obtain rfl := Except.ok.inj h
    contradiction
  | some p =>
    cases model with
    | none =>
      obtain rfl := Except.ok.inj h
      contradiction
    | some m =>
      simp only [generate, hvalidate, if_true, bind_eq_ok_iff] at h
      obtain ⟨text, _, outcome, houtcome, h⟩ := h
      cases outcome with
      | error d =>
        obtain rfl := Except.ok.inj h
        simp [FileResult.isOk] at hok
      | ok result =>
        obtain rfl := Except.ok.inj h
        obtain rfl := Option.some.inj hsource
        obtain ⟨answer, hrun, hanswer⟩ := bind_eq_ok_iff.mp (spare_eq_ok_ok_iff.mp houtcome)
        split at hanswer
        · rename_i hsuccess
          exact ⟨m.stage, answer, hrun, hsuccess⟩
        · contradiction

/-- The result for a file with a text. -/
def resultWith (o : Options) (name : String) (p : ParsedFile) (m : Model) (source : String)
    (ds : List Diagnostic) (validation : Option ValidationResult) : FileResult :=
  ⟨name, some p.source.stage, some source, if o.emitReflection then some (.ofModel m) else none, ds,
    validation⟩

/-- A file for whose model a text is generated has a result with that text and the record of the
model.  It gets no other diagnostic, unless the text is validated and the validator does not take
it. -/
theorem exists_generate {o : Options} {v : Validator} {p : ParsedFile} {m : Model} {source : String}
    (hsource : Glsl.generate p.source m o = .ok source)
    (hrun : o.validate = true → ∃ answer, v.run o.environment source m.stage = .ok answer)
    (name : String) (ds : List Diagnostic) : ∃ ds' validation,
      generate o v ⟨name, some p, some m, ds⟩ = .ok (resultWith o name p m source ds' validation) ∧
      (ds' = ds ∧ (o.validate = true → v.Takes o.environment source m.stage) ∨
        (∃ d, ds' = ds ++ [d]) ∧ o.validate = true ∧ ¬ v.Takes o.environment source m.stage) := by
  cases hvalidate : o.validate with
  | false =>
    refine ⟨ds, none, ?_, .inl ⟨rfl, fun hyes => by contradiction⟩⟩
    simp only [generate, hsource, hvalidate]
    rfl
  | true =>
    obtain ⟨answer, hanswer⟩ := hrun hvalidate
    have hvalid : v.validate o.environment source m.stage m.file =
        if answer.success then .ok answer
        else .error (.at_ m.file .nowhere (.validation answer.log)) := by
      simp only [Validator.validate, hanswer, bind, Except.bind]
    cases hsuccess : answer.success with
    | true =>
      refine ⟨ds, some answer, ?_, .inl ⟨rfl, fun _ => ⟨answer, hanswer, hsuccess⟩⟩⟩
      simp only [generate, hsource, hvalidate, hvalid, hsuccess, bind, Except.bind]
      rfl
    | false =>
      refine ⟨ds ++ [⟨m.file, .nowhere, .validation answer.log⟩], none, ?_,
        .inr ⟨⟨_, rfl⟩, rfl, fun htakes => ?_⟩⟩
      · simp only [generate, hsource, hvalidate, hvalid, hsuccess, bind, Except.bind]
        rfl
      · obtain ⟨other, hother, haccepted⟩ := htakes
        obtain rfl := Except.ok.inj (hanswer.symm.trans hother)
        rw [hsuccess] at haccepted
        contradiction

/-- Where a file has been accepted the validator has an answer for every source. -/
theorem answers_of_compile {o : Options} {v : Validator} {files : List SourceFile}
    {rs : List FileResult} (h : compile o v files = .ok rs) {r : FileResult} (hr : r ∈ rs)
    (hok : r.isOk = true) (hvalidate : o.validate = true) (source : String) (stage : Stage) :
    ∃ answer, v.run o.environment source stage = .ok answer := by
  obtain ⟨ns, haccepted⟩ := compile_accepted h
  obtain ⟨f, _, hfr⟩ := exists_left_of_forall₂ haccepted hr
  obtain ⟨_, _, _, text, _, _, _, _, _, hsource, _⟩ := hfr hok
  obtain ⟨placed, _, hgenerate⟩ := bind_eq_ok_iff.mp h
  obtain ⟨w, _, hw⟩ := exists_left_of_forall₂ (forall₂_of_mapM hgenerate) hr
  obtain ⟨_, answer, hrun, _⟩ := run_of_generate hw hok hsource hvalidate
  exact Validator.run_of_run hrun source stage

end AnnotatedShader.Batch
