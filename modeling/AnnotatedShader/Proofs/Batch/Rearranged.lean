import AnnotatedShader.Proofs.Batch.Comments
import AnnotatedShader.Proofs.Batch.Interface
import AnnotatedShader.Proofs.Batch.Recording
import AnnotatedShader.Proofs.Glsl.Rearranged
import AnnotatedShader.Proofs.Model.Rearranged
import AnnotatedShader.Proofs.Slot.Rearranged
import Mathlib

set_option autoImplicit false

/-!
# Batches with a rearranged file

The statements of an accepted file can be put into another order that keeps the order of each
series: buffers with numeric constants, textures, outputs, pipelines, and blend functions.  The
analysis accepts the file as before, and all others: the files of the batch have the same
diagnostics up to their texts and places, and the same reflection records.

The two batches are run side by side.  `Akin` relates the work on a file in both: it is the same, or
its statements are rearranged, or only places in its diagnostics differ.  Names mean the same in
both namespaces, so the models of all files but one are equal up to positions, and that of the
rearranged file has the same entities in each series (`analyse_rearranged`).  Slots depend on the
series alone.  `SameAnalysis` and `SameReflection` are what is left of this in the results.

The generated text is another one, since declarations move with their statements.  It can be
generated, given that both files state their version or neither does (`SameVersion`), but a
validator need not take it.  So that the file is accepted is said for runs without validation and
for validators that take every text (`Lenient`).  At the end stands a validator that does not, with
a buffer that moves behind the line that reads it.
-/

namespace AnnotatedShader

/-- The entities of a model stand in the order of their statements. -/
theorem Model.build_ordered {m : Module} {stage : Stage} {ns : Namespace}
    {imports : List ResolvedImport} {model : Model} (h : build m stage ns imports = .ok model) :
    model.Ordered := by
  have hbuffers := List.pairwise_map.mpr (build_bufferIndices h)
  obtain ⟨_, d, hvisit, hroot, _⟩ := build_eq_ok h
  have horder : InOrder (0 + m.statements.length) d :=
    visitAll_inOrder (by constructor <;> exact List.pairwise_singleton _ _) hvisit
  cases hroot <;> exact ⟨hbuffers, horder.textures.pairwise, horder.outputs.pairwise⟩

namespace Program

theorem Kin.file {m m' : Model} (h : Kin m m') : m'.file = m.file := by
  cases h with
  | same => rfl
  | rearranged _ h => exact h.file

theorem Kin.ofModel {m m' : Model} (h : Kin m m') : Reflection.ofModel m' = .ofModel m := by
  cases h with
  | same => rfl
  | rearranged _ h => exact h.ofModel

theorem Kin.toRearranged {m m' : Model} (h : Kin m m') : m.Rearranged m' := by
  cases h with
  | same => exact ⟨rfl, List.Perm.refl _⟩
  | rearranged _ h => exact h

end Program

namespace Batch

open Program (Kin)

/-! ## Work on files -/

/-- The work on a file that has been read. -/
def readTo (f : SourceFile) (p : ParsedFile) : Work := ⟨f.name, some p, none, []⟩

/-- Two sources that both state the version or both do not. -/
def SameVersion (p p' : ParsedFile) : Prop :=
  Glsl.hasVersion p'.source = Glsl.hasVersion p.source

/-- Work on the files of two batches: both files have a diagnostic or neither has, and their models
are the same or rearranged. -/
structure Akin (w w' : Work) : Prop where
  name : w'.name = w.name
  parsed : Option.Rel SameVersion w.parsed w'.parsed
  diagnostics : w'.diagnostics = [] ↔ w.diagnostics = []
  model : Option.Rel Kin w.model w'.model

theorem Akin.refl (w : Work) : Akin w w := by
  refine ⟨rfl, ?_, Iff.rfl, ?_⟩
  · cases w.parsed with
    | none => exact .none
    | some p => exact .some rfl
  · cases w.model with
    | none => exact .none
    | some m => exact .some .same

/-! ## Analysis -/

section Analysis

variable {before after : List Module} {p p' : ParsedFile}

/-- The model of a file is the same when another file is rearranged. -/
theorem analyse_moved {ns ns' : Namespace} (h : ns.Moved ns') (p : ParsedFile) :
    EndAlike (· = ·) (analyse ns p) (analyse ns' p) := by
  refine (Module.resolveImports_moved h p.module).bind fun imports imports' himports => ?_
  exact (Model.build_moved h himports p.module p.source.stage).bind_eq fun m => .rfl

theorem analyseWork_moved {ns ns' : Namespace} (h : ns.Moved ns') {w a : Work}
    (ha : analyseWork ns w = .ok a) : ∃ a', analyseWork ns' w = .ok a' ∧ Akin a a' := by
  unfold analyseWork at ha ⊢
  cases hparsed : w.parsed with
  | none =>
    simp only [hparsed] at ha
    obtain rfl := Except.ok.inj ha
    exact ⟨w, rfl, .refl w⟩
  | some p =>
    simp only [hparsed] at ha ⊢
    have halike := analyse_moved h p
    generalize analyse ns p = x at halike ha
    generalize analyse ns' p = y at halike
    cases halike with
    | ok hm =>
      obtain rfl := Except.ok.inj ha
      subst hm
      exact ⟨_, rfl, .refl _⟩
    | diagnosed d d' =>
      obtain rfl := Except.ok.inj ha
      exact ⟨_, rfl, rfl, .some rfl, by simp, (Akin.refl w).model⟩
    | failed e =>
      cases e with
      | diagnosed d =>
        obtain rfl := Except.ok.inj ha
        exact ⟨_, rfl, .refl _⟩
      | _ => contradiction

theorem analyseWork_readTo {ns : Namespace} {f : SourceFile} {m : Model}
    (h : analyse ns p = .ok m) :
    analyseWork ns (readTo f p) = .ok { readTo f p with model := some m } := by
  simp only [analyseWork, readTo, spare_eq_ok_ok_iff.mpr h]
  rfl

/-- A file that is rearranged is analysed to a model that is. -/
theorem analyse_rearranged
    (hfiles : ((before ++ p.module :: after).map Module.file).Nodup)
    (h : p.module.Rearranged (.ofModules (before ++ p.module :: after)) p'.module)
    (hstage : p'.source.stage = p.source.stage) {m : Model}
    (hm : analyse (.ofModules (before ++ p.module :: after)) p = .ok m) :
    (Namespace.ofModules (before ++ p.module :: after)).Moved
        (.ofModules (before ++ p'.module :: after)) ∧
      ∃ m', analyse (.ofModules (before ++ p'.module :: after)) p' = .ok m' ∧ Kin m m' := by
  simp only [analyse, bind_eq_ok_iff] at hm
  obtain ⟨imports, himports, built, hbuild, hassign⟩ := hm
  have hnames := (Model.build_eq_ok hbuild).1
  have hmoved := Namespace.moved_rearranged hfiles h hnames
  obtain ⟨imports', himports'⟩ := h.resolveImports hmoved himports
  have hresolved := (Module.resolveImports_eq_ok himports).2
  have hresolved' := (Module.resolveImports_eq_ok himports').2
  have honly : ∀ m ∈ before ++ p.module :: after, m.file = p.module.file → m = p.module :=
    fun m hm hfile => List.inj_on_of_nodup_map hfiles hm (by simp) hfile
  have honly' : ∀ m ∈ before ++ p'.module :: after, m.file = p'.module.file → m = p'.module :=
    fun m hm hfile =>
      List.inj_on_of_nodup_map (Namespace.files_rearranged hfiles h) hm (by simp) hfile
  obtain ⟨built', hbuild', hrearranged⟩ := Model.build_rearranged hmoved h hresolved hresolved'
    (Model.coversNames_exported _) (Model.coversNames_exported _)
    (Model.coversStructs_exported (by simp) honly hnames hresolved)
    (Model.coversStructs_exported (by simp) honly' (h.namesOf.nodup_iff.mpr hnames) hresolved')
    hbuild
  have hordered := Model.build_ordered hbuild
  have hordered' := Model.build_ordered hbuild'
  obtain ⟨placed', hplaced', hplaced⟩ :=
    Model.assignSlots_rearranged hrearranged hordered hordered' hassign
  refine ⟨hmoved, placed', ?_, .rearranged placed' hplaced ?_ ?_⟩
  · simp only [analyse, bind_eq_ok_iff]
    exact ⟨imports', himports', built', hstage ▸ hbuild', hplaced'⟩
  · exact hordered.of_unslotted_eq (Model.assignSlots_unslotted hassign)
  · exact hordered'.of_unslotted_eq (Model.assignSlots_unslotted hplaced')

end Analysis

/-! ## Reading -/

theorem readWork_readTo {f : SourceFile} {p : ParsedFile} (h : readFile f = .ok p) :
    readWork f = .ok (readTo f p) := by
  rw [readWork, spare_eq_ok_ok_iff.mpr h]
  rfl

/-- When the text of one file is replaced, another file is read at its place, unless its name counts
for an earlier file; the others are read as before. -/
theorem readAll_replaced {seen : List String} {before after : List SourceFile} {f f' : SourceFile}
    {p p' : ParsedFile} {ws : List Work} (hname : f'.name = f.name) (hp : readFile f = .ok p)
    (hp' : readFile f' = .ok p') (h : readAll seen (before ++ f :: after) = .ok ws) :
    readAll seen (before ++ f' :: after) = .ok ws ∨
      ∃ front back, ws = front ++ readTo f p :: back ∧
        readAll seen (before ++ f' :: after) = .ok (front ++ readTo f p' :: back) := by
  induction before generalizing seen ws with
  | nil =>
    rw [List.nil_append, readAll] at h ⊢
    rw [hname]
    split at h
    · rename_i hseen
      rw [if_pos hseen]
      exact .inl h
    · rename_i hseen
      rw [if_neg hseen]
      obtain ⟨outcome, houtcome, h⟩ := bind_eq_ok_iff.mp h
      obtain rfl : outcome = .ok p :=
        Except.ok.inj (houtcome.symm.trans (spare_eq_ok_ok_iff.mpr hp))
      obtain ⟨others, hothers, h⟩ := bind_eq_ok_iff.mp h
      obtain rfl := Except.ok.inj h
      refine .inr ⟨[], others, rfl, ?_⟩
      rw [spare_eq_ok_ok_iff.mpr hp', hothers]
      rfl
  | cons first rest ih =>
    rw [List.cons_append, readAll] at h ⊢
    split at h
    · rename_i hseen
      rw [if_pos hseen]
      obtain ⟨others, hothers, h⟩ := bind_eq_ok_iff.mp h
      obtain rfl := Except.ok.inj h
      rcases ih hothers with hsame | ⟨front, back, rfl, hreplaced⟩
      · exact .inl (by rw [hsame]; rfl)
      · exact .inr ⟨_ :: front, back, rfl, by rw [hreplaced]; rfl⟩
    · rename_i hseen
      rw [if_neg hseen]
      obtain ⟨outcome, houtcome, h⟩ := bind_eq_ok_iff.mp h
      obtain ⟨others, hothers, h⟩ := bind_eq_ok_iff.mp h
      rw [houtcome]
      rcases ih hothers with hsame | ⟨front, back, rfl, hreplaced⟩
      · exact .inl (by rw [hsame]; exact h)
      · refine .inr ?_
        rw [hreplaced]
        cases outcome <;> obtain rfl := Except.ok.inj h <;>
          exact ⟨_ :: front, back, rfl, rfl⟩

/-! ## All of the analysis -/

theorem namespaceOf_split (front back : List Work) (f : SourceFile) (p : ParsedFile) :
    namespaceOf (front ++ readTo f p :: back) =
      .ofModules (modulesIn front ++ p.module :: modulesIn back) := by
  rw [namespaceOf, List.filterMap_append]
  rfl

theorem abreast_akin : Abreast Kin (fun d d' => d'.file = d.file) Akin where
  model _ _ hw := hw.model
  file _ _ hm := hm.file
  diagnostic _ _ hd := hd
  put _ _ _ _ hw hm := ⟨hw.name, hw.parsed, hw.diagnostics, .some hm⟩
  drop _ _ _ _ hw _ := ⟨hw.name, hw.parsed, by simp, .none⟩
  relocate _ _ hms := Program.relocate_kin hms

section Replaced

variable {before after : List SourceFile} {f f' : SourceFile} {p p' : ParsedFile} {ws : List Work}
  (hname : f'.name = f.name) (hp : readFile f = .ok p) (hp' : readFile f' = .ok p')
  (hstage : p'.source.stage = p.source.stage) (hversion : SameVersion p p')
  (hread : readAll [] (before ++ f :: after) = .ok ws)
  (hrearranged : p.module.Rearranged (namespaceOf ws) p'.module)

include hname hp hp' hstage hversion hread hrearranged

/-- The work on all files is akin before slots are shared. -/
theorem mapM_analyseWork_rearranged {m : Model} (hm : analyse (namespaceOf ws) p = .ok m)
    {as : List Work} (has : ws.mapM (analyseWork (namespaceOf ws)) = .ok as) :
    ∃ ws' as', readAll [] (before ++ f' :: after) = .ok ws' ∧
      ws'.mapM (analyseWork (namespaceOf ws')) = .ok as' ∧ List.Forall₂ Akin as as' := by
  rcases readAll_replaced hname hp hp' hread with hsame | ⟨front, back, rfl, hreplaced⟩
  · exact ⟨ws, as, hsame, has, List.forall₂_same.mpr fun a _ => .refl a⟩
  · have hfiles := (readAll_spec hread).2.1
    have hmodules : modulesIn (front ++ readTo f p :: back) =
        modulesIn front ++ p.module :: modulesIn back := by
      rw [modulesIn, List.filterMap_append]
      rfl
    rw [hmodules] at hfiles
    rw [namespaceOf_split] at hrearranged hm has
    obtain ⟨hmoved, m', hm', hkin⟩ := analyse_rearranged hfiles hrearranged hstage hm
    have hpairs : List.Forall₂ (fun w w' => w' = w ∨ w = readTo f p ∧ w' = readTo f p')
        (front ++ readTo f p :: back) (front ++ readTo f p' :: back) :=
      List.rel_append (List.forall₂_same.mpr fun _ _ => .inl rfl)
        (.cons (.inr ⟨rfl, rfl⟩) (List.forall₂_same.mpr fun _ _ => .inl rfl))
    obtain ⟨as', has', hakin⟩ := exists_mapM_of_forall₂ hpairs (S := Akin) (fun w _ w' a hw ha => by
      rcases hw with rfl | ⟨rfl, rfl⟩
      · exact analyseWork_moved hmoved ha
      · rw [analyseWork_readTo hm] at ha
        obtain rfl := Except.ok.inj ha
        exact ⟨_, analyseWork_readTo hm', rfl, .some hversion, Iff.rfl, .some hkin⟩) has
    exact ⟨_, as', hreplaced, by rwa [namespaceOf_split], hakin⟩

theorem analyseAll_rearranged {m : Model} (hm : analyse (namespaceOf ws) p = .ok m) {o : Options}
    {as : List Work} (h : analyseAll o (before ++ f :: after) = .ok as) :
    ∃ as', analyseAll o (before ++ f' :: after) = .ok as' ∧ List.Forall₂ Akin as as' := by
  simp only [analyseAll, hread, bind_eq_ok_iff] at h
  obtain ⟨_, hws, analysed, hanalysed, h⟩ := h
  obtain rfl := Except.ok.inj hws
  obtain ⟨ws', analysed', hread', hanalysed', hakin⟩ :=
    mapM_analyseWork_rearranged hname hp hp' hstage hversion hread hrearranged hm hanalysed
  refine ⟨if o.programBindings then relocate analysed' else analysed', ?_, ?_⟩
  · simp only [analyseAll, hread', bind_eq_ok_iff]
    exact ⟨ws', rfl, analysed', hanalysed', rfl⟩
  · obtain rfl := Except.ok.inj h
    split
    · exact abreast_akin.relocateAll hakin
    · exact hakin

end Replaced

/-! ## Generation -/

/-- A model in which texts are generated for rearranged ones, too. -/
structure Emits (p : ParsedFile) (m : Model) : Prop where
  roles : p.source.roles = Source.roles p.source.lines
  bare : Source.openings p.source = 0 → Glsl.Bare m
  structs : (m.structs.map StructDef.id).Nodup

theorem emits_of_analysed {ns : Namespace} {f : SourceFile} {p : ParsedFile} {analysed m : Model}
    (hread : readFile f = .ok p) (hanalyse : analyse ns p = .ok analysed)
    (hplaced : Placed analysed m) : Emits p m := by
  obtain ⟨houtcome, hnone⟩ := readFile_source hread
  refine ⟨Source.roles_of_read houtcome,
    fun hopenings => hplaced.bare (analyse_bare (hnone hopenings) hanalyse), ?_⟩
  simp only [analyse, bind_eq_ok_iff] at hanalyse
  obtain ⟨_, _, built, hbuild, hassign⟩ := hanalyse
  rw [Model.structs_eq_of_unslotted (hplaced.unslotted.trans (Model.assignSlots_unslotted hassign))]
  exact (Model.accepted_of_build hbuild).structs.nodup

/-- Generated GLSL is not validated, or the validator takes all of it. -/
def Lenient (o : Options) (v : Validator) : Prop :=
  o.validate = true → ∀ source stage, v.Takes o.environment source stage

/-- Two results with the same reflection record. -/
structure SameReflection (r r' : FileResult) : Prop where
  name : r'.name = r.name
  reflection : r'.reflection = r.reflection

/-- Two results with the same verdict and the same reflection record. -/
structure SameRecord (r r' : FileResult) : Prop where
  name : r'.name = r.name
  isOk : r'.isOk = r.isOk
  reflection : r'.reflection = r.reflection

/-- Results with the same reflection record, and the same verdict where no validator objects. -/
def Kept (o : Options) (v : Validator) (r r' : FileResult) : Prop :=
  SameReflection r r' ∧ (Lenient o v → SameRecord r r')

theorem generate_akin {o : Options} {v : Validator}
    (hanswers : o.validate = true → ∀ source stage, ∃ answer,
      v.run o.environment source stage = .ok answer) {w w' : Work}
    (hw : ∀ p m, w.parsed = some p → w.model = some m → Emits p m) (h : Akin w w')
    {r : FileResult} (hr : generate o v w = .ok r) :
    ∃ r', generate o v w' = .ok r' ∧ Kept o v r r' := by
  obtain ⟨name, parsed, model, diagnostics⟩ := w
  obtain ⟨name', parsed', model', diagnostics'⟩ := w'
  obtain ⟨hname, hparsed, hdiagnostics, hmodel⟩ := h
  dsimp only at hname hparsed hdiagnostics hmodel
  subst hname
  have hempty : diagnostics'.isEmpty = diagnostics.isEmpty := by
    rw [Bool.eq_iff_iff, List.isEmpty_iff, List.isEmpty_iff, hdiagnostics]
  have hfailed : ∀ {stage stage' : Option Stage}, Kept o v
      ⟨name', stage, none, none, diagnostics, none⟩
      ⟨name', stage', none, none, diagnostics', none⟩ :=
    ⟨⟨rfl, rfl⟩, fun _ => ⟨rfl, hempty, rfl⟩⟩
  cases hparsed with
  | none =>
    obtain rfl := Except.ok.inj hr
    exact ⟨_, rfl, hfailed⟩
  | @some p p' hversion =>
    cases hmodel with
    | none =>
      obtain rfl := Except.ok.inj hr
      exact ⟨_, rfl, hfailed⟩
    | @some m m' hkin =>
      obtain ⟨hroles, hbare, hids⟩ := hw p m rfl rfl
      have htext : ∃ text, Glsl.generate p.source m o = .ok text := by
        simp only [generate, bind_eq_ok_iff] at hr
        exact ⟨_, hr.choose_spec.1⟩
      obtain ⟨text, htext⟩ := htext
      obtain ⟨text', htext'⟩ :=
        Glsl.generate_rearranged hkin.toRearranged hids htext hroles hbare hversion
      obtain ⟨ds, validation, hdone, hds⟩ :=
        exists_generate htext (fun hon => hanswers hon text m.stage) name' diagnostics
      obtain ⟨ds', validation', hdone', hds'⟩ :=
        exists_generate htext' (fun hon => hanswers hon text' m'.stage) name' diagnostics'
      obtain rfl := Except.ok.inj (hdone.symm.trans hr)
      have hsame : (resultWith o name' p' m' text' ds' validation').reflection =
          (resultWith o name' p m text ds validation).reflection := by
        rw [resultWith, resultWith, hkin.ofModel]
      refine ⟨_, hdone', ⟨rfl, hsame⟩, fun hv => ⟨rfl, ?_, hsame⟩⟩
      -- Where no validator objects neither file gets another diagnostic.
      rcases hds with ⟨rfl, _⟩ | ⟨_, hon, hrefuses⟩
      · rcases hds' with ⟨rfl, _⟩ | ⟨_, hon, hrefuses⟩
        · exact hempty
        · exact absurd (hv hon text' m'.stage) hrefuses
      · exact absurd (hv hon text m.stage) hrefuses

/-- In what comes of all analysis, a text is generated for every rearranged model. -/
theorem analyseAll_emits {o : Options} {files : List SourceFile} {ws : List Work}
    (h : analyseAll o files = .ok ws) :
    ∀ w ∈ ws, ∀ p m, w.parsed = some p → w.model = some m → Emits p m := by
  intro w hw p m hparsed hmodel
  obtain ⟨_, _, hanalysed⟩ := analyseAll_analysedOf h
  obtain ⟨f, _, hsettled⟩ := exists_left_of_forall₂ (analyseAll_settled h) hw
  obtain ⟨g, _, _, hspec⟩ := exists_left_of_forall₂ hanalysed hw
  have hclean : w.diagnostics = [] := by
    cases hsettled with
    | whole => rfl
    | faulty => contradiction
  obtain ⟨q, analysed, m', hread, hq, hanalyse, hplaced, hm'⟩ := hspec hclean
  obtain rfl := Option.some.inj (hq.symm.trans hparsed)
  obtain rfl := Option.some.inj (hm'.symm.trans hmodel)
  exact emits_of_analysed hread hanalyse hplaced

/-! ## All of it -/

/-- The work on the same file in two batches: rejected in both or in neither, with the same
reflection record. -/
structure SameAnalysis (w w' : Work) : Prop where
  name : w'.name = w.name
  diagnostics : w'.diagnostics = [] ↔ w.diagnostics = []
  reflection : w'.model.map Reflection.ofModel = w.model.map Reflection.ofModel

theorem Akin.sameAnalysis {w w' : Work} (h : Akin w w') : SameAnalysis w w' := by
  refine ⟨h.name, h.diagnostics, ?_⟩
  have hmodel := h.model
  generalize w.model = m at hmodel
  generalize w'.model = m' at hmodel
  cases hmodel with
  | none => rfl
  | some hkin => rw [Option.map_some, Option.map_some, hkin.ofModel]

/-- Only the order within each series matters.  When the statements of an accepted file are put into
another order that keeps the order of each series, the analysis accepts or rejects every file of the
batch as before, and every file has the same reflection record.  Where generated GLSL is not
validated, or the validator lets all of it pass, every file is accepted or rejected as before. -/
theorem compile_rearranged {o : Options} {v : Validator} {before after : List SourceFile}
    {f f' : SourceFile} {p p' : ParsedFile} {ws : List Work} {rs : List FileResult} {r : FileResult}
    (hname : f'.name = f.name) (hp : readFile f = .ok p) (hp' : readFile f' = .ok p')
    (hstage : p'.source.stage = p.source.stage) (hversion : SameVersion p p')
    (hread : readAll [] (before ++ f :: after) = .ok ws)
    (hrearranged : p.module.Rearranged (namespaceOf ws) p'.module)
    (h : compile o v (before ++ f :: after) = .ok rs) (hr : rs[before.length]? = some r)
    (hok : r.isOk = true) :
    (∃ as as', analyseAll o (before ++ f :: after) = .ok as ∧
      analyseAll o (before ++ f' :: after) = .ok as' ∧ List.Forall₂ SameAnalysis as as') ∧
    ∃ rs', compile o v (before ++ f' :: after) = .ok rs' ∧ List.Forall₂ SameReflection rs rs' ∧
      (Lenient o v → List.Forall₂ SameRecord rs rs') := by
  have hmem : r ∈ rs := List.mem_of_getElem? hr
  obtain ⟨m, hm⟩ : ∃ m, analyse (namespaceOf ws) p = .ok m := by
    obtain ⟨ws', hread', haccepted⟩ := compile_acceptedIn h
    obtain rfl := Except.ok.inj (hread.symm.trans hread')
    obtain ⟨front, back, rfl, hfront, hback⟩ := exists_append_of_forall₂ haccepted
    cases hback with
    | cons hfirst _ =>
      rw [hfront.length_eq, List.getElem?_append_right (Nat.le_refl _), Nat.sub_self,
        List.getElem?_cons_zero] at hr
      obtain rfl := Option.some.inj hr
      obtain ⟨q, m, _, _, hq, hanalyse, _⟩ := hfirst hok
      obtain rfl := Except.ok.inj (hp.symm.trans hq)
      exact ⟨m, hanalyse⟩
  obtain ⟨as, has, hgenerate⟩ := bind_eq_ok_iff.mp h
  obtain ⟨as', has', hakin⟩ :=
    analyseAll_rearranged hname hp hp' hstage hversion hread hrearranged hm has
  refine ⟨⟨as, as', has, has', hakin.imp fun _ _ => Akin.sameAnalysis⟩, ?_⟩
  obtain ⟨rs', hrs', hkept⟩ := exists_mapM_of_forall₂ hakin
    (fun a ha a' r hpair hr =>
      generate_akin (answers_of_compile h hmem hok) (analyseAll_emits has a ha) hpair hr) hgenerate
  exact ⟨rs', bind_eq_ok_iff.mpr ⟨as', has', hrs'⟩, hkept.imp fun _ _ hk => hk.1,
    fun hv => hkept.imp fun _ _ hk => hk.2 hv⟩

/-- The source that a file is read to. -/
def sourceOf (f : SourceFile) : Source.Annotated :=
  (Source.read f.name f.text).outcome.toOption.getD default

theorem sourceOf_annotated {entry : String × List Char} (h : isAnnotation entry.2 = true) :
    sourceOf (annotatedFile entry) = annotatedSource entry.2 := by
  rw [sourceOf, read_annotated h]
  rfl

/-- A file with one line of annotations is read to what the phrases of the line mean. -/
theorem readFile_line {entry : String × List Char} {ss : List Statement}
    (hline : isAnnotation entry.2 = true)
    (h : ((Statement.phrasesOfScan entry.1 (Lexer.scanAt .start (annotatedText entry.2))).toOption.any
      fun ps => Statement.ofPhrases entry.1 ps = .ok ss ∧ Statement.commentsApart ps
        (Lexer.scanAt .start (annotatedText entry.2)).tokens = []) = true) :
    readFile (annotatedFile entry) = .ok ⟨sourceOf (annotatedFile entry), ⟨entry.1, ss⟩⟩ := by
  rw [sourceOf_annotated hline]
  exact readFile_of_phrases (read_annotated hline) (toList_annotationText entry.2) h

/-- A file with a constant and a pipeline. -/
def dawn : SourceFile := annotated "Sky" "const float Fog; pipeline Haze \x7b Blend = true; \x7d"

/-- The same file with the pipeline first. -/
def dusk : SourceFile := annotated "Sky" "pipeline Haze \x7b Blend = true; \x7d const float Fog;"

/-- A file that imports the constant. -/
def sea : SourceFile := annotated "Sea" "use Sky::Fog;"

/-- The constant at a column. -/
def fog (column : Nat) : Statement :=
  ⟨⟨3, column⟩, .declare (.constant ⟨⟨"float", none, none⟩, "Fog", none, 0, ⟨3, column + 12⟩⟩)⟩

/-- The pipeline at a column. -/
def haze (column : Nat) : Statement :=
  ⟨⟨3, column⟩, .declare (.pipeline "Haze" [⟨"Blend", .bool true⟩])⟩

/-- What the three files are read to. -/
def dawnRead : ParsedFile := ⟨sourceOf dawn, ⟨"Sky", [fog 1, haze 18]⟩⟩

@[inherit_doc dawnRead]
def duskRead : ParsedFile := ⟨sourceOf dusk, ⟨"Sky", [haze 1, fog 33]⟩⟩

@[inherit_doc dawnRead]
def seaRead : ParsedFile := ⟨sourceOf sea, ⟨"Sea", [⟨⟨3, 1⟩, .use ⟨"Sky", "Fog", none⟩⟩]⟩⟩

theorem compile_rearranged_dawn :
    readFile dawn = .ok dawnRead ∧ readFile dusk = .ok duskRead ∧
    dawnRead.module.Rearranged (namespaceOf [readTo dawn dawnRead, readTo sea seaRead])
      duskRead.module ∧
    ∃ rs rs', compile .default (.script default) [dawn, sea] = .ok rs ∧
      rs.map FileResult.isOk = [true, true] ∧
      compile .default (.script default) [dusk, sea] = .ok rs' ∧
        List.Forall₂ SameRecord rs rs' := by
  have hdawnFile : dawn = annotatedFile ("Sky", _) := rfl
  have hduskFile : dusk = annotatedFile ("Sky", _) := rfl
  have hseaFile : sea = annotatedFile ("Sea", _) := rfl
  have hdawn : readFile dawn = .ok dawnRead := by
    rw [dawnRead, hdawnFile]
    exact readFile_line (by decide) (by decide +kernel)
  have hdusk : readFile dusk = .ok duskRead := by
    rw [duskRead, hduskFile]
    exact readFile_line (by decide) (by decide +kernel)
  have hsea : readFile sea = .ok seaRead := by
    rw [seaRead, hseaFile]
    exact readFile_line (by decide) (by decide +kernel)
  have hread : readAll [] [dawn, sea] = .ok [readTo dawn dawnRead, readTo sea seaRead] := by
    rw [readAll_eq_mapM (by decide) (by simp)]
    exact mapM_of_forall₂ (.cons (readWork_readTo hdawn) (.cons (readWork_readTo hsea) .nil))
  have hrearranged : dawnRead.module.Rearranged
      (namespaceOf [readTo dawn dawnRead, readTo sea seaRead]) duskRead.module := by
    refine ⟨rfl, by decide +kernel, fun c => ?_⟩
    cases c <;> decide +kernel
  obtain ⟨rs, hrs, hok⟩ := exists_eq_ok_of_any
    (show ((finish .default (.script default)
      [readTo dawn dawnRead, readTo sea seaRead]).toOption.any fun rs =>
        rs.map FileResult.isOk = [true, true]) = true by
        rw [dawnRead, seaRead, hdawnFile, hseaFile, sourceOf_annotated (by decide),
          sourceOf_annotated (by decide)]
        decide +kernel)
  have hoks : rs.map FileResult.isOk = [true, true] := of_decide_eq_true hok
  have hcompile : compile .default (.script default) [dawn, sea] = .ok rs := by
    rw [compile_eq_finish]
    exact bind_eq_ok_iff.mpr ⟨_, hread, hrs⟩
  obtain ⟨r, others, rfl⟩ : ∃ r others, rs = r :: others := by
    cases rs with
    | nil => simp at hoks
    | cons r others => exact ⟨r, others, rfl⟩
  have hstage : duskRead.source.stage = dawnRead.source.stage := by
    rw [dawnRead, duskRead, hdawnFile, hduskFile, sourceOf_annotated (by decide),
      sourceOf_annotated (by decide)]
    rfl
  have hversion : SameVersion dawnRead duskRead := by
    rw [SameVersion, dawnRead, duskRead, hdawnFile, hduskFile, sourceOf_annotated (by decide),
      sourceOf_annotated (by decide), hasVersion_annotated, hasVersion_annotated]
  have hname : dusk.name = dawn.name := rfl
  have hfirst : (r :: others)[([] : List SourceFile).length]? = some r := rfl
  have hread' : readAll [] ([] ++ dawn :: [sea]) = .ok [readTo dawn dawnRead, readTo sea seaRead] :=
    hread
  have hcompile' : compile .default (.script default) ([] ++ dawn :: [sea]) = .ok (r :: others) :=
    hcompile
  obtain ⟨-, rs', hrs', -, hsame⟩ := compile_rearranged hname hdawn hdusk hstage hversion hread'
    hrearranged hcompile' hfirst (List.cons.inj hoks).1
  exact ⟨hdawn, hdusk, hrearranged, _, rs', hcompile, hoks, hrs',
    hsame fun hvalidate => by simp [Options.default] at hvalidate⟩

/-- Whether a text reads a member of `Light` in front of the declaration of `Light`. -/
def readsAhead : List Char → Bool
  | [] => false
  | c :: rest =>
    !"\x7d Light;".toList.isPrefixOf (c :: rest) &&
      ("Light.".toList.isPrefixOf (c :: rest) || readsAhead rest)

/-- A machine with a validator that wants `Light` to be declared before a member of it is read. -/
def declaring : Machine where
  directory := "/tmp"
  run _ _ files :=
    if files.any fun (_, source) => readsAhead source.toList then
      .ended 2 "'Light' : undeclared identifier" ""
    else .ended 0 "" ""

/-- A file with a buffer in front of a line that reads it, and a pipeline behind that line. -/
def torch : SourceFile :=
  ⟨"Torch", "#sal\nconst struct Light \x7b float Glow; \x7d\n#sal\nfloat g = Light_Glow;\n" ++
    "#sal\npipeline Haze \x7b Blend = true; \x7d\n#sal\n"⟩

/-- The same file with the pipeline in front of the line and the buffer behind. -/
def shade : SourceFile :=
  ⟨"Torch", "#sal\npipeline Haze \x7b Blend = true; \x7d\n#sal\nfloat g = Light_Glow;\n" ++
    "#sal\nconst struct Light \x7b float Glow; \x7d\n#sal\n"⟩

/-- A line between two blocks of one line each. -/
def betweenBlocks (first second : String) : Source.Annotated :=
  ⟨.vertex, ["#sal", first, "#sal", "float g = Light_Glow;", "#sal", second, "#sal"],
    [.opening, .annotated, .closing, .body, .opening, .annotated, .closing]⟩

/-- The source of the first file. -/
def torchSource : Source.Annotated :=
  betweenBlocks "const struct Light \x7b float Glow; \x7d" "pipeline Haze \x7b Blend = true; \x7d"

/-- The source of the second file. -/
def shadeSource : Source.Annotated :=
  betweenBlocks "pipeline Haze \x7b Blend = true; \x7d" "const struct Light \x7b float Glow; \x7d"

/-- The buffer on a line. -/
def lightOn (line : Nat) : Statement :=
  ⟨⟨line, 1⟩, .declare (.buffer "Light" none
    [⟨⟨"float", none, none⟩, "Glow", none, 0, ⟨line, 28⟩⟩])⟩

/-- The pipeline on a line. -/
def hazeOn (line : Nat) : Statement :=
  ⟨⟨line, 1⟩, .declare (.pipeline "Haze" [⟨"Blend", .bool true⟩])⟩

/-- What the two files are read to. -/
def torchRead : ParsedFile := ⟨torchSource, ⟨"Torch", [lightOn 2, hazeOn 6]⟩⟩

@[inherit_doc torchRead]
def shadeRead : ParsedFile := ⟨shadeSource, ⟨"Torch", [hazeOn 2, lightOn 6]⟩⟩

/-- A validator that objects to a text need not take the rearranged file: the declaration of the
buffer moves with the statement, behind the line that reads it. -/
theorem shade_rejected :
    readFile torch = .ok torchRead ∧ readFile shade = .ok shadeRead ∧
    shadeRead.source.stage = torchRead.source.stage ∧ SameVersion torchRead shadeRead ∧
    torchRead.module.Rearranged (namespaceOf [readTo torch torchRead]) shadeRead.module ∧
    ∃ rs rs', compile validating (.default declaring) [torch] = .ok rs ∧
      rs.map FileResult.isOk = [true] ∧
      compile validating (.default declaring) [shade] = .ok rs' ∧
      rs'.map FileResult.isOk = [false] := by
  have htorchSource : (Source.read torch.name torch.text).outcome = .ok torchSource := by
    decide +kernel
  have hshadeSource : (Source.read shade.name shade.text).outcome = .ok shadeSource := by
    decide +kernel
  have htorch : readFile torch = .ok torchRead :=
    readFile_of_phrases htorchSource rfl (by decide +kernel)
  have hshade : readFile shade = .ok shadeRead :=
    readFile_of_phrases hshadeSource rfl (by decide +kernel)
  have hcompile : ∀ {f p}, readFile f = .ok p →
      compile validating (.default declaring) [f] =
        finish validating (.default declaring) [readTo f p] := by
    intro f p hp
    rw [compile_eq_finish, readAll_eq_mapM (by simp) (by simp),
      mapM_of_forall₂ (.cons (readWork_readTo hp) .nil)]
    rfl
  obtain ⟨rs, hrs, hok⟩ := exists_eq_ok_of_any
    (show ((finish validating (.default declaring) [readTo torch torchRead]).toOption.any fun rs =>
      rs.map FileResult.isOk = [true]) = true by decide +kernel)
  obtain ⟨rs', hrs', hok'⟩ := exists_eq_ok_of_any
    (show ((finish validating (.default declaring) [readTo shade shadeRead]).toOption.any fun rs =>
      rs.map FileResult.isOk = [false]) = true by decide +kernel)
  refine ⟨htorch, hshade, rfl, by unfold SameVersion; decide +kernel, ?_, rs, rs',
    (hcompile htorch).trans hrs, of_decide_eq_true hok, (hcompile hshade).trans hrs',
    of_decide_eq_true hok'⟩
  refine ⟨rfl, by decide +kernel, fun c => ?_⟩
  cases c <;> decide +kernel

end Batch

end AnnotatedShader
