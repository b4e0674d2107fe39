import AnnotatedShader.Proofs.Batch.Pass
import AnnotatedShader.Proofs.Batch.Rearranged
import AnnotatedShader.Proofs.Slot.Alone
import Mathlib

set_option autoImplicit false

/-!
# Batches of one file

A program of one file gives its buffers and textures the slots that the file has given them itself.
So a file that is compiled alone comes out the same, whether it is taken for a program or not.

A model whose slots are assigned is `Numbered`: its pins agree with themselves and every slot is the
least that is left.  Relocation numbers the same requests in the same order, and a numbering is
determined by these conditions, so relocation of one such model changes nothing
(`relocate_numbered`).  A file whose analysis has failed has no model to relocate, and then there is
nothing to be changed either.  In the generated text the option is not read at all
(`generate_programBindings`).
-/

namespace AnnotatedShader

namespace Program

theorem buffersMet_singleton {m : Model} (h : m.Ordered) :
    buffersMet [m] = m.buffers.map Buffer.name := by
  rw [buffersMet, List.flatMap_singleton, List.mergeSort_of_pairwise]
  exact (List.pairwise_map.mp h.buffers).imp fun hlt => by simpa using Nat.le_of_lt hlt

theorem texturesMet_singleton {m : Model} (h : m.Ordered) :
    texturesMet [m] = m.textures.map Texture.name := by
  rw [texturesMet, List.flatMap_singleton, List.mergeSort_of_pairwise]
  exact (List.pairwise_map.mp h.textures).imp fun hlt => by simpa using Nat.le_of_lt hlt

/-- The pins of a model that is numbered are consistent. -/
theorem consistent_of_numbered {m : Model} {bufferSlot textureSlot : String → Int}
    (h : m.Numbered bufferSlot textureSlot) : Consistent (Batch.claims [m]) := by
  have hpin : ∀ p ∈ Batch.claims [m], p.1 ∈ m.buffers.map Buffer.name ∧ bufferSlot p.1 = p.2 := by
    rintro ⟨name, k⟩ hp
    obtain ⟨m', hm', b, hb, rfl, hk⟩ := mem_asked_buffersOf.mp hp
    obtain rfl := List.mem_singleton.mp hm'
    exact ⟨List.mem_map_of_mem hb, h.buffers.pinned b.name k ⟨b, hb, rfl, hk⟩⟩
  intro p hp q hq
  obtain ⟨hpmem, hpslot⟩ := hpin p hp
  obtain ⟨hqmem, hqslot⟩ := hpin q hq
  rw [← hpslot, ← hqslot]
  exact ⟨congrArg bufferSlot, h.buffers.injective _ hpmem _ hqmem⟩

/-- A program of one file whose slots are a numbering of its own changes nothing. -/
theorem relocate_numbered {m : Model} {bufferSlot textureSlot : String → Int}
    (h : m.Numbered bufferSlot textureSlot) (hordered : m.Ordered) : relocate [m] = .ok [m] := by
  obtain ⟨ms, hms⟩ := Batch.relocate_isOk_iff.mpr (consistent_of_numbered h)
  obtain ⟨buffers, textures, htables, rfl⟩ := Batch.exists_tables hms
  obtain ⟨slot, hslot, hnumbering⟩ := slots_numbering htables.buffers
  obtain ⟨slot', hslot', hnumbering'⟩ := slots_numbering htables.textures
  simp only [flatMap_declared_buffersOf, buffersMet_singleton hordered, mem_asked_buffersOf,
    List.mem_singleton, exists_eq_left] at hslot hnumbering
  simp only [flatMap_declared_texturesOf, texturesMet_singleton hordered, not_mem_asked_texturesOf]
    at hslot' hnumbering'
  have hbuffers : ∀ b ∈ m.buffers, slot b.name = b.binding := fun b hb => by
    rw [h.bindings b hb, hnumbering.unique h.buffers (List.mem_map_of_mem hb)]
  have htextures : ∀ t ∈ m.textures, slot' t.name = t.binding := fun t ht => by
    rw [h.units t ht, hnumbering'.unique h.textures (List.mem_map_of_mem ht)]
  have hsame : rebind buffers textures m = m := by
    rw [rebind_eq_renumber (fun b hb => hslot _ (List.mem_map_of_mem hb))
      fun t ht => hslot' _ (List.mem_map_of_mem ht), renumber]
    have hmapb : (m.buffers.map fun b => { b with binding := slot b.name }) = m.buffers := by
      conv_rhs => rw [← List.map_id m.buffers]
      exact List.map_congr_left fun b hb => by rw [hbuffers b hb]; rfl
    have hmapt : (m.textures.map fun t => { t with binding := slot' t.name }) = m.textures := by
      conv_rhs => rw [← List.map_id m.textures]
      exact List.map_congr_left fun t ht => by rw [htextures t ht]; rfl
    rw [hmapb, hmapt]
  rw [hms, List.map_singleton, hsame]

/-- A program of one file changes no slot of the file. -/
theorem relocate_placed {m : Module} {stage : AnnotatedShader.Stage} {ns : Namespace}
    {imports : List ResolvedImport}
    {model placed : Model} (hbuild : Model.build m stage ns imports = .ok model)
    (hplaced : model.assignSlots = .ok placed) : relocate [placed] = .ok [placed] := by
  have hordered := Model.build_ordered hbuild
  obtain ⟨bufferSlot, textureSlot, hnumbered⟩ :=
    Model.assignSlots_numbered (Model.build_names hbuild) hordered hplaced
  exact relocate_numbered hnumbered (hordered.of_unslotted_eq (Model.assignSlots_unslotted hplaced))

end Program

namespace Batch

/-- When a program keeps the models that are left, the work on its files stays as it is. -/
theorem relocate_of_kept {ws : List Work} (h : Program.relocate (models ws) = .ok (models ws)) :
    relocate ws = ws := by
  have hkept : ∀ ws : List Work, replaceModels ws (models ws) = ws := by
    intro ws
    induction ws with
    | nil => rfl
    | cons w rest ih =>
      obtain ⟨name, parsed, model, diagnostics⟩ := w
      cases model with
      | none => exact congrArg (_ :: ·) ih
      | some m => exact congrArg (_ :: ·) ih
  rw [relocate, relocateFrom, h]
  exact hkept ws

/-- The work on one file, with the slots of its own, is all the work on a program of that file. -/
theorem relocate_analysed {ns : Namespace} {f : SourceFile} {w a : Work} (hw : HasBeenRead f w)
    (h : analyseWork ns w = .ok a) : relocate [a] = [a] := by
  apply relocate_of_kept
  cases hw with
  | rejected d =>
    obtain rfl := Except.ok.inj h
    rfl
  | parsed p hread =>
    obtain ⟨outcome, houtcome, h⟩ := bind_eq_ok_iff.mp h
    cases outcome with
    | error d =>
      obtain rfl := Except.ok.inj h
      rfl
    | ok m =>
      obtain rfl := Except.ok.inj h
      have hanalyse := spare_eq_ok_ok_iff.mp houtcome
      simp only [analyse, bind_eq_ok_iff] at hanalyse
      obtain ⟨imports, _, built, hbuild, hplaced⟩ := hanalyse
      exact Program.relocate_placed hbuild hplaced

/-- The work on a batch of one file, with the slots of its own, is all the work on a program of that
file. -/
theorem relocate_analysedAlone {f : SourceFile} {ws as : List Work}
    (hread : readAll [] [f] = .ok ws)
    (has : ws.mapM (analyseWork (namespaceOf ws)) = .ok as) : relocate as = as := by
  obtain ⟨w, _, hw, hnil, rfl⟩ := List.forall₂_cons_left_iff.mp (readAll_spec hread).1
  obtain rfl := List.forall₂_nil_left_iff.mp hnil
  obtain ⟨a, _, ha, hnil, rfl⟩ := List.forall₂_cons_left_iff.mp (forall₂_of_mapM has)
  obtain rfl := List.forall₂_nil_left_iff.mp hnil
  exact relocate_analysed hw ha

/-- A file that is compiled alone is analysed to the same work, whether it is a program or not. -/
theorem analyseAll_singleton (o : Options) (f : SourceFile) :
    analyseAll { o with programBindings := true } [f] =
      analyseAll { o with programBindings := false } [f] := by
  unfold analyseAll
  cases hread : readAll [] [f] with
  | error e => rfl
  | ok ws =>
    change (ws.mapM (analyseWork (namespaceOf ws)) >>= fun as => .ok (relocate as)) =
      (ws.mapM (analyseWork (namespaceOf ws)) >>= .ok)
    cases has : ws.mapM (analyseWork (namespaceOf ws)) with
    | error e => rfl
    | ok as => exact congrArg Except.ok (relocate_analysedAlone hread has)

/-! ## Generation -/

theorem bufferItems_programBindings (a : Source.Annotated) (m : Model) (o : Options) (shared : Bool)
    (declared : List StructId) (bs : List Buffer) :
    Glsl.bufferItems a m { o with programBindings := shared } declared bs =
      Glsl.bufferItems a m o declared bs := by
  induction bs generalizing declared with
  | nil => rfl
  | cons b rest ih =>
    have hblock : Glsl.blockDeclaration { o with programBindings := shared } b =
        Glsl.blockDeclaration o b := rfl
    simp only [Glsl.bufferItems, ih, hblock]

/-- The text for a model does not depend on who shares its slots. -/
theorem generate_programBindings (o : Options) (v : Validator) (w : Work) (shared : Bool) :
    generate { o with programBindings := shared } v w = generate o v w := by
  obtain ⟨name, parsed, model, diagnostics⟩ := w
  cases parsed with
  | none => rfl
  | some p =>
    cases model with
    | none => rfl
    | some m =>
      have hsource : Glsl.generate p.source m { o with programBindings := shared } =
          Glsl.generate p.source m o := by
        simp only [Glsl.generate, Glsl.items, bufferItems_programBindings]
        rfl
      simp only [generate, hsource]

/-- The slots of a file and those of a program agree.  A program of one file changes nothing in a
model that has got its slots, so a file that is compiled alone has the same result, with the same
source and the same reflection record, whether it is taken for a program or not. -/
theorem compile_alone :
    (∀ (m : Module) (stage : Stage) (ns : Namespace) (imports : List ResolvedImport)
        (model placed : Model), Model.build m stage ns imports = .ok model →
      model.assignSlots = .ok placed → Program.relocate [placed] = .ok [placed]) ∧
    ∀ (o : Options) (v : Validator) (f : SourceFile),
      compile { o with programBindings := true } v [f] =
        compile { o with programBindings := false } v [f] := by
  refine ⟨fun m stage ns imports model placed => Program.relocate_placed, fun o v f => ?_⟩
  have hgenerate : generate { o with programBindings := true } v =
      generate { o with programBindings := false } v :=
    funext fun w =>
      (generate_programBindings o v w true).trans (generate_programBindings o v w false).symm
  rw [compile, compile, analyseAll_singleton, hgenerate]

/-- A file that pins the slot between its other buffers, and has two textures. -/
def lensModule : Module :=
  ⟨"Lens",
    [⟨.start, .declare (.buffer "Glass" none [Model.bareField "float" "index" 0])⟩,
     ⟨.start, .declare (.constant ⟨⟨"Sampler", none, none⟩, "Linear", none, 0, .start⟩)⟩,
     ⟨.start, .declare (.constant
       ⟨⟨"Texture2D", some "vec4f", none⟩, "Dust", some (.sampler "Linear"), 0, .start⟩)⟩,
     ⟨.start, .declare (.buffer "Flare" (some (.order 1)) [Model.bareField "vec3f" "tint" 0])⟩,
     ⟨.start, .declare (.buffer "Haze" none [Model.bareField "float" "depth" 0])⟩]⟩

/-- A file with a pinned buffer. -/
def flare : SourceFile := annotated "Flare" "const struct Flare : ORDER_1 \x7b float Glow; \x7d"

theorem compile_alone_lens :
    (∃ model placed, Model.build lensModule .pixel (.ofModules [lensModule]) [] = .ok model ∧
      model.assignSlots = .ok placed ∧
      placed.buffers.map (fun b => (b.name, b.binding)) =
        [("Glass", 0), ("Flare", 1), ("Haze", 2)] ∧
      Program.relocate [placed] = .ok [placed]) ∧
    ∃ rs, rs.map FileResult.isOk = [true] ∧
      compile { Options.default with programBindings := true } (.script default) [flare] = .ok rs ∧
      compile { Options.default with programBindings := false }
        (.script default) [flare] = .ok rs := by
  refine ⟨?_, ?_⟩
  · obtain ⟨placed, hplaced, hslots⟩ := exists_eq_ok_of_any
      (show ((Model.build lensModule .pixel (.ofModules [lensModule]) [] >>= fun built =>
        built.assignSlots).toOption.any fun placed => placed.buffers.map (fun b =>
          (b.name, b.binding)) = [("Glass", 0), ("Flare", 1), ("Haze", 2)]) = true by cbv)
    obtain ⟨model, hmodel, hplaced⟩ := bind_eq_ok_iff.mp hplaced
    exact ⟨model, placed, hmodel, hplaced, of_decide_eq_true hslots,
      compile_alone.1 lensModule .pixel (.ofModules [lensModule]) [] model placed hmodel hplaced⟩
  · obtain ⟨rs, hrs, hoks⟩ := exists_eq_ok_of_any
      (show ((compile { Options.default with programBindings := true } (.script default)
        [flare]).toOption.any fun rs => rs.map FileResult.isOk = [true]) = true by
        rw [show [flare] = [(_, _)].map annotatedFile from rfl,
          compile_annotated (by decide) (by decide)]
        decide +kernel)
    exact ⟨rs, of_decide_eq_true hoks, hrs,
      (compile_alone.2 .default (.script default) flare).symm.trans hrs⟩

end Batch

end AnnotatedShader
