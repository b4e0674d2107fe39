import AnnotatedShader.Proofs.Glsl.Interface
import AnnotatedShader.Proofs.Model.Unsited
import AnnotatedShader.Proofs.Namespace.Rearranged

set_option autoImplicit false

/-!
# GLSL and reflection of rearranged files

The statements that entities belong to order the declarations of a text and leave no other trace.  A
model whose entities are rearranged declares the same, and it has the same reflection record.  So if
a text is generated for one of them, one is generated for the other, whatever its source is, as long
as the version is stated by both sources or by neither.

Positions are taken out of the models first: without them, two models whose series are in the same
order are equal but for the order of their struct definitions.  That order does not matter, because
definitions are looked up by their identities (`emitStruct_of_perm`).  What is left is that both
have the same declarations, up to order (`items_rearranged`), and that a declaration that could be
written once can be written again (`generate_rearranged`).
-/

namespace AnnotatedShader

theorem Reflection.ofModel_unsited (m : Model) : Reflection.ofModel m.unsited = .ofModel m := by
  simp only [Reflection.ofModel, Model.unsited, List.map_map, Option.map_map]
  rfl

theorem Model.Rearranged.ofModel {m m' : Model} (h : m.Rearranged m') :
    Reflection.ofModel m' = .ofModel m := by
  rw [← Reflection.ofModel_unsited m', h.unsited, Reflection.ofModel_unsited]

namespace Glsl

open AnnotatedShader.Source (Annotated)

/-! ## Declarations without sites -/

theorem inputDeclarations_unsited (m : Model) :
    inputDeclarations m.unsited = inputDeclarations m := by
  rw [inputDeclarations, inputDeclarations, Model.unsited]
  cases m.vertexFormat <;> rfl

theorem textureDeclarations_unsited (o : Options) (m : Model) :
    textureDeclarations o m.unsited = textureDeclarations o m := by
  rw [textureDeclarations, textureDeclarations, Model.unsited, List.map_map]
  rfl

theorem outputDeclarations_unsited (m : Model) :
    outputDeclarations m.unsited = outputDeclarations m := by
  rw [outputDeclarations, outputDeclarations, Model.unsited, List.map_map]
  rfl

/-- Structs are declared alike if they are defined alike, in whatever order. -/
theorem emitStruct_of_perm {m m' : Model} (h : m'.structs.Perm m.structs)
    (hids : (m.structs.map StructDef.id).Nodup) (fuel : Nat) :
    emitStruct m' fuel = emitStruct m fuel := by
  induction fuel with
  | zero => rfl
  | succ fuel ih =>
    funext e id
    rw [emitStruct, emitStruct, ih, Model.struct?, Model.struct?, find?_key_of_perm h hids]

theorem emitStructs_of_perm {m m' : Model} (h : m'.structs.Perm m.structs)
    (hids : (m.structs.map StructDef.id).Nodup) (emitted : List StructId) (ms : List Member) :
    emitStructs m' emitted ms = emitStructs m emitted ms := by
  rw [emitStructs, emitStructs, emitStruct_of_perm h hids, h.length_eq]

/-- The declarations of buffers do not depend on their sites. -/
theorem bufferItems_unsited {m m' : Model} (h : m'.structs.Perm m.structs)
    (hids : (m.structs.map StructDef.id).Nodup) (a a' : Annotated) (o : Options)
    (emitted : List StructId) (bs : List Buffer) :
    (bufferItems a' m' o emitted (bs.map Buffer.unsited)).map (List.map Item.declarations) =
      (bufferItems a m o emitted bs).map (List.map Item.declarations) := by
  induction bs generalizing emitted with
  | nil => rfl
  | cons b rest ih =>
    have hmembers : b.unsited.members = b.members := rfl
    have hblock : blockDeclaration o b.unsited = blockDeclaration o b := rfl
    rw [List.map_cons, bufferItems, bufferItems, hmembers, hblock, emitStructs_of_perm h hids]
    cases blockDeclaration o b with
    | error e => rfl
    | ok block =>
      have hrest := ih (emitStructs m emitted b.members).emitted
      dsimp only [bind, Except.bind]
      cases hother : bufferItems a m o (emitStructs m emitted b.members).emitted rest <;>
        cases hother' : bufferItems a' m' o (emitStructs m emitted b.members).emitted
          (rest.map Buffer.unsited) <;> simp_all [Except.map]

variable {m m' : Model} (h : m.Rearranged m') (hids : (m.structs.map StructDef.id).Nodup)

include h hids

theorem bufferItems_rearranged (a a' : Annotated) (o : Options) (emitted : List StructId) :
    (bufferItems a' m' o emitted m'.buffers).map (List.map Item.declarations) =
      (bufferItems a m o emitted m.buffers).map (List.map Item.declarations) := by
  have hbuffers : m'.buffers.map Buffer.unsited = m.buffers.map Buffer.unsited :=
    congrArg Model.buffers h.unsited
  have hids' : (m'.structs.map StructDef.id).Nodup := (h.structs.map _).nodup_iff.mpr hids
  rw [← bufferItems_unsited (List.Perm.refl _) hids' a' a' o emitted m'.buffers, hbuffers,
    bufferItems_unsited h.structs hids a a']

/-- The items of a rearranged model hold the same declarations. -/
theorem items_rearranged {a : Annotated} {o : Options} {is : List Item}
    (hitems : items a m o = .ok is)
    (a' : Annotated) : ∃ is', items a' m' o = .ok is' ∧
      (is'.flatMap Item.declarations).Perm (is.flatMap Item.declarations) := by
  rw [items, bind_eq_ok_iff] at hitems
  obtain ⟨buffers, hbuffers, heq⟩ := hitems
  obtain rfl := Except.ok.inj heq
  have hsame := bufferItems_rearranged h hids a a' o []
  rw [hbuffers] at hsame
  obtain ⟨buffers', hbuffers', hdeclarations⟩ := map_eq_ok_iff.mp hsame
  refine ⟨_, by rw [items, hbuffers']; rfl, ?_⟩
  refine ((List.mergeSort_perm _ _).flatMap_right _).trans
    (List.Perm.trans (List.Perm.of_eq ?_) ((List.mergeSort_perm _ _).flatMap_right _).symm)
  simp only [List.flatMap_append, declarations_formatItem, declarations_textureItem,
    declarations_outputItem]
  rw [← inputDeclarations_unsited m', ← textureDeclarations_unsited o m',
    ← outputDeclarations_unsited m', h.unsited, inputDeclarations_unsited,
    textureDeclarations_unsited, outputDeclarations_unsited, List.flatMap_def, hdeclarations,
    ← List.flatMap_def]

/-- If a text is generated for a model, one is generated for a rearranged model, as long as the
other source too states the version where the first one does. -/
theorem generate_rearranged {a : Annotated} {o : Options} {text : String}
    (hgenerate : generate a m o = .ok text) (hroles : a.roles = Source.roles a.lines)
    (hbare : Source.openings a = 0 → Bare m) {a' : Annotated}
    (hversion : hasVersion a' = hasVersion a) : ∃ text', generate a' m' o = .ok text' := by
  obtain ⟨is, his, hwritten⟩ := generate_written hgenerate
  obtain ⟨is', his', hperm⟩ := items_rearranged h hids his a'
  have hlines : ∀ index, ∀ d ∈ declarationsOf is' index, ∃ ls, d.lines = .ok ls := by
    intro index d hd
    obtain ⟨item, hitem, hd⟩ := List.mem_flatMap.mp hd
    have hmem : d ∈ is'.flatMap Item.declarations :=
      List.mem_flatMap.mpr ⟨item, (List.mem_filter.mp hitem).1, hd⟩
    obtain ⟨ls, hls, _⟩ :=
      hwritten.hasLines ((emitted_perm his hroles hbare).mem_iff.mpr (hperm.mem_iff.mp hmem))
    exact ⟨ls, hls⟩
  have hsegments : ∃ parts, (segments a').mapM (segmentLines (rewritingOf m') is') = .ok parts := by
    rw [exists_mapM_eq_ok_iff]
    intro segment _
    cases segment with
    | body ls => exact ⟨_, rfl⟩
    | block index =>
      obtain ⟨parts, hparts⟩ := exists_mapM_eq_ok_iff.mpr (hlines index)
      exact ⟨parts.flatten, by rw [segmentLines, hparts]; rfl⟩
  obtain ⟨parts, hparts⟩ := hsegments
  obtain ⟨front, _, hfront, _⟩ := hwritten
  have hfront' : heading a' o = .ok front := by
    rw [← hfront, heading, heading, hversion]
  simp only [generate, bind_eq_ok_iff]
  exact ⟨_, is', his', parts, hparts, front, hfront', rfl⟩

end Glsl

end AnnotatedShader
