import AnnotatedShader.Glsl.Generate
import AnnotatedShader.Proofs.Model.Reindexed
import AnnotatedShader.Reflection

set_option autoImplicit false

/-!
# GLSL and reflection at other indices

Indices order the declarations of a file and leave no other trace.  A model whose entities have
moved to other indices in the same order gives the same text and the same reflection record.

An index is read in one place, where items are sorted.  A map of indices that keeps their order
commutes with that sort, so generation goes through with the indices of one model in place of those
of the other (`generate_reindex`).  This is what makes comment statements harmless: they take up
indices, and nothing else.
-/

namespace AnnotatedShader

namespace Glsl

open AnnotatedShader.Source (Annotated)

def Item.reindex (f : Nat → Nat) (i : Item) : Item := { i with index := f i.index }

theorem declarationsOf_reindex (f : Nat → Nat) (is : List Item) (block : Nat) :
    declarationsOf (is.map (Item.reindex f)) block = declarationsOf is block := by
  rw [declarationsOf, declarationsOf, List.filter_map, List.flatMap_map]
  rfl

variable {f : Nat → Nat} (a : Annotated) (m : Model) (o : Options)

theorem emitStruct_reindex (fuel : Nat) : emitStruct (m.reindex f) fuel = emitStruct m fuel := by
  induction fuel with
  | zero => rfl
  | succ fuel ih =>
    funext e id
    rw [emitStruct, emitStruct, ih]
    rfl

theorem bufferItems_reindex (emitted : List StructId) (bs : List Buffer) :
    bufferItems a (m.reindex f) o emitted (bs.map (Buffer.reindex f)) =
      (bufferItems a m o emitted bs).map (List.map (Item.reindex f)) := by
  induction bs generalizing emitted with
  | nil => rfl
  | cons b rest ih =>
    have hstructs :
        emitStructs (m.reindex f) emitted b.members = emitStructs m emitted b.members := by
      rw [emitStructs, emitStructs, emitStruct_reindex]
      rfl
    have hblock : blockDeclaration o (b.reindex f) = blockDeclaration o b := rfl
    have hmembers : (b.reindex f).members = b.members := rfl
    simp only [List.map_cons, bufferItems, hmembers, hstructs, hblock, ih, map_bind, bind_map]
    rfl

variable (hf : StrictMono f)

include hf

theorem items_reindex :
    items a (m.reindex f) o = (items a m o).map (List.map (Item.reindex f)) := by
  have hsorted : ∀ is : List Item,
      ((is.map (Item.reindex f)).mergeSort fun x y => decide (x.index ≤ y.index)) =
        (is.mergeSort fun x y => decide (x.index ≤ y.index)).map (Item.reindex f) := fun is =>
    (List.map_mergeSort fun _ _ _ _ => decide_eq_decide.mpr hf.le_iff_le.symm).symm
  have hformat : (m.reindex f).vertexFormat.toList.map (formatItem a) =
      (m.vertexFormat.toList.map (formatItem a)).map (Item.reindex f) := by
    show (m.vertexFormat.map _).toList.map _ = _
    cases m.vertexFormat <;> rfl
  have htextures : (m.reindex f).textures.map (textureItem a o) =
      (m.textures.map (textureItem a o)).map (Item.reindex f) := by
    simp only [Model.reindex, List.map_map]
    rfl
  have houtputs : (m.reindex f).outputs.map (outputItem a) =
      (m.outputs.map (outputItem a)).map (Item.reindex f) := by
    simp only [Model.reindex, List.map_map]
    rfl
  have hbuffers := bufferItems_reindex a m o (f := f) [] m.buffers
  simp only [items, hformat, htextures, houtputs, map_bind]
  rw [show (m.reindex f).buffers = m.buffers.map (Buffer.reindex f) from rfl, hbuffers, bind_map]
  refine congrArg _ (funext fun buffers => ?_)
  simp only [← List.map_append, hsorted, Except.map]

/-- The same text is generated at other indices. -/
theorem generate_reindex : generate a (m.reindex f) o = generate a m o := by
  have hrewriting : rewritingOf (m.reindex f) = rewritingOf m := by
    simp only [rewritingOf, Model.reindex, List.filter_map, List.flatMap_map, List.map_map]
    rfl
  have hlines : ∀ (r : Rewriting) (is : List Item),
      segmentLines r (is.map (Item.reindex f)) = segmentLines r is := by
    intro r is
    funext s
    cases s with
    | body ls => rfl
    | block index => rw [segmentLines, segmentLines, declarationsOf_reindex]
  simp only [generate, items_reindex a m o hf, bind_map, hrewriting, hlines]

end Glsl

theorem Reflection.ofModel_reindex (f : Nat → Nat) (m : Model) :
    Reflection.ofModel (m.reindex f) = Reflection.ofModel m := by
  simp only [Reflection.ofModel, Model.reindex, List.map_map, Option.map_map]
  rfl

end AnnotatedShader
