import AnnotatedShader.Proofs.Glsl.Placement
import AnnotatedShader.Proofs.Model.Emittable

set_option autoImplicit false

/-!
# What declarations are made of

Every declaration of a model that can be emitted is made of one of its entities, of an input of its
vertex format, or of a struct that it defines.  What is known of the model is so known of each
declaration, however far it was brought forward for its uses.

`MadeOf` has one case for each kind of declaration, with the part of the model that it is made of.
The recursion that emits struct types keeps it (`emitStruct_madeOf`), because the structs of a model
that can be emitted contain only others of its structs.  The theorems on failures, on marks in texts
and on struct types use `items_madeOf` and look at no item themselves.
-/

namespace AnnotatedShader.Glsl

/-- What a declaration of a model is made of. -/
inductive MadeOf (o : Options) (m : Model) : Declaration → Prop
  | input (vf : VertexFormat) (i : VertexInput) (hvf : m.vertexFormat = some vf)
    (hi : i ∈ vf.inputs) : MadeOf o m (.input i.location i.type (vf.name ++ "_" ++ i.name))
  | struct (d : StructDef) (hd : d ∈ m.structs) :
    MadeOf o m (.struct d.id (structMembers d.members))
  | block (b : Buffer) (members : List MemberDeclaration) (hb : b ∈ m.buffers)
    (hmembers : List.Forall₂ (fun mem d => blockMember o mem = .ok d) b.members members) :
    MadeOf o m (.block (bindingFor o b.binding) b.name members (instanceName? b))
  | texture (t : Texture) (ht : t ∈ m.textures) :
    MadeOf o m (.texture (bindingFor o t.binding) t.type t.name)
  | output (out : Output) (hout : out ∈ m.outputs) :
    MadeOf o m (.output out.location out.type out.name)

/-- All declarations so far are made of a model. -/
def Emission.MadeOf (o : Options) (m : Model) (e : Emission) : Prop :=
  ∀ d ∈ e.declarations, Glsl.MadeOf o m d

variable {o : Options} {m : Model} (hm : m.Emittable)

include hm

/-- The structs that a defined one depends on are defined, so none is missing. -/
theorem emitStruct_madeOf {fuel : Nat} {e : Emission} {id : StructId} (he : e.MadeOf o m)
    (hid : id ∈ m.structs.map StructDef.id) : (emitStruct m fuel e id).MadeOf o m := by
  induction fuel generalizing e id with
  | zero => exact he
  | succ fuel ih =>
    unfold emitStruct
    split
    · exact he
    · split
      · rename_i hmissing
        obtain ⟨d, hd, rfl⟩ := List.mem_map.mp hid
        have hother := List.find?_eq_none.mp hmissing d hd
        simp at hother
      · rename_i d hfound
        have hd : d ∈ m.structs := List.mem_of_find?_eq_some hfound
        obtain rfl : d.id = id := by simpa using List.find?_some hfound
        have hdependencies : Emission.MadeOf o m (d.dependencies.foldl (emitStruct m fuel)
            ⟨e.declarations, d.id :: e.emitted⟩) :=
          List.foldlRecOn d.dependencies (emitStruct m fuel) he
            fun e he id hid => ih he ((hm.structs d hd).2 id hid)
        exact List.forall_mem_append.mpr
          ⟨hdependencies, List.forall_mem_singleton.mpr (.struct d hd)⟩

theorem emitStructs_madeOf {emitted : List StructId} {ms : List Member}
    (hms : ∀ mem ∈ ms, Model.Declarable m.structs mem.type) :
    (emitStructs m emitted ms).MadeOf o m := by
  refine List.foldlRecOn _ _ (motive := Emission.MadeOf o m) (fun d hd => by simp at hd) ?_
  intro e he id hid
  obtain ⟨mem, hmem, hstruct⟩ := List.mem_filterMap.mp hid
  exact emitStruct_madeOf hm he ((hms mem hmem).defined id hstruct)

theorem Declares.madeOf {e : Entity} {ds : List Declaration} (h : Declares m o e ds)
    (he : e ∈ m.entities) : ∀ d ∈ ds, MadeOf o m d := by
  simp only [Model.entities, List.mem_append, List.mem_map, Option.mem_toList] at he
  cases h with
  | format vf =>
    refine List.forall_mem_map.mpr fun i hi => .input vf i ?_ hi
    simpa using he
  | buffer before after b block hbuffers hblock =>
    have hb : b ∈ m.buffers := by simp [hbuffers]
    rw [blockDeclaration, bind_eq_ok_iff] at hblock
    obtain ⟨members, hmembers, hblock⟩ := hblock
    obtain rfl := Except.ok.inj hblock
    exact List.forall_mem_append.mpr ⟨emitStructs_madeOf hm (hm.buffers b hb),
      List.forall_mem_singleton.mpr (.block b members hb (forall₂_of_mapM hmembers))⟩
  | texture t => exact List.forall_mem_singleton.mpr (.texture t (by simpa using he))
  | output out => exact List.forall_mem_singleton.mpr (.output out (by simpa using he))

/-- Every declaration of the items of a model is made of the model. -/
theorem items_madeOf {a : Source.Annotated} {is : List Item} (h : items a m o = .ok is) :
    ∀ item ∈ is, ∀ d ∈ item.declarations, MadeOf o m d := by
  intro item hitem
  obtain ⟨es, hperm, hes, _⟩ := items_itemOf h
  obtain ⟨e, he, hof⟩ := exists_left_of_forall₂ hes hitem
  exact hof.declares.madeOf hm (hperm.mem_iff.mp he)

end AnnotatedShader.Glsl
