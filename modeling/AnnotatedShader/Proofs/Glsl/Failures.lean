import AnnotatedShader.Proofs.Except
import AnnotatedShader.Proofs.Glsl.Origin

set_option autoImplicit false

/-!
# Failures of generation

The text of a model that can be emitted is generated, unless an integer that the text states has
more digits than can be written.  `States` lists these integers: slots and locations, offsets, sizes
of arrays, and the number of the version where the source states none.  Members are declared with
offsets or without depending on the version, so there has to be one if there are any
(`Ungenerated`).

A declaration is written down if its types have names and its integers are short enough
(`Declaration.lines_fails`), and the declarations of a model are such (`MadeOf.within`), because
each of them is made of something in the model.  `generate_fails` puts the two together, and is what
the failures of a batch are told by.
-/

namespace AnnotatedShader

namespace Glsl

/-- The integers that the text for a source and its model states: those of the declarations, and the
number of the version where the source states none. -/
inductive States (a : Source.Annotated) (o : Options) (m : Model) : Int → Prop
  | version (n : Int) (hplain : hasVersion a = false) (hversion : o.glslVersion = some n) :
    States a o m n
  | input (vf : VertexFormat) (i : VertexInput) (hvf : m.vertexFormat = some vf)
    (hi : i ∈ vf.inputs) : States a o m i.location
  | buffer (b : Buffer) (hb : b ∈ m.buffers) (hexplicit : o.explicitBindings = true) :
    States a o m b.binding
  | offset (b : Buffer) (mem : Member) (hb : b ∈ m.buffers) (hmem : mem ∈ b.members)
    (hstated : o.memberOffsets? = some true) : States a o m mem.offset
  | size (mem : Member) (text : String) (element : ShaderType) (size : Int)
    (hmem : (∃ b ∈ m.buffers, mem ∈ b.members) ∨ ∃ d ∈ m.structs, mem ∈ d.members)
    (htype : mem.type = .array text element size) : States a o m size
  | texture (t : Texture) (ht : t ∈ m.textures) (hexplicit : o.explicitBindings = true) :
    States a o m t.binding
  | output (out : Output) (hout : out ∈ m.outputs) : States a o m out.location

/-- One of several integers has more digits than are written. -/
def Unwritten (S : Int → Prop) (e : Failure) : Prop :=
  e = .numeralUnwritten ∧ ∃ n, S n ∧ Number.isWritable n = false

/-- What generation fails with: an integer that is too long, or members to declare for a version
that is not given. -/
def Ungenerated (a : Source.Annotated) (o : Options) (m : Model) (e : Failure) : Prop :=
  Unwritten (States a o m) e ∨ e = .versionMissing ∧ o.glslVersion = none

/-! ## Writing -/

/-- A member whose type has a name and whose integers are among some. -/
structure MemberDeclaration.Within (S : Int → Prop) (m : MemberDeclaration) : Prop where
  named : m.type.HasGlslName
  offset : ∀ offset, m.offset = some offset → S offset
  size : ∀ text element size, m.type = .array text element size → S size

/-- A declaration whose types have names and whose integers are among some. -/
def Declaration.Within (S : Int → Prop) : Declaration → Prop
  | .input location type _ | .output location type _ =>
    S location ∧ type.HasGlslName
  | .struct _ members => ∀ m ∈ members, m.Within S
  | .block binding _ members _ =>
    (∀ slot, binding = some slot → S slot) ∧ ∀ m ∈ members, m.Within S
  | .texture binding type _ =>
    (∀ slot, binding = some slot → S slot) ∧ type.HasGlslName
  | .undefined _ => False

section Writing

variable {S : Int → Prop}

theorem writeInt_fails {n : Int} (h : S n) : FailsOnly (Unwritten S) (writeInt n) := by
  unfold writeInt
  split
  · exact failsOnly_ok _ _
  · rename_i hlong
    exact failsOnly_error ⟨rfl, n, h, Bool.eq_false_iff.mpr hlong⟩

theorem typeName_fails {t : ShaderType} (h : t.HasGlslName) :
    FailsOnly (Unwritten S) (typeName t) := by
  obtain ⟨name, hname⟩ := h
  rw [typeName, hname]
  exact failsOnly_ok _ _

theorem plainMember_fails {m : MemberDeclaration} (h : m.Within S) :
    FailsOnly (Unwritten S) (plainMember m) := by
  refine (typeName_fails h.named).bind fun _ _ => ?_
  split
  · rename_i text element size htype
    exact (writeInt_fails (h.size text element size htype)).bind fun _ _ => failsOnly_ok _ _
  · exact failsOnly_ok _ _

theorem memberLine_fails {m : MemberDeclaration} (h : m.Within S) :
    FailsOnly (Unwritten S) (memberLine m) := by
  unfold memberLine
  split
  · exact (plainMember_fails h).bind fun _ _ => failsOnly_ok _ _
  · rename_i offset hoffset
    exact (writeInt_fails (h.offset offset hoffset)).bind fun _ _ =>
      (plainMember_fails h).bind fun _ _ => failsOnly_ok _ _

/-- A declaration is written down unless one of its integers is too long. -/
theorem Declaration.lines_fails {d : Declaration} (h : d.Within S) :
    FailsOnly (Unwritten S) d.lines := by
  cases d with
  | input location type name | output location type name =>
    exact (writeInt_fails h.1).bind fun _ _ => (typeName_fails h.2).bind fun _ _ =>
      failsOnly_ok _ _
  | struct id members =>
    exact (typeName_fails ⟨_, rfl⟩).bind fun _ _ =>
      (failsOnly_mapM fun m hm => memberLine_fails (h m hm)).bind fun _ _ => failsOnly_ok _ _
  | block binding name members instanceName =>
    have hmembers : FailsOnly (Unwritten S) (members.mapM memberLine) :=
      failsOnly_mapM fun m hm => memberLine_fails (h.2 m hm)
    cases binding with
    | none => exact hmembers.bind fun _ _ => failsOnly_ok _ _
    | some slot =>
      refine (writeInt_fails (h.1 slot rfl)).bind fun _ _ => (failsOnly_ok _ _).bind fun _ _ => ?_
      exact hmembers.bind fun _ _ => failsOnly_ok _ _
  | texture binding type name =>
    cases binding with
    | none => exact (typeName_fails h.2).bind fun _ _ => failsOnly_ok _ _
    | some slot =>
      exact (writeInt_fails (h.1 slot rfl)).bind fun _ _ => (typeName_fails h.2).bind fun _ _ =>
        failsOnly_ok _ _
  | undefined id => exact h.elim

end Writing

/-! ## Declarations of a model -/

section Models

variable (a : Source.Annotated) {o : Options} {m : Model} (hm : m.Emittable)

theorem bindingFor_within {S : Int → Prop} {slot : Int} (h : o.explicitBindings = true → S slot) :
    ∀ stated, bindingFor o slot = some stated → S stated := by
  intro stated hstated
  unfold bindingFor at hstated
  split at hstated
  · rename_i hexplicit
    rw [← Option.some.inj hstated]
    exact h hexplicit
  · contradiction

/-- The version is written unless its number is too long. -/
theorem heading_fails : FailsOnly (Unwritten (States a o m)) (heading a o) := by
  unfold heading
  split
  · exact failsOnly_ok _ _
  · rename_i hplain
    refine FailsOnly.bind (FailsOnly.bind ?_ fun _ _ => failsOnly_ok _ _) fun _ _ =>
      failsOnly_ok _ _
    unfold versionText
    split
    · rename_i n hversion
      exact writeInt_fails (.version n (Bool.eq_false_iff.mpr hplain) hversion)
    · exact failsOnly_ok _ _

include hm

/-- The declarations of a model that can be emitted have types with names, and state the integers of
the model. -/
theorem MadeOf.within {d : Declaration} (h : MadeOf o m d) : d.Within (States a o m) := by
  cases h with
  | input vf i hvf hi => exact ⟨.input vf i hvf hi, hm.inputs vf hvf i hi⟩
  | struct d hd =>
    refine List.forall_mem_map.mpr fun mem hmem =>
      ⟨((hm.structs d hd).1 mem hmem).named, by simp, ?_⟩
    exact fun text element size htype => .size mem text element size (.inr ⟨d, hd, hmem⟩) htype
  | block b members hb hmembers =>
    refine ⟨bindingFor_within fun hexplicit => .buffer b hb hexplicit, ?_⟩
    intro declared hdeclared
    obtain ⟨mem, hmem, heq⟩ := exists_left_of_forall₂ hmembers hdeclared
    unfold blockMember at heq
    split at heq
    · rename_i stated hstated
      obtain rfl := Except.ok.inj heq
      refine ⟨(hm.buffers b hb mem hmem).named, ?_, ?_⟩
      · intro offset hoffset
        split at hoffset
        · rename_i hyes
          rw [← Option.some.inj hoffset]
          exact .offset b mem hb hmem (by rw [hstated, hyes])
        · contradiction
      · exact fun text element size htype => .size mem text element size (.inl ⟨b, hb, hmem⟩) htype
    · contradiction
  | texture t ht => exact
    ⟨bindingFor_within fun hexplicit => .texture t ht hexplicit, hm.textures t ht⟩
  | output out hout => exact ⟨.output out hout, hm.outputs out hout⟩

omit hm in
/-- Making the items of a model fails only for want of a version. -/
theorem items_fails : FailsOnly (Ungenerated a o m) (items a m o) := by
  have hmember : ∀ mem, FailsOnly (Ungenerated a o m) (blockMember o mem) := by
    intro mem
    unfold blockMember
    split
    · exact failsOnly_ok _ _
    · rename_i hnone
      exact failsOnly_error (.inr ⟨rfl, Option.map_eq_none_iff.mp hnone⟩)
  have hbuffers : ∀ emitted bs, FailsOnly (Ungenerated a o m) (bufferItems a m o emitted bs) := by
    intro emitted bs
    induction bs generalizing emitted with
    | nil => exact failsOnly_ok _ _
    | cons b rest ih =>
      unfold bufferItems
      refine FailsOnly.bind ?_ fun _ _ => (ih _).bind fun _ _ => failsOnly_ok _ _
      exact (failsOnly_mapM fun mem _ => hmember mem).bind fun _ _ => failsOnly_ok _ _
  exact (hbuffers [] m.buffers).bind fun _ _ => failsOnly_ok _ _

/-- The text of a model that can be emitted is generated, whatever its source, unless an integer
that it states is too long or there is no version to declare members for. -/
theorem generate_fails : FailsOnly (Ungenerated a o m) (generate a m o) := by
  refine (items_fails a).bind fun is his => FailsOnly.bind ?_ fun _ _ =>
    ((heading_fails a).imp fun _ he => .inl he).bind fun _ _ => failsOnly_ok _ _
  refine failsOnly_mapM fun segment _ => ?_
  cases segment with
  | body ls => exact failsOnly_ok _ _
  | block index =>
    refine FailsOnly.bind (failsOnly_mapM fun d hd => ?_) fun _ _ => failsOnly_ok _ _
    obtain ⟨item, hitem, hd⟩ := List.mem_flatMap.mp hd
    have hmade := items_madeOf hm his item (List.mem_filter.mp hitem).1 d hd
    exact (Declaration.lines_fails (hmade.within a hm)).imp fun _ he => .inl he

end Models

end Glsl

end AnnotatedShader
