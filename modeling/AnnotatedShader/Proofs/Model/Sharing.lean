import AnnotatedShader.Proofs.Model.Agreement
import AnnotatedShader.Proofs.Model.Members
import AnnotatedShader.Reflection

set_option autoImplicit false

/-!
# Buffers with the same members in two files

The files of a batch lay a buffer out in the same way when they give it the same members.  The
layout depends on the names and types of the members and on which of them are packed, and on no
place in a file.  Whether the members stand in a struct or are the constants of a file is all the
same.

`Buffer.SameMembers` compares what is declared: names, types and packing.  `LaidOut` says that a
buffer is laid out by its members over the structs of its model, which holds of both kinds of
buffers (`Accepted.laidOut`), and two such buffers agree, because the structs that their members
refer to agree between the files of a batch (`LaidOut.agree`).
-/

namespace AnnotatedShader

/-- What the layout and the record of a buffer take from a member: its name, its type as it is known
and as it is written, and whether it is packed.  A struct is known by the file that declares it. -/
def Member.signature (m : Member) : String × ShaderType × String × Bool :=
  (m.name, m.type, m.typeText, m.attr == some .pack)

/-- Two buffers have the same members in the same order. -/
def Buffer.SameMembers (b b' : Buffer) : Prop :=
  b.members.map Member.signature = b'.members.map Member.signature

namespace Model

open AnnotatedShader.Layout

/-! ## Members and their places -/

theorem signature_placeMembers {raw : List Member} {l : Layout}
    (h : raw.length = l.places.length) :
    (placeMembers raw l).map Member.signature = raw.map Member.signature := by
  have hpart : (placeMembers raw l).map Member.signature <+: raw.map Member.signature := by
    rw [placeMembers]
    apply map_zipWith_isPrefix
    exact fun _ _ => rfl
  refine hpart.eq_of_length ?_
  rw [List.length_map, List.length_map, length_placeMembers h]

theorem map_fieldOf (ms : List Member) :
    ms.map fieldOf = (ms.map Member.signature).map fun s => ⟨s.1, s.2.1, s.2.2.2⟩ := by
  rw [List.map_map]
  rfl

theorem map_memberRecord_placeMembers (raw : List Member) (l : Layout) :
    (placeMembers raw l).map Reflection.memberRecord =
      List.zipWith (fun s place => ⟨s.1, s.2.2.1, place.offset, place.size, s.2.1.arraySize⟩)
        (raw.map Member.signature) l.places := by
  rw [placeMembers, List.map_zipWith, List.zipWith_map_left]
  rfl

/-! ## Buffers of a model -/

/-- A buffer is laid out over the structs of its model. -/
structure LaidOut (structs : List StructDef) (b : Buffer) (raw : List Member) : Prop where
  layout : Std140.ofFields (layoutsOf structs) (raw.map fieldOf) = .ok b.layout
  length : raw.length = b.layout.places.length
  members : b.members = placeMembers raw b.layout

theorem BufferOf.laidOut {ns : Namespace} {structs : List StructDef} {i : Introduction} {b : Buffer}
    (h : BufferOf ns structs i b) (hs : Std140.SoundStructs (layoutsOf structs)) :
    ∃ raw, LaidOut structs b raw := by
  obtain ⟨_, _, _, _, raw, _, _, _, hbody, heq⟩ := h.source
  exact ⟨raw, hbody.layout, by simpa using (hbody.filled hs).placed.length_eq, by rw [heq]⟩

/-- The constants of a root buffer are not packed. -/
theorem RootBuffer.fields_eq {roots : List RootConstant} (hroots : ∀ r ∈ roots, ∃ i, RootOf i r) :
    (roots.map RootConstant.member).map fieldOf =
      (roots.map RootConstant.member).map fun m => ⟨m.name, m.type, false⟩ := by
  refine List.map_congr_left fun m hm => ?_
  obtain ⟨r, hr, rfl⟩ := List.mem_map.mp hm
  obtain ⟨i, hi⟩ := hroots r hr
  obtain ⟨p, _, _, _, _, _, _, _, hattr, _, rfl⟩ := hi.source
  rw [fieldOf]
  rcases hattr with hnone | ⟨slot, horder⟩
  · simp only [hnone]
    rfl
  · simp only [horder]
    rfl

theorem RootBuffer.laidOut {file : String} {roots : List RootConstant} {b : Buffer}
    (h : RootBuffer file roots b) (hroots : ∀ r ∈ roots, ∃ i, RootOf i r)
    (structs : List StructDef) : LaidOut structs b (roots.map RootConstant.member) where
  layout := by
    rw [RootBuffer.fields_eq hroots]
    exact Std140.ofFields_extends (fun _ _ hl => by simp at hl) h.layout
  length := by simpa using (h.filled hroots).placed.length_eq
  members := by
    obtain ⟨_, _, _, heq⟩ := h.eq
    rw [heq]

theorem Accepted.laidOut {ns : Namespace} {Known : DeclaredStruct → Prop} {m : Module}
    {imports : List ResolvedImport} {model : Model} (h : Accepted ns Known m imports model)
    {b : Buffer} (hb : b ∈ model.buffers) : ∃ raw, LaidOut model.structs b raw := by
  rcases h.buffers b hb with ⟨i, _, hi⟩ | ⟨roots, hroot, _, hroots⟩
  · exact hi.laidOut h.structs.sound
  · refine ⟨_, hroot.laidOut (fun r hr => ?_) model.structs⟩
    obtain ⟨i, _, hi⟩ := hroots r hr
    exact ⟨i, hi⟩

/-- Buffers with the same members are laid out and recorded alike, over structs that are defined
alike. -/
theorem LaidOut.agree {structs structs' : List StructDef} {b b' : Buffer} {raw raw' : List Member}
    (h : LaidOut structs b raw) (h' : LaidOut structs' b' raw')
    (hstructs : Std140.Agree (layoutsOf structs) (layoutsOf structs')) (hsame : b.SameMembers b') :
    b.members.map Reflection.memberRecord = b'.members.map Reflection.memberRecord ∧
      b.layout = b'.layout := by
  have hraw : raw.map Member.signature = raw'.map Member.signature := by
    rw [← signature_placeMembers h.length, ← signature_placeMembers h'.length, ← h.members,
      ← h'.members]
    exact hsame
  have hlayout : b.layout = b'.layout := by
    have hl := h.layout
    rw [map_fieldOf, hraw, ← map_fieldOf] at hl
    exact Std140.ofFields_agree hstructs hl h'.layout
  refine ⟨?_, hlayout⟩
  rw [h.members, h'.members, map_memberRecord_placeMembers, map_memberRecord_placeMembers, hraw,
    hlayout]

/-! ## Files of one batch -/

section Batch

variable {ms : List Module} {m₁ m₂ : Module} {model₁ model₂ : Model} {b₁ b₂ : Buffer}
  (h₁ : BuiltIn ms m₁ model₁) (h₂ : BuiltIn ms m₂ model₂) (hb₁ : b₁ ∈ model₁.buffers)
  (hb₂ : b₂ ∈ model₂.buffers)

include h₁ h₂ hb₁ hb₂

theorem BuiltIn.agree_of_sameMembers (h : b₁.SameMembers b₂) :
    b₁.members.map Reflection.memberRecord = b₂.members.map Reflection.memberRecord ∧
      b₁.layout = b₂.layout := by
  obtain ⟨_, _, _, hs₁⟩ := h₁.sourced
  obtain ⟨_, _, _, hs₂⟩ := h₂.sourced
  obtain ⟨_, hlaid₁⟩ := hs₁.accepted.laidOut hb₁
  obtain ⟨_, hlaid₂⟩ := hs₂.accepted.laidOut hb₂
  exact hlaid₁.agree hlaid₂ (hs₁.accepted.structs.sameDefs hs₂.accepted.structs).agree h

/-- Files that bring one declaration give its buffer the same members. -/
theorem BuiltIn.sameMembers_of_brings {sym : Symbol}
    (hexported : (Namespace.ofModules ms).lookup sym.file sym.name = some sym)
    (hbrings₁ : m₁.Brings sym b₁.name) (hbrings₂ : m₂.Brings sym b₂.name) :
    b₁.SameMembers b₂ := by
  obtain ⟨_, _, _, hs₁⟩ := h₁.sourced
  obtain ⟨_, _, _, hs₂⟩ := h₂.sourced
  obtain ⟨i₁, hsymbol₁, hbuffer₁⟩ := hs₁.bufferOf hexported hbrings₁ hb₁ rfl
  obtain ⟨i₂, hsymbol₂, hbuffer₂⟩ := hs₂.bufferOf hexported hbrings₂ hb₂ rfl
  have hsame := hs₁.accepted.structs.sameDefs hs₂.accepted.structs
  rw [Buffer.SameMembers,
    (hbuffer₁.agree hsame (hsymbol₁.trans hsymbol₂.symm) hbuffer₂).1]

end Batch

end Model

end AnnotatedShader
