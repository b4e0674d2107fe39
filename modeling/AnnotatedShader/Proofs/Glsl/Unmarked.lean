import AnnotatedShader.Proofs.Glsl.Origin
import AnnotatedShader.Proofs.Model.Spelling
import AnnotatedShader.Proofs.Source.Markerless

set_option autoImplicit false

/-!
# Declarations without marks

The lines of the declarations of a model are made of fixed words, integers and the names in the
model.  When these are identifiers no line of a declaration holds a mark or a line break.

`Unmarked` goes through the functions that write declarations from the inside out: the name of a
type, an integer, a member, the lines around members, a declaration.  That the names of a model are
identifiers is known from the tokens that they are read from, and `MadeOf.unmarked` carries it over
to the declarations that are made of the model.
-/

namespace AnnotatedShader

open AnnotatedShader.Text

/-- A text that holds no mark and no line break. -/
def Unmarked (text : String) : Prop := ∀ c ∈ text.toList, c ≠ '#' ∧ isLineBreak c = false

instance (text : String) : Decidable (Unmarked text) :=
  List.decidableBAll (fun c => c ≠ '#' ∧ isLineBreak c = false) text.toList

theorem unmarked_append_iff {a b : String} : Unmarked (a ++ b) ↔ Unmarked a ∧ Unmarked b := by
  simp only [Unmarked, String.toList_append, List.forall_mem_append]

theorem Unmarked.markerless {text : String} (h : Unmarked text) : Source.Markerless text.toList :=
  Source.markerless_line (fun c hc => (h c hc).2) fun hmarker => (h _ hmarker.mem).1 rfl

theorem unmarked_of_isNameChar {text : String} (h : ∀ c ∈ text.toList, isNameChar c = true) :
    Unmarked text := by
  intro c hc
  refine ⟨?_, isLineBreak_eq_false_of_not_blank (isBlank_eq_false_of_isNameChar (h c hc))⟩
  rintro rfl
  exact absurd (h '#' hc) (by decide)

theorem Worded.unmarked {name : String} (h : Worded name) : Unmarked name :=
  unmarked_of_isNameChar fun _ => h.isNameChar

theorem unmarked_toString_nat (n : Nat) : Unmarked (toString n) := by
  refine unmarked_of_isNameChar fun c hc => ?_
  rw [Nat.toString_eq_ofList_toDigits, String.toList_ofList] at hc
  have hdigit := Nat.isDigit_of_mem_toDigits (by omega) (by omega) hc
  simp [isNameChar, Char.isAlphanum, hdigit]

theorem unmarked_toString_int (n : Int) : Unmarked (toString n) := by
  cases n with
  | ofNat n => exact unmarked_toString_nat n
  | negSucc n => exact unmarked_append_iff.mpr ⟨by decide, unmarked_toString_nat (n + 1)⟩

namespace Glsl

/-! ## Types -/

theorem unmarked_glslName {t : ShaderType} (ht : t.Spelled) {name : String}
    (h : t.glslName = .ok name) : Unmarked name := by
  induction t generalizing name with
  | scalar c =>
    obtain rfl := Except.ok.inj h
    cases c <;> decide
  | vector spelling c size | matrix spelling c size =>
    obtain rfl := Except.ok.inj h
    refine unmarked_append_iff.mpr ⟨?_, unmarked_toString_nat size⟩
    cases c <;> decide
  | sampler => contradiction
  | texture kind element =>
    obtain rfl := Except.ok.inj h
    refine unmarked_append_iff.mpr ⟨?_, by cases kind <;> decide⟩
    unfold ShaderType.samplerStart
    split <;> decide
  | struct id =>
    obtain rfl := Except.ok.inj h
    exact unmarked_append_iff.mpr ⟨Worded.unmarked ht, by decide⟩
  | array text element size ih => exact ih ht h

theorem unmarked_typeName {t : ShaderType} (ht : t.Spelled) {name : String}
    (h : typeName t = .ok name) : Unmarked name := by
  unfold typeName at h
  split at h
  · rename_i heq
    rw [← Except.ok.inj h]
    exact unmarked_glslName ht heq
  · contradiction

theorem unmarked_writeInt {n : Int} {text : String} (h : writeInt n = .ok text) :
    Unmarked text := by
  unfold writeInt at h
  split at h
  · rw [← Except.ok.inj h]
    exact unmarked_toString_int n
  · simp at h

/-! ## Declarations -/

/-- A name without marks and the type that it is declared with. -/
def DeclaredAs (name : String) (type : ShaderType) : Prop := Unmarked name ∧ type.Spelled

/-- The names in a declaration hold no marks. -/
def Declaration.Unmarked : Declaration → Prop
  | .input _ type name | .texture _ type name | .output _ type name => DeclaredAs name type
  | .struct id members => Worded id.name ∧ ∀ m ∈ members, DeclaredAs m.name m.type
  | .block _ name members instanceName => AnnotatedShader.Unmarked name ∧
    (∀ m ∈ members, DeclaredAs m.name m.type) ∧
    ∀ other, instanceName = some other → AnnotatedShader.Unmarked other
  | .undefined _ => False

theorem unmarked_plainMember {m : MemberDeclaration} (hm : DeclaredAs m.name m.type) {line : String}
    (h : plainMember m = .ok line) : Unmarked line := by
  obtain ⟨type, htype, h⟩ := bind_eq_ok_iff.mp h
  have htype := unmarked_typeName hm.2 htype
  split at h
  · obtain ⟨size, hsize, h⟩ := bind_eq_ok_iff.mp h
    obtain rfl := Except.ok.inj h
    simp only [unmarked_append_iff]
    exact ⟨⟨⟨⟨⟨htype, by decide⟩, hm.1⟩, by decide⟩, unmarked_writeInt hsize⟩, by decide⟩
  · obtain rfl := Except.ok.inj h
    simp only [unmarked_append_iff]
    exact ⟨⟨⟨htype, by decide⟩, hm.1⟩, by decide⟩

theorem unmarked_memberLine {m : MemberDeclaration} (hm : DeclaredAs m.name m.type) {line : String}
    (h : memberLine m = .ok line) : Unmarked line := by
  unfold memberLine at h
  split at h
  · obtain ⟨plain, hplain, h⟩ := bind_eq_ok_iff.mp h
    obtain rfl := Except.ok.inj h
    exact unmarked_append_iff.mpr ⟨by decide, unmarked_plainMember hm hplain⟩
  · simp only [bind_eq_ok_iff] at h
    obtain ⟨offset, hoffset, plain, hplain, h⟩ := h
    obtain rfl := Except.ok.inj h
    simp only [unmarked_append_iff]
    exact ⟨⟨⟨by decide, unmarked_writeInt hoffset⟩, by decide⟩, unmarked_plainMember hm hplain⟩

theorem unmarked_members {ms : List MemberDeclaration} (hms : ∀ m ∈ ms, DeclaredAs m.name m.type)
    {lines : List String} (h : ms.mapM memberLine = .ok lines) : ∀ line ∈ lines, Unmarked line := by
  intro line hline
  obtain ⟨m, hm, hwritten⟩ := exists_left_of_forall₂ (forall₂_of_mapM h) hline
  exact unmarked_memberLine (hms m hm) hwritten

/-- The lines of a block of members hold no marks, when those around the members do not. -/
theorem unmarked_around {ms : List MemberDeclaration} (hms : ∀ m ∈ ms, DeclaredAs m.name m.type)
    {lines : List String} (h : ms.mapM memberLine = .ok lines) {first last : String}
    (hfirst : Unmarked first) (hlast : Unmarked last) :
    ∀ line ∈ first :: lines ++ [last], Unmarked line :=
  List.forall_mem_append.mpr ⟨List.forall_mem_cons.mpr ⟨hfirst, unmarked_members hms h⟩,
    List.forall_mem_singleton.mpr hlast⟩

theorem unmarked_block {ms : List MemberDeclaration} (hms : ∀ m ∈ ms, DeclaredAs m.name m.type)
    {lines : List String} (h : ms.mapM memberLine = .ok lines) {qualifiers name closing : String}
    (hqualifiers : Unmarked qualifiers) (hname : Unmarked name) (hclosing : Unmarked closing) :
    ∀ line ∈
      ("layout(" ++ qualifiers ++ ") uniform " ++ name ++ "Block \x7b") :: lines ++ [closing],
      Unmarked line := by
  refine unmarked_around hms h ?_ hclosing
  simp only [unmarked_append_iff]
  exact ⟨⟨⟨⟨by decide, hqualifiers⟩, by decide⟩, hname⟩, by decide⟩

/-- No line of a declaration holds a mark, when no name in it does. -/
theorem unmarked_lines {d : Declaration} (hd : d.Unmarked) {lines : List String}
    (h : d.lines = .ok lines) : ∀ line ∈ lines, Unmarked line := by
  cases d with
  | input location type name | output location type name =>
    simp only [Declaration.lines, bind_eq_ok_iff] at h
    obtain ⟨location, hlocation, type, htype, h⟩ := h
    obtain rfl := Except.ok.inj h
    refine List.forall_mem_singleton.mpr ?_
    simp only [unmarked_append_iff]
    exact ⟨⟨⟨⟨⟨⟨by decide, unmarked_writeInt hlocation⟩, by decide⟩, unmarked_typeName hd.2 htype⟩,
      by decide⟩, hd.1⟩, by decide⟩
  | struct id members =>
    simp only [Declaration.lines, bind_eq_ok_iff] at h
    obtain ⟨type, htype, members, hmembers, h⟩ := h
    obtain rfl := Except.ok.inj h
    refine unmarked_around hd.2 hmembers ?_ (by decide)
    simp only [unmarked_append_iff]
    exact ⟨⟨by decide, unmarked_typeName (t := .struct id) hd.1 htype⟩, by decide⟩
  | block binding name members instanceName =>
    obtain ⟨hname, hms, hinstance⟩ := hd
    have hclosing : ∀ other, instanceName = some other → Unmarked ("\x7d " ++ other ++ ";") := by
      intro other hother
      simp only [unmarked_append_iff]
      exact ⟨⟨by decide, hinstance other hother⟩, by decide⟩
    cases binding with
    | none =>
      obtain ⟨_, hqualifiers, h⟩ := bind_eq_ok_iff.mp h
      obtain rfl := Except.ok.inj hqualifiers
      obtain ⟨written, hwritten, h⟩ := bind_eq_ok_iff.mp h
      obtain rfl := Except.ok.inj h
      cases instanceName with
      | none => exact unmarked_block hms hwritten (by decide) hname (by decide)
      | some other => exact unmarked_block hms hwritten (by decide) hname (hclosing other rfl)
    | some slot =>
      obtain ⟨slot, hslot, h⟩ := bind_eq_ok_iff.mp h
      obtain ⟨_, hqualifiers, h⟩ := bind_eq_ok_iff.mp h
      obtain rfl := Except.ok.inj hqualifiers
      obtain ⟨written, hwritten, h⟩ := bind_eq_ok_iff.mp h
      obtain rfl := Except.ok.inj h
      have hslot : Unmarked ("binding = " ++ slot ++ ", std140") := by
        simp only [unmarked_append_iff]
        exact ⟨⟨by decide, unmarked_writeInt hslot⟩, by decide⟩
      cases instanceName with
      | none => exact unmarked_block hms hwritten hslot hname (by decide)
      | some other => exact unmarked_block hms hwritten hslot hname (hclosing other rfl)
  | texture binding type name =>
    cases binding with
    | none =>
      simp only [Declaration.lines, bind_eq_ok_iff] at h
      obtain ⟨type, htype, h⟩ := h
      obtain rfl := Except.ok.inj h
      refine List.forall_mem_singleton.mpr ?_
      simp only [unmarked_append_iff]
      exact ⟨⟨⟨⟨by decide, unmarked_typeName hd.2 htype⟩, by decide⟩, hd.1⟩, by decide⟩
    | some slot =>
      simp only [Declaration.lines, bind_eq_ok_iff] at h
      obtain ⟨slot, hslot, type, htype, h⟩ := h
      obtain rfl := Except.ok.inj h
      refine List.forall_mem_singleton.mpr ?_
      simp only [unmarked_append_iff]
      exact ⟨⟨⟨⟨⟨⟨by decide, unmarked_writeInt hslot⟩, by decide⟩, unmarked_typeName hd.2 htype⟩,
        by decide⟩, hd.1⟩, by decide⟩
  | undefined id => exact hd.elim

/-! ## Declarations of a model -/

/-- The declarations of a model whose names are identifiers hold no marks. -/
theorem MadeOf.unmarked {o : Options} {m : Model} (hm : m.Spelled) {d : Declaration}
    (h : MadeOf o m d) : d.Unmarked := by
  cases h with
  | input vf i hvf hi =>
    obtain ⟨hname, hinputs⟩ := hm.format vf hvf
    refine ⟨?_, (hinputs i hi).2⟩
    simp only [unmarked_append_iff]
    exact ⟨⟨hname.unmarked, by decide⟩, (hinputs i hi).1.unmarked⟩
  | struct d hd =>
    obtain ⟨hname, hmembers⟩ := hm.structs d hd
    refine ⟨hname, List.forall_mem_map.mpr fun mem hmem => ?_⟩
    exact ⟨(hmembers mem hmem).1.unmarked, (hmembers mem hmem).2⟩
  | block b members hb hdeclared =>
    obtain ⟨hname, hmembers⟩ := hm.buffers b hb
    refine ⟨hname.unmarked, fun declared hd => ?_, fun other hother => ?_⟩
    · obtain ⟨mem, hmem, heq⟩ := exists_left_of_forall₂ hdeclared hd
      unfold blockMember at heq
      split at heq
      · obtain rfl := Except.ok.inj heq
        exact ⟨(hmembers mem hmem).1.unmarked, (hmembers mem hmem).2⟩
      · contradiction
    · unfold instanceName? at hother
      split at hother
      · contradiction
      · rw [← Option.some.inj hother]
        exact hname.unmarked
  | texture t ht => exact ⟨(hm.textures t ht).1.unmarked, (hm.textures t ht).2⟩
  | output out hout => exact ⟨(hm.outputs out hout).1.unmarked, (hm.outputs out hout).2⟩

end Glsl

end AnnotatedShader
