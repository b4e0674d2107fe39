import AnnotatedShader.Layout.Std140
import AnnotatedShader.Proofs.Except

set_option autoImplicit false

/-!
# Extents of types

All alignments of the std140 layout are 4, 8, 16 or 32, so of two of them the smaller divides the
greater.  That is what makes maxima of alignments behave: a multiple of the greater one is one of
the smaller one (`IsAlignment.dvd_of_le`).

The extent of a type whose structs are sound has such an alignment and no negative size
(`extent_fit`), and an array of it a stride that is a multiple of both its alignment and that of a
vector of four (`Extent.Fit.wide`).  The proof goes by the type, with `Fit` for what is kept from an
element to its array.

An extent depends on the layouts of structs only as far as they are known.  More structs do not
change it (`extent_extends`), and neither do other lists that give these structs the same layouts
(`extent_agree`).
-/

namespace AnnotatedShader.Layout.Std140

open AnnotatedShader.Layout

/-! ## Alignments -/

/-- The alignments of the layout. -/
def IsAlignment (a : Int) : Prop := a = 4 ∨ a = 8 ∨ a = 16 ∨ a = 32

/-- The alignments of arrays and structs. -/
def IsWideAlignment (a : Int) : Prop := a = 16 ∨ a = 32

theorem IsAlignment.pos {a : Int} (h : IsAlignment a) : 0 < a := by
  rcases h with rfl | rfl | rfl | rfl <;> decide

theorem IsWideAlignment.isAlignment {a : Int} (h : IsWideAlignment a) : IsAlignment a :=
  Or.inr (Or.inr h)

theorem IsAlignment.dvd_of_le {a b : Int} (ha : IsAlignment a) (hb : IsAlignment b)
    (hle : a ≤ b) : a ∣ b := by
  rcases ha with rfl | rfl | rfl | rfl <;> rcases hb with rfl | rfl | rfl | rfl <;> omega

theorem IsAlignment.max {a b : Int} (ha : a = 0 ∨ IsAlignment a) (hb : IsAlignment b) :
    IsAlignment (max a b) := by
  rcases ha with rfl | ha
  · rwa [Int.max_eq_right (Int.le_of_lt hb.pos)]
  · rcases Int.le_total a b with hle | hle
    · rwa [Int.max_eq_right hle]
    · rwa [Int.max_eq_left hle]

/-- An alignment is rounded up to a wide one, of which it is a divisor. -/
theorem IsAlignment.alignUp_vec4 {a : Int} (h : IsAlignment a) :
    IsWideAlignment (alignUp a vec4Alignment) ∧ a ∣ alignUp a vec4Alignment := by
  rcases h with rfl | rfl | rfl | rfl <;> exact ⟨by unfold IsWideAlignment; decide, by decide⟩

/-! ## Sound layouts -/

/-- A layout that can stand inside another one: its size is a multiple of a wide alignment. -/
structure Sound (l : Layout) : Prop where
  size_nonneg : 0 ≤ l.size
  alignment : IsWideAlignment l.alignment
  dvd_size : l.alignment ∣ l.size

/-- All struct layouts that are known are sound. -/
def SoundStructs (structs : StructId → Option Layout) : Prop :=
  ∀ id l, structs id = some l → Sound l

/-- A type without arrays of negative length. -/
def Sized : ShaderType → Prop
  | .array _ element count => 0 ≤ count ∧ Sized element
  | _ => True

theorem component_isAlignment (c : Component) : IsAlignment c.size := by
  cases c <;> unfold IsAlignment <;> decide

theorem vectorExtent_isAlignment (c : Component) (size : Nat) :
    IsAlignment (vectorExtent c size).alignment := by
  unfold vectorExtent
  split
  · show IsAlignment (2 * c.size)
    cases c <;> unfold IsAlignment <;> decide
  · show IsAlignment (4 * c.size)
    cases c <;> unfold IsAlignment <;> decide

theorem vectorExtent_size_nonneg (c : Component) (size : Nat) :
    0 ≤ (vectorExtent c size).size := by
  have hc := c.size_pos
  unfold vectorExtent
  split
  · show 0 ≤ 2 * c.size
    omega
  · exact Int.mul_nonneg (Int.natCast_nonneg size) (Int.le_of_lt hc)

/-- What every extent satisfies. -/
structure Extent.Fit (e : Extent) : Prop where
  size_nonneg : 0 ≤ e.size
  alignment : IsAlignment e.alignment

/-- The room from one element of an array to the next. -/
def stride (element : Extent) : Int :=
  alignUp element.size (alignUp element.alignment vec4Alignment)

theorem dvd_stride (e : Extent) : alignUp e.alignment vec4Alignment ∣ stride e :=
  alignUp_dvd ..

theorem arrayExtent_size (element : Extent) (count : Int) :
    (arrayExtent element count).size = stride element * count := rfl

theorem arrayExtent_alignment (element : Extent) (count : Int) :
    (arrayExtent element count).alignment = alignUp element.alignment vec4Alignment := rfl

namespace Extent.Fit

variable {e : Extent}

theorem wide (h : e.Fit) : IsWideAlignment (alignUp e.alignment vec4Alignment) :=
  h.alignment.alignUp_vec4.1

theorem size_le_stride (h : e.Fit) : e.size ≤ stride e :=
  le_alignUp h.wide.isAlignment.pos

theorem stride_nonneg (h : e.Fit) : 0 ≤ stride e :=
  Int.le_trans h.size_nonneg h.size_le_stride

theorem array (h : e.Fit) {count : Int} (hcount : 0 ≤ count) : (arrayExtent e count).Fit where
  size_nonneg := by
    rw [arrayExtent_size]
    exact Int.mul_nonneg h.stride_nonneg hcount
  alignment := by
    rw [arrayExtent_alignment]
    exact h.wide.isAlignment

end Extent.Fit

theorem vectorExtent_fit (c : Component) (size : Nat) : (vectorExtent c size).Fit :=
  ⟨vectorExtent_size_nonneg c size, vectorExtent_isAlignment c size⟩

theorem extent_array_eq_ok_iff {structs : StructId → Option Layout} {text : String}
    {element : ShaderType} {count : Int} {e : Extent} :
    extent structs (.array text element count) = .ok e ↔
      ∃ inner, extent structs element = .ok inner ∧ e = arrayExtent inner count := by
  rw [extent, map_eq_ok_iff]
  simp only [eq_comm]

theorem extent_struct_eq_ok_iff {structs : StructId → Option Layout} {id : StructId}
    {e : Extent} :
    extent structs (.struct id) = .ok e ↔
      ∃ l, structs id = some l ∧ e = ⟨l.size, l.alignment⟩ := by
  unfold extent
  cases structs id <;> simp [eq_comm]

/-- An extent fits, if the structs inside it are sound and no array has a negative length. -/
theorem extent_fit {structs : StructId → Option Layout} (hs : SoundStructs structs)
    {t : ShaderType} (ht : Sized t) {e : Extent} (h : extent structs t = .ok e) : e.Fit := by
  induction t generalizing e with
  | scalar c =>
    obtain rfl := Except.ok.inj h
    exact ⟨Int.le_of_lt c.size_pos, component_isAlignment c⟩
  | vector spelling c size =>
    obtain rfl := Except.ok.inj h
    exact vectorExtent_fit c size
  | matrix spelling c size =>
    obtain rfl := Except.ok.inj h
    exact (vectorExtent_fit c size).array (Int.natCast_nonneg size)
  | sampler => simp [extent] at h
  | texture kind element => simp [extent] at h
  | struct id =>
    obtain ⟨l, hl, rfl⟩ := extent_struct_eq_ok_iff.mp h
    exact ⟨(hs id l hl).size_nonneg, (hs id l hl).alignment.isAlignment⟩
  | array text element count ih =>
    obtain ⟨inner, hinner, rfl⟩ := extent_array_eq_ok_iff.mp h
    exact (ih ht.2 hinner).array ht.1

/-! ## Extents under more or other structs -/

/-- More layouts are known, and those known before are the same. -/
def Extends (structs structs' : StructId → Option Layout) : Prop :=
  ∀ id l, structs id = some l → structs' id = some l

/-- Two sources of layouts never contradict each other. -/
def Agree (structs structs' : StructId → Option Layout) : Prop :=
  ∀ id l l', structs id = some l → structs' id = some l' → l = l'

theorem extent_extends {structs structs' : StructId → Option Layout}
    (hs : Extends structs structs') {t : ShaderType} {e : Extent}
    (h : extent structs t = .ok e) : extent structs' t = .ok e := by
  induction t generalizing e with
  | struct id =>
    obtain ⟨l, hl, rfl⟩ := extent_struct_eq_ok_iff.mp h
    exact extent_struct_eq_ok_iff.mpr ⟨l, hs id l hl, rfl⟩
  | array text element count ih =>
    obtain ⟨inner, hinner, rfl⟩ := extent_array_eq_ok_iff.mp h
    exact extent_array_eq_ok_iff.mpr ⟨inner, ih hinner, rfl⟩
  | _ => exact h

theorem extent_agree {structs structs' : StructId → Option Layout} (hs : Agree structs structs')
    {t : ShaderType} {e e' : Extent} (h : extent structs t = .ok e)
    (h' : extent structs' t = .ok e') : e = e' := by
  induction t generalizing e e' with
  | struct id =>
    obtain ⟨l, hl, rfl⟩ := extent_struct_eq_ok_iff.mp h
    obtain ⟨l', hl', rfl⟩ := extent_struct_eq_ok_iff.mp h'
    rw [hs id l l' hl hl']
  | array text element count ih =>
    obtain ⟨inner, hinner, rfl⟩ := extent_array_eq_ok_iff.mp h
    obtain ⟨inner', hinner', rfl⟩ := extent_array_eq_ok_iff.mp h'
    rw [ih hinner hinner']
  | _ => exact Except.ok.inj (h.symm.trans h')

end AnnotatedShader.Layout.Std140
