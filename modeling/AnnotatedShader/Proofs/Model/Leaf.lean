import AnnotatedShader.Proofs.Model.Members
import Mathlib

set_option autoImplicit false

/-!
# Leaves of buffers

The scalars, vectors and matrix columns that a buffer is made of, however deep they are nested.
`LeafAt` leads from a type to its leaves by steps into members, elements and columns, and a leaf has
an offset, a size and an alignment of its own.

The alignments on the way to a leaf are multiples of one another from the inside to the outside, so
what is aligned inside a member stays aligned inside the buffer.  `Leaf.Within` says that a leaf
lies inside an extent, aligned; `Leaf.Apart` that two leaves do not meet.  Both are kept by a step
into an array and by one into a member, the latter because members lie one behind the other
(`Arranged.apart_inMember`).  So two leaves are apart as soon as the ways to them part, and the
theorem on all leaves of a buffer is an induction on the way.
-/

namespace AnnotatedShader.Model

open AnnotatedShader.Layout
open AnnotatedShader.Layout.Std140 (Extent arrayExtent extent stride vec4Alignment vectorExtent)

/-- A step into a struct, an array or a matrix. -/
inductive Step where
  | member (index : Nat)
  | element (index : Nat)
  | column (index : Nat)
  deriving DecidableEq, Repr, Inhabited

/-- Where a leaf lies inside a type or a buffer, and what its offset has to be a multiple of. -/
structure Leaf where
  offset : Int
  size : Int
  alignment : Int
  deriving DecidableEq, Repr, Inhabited

namespace Leaf

/-- A leaf that is a vector. -/
def ofVector (c : Component) (size : Nat) : Leaf :=
  ⟨0, size * c.size, if size = 2 then 2 * c.size else 4 * c.size⟩

/-- A leaf of a member, seen from outside. -/
def inMember (m : Member) (leaf : Leaf) : Leaf := { leaf with offset := m.offset + leaf.offset }

/-- A leaf of an element of an array, seen from outside.  An element that is itself a leaf takes the
alignment of the array. -/
def inArray (element : Extent) (index : Nat) (isElement : Bool) (leaf : Leaf) : Leaf :=
  ⟨index * stride element + leaf.offset, leaf.size,
    if isElement then alignUp leaf.alignment vec4Alignment else leaf.alignment⟩

/-- Two leaves that have no byte in common. -/
def Apart (a b : Leaf) : Prop := a.offset + a.size ≤ b.offset ∨ b.offset + b.size ≤ a.offset

end Leaf

/-- The leaf of a type at the end of a path.  The elements of an array lie one stride apart; a
matrix is an array of its columns. -/
inductive LeafAt (model : Model) : ShaderType → List Step → Leaf → Prop
  | scalar (c : Component) : LeafAt model (.scalar c) [] ⟨0, c.size, c.size⟩
  | vector (spelling : String) (c : Component) (size : Nat) :
    LeafAt model (.vector spelling c size) [] (.ofVector c size)
  | column (spelling : String) (c : Component) (size index : Nat) (hindex : index < size) :
    LeafAt model (.matrix spelling c size) [.column index]
      ((Leaf.ofVector c size).inArray (vectorExtent c size) index true)
  | element (text : String) (type : ShaderType) (count : Int) (index : Nat) (e : Extent)
    (path : List Step) (leaf : Leaf) (hindex : index < count)
    (hextent : extent (layoutsOf model.structs) type = .ok e)
    (hleaf : LeafAt model type path leaf) :
    LeafAt model (.array text type count) (.element index :: path)
      (leaf.inArray e index path.isEmpty)
  | member (id : StructId) (d : StructDef) (index : Nat) (m : Member) (path : List Step)
    (leaf : Leaf) (hstruct : model.struct? id = some d) (hmember : d.members[index]? = some m)
    (hleaf : LeafAt model m.type path leaf) :
    LeafAt model (.struct id) (.member index :: path) (leaf.inMember m)

/-- The leaf of a buffer at the end of a path. -/
inductive BufferLeaf (model : Model) (b : Buffer) : List Step → Leaf → Prop
  | member (index : Nat) (m : Member) (path : List Step) (leaf : Leaf)
    (hmember : b.members[index]? = some m) (hleaf : LeafAt model m.type path leaf) :
    BufferLeaf model b (.member index :: path) (leaf.inMember m)

/-! ## Leaves inside extents -/

/-- How a leaf lies in an extent. -/
structure Leaf.Within (leaf : Leaf) (e : Extent) : Prop where
  aligned : leaf.alignment ∣ leaf.offset
  offset_nonneg : 0 ≤ leaf.offset
  le_size : leaf.offset + leaf.size ≤ e.size
  dvd_alignment : leaf.alignment ∣ e.alignment

theorem Leaf.ofVector_eq (c : Component) (size : Nat) :
    Leaf.ofVector c size = ⟨0, (vectorExtent c size).size, (vectorExtent c size).alignment⟩ := by
  unfold Leaf.ofVector vectorExtent
  split
  · rename_i htwo
    rw [htwo]
    rfl
  · rfl

/-- A leaf that is a whole type has the extent of the type. -/
theorem LeafAt.eq_of_isEmpty {model : Model} {structs : StructId → Option Layout} {t : ShaderType}
    {path : List Step} {leaf : Leaf} {e : Extent} (h : LeafAt model t path leaf)
    (hempty : path.isEmpty = true) (he : extent structs t = .ok e) :
    leaf = ⟨0, e.size, e.alignment⟩ := by
  cases h with
  | scalar c =>
    obtain rfl := Except.ok.inj he
    rfl
  | vector spelling c size =>
    obtain rfl := Except.ok.inj he
    exact Leaf.ofVector_eq c size
  | _ => simp at hempty

/-- No leaf is inside an array of negative length. -/
theorem LeafAt.sized {model : Model} {t : ShaderType} {path : List Step} {leaf : Leaf}
    (h : LeafAt model t path leaf) : Std140.Sized t := by
  induction h with
  | element text type count index e path leaf hindex _ _ ih =>
    exact ⟨Int.le_trans (Int.natCast_nonneg index) (Int.le_of_lt hindex), ih⟩
  | _ => trivial

/-- A leaf of an element lies in the array. -/
theorem Leaf.Within.inArray {leaf : Leaf} {e : Extent} (h : leaf.Within e) (hfit : e.Fit)
    {index : Nat} {count : Int} (hindex : index < count) {isElement : Bool}
    (hwhole : isElement = true → leaf = ⟨0, e.size, e.alignment⟩) :
    (leaf.inArray e index isElement).Within (arrayExtent e count) := by
  have hwide : e.alignment ∣ alignUp e.alignment vec4Alignment := hfit.alignment.alignUp_vec4.2
  have hshift : alignUp e.alignment vec4Alignment ∣ index * stride e :=
    Int.dvd_mul_of_dvd_right (Std140.dvd_stride e)
  have hstart : 0 ≤ index * stride e := Int.mul_nonneg (Int.natCast_nonneg _) hfit.stride_nonneg
  -- the element ends before the next one starts
  have hnext : (index + 1) * stride e ≤ stride e * count := by
    rw [Int.mul_comm (stride e)]
    exact Int.mul_le_mul_of_nonneg_right hindex hfit.stride_nonneg
  have hend : index * stride e + e.size ≤ stride e * count := by
    have := hfit.size_le_stride
    rw [Int.add_mul, Int.one_mul] at hnext
    omega
  have hnonneg := h.offset_nonneg
  have hle := h.le_size
  refine ⟨?_, ?_, ?_, ?_⟩
  · cases hcase : isElement with
    | true =>
      rw [hwhole hcase]
      simpa [Leaf.inArray] using hshift
    | false =>
      exact Int.dvd_add (Int.dvd_trans (Int.dvd_trans h.dvd_alignment hwide) hshift) h.aligned
  · exact Int.add_nonneg hstart hnonneg
  · show index * stride e + leaf.offset + leaf.size ≤ stride e * count
    omega
  · rw [Std140.arrayExtent_alignment]
    cases hcase : isElement with
    | true =>
      rw [hwhole hcase]
      exact Int.dvd_refl _
    | false => exact Int.dvd_trans h.dvd_alignment hwide

theorem within_ofVector (c : Component) (size : Nat) :
    (Leaf.ofVector c size).Within (vectorExtent c size) := by
  rw [Leaf.ofVector_eq]
  exact ⟨Int.dvd_zero _, Int.le_refl 0, by simp, Int.dvd_refl _⟩

/-- A leaf of a member lies where the member is arranged. -/
theorem Leaf.Within.inMember {structs : StructId → Option Layout} {l : Layout} {m : Member}
    {e : Extent} {leaf : Leaf} (h : leaf.Within e) (hm : InPlace structs l m e) :
    (leaf.inMember m).Within ⟨l.size, l.alignment⟩ := by
  have hnonneg := h.offset_nonneg
  have hle := h.le_size
  have hoffset := hm.offset_nonneg
  have hsize := hm.size
  have hend := hm.le_size
  refine ⟨?_, ?_, ?_, Int.dvd_trans h.dvd_alignment hm.dvd_alignment⟩
  · exact Int.dvd_add (Int.dvd_trans h.dvd_alignment hm.aligned) h.aligned
  · exact Int.add_nonneg hoffset hnonneg
  · show m.offset + leaf.offset + leaf.size ≤ l.size
    omega

/-! ## Leaves apart from one another -/

/-- Leaves of different elements of an array are apart. -/
theorem apart_inArray {x y : Leaf} {e : Extent} (hx : x.Within e) (hy : y.Within e) (hfit : e.Fit)
    {i j : Nat} (hne : i ≠ j) (b c : Bool) : (x.inArray e i b).Apart (y.inArray e j c) := by
  -- whichever element comes first, it ends before the other one starts
  have hbefore : ∀ {i j : Nat} {x y : Leaf}, x.Within e → y.Within e → i < j →
      i * stride e + x.offset + x.size ≤ j * stride e + y.offset := by
    intro i j x y hx hy hij
    have hnext : ((i : Int) + 1) * stride e ≤ j * stride e :=
      Int.mul_le_mul_of_nonneg_right (by omega) hfit.stride_nonneg
    rw [Int.add_mul, Int.one_mul] at hnext
    have hle := hx.le_size
    have hsize := hfit.size_le_stride
    have hnonneg := hy.offset_nonneg
    omega
  rcases Nat.lt_or_gt_of_ne hne with hij | hij
  · exact Or.inl (hbefore hx hy hij)
  · exact Or.inr (hbefore hy hx hij)

theorem Leaf.Apart.inArray {x y : Leaf} (h : x.Apart y) (e : Extent) (i : Nat) (b c : Bool) :
    (x.inArray e i b).Apart (y.inArray e i c) := by
  simp only [Leaf.Apart, Leaf.inArray] at h ⊢
  omega

theorem Leaf.Apart.inMember {x y : Leaf} (h : x.Apart y) (m : Member) :
    (x.inMember m).Apart (y.inMember m) := by
  simp only [Leaf.Apart, Leaf.inMember] at h ⊢
  omega

/-- Leaves of different members are apart. -/
theorem Arranged.apart_inMember {structs : StructId → Option Layout} {ms : List Member} {l : Layout}
    (h : Arranged structs ms l) {i j : Nat} {m m' : Member} (hm : ms[i]? = some m)
    (hm' : ms[j]? = some m') (hne : i ≠ j) {x y : Leaf}
    (hx : ∀ e, extent structs m.type = .ok e → x.Within e)
    (hy : ∀ e, extent structs m'.type = .ok e → y.Within e) :
    (x.inMember m).Apart (y.inMember m') := by
  have hbefore : ∀ {i j : Nat} {m m' : Member} {x y : Leaf}, ms[i]? = some m → ms[j]? = some m' →
      (∀ e, extent structs m.type = .ok e → x.Within e) →
      (∀ e, extent structs m'.type = .ok e → y.Within e) → i < j →
      m.offset + x.offset + x.size ≤ m'.offset + y.offset := by
    intro i j m m' x y hm hm' hx hy hij
    obtain ⟨hi, rfl⟩ := List.getElem?_eq_some_iff.mp hm
    obtain ⟨hj, rfl⟩ := List.getElem?_eq_some_iff.mp hm'
    have hordered := List.pairwise_iff_getElem.mp h.ordered i j hi hj hij
    obtain ⟨e, he⟩ := h.inPlace _ (List.getElem_mem hi)
    obtain ⟨e', he'⟩ := h.inPlace _ (List.getElem_mem hj)
    have hle := (hx e he.extent).le_size
    have hsize := he.size
    have hnonneg := (hy e' he'.extent).offset_nonneg
    omega
  rcases Nat.lt_or_gt_of_ne hne with hij | hij
  · exact Or.inl (hbefore hm hm' hx hy hij)
  · exact Or.inr (hbefore hm' hm hy hx hij)

/-! ## Leaves of accepted models -/

/-- The structs of a model are sound, and their members are arranged. -/
structure ArrangedStructs (model : Model) : Prop where
  sound : Std140.SoundStructs (layoutsOf model.structs)
  members : ∀ d ∈ model.structs, Arranged (layoutsOf model.structs) d.members d.layout

variable {model : Model}

theorem ArrangedStructs.struct? (h : ArrangedStructs model) {id : StructId} {d : StructDef}
    (hd : model.struct? id = some d) :
    layoutsOf model.structs id = some d.layout ∧
      Arranged (layoutsOf model.structs) d.members d.layout :=
  ⟨Option.map_eq_some_iff.mpr ⟨d, hd, rfl⟩, h.members d (List.mem_of_find?_eq_some hd)⟩

/-- A leaf of a type lies inside the extent of the type. -/
theorem LeafAt.within (hstructs : ArrangedStructs model) {t : ShaderType} {path : List Step}
    {leaf : Leaf} (h : LeafAt model t path leaf) {e : Extent}
    (he : extent (layoutsOf model.structs) t = .ok e) : leaf.Within e := by
  induction h generalizing e with
  | scalar c =>
    obtain rfl := Except.ok.inj he
    exact ⟨Int.dvd_zero _, Int.le_refl 0, by simp, Int.dvd_refl _⟩
  | vector spelling c size =>
    obtain rfl := Except.ok.inj he
    exact within_ofVector c size
  | column spelling c size index hindex =>
    obtain rfl := Except.ok.inj he
    have hindex : (index : Int) < size := Int.ofNat_lt.mpr hindex
    exact (within_ofVector c size).inArray (Std140.vectorExtent_fit c size) hindex
      fun _ => Leaf.ofVector_eq c size
  | element text type count index inner path leaf hindex hextent hleaf ih =>
    obtain ⟨inner', hinner, rfl⟩ := Std140.extent_array_eq_ok_iff.mp he
    obtain rfl := Except.ok.inj (hextent.symm.trans hinner)
    have hfit := Std140.extent_fit hstructs.sound hleaf.sized hextent
    exact (ih hextent).inArray hfit hindex fun hempty => hleaf.eq_of_isEmpty hempty hextent
  | member id d index m path leaf hstruct hmember hleaf ih =>
    obtain ⟨l, hl, rfl⟩ := Std140.extent_struct_eq_ok_iff.mp he
    obtain ⟨hlayout, harranged⟩ := hstructs.struct? hstruct
    obtain rfl := Option.some.inj (hlayout.symm.trans hl)
    obtain ⟨inner, hinner⟩ := harranged.inPlace m (List.mem_of_getElem? hmember)
    exact (ih hinner.extent).inMember hinner

/-- Different leaves of a type are apart. -/
theorem LeafAt.apart (hstructs : ArrangedStructs model) {t : ShaderType} {p q : List Step}
    {x y : Leaf} (hx : LeafAt model t p x) (hy : LeafAt model t q y) (hne : p ≠ q) {e : Extent}
    (he : extent (layoutsOf model.structs) t = .ok e) : x.Apart y := by
  induction hx generalizing q y e with
  | scalar c => cases hy; exact absurd rfl hne
  | vector spelling c size => cases hy; exact absurd rfl hne
  | column spelling c size i hi =>
    cases hy with
    | column _ _ _ j hj =>
      have hij : i ≠ j := fun heq => hne (heq ▸ rfl)
      have hvector := within_ofVector c size
      exact apart_inArray hvector hvector (Std140.vectorExtent_fit c size) hij true true
  | element text type count i inner p x hi hinner hx ih =>
    cases hy with
    | element _ _ _ j inner' q y hj hinner' hy =>
      obtain rfl := Except.ok.inj (hinner.symm.trans hinner')
      by_cases hij : i = j
      · subst hij
        have htail : p ≠ q := fun heq => hne (heq ▸ rfl)
        exact (ih hy htail hinner).inArray inner i _ _
      · have hfit := Std140.extent_fit hstructs.sound hx.sized hinner
        exact apart_inArray (hx.within hstructs hinner) (hy.within hstructs hinner) hfit hij _ _
  | member id d i m p x hstruct hm hx ih =>
    obtain ⟨_, harranged⟩ := hstructs.struct? hstruct
    cases hy with
    | member _ d' j m' q y hstruct' hm' hy =>
      obtain rfl := Option.some.inj (hstruct.symm.trans hstruct')
      by_cases hij : i = j
      · subst hij
        obtain rfl := Option.some.inj (hm.symm.trans hm')
        have htail : p ≠ q := fun heq => hne (heq ▸ rfl)
        obtain ⟨inner, hinner⟩ := harranged.inPlace m (List.mem_of_getElem? hm)
        exact (ih hy htail hinner.extent).inMember m
      · exact harranged.apart_inMember hm hm' hij (fun _ he => hx.within hstructs he)
          fun _ he => hy.within hstructs he

theorem BufferLeaf.within (hstructs : ArrangedStructs model) {b : Buffer}
    (hb : Arranged (layoutsOf model.structs) b.members b.layout) {path : List Step} {leaf : Leaf}
    (h : BufferLeaf model b path leaf) : leaf.Within ⟨b.layout.size, b.layout.alignment⟩ := by
  obtain ⟨i, m, path, leaf, hm, hleaf⟩ := h
  obtain ⟨e, he⟩ := hb.inPlace m (List.mem_of_getElem? hm)
  exact (hleaf.within hstructs he.extent).inMember he

theorem BufferLeaf.apart (hstructs : ArrangedStructs model) {b : Buffer}
    (hb : Arranged (layoutsOf model.structs) b.members b.layout) {p q : List Step} {x y : Leaf}
    (hx : BufferLeaf model b p x) (hy : BufferLeaf model b q y) (hne : p ≠ q) : x.Apart y := by
  obtain ⟨i, m, p, x, hm, hx⟩ := hx
  obtain ⟨j, m', q, y, hm', hy⟩ := hy
  by_cases hij : i = j
  · subst hij
    obtain rfl := Option.some.inj (hm.symm.trans hm')
    have htail : p ≠ q := fun heq => hne (heq ▸ rfl)
    obtain ⟨e, he⟩ := hb.inPlace m (List.mem_of_getElem? hm)
    exact (hx.apart hstructs hy htail he.extent).inMember m
  · exact hb.apart_inMember hm hm' hij (fun _ he => hx.within hstructs he)
      fun _ he => hy.within hstructs he

/-- The leaves of the buffers of an accepted model are aligned, lie inside their buffer and have no
byte in common. -/
theorem build_leaves {m : Module} {stage : Stage} {ns : Namespace} {imports : List ResolvedImport}
    (h : build m stage ns imports = .ok model) {b : Buffer} (hb : b ∈ model.buffers) :
    (∀ path leaf, BufferLeaf model b path leaf →
      leaf.alignment ∣ leaf.offset ∧ 0 ≤ leaf.offset ∧
        leaf.offset + leaf.size ≤ b.layout.size) ∧
    ∀ p q x y, BufferLeaf model b p x → BufferLeaf model b q y → p ≠ q → x.Apart y := by
  have haccepted : Accepted ns (fun _ => True) m imports model :=
    build_accepted (fun _ _ _ _ => trivial) (fun _ _ _ _ _ _ => trivial) h
  have hbuffer := haccepted.arranged hb
  have hstructs : ArrangedStructs model :=
    ⟨haccepted.structs.sound, fun d hd => haccepted.structs.arranged hd⟩
  refine ⟨?_, fun p q x y hx hy hne => hx.apart hstructs hbuffer hy hne⟩
  intro path leaf hleaf
  have hwithin := hleaf.within hstructs hbuffer
  exact ⟨hwithin.aligned, hwithin.offset_nonneg, hwithin.le_size⟩

/-! ## A scene with lights -/

/-- A field without an attribute. -/
def plainField (type : String) (size : Option Nat) (name : String) (index : Nat) : Property :=
  ⟨⟨type, none, size⟩, name, none, index, .start⟩

/-- A packed struct, a buffer with an array of it, and an array outside all structs. -/
def litModule : Module :=
  ⟨"scene",
    [⟨.start, .declare (.buffer "Light" (some .pack)
        [plainField "vec3f" none "direction" 0, plainField "float" none "power" 1])⟩,
     ⟨.start, .declare (.buffer "Scene" none
        [plainField "mat3d" none "basis" 0, plainField "Light" (some 2) "lights" 1])⟩,
     ⟨.start, .declare (.constant (plainField "float" (some 2) "times" 0))⟩]⟩

/-- The struct of the scene. -/
def lightStruct : StructDef where
  id := ⟨"Light", "scene"⟩
  members :=
    [⟨"direction", .vector "vec3f" .float 3, "vec3f", none, 0, 0, 12⟩,
     ⟨"power", .scalar .float, "float", none, 1, 12, 4⟩]
  layout := ⟨[⟨"direction", 0, 12⟩, ⟨"power", 12, 4⟩], 16, 16⟩
  dependencies := []

/-- The buffer of the scene. -/
def sceneBuffer : Buffer where
  name := "Scene"
  members :=
    [⟨"basis", .matrix "mat3d" .double 3, "mat3d", none, 0, 0, 96⟩,
     ⟨"lights", .array "Light[2]" (.struct ⟨"Light", "scene"⟩) 2, "Light[2]", none, 1, 96, 32⟩]
  order := none
  index := 1
  origin := "scene"
  position := .start
  layout := ⟨[⟨"basis", 0, 96⟩, ⟨"lights", 96, 32⟩], 128, 32⟩
  binding := unassigned
  isRoot := false

/-- The buffer of the constants outside all structs. -/
def timesBuffer : Buffer where
  name := rootName
  members := [⟨"times", .array "float[2]" (.scalar .float) 2, "float[2]", none, 0, 0, 32⟩]
  order := none
  index := 2
  origin := "scene"
  position := .start
  layout := ⟨[⟨"times", 0, 32⟩], 32, 16⟩
  binding := unassigned
  isRoot := true

/-- The model of the scene. -/
def litModel : Model :=
  { Model.empty "scene" .pixel with
    buffers := [sceneBuffer, timesBuffer], structs := [lightStruct] }

theorem build_litModule :
    build litModule .pixel (Namespace.ofModules [litModule]) [] = .ok litModel := by cbv

/-- The power of the second light. -/
theorem bufferLeaf_power :
    BufferLeaf litModel sceneBuffer [.member 1, .element 1, .member 1] ⟨124, 4, 4⟩ := by
  have hpower : LeafAt litModel (.scalar .float) [] ⟨0, 4, 4⟩ := .scalar .float
  have hlight : LeafAt litModel (.struct ⟨"Light", "scene"⟩) [.member 1] ⟨12, 4, 4⟩ :=
    .member _ lightStruct 1 _ _ _ (by decide) rfl hpower
  have hlights : LeafAt litModel (.array "Light[2]" (.struct ⟨"Light", "scene"⟩) 2)
      [.element 1, .member 1] ⟨28, 4, 4⟩ :=
    .element _ _ _ 1 ⟨16, 16⟩ _ _ (by decide) (by decide) hlight
  exact .member 1 sceneBuffer.members[1] _ _ rfl hlights

theorem build_leaves_litModule :
    build litModule .pixel (Namespace.ofModules [litModule]) [] = .ok litModel ∧
      BufferLeaf litModel sceneBuffer [.member 1, .element 1, .member 1] ⟨124, 4, 4⟩ ∧
      ∀ b ∈ litModel.buffers,
        (∀ path leaf, BufferLeaf litModel b path leaf →
          leaf.alignment ∣ leaf.offset ∧ 0 ≤ leaf.offset ∧
            leaf.offset + leaf.size ≤ b.layout.size) ∧
        ∀ p q x y, BufferLeaf litModel b p x → BufferLeaf litModel b q y → p ≠ q → x.Apart y :=
  ⟨build_litModule, bufferLeaf_power, fun _ hb => build_leaves build_litModule hb⟩

end AnnotatedShader.Model
