import AnnotatedShader.Proofs.Lists
import AnnotatedShader.Statement.Parser

set_option autoImplicit false

/-!
# What trees mean

The meaning of a tree as a relation: which names, numbers, attributes, indices and positions its
statement has.  A tree without a meaning has a negative array size, or an attribute with an argument
that is not called `Order`; all others have exactly the one that is computed.

There is a relation for each kind of tree, in the shape of the tree.  `StatementTree.Admissible`
says which trees have a meaning without giving it, and `exists_means_iff` for each kind that this is
so.  Numbers that are too long to be read are set apart: `Readable` trees have none.
-/

namespace AnnotatedShader

namespace Grammar

/-! ## The parts of a tree -/

namespace StatementTree

/-- The properties of a statement. -/
def properties : StatementTree → List PropertyTree
  | .buffer _ _ fields | .vertexFormat _ _ fields => fields
  | .constant p | .output p => [p]
  | .use _ _ _ | .pipeline _ _ | .blendFunc _ _ => []

/-- The attributes of a statement, its own and those of its properties. -/
def attributes : StatementTree → List AttributeTree
  | .buffer _ attr fields | .vertexFormat _ attr fields =>
    attr.toList ++ fields.flatMap fun p => p.attr.toList
  | .constant p | .output p => p.attr.toList
  | .use _ _ _ | .pipeline _ _ | .blendFunc _ _ => []

/-- The state entries of a statement. -/
def entries : StatementTree → List EntryTree
  | .pipeline _ entries | .blendFunc _ entries => entries
  | .use _ _ _ | .buffer _ _ _ | .constant _ | .output _ | .vertexFormat _ _ _ => []

end StatementTree

/-! ## Meanings -/

/-- A name that spells a slot number: `ORDER_` and digits. -/
def SpellsOrder (name : String) (digits : List Char) : Prop :=
  name.toList = "ORDER_".toList ++ digits ∧ digits ≠ [] ∧ ∀ c ∈ digits, c.isDigit = true

/-- What a written attribute means. -/
inductive AttributeTree.Means : AttributeTree → Attribute → Prop
  | pack {name : Token} (hname : name.text = "Pack") : Means (.bare name) .pack
  | orderName {name : Token} {digits : List Char} (hname : SpellsOrder name.text digits) :
    Means (.bare name) (.order (Number.natOfDigits digits))
  | sampler {name : Token} (hpack : name.text ≠ "Pack")
    (horder : ∀ digits, ¬ SpellsOrder name.text digits) : Means (.bare name) (.sampler name.text)
  | order {name argument : Token} (hname : name.text = "Order") :
    Means (.call name argument) (.order (Number.intOfDigits argument.text.toList))

/-- What a written type means. -/
structure TypeTree.Means (t : TypeTree) (r : TypeRef) : Prop where
  name : r.name = t.name
  element : r.element = t.element
  size : Option.Rel (fun size n => Number.intOfDigits size.text.toList = (n : Nat)) t.size r.size

/-- What a written property means at an index of its struct. -/
structure PropertyTree.Means (index : Nat) (t : PropertyTree) (p : Property) : Prop where
  type : t.type.Means p.type
  name : p.name = t.name.text
  attr : Option.Rel AttributeTree.Means t.attr p.attr
  index : p.index = index
  position : p.position = t.name.position

/-- What written properties mean, the first of them at an index. -/
def PropertiesMean (index : Nat) (ts : List PropertyTree) (ps : List Property) : Prop :=
  List.Forall₂ (fun t p => t.1.Means t.2 p) (ts.zipIdx index) ps

/-- What a written value means. -/
inductive ValueMeans (t : Token) : StateValue → Prop
  | floating (ht : t.terminal = .floating) :
    ValueMeans t (.float (Number.Binary64.ofText t.text.toList))
  | integer (ht : t.terminal = .integer) : ValueMeans t (.int (Number.intOfDigits t.text.toList))
  | true (ht : t.terminal = .word .true_) : ValueMeans t (.bool true)
  | false (ht : t.terminal = .word .false_) : ValueMeans t (.bool false)
  | name (ht : t.terminal = .identifier) : ValueMeans t (.name t.text)

/-- What a written state entry means. -/
structure EntryTree.Means (t : EntryTree) (e : StateEntry) : Prop where
  key : e.key = "::".intercalate (t.key :: t.subkey.toList)
  value : ValueMeans t.value e.value

/-- What a written statement means. -/
inductive StatementTree.Means : StatementTree → StatementBody → Prop
  | use (file member : String) (rename : Option String) :
    Means (.use file member rename) (.use ⟨file, member, rename⟩)
  | buffer {name : String} {attr : Option AttributeTree} {attr' : Option Attribute}
    {fields : List PropertyTree} {ps : List Property}
    (hattr : Option.Rel AttributeTree.Means attr attr') (hfields : PropertiesMean 0 fields ps) :
    Means (.buffer name attr fields) (.declare (.buffer name attr' ps))
  | constant {t : PropertyTree} {p : Property} (hp : t.Means 0 p) :
    Means (.constant t) (.declare (.constant p))
  | output {t : PropertyTree} {p : Property} (hp : t.Means 0 p) :
    Means (.output t) (.declare (.output p))
  | vertexFormat {name : String} {attr : Option AttributeTree} {attr' : Option Attribute}
    {fields : List PropertyTree} {ps : List Property}
    (hattr : Option.Rel AttributeTree.Means attr attr') (hfields : PropertiesMean 0 fields ps) :
    Means (.vertexFormat name attr fields) (.declare (.vertexFormat name attr' ps))
  | pipeline {name : String} {ts : List EntryTree} {es : List StateEntry}
    (hentries : List.Forall₂ EntryTree.Means ts es) :
    Means (.pipeline name ts) (.declare (.pipeline name es))
  | blendFunc {name : String} {ts : List EntryTree} {es : List StateEntry}
    (hentries : List.Forall₂ EntryTree.Means ts es) :
    Means (.blendFunc name ts) (.declare (.blendFunc name es))

/-- What a phrase means: its statement, at the position of its first token. -/
structure Phrase.Means (p : Phrase) (s : Statement) : Prop where
  position : ∃ first rest, p.tokens = first :: rest ∧ s.position = first.position
  body : p.tree.Means s.body

/-- A statement without a negative array size, in which only `Order` has an argument. -/
structure StatementTree.Admissible (t : StatementTree) : Prop where
  sizes : ∀ p ∈ t.properties, ∀ size, p.type.size = some size →
    0 ≤ Number.intOfDigits size.text.toList
  calls : ∀ name argument, .call name argument ∈ t.attributes → name.text = "Order"

/-! ## Trees with readable numbers -/

/-- An integer that has not too many digits. -/
def HasReadableInteger (t : Token) : Prop :=
  (Number.unsigned t.text.toList).length ≤ Number.digitLimit

/-- An attribute whose numbers have not too many digits. -/
def AttributeTree.Readable : AttributeTree → Prop
  | .bare name => ∀ digits, SpellsOrder name.text digits → digits.length ≤ Number.digitLimit
  | .call _ argument => HasReadableInteger argument

/-- A statement whose numbers have not too many digits. -/
structure StatementTree.Readable (t : StatementTree) : Prop where
  sizes : ∀ p ∈ t.properties, ∀ size, p.type.size = some size → HasReadableInteger size
  attributes : ∀ a ∈ t.attributes, a.Readable
  values : ∀ e ∈ t.entries, e.value.terminal = .integer → HasReadableInteger e.value

/-- A statement whose attributes are spelled with name characters and whose values are written as
values. -/
structure StatementTree.Spelled (t : StatementTree) : Prop where
  names : ∀ name, .bare name ∈ t.attributes → ∀ c ∈ name.text.toList, Text.isNameChar c = true
  values : ∀ e ∈ t.entries, e.value.terminal ∈ valueTerminals

/-! ## Trees with a meaning -/

theorem AttributeTree.exists_means_iff {t : AttributeTree} :
    (∃ a, t.Means a) ↔ ∀ name argument, t = .call name argument → name.text = "Order" := by
  cases t with
  | bare name =>
    refine ⟨fun _ _ _ h => by simp at h, fun _ => ?_⟩
    by_cases hpack : name.text = "Pack"
    · exact ⟨.pack, .pack hpack⟩
    · by_cases horder : ∃ digits, SpellsOrder name.text digits
      · obtain ⟨digits, hdigits⟩ := horder
        exact ⟨_, .orderName hdigits⟩
      · exact ⟨_, .sampler hpack fun digits hdigits => horder ⟨digits, hdigits⟩⟩
  | call name argument =>
    constructor
    · rintro ⟨a, h⟩ _ _ heq
      obtain ⟨rfl, rfl⟩ := AttributeTree.call.inj heq
      cases h with
      | order hname => exact hname
    · intro h
      exact ⟨_, .order (h name argument rfl)⟩

theorem exists_attribute_iff {t : Option AttributeTree} :
    (∃ a, Option.Rel AttributeTree.Means t a) ↔
      ∀ name argument, .call name argument ∈ t.toList → name.text = "Order" := by
  cases t with
  | none => exact ⟨fun _ _ _ h => by simp at h, fun _ => ⟨none, .none⟩⟩
  | some t =>
    have hiff := AttributeTree.exists_means_iff (t := t)
    simp only [Option.toList_some, List.mem_singleton, eq_comm (b := t), ← hiff]
    constructor
    · rintro ⟨_, h⟩
      cases h with
      | some h => exact ⟨_, h⟩
    · rintro ⟨a, h⟩
      exact ⟨some a, .some h⟩

theorem TypeTree.exists_means_iff {t : TypeTree} :
    (∃ r, t.Means r) ↔ ∀ size, t.size = some size → 0 ≤ Number.intOfDigits size.text.toList := by
  obtain ⟨name, element, size⟩ := t
  constructor
  · rintro ⟨r, hr⟩ size' rfl
    have hsize := hr.size
    generalize r.size = n at hsize
    cases hsize with
    | some heq => exact heq ▸ Int.natCast_nonneg _
  · intro h
    cases size with
    | none => exact ⟨⟨name, element, none⟩, rfl, rfl, .none⟩
    | some size =>
      exact ⟨⟨name, element, some _⟩, rfl, rfl, .some (Int.toNat_of_nonneg (h size rfl)).symm⟩

theorem PropertyTree.exists_means_iff (index : Nat) {t : PropertyTree} :
    (∃ p, t.Means index p) ↔
      (∀ size, t.type.size = some size → 0 ≤ Number.intOfDigits size.text.toList) ∧
        ∀ name argument, .call name argument ∈ t.attr.toList → name.text = "Order" := by
  rw [← TypeTree.exists_means_iff, ← exists_attribute_iff]
  constructor
  · rintro ⟨p, hp⟩
    exact ⟨⟨p.type, hp.type⟩, p.attr, hp.attr⟩
  · rintro ⟨⟨r, hr⟩, a, ha⟩
    exact ⟨⟨r, t.name.text, a, index, t.name.position⟩, hr, rfl, ha, rfl, rfl⟩

theorem exists_propertiesMean_iff (index : Nat) {ts : List PropertyTree} :
    (∃ ps, PropertiesMean index ts ps) ↔ ∀ t ∈ ts,
      (∀ size, t.type.size = some size → 0 ≤ Number.intOfDigits size.text.toList) ∧
        ∀ name argument, .call name argument ∈ t.attr.toList → name.text = "Order" := by
  simp only [PropertiesMean, exists_forall₂_iff, PropertyTree.exists_means_iff]
  constructor
  · intro h t ht
    obtain ⟨i, hi⟩ := List.mem_iff_getElem?.mp ht
    exact h (t, index + i) (List.mem_zipIdx_iff_le_and_getElem?_sub.mpr (by simp [hi]))
  · rintro h ⟨t, i⟩ hti
    exact h t (List.fst_mem_of_mem_zipIdx hti)

theorem exists_valueMeans {t : Token} (ht : t.terminal ∈ valueTerminals) : ∃ v, ValueMeans t v := by
  simp only [valueTerminals, List.mem_cons, List.not_mem_nil, or_false] at ht
  rcases ht with ht | ht | ht | ht | ht
  · exact ⟨_, .floating ht⟩
  · exact ⟨_, .integer ht⟩
  · exact ⟨_, .true ht⟩
  · exact ⟨_, .false ht⟩
  · exact ⟨_, .name ht⟩

theorem exists_entriesMean {ts : List EntryTree}
    (hts : ∀ t ∈ ts, t.value.terminal ∈ valueTerminals) :
    ∃ es, List.Forall₂ EntryTree.Means ts es := by
  refine exists_forall₂_iff.mpr fun t ht => ?_
  obtain ⟨v, hv⟩ := exists_valueMeans (hts t ht)
  exact ⟨⟨_, v⟩, rfl, hv⟩

/-- The statements that have a meaning. -/
theorem StatementTree.exists_means_iff {t : StatementTree} (hspelled : t.Spelled) :
    (∃ b, t.Means b) ↔ t.Admissible := by
  cases t with
  | use =>
    exact ⟨fun _ => ⟨by simp [properties], by simp [attributes]⟩, fun _ => ⟨_, .use ..⟩⟩
  | buffer name attr fields | vertexFormat name attr fields =>
    constructor
    · rintro ⟨b, h⟩
      cases h
      rename_i ha hps
      have ha := exists_attribute_iff.mp ⟨_, ha⟩
      have hps := (exists_propertiesMean_iff 0).mp ⟨_, hps⟩
      refine ⟨fun p hp => (hps p hp).1, ?_⟩
      intro name argument hmem
      rcases List.mem_append.mp hmem with hmem | hmem
      · exact ha name argument hmem
      · obtain ⟨p, hp, hmem⟩ := List.mem_flatMap.mp hmem
        exact (hps p hp).2 name argument hmem
    · rintro ⟨hsizes, hcalls⟩
      obtain ⟨a, ha⟩ := exists_attribute_iff.mpr fun name argument hmem =>
        hcalls name argument (List.mem_append_left _ hmem)
      obtain ⟨ps, hps⟩ := (exists_propertiesMean_iff 0).mpr fun p hp =>
        ⟨hsizes p hp, fun name argument hmem =>
          hcalls name argument (List.mem_append_right _ (List.mem_flatMap.mpr ⟨p, hp, hmem⟩))⟩
      constructor
      constructor
      · exact ha
      · exact hps
  | constant p | output p =>
    constructor
    · rintro ⟨b, h⟩
      cases h
      rename_i hp
      obtain ⟨hsize, hcall⟩ := (PropertyTree.exists_means_iff 0).mp ⟨_, hp⟩
      exact ⟨by simpa [properties] using hsize, hcall⟩
    · rintro ⟨hsizes, hcalls⟩
      obtain ⟨p', hp'⟩ := (PropertyTree.exists_means_iff 0).mpr
        ⟨hsizes p (List.mem_singleton.mpr rfl), hcalls⟩
      constructor
      constructor
      exact hp'
  | pipeline name entries | blendFunc name entries =>
    refine ⟨fun _ => ⟨by simp [properties], by simp [attributes]⟩, fun _ => ?_⟩
    obtain ⟨es, hes⟩ := exists_entriesMean hspelled.values
    constructor
    constructor
    exact hes

end Grammar

end AnnotatedShader
