import AnnotatedShader.Proofs.Statement.Meaning
import AnnotatedShader.Text.Word
import Mathlib.Data.List.TakeWhile

set_option autoImplicit false

/-!
# Computing meanings

What is computed of a tree is its meaning, as long as its numbers have not too many digits: the
computation succeeds on every tree that has a meaning, and with nothing else.

There is one lemma for each function of the computation, of the form that it succeeds with a result
exactly if the result is a meaning of its tree.  The names of attributes may hold a slot number in
digits of any script; which of them are numbers is settled in the first section
(`orderDigits?_eq_some_iff`).  `ofPhrases_eq_ok_iff` has the statements of a list of phrases.
-/

namespace AnnotatedShader

open Grammar

/-! ## Slot numbers in names -/

namespace Attribute

open AnnotatedShader.Text

theorem toNat_lt_of_isDigit {c : Char} (h : c.isDigit = true) : c.toNat < 0x80 :=
  toNat_lt_of_isNameChar (by simp [isNameChar, Char.isAlphanum, h])

theorem decimalValue?_of_isDigit {c : Char} (h : c.isDigit = true) :
    decimalValue? c = some (Number.digitValue c) := by
  rw [decimalValue?, if_pos (toNat_lt_of_isDigit h), if_pos h]
  rfl

/-- Below the other scripts a digit of any kind is an ASCII digit. -/
theorem isDigitLike_of_lt {c : Char} (h : c.toNat < 0x80) : isDigitLike c = c.isDigit := by
  have hranges : inRanges otherDigitRanges c = false := by
    rw [Bool.eq_false_iff, ne_eq, inRanges_iff]
    rintro ⟨range, hrange, hle, _⟩
    have hall : ∀ range ∈ otherDigitRanges, 0x80 ≤ range.1 := by decide
    have := hall range hrange
    omega
  rw [isDigitLike, decimalValue?, if_pos h, hranges, Bool.or_false]
  split <;> simp_all

theorem orderDigits?_eq_some_iff {name : String} {digits : List Char}
    (hname : ∀ c ∈ name.toList, isNameChar c = true) :
    orderDigits? name.toList = some digits ↔ SpellsOrder name digits := by
  have hdigits : ∀ c ∈ name.toList, isDigitLike c = c.isDigit := fun c hc =>
    isDigitLike_of_lt (toNat_lt_of_isNameChar (hname c hc))
  unfold orderDigits? SpellsOrder
  constructor
  · intro h
    split at h
    · rename_i hprefix
      obtain ⟨behind, heq⟩ := List.isPrefixOf_iff_prefix.mp hprefix
      have hdrop : name.toList.drop "ORDER_".length = behind := by
        rw [← heq, List.drop_left' (by decide)]
      simp only [hdrop] at h
      split at h
      · simp at h
      · rename_i hsome
        obtain rfl := Option.some.inj h
        simp only [Bool.or_eq_true, List.isEmpty_iff, Bool.not_eq_true', not_or,
          Bool.not_eq_false, List.all_eq_true] at hsome
        refine ⟨heq.symm, hsome.1, fun c hc => ?_⟩
        rw [← hdigits c (heq ▸ List.mem_append_right _ hc)]
        exact hsome.2 c hc
    · simp at h
  · rintro ⟨heq, hne, hall⟩
    have hdrop : name.toList.drop "ORDER_".length = digits := by
      rw [heq, List.drop_left' (by decide)]
    have hprefix : "ORDER_".toList.isPrefixOf name.toList = true :=
      List.isPrefixOf_iff_prefix.mpr ⟨digits, heq.symm⟩
    have hlike : digits.all isDigitLike = true := by
      rw [List.all_eq_true]
      intro c hc
      rw [hdigits c (heq ▸ List.mem_append_right _ hc)]
      exact hall c hc
    rw [if_pos hprefix]
    simp [hdrop, hne, hlike]

theorem orderNumber_of_isDigit {digits : List Char} (hdigits : ∀ c ∈ digits, c.isDigit = true)
    (hlimit : digits.length ≤ Number.digitLimit) :
    orderNumber digits = .ok (Number.natOfDigits digits) := by
  have hvalues : digits.map decimalValue? = (digits.map Number.digitValue).map some := by
    rw [List.map_map]
    exact List.map_congr_left fun c hc => decimalValue?_of_isDigit (hdigits c hc)
  have hwhole : ((digits.map Number.digitValue).map some).takeWhile Option.isSome =
      (digits.map Number.digitValue).map some := by
    rw [List.takeWhile_eq_self_iff]
    simp
  have hreadable : ¬ Number.digitLimit < digits.length := Nat.not_lt.mpr hlimit
  simp only [orderNumber, hvalues, hwhole, List.length_map, hreadable, if_false, Nat.lt_irrefl,
    List.filterMap_map]
  simp [Number.natOfDigits]

/-- What a name spells. -/
theorem ofName_eq_ok_iff {name : Token} {a : Attribute}
    (hname : ∀ c ∈ name.text.toList, isNameChar c = true)
    (hlimit : (AttributeTree.bare name).Readable) :
    ofName name.text = .ok a ↔ (AttributeTree.bare name).Means a := by
  unfold ofName
  by_cases hpack : name.text = "Pack"
  · rw [if_pos hpack]
    constructor
    · intro h
      obtain rfl := Except.ok.inj h
      exact .pack hpack
    · intro h
      cases h with
      | pack => rfl
      | orderName hspells =>
        rw [SpellsOrder, hpack] at hspells
        exact absurd hspells.1 (by simp)
      | sampler hother => exact absurd hpack hother
  · rw [if_neg hpack]
    cases hdigits : orderDigits? name.text.toList with
    | none =>
      have horder : ∀ digits, ¬ SpellsOrder name.text digits := by
        intro digits hspells
        rw [← orderDigits?_eq_some_iff hname, hdigits] at hspells
        simp at hspells
      constructor
      · intro h
        obtain rfl := Except.ok.inj h
        exact .sampler hpack horder
      · intro h
        cases h with
        | pack hwrong => exact absurd hwrong hpack
        | orderName hspells => exact absurd hspells (horder _)
        | sampler => rfl
    | some digits =>
      have hspells := (orderDigits?_eq_some_iff hname).mp hdigits
      simp only [orderNumber_of_isDigit hspells.2.2 (hlimit digits hspells), Except.map]
      constructor
      · intro h
        obtain rfl := Except.ok.inj h
        exact .orderName hspells
      · intro h
        cases h with
        | pack hwrong => exact absurd hwrong hpack
        | orderName hspells' =>
          rw [← orderDigits?_eq_some_iff hname, hdigits] at hspells'
          rw [Option.some.inj hspells']
        | sampler _ horder => exact absurd hspells (horder digits)

end Attribute

/-! ## Parts of statements -/

namespace Statement

variable {file : String}

theorem readLiteral?_eq {t : Token} (h : HasReadableInteger t) :
    Number.readLiteral? t.text = some (Number.intOfDigits t.text.toList) := if_pos h

theorem typeOfTree_eq_ok_iff {t : TypeTree} {r : TypeRef}
    (hsize : ∀ size, t.size = some size → HasReadableInteger size) :
    typeOfTree file t = .ok r ↔ t.Means r := by
  obtain ⟨name, element, size⟩ := t
  cases size with
  | none =>
    constructor
    · intro h
      obtain rfl := Except.ok.inj h
      exact ⟨rfl, rfl, .none⟩
    · rintro ⟨hname, helement, hnone⟩
      obtain ⟨name', element', size'⟩ := r
      cases hnone
      rw [show name' = name from hname, show element' = element from helement]
      rfl
  | some size =>
    simp only [typeOfTree, readLiteral?_eq (hsize size rfl)]
    constructor
    · intro h
      split at h
      · simp at h
      · rename_i hnonneg
        obtain rfl := Except.ok.inj h
        refine ⟨rfl, rfl, .some ?_⟩
        rw [Int.toNat_of_nonneg (Int.not_lt.mp hnonneg)]
    · rintro ⟨hname, helement, hsome⟩
      obtain ⟨name', element', size'⟩ := r
      cases hsome with
      | @some _ n heq =>
        have hnonneg : ¬ Number.intOfDigits size.text.toList < 0 := by omega
        rw [if_neg hnonneg, heq, Int.toNat_natCast, show name' = name from hname,
          show element' = element from helement]

theorem attributeOfTree_eq_ok_iff {t : AttributeTree} {a : Attribute}
    (hname : ∀ name, t = .bare name → ∀ c ∈ name.text.toList, Text.isNameChar c = true)
    (hlimit : t.Readable) : attributeOfTree file t = .ok a ↔ t.Means a := by
  cases t with
  | bare name =>
    rw [← Attribute.ofName_eq_ok_iff (hname name rfl) hlimit]
    simp only [attributeOfTree]
    cases Attribute.ofName name.text <;> simp
  | call name argument =>
    simp only [attributeOfTree, readLiteral?_eq hlimit]
    constructor
    · intro h
      split at h
      · rename_i found hcall
        obtain rfl := Except.ok.inj h
        obtain ⟨horder, rfl⟩ := Attribute.ofCall_eq_ok_iff.mp hcall
        exact .order horder
      · simp at h
    · intro h
      cases h with
      | order horder => simp only [Attribute.ofCall_eq_ok_iff.mpr ⟨horder, rfl⟩]

theorem attributeOfTree?_eq_ok_iff {t : Option AttributeTree} {a : Option Attribute}
    (hname : ∀ name, .bare name ∈ t.toList → ∀ c ∈ name.text.toList, Text.isNameChar c = true)
    (hlimit : ∀ a ∈ t.toList, a.Readable) :
    attributeOfTree? file t = .ok a ↔ Option.Rel AttributeTree.Means t a := by
  cases t with
  | none =>
    constructor
    · intro h
      obtain rfl := Except.ok.inj h
      exact .none
    · intro h
      cases h
      rfl
  | some t =>
    simp only [Option.toList_some, List.mem_singleton] at hname hlimit
    have hiff : ∀ a, attributeOfTree file t = .ok a ↔ t.Means a := fun _ =>
      attributeOfTree_eq_ok_iff (fun name heq => hname name heq.symm) (hlimit t rfl)
    simp only [attributeOfTree?, map_eq_ok_iff]
    constructor
    · rintro ⟨a, ha, rfl⟩
      exact .some ((hiff a).mp ha)
    · intro h
      cases h with
      | some h => exact ⟨_, (hiff _).mpr h, rfl⟩

/-- A property whose numbers can be read and whose attribute is spelled with name characters. -/
structure ReadableProperty (t : PropertyTree) : Prop where
  size : ∀ size, t.type.size = some size → HasReadableInteger size
  names : ∀ name, .bare name ∈ t.attr.toList → ∀ c ∈ name.text.toList, Text.isNameChar c = true
  attr : ∀ a ∈ t.attr.toList, a.Readable

theorem propertyOfTree_eq_ok_iff {index : Nat} {t : PropertyTree} {p : Property}
    (ht : ReadableProperty t) : propertyOfTree file index t = .ok p ↔ t.Means index p := by
  simp only [propertyOfTree, bind_eq_ok_iff, typeOfTree_eq_ok_iff ht.size,
    attributeOfTree?_eq_ok_iff ht.names ht.attr]
  constructor
  · rintro ⟨type, htype, attr, hattr, h⟩
    obtain rfl := Except.ok.inj h
    exact ⟨htype, rfl, hattr, rfl, rfl⟩
  · rintro ⟨htype, hname, hattr, hindex, hposition⟩
    refine ⟨p.type, htype, p.attr, hattr, ?_⟩
    rw [← hname, ← hindex, ← hposition]

theorem propertiesOfTrees_eq_ok_iff {index : Nat} {ts : List PropertyTree} {ps : List Property}
    (hts : ∀ t ∈ ts, ReadableProperty t) :
    propertiesOfTrees file index ts = .ok ps ↔ PropertiesMean index ts ps := by
  induction ts generalizing index ps with
  | nil => simp [propertiesOfTrees, PropertiesMean, eq_comm]
  | cons t ts ih =>
    have hrest := fun ps => @ih (index + 1) ps
      fun t ht => hts t (List.mem_cons_of_mem _ ht)
    simp only [propertiesOfTrees, bind_eq_ok_iff,
      propertyOfTree_eq_ok_iff (hts t List.mem_cons_self), hrest]
    constructor
    · rintro ⟨p, hp, others, hothers, h⟩
      obtain rfl := Except.ok.inj h
      exact .cons hp hothers
    · intro h
      cases h with
      | cons hp hothers => exact ⟨_, hp, _, hothers, rfl⟩

theorem valueOfToken_eq_ok_iff {t : Token} {v : StateValue} (ht : t.terminal ∈ valueTerminals)
    (hlimit : t.terminal = .integer → HasReadableInteger t) :
    valueOfToken t = .ok v ↔ ValueMeans t v := by
  obtain ⟨terminal, text, position⟩ := t
  simp only [valueTerminals, List.mem_cons, List.not_mem_nil, or_false] at ht
  constructor
  · intro h
    rcases ht with rfl | rfl | rfl | rfl | rfl
    · obtain rfl := Except.ok.inj h
      exact .floating rfl
    · simp only [valueOfToken, readLiteral?_eq (hlimit rfl)] at h
      obtain rfl := Except.ok.inj h
      exact .integer rfl
    · obtain rfl := Except.ok.inj h
      exact .true rfl
    · obtain rfl := Except.ok.inj h
      exact .false rfl
    · obtain rfl := Except.ok.inj h
      exact .name rfl
  · intro h
    cases h with
    | floating ht | true ht | false ht | name ht =>
      obtain rfl := ht
      rfl
    | integer ht =>
      obtain rfl := ht
      simp only [valueOfToken, readLiteral?_eq (hlimit rfl)]

theorem keyOfTree_eq (t : EntryTree) :
    keyOfTree t = "::".intercalate (t.key :: t.subkey.toList) := by
  obtain ⟨key, subkey, v⟩ := t
  cases subkey with
  | none => simp [keyOfTree]
  | some subkey => simp [keyOfTree, String.append_assoc]

theorem entriesOfTrees_eq_ok_iff {ts : List EntryTree} {es : List StateEntry}
    (hts : ∀ t ∈ ts, t.value.terminal ∈ valueTerminals)
    (hlimit : ∀ t ∈ ts, t.value.terminal = .integer → HasReadableInteger t.value) :
    entriesOfTrees ts = .ok es ↔ List.Forall₂ EntryTree.Means ts es := by
  induction ts generalizing es with
  | nil => simp [entriesOfTrees, eq_comm]
  | cons t ts ih =>
    have hrest := fun es => @ih es (fun t ht => hts t (List.mem_cons_of_mem _ ht))
      fun t ht => hlimit t (List.mem_cons_of_mem _ ht)
    simp only [entriesOfTrees, bind_eq_ok_iff, hrest,
      valueOfToken_eq_ok_iff (hts t List.mem_cons_self) (hlimit t List.mem_cons_self)]
    constructor
    · rintro ⟨v, hv, others, hothers, h⟩
      obtain rfl := Except.ok.inj h
      exact .cons ⟨keyOfTree_eq t, hv⟩ hothers
    · intro h
      cases h with
      | @cons _ e _ others he hothers =>
        refine ⟨e.value, he.value, others, hothers, ?_⟩
        rw [keyOfTree_eq, ← he.key]

/-! ## Whole statements -/

theorem readableProperty_of_mem {t : StatementTree} (hreadable : t.Readable) (hspelled : t.Spelled)
    {p : PropertyTree} (hp : p ∈ t.properties) : ReadableProperty p := by
  have hattr : ∀ a ∈ p.attr.toList, a ∈ t.attributes := by
    intro a ha
    cases t with
    | buffer | vertexFormat =>
      exact List.mem_append_right _ (List.mem_flatMap.mpr ⟨p, hp, ha⟩)
    | constant | output =>
      obtain rfl := List.mem_singleton.mp hp
      exact ha
    | use | pipeline | blendFunc => simp [StatementTree.properties] at hp
  exact ⟨hreadable.sizes p hp, fun name hname => hspelled.names name (hattr _ hname),
    fun a ha => hreadable.attributes a (hattr a ha)⟩

/-- What is computed of a statement is its meaning. -/
theorem bodyOfTree_eq_ok_iff {t : StatementTree} {b : StatementBody} (hreadable : t.Readable)
    (hspelled : t.Spelled) : bodyOfTree file t = .ok b ↔ t.Means b := by
  have hproperty : ∀ p ∈ t.properties, ReadableProperty p := fun p =>
    readableProperty_of_mem hreadable hspelled
  cases t with
  | use =>
    constructor
    · intro h
      obtain rfl := Except.ok.inj h
      exact .use ..
    · intro h
      cases h
      rfl
  | buffer name attr fields | vertexFormat name attr fields =>
    have hattr : ∀ a, attributeOfTree? file attr = .ok a ↔ Option.Rel AttributeTree.Means attr a :=
      fun _ => attributeOfTree?_eq_ok_iff
        (fun name hname => hspelled.names name (List.mem_append_left _ hname))
        (fun a ha => hreadable.attributes a (List.mem_append_left _ ha))
    have hfields : ∀ p ∈ fields, ReadableProperty p := hproperty
    simp only [bodyOfTree, bind_eq_ok_iff, hattr, propertiesOfTrees_eq_ok_iff hfields]
    constructor
    · rintro ⟨a, ha, ps, hps, h⟩
      obtain rfl := Except.ok.inj h
      constructor
      · exact ha
      · exact hps
    · intro h
      cases h
      rename_i ha hps
      exact ⟨_, ha, _, hps, rfl⟩
  | constant p | output p =>
    simp only [bodyOfTree, bind_eq_ok_iff,
      propertyOfTree_eq_ok_iff (hproperty p (List.mem_singleton.mpr rfl))]
    constructor
    · rintro ⟨p', hp', h⟩
      obtain rfl := Except.ok.inj h
      constructor
      exact hp'
    · intro h
      cases h
      rename_i hp'
      exact ⟨_, hp', rfl⟩
  | pipeline name entries | blendFunc name entries =>
    have hvalues : ∀ e ∈ entries, e.value.terminal ∈ valueTerminals := hspelled.values
    simp only [bodyOfTree, bind_eq_ok_iff, entriesOfTrees_eq_ok_iff hvalues hreadable.values]
    constructor
    · rintro ⟨es, hes, h⟩
      obtain rfl := Except.ok.inj h
      constructor
      exact hes
    · intro h
      cases h
      rename_i hes
      exact ⟨_, hes, rfl⟩

theorem ofPhrases_eq_ok_iff {ps : List Phrase} {ss : List Statement}
    (htokens : ∀ p ∈ ps, p.tokens ≠ []) (hreadable : ∀ p ∈ ps, p.tree.Readable)
    (hspelled : ∀ p ∈ ps, p.tree.Spelled) :
    ofPhrases file ps = .ok ss ↔ List.Forall₂ Phrase.Means ps ss := by
  induction ps generalizing ss with
  | nil => simp [ofPhrases, eq_comm]
  | cons p ps ih =>
    have hrest := fun ss => @ih ss (fun q hq => htokens q (List.mem_cons_of_mem _ hq))
      (fun q hq => hreadable q (List.mem_cons_of_mem _ hq))
      (fun q hq => hspelled q (List.mem_cons_of_mem _ hq))
    obtain ⟨first, others, htokens⟩ := List.exists_cons_of_ne_nil (htokens p List.mem_cons_self)
    have hstart : p.start = first.position := by simp [Phrase.start, htokens]
    simp only [ofPhrases, bind_eq_ok_iff, hrest,
      bodyOfTree_eq_ok_iff (hreadable p List.mem_cons_self) (hspelled p List.mem_cons_self)]
    constructor
    · rintro ⟨b, hb, rest, hss, h⟩
      obtain rfl := Except.ok.inj h
      exact .cons ⟨⟨first, others, htokens, hstart⟩, hb⟩ hss
    · intro h
      cases h with
      | @cons _ s _ rest hs hss =>
        obtain ⟨⟨first', others', htokens', hposition⟩, hb⟩ := hs
        rw [htokens] at htokens'
        obtain ⟨rfl, rfl⟩ := List.cons.inj htokens'
        exact ⟨s.body, hb, rest, hss, by rw [hstart, ← hposition]⟩

end Statement

end AnnotatedShader
