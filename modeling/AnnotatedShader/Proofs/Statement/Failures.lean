import AnnotatedShader.Proofs.Except
import AnnotatedShader.Proofs.Statement.Parsing

set_option autoImplicit false

/-!
# Failures of parsing

A text that is not well formed is reported as a diagnostic of its file.  What is not are numbers
with too many digits (`Misread`).

The meaning of a tree is computed part by part, and each part has a lemma on what it can fail with.
The argument of an attribute is read with a check of its own, so a number that is too long there is
a diagnostic; the size of an array and the value of a state entry are read without one.
`parse_fails` has a whole text.
-/

namespace AnnotatedShader

open Failure (Diagnosed diagnosed_at)
open Grammar

namespace Statement

/-- A failure is a diagnostic, or under some condition a numeral that is not read. -/
def Misread (A : Prop) (e : Failure) : Prop := e.Diagnosed ∨ e = .numeralUnread ∧ A

variable {file : String} {A : Prop}

theorem misread_of_not {P : Prop} (h : ¬ A → P) (hP : ¬ P) : Misread A .numeralUnread :=
  .inr ⟨rfl, by_contra fun hA => hP (h hA)⟩

theorem typeOfTree_fails {t : TypeTree}
    (h : ¬ A → ∀ size, t.size = some size → HasReadableInteger size) :
    FailsOnly (Misread A) (typeOfTree file t) := by
  unfold typeOfTree
  split
  · exact failsOnly_ok _ _
  · rename_i size hsize
    split
    · rename_i hnone
      refine failsOnly_error (misread_of_not h fun hreadable => ?_)
      simp [readLiteral?_eq (hreadable size hsize)] at hnone
    · split
      · exact failsOnly_error (.inl ⟨_, rfl⟩)
      · exact failsOnly_ok _ _

theorem attributeOfTree_fails {t : AttributeTree} (hname : ¬ A → ∀ name, t = .bare name →
    ∀ c ∈ name.text.toList, Text.isNameChar c = true) (h : ¬ A → t.Readable) :
    FailsOnly (Misread A) (attributeOfTree file t) := by
  have hrefused : ∀ d, FailsOnly (Misread A) (.error (.diagnosed d) : Except Failure Attribute) :=
    fun d => failsOnly_error (.inl ⟨d, rfl⟩)
  cases t with
  | bare name =>
    rw [attributeOfTree]
    split
    · exact failsOnly_ok _ _
    · rename_i fault hfault
      refine failsOnly_error (.inr ⟨rfl, by_contra fun hA => ?_⟩)
      obtain ⟨a, ha⟩ : ∃ a, (AttributeTree.bare name).Means a :=
        AttributeTree.exists_means_iff.mpr fun _ _ heq => by contradiction
      rw [(Attribute.ofName_eq_ok_iff (hname hA name rfl) (h hA)).mpr ha] at hfault
      contradiction
  | call name argument =>
    rw [attributeOfTree]
    split
    · exact hrefused _
    · split
      · exact failsOnly_ok _ _
      · exact hrefused _

theorem attributeOfTree?_fails {t : Option AttributeTree} (hname : ¬ A → ∀ name,
    .bare name ∈ t.toList → ∀ c ∈ name.text.toList, Text.isNameChar c = true)
    (h : ¬ A → ∀ a ∈ t.toList, a.Readable) : FailsOnly (Misread A) (attributeOfTree? file t) := by
  cases t with
  | none => exact failsOnly_ok _ _
  | some t =>
    refine (attributeOfTree_fails (fun hA name heq => ?_) fun hA => ?_).map some
    · exact hname hA name (by rw [heq]; exact List.mem_singleton_self _)
    · exact h hA t (List.mem_singleton_self _)

theorem propertyOfTree_fails {index : Nat} {t : PropertyTree} (h : ¬ A → ReadableProperty t) :
    FailsOnly (Misread A) (propertyOfTree file index t) := by
  refine (typeOfTree_fails fun hA => (h hA).size).bind fun _ _ => ?_
  exact (attributeOfTree?_fails (fun hA => (h hA).names) fun hA => (h hA).attr).bind fun _ _ =>
    failsOnly_ok _ _

theorem propertiesOfTrees_fails {index : Nat} {ts : List PropertyTree}
    (h : ¬ A → ∀ t ∈ ts, ReadableProperty t) :
    FailsOnly (Misread A) (propertiesOfTrees file index ts) := by
  induction ts generalizing index with
  | nil => exact failsOnly_ok _ _
  | cons t rest ih =>
    refine (propertyOfTree_fails fun hA => h hA t List.mem_cons_self).bind fun _ _ => ?_
    exact (ih fun hA t' ht' => h hA t' (List.mem_cons_of_mem _ ht')).bind fun _ _ =>
      failsOnly_ok _ _

theorem valueOfToken_fails {t : Token} (h : ¬ A → t.terminal = .integer → HasReadableInteger t) :
    FailsOnly (Misread A) (valueOfToken t) := by
  unfold valueOfToken
  split
  · exact failsOnly_ok _ _
  · rename_i hterminal
    split
    · exact failsOnly_ok _ _
    · rename_i hnone
      refine failsOnly_error (misread_of_not h fun hreadable => ?_)
      simp [readLiteral?_eq (hreadable hterminal)] at hnone
  · exact failsOnly_ok _ _
  · exact failsOnly_ok _ _
  · exact failsOnly_ok _ _

theorem entriesOfTrees_fails {ts : List EntryTree}
    (h : ¬ A → ∀ t ∈ ts, t.value.terminal = .integer → HasReadableInteger t.value) :
    FailsOnly (Misread A) (entriesOfTrees ts) := by
  induction ts with
  | nil => exact failsOnly_ok _ _
  | cons t rest ih =>
    refine (valueOfToken_fails fun hA => h hA t List.mem_cons_self).bind fun _ _ => ?_
    exact (ih fun hA t' ht' => h hA t' (List.mem_cons_of_mem _ ht')).bind fun _ _ =>
      failsOnly_ok _ _

theorem bodyOfTree_fails {t : StatementTree} (hspelled : t.Spelled) (h : ¬ A → t.Readable) :
    FailsOnly (Misread A) (bodyOfTree file t) := by
  have hproperty : ¬ A → ∀ p ∈ t.properties, ReadableProperty p := fun hA _ =>
    readableProperty_of_mem (h hA) hspelled
  cases t with
  | use => exact failsOnly_ok _ _
  | buffer name attr fields | vertexFormat name attr fields =>
    refine (attributeOfTree?_fails (fun _ name hname => ?_) fun hA a ha => ?_).bind fun _ _ => ?_
    · exact hspelled.names name (List.mem_append_left _ hname)
    · exact (h hA).attributes a (List.mem_append_left _ ha)
    · exact (propertiesOfTrees_fails hproperty).bind fun _ _ => failsOnly_ok _ _
  | constant p | output p =>
    exact (propertyOfTree_fails fun hA => hproperty hA p (List.mem_singleton_self p)).bind
      fun _ _ => failsOnly_ok _ _
  | pipeline name entries | blendFunc name entries =>
    exact (entriesOfTrees_fails fun hA => (h hA).values).bind fun _ _ => failsOnly_ok _ _

theorem ofPhrases_fails {ps : List Phrase} (hspelled : ∀ p ∈ ps, p.tree.Spelled)
    (h : ¬ A → ∀ p ∈ ps, p.tree.Readable) : FailsOnly (Misread A) (ofPhrases file ps) := by
  induction ps with
  | nil => exact failsOnly_ok _ _
  | cons p rest ih =>
    refine (bodyOfTree_fails (hspelled p List.mem_cons_self)
      fun hA => h hA p List.mem_cons_self).bind fun _ _ => ?_
    refine (ih (fun q hq => hspelled q (List.mem_cons_of_mem _ hq)) fun hA q hq => ?_).bind
      fun _ _ => failsOnly_ok _ _
    exact h hA q (List.mem_cons_of_mem _ hq)

/-- A text is parsed, or a diagnostic tells why not, unless one of its numbers has too many
digits. -/
theorem parse_fails (file text : String) :
    FailsOnly (Misread (¬ ReadableText text)) (parse file text) := by
  simp only [parse]
  split
  · exact failsOnly_error (.inl ⟨_, rfl⟩)
  · rename_i ps hps
    have hderives := (phrasesOfScan_eq_ok_iff file).mp hps
    refine (ofPhrases_fails (fun p hp => hderives.spelled hp) fun hA p hp => ?_).bind
      fun _ _ => failsOnly_ok _ _
    exact hderives.readable (not_not.mp hA) hp

end Statement

end AnnotatedShader
