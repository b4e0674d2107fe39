import AnnotatedShader.Proofs.Except
import Mathlib.Data.List.Forall2
import Mathlib.Data.List.Nodup

set_option autoImplicit false

/-!
# Lists

Facts about lists that the steps of a batch are made of: lists whose keys differ, lists whose
elements are paired by a relation, and runs over a list that leave some of its elements out.

Two lists that are built side by side are paired by `Forall₂`, and a run of `mapM` over one is such
a pairing of what goes in with what comes out (`exists_mapM_eq_ok_iff`).  `Without` relates a list
to one from which some elements are dropped; a run over the longer list is a run over the shorter
one, as far as that goes.
-/

/-!
## Lists with distinct keys

An element whose key no other element of the list has.
-/

namespace AnnotatedShader

/-- In a list of pairs with distinct keys a key is found with whatever it stands with. -/
theorem lookup_eq_some_iff_of_nodup {κ γ : Type} [BEq κ] [LawfulBEq κ] {entries : List (κ × γ)}
    (hkeys : (entries.map Prod.fst).Nodup) {k : κ} {c : γ} :
    entries.lookup k = some c ↔ (k, c) ∈ entries := by
  constructor
  · intro h
    obtain ⟨before, after, rfl, _⟩ := List.lookup_eq_some_iff.mp h
    simp
  · intro h
    obtain ⟨before, after, rfl⟩ := List.append_of_mem h
    refine List.lookup_eq_some_iff.mpr ⟨before, after, rfl, ?_⟩
    intro entry hentry
    rw [List.map_append, List.nodup_append] at hkeys
    have hne := hkeys.2.2 entry.1 (List.mem_map_of_mem hentry) k (by simp)
    simpa using Ne.symm hne

variable {α β : Type} [DecidableEq β] {key : α → β}

/-- What one of several distinct elements gives is all that comes of them if no other gives
anything. -/
theorem flatMap_single {bs : List β} (hbs : bs.Nodup) {b : β} (hb : b ∈ bs) {as : List α} :
    (bs.flatMap fun other => if b = other then as else []) = as := by
  obtain ⟨before, after, rfl⟩ := List.append_of_mem hb
  obtain ⟨_, hafter, hbefore⟩ := List.nodup_append.mp hbs
  have hnone : ∀ other ∈ before, b ≠ other := fun other hother heq =>
    hbefore other hother b List.mem_cons_self heq.symm
  have hnone' : ∀ other ∈ after, b ≠ other := fun other hother heq =>
    (List.nodup_cons.mp hafter).1 (heq ▸ hother)
  rw [List.flatMap_append, List.flatMap_cons, if_pos rfl,
    List.flatMap_eq_nil_iff.mpr fun other hother => if_neg (hnone other hother),
    List.flatMap_eq_nil_iff.mpr fun other hother => if_neg (hnone' other hother),
    List.nil_append, List.append_nil]

theorem filter_key_eq_singleton {as : List α} (hkeys : (as.map key).Nodup) {a : α} (ha : a ∈ as) :
    (as.filter fun b => key b = key a) = [a] := by
  induction as with
  | nil => simp at ha
  | cons first rest ih =>
    obtain ⟨hfresh, hrest⟩ := List.nodup_cons.mp hkeys
    by_cases hfirst : first = a
    · subst hfirst
      have hnone : ∀ b ∈ rest, ¬ key b = key first := fun b hb heq =>
        hfresh (List.mem_map.mpr ⟨b, hb, heq⟩)
      simpa using hnone
    · have ha := (List.mem_cons.mp ha).resolve_left (Ne.symm hfirst)
      have hother : ¬ key first = key a := fun heq => hfresh (List.mem_map.mpr ⟨a, ha, heq.symm⟩)
      simpa [hother] using ih hrest ha

/-- Lists with distinct keys that have the same elements of a key have these alone. -/
theorem filter_key_eq {as bs : List α} (has : (as.map key).Nodup) (hbs : (bs.map key).Nodup) {k : β}
    (hsame : ∀ a, key a = k → (a ∈ as ↔ a ∈ bs)) :
    (as.filter fun a => key a = k) = bs.filter fun a => key a = k := by
  by_cases hany : ∃ a ∈ as, key a = k
  · obtain ⟨a, ha, rfl⟩ := hany
    rw [filter_key_eq_singleton has ha, filter_key_eq_singleton hbs ((hsame a rfl).mp ha)]
  · have hnone : ∀ a, key a = k → a ∉ as := fun a hk ha => hany ⟨a, ha, hk⟩
    rw [List.filter_eq_nil_iff.mpr fun a ha hk => hnone a (of_decide_eq_true hk) ha,
      List.filter_eq_nil_iff.mpr fun a ha hk =>
        hnone a (of_decide_eq_true hk) ((hsame a (of_decide_eq_true hk)).mpr ha)]

/-! ## Lists sorted by a key -/

section Keys

variable {α : Type} {key : α → Nat} {as : List α} (h : as.Pairwise fun a b => key a ≤ key b)

include h

/-- In a sorted list the elements of a key stand behind those of smaller keys. -/
theorem filter_lt_append_filter_eq (n : Nat) :
    as.filter (fun a => key a < n) ++ as.filter (fun a => key a == n) =
      as.filter fun a => key a < n + 1 := by
  induction as with
  | nil => rfl
  | cons a rest ih =>
    obtain ⟨hfirst, hrest⟩ := List.pairwise_cons.mp h
    by_cases hlt : key a < n
    · rw [List.filter_cons_of_pos (by simpa using hlt), List.filter_cons_of_neg (by simp; omega),
        List.filter_cons_of_pos (by simp; omega), List.cons_append, ih hrest]
    · -- No later element has a smaller key.
      have hnone : (a :: rest).filter (fun a => key a < n) = [] := by
        refine List.filter_eq_nil_iff.mpr fun b hb => ?_
        rcases List.mem_cons.mp hb with rfl | hb
        · simpa using hlt
        · have hle := hfirst b hb
          simp only [decide_eq_true_eq]
          omega
      rw [hnone, List.nil_append]
      refine List.filter_congr fun b hb => ?_
      have hge : n ≤ key b := by
        rcases List.mem_cons.mp hb with rfl | hb
        · exact Nat.le_of_not_lt hlt
        · exact Nat.le_trans (Nat.le_of_not_lt hlt) (hfirst b hb)
      rw [Bool.eq_iff_iff, beq_iff_eq, decide_eq_true_iff]
      omega

/-- Taken key by key, the elements of a sorted list stay in their order. -/
theorem flatMap_range_filter (n : Nat) :
    ((List.range n).flatMap fun k => as.filter fun a => key a == k) =
      as.filter fun a => key a < n := by
  induction n with
  | zero => simp
  | succ n ih =>
    rw [List.range_succ, List.flatMap_append, ih, List.flatMap_singleton,
      filter_lt_append_filter_eq h]

end Keys

end AnnotatedShader

/-!
## Lists paired by a relation

What stands on one side of two lists of equal length has a partner on the other side.
-/

namespace AnnotatedShader

variable {α β γ : Type} {R : α → β → Prop}

theorem exists_left_of_forall₂ {as : List α} {bs : List β} (h : List.Forall₂ R as bs) {b : β}
    (hb : b ∈ bs) : ∃ a ∈ as, R a b := by
  induction h with
  | nil => simp at hb
  | cons hab _ ih =>
    rcases List.mem_cons.mp hb with rfl | hb
    · exact ⟨_, List.mem_cons_self, hab⟩
    · obtain ⟨a, ha, hr⟩ := ih hb
      exact ⟨a, List.mem_cons_of_mem _ ha, hr⟩

theorem exists_right_of_forall₂ {as : List α} {bs : List β} (h : List.Forall₂ R as bs) {a : α}
    (ha : a ∈ as) : ∃ b ∈ bs, R a b := by
  obtain ⟨b, hb, hr⟩ := exists_left_of_forall₂ h.flip ha
  exact ⟨b, hb, hr⟩

/-- An element of two lists zipped together comes from a pair. -/
theorem exists_of_mem_zipWith {as : List α} {bs : List β} {f : α → β → γ}
    (h : List.Forall₂ R as bs) {c : γ} (hc : c ∈ List.zipWith f as bs) :
    ∃ a ∈ as, ∃ b, R a b ∧ c = f a b := by
  induction h with
  | nil => simp at hc
  | cons hab _ ih =>
    rcases List.mem_cons.mp hc with rfl | hc
    · exact ⟨_, List.mem_cons_self, _, hab, rfl⟩
    · obtain ⟨a, ha, b, hr, heq⟩ := ih hc
      exact ⟨a, List.mem_cons_of_mem _ ha, b, hr, heq⟩

/-- What two lists zipped together keep of the first one is the start of it. -/
theorem map_zipWith_isPrefix {δ : Type} {f : α → β → γ} {g : γ → δ} {k : α → δ}
    (h : ∀ a b, g (f a b) = k a) (as : List α) (bs : List β) :
    (List.zipWith f as bs).map g <+: as.map k := by
  induction as generalizing bs with
  | nil => exact List.nil_prefix
  | cons a as ih =>
    cases bs with
    | nil => exact List.nil_prefix
    | cons b bs =>
      rw [List.zipWith_cons_cons, List.map_cons, List.map_cons, h]
      exact (List.prefix_cons_inj _).mpr (ih bs)

theorem exists_forall₂_iff {as : List α} :
    (∃ bs, List.Forall₂ R as bs) ↔ ∀ a ∈ as, ∃ b, R a b := by
  constructor
  · rintro ⟨bs, h⟩ a ha
    obtain ⟨b, _, hr⟩ := exists_right_of_forall₂ h ha
    exact ⟨b, hr⟩
  · intro h
    induction as with
    | nil => exact ⟨[], .nil⟩
    | cons a rest ih =>
      obtain ⟨b, hb⟩ := h a List.mem_cons_self
      obtain ⟨bs, hbs⟩ := ih fun a' ha' => h a' (List.mem_cons_of_mem _ ha')
      exact ⟨b :: bs, .cons hb hbs⟩

theorem forall₂_imp_of_mem {S : α → β → Prop} {as : List α} {bs : List β}
    (h : List.Forall₂ R as bs) (himp : ∀ a, ∀ b ∈ bs, R a b → S a b) : List.Forall₂ S as bs := by
  induction h with
  | nil => exact .nil
  | cons hab _ ih =>
    exact .cons (himp _ _ List.mem_cons_self hab)
      (ih fun a b hb => himp a b (List.mem_cons_of_mem _ hb))

/-- Partners of partners are paired. -/
theorem forall₂_trans {S : β → γ → Prop} {T : α → γ → Prop} {as : List α} {bs : List β}
    {cs : List γ}
    (hab : List.Forall₂ R as bs) (hbc : List.Forall₂ S bs cs)
    (h : ∀ a b c, R a b → S b c → T a c) : List.Forall₂ T as cs := by
  induction hab generalizing cs with
  | nil =>
    cases hbc
    exact .nil
  | cons hr _ ih =>
    cases hbc with
    | cons hs hrest => exact .cons (h _ _ _ hr hs) (ih hrest)

/-- The partners of two lists behind each other are behind each other. -/
theorem exists_append_of_forall₂ {as as' : List α} {bs : List β}
    (h : List.Forall₂ R (as ++ as') bs) :
    ∃ cs cs', bs = cs ++ cs' ∧ List.Forall₂ R as cs ∧ List.Forall₂ R as' cs' := by
  induction as generalizing bs with
  | nil => exact ⟨[], bs, rfl, .nil, h⟩
  | cons a as ih =>
    cases h with
    | cons hab hrest =>
      obtain ⟨cs, cs', rfl, hcs, hcs'⟩ := ih hrest
      exact ⟨_ :: cs, cs', rfl, .cons hab hcs, hcs'⟩

theorem map_eq_of_forall₂ {as : List α} {bs : List β} (h : List.Forall₂ R as bs) {f : α → γ}
    {g : β → γ} (hfg : ∀ a b, R a b → g b = f a) : bs.map g = as.map f := by
  induction h with
  | nil => rfl
  | cons hab _ ih => rw [List.map_cons, List.map_cons, hfg _ _ hab, ih]

/-- What a step that may fail makes of each element of a list. -/
theorem forall₂_of_mapM {ε : Type} {f : α → Except ε β} {as : List α} {bs : List β}
    (h : as.mapM f = .ok bs) : List.Forall₂ (fun a b => f a = .ok b) as bs := by
  induction as generalizing bs with
  | nil =>
    obtain rfl : [] = bs := Except.ok.inj h
    exact .nil
  | cons a rest ih =>
    simp only [List.mapM_cons, bind_eq_ok_iff] at h
    obtain ⟨b, hb, others, hothers, h⟩ := h
    obtain rfl : b :: others = bs := Except.ok.inj h
    exact .cons hb (ih hothers)

theorem mapM_of_forall₂ {ε : Type} {f : α → Except ε β} {as : List α} {bs : List β}
    (h : List.Forall₂ (fun a b => f a = .ok b) as bs) : as.mapM f = .ok bs := by
  induction h with
  | nil => rfl
  | cons hb _ ih =>
    simp only [List.mapM_cons, bind_eq_ok_iff]
    exact ⟨_, hb, _, ih, rfl⟩

/-- A step can be made on a list if it can be made on each of its elements. -/
theorem exists_mapM_eq_ok_iff {ε : Type} {f : α → Except ε β} {as : List α} :
    (∃ bs, as.mapM f = .ok bs) ↔ ∀ a ∈ as, ∃ b, f a = .ok b := by
  rw [← exists_forall₂_iff]
  exact ⟨fun ⟨bs, hbs⟩ => ⟨bs, forall₂_of_mapM hbs⟩, fun ⟨bs, hbs⟩ => ⟨bs, mapM_of_forall₂ hbs⟩⟩

/-- Where a step succeeds on a list, a step that follows it succeeds on a list of partners. -/
theorem exists_mapM_of_forall₂ {ε δ : Type} {S : γ → δ → Prop} {f : α → Except ε γ}
    {g : β → Except ε δ} {as : List α} {bs : List β} {cs : List γ} (h : List.Forall₂ R as bs)
    (hstep : ∀ a ∈ as, ∀ b c, R a b → f a = .ok c → ∃ d, g b = .ok d ∧ S c d)
    (hcs : as.mapM f = .ok cs) : ∃ ds, bs.mapM g = .ok ds ∧ List.Forall₂ S cs ds := by
  have hf := forall₂_of_mapM hcs
  clear hcs
  induction h generalizing cs with
  | nil =>
    cases hf
    exact ⟨[], rfl, .nil⟩
  | cons hr _ ih =>
    cases hf with
    | cons hc hothers =>
      obtain ⟨d, hd, hs⟩ := hstep _ List.mem_cons_self _ _ hr hc
      obtain ⟨ds, hds, hrest⟩ := ih (fun a ha => hstep a (List.mem_cons_of_mem _ ha)) hothers
      refine ⟨d :: ds, ?_, .cons hs hrest⟩
      simp only [List.mapM_cons, bind_eq_ok_iff]
      exact ⟨d, hd, ds, hds, rfl⟩

/-- Two steps on each element succeed together or one after the other. -/
theorem mapM_bind_eq_ok_iff {ε : Type} {f : α → Except ε β} {g : β → Except ε γ} {as : List α}
    {cs : List γ} : (as.mapM fun a => f a >>= g) = .ok cs ↔
      ∃ bs, as.mapM f = .ok bs ∧ bs.mapM g = .ok cs := by
  constructor
  · intro h
    have hpairs := forall₂_of_mapM h
    clear h
    induction hpairs with
    | nil => exact ⟨[], rfl, rfl⟩
    | cons hc _ ih =>
      obtain ⟨b, hb, hc⟩ := bind_eq_ok_iff.mp hc
      obtain ⟨bs, hbs, hcs⟩ := ih
      refine ⟨b :: bs, mapM_of_forall₂ (.cons hb (forall₂_of_mapM hbs)), ?_⟩
      exact mapM_of_forall₂ (.cons hc (forall₂_of_mapM hcs))
  · rintro ⟨bs, hbs, hcs⟩
    have hpairs := forall₂_of_mapM hbs
    clear hbs
    induction hpairs generalizing cs with
    | nil => exact hcs
    | cons hb _ ih =>
      simp only [List.mapM_cons, bind_eq_ok_iff] at hcs
      obtain ⟨c, hc, rest, hrest, hcs⟩ := hcs
      obtain rfl : c :: rest = cs := Except.ok.inj hcs
      exact mapM_of_forall₂ (.cons (bind_eq_ok_iff.mpr ⟨_, hb, hc⟩) (forall₂_of_mapM (ih hrest)))

end AnnotatedShader

/-!
## Lists without some elements

Two runs over a list, of which the second leaves some elements out, stay related if each step keeps
the relation of the elements that are left.
-/

namespace AnnotatedShader

/-- The second list is the first without those elements that are left out, up to a relation. -/
inductive Without {α β : Type} (out : α → Prop) (R : α → β → Prop) : List α → List β → Prop
  | nil : Without out R [] []
  | keep {a : α} {b : β} {as : List α} {bs : List β} :
    ¬ out a → R a b → Without out R as bs → Without out R (a :: as) (b :: bs)
  | drop {a : α} {as : List α} {bs : List β} :
    out a → Without out R as bs → Without out R (a :: as) bs

namespace Without

variable {α β γ δ : Type} {out : α → Prop} {R : α → β → Prop}

theorem forall₂ [DecidablePred out] {as : List α} {bs : List β} (h : Without out R as bs) :
    List.Forall₂ R (as.filter fun a => ¬ out a) bs := by
  induction h with
  | nil => exact .nil
  | keep hin hr _ ih =>
    rw [List.filter_cons_of_pos (by simpa using hin)]
    exact .cons hr ih
  | drop hout _ ih =>
    rw [List.filter_cons_of_neg (by simpa using hout)]
    exact ih

theorem of_filter [DecidablePred out] (as : List α) :
    Without out (· = ·) as (as.filter fun a => ¬ out a) := by
  induction as with
  | nil => exact .nil
  | cons a rest ih =>
    by_cases hout : out a
    · rw [List.filter_cons_of_neg (by simpa using hout)]
      exact .drop hout ih
    · rw [List.filter_cons_of_pos (by simpa using hout)]
      exact .keep hout rfl ih

/-- Steps that succeed on the first list succeed on the second one, with related results. -/
theorem mapM {ε : Type} {f : α → Except ε γ} {g : β → Except ε δ} {out' : γ → Prop}
    {S : γ → δ → Prop} {as : List α} {bs : List β} {cs : List γ} (h : Without out R as bs)
    (hstep : ∀ a ∈ as, ∀ b c, ¬ out a → R a b → f a = .ok c → ∃ d, g b = .ok d ∧ S c d)
    (hout : ∀ a ∈ as, ∀ c, f a = .ok c → (out a ↔ out' c)) (hrun : as.mapM f = .ok cs) :
    ∃ ds, bs.mapM g = .ok ds ∧ Without out' S cs ds := by
  induction h generalizing cs with
  | nil =>
    obtain rfl : [] = cs := Except.ok.inj hrun
    exact ⟨[], rfl, .nil⟩
  | @keep a b as bs hin hr _ ih =>
    simp only [List.mapM_cons, bind_eq_ok_iff] at hrun
    obtain ⟨c, hc, cs', hcs, hrun⟩ := hrun
    obtain rfl : c :: cs' = cs := Except.ok.inj hrun
    obtain ⟨d, hd, hs⟩ := hstep a List.mem_cons_self b c hin hr hc
    obtain ⟨ds, hds, hrest⟩ := ih (fun a ha => hstep a (List.mem_cons_of_mem _ ha))
      (fun a ha => hout a (List.mem_cons_of_mem _ ha)) hcs
    refine ⟨d :: ds, ?_, .keep (fun hc' => hin ((hout a List.mem_cons_self c hc).mpr hc')) hs hrest⟩
    simp only [List.mapM_cons, bind_eq_ok_iff]
    exact ⟨d, hd, ds, hds, rfl⟩
  | @drop a as bs hleft _ ih =>
    simp only [List.mapM_cons, bind_eq_ok_iff] at hrun
    obtain ⟨c, hc, cs', hcs, hrun⟩ := hrun
    obtain rfl : c :: cs' = cs := Except.ok.inj hrun
    obtain ⟨ds, hds, hrest⟩ := ih (fun a ha => hstep a (List.mem_cons_of_mem _ ha))
      (fun a ha => hout a (List.mem_cons_of_mem _ ha)) hcs
    exact ⟨ds, hds, .drop ((hout a List.mem_cons_self c hc).mp hleft) hrest⟩

end Without

end AnnotatedShader
