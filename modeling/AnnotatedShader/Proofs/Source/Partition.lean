import AnnotatedShader.Proofs.Source.Comments
import Mathlib.Algebra.Group.Nat.Even

set_option autoImplicit false

/-!
# The partition of a source

Sentinels open and close blocks in turn, so a line stands outside all blocks exactly if sentinels
have come in pairs in front of it (`Outside`).  This tells what each line is for by itself, and all
that the reader gives describes this one partition of the lines: the blocks, the directives, the
stage, the annotation text, and what is reported in their place.

`roleOf` is the role of a line by what it is and what is in front of it, and `getElem?_roles` that
the reader, which walks over the lines with a state, gives every line this role.  Blocks are pairs
of sentinels (`blocksFrom_roles`), and directives are lines of their own (`mem_directives_iff`).

`Rejected` has one case for each way in which a source is not read, and they exclude each other
(`Rejected.unique`).  `Partition` has one field for each part of a source that is.
-/

namespace AnnotatedShader.Source

open AnnotatedShader.Text

/-! ## Lines and pairs of sentinels -/

/-- The numbers of the sentinels among lines that are numbered from `n` on. -/
def sentinelsFrom (n : Nat) (ls : List String) : List Nat :=
  (ls.zipIdx n).filterMap fun entry => if isSentinel entry.1 then some entry.2 else none

/-- The numbers of the sentinels of a source. -/
def sentinels (ls : List String) : List Nat := sentinelsFrom 1 ls

/-- The blocks between consecutive pairs of sentinels. -/
def pairs : List Nat → List Block
  | opening :: closing :: rest => ⟨opening, closing⟩ :: pairs rest
  | _ => []

/-- Sentinels come in pairs in front of a line. -/
def Outside (ls : List String) (k : Nat) : Prop := Even ((ls.take k).countP isSentinel)

/-- A line outside all blocks is a stage directive. -/
structure StageLine (ls : List String) (k : Nat) (line value : String) : Prop where
  found : ls[k]? = some line
  outside : Outside ls k
  value : directiveValue? line = some value

/-- All stage directives name stages. -/
def StagesKnown (ls : List String) : Prop :=
  ∀ k line value, StageLine ls k line value → (Stage.ofName? value).isSome = true

/-- What is reported of lines that cannot be read: the first stage directive that names no stage, or
else the last sentinel, if there is none to close its block. -/
inductive Rejected (file : String) (ls : List String) : Diagnostic → Prop
  | unknownStage {k : Nat} {line value : String} (hline : StageLine ls k line value)
    (hvalue : Stage.ofName? value = none)
    (hfirst : ∀ j < k, ∀ line value, StageLine ls j line value →
      (Stage.ofName? value).isSome = true) :
    Rejected file ls ⟨file, ⟨k + 1, markColumn line⟩, .unknownStage value⟩
  | unterminated {last : Nat} (hknown : StagesKnown ls) (hodd : ¬ Even (sentinels ls).length)
    (hlast : (sentinels ls).getLast? = some last) :
    Rejected file ls ⟨file, ⟨last, 1⟩, .unterminatedBlock⟩

theorem sentinelsFrom_cons (n : Nat) (line : String) (rest : List String) :
    sentinelsFrom n (line :: rest) =
      if isSentinel line then n :: sentinelsFrom (n + 1) rest else sentinelsFrom (n + 1) rest := by
  rw [sentinelsFrom, List.zipIdx_cons, List.filterMap_cons]
  split <;> rename_i heq <;> split at heq <;> simp_all [sentinelsFrom]

theorem mem_sentinels_iff {ls : List String} {n : Nat} :
    n ∈ sentinels ls ↔ ∃ k line, n = k + 1 ∧ ls[k]? = some line ∧ isSentinel line = true := by
  simp only [sentinels, sentinelsFrom, List.mem_filterMap, Option.ite_none_right_eq_some,
    Option.some.injEq, Prod.exists, List.mk_mem_zipIdx_iff_le_and_getElem?_sub]
  constructor
  · rintro ⟨line, n, ⟨hle, hline⟩, hsentinel, rfl⟩
    exact ⟨n - 1, line, by omega, hline, hsentinel⟩
  · rintro ⟨k, line, rfl, hline, hsentinel⟩
    exact ⟨line, k + 1, ⟨by omega, hline⟩, hsentinel, rfl⟩

/-- Sentinels are numbered in the order of the source. -/
theorem sentinelsFrom_pairwise (n : Nat) (ls : List String) :
    (sentinelsFrom n ls).Pairwise (· < ·) ∧ ∀ k ∈ sentinelsFrom n ls, n ≤ k := by
  induction ls generalizing n with
  | nil => exact ⟨.nil, by simp [sentinelsFrom]⟩
  | cons line rest ih =>
    obtain ⟨hrest, hle⟩ := ih (n + 1)
    rw [sentinelsFrom_cons]
    split
    · exact ⟨List.pairwise_cons.mpr ⟨hle, hrest⟩,
        List.forall_mem_cons.mpr ⟨Nat.le_refl n, fun k hk => Nat.le_of_succ_le (hle k hk)⟩⟩
    · exact ⟨hrest, fun k hk => Nat.le_of_succ_le (hle k hk)⟩

/-- The sentinels of a pair are in order. -/
theorem opening_lt_closing {ns : List Nat} (h : ns.Pairwise (· < ·)) :
    ∀ b ∈ pairs ns, b.opening < b.closing := by
  fun_induction pairs ns with
  | case1 opening closing rest ih =>
    obtain ⟨hopening, hrest⟩ := List.pairwise_cons.mp h
    exact List.forall_mem_cons.mpr ⟨hopening closing List.mem_cons_self,
      ih (List.pairwise_cons.mp hrest).2⟩
  | case2 => simp

/-! ## Roles -/

/-- The role of a line, by whether it is in a block. -/
def roleOf (inside : Bool) (line : String) : LineRole :=
  if inside then insideRole line else outsideRole line

theorem rolesFrom_cons (inside : Bool) (line : String) (rest : List String) :
    rolesFrom inside (line :: rest) =
      roleOf inside line :: rolesFrom (inside ^^ isSentinel line) rest := by
  cases inside with
  | true => rw [rolesFrom, Bool.true_xor]; rfl
  | false => rw [rolesFrom, Bool.false_xor]; rfl

theorem outside_succ_iff {line : String} {rest : List String} {k : Nat} :
    Outside (line :: rest) (k + 1) ↔ (Outside rest k ↔ isSentinel line = false) := by
  rw [Outside, Outside, List.take_succ_cons, List.countP_cons]
  cases isSentinel line with
  | true => simp [Nat.even_add_one]
  | false => simp

instance (ls : List String) (k : Nat) : Decidable (Outside ls k) :=
  inferInstanceAs (Decidable (Even _))

/-- Each line has the role that the number of sentinels in front of it gives it. -/
theorem getElem?_rolesFrom (inside : Bool) (ls : List String) (k : Nat) :
    (rolesFrom inside ls)[k]? =
      ls[k]?.map (roleOf (decide (¬ (Outside ls k ↔ inside = false)))) := by
  induction ls generalizing inside k with
  | nil => cases inside <;> simp [rolesFrom]
  | cons line rest ih =>
    rw [rolesFrom_cons]
    cases k with
    | zero => cases inside <;> simp [Outside]
    | succ k =>
      rw [List.getElem?_cons_succ, List.getElem?_cons_succ, ih]
      congr 3
      rw [outside_succ_iff]
      cases inside <;> cases isSentinel line <;> simp

theorem getElem?_roles (ls : List String) (k : Nat) :
    (roles ls)[k]? = ls[k]?.map (roleOf (!decide (Outside ls k))) := by
  rw [roles, getElem?_rolesFrom]
  simp

/-- A sentinel is no stage directive. -/
theorem directiveValue?_of_isSentinel {line : String} (h : isSentinel line = true) :
    directiveValue? line = none := by
  rw [isSentinel, beq_iff_eq] at h
  rw [directiveValue?, h]
  decide +kernel

/-! ## Blocks -/

/-- The blocks are the pairs of sentinels; `opened` is one that has opened a block in front. -/
theorem blocksFrom_eq_pairs (n : Nat) (opened : Option Nat) (ls : List String) :
    blocksFrom n opened (rolesFrom opened.isSome ls) =
      pairs (opened.toList ++ sentinelsFrom n ls) := by
  induction ls generalizing n opened with
  | nil => cases opened <;> rfl
  | cons line rest ih =>
    rw [rolesFrom_cons, sentinelsFrom_cons]
    cases opened with
    | none =>
      have hopening := ih (n + 1) (some n)
      have hrest := ih (n + 1) none
      rw [roleOf, Option.isSome_none, if_neg Bool.false_ne_true, Bool.false_xor, outsideRole]
      cases isSentinel line with
      | true => exact hopening
      | false => cases directiveValue? line <;> exact hrest
    | some start =>
      have hclosing := ih (n + 1) none
      have hrest := ih (n + 1) (some start)
      rw [roleOf, Option.isSome_some, if_pos rfl, Bool.true_xor, insideRole]
      cases isSentinel line with
      | true => exact congrArg (⟨start, n⟩ :: ·) hclosing
      | false => exact hrest

/-- A block is left open exactly if a sentinel has no partner, which is the last one. -/
theorem unclosedFrom_eq (n : Nat) (opened : Option Nat) (ls : List String) :
    unclosedFrom n opened (rolesFrom opened.isSome ls) =
      if Even (opened.toList ++ sentinelsFrom n ls).length then none
      else (opened.toList ++ sentinelsFrom n ls).getLast? := by
  induction ls generalizing n opened with
  | nil => cases opened <;> simp [rolesFrom, unclosedFrom, sentinelsFrom]
  | cons line rest ih =>
    rw [rolesFrom_cons, sentinelsFrom_cons]
    cases opened with
    | none =>
      have hopening := ih (n + 1) (some n)
      have hrest := ih (n + 1) none
      rw [roleOf, Option.isSome_none, if_neg Bool.false_ne_true, Bool.false_xor, outsideRole]
      cases isSentinel line with
      | true => exact hopening
      | false => cases directiveValue? line <;> exact hrest
    | some start =>
      have hclosing := ih (n + 1) none
      have hrest := ih (n + 1) (some start)
      rw [roleOf, Option.isSome_some, if_pos rfl, Bool.true_xor, insideRole]
      cases isSentinel line with
      | true =>
        refine hclosing.trans ?_
        cases sentinelsFrom (n + 1) rest <;> simp [Nat.even_add_one]
      | false => exact hrest

theorem blocksFrom_roles (ls : List String) :
    blocksFrom 1 none (roles ls) = pairs (sentinels ls) :=
  blocksFrom_eq_pairs 1 none ls

theorem unclosedFrom_roles (ls : List String) :
    unclosedFrom 1 none (roles ls) =
      if Even (sentinels ls).length then none else (sentinels ls).getLast? :=
  unclosedFrom_eq 1 none ls

/-! ## Stage directives -/

theorem roleOf_eq_directive_iff {inside : Bool} {line value : String} :
    roleOf inside line = .directive value ↔ inside = false ∧ directiveValue? line = some value := by
  cases inside with
  | true =>
    rw [roleOf, if_pos rfl, insideRole]
    split <;> simp
  | false =>
    rw [roleOf, if_neg Bool.false_ne_true, outsideRole]
    split
    · rename_i hsentinel
      simp [directiveValue?_of_isSentinel hsentinel]
    · cases directiveValue? line <;> simp

theorem roleOf_eq_marker_iff {inside : Bool} {line : String} :
    (roleOf inside line = .opening ∨ roleOf inside line = .closing) ↔ isSentinel line = true := by
  cases inside with
  | true =>
    rw [roleOf, if_pos rfl, insideRole]
    split <;> simp_all
  | false =>
    rw [roleOf, if_neg Bool.false_ne_true, outsideRole]
    split
    · simp_all
    · cases directiveValue? line <;> simp_all

/-- The directive that a numbered line with its role is. -/
def directiveAt? (entry : (String × LineRole) × Nat) : Option Directive :=
  match entry.1.2 with
  | .directive value => some ⟨entry.2, markColumn entry.1.1, value⟩
  | _ => none

theorem directivesFrom_eq (n : Nat) (es : List (String × LineRole)) :
    directivesFrom n es = (es.zipIdx n).filterMap directiveAt? := by
  induction es generalizing n with
  | nil => rfl
  | cons e rest ih =>
    obtain ⟨line, role⟩ := e
    rw [List.zipIdx_cons, List.filterMap_cons]
    cases role with
    | directive value => exact congrArg _ (ih (n + 1))
    | opening | closing | annotated | body => exact ih (n + 1)

theorem directiveAt?_eq_some_iff {line : String} {role : LineRole} {n : Nat} {d : Directive} :
    directiveAt? ((line, role), n) = some d ↔
      role = .directive d.value ∧ d.line = n ∧ d.column = markColumn line := by
  obtain ⟨_, _, value⟩ := d
  cases role with
  | directive value' =>
    simp only [directiveAt?, Option.some.injEq, Directive.mk.injEq, LineRole.directive.injEq]
    constructor
    · rintro ⟨rfl, rfl, rfl⟩
      exact ⟨rfl, rfl, rfl⟩
    · rintro ⟨rfl, rfl, rfl⟩
      exact ⟨rfl, rfl, rfl⟩
  | opening | closing | annotated | body => simp [directiveAt?]

/-- Stage directives are in the order of the source. -/
theorem directivesFrom_pairwise (n : Nat) (es : List (String × LineRole)) :
    (directivesFrom n es).Pairwise fun d d' => d.line < d'.line := by
  rw [directivesFrom_eq, List.pairwise_filterMap]
  refine (List.pairwise_iff_getElem.mpr fun i j hi hj hlt => ?_ :
    (es.zipIdx n).Pairwise fun e e' => e.2 < e'.2).imp fun {e e'} hlt d hd d' hd' => ?_
  · simpa using hlt
  · rw [(directiveAt?_eq_some_iff.mp hd).2.1, (directiveAt?_eq_some_iff.mp hd').2.1]
    exact hlt

/-- The stage directives of a source. -/
def directives (ls : List String) : List Directive := directivesFrom 1 (ls.zip (roles ls))

theorem mem_directives_iff {ls : List String} {d : Directive} :
    d ∈ directives ls ↔ ∃ k line, StageLine ls k line d.value ∧ d.line = k + 1 ∧
      d.column = markColumn line := by
  simp only [directives, directivesFrom_eq, List.mem_filterMap, Prod.exists,
    List.mk_mem_zipIdx_iff_le_and_getElem?_sub, directiveAt?_eq_some_iff,
    List.getElem?_zip_eq_some, getElem?_roles, Option.map_eq_some_iff]
  constructor
  · rintro ⟨line, role, n, ⟨hle, hline, found, hfound, rfl⟩, hrole, hn, hcolumn⟩
    obtain rfl := Option.some.inj (hline.symm.trans hfound)
    obtain ⟨houtside, hvalue⟩ := roleOf_eq_directive_iff.mp hrole
    exact ⟨n - 1, line, ⟨hline, by simpa using houtside, hvalue⟩, by omega, hcolumn⟩
  · rintro ⟨k, line, ⟨hline, houtside, hvalue⟩, hn, hcolumn⟩
    exact ⟨line, _, k + 1, ⟨by omega, hline, line, hline, rfl⟩,
      roleOf_eq_directive_iff.mpr ⟨by simpa using houtside, hvalue⟩, hn, hcolumn⟩

theorem StageLine.mem_directives {ls : List String} {k : Nat} {line value : String}
    (h : StageLine ls k line value) : ⟨k + 1, markColumn line, value⟩ ∈ directives ls :=
  mem_directives_iff.mpr ⟨k, line, h, rfl, rfl⟩

theorem directives_pairwise (ls : List String) :
    (directives ls).Pairwise fun d d' => d.line < d'.line :=
  directivesFrom_pairwise 1 (ls.zip (roles ls))

theorem StagesKnown.isSome {ls : List String} (h : StagesKnown ls) :
    ∀ d ∈ directives ls, (Stage.ofName? d.value).isSome = true := by
  intro d hd
  obtain ⟨k, line, hline, _, _⟩ := mem_directives_iff.mp hd
  exact h k line d.value hline

/-- All directives name stages if none is found that does not. -/
theorem stagesKnown_of_find? {ls : List String}
    (h : (directives ls).find? (fun d => (Stage.ofName? d.value).isNone) = none) :
    StagesKnown ls := by
  intro k line value hline
  have hd := List.find?_eq_none.mp h _ hline.mem_directives
  simpa [Option.isSome_iff_ne_none] using hd

/-- The first directive that names no stage is reported. -/
theorem rejected_of_find? {file : String} {ls : List String} {d : Directive}
    (h : (directives ls).find? (fun d => (Stage.ofName? d.value).isNone) = some d) :
    Rejected file ls ⟨file, ⟨d.line, d.column⟩, .unknownStage d.value⟩ := by
  obtain ⟨hunknown, front, behind, hsplit, hfront⟩ := List.find?_eq_some_iff_append.mp h
  obtain ⟨k, line, hline, hk, hcolumn⟩ :=
    mem_directives_iff.mp (hsplit ▸ List.mem_append_right front List.mem_cons_self)
  have hordered := directives_pairwise ls
  rw [hsplit] at hordered
  rw [hk, hcolumn]
  refine .unknownStage hline (by simpa using hunknown) fun j hj line' value' hline' => ?_
  -- A directive of a line in front of the one that is found stands in front of it.
  have hmem := hline'.mem_directives
  rw [hsplit] at hmem
  rcases List.mem_append.mp hmem with hmem | hmem
  · simpa [Option.isSome_iff_ne_none] using hfront _ hmem
  · have hle : d.line ≤ j + 1 := by
      rcases List.mem_cons.mp hmem with heq | hmem
      · exact Nat.le_of_eq (congrArg Directive.line heq).symm
      · exact Nat.le_of_lt (List.rel_of_pairwise_cons (List.pairwise_append.mp hordered).2.1 hmem)
    omega

/-- The stage of a source: that of the last directive, or the default. -/
def LastStage (ls : List String) (s : Stage) : Prop :=
  (∃ k line value, StageLine ls k line value ∧ Stage.ofName? value = some s ∧
    ∀ j, k < j → ∀ line value, ¬ StageLine ls j line value) ∨
  (∀ k line value, ¬ StageLine ls k line value) ∧ s = defaultStage

theorem namedStages_eq {ds : List Directive}
    (h : ∀ d ∈ ds, (Stage.ofName? d.value).isSome = true) :
    (namedStages ds).map some = ds.map fun d => Stage.ofName? d.value := by
  rw [namedStages, List.takeWhile_eq_self_iff.mpr (List.forall_mem_map.mpr h)]
  induction ds with
  | nil => rfl
  | cons d rest ih =>
    obtain ⟨stage, hstage⟩ := Option.isSome_iff_exists.mp (h d List.mem_cons_self)
    simpa [hstage] using ih fun d' hd' => h d' (List.mem_cons_of_mem d hd')

theorem lastStage_namedStages {ls : List String} (h : StagesKnown ls) :
    LastStage ls ((namedStages (directives ls)).getLast?.getD defaultStage) := by
  have hmap := congrArg List.getLast? (namedStages_eq h.isSome)
  rw [List.getLast?_map, List.getLast?_map] at hmap
  rcases List.eq_nil_or_concat (directives ls) with hnil | ⟨front, d, hconcat⟩
  · rw [hnil]
    refine .inr ⟨fun k line value hline => ?_, rfl⟩
    exact List.not_mem_nil (hnil ▸ hline.mem_directives)
  · have hordered := directives_pairwise ls
    rw [List.concat_eq_append] at hconcat
    rw [hconcat] at hmap hordered ⊢
    rw [List.getLast?_concat, Option.map_some, Option.map_eq_some_iff] at hmap
    obtain ⟨stage, hstage, hvalue⟩ := hmap
    obtain ⟨k, line, hline, hk, _⟩ :=
      mem_directives_iff.mp (hconcat ▸ List.mem_append_right front List.mem_cons_self)
    rw [hstage]
    refine .inl ⟨k, line, d.value, hline, hvalue.symm, fun j hj line' value' hline' => ?_⟩
    have hmem := hline'.mem_directives
    rw [hconcat] at hmem
    rcases List.mem_append.mp hmem with hmem | hmem
    · have hlt : j + 1 < d.line :=
        (List.pairwise_append.mp hordered).2.2 _ hmem d List.mem_cons_self
      omega
    · have heq : j + 1 = d.line := congrArg Directive.line (List.mem_singleton.mp hmem)
      omega

/-! ## What is reported -/

theorem Rejected.not_readable {file : String} {ls : List String} {d : Diagnostic}
    (h : Rejected file ls d) : ¬ (StagesKnown ls ∧ Even (sentinels ls).length) := by
  rintro ⟨hknown, heven⟩
  cases h with
  | unknownStage hline hvalue _ =>
    have hsome := hknown _ _ _ hline
    rw [hvalue] at hsome
    contradiction
  | unterminated _ hodd _ => exact hodd heven

/-- At most one thing is reported. -/
theorem Rejected.unique {file : String} {ls : List String} {d d' : Diagnostic}
    (h : Rejected file ls d) (h' : Rejected file ls d') : d = d' := by
  have hnone : ∀ {value : String}, Stage.ofName? value = none →
      (Stage.ofName? value).isSome ≠ true := by
    intro value hvalue
    rw [hvalue]
    exact Bool.false_ne_true
  cases h with
  | @unknownStage k line value hline hvalue hfirst =>
    cases h' with
    | @unknownStage k' line' value' hline' hvalue' hfirst' =>
      obtain rfl : k = k' := by
        rcases Nat.lt_trichotomy k k' with hlt | heq | hlt
        · exact absurd (hfirst' k hlt line value hline) (hnone hvalue)
        · exact heq
        · exact absurd (hfirst k' hlt line' value' hline') (hnone hvalue')
      obtain rfl := Option.some.inj (hline.found.symm.trans hline'.found)
      obtain rfl := Option.some.inj (hline.value.symm.trans hline'.value)
      rfl
    | unterminated hknown _ _ => exact absurd (hknown k line value hline) (hnone hvalue)
  | unterminated hknown _ hlast =>
    cases h' with
    | @unknownStage k' line' value' hline' hvalue' _ =>
      exact absurd (hknown k' line' value' hline') (hnone hvalue')
    | unterminated _ _ hlast' =>
      obtain rfl := Option.some.inj (hlast.symm.trans hlast')
      rfl

/-- Reading ends in one of three ways. -/
theorem read_outcome (file text : String) :
    (∃ d, (read file text).outcome = .error d ∧ Rejected file (lines text) d) ∨
    (StagesKnown (lines text) ∧ Even (sentinels (lines text)).length ∧
      ∃ stage, LastStage (lines text) stage ∧
        (read file text).outcome = .ok ⟨stage, lines text, roles (lines text)⟩) := by
  have hunclosed := unclosedFrom_roles (lines text)
  cases hfind : (directives (lines text)).find? fun d => (Stage.ofName? d.value).isNone with
  | some d =>
    refine .inl ⟨_, ?_, rejected_of_find? hfind⟩
    rw [directives] at hfind
    simp only [read, hfind]
  | none =>
    have hknown := stagesKnown_of_find? hfind
    have hstage := lastStage_namedStages hknown
    rw [directives] at hfind hstage
    by_cases heven : Even (sentinels (lines text)).length
    · rw [if_pos heven] at hunclosed
      refine .inr ⟨hknown, heven, _, hstage, ?_⟩
      simp only [read, hfind, hunclosed]
      cases (namedStages
        (directivesFrom 1 ((lines text).zip (roles (lines text))))).getLast? <;> rfl
    · rw [if_neg heven] at hunclosed
      cases hlast : (sentinels (lines text)).getLast? with
      | none => simp [List.getLast?_eq_none_iff.mp hlast] at heven
      | some last =>
        refine .inl ⟨_, ?_, .unterminated hknown heven hlast⟩
        rw [hlast] at hunclosed
        simp only [read, hfind, hunclosed]

/-! ## What is read -/

/-- What each line is for, without a reader. -/
structure RoleAt (ls : List String) (bs : List Block) (k : Nat) (line : String) (role : LineRole) :
    Prop where
  sentinel : (role = .opening ∨ role = .closing) ↔ isSentinel line = true
  annotated : role = .annotated ↔ ∃ b ∈ bs, b.opening < k + 1 ∧ k + 1 < b.closing
  directive : ∀ value, role = .directive value ↔ StageLine ls k line value
  body : role = .body ↔ isSentinel line = false ∧
    (¬ ∃ b ∈ bs, b.opening < k + 1 ∧ k + 1 < b.closing) ∧ ¬ ∃ value, StageLine ls k line value

/-- The lines of an annotation text: the lines in blocks are as they are, and all others are blank.
There is a line for each of the source, and a blank one if the source has none. -/
structure Blanked (ls : List String) (bs : List Block) (shown : List String) : Prop where
  length : shown.length = max 1 ls.length
  line : ∀ k line, shown[k]? = some line →
    ls[k]? = some line ∧ (∃ b ∈ bs, b.opening < k + 1 ∧ k + 1 < b.closing) ∨
      line = "" ∧ ¬ ∃ b ∈ bs, b.opening < k + 1 ∧ k + 1 < b.closing

/-- All that is read of a source describes one partition of its lines. -/
structure Partition (ls : List String) (a : Annotated) : Prop where
  lines : a.lines = ls
  blocks : a.blocks = pairs (sentinels ls)
  closed : ∀ b ∈ a.blocks, b.opening < b.closing
  apart : a.blocks.Pairwise fun b b' => b.closing < b'.opening
  roles : a.roles.length = ls.length ∧ ∀ k line, ls[k]? = some line →
    ∃ role, a.roles[k]? = some role ∧ RoleAt ls a.blocks k line role
  blockOf : ∀ n i, a.blockOf? n = some i ↔
    ∃ b, a.blocks[i]? = some b ∧ b.opening < n ∧ n < b.closing
  directives : ∀ n, n ∈ a.directiveLines ↔
    n ∈ sentinels ls ∨ ∃ k line value, n = k + 1 ∧ StageLine ls k line value
  stage : LastStage ls a.stage
  text : ∃ shown, Blanked ls a.blocks shown ∧ Text.lines a.annotationText = shown ∧
    a.annotationText.toList = shown.flatMap fun line => line.toList ++ ['\n']

section Read

variable {file text : String} {a : Annotated} (h : (read file text).outcome = .ok a)

include h

theorem contains_iff_of_read (k : Nat) :
    (∃ b ∈ a.blocks, b.opening < k + 1 ∧ k + 1 < b.closing) ↔ a.roles[k]? = some .annotated := by
  rw [← (split_of_read h).contains_iff (by simp) k, Nat.add_comm]
  simp only [Block.contains, Bool.and_eq_true, decide_eq_true_eq]

theorem roleAt_of_read {k : Nat} {line : String} (hline : (lines text)[k]? = some line) :
    ∃ role, a.roles[k]? = some role ∧ RoleAt (lines text) a.blocks k line role := by
  have hblock := contains_iff_of_read h k
  obtain ⟨hlines, hroles, _⟩ := read_eq_ok h
  rw [hlines] at hroles
  have hrole : a.roles[k]? = some (roleOf (!decide (Outside (lines text) k)) line) := by
    rw [hroles, getElem?_roles, hline]
    rfl
  rw [hrole] at hblock
  refine ⟨_, hrole, ?_⟩
  have hsentinel : (roleOf (!decide (Outside (lines text) k)) line = .opening ∨
      roleOf (!decide (Outside (lines text) k)) line = .closing) ↔ isSentinel line = true :=
    roleOf_eq_marker_iff
  have hdirective : ∀ value, roleOf (!decide (Outside (lines text) k)) line = .directive value ↔
      StageLine (lines text) k line value := by
    intro value
    rw [roleOf_eq_directive_iff]
    constructor
    · rintro ⟨houtside, hvalue⟩
      exact ⟨hline, by simpa using houtside, hvalue⟩
    · rintro ⟨_, houtside, hvalue⟩
      exact ⟨by simpa using houtside, hvalue⟩
  refine ⟨hsentinel, by rw [hblock, Option.some.injEq], hdirective, ?_⟩
  -- A line that is none of the others is one of the body.
  rw [hblock, Option.some.injEq]
  simp only [← hdirective, ← Bool.not_eq_true, ← hsentinel]
  generalize roleOf (!decide (Outside (lines text) k)) line = role
  cases role <;> simp

theorem blockOf?_eq_some_iff_of_read (n i : Nat) : a.blockOf? n = some i ↔
    ∃ b, a.blocks[i]? = some b ∧ b.opening < n ∧ n < b.closing := by
  have hcontains : ∀ b : Block, b.contains n = true ↔ b.opening < n ∧ n < b.closing := by
    simp [Block.contains]
  constructor
  · intro hfound
    obtain ⟨hlt, hinside, -⟩ := List.findIdx?_eq_some_iff_getElem.mp hfound
    exact ⟨_, List.getElem?_eq_getElem hlt, (hcontains _).mp hinside⟩
  · rintro ⟨b, hb, hinside⟩
    obtain ⟨j, hj⟩ : ∃ j, a.blockOf? n = some j := Option.isSome_iff_exists.mp
      (List.findIdx?_isSome ▸ List.any_eq_true.mpr
        ⟨b, List.mem_of_getElem? hb, (hcontains b).mpr hinside⟩)
    obtain ⟨hlt, hinside', -⟩ := List.findIdx?_eq_some_iff_getElem.mp hj
    rw [hj, index_unique (split_of_read h).pairwise hb (List.getElem?_eq_getElem hlt) hinside
      ((hcontains _).mp hinside')]

theorem mem_directiveLines_iff_of_read (n : Nat) : n ∈ a.directiveLines ↔
    n ∈ sentinels (lines text) ∨
      ∃ k line value, n = k + 1 ∧ StageLine (lines text) k line value := by
  have hdirective : ∀ {k : Nat} {line : String} {role : LineRole},
      RoleAt (lines text) a.blocks k line role → (Annotated.isDirective role = true ↔
        isSentinel line = true ∨ ∃ value, StageLine (lines text) k line value) := by
    intro k line role hrole
    simp only [← hrole.sentinel, ← hrole.directive]
    cases role <;> simp [Annotated.isDirective]
  simp only [Annotated.directiveLines, List.mem_filterMap, Option.ite_none_right_eq_some,
    Option.some.injEq, Prod.exists, List.mk_mem_zipIdx_iff_le_and_getElem?_sub, mem_sentinels_iff]
  constructor
  · rintro ⟨role, n, ⟨hle, hrole⟩, hmarked, rfl⟩
    have hlt := (List.getElem?_eq_some_iff.mp hrole).1
    rw [roles_of_read h, roles, rolesFrom_length, (read_eq_ok h).1] at hlt
    obtain ⟨role', hrole', hat⟩ := roleAt_of_read h (List.getElem?_eq_getElem hlt)
    obtain rfl := Option.some.inj (hrole.symm.trans hrole')
    rcases (hdirective hat).mp hmarked with hsentinel | ⟨value, hvalue⟩
    · exact .inl ⟨n - 1, _, by omega, List.getElem?_eq_getElem hlt, hsentinel⟩
    · exact .inr ⟨n - 1, _, value, by omega, hvalue⟩
  · have hmarked : ∀ {k : Nat} {line : String}, (lines text)[k]? = some line →
        (isSentinel line = true ∨ ∃ value, StageLine (lines text) k line value) →
          ∃ role n, (1 ≤ n ∧ a.roles[n - 1]? = some role) ∧ Annotated.isDirective role = true ∧
            n = k + 1 := by
      intro k line hline hmarked
      obtain ⟨role, hrole, hat⟩ := roleAt_of_read h hline
      exact ⟨role, k + 1, ⟨by omega, hrole⟩, (hdirective hat).mpr hmarked, rfl⟩
    rintro (⟨k, line, rfl, hline, hsentinel⟩ | ⟨k, line, value, rfl, hvalue⟩)
    · exact hmarked hline (.inl hsentinel)
    · exact hmarked hvalue.found (.inr ⟨value, hvalue⟩)

/-- The annotation text has a line for each of the source, blank unless it is in a block. -/
theorem blanked_of_read (hne : lines text ≠ []) :
    Blanked (lines text) a.blocks ((a.lines.zip a.roles).map Annotated.annotationLine) := by
  obtain ⟨hlines, hroles, _⟩ := read_eq_ok h
  have hlength := rolesFrom_length false a.lines
  have hpos := List.length_pos_iff.mpr hne
  rw [← roles, ← hroles, hlines] at hlength
  refine ⟨?_, fun k line hline => ?_⟩
  · rw [List.length_map, List.length_zip, hlines, hlength, Nat.min_self, Nat.max_eq_right hpos]
  · rw [List.getElem?_map, Option.map_eq_some_iff] at hline
    obtain ⟨⟨found, role⟩, hentry, rfl⟩ := hline
    obtain ⟨hfound, hrole⟩ := List.getElem?_zip_eq_some.mp hentry
    rw [contains_iff_of_read h k, hrole, ← hlines, Option.some.injEq]
    cases role with
    | annotated => exact .inl ⟨hfound, rfl⟩
    | opening | closing | directive _ | body => exact .inr ⟨rfl, by simp⟩

theorem annotationText_of_read : ∃ shown, Blanked (lines text) a.blocks shown ∧
    lines a.annotationText = shown ∧
    a.annotationText.toList = shown.flatMap fun line => line.toList ++ ['\n'] := by
  obtain ⟨hlines, hroles, _⟩ := read_eq_ok h
  by_cases hnil : lines text = []
  · -- A source without lines has one blank line of annotations.
    rw [hnil] at hlines
    rw [hlines] at hroles
    have hblocks : a.blocks = [] := by
      rw [Annotated.blocks, hroles]
      rfl
    have hfeed : a.annotationText = "\n" := by
      rw [Annotated.annotationText, hlines]
      rfl
    rw [hfeed, hblocks, hnil]
    refine ⟨[""], ⟨rfl, fun k line hline => .inr ⟨?_, by simp⟩⟩, by decide +kernel,
      by decide +kernel⟩
    simpa using List.mem_of_getElem? hline
  · have hblanked := blanked_of_read h hnil
    have hshown : (a.lines.zip a.roles).map Annotated.annotationLine ≠ [] := by
      rw [← List.length_pos_iff, hblanked.length]
      exact Nat.lt_of_lt_of_le Nat.one_pos (Nat.le_max_left ..)
    have htext : a.annotationText.toList = ((a.lines.zip a.roles).map
        Annotated.annotationLine).flatMap fun line => line.toList ++ ['\n'] := by
      rw [Annotated.annotationText, String.toList_append]
      exact toList_joinLines hshown
    refine ⟨_, hblanked, ?_, htext⟩
    rw [lines, htext, ← List.flatMap_map String.toList fun line => line ++ ['\n'],
      splitLines_flatMap]
    · simp
    · intro chars hchars c hc
      obtain ⟨line, hline, rfl⟩ := List.mem_map.mp hchars
      obtain ⟨k, hk⟩ := List.mem_iff_getElem?.mp hline
      rcases hblanked.line k line hk with ⟨hfound, _⟩ | ⟨rfl, _⟩
      · obtain ⟨broken, hbroken, rfl⟩ := List.mem_map.mp (List.mem_of_getElem? hfound)
        rw [String.toList_ofList] at hc
        exact not_isLineBreak_of_mem_splitLines hbroken hc
      · simp at hc

theorem partition_of_read : Partition (lines text) a := by
  obtain ⟨hlines, hroles, _⟩ := read_eq_ok h
  have hblocks : a.blocks = pairs (sentinels (lines text)) := by
    rw [Annotated.blocks, hroles, hlines, blocksFrom_roles]
  have hstage : LastStage (lines text) a.stage := by
    rcases read_outcome file text with ⟨d, herror, _⟩ | ⟨_, _, stage, hstage, hok⟩
    · rw [herror] at h
      contradiction
    · rwa [← Except.ok.inj (hok.symm.trans h)]
  exact {
    lines := hlines
    blocks := hblocks
    closed := hblocks ▸ opening_lt_closing (sentinelsFrom_pairwise 1 (lines text)).1
    apart := (split_of_read h).pairwise
    roles := ⟨by rw [hroles, hlines, roles, rolesFrom_length], fun k line => roleAt_of_read h⟩
    blockOf := blockOf?_eq_some_iff_of_read h
    directives := mem_directiveLines_iff_of_read h
    stage := hstage
    text := annotationText_of_read h }

end Read

/-- Sentinels open and close blocks in turn.  Reading fails exactly if a directive outside all
blocks names no stage, and reports the first one, or else if the number of sentinels is odd, and
reports the last one.  Otherwise the blocks are the consecutive pairs of sentinels, and all that is
read describes the partition of the lines that they make. -/
theorem read_partition (file text : String) :
    (∀ d, (read file text).outcome = .error d ↔ Rejected file (lines text) d) ∧
    ((∃ a, (read file text).outcome = .ok a) ↔
      StagesKnown (lines text) ∧ Even (sentinels (lines text)).length) ∧
    ∀ a, (read file text).outcome = .ok a → Partition (lines text) a := by
  refine ⟨fun d => ?_, ?_, fun a => partition_of_read⟩
  · rcases read_outcome file text with ⟨d', herror, hrejected⟩ | ⟨hknown, heven, _, _, hok⟩
    · rw [herror, Except.error.injEq]
      exact ⟨fun heq => heq ▸ hrejected, fun h => hrejected.unique h⟩
    · refine iff_of_false (by simp [hok]) fun h => h.not_readable ⟨hknown, heven⟩
  · rcases read_outcome file text with ⟨d, herror, hrejected⟩ | ⟨hknown, heven, _, _, hok⟩
    · exact iff_of_false (by simp [herror]) hrejected.not_readable
    · exact iff_of_true ⟨_, hok⟩ ⟨hknown, heven⟩

/-- Two blocks and two directives, with a different break behind every line. -/
def tideText : String :=
  "#stage hull\r\n #sal\u2028const float Ebb;\x0b#sal\x0c# stage pixel\n#sal\x1dconst float Flow;\u0085#sal\r"

/-- The last directive gives the stage.  In a block that is left open a directive does not count,
and one that names no stage is reported before the block. -/
theorem read_partition_tide :
    (∃ a, (read "Tide" tideText).outcome = .ok a ∧ a.blocks = [⟨2, 4⟩, ⟨6, 8⟩] ∧
      a.stage = .pixel ∧ Partition (lines tideText) a) ∧
    Rejected "Tide" (lines "#stage hull\n#sal\n#stage moon\n")
      ⟨"Tide", ⟨2, 1⟩, .unterminatedBlock⟩ ∧
    Rejected "Tide" (lines "\t#stage moon\n#sal\n") ⟨"Tide", ⟨1, 2⟩, .unknownStage "moon"⟩ := by
  obtain ⟨a, hread, hchecked⟩ := exists_eq_ok_of_any (x := (read "Tide" tideText).outcome)
    (p := fun a => a.blocks = [⟨2, 4⟩, ⟨6, 8⟩] ∧ a.stage = .pixel) (by decide +kernel)
  obtain ⟨hblocks, hstage⟩ := of_decide_eq_true hchecked
  exact ⟨⟨a, hread, hblocks, hstage, (read_partition "Tide" tideText).2.2 a hread⟩,
    ((read_partition "Tide" "#stage hull\n#sal\n#stage moon\n").1 _).mp (by decide +kernel),
    ((read_partition "Tide" "\t#stage moon\n#sal\n").1 _).mp (by decide +kernel)⟩

end AnnotatedShader.Source
