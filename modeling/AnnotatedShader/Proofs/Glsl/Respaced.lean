import AnnotatedShader.Proofs.Glsl.Spacing

set_option autoImplicit false

/-!
# Bodies with another layout

Two bodies with the same tokens are rewritten to the same tokens if they agree where the layout
counts.  A selector directly behind a point is kept in every body, and a call of a sampling with
spaces and tabs only in front of its parenthesis is replaced in every body.

The layout counts at joints (`joints`): in front of a name that is referred to, where a point
without a blank behind it makes a selector of it, and in front of the parenthesis behind a sampling.
`Respaced` bodies agree there, and substitution of tokens is a function of the tokens and the joints
(`Respaced.substitute`), so the result follows from the theorem that rewriting substitutes tokens.

For single selectors and calls the rest of the body does not matter.  A part of a body that is
closed in itself (`Whole`, `SelfContained`) comes out the same in every frame around it; `Framed`
has one rule for each place that the part can stand in.
-/

namespace AnnotatedShader.Glsl

open AnnotatedShader.Text

/-! ## Where the layout counts -/

/-- Whether a word refers to a member or names a sampling. -/
def refers (r : Rewriting) (word : List Char) : Bool :=
  (selection? r word).isSome || (sampler? r word).isSome

/-- Whether a token is joined to the one in front of it, where this counts: a reference directly
behind a point, and a parenthesis behind the name of a sampling with only spaces and tabs
between. -/
def joined (r : Rewriting) (before : List Char) (t : Spaced) : Bool :=
  if before = ['.'] then !refers r t.token || t.gap.isEmpty
  else if t.token = ['('] then (sampler? r before).isNone || t.gap.all isCallGap
  else true

/-- Which tokens are joined to those in front of them. -/
def jointsFrom (r : Rewriting) : (before : List Char) → List Spaced → List Bool
  | _, [] => []
  | before, t :: rest => joined r before t :: jointsFrom r t.token rest

/-- Which tokens of a text are joined to those in front of them. -/
def joints (r : Rewriting) (text : List Char) : List Bool := jointsFrom r [] (spacedFrom [] text)

/-- Two searches that are related find nothing, or what is related. -/
theorem cases_of_rel {α β : Type} {R : α → β → Prop} {a : Option α} {b : Option β}
    (h : Option.Rel R a b) : a = none ∧ b = none ∨ ∃ x y, a = some x ∧ b = some y ∧ R x y := by
  cases h with
  | none => exact .inl ⟨rfl, rfl⟩
  | some h => exact .inr ⟨_, _, rfl, rfl, h⟩

/-- The same tokens behind one, joined in the same way where it counts. -/
structure Respaced (r : Rewriting) (before : List Char) (ts ts' : List Spaced) : Prop where
  tokens : ts.map Spaced.token = ts'.map Spaced.token
  joints : jointsFrom r before ts = jointsFrom r before ts'

namespace Respaced

variable {r : Rewriting} {before : List Char} {t : Spaced} {ts ts' : List Spaced}

theorem eq_nil (h : Respaced r before [] ts') : ts' = [] :=
  List.map_eq_nil_iff.mp h.tokens.symm

theorem exists_cons (h : Respaced r before (t :: ts) ts') :
    ∃ t' rest, ts' = t' :: rest ∧ t'.token = t.token ∧ joined r before t' = joined r before t ∧
      Respaced r t.token ts rest := by
  obtain ⟨htokens, hjoints⟩ := h
  cases ts' with
  | nil => contradiction
  | cons t' rest =>
    obtain ⟨htoken, htokens⟩ := List.cons.inj htokens
    obtain ⟨hjoint, hjoints⟩ := List.cons.inj hjoints
    exact ⟨t', rest, rfl, htoken.symm, hjoint.symm, htokens, htoken ▸ hjoints⟩

theorem cons {t' : Spaced} (htoken : t'.token = t.token)
    (hjoined : joined r before t' = joined r before t) (h : Respaced r t.token ts ts') :
    Respaced r before (t :: ts) (t' :: ts') := by
  obtain ⟨htokens, hjoints⟩ := h
  refine ⟨by rw [List.map_cons, List.map_cons, htoken, htokens], ?_⟩
  rw [jointsFrom, jointsFrom, htoken, hjoined, hjoints]

/-- A parenthesis is closed at the same token. -/
theorem closeTokens? (h : Respaced r before ts ts') (depth : Nat) :
    Option.Rel (fun f f' => Respaced r before f.1 f'.1 ∧ Respaced r [')'] f.2 f'.2)
      (closeTokens? depth ts) (closeTokens? depth ts') := by
  induction ts generalizing depth before ts' with
  | nil =>
    rw [h.eq_nil]
    exact .none
  | cons t rest ih =>
    obtain ⟨t', rest', rfl, htoken, hjoined, hrest⟩ := h.exists_cons
    cases hnest : nest depth t.token with
    | none =>
      rw [closeTokens?_last hnest, closeTokens?_last (htoken ▸ hnest)]
      rw [(nest_eq_none_iff.mp hnest).1] at hrest
      exact .some ⟨⟨rfl, rfl⟩, hrest⟩
    | some inner =>
      rw [closeTokens?_inner hnest, closeTokens?_inner (htoken ▸ hnest)]
      rcases cases_of_rel (ih hrest inner) with ⟨hnone, hnone'⟩ | ⟨_, _, hfound, hfound', hf⟩
      · rw [hnone, hnone']
        exact .none
      · rw [hfound, hfound']
        exact .some ⟨.cons htoken hjoined hf.1, hf.2⟩

/-- A name makes the same call. -/
theorem tokenCall? {token : List Char} (h : Respaced r token ts ts') :
    Option.Rel (fun c c' => c.sampler = c'.sampler ∧ Respaced r ['('] c.arguments c'.arguments ∧
      Respaced r [')'] c.behind c'.behind) (tokenCall? r token ts) (tokenCall? r token ts') := by
  cases hsampler : sampler? r token with
  | none =>
    rw [tokenCall?_eq_none r hsampler, tokenCall?_eq_none r hsampler]
    exact .none
  | some sampler =>
    have hdot : token ≠ ['.'] := by
      rintro rfl
      rw [sampler?_eq_none r (by decide)] at hsampler
      contradiction
    cases ts with
    | nil =>
      rw [h.eq_nil]
      exact .none
    | cons p rest =>
      obtain ⟨p', rest', rfl, htoken, hjoined, hrest⟩ := h.exists_cons
      rw [Glsl.tokenCall?, Glsl.tokenCall?, htoken]
      by_cases hopening : p.token = ['(']
      · rw [joined, joined, if_neg hdot, if_neg hdot, htoken, if_pos hopening, if_pos hopening,
          hsampler, Option.isNone_some, Bool.false_or, Bool.false_or] at hjoined
        rw [hjoined, hsampler]
        split
        · rw [hopening] at hrest
          rcases cases_of_rel (hrest.closeTokens? 0) with
            ⟨hnone, hnone'⟩ | ⟨_, _, hfound, hfound', hf⟩
          · rw [hnone, hnone']
            exact .none
          · rw [hfound, hfound']
            exact .some ⟨rfl, hf⟩
        · exact .none
      · rw [if_neg fun hboth => hopening hboth.1, if_neg fun hboth => hopening hboth.1]
        exact .none

/-- The same tokens are substituted. -/
theorem substitute (h : Respaced r before ts ts') :
    substitute r (before == ['.']) ts = substitute r (before == ['.']) ts' := by
  induction hlength : ts.length using Nat.strong_induction_on generalizing before ts ts' with
  | h n ih =>
    subst hlength
    cases ts with
    | nil => rw [h.eq_nil]
    | cons t rest =>
      obtain ⟨t', rest', rfl, htoken, hjoined, hrest⟩ := h.exists_cons
      have hnext := ih _ (Nat.lt_succ_self _) hrest rfl
      cases hrefers : refers r t.token with
      | false =>
        obtain ⟨hselection, hsampler⟩ := Bool.or_eq_false_iff.mp hrefers
        rw [Option.isSome_eq_false_iff, Option.isNone_iff_eq_none] at hselection hsampler
        rw [substitute_copied r hselection (tokenCall?_eq_none r hsampler _),
          substitute_copied r (htoken ▸ hselection) (tokenCall?_eq_none r (htoken ▸ hsampler) _),
          htoken, hnext]
      | true =>
        -- A reference is joined to a point in both or in none.
        have hpoint : (before == ['.'] && t'.gap.isEmpty) = (before == ['.'] && t.gap.isEmpty) := by
          by_cases hdot : before = ['.']
          · simpa [joined, hdot, htoken, hrefers] using hjoined
          · rw [beq_eq_false_iff_ne.mpr hdot, Bool.false_and, Bool.false_and]
        cases hdirect : before == ['.'] && t.gap.isEmpty with
        | true =>
          rw [substitute_pointed r hdirect, substitute_pointed r (hpoint.trans hdirect), htoken,
            hnext]
        | false =>
          rcases cases_of_rel hrest.tokenCall? with
            ⟨hnone, hnone'⟩ | ⟨c, c', hfound, hfound', hsampler, harguments, hbehind⟩
          · rw [substitute_replaced r hdirect hnone,
              substitute_replaced r (hpoint.trans hdirect) (htoken ▸ hnone'), htoken, hnext]
          · obtain ⟨hlt, hlt'⟩ := length_lt_of_tokenCall? hfound
            rw [substitute_call r hdirect hfound,
              substitute_call r (hpoint.trans hdirect) (htoken ▸ hfound'), hsampler]
            exact congrArg₂ (fun out rest => callTokens c'.sampler out ++ rest)
              (ih _ (Nat.lt_succ_of_lt hlt) harguments rfl)
              (ih _ (Nat.lt_succ_of_lt hlt') hbehind rfl)

end Respaced

/-! ## Pieces of a body -/

/-- Whether the token in front of those behind several ones is a point. -/
def pointBehind (point : Bool) : List Spaced → Bool
  | [] => point
  | t :: rest => pointBehind (t.token == ['.']) rest

theorem pointBehind_append (point : Bool) (ts : List Spaced) (t : Spaced) (rest : List Spaced) :
    pointBehind point (ts ++ t :: rest) = pointBehind (t.token == ['.']) rest := by
  induction ts generalizing point with
  | nil => rfl
  | cons _ ts ih => exact ih _

/-- Tokens that no parenthesis reaches across: they open no call of a name in front, and each of
their parentheses has its counterpart. -/
structure Whole (ts : List Spaced) : Prop where
  head : ∃ t rest, ts = t :: rest ∧ t.token ≠ ['(']
  passed : ∀ depth behind, closeTokens? depth (ts ++ behind) =
    (closeTokens? depth behind).map (Prod.map (ts ++ ·) id)

/-- Tokens that are substituted by themselves, whatever is behind them. -/
structure SelfContained (r : Rewriting) (point : Bool) (ts : List Spaced)
    (out : List (List Char)) : Prop where
  whole : Whole ts
  ne_nil : out ≠ []
  substituted : ∀ behind, substitute r point (ts ++ behind) = out ++ substitute r false behind

/-- A parenthesis is closed in the first of several tokens, or they are passed. -/
theorem closeTokens?_append (depth : Nat) (front : List Spaced) :
    (∃ inside t behind, front = inside ++ t :: behind ∧ t.token = [')'] ∧
      ∀ rest, closeTokens? depth (front ++ rest) = some (inside, behind ++ rest)) ∨
    ∃ inner, ∀ rest, closeTokens? depth (front ++ rest) =
      (closeTokens? inner rest).map (Prod.map (front ++ ·) id) := by
  induction front generalizing depth with
  | nil => exact .inr ⟨depth, fun rest => Option.map_id'.symm⟩
  | cons t front ih =>
    cases hnest : nest depth t.token with
    | none =>
      exact .inl ⟨[], t, front, rfl, (nest_eq_none_iff.mp hnest).1, fun rest =>
        closeTokens?_last hnest (front ++ rest)⟩
    | some inner =>
      rcases ih inner with ⟨inside, c, behind, rfl, hc, hclosed⟩ | ⟨inner', hpassed⟩
      · refine .inl ⟨t :: inside, c, behind, rfl, hc, fun rest => ?_⟩
        rw [List.cons_append, closeTokens?_inner hnest, hclosed]
        rfl
      · refine .inr ⟨inner', fun rest => ?_⟩
        rw [List.cons_append, closeTokens?_inner hnest, hpassed, Option.map_map]
        rfl

/-- A call in front of whole tokens: there is none, or it ends in front of them, or they are in its
arguments. -/
theorem tokenCall?_context (r : Rewriting) (token : List Char) (front behind : List Spaced) :
    (∀ ts, Whole ts → tokenCall? r token (front ++ (ts ++ behind)) = none) ∨
    (∃ sampler p inside t rest, front = p :: (inside ++ t :: rest) ∧ t.token = [')'] ∧
      ∀ ts, tokenCall? r token (front ++ (ts ++ behind)) =
        some ⟨sampler, inside, rest ++ (ts ++ behind)⟩) ∨
    ∃ sampler p more inside rest, front = p :: more ∧ p.token = ['('] ∧
      ∀ ts, Whole ts → tokenCall? r token (front ++ (ts ++ behind)) =
        some ⟨sampler, more ++ (ts ++ inside), rest⟩ := by
  cases front with
  | nil =>
    left
    intro ts hts
    obtain ⟨t, rest, rfl, ht⟩ := hts.head
    rw [List.nil_append, List.cons_append, tokenCall?, if_neg fun hboth => ht hboth.1]
  | cons p more =>
    by_cases hopening : p.token = ['('] ∧ p.gap.all isCallGap = true
    · cases hsampler : sampler? r token with
      | none => exact .inl fun ts _ => tokenCall?_eq_none r hsampler _
      | some sampler =>
        have hcall : ∀ rest, tokenCall? r token (p :: rest) =
            (closeTokens? 0 rest).map fun found => ⟨sampler, found.1, found.2⟩ := fun rest =>
          tokenCall?_of_opening hopening.1 hopening.2 hsampler
        rcases closeTokens?_append 0 more with
          ⟨inside, t, rest, rfl, ht, hclosed⟩ | ⟨inner, hpassed⟩
        · refine .inr (.inl ⟨sampler, p, inside, t, rest, rfl, ht, fun ts => ?_⟩)
          rw [List.cons_append, hcall, hclosed]
          rfl
        · cases hbehind : closeTokens? inner behind with
          | none =>
            refine .inl fun ts hts => ?_
            rw [List.cons_append, hcall, hpassed, hts.passed, hbehind]
            rfl
          | some found =>
            refine .inr (.inr
              ⟨sampler, p, more, found.1, found.2, rfl, hopening.1, fun ts hts => ?_⟩)
            rw [List.cons_append, hcall, hpassed, hts.passed, hbehind]
            rfl
    · exact .inl fun ts _ => by rw [List.cons_append, tokenCall?, if_neg hopening]

/-- What is in front of a piece and behind it is substituted in one way for all pieces that can
stand there. -/
def Framed (r : Rewriting) (point : Bool) (front behind : List Spaced) : Prop :=
  ∃ left right, ∀ ts out, SelfContained r (pointBehind point front) ts out →
    substitute r point (front ++ (ts ++ behind)) = left ++ (out ++ right)

namespace Framed

variable {r : Rewriting} {point : Bool} {t : Spaced} {front behind : List Spaced}

theorem nil (r : Rewriting) (point : Bool) (behind : List Spaced) : Framed r point [] behind :=
  ⟨[], substitute r false behind, fun _ _ h => h.substituted behind⟩

theorem pointed (h : Framed r (t.token == ['.']) front behind)
    (hdirect : (point && t.gap.isEmpty) = true) : Framed r point (t :: front) behind := by
  obtain ⟨left, right, hframe⟩ := h
  refine ⟨t.token :: left, right, fun ts out hpiece => ?_⟩
  rw [List.cons_append, substitute_pointed r hdirect, hframe ts out hpiece, List.cons_append]

theorem replaced (h : Framed r (t.token == ['.']) front behind)
    (hdirect : (point && t.gap.isEmpty) = false)
    (hcall : ∀ ts, Whole ts → tokenCall? r t.token (front ++ (ts ++ behind)) = none) :
    Framed r point (t :: front) behind := by
  obtain ⟨left, right, hframe⟩ := h
  refine ⟨replacement r t.token ++ left, right, fun ts out hpiece => ?_⟩
  rw [List.cons_append, substitute_replaced r hdirect (hcall ts hpiece.whole),
    hframe ts out hpiece, List.append_assoc]

/-- A piece behind a call. -/
theorem behind_call {p c : Spaced} {inside rest : List Spaced} {sampler : String}
    (h : Framed r false rest behind) (hdirect : (point && t.gap.isEmpty) = false)
    (hc : c.token = [')']) (hcall : ∀ ts,
      tokenCall? r t.token (p :: (inside ++ c :: rest) ++ (ts ++ behind)) =
        some ⟨sampler, inside, rest ++ (ts ++ behind)⟩) :
    Framed r point (t :: p :: (inside ++ c :: rest)) behind := by
  obtain ⟨left, right, hframe⟩ := h
  have hpoint : pointBehind point (t :: p :: (inside ++ c :: rest)) = pointBehind false rest := by
    rw [pointBehind, pointBehind, pointBehind_append, hc]
    rfl
  refine ⟨callTokens sampler (substitute r false inside) ++ left, right, fun ts out hpiece => ?_⟩
  rw [List.cons_append, substitute_call r hdirect (hcall ts), hframe ts out (hpoint ▸ hpiece),
    List.append_assoc]

/-- A piece among the arguments of a call. -/
theorem argument {p : Spaced} {inside rest : List Spaced} {sampler : String}
    (h : Framed r false front inside) (hdirect : (point && t.gap.isEmpty) = false)
    (hp : p.token = ['(']) (hcall : ∀ ts, Whole ts → tokenCall? r t.token
      (p :: front ++ (ts ++ behind)) = some ⟨sampler, front ++ (ts ++ inside), rest⟩) :
    Framed r point (t :: p :: front) behind := by
  obtain ⟨left, right, hframe⟩ := h
  have hpoint : pointBehind point (t :: p :: front) = pointBehind false front := by
    rw [pointBehind, pointBehind, hp]
    rfl
  refine ⟨"texture".toList :: ['('] :: (tokens sampler.toList ++ [','] :: left),
    right ++ [')'] :: substitute r false rest, fun ts out hpiece => ?_⟩
  have hne : (left ++ (out ++ right)).isEmpty = false := by simp [hpiece.ne_nil]
  rw [List.cons_append, substitute_call r hdirect (hcall ts hpiece.whole),
    hframe ts out (hpoint ▸ hpiece), callTokens, hne]
  simp

end Framed

/-- Whatever is in front of a piece and behind it is a frame. -/
theorem framed (r : Rewriting) (point : Bool) (front behind : List Spaced) :
    Framed r point front behind := by
  induction hlength : front.length using Nat.strong_induction_on
    generalizing point front behind with
  | h n ih =>
    subst hlength
    cases front with
    | nil => exact .nil r point behind
    | cons t front =>
      have hnext := ih _ (Nat.lt_succ_self _) (t.token == ['.']) front behind rfl
      cases hdirect : point && t.gap.isEmpty with
      | true => exact hnext.pointed hdirect
      | false =>
        rcases tokenCall?_context r t.token front behind with hnone |
          ⟨sampler, p, inside, c, rest, rfl, hc, hcall⟩ |
          ⟨sampler, p, more, inside, rest, rfl, hp, hcall⟩
        · exact hnext.replaced hdirect hnone
        · exact (ih rest.length (by grind) false rest behind rfl).behind_call hdirect hc hcall
        · exact (ih more.length (by grind) false more inside rfl).argument hdirect hp hcall

/-! ## Selectors and calls -/

/-- A word directly behind a point is a piece with the point. -/
theorem selfContained_selector (r : Rewriting) (point : Bool) (gap : List Char) {word : List Char}
    (h : IsWord word) : SelfContained r point [⟨gap, ['.']⟩, ⟨[], word⟩] [['.'], word] := by
  have hname : (['.'] : List Char).head?.any isNameStart = false := by decide
  have hclosed : (['.'] : List Char) ≠ ['('] := by decide
  refine ⟨⟨⟨_, _, rfl, hclosed⟩, fun depth behind => ?_⟩, List.cons_ne_nil _ _, fun behind => ?_⟩
  · have hpoint : nest depth ['.'] = some depth := rfl
    rw [List.cons_append, List.cons_append, closeTokens?_inner hpoint,
      closeTokens?_inner (nest_of_isWord h depth), Option.map_map]
    rfl
  · have hnext : (word == ['.']) = false := by simpa using h.ne_mark (by decide)
    rw [List.cons_append, List.cons_append, substitute_copied r (selection?_eq_none r hname)
      (tokenCall?_eq_none r (sampler?_eq_none r hname) _), substitute_pointed r (by rfl), hnext]
    rfl

theorem nest_add {depth inner : Nat} {token : List Char} (h : nest depth token = some inner)
    (outer : Nat) : nest (depth + outer) token = some (inner + outer) := by
  simp only [nest] at h ⊢
  split at h
  · split at h
    · contradiction
    · obtain rfl := Option.some.inj h
      rw [if_pos ‹_›, if_neg (by omega)]
      congr 1
      omega
  · rw [if_neg ‹_›]
    split at h <;> obtain rfl := Option.some.inj h
    · rw [if_pos ‹_›, Nat.add_right_comm]
    · rw [if_neg ‹_›]

/-- Tokens in which a parenthesis is closed by the last one are passed where more are open. -/
theorem closeTokens?_closed {depth : Nat} {inside : List Spaced} {c : Spaced}
    (h : closeTokens? depth (inside ++ [c]) = some (inside, [])) (behind : List Spaced) :
    closeTokens? depth (inside ++ c :: behind) = some (inside, behind) ∧
      ∀ outer, closeTokens? (depth + (outer + 1)) (inside ++ c :: behind) =
        (closeTokens? outer behind).map (Prod.map (inside ++ c :: ·) id) := by
  induction inside generalizing depth with
  | nil =>
    cases hnest : nest depth c.token with
    | none =>
      obtain ⟨hc, rfl⟩ := nest_eq_none_iff.mp hnest
      refine ⟨closeTokens?_last hnest behind, fun outer => ?_⟩
      have hinner : nest (0 + (outer + 1)) c.token = some outer := by
        rw [nest, hc, if_pos rfl, if_neg (by omega), Nat.zero_add, Nat.add_sub_cancel]
      rw [List.nil_append, closeTokens?_inner hinner]
      rfl
    | some inner =>
      rw [List.nil_append, closeTokens?_inner hnest] at h
      contradiction
  | cons t inside ih =>
    rw [List.cons_append] at h
    cases hnest : nest depth t.token with
    | none =>
      rw [closeTokens?_last hnest] at h
      exact absurd (congrArg Prod.fst (Option.some.inj h)) (List.cons_ne_nil t inside).symm
    | some inner =>
      rw [closeTokens?_inner hnest, Option.map_eq_some_iff] at h
      obtain ⟨⟨found, rest⟩, hfound, heq⟩ := h
      obtain ⟨hinside, rfl⟩ := Prod.mk.inj heq
      obtain rfl := (List.cons.inj hinside).2
      obtain ⟨hclosed, hpassed⟩ := ih hfound
      constructor
      · rw [List.cons_append, closeTokens?_inner hnest, hclosed]
        rfl
      · intro outer
        rw [List.cons_append, closeTokens?_inner (nest_add hnest (outer + 1)), hpassed,
          Option.map_map]
        rfl

/-- A call of a sampling that is not selected is a piece. -/
theorem selfContained_call {r : Rewriting} {point : Bool} {t p c : Spaced} {inside : List Spaced}
    {sampler : String} (hdirect : (point && t.gap.isEmpty) = false) (hword : IsWord t.token)
    (hsampler : sampler? r t.token = some sampler) (hopening : p.token = ['('])
    (hgap : p.gap.all isCallGap = true)
    (hclosed : closeTokens? 0 (inside ++ [c]) = some (inside, [])) :
    SelfContained r point (t :: p :: (inside ++ [c]))
      (callTokens sampler (substitute r false inside)) := by
  have happend : ∀ behind,
      t :: p :: (inside ++ [c]) ++ behind = t :: p :: (inside ++ c :: behind) := by
    simp
  refine ⟨⟨⟨t, _, rfl, hword.ne_mark (by decide)⟩, fun depth behind => ?_⟩, List.cons_ne_nil _ _,
    fun behind => ?_⟩
  · have hopen : nest depth p.token = some (depth + 1) := by
      rw [nest, hopening]
      rfl
    have hpassed := (closeTokens?_closed hclosed behind).2 depth
    rw [Nat.zero_add] at hpassed
    simp only [happend]
    rw [closeTokens?_inner (nest_of_isWord hword depth), closeTokens?_inner hopen, hpassed,
      Option.map_map, Option.map_map]
    rfl
  · rw [happend, substitute_call r hdirect ((tokenCall?_of_opening hopening hgap hsampler).trans
      (by rw [(closeTokens?_closed hclosed behind).1]; rfl))]

/-- Whether a point is directly in front of what is behind a text. -/
theorem pointBehind_spacedFrom {point : Bool} {gap : List Char} {before : Option Char}
    (h : (point && gap.isEmpty) = decide (before = some '.')) (text : List Char) :
    (pointBehind point (spacedFrom gap text) && (gapBehind gap text).isEmpty) =
      decide (text.getLast?.or before = some '.') := by
  induction gap, text using spacing_induction generalizing point before with
  | nil gap =>
    rw [spacedFrom_nil, List.getLast?_nil, Option.none_or]
    exact h
  | blank gap c rest hc ih =>
    have hne : c ≠ '.' := by
      rintro rfl
      exact absurd hc (by decide)
    rw [spacedFrom_blank gap hc, gapBehind_cons, if_pos hc, @ih point (some c) (by simp [hne]),
      List.getLast?_cons]
    cases rest.getLast? <;> rfl
  | mark gap c rest hblank hword ih =>
    rw [spacedFrom_mark gap hblank hword, gapBehind_cons, hblank, if_neg Bool.false_ne_true,
      pointBehind, @ih _ (some c) (by simp [beq_eq_decide]), List.getLast?_cons]
    cases rest.getLast? <;> rfl
  | word gap word rest hword hrest ih =>
    have hnext : (word == ['.']) = false := by simpa using hword.ne_mark (by decide)
    rw [spacedFrom_word gap hword hrest, gapBehind_word hword, pointBehind, hnext,
      @ih false word.getLast? (decide_eq_false hword.getLast?_ne_point).symm,
      List.getLast?_append, Option.or_assoc, List.getLast?_eq_some_getLast hword.ne_nil,
      Option.some_or]

/-! ## Rewriting with another layout -/

/-- A selector directly behind a point is kept. -/
theorem exists_selector (r : Rewriting) (front : List Char) {behind : List Char}
    (hbehind : behind.head?.any isWordChar = false) : ∃ left right, ∀ word, IsWord word →
      tokens (rewrite r (front ++ '.' :: (word ++ behind))) = left ++ ([['.'], word] ++ right) := by
  obtain ⟨left, right, h⟩ := framed r false (spacedFrom [] front) (spacedFrom [] behind)
  refine ⟨left, right, fun word hword => ?_⟩
  rw [tokens_rewrite, spacedFrom_append (.inr rfl), spacedFrom_mark _ (by decide) (by decide),
    spacedFrom_word _ hword hbehind]
  exact h _ _ (selfContained_selector r _ _ hword)

/-- The tokens of a call in its place. -/
theorem Samples.spacedFrom_text {r : Rewriting} {c : Call} {sampler : String}
    (h : Samples r c sampler) : spacedFrom [] c.text =
      spacedFrom [] c.front ++ (⟨gapBehind [] c.front, c.ident.toList⟩ :: ⟨c.gap, ['(']⟩ ::
        (spacedFrom [] c.arguments ++ [⟨gapBehind [] c.arguments, [')']⟩]) ++
          spacedFrom [] c.behind) := by
  have hblanks : ∀ d ∈ c.gap, isBlank d = true := fun d hd => isBlank_of_isCallGap (h.gap d hd)
  have htail : c.tail.head?.any isWordChar = false :=
    head?_any_append (by
      cases hgap : c.gap with
      | nil => rfl
      | cons d gap =>
        exact isWordChar_eq_false_of_isBlank (hblanks d (hgap ▸ List.mem_cons_self))) rfl
  rw [Call.text, spacedFrom_append (.inl h.boundary), spacedFrom_word _ h.identifier.isWord htail,
    Call.tail,
    spacedFrom_append_blank hblanks, spacedFrom_mark _ (by decide) (by decide),
    spacedFrom_append (.inr rfl), spacedFrom_mark _ (by decide) (by decide)]
  simp

namespace Samples

variable {r : Rewriting} {c : Call} {sampler : String}

theorem sampler?_ident (h : Samples r c sampler) : sampler? r c.ident.toList = some sampler := by
  have hselection := @selection?_append r c.ident.toList [] h.identifier rfl
  rw [List.append_nil, String.ofList_toList, h.noMember, Option.map_none] at hselection
  rw [sampler?_eq r h.identifier hselection, sampledTexture?_eq_some_iff, String.ofList_toList]
  exact h.texture

/-- The parenthesis of a call is closed behind its arguments. -/
theorem closeTokens?_arguments (h : Samples r c sampler) :
    closeTokens? 0 (spacedFrom [] c.arguments ++ [⟨gapBehind [] c.arguments, [')']⟩]) =
      some (spacedFrom [] c.arguments, []) := by
  have hsearch := closeTokens?_spacedFrom 0 [] (c.arguments ++ [')'])
  rw [closeParen?_of_closing h.arguments, spacedFrom_append (.inr rfl),
    spacedFrom_mark _ (by decide) (by decide), spacedFrom_nil] at hsearch
  rw [hsearch, Option.map_some, Prod.map_apply, spacedFrom_nil]

end Samples

/-- A sampling call is replaced, in which only spaces and tabs stand in front of the parenthesis. -/
theorem exists_call (r : Rewriting) (front behind : List Char) : ∃ left right,
    ∀ c sampler, Samples r c sampler → c.front = front → c.behind = behind →
      tokens (rewrite r c.text) =
        left ++ (callTokens sampler (tokens (rewrite r c.arguments)) ++ right) := by
  obtain ⟨left, right, h⟩ := framed r false (spacedFrom [] front) (spacedFrom [] behind)
  refine ⟨left, right, fun c sampler hc hfront hbehind => ?_⟩
  subst hfront hbehind
  have hdirect :
      (pointBehind false (spacedFrom [] c.front) && (gapBehind [] c.front).isEmpty) = false := by
    rw [@pointBehind_spacedFrom false [] none rfl, Option.or_none]
    exact decide_eq_false hc.free
  rw [tokens_rewrite, tokens_rewrite, hc.spacedFrom_text]
  exact h _ _ (selfContained_call hdirect hc.identifier.isWord hc.sampler?_ident rfl
    (List.all_eq_true.mpr hc.gap) hc.closeTokens?_arguments)

/-- Two texts with the same tokens are rewritten to the same tokens if they agree on which names are
joined to a point in front of them, and which parentheses to the name of a sampling.  What is
directly behind a point is kept, and a sampling call that is not is replaced, both in the same way
wherever they stand. -/
theorem rewrite_respaced (r : Rewriting) :
    (∀ text text', tokens text = tokens text' → joints r text = joints r text' →
      tokens (rewrite r text) = tokens (rewrite r text')) ∧
    (∀ front behind, behind.head?.any isWordChar = false → ∃ left right, ∀ word, IsWord word →
      tokens (rewrite r (front ++ '.' :: (word ++ behind))) = left ++ ([['.'], word] ++ right)) ∧
    ∀ front behind, ∃ left right, ∀ c sampler, Samples r c sampler → c.front = front →
      c.behind = behind → tokens (rewrite r c.text) =
        left ++ (callTokens sampler (tokens (rewrite r c.arguments)) ++ right) := by
  refine ⟨fun text text' htokens hjoints => ?_, fun front behind => exists_selector r front,
    exists_call r⟩
  rw [tokens_rewrite, tokens_rewrite]
  exact Respaced.substitute ⟨htokens, hjoints⟩

/-- A sampling call with blanks wherever some can stand. -/
def airyCall : Call :=
  ⟨"c =\n".toList, "Albedo_Sample", " \t".toList, "\n\tLight_Color . xy\n".toList, " ;".toList⟩

theorem samples_airyCall : Samples litRewriting airyCall "Albedo" where
  identifier := .of_all rfl rfl
  boundary := by decide
  free := by decide
  noMember := by decide
  texture := ⟨"Albedo", by decide, by decide⟩
  gap := List.all_eq_true.mp (by decide)
  arguments := (@closing_of_closeParen? 0 (airyCall.arguments ++ [')']) airyCall.arguments []
    (by decide +kernel)).1

/-- Without its blanks the call is rewritten to the same tokens, among which it is replaced, and a
member that is selected of something else is kept. -/
theorem rewrite_respaced_lit :
    tokens airyCall.text = tokens "c=Albedo_Sample(Light_Color.xy);".toList ∧
    tokens (rewrite litRewriting airyCall.text) =
      tokens (rewrite litRewriting "c=Albedo_Sample(Light_Color.xy);".toList) ∧
    (∃ left right, tokens (rewrite litRewriting airyCall.text) = left ++
      (callTokens "Albedo" (tokens (rewrite litRewriting airyCall.arguments)) ++ right)) ∧
    ∃ left right, tokens (rewrite litRewriting "x = s.Light_Color;".toList) =
      left ++ ([['.'], "Light_Color".toList] ++ right) := by
  obtain ⟨hrespaced, hselectors, hcalls⟩ := rewrite_respaced litRewriting
  have htokens : tokens airyCall.text = tokens "c=Albedo_Sample(Light_Color.xy);".toList := by
    decide +kernel
  obtain ⟨left, right, hcall⟩ := hcalls airyCall.front airyCall.behind
  obtain ⟨left', right', hselector⟩ := hselectors "x = s".toList ";".toList (by decide)
  exact ⟨htokens, hrespaced _ _ htokens (by decide +kernel),
    ⟨left, right, hcall airyCall "Albedo" samples_airyCall rfl rfl⟩,
    left', right', hselector "Light_Color".toList ⟨by decide, List.all_eq_true.mp (by decide)⟩⟩

end AnnotatedShader.Glsl
