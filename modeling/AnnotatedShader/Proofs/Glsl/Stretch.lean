import AnnotatedShader.Glsl.Generate
import AnnotatedShader.Proofs.Source.Blocks

set_option autoImplicit false

/-!
# Stretches of the body

Between the blocks of a source stand the stretches of its body: one in front of the first block, one
behind each.  The segments of the source are its blocks, with the stretches that are not empty
between them (`segments_eq`).

A stretch is told by its place (`stretch`): the lines outside all blocks that are neither sentinels
nor directives, between two sentinels of a kind.  The walk over the lines, which gathers a chunk
until a block begins, gives the same (`segmentsFrom_eq`), so theorems on texts can speak of the
stretch behind a block without a word on chunks.
-/

namespace AnnotatedShader

namespace Source.Annotated

/-- The body lines behind as many blocks as `i`, in order: lines outside blocks that are neither
sentinels nor stage directives. -/
def stretch (a : Annotated) (i : Nat) : List String :=
  ((a.lines.zipIdx 1).filter fun (_, n) => (a.blockOf? n).isNone && !a.directiveLines.contains n &&
    a.blocks.countP (fun b => b.closing < n) == i).map Prod.fst

variable {a : Annotated}

theorem mem_directiveLines_iff {k : Nat} :
    1 + k ∈ a.directiveLines ↔ ∃ role, a.roles[k]? = some role ∧ isDirective role = true := by
  simp only [directiveLines, List.mem_filterMap]
  constructor
  · rintro ⟨⟨role, n⟩, hmem, heq⟩
    rw [Option.ite_none_right_eq_some] at heq
    obtain ⟨hdirective, heq⟩ := heq
    obtain rfl := Option.some.inj heq
    obtain ⟨_, hrole⟩ := List.mk_mem_zipIdx_iff_le_and_getElem?_sub.mp hmem
    rw [Nat.add_sub_cancel_left] at hrole
    exact ⟨role, hrole, hdirective⟩
  · rintro ⟨role, hrole, hdirective⟩
    refine ⟨(role, 1 + k), List.mk_mem_zipIdx_iff_le_and_getElem?_sub.mpr ⟨by omega, ?_⟩, ?_⟩
    · rwa [Nat.add_sub_cancel_left]
    · rw [if_pos hdirective]

section Split

variable (h : Split 1 none a.roles a.blocks)

include h

/-- A line lies in one block at most. -/
theorem blockOf?_eq_some_iff {line i : Nat} :
    a.blockOf? line = some i ↔ ∃ b, a.blocks[i]? = some b ∧ b.contains line = true := by
  rw [blockOf?, List.findIdx?_eq_some_iff_getElem]
  constructor
  · rintro ⟨hlt, hcontains, _⟩
    exact ⟨_, List.getElem?_eq_getElem hlt, hcontains⟩
  · rintro ⟨b, hb, hcontains⟩
    obtain ⟨hlt, rfl⟩ := List.getElem?_eq_some_iff.mp hb
    refine ⟨hlt, hcontains, fun j hj hearlier => ?_⟩
    have hapart := List.pairwise_iff_getElem.mp h.pairwise j i (Nat.lt_trans hj hlt) hlt hj
    simp only [Block.contains, Bool.and_eq_true, decide_eq_true_eq] at hcontains hearlier
    omega

/-- A later line does not lie in an earlier block. -/
theorem blockOf?_mono {line line' i j : Nat} (hle : line ≤ line') (hi : a.blockOf? line = some i)
    (hj : a.blockOf? line' = some j) : i ≤ j := by
  obtain ⟨b, hb, hline⟩ := (blockOf?_eq_some_iff h).mp hi
  obtain ⟨b', hb', hline'⟩ := (blockOf?_eq_some_iff h).mp hj
  refine Nat.le_of_not_lt fun hlt => ?_
  obtain ⟨hilt, rfl⟩ := List.getElem?_eq_some_iff.mp hb
  obtain ⟨hjlt, rfl⟩ := List.getElem?_eq_some_iff.mp hb'
  have hapart := List.pairwise_iff_getElem.mp h.pairwise j i hjlt hilt hlt
  simp only [Block.contains, Bool.and_eq_true, decide_eq_true_eq] at hline hline'
  omega

/-- An annotation lies in a block. -/
theorem exists_blockOf?_eq_some {k : Nat} (hk : a.roles[k]? = some .annotated) :
    ∃ i, a.blockOf? (1 + k) = some i := by
  obtain ⟨b, hb, hcontains⟩ := (h.contains_iff (by simp) k).mpr hk
  obtain ⟨i, hi⟩ := List.getElem?_of_mem hb
  exact ⟨i, (blockOf?_eq_some_iff h).mpr ⟨b, hi, hcontains⟩⟩

theorem blockOf?_eq_none_iff {k : Nat} :
    a.blockOf? (1 + k) = none ↔ a.roles[k]? ≠ some .annotated := by
  rw [Ne, ← h.contains_iff (by simp) k, blockOf?, List.findIdx?_eq_none_iff, not_exists]
  simp only [not_and, Bool.not_eq_true]

/-- Body lines are those outside blocks that are no sentinels or stage directives. -/
theorem eq_body_iff {k : Nat} {role : LineRole} (hk : a.roles[k]? = some role) :
    role = .body ↔ a.blockOf? (1 + k) = none ∧ 1 + k ∉ a.directiveLines := by
  rw [blockOf?_eq_none_iff h, mem_directiveLines_iff, hk]
  cases role <;> simp [isDirective]

end Split

end Source.Annotated

namespace Glsl

open Source (LineRole Split)

/-- The body lines behind as many opening sentinels as `i`. -/
def bodyBehind : (i : Nat) → List (String × LineRole) → List String
  | _, [] => []
  | 0, (_, .opening) :: _ => []
  | i + 1, (_, .opening) :: rest => bodyBehind i rest
  | 0, (line, .body) :: rest => line :: bodyBehind 0 rest
  | i, _ :: rest => bodyBehind i rest

theorem segmentsFrom_eq (chunk : List String) (index : Nat) (pairs : List (String × LineRole)) :
    segmentsFrom chunk index pairs = bodySegment (chunk ++ bodyBehind 0 pairs) ++
      (List.range ((pairs.map Prod.snd).count .opening)).flatMap fun i =>
        .block (index + i) :: bodySegment (bodyBehind (i + 1) pairs) := by
  induction pairs generalizing chunk index with
  | nil => simp [segmentsFrom, bodyBehind]
  | cons pair rest ih =>
    obtain ⟨line, role⟩ := pair
    cases role with
    | opening =>
      rw [segmentsFrom, ih, List.map_cons, List.count_cons_self, List.range_succ_eq_map,
        List.flatMap_cons, List.flatMap_map]
      simp [bodyBehind, Nat.add_assoc, Nat.add_comm 1]
    | body =>
      rw [segmentsFrom, ih, List.map_cons, List.count_cons_of_ne (by simp)]
      simp [bodyBehind]
    | closing | annotated | directive value =>
      rw [List.map_cons, List.count_cons_of_ne (by simp)]
      simpa [segmentsFrom, bodyBehind] using ih chunk index

/-- Whether a numbered line belongs to the body behind as many opening sentinels as `i`, of lines
with given roles from a number on. -/
def isBehind (i n : Nat) (rs : List LineRole) (x : (String × LineRole) × Nat) : Bool :=
  x.1.2 == .body && (rs.take (x.2 - n)).count .opening == i

theorem isBehind_cons {i n : Nat} {role : LineRole} {rs : List LineRole}
    {x : (String × LineRole) × Nat} (hx : n + 1 ≤ x.2) : isBehind i n (role :: rs) x =
      (x.1.2 == .body && (rs.take (x.2 - (n + 1))).count .opening +
        (if role == .opening then 1 else 0) == i) := by
  have hshift : x.2 - n = x.2 - (n + 1) + 1 := by omega
  rw [isBehind, hshift, List.take_succ_cons, List.count_cons]

theorem bodyBehind_eq (i n : Nat) (pairs : List (String × LineRole)) :
    bodyBehind i pairs =
      ((pairs.zipIdx n).filter (isBehind i n (pairs.map Prod.snd))).map (·.1.1) := by
  induction pairs generalizing i n with
  | nil => rfl
  | cons pair rest ih =>
    obtain ⟨line, role⟩ := pair
    rw [List.zipIdx_cons, List.map_cons, List.filter_cons]
    have hlater : ∀ x ∈ rest.zipIdx (n + 1), n + 1 ≤ x.2 := fun _ => List.le_snd_of_mem_zipIdx
    -- An opening sentinel takes one from the number that is asked for behind it.
    have hsame : role ≠ .opening →
        (rest.zipIdx (n + 1)).filter (isBehind i n (role :: rest.map Prod.snd)) =
          (rest.zipIdx (n + 1)).filter (isBehind i (n + 1) (rest.map Prod.snd)) := by
      intro hrole
      refine List.filter_congr fun x hx => ?_
      rw [isBehind_cons (hlater x hx), if_neg (by simpa using hrole)]
      rfl
    cases role with
    | opening =>
      cases i with
      | zero =>
        have hnone : (rest.zipIdx (n + 1)).filter
            (isBehind 0 n (.opening :: rest.map Prod.snd)) = [] := by
          refine List.filter_eq_nil_iff.mpr fun x hx => ?_
          rw [isBehind_cons (hlater x hx)]
          simp
        simp [bodyBehind, isBehind, hnone]
      | succ i =>
        have hless : (rest.zipIdx (n + 1)).filter
            (isBehind (i + 1) n (.opening :: rest.map Prod.snd)) =
              (rest.zipIdx (n + 1)).filter (isBehind i (n + 1) (rest.map Prod.snd)) := by
          refine List.filter_congr fun x hx => ?_
          rw [isBehind_cons (hlater x hx)]
          simp [isBehind]
        rw [bodyBehind, ih i (n + 1), hless]
        rfl
    | body =>
      rw [hsame (by simp)]
      cases i with
      | zero =>
        rw [bodyBehind, ih 0 (n + 1)]
        simp [isBehind]
      | succ i =>
        rw [bodyBehind, ih (i + 1) (n + 1)]
        · simp [isBehind]
        all_goals simp
    | closing | annotated | directive value =>
      rw [hsame (by simp), bodyBehind, ih i (n + 1)]
      · rfl
      all_goals simp

/-- The stretches of a source are the bodies behind its opening sentinels. -/
theorem stretch_eq {a : Source.Annotated} (h : Split 1 none a.roles a.blocks)
    (hlength : a.lines.length = a.roles.length) (i : Nat) :
    a.stretch i = bodyBehind i (a.lines.zip a.roles) := by
  have hlines : a.lines.zipIdx 1 = ((a.lines.zip a.roles).zipIdx 1).map (Prod.map Prod.fst id) := by
    rw [List.map_zipIdx, List.map_fst_zip (Nat.le_of_eq hlength)]
  rw [Source.Annotated.stretch, bodyBehind_eq i 1, hlines, List.filter_map, List.map_map,
    List.map_snd_zip (Nat.le_of_eq hlength.symm)]
  refine congrArg (List.map _) (List.filter_congr ?_)
  rintro ⟨⟨line, role⟩, n⟩ hmem
  obtain ⟨hle, hpair⟩ := List.mk_mem_zipIdx_iff_le_and_getElem?_sub.mp hmem
  obtain ⟨k, rfl⟩ := Nat.exists_eq_add_of_le hle
  rw [Nat.add_sub_cancel_left, List.getElem?_zip_eq_some] at hpair
  have hbody := Source.Annotated.eq_body_iff h hpair.2
  rw [Bool.eq_iff_iff]
  simp only [isBehind, Function.comp, Prod.map, id, Bool.and_eq_true, Option.isNone_iff_eq_none,
    Bool.not_eq_true', List.contains_eq_mem, decide_eq_false_iff_not, beq_iff_eq,
    Nat.add_sub_cancel_left, ← hbody]
  refine and_congr_right fun hrole => ?_
  rw [h.countP_closing (hrole ▸ hpair.2)]
  rfl

/-- The segments of a source: in front of its first block and behind each of its blocks stands a
stretch of the body. -/
theorem segments_eq {a : Source.Annotated} (h : Split 1 none a.roles a.blocks)
    (hlength : a.lines.length = a.roles.length) :
    segments a = bodySegment (a.stretch 0) ++
      (List.range a.blocks.length).flatMap fun i =>
        .block i :: bodySegment (a.stretch (i + 1)) := by
  have hcount : a.roles.count .opening = a.blocks.length := h.length_eq.symm
  rw [segments, segmentsFrom_eq, List.map_snd_zip (Nat.le_of_eq hlength.symm), hcount]
  simp only [stretch_eq h hlength, List.nil_append, Nat.zero_add]

end Glsl

end AnnotatedShader
