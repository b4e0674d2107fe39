import AnnotatedShader.Source.Annotated
import Mathlib.Data.List.Basic

set_option autoImplicit false

/-!
# Blocks

A block of a source is opened and closed by sentinels.  The blocks of a source that is read stand
behind each other, and what is in them are its annotations.

`read_eq_ok` tells what a source is that could be read.  `Split` relates the roles of its lines to
its blocks, one line after the other: outside, inside a block that was opened at some line, and so
on to the end.  What theorems need of blocks is proved from it by induction: they are in order and
apart, a line with the role of an annotation lies in one of them, and there are as many as lines
that open one.  Its index says which line is next, so positions of tokens can be compared with it.
-/

/-!
## Blocks and their sentinels

There is at most one block for each sentinel that opens one.  A source without such a sentinel has
no annotations at all.
-/

namespace AnnotatedShader

namespace Text

/-- A character of joined lines is a line feed or stands in a line. -/
theorem mem_joinLines {ls : List String} {c : Char} (h : c ∈ (joinLines ls).toList) :
    c = '\n' ∨ ∃ line ∈ ls, c ∈ line.toList := by
  rw [joinLines] at h
  induction ls with
  | nil => simp at h
  | cons line rest ih =>
    cases rest with
    | nil => exact .inr ⟨line, List.mem_cons_self, by simpa using h⟩
    | cons next others =>
      rw [String.intercalate_cons_cons, String.toList_append, String.toList_append,
        List.mem_append, List.mem_append] at h
      rcases h with (h | h) | h
      · exact .inr ⟨line, List.mem_cons_self, h⟩
      · exact .inl (by simpa using h)
      · refine (ih h).imp_right ?_
        rintro ⟨found, hfound, hc⟩
        exact ⟨found, List.mem_cons_of_mem _ hfound, hc⟩

end Text

namespace Source

/-- The number of sentinels that open a block. -/
def openings (a : Annotated) : Nat := a.roles.count .opening

/-- Every block has a sentinel of its own that opens it. -/
theorem length_blocksFrom_le (line : Nat) (opened : Option Nat) (rs : List LineRole) :
    (blocksFrom line opened rs).length ≤ rs.count .opening + opened.toList.length := by
  induction rs generalizing line opened with
  | nil => simp [blocksFrom]
  | cons role rest ih =>
    cases role with
    | opening =>
      have := ih (line + 1) (some line)
      simp only [Option.toList_some, List.length_singleton] at this
      simp only [blocksFrom, List.count_cons_self]
      omega
    | closing =>
      cases opened with
      | none => simpa [blocksFrom] using ih (line + 1) none
      | some start => simpa [blocksFrom] using ih (line + 1) none
    | annotated | directive value | body => simpa [blocksFrom] using ih (line + 1) opened

theorem blockOf?_lt {a : Annotated} {line block : Nat} (h : a.blockOf? line = some block) :
    block < openings a := by
  obtain ⟨hlt, _⟩ := List.findIdx?_eq_some_iff_getElem.mp h
  exact Nat.lt_of_lt_of_le hlt (length_blocksFrom_le 1 none a.roles)

/-- Without a sentinel that opens a block no line is an annotation. -/
theorem not_mem_rolesFrom {ls : List String} (h : (rolesFrom false ls).count .opening = 0) :
    LineRole.annotated ∉ rolesFrom false ls := by
  induction ls with
  | nil => simp [rolesFrom]
  | cons line rest ih =>
    rw [rolesFrom, outsideRole] at h ⊢
    by_cases hsentinel : isSentinel line = true
    · simp [hsentinel] at h
    · simp only [hsentinel] at h ⊢
      cases hvalue : directiveValue? line <;> simpa [hvalue] using ih (by simpa [hvalue] using h)

/-- A source that is read has the lines of its text with their roles, and no block is left open. -/
theorem read_eq_ok {file text : String} {a : Annotated} (h : (read file text).outcome = .ok a) :
    a.lines = Text.lines text ∧ a.roles = roles a.lines ∧ unclosedFrom 1 none a.roles = none := by
  unfold read at h
  simp only at h
  split at h
  · simp at h
  · split at h
    · simp at h
    · rename_i hclosed
      split at h <;> rw [← Except.ok.inj h] <;> exact ⟨rfl, rfl, hclosed⟩

/-- The lines of a source that is read have their roles. -/
theorem roles_of_read {file text : String} {a : Annotated} (h : (read file text).outcome = .ok a) :
    a.roles = roles a.lines :=
  (read_eq_ok h).2.1

/-- Without blocks the annotation text consists of line feeds. -/
theorem annotationText_of_openings_eq_zero {file text : String} {a : Annotated}
    (h : (read file text).outcome = .ok a) (hnone : openings a = 0) :
    ∀ c ∈ a.annotationText.toList, c = '\n' := by
  have hroles := roles_of_read h
  rw [openings, hroles] at hnone
  have hfree : LineRole.annotated ∉ a.roles := hroles ▸ not_mem_rolesFrom hnone
  intro c hc
  rw [Annotated.annotationText, String.toList_append, List.mem_append] at hc
  rcases hc with hc | hc
  · rcases Text.mem_joinLines hc with rfl | ⟨line, hline, hc⟩
    · rfl
    · obtain ⟨⟨text, role⟩, hpair, rfl⟩ := List.mem_map.mp hline
      have hrole : role ≠ .annotated := fun heq => hfree (heq ▸ (List.of_mem_zip hpair).2)
      cases role <;> simp_all [Annotated.annotationLine]
  · simpa using hc

end Source

end AnnotatedShader

/-!
## The extent of blocks

Every block of a source that is read is closed.  Its blocks stand behind each other, and the lines
in them are the annotations.  Between them stand the stretches of the body.
-/

namespace AnnotatedShader.Source

/-- Lines from a number on with the blocks that end in them; `opened` is the line of the sentinel
that has opened a block in front of them. -/
inductive Split : (n : Nat) → (opened : Option Nat) → List LineRole → List Block → Prop
  | nil (n : Nat) : Split n none [] []
  | opening {n : Nat} {rs : List LineRole} {bs : List Block} (h : Split (n + 1) (some n) rs bs) :
    Split n none (.opening :: rs) bs
  | directive {n : Nat} {value : String} {rs : List LineRole} {bs : List Block}
    (h : Split (n + 1) none rs bs) : Split n none (.directive value :: rs) bs
  | body {n : Nat} {rs : List LineRole} {bs : List Block} (h : Split (n + 1) none rs bs) :
    Split n none (.body :: rs) bs
  | annotated {n start : Nat} {rs : List LineRole} {bs : List Block}
    (h : Split (n + 1) (some start) rs bs) : Split n (some start) (.annotated :: rs) bs
  | closing {n start : Nat} {rs : List LineRole} {bs : List Block} (h : Split (n + 1) none rs bs) :
    Split n (some start) (.closing :: rs) (⟨start, n⟩ :: bs)

theorem split_rolesFrom {ls : List String} {n : Nat} {opened : Option Nat}
    (h : unclosedFrom n opened (rolesFrom opened.isSome ls) = none) :
    Split n opened (rolesFrom opened.isSome ls)
      (blocksFrom n opened (rolesFrom opened.isSome ls)) := by
  induction ls generalizing n opened with
  | nil =>
    cases opened with
    | none => exact .nil n
    | some start => simp [rolesFrom, unclosedFrom] at h
  | cons line rest ih =>
    cases opened with
    | none =>
      rw [Option.isSome_none, rolesFrom, outsideRole] at h ⊢
      cases hsentinel : isSentinel line with
      | true =>
        rw [hsentinel, if_pos rfl] at h
        exact .opening (@ih (n + 1) (some n) h)
      | false =>
        rw [hsentinel, if_neg Bool.false_ne_true] at h
        rw [if_neg Bool.false_ne_true]
        cases hvalue : directiveValue? line with
        | none =>
          rw [hvalue] at h
          exact .body (@ih (n + 1) none h)
        | some value =>
          rw [hvalue] at h
          exact .directive (@ih (n + 1) none h)
    | some start =>
      rw [Option.isSome_some, rolesFrom, insideRole] at h ⊢
      cases hsentinel : isSentinel line with
      | true =>
        rw [hsentinel, if_pos rfl] at h
        exact .closing (@ih (n + 1) none h)
      | false =>
        rw [hsentinel, if_neg Bool.false_ne_true] at h
        rw [if_neg Bool.false_ne_true]
        exact .annotated (@ih (n + 1) (some start) h)

/-- The lines of a source that is read, with its blocks. -/
theorem split_of_read {file text : String} {a : Annotated}
    (h : (read file text).outcome = .ok a) : Split 1 none a.roles a.blocks := by
  obtain ⟨_, hroles, hclosed⟩ := read_eq_ok h
  rw [Annotated.blocks]
  rw [hroles] at hclosed ⊢
  exact @split_rolesFrom _ 1 none hclosed

namespace Split

variable {n : Nat} {opened : Option Nat} {rs : List LineRole} {bs : List Block}

/-- A block ends in the lines it is read off, and starts there unless it has been open before. -/
theorem le_of_mem (h : Split n opened rs bs) :
    ∀ b ∈ bs, (opened = some b.opening ∨ n ≤ b.opening) ∧ n ≤ b.closing := by
  induction h with
  | nil => simp
  | opening _ ih =>
    intro b hb
    obtain ⟨hopening | hopening, hclosing⟩ := ih b hb
    · exact ⟨.inr (Nat.le_of_eq (Option.some.inj hopening)), Nat.le_of_succ_le hclosing⟩
    · exact ⟨.inr (Nat.le_of_succ_le hopening), Nat.le_of_succ_le hclosing⟩
  | directive _ ih | body _ ih | annotated _ ih =>
    intro b hb
    obtain ⟨hopening, hclosing⟩ := ih b hb
    exact ⟨hopening.imp_right Nat.le_of_succ_le, Nat.le_of_succ_le hclosing⟩
  | closing _ ih =>
    intro b hb
    rcases List.mem_cons.mp hb with rfl | hb
    · exact ⟨.inl rfl, Nat.le_refl _⟩
    · obtain ⟨hopening | hopening, hclosing⟩ := ih b hb
      · contradiction
      · exact ⟨.inr (Nat.le_of_succ_le hopening), Nat.le_of_succ_le hclosing⟩

/-- Blocks stand behind each other. -/
theorem pairwise (h : Split n opened rs bs) : bs.Pairwise fun b b' => b.closing < b'.opening := by
  induction h with
  | nil => exact .nil
  | opening _ ih | directive _ ih | body _ ih | annotated _ ih => exact ih
  | closing h ih =>
    refine List.pairwise_cons.mpr ⟨fun b hb => ?_, ih⟩
    obtain ⟨hopening | hopening, _⟩ := h.le_of_mem b hb
    · contradiction
    · exact hopening

/-- A block that has been open before ends in the lines. -/
theorem exists_mem {start : Nat} (h : Split n (some start) rs bs) :
    ∃ b ∈ bs, b.opening = start ∧ n ≤ b.closing := by
  generalize hopened : some start = opened at h
  induction h with
  | nil | opening _ | directive _ | body _ => contradiction
  | annotated _ ih =>
    obtain ⟨b, hb, hopening, hclosing⟩ := ih hopened
    exact ⟨b, hb, hopening, Nat.le_of_succ_le hclosing⟩
  | closing _ =>
    exact ⟨_, List.mem_cons_self, (Option.some.inj hopened).symm, Nat.le_refl _⟩

/-- No block holds a line in front of which none has been open. -/
theorem not_contains (h : Split (n + 1) opened rs bs)
    (hopened : ∀ start, opened = some start → start = n) : ¬ ∃ b ∈ bs, b.contains n = true := by
  rintro ⟨b, hb, hcontains⟩
  simp only [Block.contains, Bool.and_eq_true, decide_eq_true_eq] at hcontains
  obtain ⟨hopening | hopening, _⟩ := h.le_of_mem b hb
  · exact Nat.ne_of_lt hcontains.1 (hopened _ hopening)
  · exact Nat.lt_asymm hcontains.1 hopening

/-- The lines in blocks are the annotations. -/
theorem contains_iff (h : Split n opened rs bs) (hopened : ∀ start, opened = some start → start < n)
    (k : Nat) : (∃ b ∈ bs, b.contains (n + k) = true) ↔ rs[k]? = some .annotated := by
  induction h generalizing k with
  | nil => simp
  | @opening n rs bs h ih =>
    cases k with
    | zero => exact iff_of_false (h.not_contains fun _ heq => (Option.some.inj heq).symm) (by simp)
    | succ k =>
      rw [← Nat.succ_add_eq_add_succ n k, List.getElem?_cons_succ]
      exact ih (fun _ heq => Option.some.inj heq ▸ Nat.lt_succ_self n) k
  | @directive n value rs bs h ih | @body n rs bs h ih =>
    cases k with
    | zero => exact iff_of_false (h.not_contains (by simp)) (by simp)
    | succ k =>
      rw [← Nat.succ_add_eq_add_succ n k, List.getElem?_cons_succ]
      exact ih (by simp) k
  | @annotated n start rs bs h ih =>
    have hlt := hopened start rfl
    cases k with
    | zero =>
      obtain ⟨b, hb, hopening, hclosing⟩ := h.exists_mem
      refine iff_of_true ⟨b, hb, ?_⟩ rfl
      simp only [Block.contains, Bool.and_eq_true, decide_eq_true_eq]
      omega
    | succ k =>
      rw [← Nat.succ_add_eq_add_succ n k, List.getElem?_cons_succ]
      exact ih (fun _ heq => Option.some.inj heq ▸ Nat.lt_succ_of_lt hlt) k
  | @closing n start rs bs h ih =>
    have hfirst : ∀ k, Block.contains ⟨start, n⟩ (n + k) = false := by simp [Block.contains]
    simp only [List.exists_mem_cons_iff, hfirst, Bool.false_eq_true, false_or]
    cases k with
    | zero => exact iff_of_false (h.not_contains (by simp)) (by simp)
    | succ k =>
      rw [← Nat.succ_add_eq_add_succ n k, List.getElem?_cons_succ]
      exact ih (by simp) k

/-- As many blocks have ended in front of a body line as have been opened. -/
theorem countP_closing (h : Split n opened rs bs) {k : Nat} (hk : rs[k]? = some .body) :
    bs.countP (fun b => b.closing < n + k) =
      (rs.take k).count .opening + opened.toList.length := by
  induction h generalizing k with
  | nil => simp at hk
  | @opening n rs bs h ih =>
    cases k with
    | zero => simp at hk
    | succ k =>
      rw [← Nat.succ_add_eq_add_succ n k, ih hk, List.take_succ_cons, List.count_cons_self]
      rfl
  | @directive n value rs bs h ih =>
    cases k with
    | zero => simp at hk
    | succ k =>
      rw [← Nat.succ_add_eq_add_succ n k, ih hk, List.take_succ_cons,
        List.count_cons_of_ne (by simp)]
  | @body n rs bs h ih =>
    cases k with
    | zero =>
      refine List.countP_eq_zero.mpr fun b hb => ?_
      rw [decide_eq_true_iff, Nat.not_lt]
      exact Nat.le_of_succ_le (h.le_of_mem b hb).2
    | succ k =>
      rw [← Nat.succ_add_eq_add_succ n k, ih hk, List.take_succ_cons,
        List.count_cons_of_ne (by simp)]
  | @annotated n start rs bs h ih =>
    cases k with
    | zero => simp at hk
    | succ k =>
      rw [← Nat.succ_add_eq_add_succ n k, ih hk, List.take_succ_cons,
        List.count_cons_of_ne (by simp)]
  | @closing n start rs bs h ih =>
    cases k with
    | zero => simp at hk
    | succ k =>
      rw [List.countP_cons_of_pos (by simp), ← Nat.succ_add_eq_add_succ n k, ih hk,
        List.take_succ_cons, List.count_cons_of_ne (by simp)]
      rfl

/-- There is one block for each sentinel that opens one. -/
theorem length_eq (h : Split n opened rs bs) :
    bs.length = rs.count .opening + opened.toList.length := by
  induction h with
  | nil => rfl
  | opening _ ih =>
    rw [ih, List.count_cons_self]
    rfl
  | directive _ ih | body _ ih | annotated _ ih => rw [ih, List.count_cons_of_ne (by simp)]
  | closing _ ih =>
    rw [List.length_cons, ih, List.count_cons_of_ne (by simp)]
    rfl

end Split

end AnnotatedShader.Source
