import AnnotatedShader.Token.Lexer
import Mathlib.Data.List.Infix
import Mathlib.Data.List.TakeWhile

set_option autoImplicit false

/-!
# Cutting a text

A text is cut into its tokens when it is made of longest pieces, one behind the other.  The scan
finds the cut of every text that has one, and stops otherwise.

`IsPiece` is what a token has in common with the text it was cut from: it is a stretch of it that is
not empty.  `Cut` relates a text to its pieces with their positions, each of them the longest at its
place.  A text has one cut at most (`Cut.unique`), and its tokens stand in the order of their
positions (`Cut.sorted`).

The scan is compared with the cut in both directions: it gives the visible pieces of a cut
(`scanFrom_of_cut`), and a scan that does not stop has found a cut (`exists_cut_of_scanFrom`).
-/

namespace AnnotatedShader

/-! ## Positions -/

namespace Position

theorem le_iff {p q : Position} :
    p.le q = true ↔ p.line < q.line ∨ p.line = q.line ∧ p.column ≤ q.column := by
  simp [le]

theorem le_refl (p : Position) : p.le p = true := le_iff.mpr (.inr ⟨rfl, Nat.le_refl _⟩)

theorem le_trans {p q r : Position} (hpq : p.le q = true) (hqr : q.le r = true) :
    p.le r = true := by
  rw [le_iff] at *
  omega

theorem le_total (p q : Position) : (p.le q || q.le p) = true := by
  rw [Bool.or_eq_true, le_iff, le_iff]
  omega

theorem le_next (p : Position) (c : Char) : p.le (p.next c) = true := by
  unfold next
  split <;> simp [le_iff]

theorem le_advance (p : Position) (text : List Char) : p.le (p.advance text) = true := by
  induction text generalizing p with
  | nil => exact p.le_refl
  | cons c rest ih => exact le_trans (p.le_next c) (ih (p.next c))

end Position

namespace Lexer

open AnnotatedShader.Text

/-! ## Pieces -/

theorem isPrefix_append {α : Type} {as bs l : List α} (has : as <+: l)
    (hbs : bs <+: l.drop as.length) : as ++ bs <+: l := by
  rw [List.prefix_iff_eq_append] at has
  rw [← has]
  exact (List.prefix_append_right_inj as).mpr hbs

theorem exponentSign_isPrefix (text : List Char) : exponentSign text <+: text := by
  unfold exponentSign
  split
  · exact List.prefix_append ['+'] _
  · exact List.prefix_append ['-'] _
  · exact List.nil_prefix

theorem numberSign_isPrefix (text : List Char) : numberSign text <+: text := by
  unfold numberSign
  split
  · exact List.prefix_append ['-'] _
  · exact List.nil_prefix

theorem exponentPart_isPrefix (text : List Char) : exponentPart text <+: text := by
  cases text with
  | nil => exact List.nil_prefix
  | cons e rest =>
    simp only [exponentPart]
    split
    · split
      · exact List.nil_prefix
      · have hrest := isPrefix_append (exponentSign_isPrefix rest)
          (List.takeWhile_prefix (l := rest.drop (exponentSign rest).length) Char.isDigit)
        exact (List.prefix_cons_inj e).mpr hrest
    · exact List.nil_prefix

/-- What is known of a piece: it is the front of a text, and not empty, and the piece of an
identifier consists of name characters, of which the first may start a name. -/
structure IsPiece (text : List Char) (terminal : Terminal) (piece : List Char) : Prop where
  ne_nil : piece ≠ []
  isPrefix : piece <+: text
  name : terminal = .identifier →
    piece.head?.any isNameStart = true ∧ ∀ c ∈ piece, isNameChar c = true

theorem isPiece_of_number? {text piece : List Char} {terminal : Terminal}
    (h : number? text = some (terminal, piece)) : IsPiece text terminal piece := by
  have hfront := isPrefix_append (numberSign_isPrefix text)
    (List.takeWhile_prefix (l := text.drop (numberSign text).length) Char.isDigit)
  simp only [number?] at h
  split at h
  · simp at h
  · rename_i hwhole
    rw [List.isEmpty_iff] at hwhole
    split at h
    · rename_i rest hrest
      obtain ⟨rfl, rfl⟩ := Prod.mk.inj (Option.some.inj h)
      refine ⟨by simp, isPrefix_append hfront ?_, by simp⟩
      rw [hrest, List.prefix_cons_inj]
      exact isPrefix_append (List.takeWhile_prefix _) (exponentPart_isPrefix _)
    · split at h
      · obtain ⟨rfl, rfl⟩ := Prod.mk.inj (Option.some.inj h)
        exact ⟨by simp [hwhole], hfront, by simp⟩
      · obtain ⟨rfl, rfl⟩ := Prod.mk.inj (Option.some.inj h)
        exact ⟨by simp [hwhole], isPrefix_append hfront (exponentPart_isPrefix _), by simp⟩

theorem isPiece_of_mark? {text piece : List Char} {terminal : Terminal}
    (h : mark? text = some (terminal, piece)) : IsPiece text terminal piece := by
  obtain ⟨m, hm, h⟩ := Option.map_eq_some_iff.mp h
  obtain ⟨rfl, rfl⟩ := Prod.mk.inj h
  have hfront : m.text.toList.isPrefixOf text = true := by simpa using List.find?_some hm
  refine ⟨?_, List.isPrefixOf_iff_prefix.mp hfront, by simp⟩
  cases m <;> decide

/-- A run from the first character on. -/
theorem isPiece_takeWhile {terminal : Terminal} {p : Char → Bool} {c : Char} {rest : List Char}
    (hc : p c = true)
    (hname : terminal = .identifier → isNameStart c = true ∧
      ∀ c, p c = true → isNameChar c = true) :
    IsPiece (c :: rest) terminal ((c :: rest).takeWhile p) where
  ne_nil := by simp [hc]
  isPrefix := List.takeWhile_prefix p
  name hterminal := by
    refine ⟨?_, fun _ hmem => (hname hterminal).2 _ (List.mem_takeWhile_imp hmem)⟩
    rw [List.takeWhile_cons_of_pos hc]
    exact (hname hterminal).1

theorem isPiece_of_munch {text piece : List Char} {terminal : Terminal}
    (h : munch text = some (terminal, piece)) : IsPiece text terminal piece := by
  cases text with
  | nil => simp [munch] at h
  | cons c rest =>
    simp only [munch] at h
    split at h
    · rename_i hstart
      obtain ⟨_, rfl⟩ := Prod.mk.inj (Option.some.inj h)
      exact isPiece_takeWhile (isNameChar_of_isNameStart hstart) fun _ => ⟨hstart, fun _ hc => hc⟩
    · split at h
      · rename_i hgap
        obtain ⟨rfl, rfl⟩ := Prod.mk.inj (Option.some.inj h)
        exact isPiece_takeWhile hgap (by simp)
      · split at h
        · rename_i hmark
          obtain ⟨rfl, rfl⟩ := Prod.mk.inj (Option.some.inj h)
          exact isPiece_takeWhile (by rw [hmark]; decide) (by simp)
        · split at h
          · exact isPiece_of_number? h
          · exact isPiece_of_mark? h

/-! ## Cuts -/

/-- A text that starts at a position consists of tokens, each of them the longest piece at its
place. -/
inductive Cut : Position → List Char → List Token → Prop
  | done (p : Position) : Cut p [] []
  | piece {p : Position} {terminal : Terminal} {piece rest : List Char} {ts : List Token}
    (hmunch : munch (piece ++ rest) = some (terminal, piece))
    (hrest : Cut (p.advance piece) rest ts) :
    Cut p (piece ++ rest) (⟨terminal, String.ofList piece, p⟩ :: ts)

namespace Cut

variable {p : Position} {text : List Char} {ts : List Token}

/-- Tokens stand in the order of their positions. -/
theorem sorted (h : Cut p text ts) : (∀ t ∈ ts, p.le t.position = true) ∧
    ts.Pairwise fun a b => a.position.le b.position = true := by
  induction h with
  | done p => simp
  | @piece p terminal piece rest ts hmunch hrest ih =>
    obtain ⟨hle, hpairwise⟩ := ih
    have hlater : ∀ t ∈ ts, p.le t.position = true := fun t ht =>
      Position.le_trans (p.le_advance piece) (hle t ht)
    refine ⟨?_, List.pairwise_cons.mpr ⟨hlater, hpairwise⟩⟩
    simpa [p.le_refl] using hlater

/-- Every token is the longest piece at its place. -/
theorem munch_of_mem (h : Cut p text ts) {t : Token} (ht : t ∈ ts) :
    ∃ rest, munch (t.text.toList ++ rest) = some (t.terminal, t.text.toList) := by
  induction h with
  | done => simp at ht
  | @piece p terminal piece rest ts hmunch hrest ih =>
    rcases List.mem_cons.mp ht with rfl | ht
    · exact ⟨rest, by simpa using hmunch⟩
    · exact ih ht

section Identifiers

variable (h : Cut p text ts) {t : Token} (ht : t ∈ ts) (hterminal : t.terminal = .identifier)

include h ht hterminal

/-- Identifiers start as names do. -/
theorem isNameStart : t.text.toList.head?.any isNameStart = true := by
  obtain ⟨rest, hmunch⟩ := h.munch_of_mem ht
  exact ((isPiece_of_munch hmunch).name hterminal).1

/-- Identifiers consist of name characters. -/
theorem isNameChar : ∀ c ∈ t.text.toList, isNameChar c = true := by
  obtain ⟨rest, hmunch⟩ := h.munch_of_mem ht
  exact ((isPiece_of_munch hmunch).name hterminal).2

end Identifiers

/-- No token is longer than the text. -/
theorem length_le (h : Cut p text ts) {t : Token} (ht : t ∈ ts) :
    t.text.toList.length ≤ text.length := by
  induction h with
  | done => simp at ht
  | piece _ _ ih =>
    rw [List.length_append]
    rcases List.mem_cons.mp ht with rfl | ht
    · simp
    · exact Nat.le_add_left_of_le (ih ht)

/-- A text has one cut. -/
theorem unique {ts' : List Token} (h : Cut p text ts) (h' : Cut p text ts') : ts = ts' := by
  induction h generalizing ts' with
  | done p =>
    generalize htext : ([] : List Char) = text at h'
    cases h' with
    | done => rfl
    | piece hmunch =>
      have hne := (isPiece_of_munch hmunch).ne_nil
      simp [(List.append_eq_nil_iff.mp htext.symm).1] at hne
  | @piece p terminal piece rest ts hmunch hrest ih =>
    generalize htext : piece ++ rest = text at h'
    cases h' with
    | done =>
      have hne := (isPiece_of_munch hmunch).ne_nil
      simp [(List.append_eq_nil_iff.mp htext).1] at hne
    | piece hmunch' hrest' =>
      rw [htext, hmunch'] at hmunch
      obtain ⟨rfl, rfl⟩ := Prod.mk.inj (Option.some.inj hmunch)
      obtain rfl := List.append_cancel_left htext
      rw [ih hrest']

end Cut

/-! ## The scan -/

/-- The tokens that are no blanks. -/
def visible (ts : List Token) : List Token := ts.filter (·.terminal ≠ .blank)

theorem scanFrom_of_cut {fuel : Nat} {p : Position} {text : List Char} {ts : List Token}
    (hfuel : text.length ≤ fuel) (h : Cut p text ts) :
    scanFrom fuel p text = ⟨visible ts, none⟩ := by
  induction h generalizing fuel with
  | done => cases fuel <;> rfl
  | @piece p terminal piece rest ts hmunch hrest ih =>
    have hne := (isPiece_of_munch hmunch).ne_nil
    have hpos := List.length_pos_iff.mpr hne
    rw [List.length_append] at hfuel
    obtain ⟨fuel, rfl⟩ := Nat.exists_eq_add_one_of_ne_zero (by omega : fuel ≠ 0)
    obtain ⟨c, others, heq⟩ := List.exists_cons_of_ne_nil
      (List.append_ne_nil_of_left_ne_nil hne rest)
    have hdrop : (c :: others).drop piece.length = rest := by rw [← heq, List.drop_left]
    rw [heq] at hmunch ⊢
    simp only [scanFrom, hmunch, hdrop, ih (show rest.length ≤ fuel by omega), Scan.push, visible]
    by_cases hblank : terminal = .blank <;> simp [hblank]

/-- A scan that is not stopped finds a cut. -/
theorem exists_cut_of_scanFrom {fuel : Nat} {p : Position} {text : List Char}
    (hfuel : text.length ≤ fuel) (h : (scanFrom fuel p text).stop = none) :
    ∃ ts, Cut p text ts := by
  induction fuel generalizing p text with
  | zero =>
    obtain rfl := List.length_eq_zero_iff.mp (Nat.le_zero.mp hfuel)
    exact ⟨[], .done p⟩
  | succ fuel ih =>
    cases text with
    | nil => exact ⟨[], .done p⟩
    | cons c others =>
      unfold scanFrom at h
      cases hmunch : munch (c :: others) with
      | none => simp [hmunch] at h
      | some found =>
        obtain ⟨terminal, piece⟩ := found
        obtain ⟨hne, ⟨rest, heq⟩, _⟩ := isPiece_of_munch hmunch
        have hpos := List.length_pos_iff.mpr hne
        have hlength := congrArg List.length heq
        rw [← heq] at hmunch h ⊢
        simp only [hmunch, List.drop_left, Scan.push] at h
        have hstop : (scanFrom fuel (p.advance piece) rest).stop = none := by
          split at h <;> exact h
        rw [List.length_append] at hlength
        obtain ⟨ts, hts⟩ := ih (by omega) hstop
        exact ⟨_, .piece hmunch hts⟩

/-- The scan of a text that has a cut. -/
theorem scan_of_cut {text : String} {ts : List Token} (h : Cut .start text.toList ts) :
    scan text = ⟨visible ts, none⟩ := scanFrom_of_cut (Nat.le_refl _) h

/-- A text of gaps has no tokens but blanks. -/
theorem exists_cut_of_gaps {p : Position} {text : List Char} (h : ∀ c ∈ text, isGap c = true) :
    ∃ ts, Cut p text ts ∧ visible ts = [] := by
  cases text with
  | nil => exact ⟨[], .done p, rfl⟩
  | cons c rest =>
    have hgap := h c List.mem_cons_self
    have hstart : isNameStart c = false := by
      simp only [isGap, Bool.or_eq_true, beq_iff_eq] at hgap
      rcases hgap with (((rfl | rfl) | rfl) | rfl) | rfl <;> decide
    have hmunch : munch ((c :: rest) ++ []) = some (.blank, c :: rest) := by
      rw [List.append_nil]
      simp only [munch, hstart, hgap, if_true]
      rw [List.takeWhile_eq_self_iff.mpr h]
      rfl
    exact ⟨_, List.append_nil (c :: rest) ▸ Cut.piece hmunch (.done _), by simp [visible]⟩

/-- What a scan that is not stopped has found. -/
theorem scan_stop_eq_none_iff {text : String} :
    (scan text).stop = none ↔
      ∃ ts, Cut .start text.toList ts ∧ (scan text).tokens = visible ts := by
  constructor
  · intro h
    obtain ⟨ts, hts⟩ := exists_cut_of_scanFrom (Nat.le_refl _) h
    exact ⟨ts, hts, by rw [scan_of_cut hts]⟩
  · rintro ⟨ts, hts, _⟩
    rw [scan_of_cut hts]

end Lexer

end AnnotatedShader
