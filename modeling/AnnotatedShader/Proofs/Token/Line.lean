import AnnotatedShader.Proofs.Token.Cut
import Mathlib.Data.List.Find

set_option autoImplicit false

/-!
# Scanning line by line

A line feed ends every piece but a blank, and blanks are dropped.  So a text can be scanned one line
after the other, and a token or the character that stops a scan is found in its line by its column.
The mark of a comment ends every other piece as well: a line without its comment has the tokens that
stand in front of it.

The first section says that a piece stays as it is when the text goes on behind a character that
ends it; there is a lemma for each part of the lexer, and `munch_append` is the sum of them.  A scan
is then the scans of its lines put together (`scanAt_flatMap`), with the positions of each line
counted from its own start.

`StandsAt` says where a token stands: its text is that of its line from its column on.  It holds of
every token and of the character at which a scan stops (`scanLines_standsAt`).  The last section
removes comments, from lines and from scans, and shows that this makes no difference in which order
it is done (`scanLines_withoutComment`).
-/

namespace AnnotatedShader

namespace Lexer

open AnnotatedShader.Text

/-! ## Pieces that end -/

/-- What a run of characters is does not depend on what stands behind its end. -/
theorem takeWhile_append_cons {α : Type} {p : α → Bool} {d : α} (hd : p d = false)
    (text rest : List α) : (text ++ d :: rest).takeWhile p = text.takeWhile p := by
  induction text with
  | nil => rw [List.nil_append, List.takeWhile_cons_of_neg (by simp [hd]), List.takeWhile_nil]
  | cons c text ih =>
    rw [List.cons_append, List.takeWhile_cons, List.takeWhile_cons, ih]

theorem isPrefixOf_append_cons {word : List Char} {d : Char} (hd : d ∉ word)
    (text rest : List Char) : word.isPrefixOf (text ++ d :: rest) = word.isPrefixOf text := by
  induction word generalizing text with
  | nil => rw [List.isPrefixOf_nil_left, List.isPrefixOf_nil_left]
  | cons w word ih =>
    obtain ⟨hne, hword⟩ := not_or.mp (mt List.mem_cons.mpr hd)
    cases text with
    | nil =>
      rw [List.nil_append, List.isPrefixOf_cons_cons, beq_false_of_ne (Ne.symm hne)]
      rfl
    | cons c text =>
      rw [List.cons_append, List.isPrefixOf_cons_cons, List.isPrefixOf_cons_cons, ih hword]

/-- A line feed or the mark of a comment: every piece that is neither a blank nor a comment ends in
front of them. -/
def IsEnding (d : Char) : Prop := d = '\n' ∨ d = '#'

namespace IsEnding

variable {d : Char} (hd : IsEnding d) (rest : List Char)

include hd

theorem exponentSign_append (text : List Char) :
    exponentSign (text ++ d :: rest) = exponentSign text := by
  cases text with
  | nil => rcases hd with rfl | rfl <;> rfl
  | cons c text =>
    rw [List.cons_append]
    unfold exponentSign
    split <;> simp_all

theorem numberSign_append (text : List Char) :
    numberSign (text ++ d :: rest) = numberSign text := by
  cases text with
  | nil => rcases hd with rfl | rfl <;> rfl
  | cons c text =>
    rw [List.cons_append]
    unfold numberSign
    split <;> simp_all

theorem isDigit_eq_false : d.isDigit = false := by
  rcases hd with rfl | rfl <;> rfl

/-- The digits behind a sign end where the text does. -/
theorem digits_append {text sign : List Char} (hsign : sign <+: text) :
    ((text ++ d :: rest).drop sign.length).takeWhile Char.isDigit =
      (text.drop sign.length).takeWhile Char.isDigit := by
  rw [List.drop_append_of_le_length hsign.length_le, takeWhile_append_cons hd.isDigit_eq_false]

theorem exponentPart_append (text : List Char) :
    exponentPart (text ++ d :: rest) = exponentPart text := by
  cases text with
  | nil => rcases hd with rfl | rfl <;> rfl
  | cons e text =>
    simp only [List.cons_append, exponentPart, hd.exponentSign_append,
      hd.digits_append rest (exponentSign_isPrefix text)]

theorem number?_append (text : List Char) : number? (text ++ d :: rest) = number? text := by
  have hfront := isPrefix_append (numberSign_isPrefix text)
    (List.takeWhile_prefix (l := text.drop (numberSign text).length) Char.isDigit)
  simp only [number?, hd.numberSign_append, hd.digits_append rest (numberSign_isPrefix text)]
  rw [List.drop_append_of_le_length hfront.length_le]
  generalize text.drop (numberSign text ++
    (text.drop (numberSign text).length).takeWhile Char.isDigit).length = behind
  cases behind with
  | nil => rcases hd with rfl | rfl <;> rfl
  | cons c behind =>
    by_cases hc : c = '.'
    · subst hc
      simp only [List.cons_append, takeWhile_append_cons hd.isDigit_eq_false,
        List.drop_append_of_le_length (List.takeWhile_prefix Char.isDigit).length_le,
        hd.exponentPart_append]
    · have hexponent := hd.exponentPart_append rest (c :: behind)
      rw [List.cons_append] at hexponent ⊢
      simp [hc, hexponent]

theorem mark?_append (text : List Char) : mark? (text ++ d :: rest) = mark? text := by
  have hmarks : ∀ m ∈ Mark.all, d ∉ m.text.toList := by
    rcases hd with rfl | rfl <;> decide
  unfold mark?
  rw [List.find?_congr fun m hm => isPrefixOf_append_cons (hmarks m hm) text rest]

/-- The piece at the front of a text ends where the text does, unless it is a blank, or a comment in
front of its own mark. -/
theorem munch_append {c : Char} (hgap : isGap c = false) (hcomment : c = '#' → d = '\n')
    (text : List Char) : munch (c :: text ++ d :: rest) = munch (c :: text) := by
  have hname : isNameChar d = false := by rcases hd with rfl | rfl <;> rfl
  rw [List.cons_append, munch, munch, ← List.cons_append]
  simp only [hgap, takeWhile_append_cons hname, hd.number?_append, hd.mark?_append,
    Bool.false_eq_true, if_false]
  by_cases hc : c = '#'
  · have hfeed : (d != '\n') = false := by rw [hcomment hc]; rfl
    rw [takeWhile_append_cons (p := fun x => x != '\n') hfeed]
  · simp only [hc, if_false]

end IsEnding

/-! ## Scans from a position -/

/-- The scan of a text that starts at a position. -/
def scanAt (p : Position) (text : List Char) : Scan := scanFrom text.length p text

theorem scanFrom_congr {fuel fuel' : Nat} {p : Position} {text : List Char}
    (h : text.length ≤ fuel) (h' : text.length ≤ fuel') :
    scanFrom fuel p text = scanFrom fuel' p text := by
  induction fuel generalizing fuel' p text with
  | zero =>
    obtain rfl := List.length_eq_zero_iff.mp (Nat.le_zero.mp h)
    cases fuel' <;> rfl
  | succ fuel ih =>
    cases text with
    | nil => cases fuel' <;> rfl
    | cons c rest =>
      obtain ⟨fuel', rfl⟩ := Nat.exists_eq_add_one_of_ne_zero (Nat.ne_zero_of_lt h')
      rw [scanFrom, scanFrom]
      cases hmunch : munch (c :: rest) with
      | none => rfl
      | some found =>
        obtain ⟨terminal, piece⟩ := found
        have hpos := List.length_pos_iff.mpr (isPiece_of_munch hmunch).ne_nil
        simp only [List.length_cons] at h h'
        have hle : ((c :: rest).drop piece.length).length ≤ rest.length := by
          rw [List.length_drop, List.length_cons]
          omega
        exact congrArg (Scan.push ⟨terminal, String.ofList piece, p⟩)
          (ih (Nat.le_trans hle (Nat.le_of_succ_le_succ h))
          (Nat.le_trans hle (Nat.le_of_succ_le_succ h')))

theorem scanAt_nil (p : Position) : scanAt p [] = ⟨[], none⟩ := rfl

theorem scanAt_stopped {p : Position} {c : Char} {rest : List Char}
    (h : munch (c :: rest) = none) : scanAt p (c :: rest) = ⟨[], some (c, p)⟩ := by
  rw [scanAt, List.length_cons, scanFrom, h]

theorem scanAt_piece {p : Position} {terminal : Terminal} {piece rest : List Char}
    (h : munch (piece ++ rest) = some (terminal, piece)) :
    scanAt p (piece ++ rest) =
      (scanAt (p.advance piece) rest).push ⟨terminal, String.ofList piece, p⟩ := by
  obtain ⟨c, others, heq⟩ := List.exists_cons_of_ne_nil
    (List.append_ne_nil_of_left_ne_nil (isPiece_of_munch h).ne_nil rest)
  have hdrop : (c :: others).drop piece.length = rest := by rw [← heq, List.drop_left]
  have hpos := List.length_pos_iff.mpr (isPiece_of_munch h).ne_nil
  have hlength := congrArg List.length heq
  rw [List.length_append, List.length_cons] at hlength
  rw [heq] at h ⊢
  rw [scanAt, List.length_cons, scanFrom, h]
  simp only [hdrop, scanAt]
  rw [scanFrom_congr (by omega : rest.length ≤ others.length) (Nat.le_refl _)]

theorem munch_gap {c : Char} (hc : isGap c = true) (rest : List Char) :
    munch (c :: rest) = some (.blank, (c :: rest).takeWhile isGap) := by
  have hstart : isNameStart c = false := by
    simp only [isGap, Bool.or_eq_true, beq_iff_eq] at hc
    rcases hc with (((rfl | rfl) | rfl) | rfl) | rfl <;> decide
  simp only [munch, hstart, hc]
  rfl

theorem scanAt_gaps (p : Position) (text : List Char) :
    scanAt p text = scanAt (p.advance (text.takeWhile isGap)) (text.dropWhile isGap) := by
  cases text with
  | nil => rfl
  | cons c rest =>
    cases hc : isGap c with
    | false =>
      rw [List.takeWhile_cons_of_neg (by simp [hc]), List.dropWhile_cons_of_neg (by simp [hc])]
      rfl
    | true =>
      have hmunch := munch_gap hc rest
      generalize hgaps : (c :: rest).takeWhile isGap = gaps at hmunch ⊢
      generalize hbehind : (c :: rest).dropWhile isGap = behind
      have hsplit : c :: rest = gaps ++ behind := by
        rw [← hgaps, ← hbehind, List.takeWhile_append_dropWhile]
      rw [hsplit] at hmunch ⊢
      rw [scanAt_piece hmunch]
      rfl

/-- A blank leaves nothing but its place. -/
theorem scanAt_gap {p : Position} {c : Char} (hc : isGap c = true) (rest : List Char) :
    scanAt p (c :: rest) = scanAt (p.next c) rest := by
  rw [scanAt_gaps p, scanAt_gaps (p.next c), List.takeWhile_cons_of_pos hc,
    List.dropWhile_cons_of_pos hc]
  rfl

/-- A scan passes a blank, stops at a character, or takes a piece that is no blank. -/
@[elab_as_elim]
theorem scan_induction {P : Position → List Char → Prop} (nil : ∀ p, P p [])
    (gap : ∀ p c rest, isGap c = true → P (p.next c) rest → P p (c :: rest))
    (stop : ∀ p c rest, isGap c = false → munch (c :: rest) = none → P p (c :: rest))
    (piece : ∀ p terminal c piece rest, isGap c = false →
      munch (c :: piece ++ rest) = some (terminal, c :: piece) →
        P (p.advance (c :: piece)) rest → P p (c :: piece ++ rest))
    (p : Position) (text : List Char) : P p text := by
  induction hlength : text.length using Nat.strong_induction_on generalizing p text with
  | _ n ih =>
    cases text with
    | nil => exact nil p
    | cons c rest =>
      cases hgap : isGap c with
      | true => exact gap p c rest hgap (ih rest.length (by simp [← hlength]) _ _ rfl)
      | false =>
        cases hmunch : munch (c :: rest) with
        | none => exact stop p c rest hgap hmunch
        | some found =>
          obtain ⟨terminal, taken⟩ := found
          obtain ⟨hne, ⟨behind, heq⟩, _⟩ := isPiece_of_munch hmunch
          obtain ⟨d, taken, rfl⟩ := List.exists_cons_of_ne_nil hne
          obtain rfl : d = c := (List.cons.inj heq).1
          rw [← heq] at hmunch ⊢
          refine piece p terminal d taken behind hgap hmunch (ih behind.length ?_ _ _ rfl)
          rw [← hlength, ← heq, List.length_append, List.length_cons]
          omega

/-! ## Lines -/

/-- A scan, and the one behind it unless it has been stopped. -/
def Scan.append (s s' : Scan) : Scan :=
  match s.stop with
  | some _ => s
  | none => ⟨s.tokens ++ s'.tokens, s'.stop⟩

theorem Scan.push_append (t : Token) (s s' : Scan) :
    (s.push t).append s' = (s.append s').push t := by
  obtain ⟨tokens, stop⟩ := s
  unfold Scan.push
  split <;> cases stop <;> rfl

theorem line_next {c : Char} (hc : c ≠ '\n') (p : Position) : (p.next c).line = p.line := by
  rw [Position.next, if_neg hc]

/-- Without line feeds a text stays in its line. -/
theorem advance_of_not_mem {text : List Char} (h : '\n' ∉ text) (p : Position) :
    p.advance text = ⟨p.line, p.column + text.length⟩ := by
  induction text generalizing p with
  | nil => rfl
  | cons c rest ih =>
    obtain ⟨hne, hrest⟩ := not_or.mp (mt List.mem_cons.mpr h)
    rw [Position.advance_cons, ih hrest, Position.next, if_neg (Ne.symm hne), List.length_cons]
    exact congrArg (Position.mk p.line) (Nat.add_right_comm p.column 1 rest.length)

/-- A line is scanned on its own, and then the text below it. -/
theorem scanAt_line {line : List Char} (h : '\n' ∉ line) (p : Position) (rest : List Char) :
    scanAt p (line ++ '\n' :: rest) = (scanAt p line).append (scanAt ⟨p.line + 1, 1⟩ rest) := by
  induction p, line using scan_induction with
  | nil p => exact scanAt_gap rfl rest
  | gap p c text hgap ih =>
    obtain ⟨hne, htext⟩ := not_or.mp (mt List.mem_cons.mpr h)
    rw [List.cons_append, scanAt_gap hgap, scanAt_gap hgap, ih htext, line_next (Ne.symm hne)]
  | stop p c text hgap hmunch =>
    have hstopped := (IsEnding.munch_append (.inl rfl) rest hgap (fun _ => rfl) text).trans hmunch
    rw [scanAt_stopped hmunch, List.cons_append]
    rw [List.cons_append] at hstopped
    rw [scanAt_stopped hstopped]
    rfl
  | piece p terminal c piece text hgap hmunch ih =>
    have htext : '\n' ∉ text := fun hmem => h (List.mem_append_right _ hmem)
    have hpiece : '\n' ∉ c :: piece := fun hmem => h (List.mem_append_left _ hmem)
    have hlonger := IsEnding.munch_append (.inl rfl) rest hgap (fun _ => rfl) (piece ++ text)
    rw [← List.cons_append, List.append_assoc, hmunch] at hlonger
    rw [List.append_assoc, scanAt_piece hlonger, scanAt_piece hmunch, ih htext,
      advance_of_not_mem hpiece, Scan.push_append]

/-- The scans of lines that are numbered from `n` on. -/
def scanLines : (n : Nat) → List (List Char) → Scan
  | _, [] => ⟨[], none⟩
  | n, line :: rest => (scanAt ⟨n, 1⟩ line).append (scanLines (n + 1) rest)

/-- A text is scanned one line after the other. -/
theorem scanAt_flatMap {ls : List (List Char)} (h : ∀ line ∈ ls, '\n' ∉ line) (n : Nat) :
    scanAt ⟨n, 1⟩ (ls.flatMap fun line => line ++ ['\n']) = scanLines n ls := by
  induction ls generalizing n with
  | nil => rfl
  | cons line rest ih =>
    rw [List.flatMap_cons, List.append_assoc, List.singleton_append,
      scanAt_line (h line List.mem_cons_self),
      ih (fun other hother => h other (List.mem_cons_of_mem _ hother))]
    rfl

/-! ## Places in lines -/

/-- A piece of a text stands at a position in the text, which itself starts at `p`. -/
def StandsIn (p : Position) (text piece : List Char) (q : Position) : Prop :=
  ∃ before after, text = before ++ piece ++ after ∧ q = p.advance before

theorem StandsIn.behind {p q : Position} (front : List Char) {text piece : List Char}
    (h : StandsIn (p.advance front) text piece q) : StandsIn p (front ++ text) piece q := by
  obtain ⟨before, after, rfl, rfl⟩ := h
  exact ⟨front ++ before, after, by simp only [List.append_assoc],
    (p.advance_append front before).symm⟩

theorem Scan.mem_push {t u : Token} {s : Scan} (h : t ∈ (s.push u).tokens) :
    t = u ∧ u.terminal ≠ .blank ∨ t ∈ s.tokens := by
  unfold Scan.push at h
  split at h
  · exact .inr h
  · rename_i hblank
    exact (List.mem_cons.mp h).imp_left fun heq => ⟨heq, hblank⟩

theorem Scan.stop_push (s : Scan) (t : Token) : (s.push t).stop = s.stop := by
  unfold Scan.push
  split <;> rfl

/-- Every token stands where it says, and so does the character that stops a scan. -/
theorem scanAt_standsIn (p : Position) (text : List Char) :
    (∀ t ∈ (scanAt p text).tokens, t.text.toList ≠ [] ∧ StandsIn p text t.text.toList t.position) ∧
      ∀ c q, (scanAt p text).stop = some (c, q) → StandsIn p text [c] q := by
  induction p, text using scan_induction with
  | nil p => simp [scanAt_nil]
  | gap p c rest hgap ih =>
    rw [scanAt_gap hgap]
    exact ⟨fun t ht => ⟨(ih.1 t ht).1, StandsIn.behind [c] (ih.1 t ht).2⟩,
      fun d q hstop => StandsIn.behind [c] (ih.2 d q hstop)⟩
  | stop p c rest hgap hmunch =>
    rw [scanAt_stopped hmunch]
    refine ⟨by simp, fun d q hstop => ?_⟩
    obtain ⟨rfl, rfl⟩ := Prod.mk.inj (Option.some.inj hstop)
    exact ⟨[], rest, rfl, rfl⟩
  | piece p terminal c piece rest hgap hmunch ih =>
    rw [scanAt_piece hmunch]
    constructor
    · intro t ht
      rcases Scan.mem_push ht with ⟨rfl, _⟩ | ht
      · rw [String.toList_ofList]
        exact ⟨List.cons_ne_nil c piece, [], rest, rfl, rfl⟩
      · exact ⟨(ih.1 t ht).1, StandsIn.behind _ (ih.1 t ht).2⟩
    · intro d q hstop
      rw [Scan.stop_push] at hstop
      exact StandsIn.behind _ (ih.2 d q hstop)

theorem Scan.mem_append {t : Token} {s s' : Scan} (h : t ∈ (s.append s').tokens) :
    t ∈ s.tokens ∨ t ∈ s'.tokens := by
  unfold Scan.append at h
  split at h
  · exact .inl h
  · exact List.mem_append.mp h

theorem Scan.stop_append {found : Char × Position} {s s' : Scan}
    (h : (s.append s').stop = some found) : s.stop = some found ∨ s'.stop = some found := by
  unfold Scan.append at h
  split at h
  · exact .inl h
  · exact .inr h

/-- Characters stand in one of several lines, numbered from `n` on, at the column that counts what
is in front of them. -/
def StandsAt (n : Nat) (ls : List (List Char)) (piece : List Char) (q : Position) : Prop :=
  ∃ k line before after, ls[k]? = some line ∧ line = before ++ piece ++ after ∧
    q = ⟨n + k, before.length + 1⟩

theorem StandsAt.below {n : Nat} {ls : List (List Char)} {piece line : List Char} {q : Position}
    (h : StandsAt (n + 1) ls piece q) : StandsAt n (line :: ls) piece q := by
  obtain ⟨k, found, before, after, hfound, hline, rfl⟩ := h
  exact ⟨k + 1, found, before, after, hfound, hline, by rw [Nat.add_right_comm, Nat.add_assoc]⟩

theorem StandsIn.standsAt {n : Nat} {ls : List (List Char)} {line piece : List Char} {q : Position}
    (hline : '\n' ∉ line) (h : StandsIn ⟨n, 1⟩ line piece q) : StandsAt n (line :: ls) piece q := by
  obtain ⟨before, after, rfl, rfl⟩ := h
  have hbefore : '\n' ∉ before := fun hmem =>
    hline (List.mem_append_left _ (List.mem_append_left _ hmem))
  refine ⟨0, _, before, after, rfl, rfl, ?_⟩
  rw [advance_of_not_mem hbefore, Nat.add_comm 1]
  rfl

/-- Every token stands in its line at its column, and so does the character that stops a scan. -/
theorem scanLines_standsAt {ls : List (List Char)} (h : ∀ line ∈ ls, '\n' ∉ line) (n : Nat) :
    (∀ t ∈ (scanLines n ls).tokens,
      t.text.toList ≠ [] ∧ StandsAt n ls t.text.toList t.position) ∧
      ∀ c q, (scanLines n ls).stop = some (c, q) → StandsAt n ls [c] q := by
  induction ls generalizing n with
  | nil => simp [scanLines]
  | cons line rest ih =>
    have hline := h line List.mem_cons_self
    obtain ⟨htokens, hstop⟩ :=
      ih (fun other hother => h other (List.mem_cons_of_mem _ hother)) (n + 1)
    obtain ⟨hfirst, hfirstStop⟩ := scanAt_standsIn ⟨n, 1⟩ line
    constructor
    · intro t ht
      rcases Scan.mem_append ht with ht | ht
      · exact ⟨(hfirst t ht).1, (hfirst t ht).2.standsAt hline⟩
      · exact ⟨(htokens t ht).1, (htokens t ht).2.below⟩
    · intro c q hfound
      rcases Scan.stop_append hfound with hfound | hfound
      · exact (hfirstStop c q hfound).standsAt hline
      · exact (hstop c q hfound).below

/-! ## Lines without their comments -/

/-- A line as far as its comment. -/
def withoutComment (line : List Char) : List Char := line.takeWhile (· ≠ '#')

/-- A scan without its comments. -/
def Scan.withoutComments (s : Scan) : Scan :=
  ⟨s.tokens.filter (·.terminal != .comment), s.stop⟩

theorem Scan.withoutComments_push {t : Token} (ht : t.terminal ≠ .comment) (s : Scan) :
    (s.push t).withoutComments = s.withoutComments.push t := by
  unfold Scan.push
  split
  · rfl
  · rw [withoutComments, withoutComments, List.filter_cons_of_pos (by simpa using ht)]

theorem Scan.withoutComments_append (s s' : Scan) :
    (s.append s').withoutComments = s.withoutComments.append s'.withoutComments := by
  obtain ⟨tokens, stop⟩ := s
  cases stop with
  | some found => rfl
  | none => simp [append, withoutComments]

theorem wordTerminal_ne_comment (word : List Char) : wordTerminal word ≠ .comment := by
  unfold wordTerminal
  split <;> simp

theorem number?_ne_comment (text piece : List Char) : number? text ≠ some (.comment, piece) := by
  intro h
  simp only [number?] at h
  split at h
  · cases h
  · split at h
    · cases h
    · split at h <;> cases h

/-- Only its mark makes a comment. -/
theorem munch_comment_iff {c : Char} {rest piece : List Char} {terminal : Terminal}
    (h : munch (c :: rest) = some (terminal, piece)) : terminal = .comment ↔ c = '#' := by
  by_cases hc : c = '#'
  · subst hc
    obtain ⟨rfl, -⟩ := Prod.mk.inj (Option.some.inj h)
    exact ⟨fun _ => rfl, fun _ => rfl⟩
  · refine ⟨fun hcomment => ?_, fun heq => absurd heq hc⟩
    subst hcomment
    simp only [munch, hc, if_false] at h
    split at h
    · exact absurd (Prod.mk.inj (Option.some.inj h)).1 (wordTerminal_ne_comment _)
    · split at h
      · exact absurd (Prod.mk.inj (Option.some.inj h)).1 (by decide)
      · split at h
        · exact absurd h (number?_ne_comment _ _)
        · exact absurd h (by simp [mark?])

theorem munch_withoutComment {c : Char} (hgap : isGap c = false) (hc : c ≠ '#')
    (rest : List Char) : munch (withoutComment (c :: rest)) = munch (c :: rest) := by
  rw [withoutComment, List.takeWhile_cons_of_pos (by simpa using hc)]
  have hsplit := List.takeWhile_append_dropWhile (p := (· ≠ '#')) (l := rest)
  cases hbehind : rest.dropWhile (· ≠ '#') with
  | nil => rw [hbehind, List.append_nil] at hsplit; rw [hsplit]
  | cons d behind =>
    have hd : d = '#' := by
      have hnot := List.head?_dropWhile_not (· ≠ '#') rest
      rw [hbehind] at hnot
      simpa using hnot
    rw [hbehind] at hsplit
    rw [← IsEnding.munch_append (.inr hd) behind hgap (fun heq => absurd heq hc), List.cons_append,
      hsplit]

/-- A line has the tokens that it has in front of its comment. -/
theorem scanAt_withoutComment {line : List Char} (h : '\n' ∉ line) (p : Position) :
    scanAt p (withoutComment line) = (scanAt p line).withoutComments := by
  induction p, line using scan_induction with
  | nil p => rfl
  | gap p c rest hgap ih =>
    have hc : c ≠ '#' := by
      rintro rfl
      cases hgap
    have hrest : '\n' ∉ rest := fun hmem => h (List.mem_cons_of_mem _ hmem)
    rw [withoutComment, List.takeWhile_cons_of_pos (by simpa using hc), scanAt_gap hgap,
      scanAt_gap hgap, ← ih hrest]
    rfl
  | stop p c rest hgap hmunch =>
    have hc : c ≠ '#' := by
      rintro rfl
      cases hmunch
    have hcut := (munch_withoutComment hgap hc rest).trans hmunch
    rw [withoutComment, List.takeWhile_cons_of_pos (by simpa using hc)] at hcut ⊢
    rw [scanAt_stopped hcut, scanAt_stopped hmunch]
    rfl
  | piece p terminal c piece rest hgap hmunch ih =>
    by_cases hc : c = '#'
    · -- The comment takes the rest of the line.
      subst hc
      have hwhole : ('#' :: piece ++ rest).takeWhile (· != '\n') = '#' :: piece ++ rest :=
        List.takeWhile_eq_self_iff.mpr fun d hd => by
          rw [bne_iff_ne]
          rintro rfl
          exact h hd
      obtain ⟨rfl, hpiece⟩ := Prod.mk.inj (Option.some.inj hmunch)
      obtain rfl : rest = [] := by
        have hlength := congrArg List.length (hwhole.symm.trans hpiece)
        rw [List.length_append] at hlength
        exact List.length_eq_zero_iff.mp (by omega)
      rw [scanAt_piece hmunch]
      rfl
    · have hcomment : terminal ≠ .comment := mt (munch_comment_iff hmunch).mp hc
      have hcut := (munch_withoutComment hgap hc (piece ++ rest)).trans hmunch
      have hfront : ∀ d ∈ c :: piece, d ≠ '#' := fun d hd => by
        have hmem := (isPiece_of_munch hcut).isPrefix.subset hd
        simpa using List.mem_takeWhile_imp hmem
      have hsplit : withoutComment (c :: piece ++ rest) = c :: piece ++ withoutComment rest :=
        List.takeWhile_append_of_pos (by simpa using hfront)
      rw [← List.cons_append, hsplit] at hcut
      rw [hsplit, scanAt_piece hcut, scanAt_piece hmunch, Scan.withoutComments_push hcomment,
        ih fun hmem => h (List.mem_append_right _ hmem)]

/-- Lines have the tokens that they have in front of their comments. -/
theorem scanLines_withoutComment {ls : List (List Char)} (h : ∀ line ∈ ls, '\n' ∉ line) (n : Nat) :
    scanLines n (ls.map withoutComment) = (scanLines n ls).withoutComments := by
  induction ls generalizing n with
  | nil => rfl
  | cons line rest ih =>
    rw [List.map_cons, scanLines, scanLines, scanAt_withoutComment (h line List.mem_cons_self),
      ih (fun other hother => h other (List.mem_cons_of_mem _ hother)), Scan.withoutComments_append]

end Lexer

end AnnotatedShader
