import AnnotatedShader.Proofs.Number.Literal
import AnnotatedShader.Proofs.Token.Line

set_option autoImplicit false

/-!
# The longest piece

What each terminal of the grammar writes, with no reader in it.  A reader that looks at the first
character and takes what it can find the longest prefix that any terminal writes: a sign, a point,
an exponent, a second colon and the rest of a name are taken where they stand.

`Writes` is the grammar of tokens, with one constructor for each kind of terminal; a number is a
`Whole` by its parts.  `IsLongest` says of a piece that a terminal writes it and that no terminal
writes a longer prefix of the text.  Of the terminals that write a piece, a reserved word goes
before an identifier.

The proof goes by the first character.  It is a case analysis on what a terminal can begin with:
names, numbers and marks share no first character.  For numbers the longest prefix is told by
`numberTail`, the part behind the digits.  `munch_eq_some_iff` and `munch_eq_none_iff` are the
results: the lexer gives the longest piece and the terminal that writes it, and finds nothing only
where nothing is to be found.  The same pieces come from trying patterns in the order of their
priorities (`Proofs.Token.Precedence`).
-/

namespace AnnotatedShader.Lexer

open AnnotatedShader.Text AnnotatedShader.Number

/-! ## What terminals write -/

/-- A whole number: its minus sign, if it has one, and its digits. -/
structure Whole where
  sign : List Char
  digits : List Char
  sign_mem : sign = [] ∨ sign = ['-']
  isDigits : IsDigits digits

def Whole.toText (n : Whole) : List Char := n.sign ++ n.digits

/-- An exponent that may be missing. -/
def exponentText (e : Option ExponentPart) : List Char := (e.map ExponentPart.toText).getD []

/-- The texts that a terminal of the grammar writes. -/
inductive Writes : Terminal → List Char → Prop
  | word (w : Reserved) : Writes (.word w) w.text.toList
  | mark (m : Mark) : Writes (.mark m) m.text.toList
  | identifier {c : Char} {rest : List Char} (hc : isNameStart c = true)
    (hrest : ∀ x ∈ rest, isNameChar x = true) : Writes .identifier (c :: rest)
  | integer (n : Whole) : Writes .integer n.toText
  | fraction (n : Whole) {digits : List Char} (h : ∀ x ∈ digits, x.isDigit = true)
    (e : Option ExponentPart) : Writes .floating (n.toText ++ '.' :: (digits ++ exponentText e))
  | scientific (n : Whole) (e : ExponentPart) : Writes .floating (n.toText ++ e.toText)
  | comment {rest : List Char} (h : '\n' ∉ rest) : Writes .comment ('#' :: rest)
  | blank {text : List Char} (hne : text ≠ []) (h : ∀ x ∈ text, isGap x = true) :
    Writes .blank text

/-- A piece is the longest prefix of a text that any terminal writes.  Where more than one terminal
writes it, it is a reserved word exactly if all the name characters at the front of the text are
that word. -/
structure IsLongest (text : List Char) (terminal : Terminal) (piece : List Char) : Prop where
  writes : Writes terminal piece
  isPrefix : piece <+: text
  longest : ∀ other p, Writes other p → p <+: text → p.length ≤ piece.length
  word : ∀ w, terminal = .word w ↔ text.takeWhile isNameChar = w.text.toList

/-- No terminal writes a prefix of a text. -/
def Unreadable (text : List Char) : Prop := ∀ terminal p, Writes terminal p → ¬ p <+: text

/-! ## Names -/

theorem exists_text_eq_cons (w : Reserved) : ∃ c rest, w.text.toList = c :: rest ∧
    isNameStart c = true ∧ ∀ x ∈ rest, isNameChar x = true := by
  cases w <;> exact ⟨_, _, rfl, by decide, List.all_eq_true.mp (by decide)⟩

theorem munch_name {c : Char} (hc : isNameStart c = true) (rest : List Char) :
    munch (c :: rest) = some (wordTerminal (c :: rest.takeWhile isNameChar),
      c :: rest.takeWhile isNameChar) := by
  simp only [munch, hc, if_true, List.takeWhile_cons_of_pos (isNameChar_of_isNameStart hc)]

theorem wordTerminal_text (w : Reserved) : wordTerminal w.text.toList = .word w := by
  rw [wordTerminal, String.ofList_toList, Reserved.ofText?_text]

/-- A run of name characters is an identifier or a reserved word. -/
theorem wordTerminal_cases (run : List Char) : wordTerminal run = .identifier ∨
    ∃ w : Reserved, wordTerminal run = .word w ∧ run = w.text.toList := by
  unfold wordTerminal
  split
  · rename_i w hw
    exact .inr ⟨w, rfl, by rw [Reserved.text_of_ofText? hw, String.toList_ofList]⟩
  · exact .inl rfl

theorem wordTerminal_eq_word_iff {run : List Char} {w : Reserved} :
    wordTerminal run = .word w ↔ run = w.text.toList := by
  constructor
  · intro h
    obtain hrun | ⟨v, hv, rfl⟩ := wordTerminal_cases run
    · rw [hrun] at h
      contradiction
    · rw [hv] at h
      rw [Terminal.word.inj h]
  · rintro rfl
    exact wordTerminal_text w

/-! ## Numbers -/

theorem isDigits_append_takeWhile {digits : List Char} (h : IsDigits digits) (rest : List Char) :
    IsDigits (digits ++ rest.takeWhile Char.isDigit) where
  ne_nil := List.append_ne_nil_of_left_ne_nil h.ne_nil _
  isDigit c hc := by
    rcases List.mem_append.mp hc with hc | hc
    · exact h.isDigit c hc
    · exact List.mem_takeWhile_imp hc

theorem exists_eq_cons_of_isDigits {digits : List Char} (h : IsDigits digits) :
    ∃ c rest, digits = c :: rest ∧ c.isDigit = true := by
  obtain ⟨c, rest, rfl⟩ := List.exists_cons_of_ne_nil h.ne_nil
  exact ⟨c, rest, rfl, h.isDigit c List.mem_cons_self⟩

theorem exponentSign_append_digits {sign digits : List Char}
    (hsign : sign = [] ∨ sign = ['+'] ∨ sign = ['-']) (h : IsDigits digits) (rest : List Char) :
    exponentSign (sign ++ digits ++ rest) = sign := by
  obtain ⟨c, others, rfl, hc⟩ := exists_eq_cons_of_isDigits h
  have hplus := ne_of_isDigit hc (d := '+') (by decide)
  have hminus := ne_of_isDigit hc (d := '-') (by decide)
  rcases hsign with rfl | rfl | rfl
  · simp [exponentSign, hplus, hminus]
  · rfl
  · rfl

/-- An exponent goes on as long as there are digits. -/
theorem exponentPart_toText (e : ExponentPart) (rest : List Char) :
    exponentPart (e.toText ++ rest) = e.toText ++ rest.takeWhile Char.isDigit := by
  have hsign := exponentSign_append_digits e.sign_mem e.isDigits rest
  have hdigits : ((e.sign ++ e.digits ++ rest).drop e.sign.length).takeWhile Char.isDigit =
      e.digits ++ rest.takeWhile Char.isDigit := by
    rw [List.append_assoc, List.drop_left, List.takeWhile_append_of_pos e.isDigits.isDigit]
  have hne : (e.digits ++ rest.takeWhile Char.isDigit).isEmpty = false := by
    simp [e.isDigits.ne_nil]
  simp only [ExponentPart.toText, List.cons_append, exponentPart, hsign, hdigits, hne]
  simp [e.mark_mem, List.append_assoc]

/-- What an exponent is read as is one. -/
theorem exists_exponentPart_eq (text : List Char) :
    exponentPart text = [] ∨ ∃ e : ExponentPart, exponentPart text = e.toText := by
  cases text with
  | nil => exact .inl rfl
  | cons c rest =>
    simp only [exponentPart]
    split
    · rename_i hmark
      split
      · exact .inl rfl
      · rename_i hdigits
        refine .inr ⟨⟨c, exponentSign rest, _, by simpa using hmark, ?_, ⟨by simpa using hdigits,
          fun x hx => List.mem_takeWhile_imp hx⟩⟩, rfl⟩
        unfold exponentSign
        split <;> simp
    · exact .inl rfl

/-- What makes a whole number a floating one: a point with the digits and the exponent behind it, or
an exponent. -/
def numberTail : List Char → List Char
  | '.' :: rest =>
    '.' :: (rest.takeWhile Char.isDigit ++ exponentPart (rest.dropWhile Char.isDigit))
  | rest => exponentPart rest

/-- The terminal of a number with a tail. -/
def numberTerminal (tail : List Char) : Terminal := if tail = [] then .integer else .floating

theorem numberSign_toText (n : Whole) (rest : List Char) :
    numberSign (n.toText ++ rest) = n.sign := by
  obtain ⟨sign, digits, hsign, hdigits⟩ := n
  obtain ⟨c, others, rfl, hc⟩ := exists_eq_cons_of_isDigits hdigits
  have hminus := ne_of_isDigit hc (d := '-') (by decide)
  rcases hsign with rfl | rfl
  · simp [Whole.toText, numberSign, hminus]
  · rfl

/-- A number whose digits are all there is read with its tail. -/
theorem number?_toText (n : Whole) {rest : List Char}
    (hrest : rest.head?.any Char.isDigit = false) : number? (n.toText ++ rest) =
      some (numberTerminal (numberTail rest), n.toText ++ numberTail rest) := by
  have hwhole : ((n.toText ++ rest).drop n.sign.length).takeWhile Char.isDigit = n.digits := by
    rw [Whole.toText, List.append_assoc, List.drop_left]
    exact (takeWhile_append_of_head? n.isDigits.isDigit hrest).1
  have hbehind : (n.toText ++ rest).drop (n.sign ++ n.digits).length = rest := List.drop_left
  have hne : n.digits.isEmpty = false := by simp [n.isDigits.ne_nil]
  simp only [number?, numberSign_toText, hwhole, hbehind, hne, Bool.false_eq_true, if_false]
  unfold numberTail numberTerminal
  split
  · simp [drop_takeWhile, Whole.toText]
  · simp only [List.isEmpty_iff, Whole.toText]
    split <;> rename_i hexponent <;> simp [hexponent]

/-- A text that a number is read from starts with a whole number. -/
theorem exists_whole_of_number? {text piece : List Char} {terminal : Terminal}
    (h : number? text = some (terminal, piece)) :
    ∃ (n : Whole) (rest : List Char), text = n.toText ++ rest ∧
      rest.head?.any Char.isDigit = false := by
  have hsplit := List.prefix_iff_eq_append.mp (numberSign_isPrefix text)
  generalize hunsigned : text.drop (numberSign text).length = unsigned at hsplit
  refine ⟨⟨numberSign text, unsigned.takeWhile Char.isDigit, ?_, ⟨?_, ?_⟩⟩,
    unsigned.dropWhile Char.isDigit, ?_, head?_any_dropWhile _ _⟩
  · unfold numberSign
    split <;> simp
  · intro hempty
    simp [number?, hunsigned, hempty] at h
  · exact fun c hc => List.mem_takeWhile_imp hc
  · rw [Whole.toText, List.append_assoc, List.takeWhile_append_dropWhile, hsplit]

theorem writes_numberTail (n : Whole) (rest : List Char) :
    Writes (numberTerminal (numberTail rest)) (n.toText ++ numberTail rest) := by
  unfold numberTail
  split
  · rename_i behind
    have hdigits : ∀ x ∈ behind.takeWhile Char.isDigit, x.isDigit = true := fun x hx =>
      List.mem_takeWhile_imp hx
    obtain hexponent | ⟨e, hexponent⟩ := exists_exponentPart_eq (behind.dropWhile Char.isDigit)
    · rw [hexponent]
      exact .fraction n hdigits none
    · rw [hexponent]
      exact .fraction n hdigits (some e)
  · obtain hexponent | ⟨e, hexponent⟩ := exists_exponentPart_eq rest
    · rw [hexponent, List.append_nil]
      exact .integer n
    · rw [hexponent]
      exact .scientific n e

/-! ## Pieces -/

/-- The piece that is read is written by its terminal. -/
theorem writes_of_munch {text piece : List Char} {terminal : Terminal}
    (h : munch text = some (terminal, piece)) : Writes terminal piece := by
  cases text with
  | nil => simp [munch] at h
  | cons c rest =>
    simp only [munch] at h
    split at h
    · rename_i hstart
      obtain ⟨rfl, rfl⟩ := Prod.mk.inj (Option.some.inj h)
      obtain hterminal | ⟨w, hterminal, hw⟩ := wordTerminal_cases ((c :: rest).takeWhile isNameChar)
      · rw [hterminal, List.takeWhile_cons_of_pos (isNameChar_of_isNameStart hstart)]
        exact .identifier hstart fun x hx => List.mem_takeWhile_imp hx
      · rw [hterminal, hw]
        exact .word w
    · split at h
      · rename_i hgap
        obtain ⟨rfl, rfl⟩ := Prod.mk.inj (Option.some.inj h)
        exact .blank (by simp [hgap]) fun x hx => List.mem_takeWhile_imp hx
      · split at h
        · rename_i hmark
          obtain ⟨rfl, rfl⟩ := Prod.mk.inj (Option.some.inj h)
          rw [hmark, List.takeWhile_cons_of_pos (by decide)]
          refine .comment fun hfeed => ?_
          simpa using List.mem_takeWhile_imp hfeed
        · split at h
          · obtain ⟨n, behind, htext, hbehind⟩ := exists_whole_of_number? h
            rw [htext, number?_toText n hbehind] at h
            obtain ⟨rfl, rfl⟩ := Prod.mk.inj (Option.some.inj h)
            exact writes_numberTail n behind
          · obtain ⟨m, _, h⟩ := Option.map_eq_some_iff.mp h
            obtain ⟨rfl, rfl⟩ := Prod.mk.inj h
            exact .mark m

/-- A reserved word is read exactly if all the name characters at the front are that word. -/
theorem munch_word_iff {text piece : List Char} {terminal : Terminal}
    (h : munch text = some (terminal, piece)) (w : Reserved) :
    terminal = .word w ↔ text.takeWhile isNameChar = w.text.toList := by
  cases text with
  | nil => simp [munch] at h
  | cons c rest =>
    cases hstart : isNameStart c with
    | true =>
      rw [munch_name hstart] at h
      obtain ⟨rfl, rfl⟩ := Prod.mk.inj (Option.some.inj h)
      rw [List.takeWhile_cons_of_pos (isNameChar_of_isNameStart hstart)]
      exact wordTerminal_eq_word_iff
    | false =>
      obtain ⟨first, others, hw, hfirst, _⟩ := exists_text_eq_cons w
      constructor
      · rintro rfl
        obtain ⟨_, ⟨behind, htext⟩, _⟩ := isPiece_of_munch h
        generalize hword : Terminal.word w = terminal at h
        cases writes_of_munch h with
        | word v =>
          obtain rfl := Terminal.word.inj hword
          rw [hw] at htext
          rw [(List.cons.inj htext).1] at hfirst
          exact absurd (hfirst.symm.trans hstart) (by decide)
        | _ => contradiction
      · intro hrun
        have hmem : (c :: rest).takeWhile isNameChar <+: c :: rest := List.takeWhile_prefix _
        rw [hrun, hw] at hmem
        obtain ⟨behind, htext⟩ := hmem
        rw [(List.cons.inj htext).1] at hfirst
        exact absurd (hfirst.symm.trans hstart) (by decide)

/-- A text that a terminal writes, and what may be found in its place: at least this text, and if it
is no more, the same terminal, or a reserved word for an identifier. -/
def Covers (terminal : Terminal) (p : List Char) (found : Option (Terminal × List Char)) : Prop :=
  ∃ other more, found = some (other, p ++ more) ∧
    (more = [] → other = terminal ∨ terminal = .identifier ∧ ∃ w, other = .word w)

theorem isNameStart_eq_false_of_isDigit {c : Char} (h : c.isDigit = true) :
    isNameStart c = false := by
  have hunder : (c == '_') = false := beq_false_of_ne (ne_of_isDigit h (by decide))
  rw [isNameStart, hunder, Bool.or_false]
  delta Char.isAlpha Char.isUpper Char.isLower Char.isDigit at *
  simp only [Bool.or_eq_false_iff, Bool.and_eq_true, Bool.and_eq_false_iff, decide_eq_true_eq,
    decide_eq_false_iff_not, UInt32.le_iff_toNat_le, ge_iff_le] at *
  have hA : 'A'.val.toNat = 65 := rfl
  have ha : 'a'.val.toNat = 97 := rfl
  have h9 : '9'.val.toNat = 57 := rfl
  omega

theorem isGap_eq_false_of_isDigit {c : Char} (h : c.isDigit = true) : isGap c = false := by
  simp only [isGap, Bool.or_eq_false_iff, beq_eq_false_iff_ne]
  refine ⟨⟨⟨⟨?_, ?_⟩, ?_⟩, ?_⟩, ?_⟩ <;> exact ne_of_isDigit h (by decide)

theorem munch_eq_number? {c : Char} (h : c = '-' ∨ c.isDigit = true) (rest : List Char) :
    munch (c :: rest) = number? (c :: rest) := by
  rcases h with rfl | h
  · rfl
  · have hcomment : c ≠ '#' := ne_of_isDigit h (by decide)
    simp [munch, isNameStart_eq_false_of_isDigit h, isGap_eq_false_of_isDigit h, hcomment, h]

/-- A number is read with all its digits and its tail. -/
theorem munch_toText (n : Whole) (rest : List Char) : munch (n.toText ++ rest) =
    some (numberTerminal (numberTail (rest.dropWhile Char.isDigit)),
      n.toText ++ (rest.takeWhile Char.isDigit ++ numberTail (rest.dropWhile Char.isDigit))) := by
  have hfirst : ∃ c others, n.toText = c :: others ∧ (c = '-' ∨ c.isDigit = true) := by
    obtain ⟨sign, digits, hsign, hdigits⟩ := n
    rcases hsign with rfl | rfl
    · obtain ⟨c, others, rfl, hc⟩ := exists_eq_cons_of_isDigits hdigits
      exact ⟨c, others, rfl, .inr hc⟩
    · exact ⟨'-', digits, rfl, .inl rfl⟩
  let long : Whole := ⟨n.sign, _, n.sign_mem, isDigits_append_takeWhile n.isDigits rest⟩
  have hlong : n.toText ++ rest = long.toText ++ rest.dropWhile Char.isDigit := by
    simp only [long, Whole.toText, List.append_assoc, List.takeWhile_append_dropWhile]
  have hread := number?_toText long (head?_any_dropWhile Char.isDigit rest)
  obtain ⟨c, others, hcons, hc⟩ := hfirst
  have hmunch := munch_eq_number? hc (others ++ rest)
  rw [← List.cons_append, ← hcons, hlong, hread] at hmunch
  rw [hlong, hmunch]
  simp only [long, Whole.toText, List.append_assoc]

/-- A point and what stands behind it are all taken. -/
theorem exists_numberTail_eq {digits : List Char} (h : ∀ x ∈ digits, x.isDigit = true)
    (e : Option ExponentPart) (rest : List Char) : ∃ more,
      numberTail ('.' :: (digits ++ exponentText e) ++ rest) =
        '.' :: (digits ++ exponentText e) ++ more := by
  cases e with
  | none =>
    refine ⟨rest.takeWhile Char.isDigit ++ exponentPart (rest.dropWhile Char.isDigit), ?_⟩
    simp [numberTail, exponentText, List.takeWhile_append_of_pos h, List.dropWhile_append_of_pos h]
  | some e =>
    have hmark : (e.toText ++ rest).head?.any Char.isDigit = false := by
      rcases e.mark_mem with hmark | hmark <;> simp [ExponentPart.toText, hmark]
    obtain ⟨htake, hdrop⟩ := takeWhile_append_of_head? h hmark
    refine ⟨rest.takeWhile Char.isDigit, ?_⟩
    simp [numberTail, exponentText, htake, hdrop, exponentPart_toText]

/-- An exponent behind a whole number is taken. -/
theorem numberTail_toText (e : ExponentPart) (rest : List Char) :
    numberTail (e.toText ++ rest) = e.toText ++ rest.takeWhile Char.isDigit := by
  rw [← exponentPart_toText]
  obtain ⟨mark, sign, digits, hmark, _, _⟩ := e
  rcases hmark with rfl | rfl <;> rfl

theorem covers_whole (n : Whole) (rest : List Char) :
    Covers .integer n.toText (munch (n.toText ++ rest)) := by
  refine ⟨_, _, munch_toText n rest, fun hmore => .inl ?_⟩
  rw [numberTerminal, if_pos (List.append_eq_nil_iff.mp hmore).2]

/-- Whatever a whole number is followed by, as far as it is taken, makes a floating number. -/
theorem covers_floating (n : Whole) {tail rest more : List Char} (hne : tail ≠ [])
    (hhead : tail.head?.any Char.isDigit = false)
    (htail : numberTail (tail ++ rest) = tail ++ more) :
    Covers .floating (n.toText ++ tail) (munch (n.toText ++ tail ++ rest)) := by
  have hstart : (tail ++ rest).head?.any Char.isDigit = false := by
    rwa [List.head?_append_of_ne_nil _ hne]
  obtain ⟨htake, hdrop⟩ := @takeWhile_append_of_head? Char.isDigit [] _ (by simp) hstart
  rw [List.nil_append] at htake hdrop
  refine ⟨.floating, more, ?_, fun _ => .inl rfl⟩
  rw [List.append_assoc, munch_toText, htake, hdrop, htail, numberTerminal,
    if_neg (List.append_ne_nil_of_left_ne_nil hne more), List.nil_append, List.append_assoc]

theorem covers_mark (m : Mark) (rest : List Char) :
    Covers (.mark m) m.text.toList (munch (m.text.toList ++ rest)) := by
  cases m with
  | colon =>
    cases rest with
    | nil => exact ⟨_, [], rfl, fun _ => .inl rfl⟩
    | cons c rest =>
      by_cases hc : c = ':'
      · subst hc
        exact ⟨.mark .doubleColon, [':'], rfl, by simp⟩
      · refine ⟨.mark .colon, [], ?_, fun _ => .inl rfl⟩
        change mark? (':' :: c :: rest) = _
        simp [mark?, Mark.all, Mark.text, Ne.symm hc]
  | _ => exact ⟨_, [], rfl, fun _ => .inl rfl⟩

/-- A text that a terminal writes is taken, whatever stands behind it. -/
theorem covers_of_writes {terminal : Terminal} {p : List Char} (h : Writes terminal p)
    (rest : List Char) : Covers terminal p (munch (p ++ rest)) := by
  cases h with
  | word w =>
    obtain ⟨c, others, hw, hc, hothers⟩ := exists_text_eq_cons w
    refine ⟨wordTerminal (w.text.toList ++ rest.takeWhile isNameChar),
      rest.takeWhile isNameChar, ?_, fun hmore => .inl ?_⟩
    · rw [hw, List.cons_append, munch_name hc, List.takeWhile_append_of_pos hothers]
      rfl
    · rw [hmore, List.append_nil, wordTerminal_text]
  | @identifier c others hc hothers =>
    refine ⟨wordTerminal (c :: others ++ rest.takeWhile isNameChar),
      rest.takeWhile isNameChar, ?_, fun hmore => ?_⟩
    · rw [List.cons_append, munch_name hc, List.takeWhile_append_of_pos hothers]
      rfl
    · rw [hmore, List.append_nil]
      obtain hrun | ⟨w, hw, _⟩ := wordTerminal_cases (c :: others)
      · exact .inl hrun
      · exact .inr ⟨rfl, w, hw⟩
  | mark m => exact covers_mark m rest
  | integer n => exact covers_whole n rest
  | fraction n hdigits e =>
    obtain ⟨more, htail⟩ := exists_numberTail_eq hdigits e rest
    exact covers_floating n (List.cons_ne_nil _ _) rfl htail
  | scientific n e =>
    refine covers_floating n (List.cons_ne_nil _ _) ?_ (numberTail_toText e rest)
    rcases e.mark_mem with hmark | hmark <;> simp [ExponentPart.toText, hmark]
  | @comment others hfeed =>
    have hline : ∀ x ∈ '#' :: others, (x != '\n') = true := by
      intro x hx
      rcases List.mem_cons.mp hx with rfl | hx
      · rfl
      · exact bne_iff_ne.mpr fun heq => hfeed (heq ▸ hx)
    refine ⟨.comment, rest.takeWhile (· != '\n'), ?_, fun _ => .inl rfl⟩
    rw [← List.takeWhile_append_of_pos hline]
    rfl
  | blank hne hgaps =>
    refine ⟨.blank, rest.takeWhile isGap, ?_, fun _ => .inl rfl⟩
    obtain ⟨c, others, rfl⟩ := List.exists_cons_of_ne_nil hne
    rw [List.cons_append, munch_gap (hgaps c List.mem_cons_self), ← List.cons_append,
      List.takeWhile_append_of_pos hgaps]

/-- What is read at the front of a text is the longest piece. -/
theorem munch_eq_some_iff {text piece : List Char} {terminal : Terminal} :
    munch text = some (terminal, piece) ↔ IsLongest text terminal piece := by
  constructor
  · intro h
    refine ⟨writes_of_munch h, (isPiece_of_munch h).isPrefix, ?_, munch_word_iff h⟩
    rintro other p hwrites ⟨rest, rfl⟩
    obtain ⟨_, more, hmunch, _⟩ := covers_of_writes hwrites rest
    obtain ⟨rfl, rfl⟩ := Prod.mk.inj (Option.some.inj (h.symm.trans hmunch))
    rw [List.length_append]
    exact Nat.le_add_right p.length more.length
  · rintro ⟨hwrites, ⟨rest, rfl⟩, hlongest, hword⟩
    obtain ⟨other, more, hmunch, hother⟩ := covers_of_writes hwrites rest
    have hle := hlongest other _ (writes_of_munch hmunch) (isPiece_of_munch hmunch).isPrefix
    rw [List.length_append] at hle
    obtain rfl := List.eq_nil_of_length_eq_zero (by omega : more.length = 0)
    rw [List.append_nil] at hmunch
    obtain rfl | ⟨rfl, w, rfl⟩ := hother rfl
    · exact hmunch
    · exact absurd ((hword w).mpr ((munch_word_iff hmunch w).mp rfl)) (by simp)

/-- Nothing is read where no terminal writes a prefix. -/
theorem munch_eq_none_iff {text : List Char} : munch text = none ↔ Unreadable text := by
  constructor
  · rintro h terminal p hwrites ⟨rest, rfl⟩
    obtain ⟨_, _, hmunch, _⟩ := covers_of_writes hwrites rest
    rw [h] at hmunch
    contradiction
  · intro h
    cases hmunch : munch text with
    | none => rfl
    | some found =>
      obtain ⟨terminal, piece⟩ := found
      exact absurd (isPiece_of_munch hmunch).isPrefix (h terminal piece (writes_of_munch hmunch))

end AnnotatedShader.Lexer
