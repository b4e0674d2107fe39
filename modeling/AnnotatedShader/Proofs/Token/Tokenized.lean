import AnnotatedShader.Proofs.Token.Longest

set_option autoImplicit false

/-!
# The tokens of a text

A text is tokenized from the left: gaps are passed, and every token is the longest piece at its
place.  The tokenizer finds all tokens of a text that can be tokenized to its end, and otherwise
reports the first character at which no terminal writes anything.

`Tokenized` is this relation between a text, its tokens and what is left, and its rules speak of
longest pieces instead of the lexer.  The front of a text has one tokenization only
(`Tokenized.front`), which is why the first failure is determined.  The scan is shown to be that
tokenization, for texts that come to their end (`tokenize_eq_ok_iff`) and for those that do not
(`tokenize_eq_error_iff`), and both are put together in the specification of the tokenizer.
-/

namespace AnnotatedShader.Lexer

open AnnotatedShader.Text

/-- From a position on, a text is tokenized up to a second position, where a rest of it is left.
Between the tokens there are gaps only. -/
inductive Tokenized : Position → List Char → List Token → Position → List Char → Prop
  | done (p : Position) (rest : List Char) : Tokenized p rest [] p rest
  | gap {p q : Position} {c : Char} {text rest : List Char} {ts : List Token}
    (hc : isGap c = true) (h : Tokenized (p.next c) text ts q rest) :
    Tokenized p (c :: text) ts q rest
  | token {q : Position} {t : Token} {text rest : List Char} {ts : List Token}
    (hblank : t.terminal ≠ .blank)
    (hlongest : IsLongest (t.text.toList ++ text) t.terminal t.text.toList)
    (h : Tokenized (t.position.advance t.text.toList) text ts q rest) :
    Tokenized t.position (t.text.toList ++ text) (t :: ts) q rest

/-- The first of the tokens stand in front of the others. -/
theorem Tokenized.front {p q : Position} {text rest : List Char} {ts us : List Token}
    (h : Tokenized p text (ts ++ us) q rest) : ∃ q' rest', Tokenized p text ts q' rest' := by
  generalize hall : ts ++ us = all at h
  induction h generalizing ts with
  | done p rest =>
    obtain ⟨rfl, _⟩ := List.append_eq_nil_iff.mp hall
    exact ⟨p, rest, .done p rest⟩
  | gap hc _ ih =>
    obtain ⟨q', rest', h⟩ := ih hall
    exact ⟨q', rest', .gap hc h⟩
  | token hblank hlongest _ ih =>
    cases ts with
    | nil => exact ⟨_, _, .done _ _⟩
    | cons t ts =>
      obtain ⟨rfl, hothers⟩ := List.cons.inj hall
      obtain ⟨q', rest', h⟩ := ih hothers
      exact ⟨q', rest', .token hblank hlongest h⟩

theorem scanAt_of_tokenized {p q : Position} {text rest : List Char} {ts : List Token}
    (h : Tokenized p text ts q rest) :
    scanAt p text = ⟨ts ++ (scanAt q rest).tokens, (scanAt q rest).stop⟩ := by
  induction h with
  | done p rest => rfl
  | gap hc _ ih => rw [scanAt_gap hc, ih]
  | @token q t text rest ts hblank hlongest _ ih =>
    rw [scanAt_piece (munch_eq_some_iff.mpr hlongest), ih, String.ofList_toList, Scan.push,
      if_neg hblank]
    rfl

/-- Every text is tokenized up to its end or to a place where no terminal writes anything. -/
theorem exists_tokenized (p : Position) (text : List Char) :
    ∃ ts q rest, Tokenized p text ts q rest ∧ Unreadable rest := by
  induction p, text using scan_induction with
  | nil p => exact ⟨[], p, [], .done p [], munch_eq_none_iff.mp rfl⟩
  | gap p c text hgap ih =>
    obtain ⟨ts, q, rest, htokens, hrest⟩ := ih
    exact ⟨ts, q, rest, .gap hgap htokens, hrest⟩
  | stop p c text hgap hmunch =>
    exact ⟨[], p, c :: text, .done p (c :: text), munch_eq_none_iff.mp hmunch⟩
  | piece p terminal c piece text hgap hmunch ih =>
    obtain ⟨ts, q, rest, htokens, hrest⟩ := ih
    have hblank : terminal ≠ .blank := by
      rintro rfl
      cases writes_of_munch hmunch with
      | blank _ hgaps => simp [hgaps c List.mem_cons_self] at hgap
    have hlongest := munch_eq_some_iff.mp hmunch
    obtain ⟨lexeme, hlexeme⟩ : ∃ lexeme : String, lexeme.toList = c :: piece :=
      ⟨String.ofList (c :: piece), String.toList_ofList⟩
    rw [← hlexeme] at hlongest htokens ⊢
    exact ⟨⟨terminal, lexeme, p⟩ :: ts, q, rest,
      Tokenized.token (t := ⟨terminal, lexeme, p⟩) hblank hlongest htokens, hrest⟩

theorem scanAt_of_unreadable {text : List Char} (h : Unreadable text) (p : Position) :
    scanAt p text = ⟨[], text.head?.map (·, p)⟩ := by
  cases text with
  | nil => rfl
  | cons c rest => exact scanAt_stopped (munch_eq_none_iff.mpr h)

/-- What a scan finds: the tokens of the text as far as it can be tokenized, and the character that
stands there. -/
theorem scan_eq_iff {text : String} {s : Scan} : scan text = s ↔ ∃ q rest,
    Tokenized .start text.toList s.tokens q rest ∧ Unreadable rest ∧
      s.stop = rest.head?.map (·, q) := by
  have hscan : ∀ {ts q rest}, Tokenized .start text.toList ts q rest → Unreadable rest →
      scan text = ⟨ts, rest.head?.map (·, q)⟩ := by
    intro ts q rest htokens hrest
    change scanAt .start text.toList = _
    rw [scanAt_of_tokenized htokens, scanAt_of_unreadable hrest, List.append_nil]
  constructor
  · rintro rfl
    obtain ⟨ts, q, rest, htokens, hrest⟩ := exists_tokenized .start text.toList
    rw [hscan htokens hrest]
    exact ⟨q, rest, htokens, hrest, rfl⟩
  · rintro ⟨q, rest, htokens, hrest, hstop⟩
    rw [hscan htokens hrest, ← hstop]

theorem tokenize_eq_ok_iff {file text : String} {ts : List Token} :
    tokenize file text = .ok ts ↔ scan text = ⟨ts, none⟩ := by
  unfold tokenize
  obtain ⟨us, stop⟩ := scan text
  cases stop <;> simp

theorem tokenize_eq_error_iff {file text : String} {d : Diagnostic} :
    tokenize file text = .error d ↔
      ∃ ts stop, scan text = ⟨ts, some stop⟩ ∧ d = stopDiagnostic file stop := by
  unfold tokenize
  obtain ⟨us, _ | ⟨c, q⟩⟩ := scan text <;> simp [eq_comm]

/-- The tokenizer gives tokens exactly if the text is tokenized by them to its end, and a diagnostic
exactly if the text is tokenized up to a place at which no terminal writes a prefix of what is left:
it reports the character that stands there. -/
theorem tokenize_spec (file text : String) :
    (∀ ts, tokenize file text = .ok ts ↔ ∃ q, Tokenized .start text.toList ts q []) ∧
      ∀ d, tokenize file text = .error d ↔ ∃ ts q c rest,
        Tokenized .start text.toList ts q (c :: rest) ∧ Unreadable (c :: rest) ∧
          d = stopDiagnostic file (c, q) := by
  refine ⟨fun ts => ?_, fun d => ?_⟩
  · rw [tokenize_eq_ok_iff, scan_eq_iff]
    constructor
    · rintro ⟨q, rest, htokens, _, hstop⟩
      obtain rfl : rest = [] := by simpa using hstop.symm
      exact ⟨q, htokens⟩
    · rintro ⟨q, htokens⟩
      exact ⟨q, [], htokens, munch_eq_none_iff.mp rfl, rfl⟩
  · rw [tokenize_eq_error_iff]
    constructor
    · rintro ⟨ts, stop, hscan, rfl⟩
      obtain ⟨q, rest, htokens, hrest, hstop⟩ := scan_eq_iff.mp hscan
      obtain ⟨c, hc, rfl⟩ := Option.map_eq_some_iff.mp hstop.symm
      obtain ⟨behind, rfl⟩ := List.head?_eq_some_iff.mp hc
      exact ⟨ts, q, c, behind, htokens, hrest, rfl⟩
    · rintro ⟨ts, q, c, rest, htokens, hrest, rfl⟩
      exact ⟨ts, (c, q), scan_eq_iff.mpr ⟨q, c :: rest, htokens, hrest, rfl⟩, rfl⟩

end AnnotatedShader.Lexer
