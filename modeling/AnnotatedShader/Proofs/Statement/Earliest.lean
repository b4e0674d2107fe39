import AnnotatedShader.Proofs.Grammar.Prompt
import AnnotatedShader.Proofs.Statement.Reports
import AnnotatedShader.Proofs.Token.Tokenized

set_option autoImplicit false

/-!
# Texts that are not well formed

Tokens are read as they come, so of the errors of a text the first one is reported, be it a token or
a character.  What stands in front of it can go on to a text of the language, and with it cannot.

`Earliest` has one case for each kind of report: a token that does not fit, the end of the text, and
a character that no token starts with.  The last is met only if the tokens in front of it have been
read without an error, so the viable prefix property of the grammar is all that is needed for it too
(`phrasesOfScan_earliest`).  A text with a meaning that is refused is none of this; it is well
formed.
-/

namespace AnnotatedShader.Statement

open Grammar Failure
open Lexer (Tokenized tokenize stopDiagnostic)

/-- A diagnostic tells the first error of a text: all in front of it is viable. -/
inductive Earliest (file text : String) : Diagnostic → Prop
  /-- a token with which no text starts as this one does -/
  | token {ts : List Token} {t : Token} {q : Position} {rest : List Char}
    {expected : List Terminal} (htokens : Tokenized .start text.toList (ts ++ [t]) q rest)
    (hviable : Viable (grammarTokens ts)) (hnext : ¬ Viable (grammarTokens (ts ++ [t]))) :
    Earliest file text
      ⟨file, t.position, .unexpectedToken (expected.map .terminal) (.token t)⟩
  /-- the end of a text that is only the start of one -/
  | endOfInput {ts : List Token} {p q : Position} {expected : List Terminal}
    (htokens : Tokenized .start text.toList ts q []) (hviable : Viable (grammarTokens ts))
    (hends : ∀ ps, ¬ DerivesText (grammarTokens ts) ps) :
    Earliest file text ⟨file, p, .unexpectedToken (expected.map .terminal) .endOfInput⟩
  /-- a character at which there is no token -/
  | character {ts : List Token} {c : Char} {q : Position} {rest : List Char} {d : Diagnostic}
    (hlex : tokenize file text = .error d) (hd : d = stopDiagnostic file (c, q))
    (htokens : Tokenized .start text.toList ts q (c :: rest))
    (hviable : Viable (grammarTokens ts)) : Earliest file text d
  /-- an array size or an attribute of a text that is well formed -/
  | meaning {ps : List Phrase} {u : Token} {d : Diagnostic} (hderives : Derives text ps)
    (hmeaning : OnMeaning file u d) : Earliest file text d

theorem exists_split_of_grammarTokens {ts used behind : List Token} {t : Token}
    (h : grammarTokens ts = used ++ t :: behind) : ∃ front back, ts = front ++ [t] ++ back ∧
      grammarTokens front = used ∧ grammarTokens (front ++ [t]) = used ++ [t] := by
  obtain ⟨front, others, rfl, hfront, hothers⟩ := List.filter_eq_append_iff.mp h
  obtain ⟨comments, back, rfl, hcomments, ht, _⟩ := List.filter_eq_cons_iff.mp hothers
  have hnone : grammarTokens comments = [] := List.filter_eq_nil_iff.mpr hcomments
  have hgrammar : grammarTokens (front ++ comments) = used := by
    rw [grammarTokens, List.filter_append, hfront]
    exact (congrArg _ hnone).trans (List.append_nil used)
  refine ⟨front ++ comments, back, by simp, hgrammar, ?_⟩
  rw [grammarTokens, List.filter_append, List.filter_singleton, ht]
  exact congrArg (· ++ [t]) hgrammar

/-- A reader that is not stuck in front of a token has read viable tokens. -/
theorem viable_of_phrases {ts : List Token}
    (h : ∀ e t behind, phrases ts ≠ .error ⟨e, t :: behind⟩) : Viable ts := by
  cases hphrases : phrases ts with
  | ok ps => exact ⟨[], ps, by rw [List.append_nil]; exact phrases_eq_ok_iff.mp hphrases⟩
  | error s =>
    obtain ⟨e, rest⟩ := s
    cases rest with
    | cons t behind => exact absurd hphrases (h e t behind)
    | nil =>
      obtain ⟨used, rfl, hviable, _⟩ := phrases_stuck_viable hphrases
      rwa [List.append_nil]

theorem phrasesOfScan_earliest {file text : String} {d : Diagnostic}
    (h : phrasesOfScan file (Lexer.scan text) = .error d) : Earliest file text d := by
  obtain ⟨q, rest, htokens, hrest, hstop⟩ := Lexer.scan_eq_iff.mp (rfl : Lexer.scan text = _)
  simp only [phrasesOfScan] at h
  split at h
  · rename_i expected t behind hphrases
    obtain rfl := Except.error.inj h
    obtain ⟨used, hsplit, hviable, hnext⟩ := phrases_stuck_viable hphrases
    obtain ⟨front, back, hts, hfront, hwith⟩ := exists_split_of_grammarTokens hsplit
    rw [hts] at htokens
    obtain ⟨q', rest', hbefore⟩ := htokens.front
    exact .token hbefore (hfront ▸ hviable) (hwith ▸ hnext t behind rfl)
  · rename_i stop hsome hstuck
    obtain rfl := Except.error.inj h
    rw [hsome] at hstop
    obtain ⟨c, hc, rfl⟩ := Option.map_eq_some_iff.mp hstop.symm
    obtain ⟨behind, rfl⟩ := List.head?_eq_some_iff.mp hc
    have hlex : tokenize file text = .error (stopDiagnostic file (c, q)) :=
      Lexer.tokenize_eq_error_iff.mpr ⟨_, _, Lexer.scan_eq_iff.mpr ⟨q, _, htokens, hrest, rfl⟩, rfl⟩
    exact .character hlex rfl htokens (viable_of_phrases fun e t behind he => hstuck e t behind he)
  · rename_i stuck hnotoken hphrases hnone
    obtain rfl := Except.error.inj h
    rw [hnone] at hstop
    obtain rfl : rest = [] := by simpa using hstop.symm
    have hviable := viable_of_phrases fun e t behind he =>
      hnotoken e t behind (Except.error.inj (hphrases.symm.trans he))
    obtain ⟨expected, left⟩ := stuck
    cases left with
    | cons t behind => exact absurd rfl (hnotoken expected t behind)
    | nil =>
      refine .endOfInput htokens hviable fun ps hps => ?_
      rw [← phrases_eq_ok_iff, hphrases] at hps
      contradiction
  · contradiction

/-- Whatever is reported of a text is its first error, or, if it has none, an array size or an
attribute. -/
theorem parse_earliest {file text : String} {d : Diagnostic}
    (h : parse file text = .error (.diagnosed d)) : Earliest file text d := by
  simp only [parse] at h
  split at h
  · rename_i d' hd
    obtain rfl := Failure.diagnosed.inj (Except.error.inj h)
    exact phrasesOfScan_earliest hd
  · rename_i ps hps
    have hmeanings : FailsOnly (Reports fun d => ∃ u, OnMeaning file u d) (ofPhrases file ps) :=
      ofPhrases_reports fun p hp u hu d hd => ⟨u, hd⟩
    rcases bind_eq_error_iff.mp h with hfailed | ⟨_, _, hdone⟩
    · obtain ⟨u, hu⟩ := hmeanings.of_eq _ hfailed d rfl
      exact .meaning ((phrasesOfScan_eq_ok_iff file).mp hps) hu
    · contradiction

/-- A missing semicolon is told before a character that is none of the language, which is told where
nothing else is wrong; a struct that is not closed is told at the end. -/
theorem parse_earliest_texts :
    Earliest "Lamp" "const float A\nconst float $;" ⟨"Lamp", ⟨2, 1⟩,
      .unexpectedToken [.terminal (.mark .colon), .terminal (.mark .semicolon)]
        (.token ⟨.word .const_, "const", ⟨2, 1⟩⟩)⟩ ∧
    Earliest "Lamp" "const float $A;" ⟨"Lamp", ⟨1, 13⟩, .unexpectedCharacter '$'⟩ ∧
    Earliest "Lamp" "const struct S \x7b vec4f C;" ⟨"Lamp", ⟨1, 25⟩,
      .unexpectedToken [.terminal .identifier, .terminal (.mark .rightBrace)] .endOfInput⟩ := by
  refine ⟨parse_earliest ?_, parse_earliest ?_, parse_earliest ?_⟩ <;> decide +kernel

end AnnotatedShader.Statement
