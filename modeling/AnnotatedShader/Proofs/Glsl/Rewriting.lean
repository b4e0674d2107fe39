import AnnotatedShader.Proofs.Glsl.Arguments

set_option autoImplicit false

/-!
# Rewriting is substitution

A rewritten body consists of a piece for each lexeme of the body, in order, and is read as the
lexemes of these pieces.  `Substituted` says this of a list of lexemes and the text that is made of
it, and `Replaced` says for each lexeme, in place, what its piece is.

The induction follows the steps of the rewriting: a character, an identifier, or a whole sampling
call, whose arguments are rewritten as a text of their own.  What it carries along is that no call
lies across the place where a step starts (`Piecewise` with `Clear`).  Without that, a parenthesis
could belong to a call whose identifier has been passed already, and it would not be known what
stands for it.  The step of a call is the long one: its identifier, the gap, the arguments and both
parentheses are pieces of their own (`callPieces`), and each has to be read back
(`lexed_callLexemes`).
-/

namespace AnnotatedShader.Glsl

open AnnotatedShader.Text

/-! ## Steps of the rewriting -/

section Steps

variable (r : Rewriting) (fuel : Nat)

@[simp] theorem rewriteFrom_nil (before : Option Char) : rewriteFrom r fuel before [] = [] := by
  cases fuel <;> rfl

theorem rewriteFrom_char {before : Option Char} {c : Char} (h : startsName before c = false)
    (rest : List Char) :
    rewriteFrom r (fuel + 1) before (c :: rest) = c :: rewriteFrom r fuel (some c) rest := by
  rw [startsName] at h
  rw [rewriteFrom, h]
  rfl

theorem rewriteFrom_name {before : Option Char} {ident behind : List Char}
    (hident : IsIdentifier ident) (hbefore : before.any isWordChar = false)
    (hbehind : behind.head?.any isNameChar = false) :
    rewriteFrom r (fuel + 1) before (ident ++ behind) =
      if before = some '.' then ident ++ rewriteFrom r fuel ident.getLast? behind
      else
        match r.members.lookup (String.ofList ident) with
        | some replacement => replacement.toList ++ rewriteFrom r fuel ident.getLast? behind
        | none =>
          match sampleCall? r ident behind with
          | none => ident ++ rewriteFrom r fuel ident.getLast? behind
          | some call =>
            textureCall call.sampler (trim (rewriteFrom r fuel none call.arguments)) ++
              rewriteFrom r fuel (some ')') call.behind := by
  obtain ⟨htake, -⟩ := takeWhile_append_of_head? (fun _ => hident.isNameChar) hbehind
  cases hident with
  | @cons c rest hstart hrest =>
    rw [List.cons_append, rewriteFrom, ← List.cons_append, htake]
    dsimp only
    rw [List.drop_left]
    exact if_pos (by rw [hstart, hbefore]; rfl)

/-- A rewritten text starts with an identifier only if the text does. -/
theorem head?_rewriteFrom {before : Option Char} {text : List Char}
    (h : text.head?.any isNameChar = false) :
    (rewriteFrom r fuel before text).head?.any isNameChar = false := by
  cases text with
  | nil => rw [rewriteFrom_nil, List.head?_nil, Option.any_none]
  | cons c rest =>
    cases fuel with
    | zero => exact h
    | succ fuel =>
      have hc : isNameChar c = false := by simpa using h
      rw [rewriteFrom_char r fuel (startsName_eq_false_of_not_isNameChar hc before)]
      simpa using hc

end Steps

/-! ## Pieces of an output -/

/-- That an output consists of pieces that stand for the lexemes of a text, and is read as these. -/
structure Substituted (r : Rewriting) (front text output : List Char)
    (pieces : List (List Lexeme)) : Prop where
  replaced : List.Forall₂ (Replaced r) (occurrences front text) pieces
  spelled : output = spell pieces.flatten
  lexed : Lexed front.getLast? pieces.flatten

/-- A character in front of which no sampling call lies open is copied. -/
theorem Clear.replaced_char {r : Rewriting} {front rest : List Char} {c : Char}
    (hclear : Clear r front (c :: rest)) : Replaced r ⟨front, .char c, rest⟩ [.char c] := by
  refine .copied fun call sampler piece hcall hreshapes => ?_
  obtain ⟨⟨a, ha⟩, b, hb⟩ := hreshapes.inside
  have htext : call.text = front ++ c :: rest := hreshapes.text_eq.symm
  have hne := List.length_pos_iff.mpr hcall.identifier.ne_nil
  have ha := congrArg List.length ha
  have hb := congrArg List.length hb
  simp only [List.length_append, List.length_cons] at ha hb
  obtain ⟨y, hy⟩ := hclear call sampler hcall htext (by omega)
  have hwhole := congrArg List.length (call.text_eq_written.symm.trans htext)
  have hy := congrArg List.length hy
  simp only [List.length_append, List.length_cons] at hy hwhole
  omega

namespace Substituted

variable {r : Rewriting} {front output : List Char} {pieces : List (List Lexeme)}

theorem nil (r : Rewriting) (front : List Char) : Substituted r front [] [] [] where
  replaced := by
    rw [occurrences_nil]
    exact .nil
  spelled := rfl
  lexed := .nil _

theorem char {rest : List Char} {c : Char} (hc : startsName front.getLast? c = false)
    (hclear : Clear r front (c :: rest)) (h : Substituted r (front ++ [c]) rest output pieces) :
    Substituted r front (c :: rest) (c :: output) ([.char c] :: pieces) where
  replaced := by
    rw [occurrences_char hc]
    exact .cons hclear.replaced_char h.replaced
  spelled := by rw [h.spelled, List.flatten_cons, spell_append]; rfl
  lexed := by
    have hlexed := h.lexed
    rw [List.getLast?_concat] at hlexed
    exact .char hc hlexed

theorem name {ident behind : List Char} {piece : List Lexeme} (hident : IsIdentifier ident)
    (hfront : front.getLast?.any isWordChar = false) (hbehind : behind.head?.any isNameChar = false)
    (hpiece : Replaced r ⟨front, .name (String.ofList ident), behind⟩ piece)
    (hlexed : Lexed front.getLast? piece) (hlast : (spell piece).getLast?.any isWordChar = true)
    (houtput : output.head?.any isNameChar = false)
    (h : Substituted r (front ++ ident) behind output pieces) :
    Substituted r front (ident ++ behind) (spell piece ++ output) (piece :: pieces) where
  replaced := by
    rw [occurrences_name hident hfront hbehind]
    exact .cons hpiece h.replaced
  spelled := by rw [h.spelled, List.flatten_cons, spell_append]
  lexed := by
    rw [List.flatten_cons]
    refine hlexed.append (h.lexed.congr ?_) (.inr (h.spelled ▸ houtput))
    rw [hident.getLast?_append, hident.any_getLast?]
    obtain ⟨x, hx, hword⟩ := (Option.any_eq_true _ _).mp hlast
    rw [hx, Option.some_or, Option.any_some, hword]

/-- An identifier that is copied. -/
theorem kept {ident behind : List Char} (hident : IsIdentifier ident)
    (hfront : front.getLast?.any isWordChar = false) (hbehind : behind.head?.any isNameChar = false)
    (hpiece : Replaced r ⟨front, .name (String.ofList ident), behind⟩ [.name (String.ofList ident)])
    (houtput : output.head?.any isNameChar = false)
    (h : Substituted r (front ++ ident) behind output pieces) :
    Substituted r front (ident ++ behind) (ident ++ output)
      ([.name (String.ofList ident)] :: pieces) := by
  have hlexed : Lexed front.getLast? [.name (String.ofList ident)] :=
    .name (by rwa [String.toList_ofList]) hfront rfl (.nil _)
  have hspell : spell [.name (String.ofList ident)] = ident := by simp
  have hlast : (spell [.name (String.ofList ident)]).getLast?.any isWordChar = true := by
    rw [hspell]
    exact hident.any_getLast?
  have hname := h.name hident hfront hbehind hpiece hlexed hlast houtput
  rwa [hspell] at hname

/-- An identifier that becomes a selection. -/
theorem selection {ident behind : List Char} {inst mem : String} (hident : IsIdentifier ident)
    (hfront : front.getLast?.any isWordChar = false) (hbehind : behind.head?.any isNameChar = false)
    (hinst : IsIdentifier inst.toList) (hmem : IsIdentifier mem.toList)
    (hpoint : front.getLast? ≠ some '.')
    (hmember : r.members.lookup (String.ofList ident) = some (inst ++ "." ++ mem))
    (houtput : output.head?.any isNameChar = false)
    (h : Substituted r (front ++ ident) behind output pieces) :
    Substituted r front (ident ++ behind) ((inst ++ "." ++ mem).toList ++ output)
      ([.name inst, .char '.', .name mem] :: pieces) := by
  have hlexed : Lexed front.getLast? [.name inst, .char '.', .name mem] :=
    .name hinst hfront rfl (.char (startsName_eq_false_of_not_isNameChar rfl _)
      (.name hmem (by decide) rfl (.nil _)))
  have hspell : spell [.name inst, .char '.', .name mem] = (inst ++ "." ++ mem).toList := by
    simp [String.toList_append]
  have hlast : (spell [.name inst, .char '.', .name mem]).getLast?.any isWordChar = true := by
    rw [hspell, String.toList_append, hmem.getLast?_append, hmem.any_getLast?]
  have hname :=
    h.name hident hfront hbehind (.member hpoint hmember hinst hmem) hlexed hlast houtput
  rwa [hspell] at hname

end Substituted

/-! ## A sampling call -/

/-- What stands for the opening parenthesis of a sampling call. -/
def separator (blank : Bool) : List Lexeme := if blank then [] else [.char ',', .char ' ']

/-- A call of the sampling function and what is behind it. -/
def callLexemes (sampler : String) (blank : Bool) (arguments rest : List Lexeme) : List Lexeme :=
  .name "texture" :: .char '(' :: .name sampler ::
    (separator blank ++ (arguments ++ .char ')' :: rest))

/-- The pieces for the lexemes of a sampling call, by those for its arguments, and the pieces
behind. -/
def callPieces (c : Call) (sampler : String) (kept rest : List (List Lexeme)) :
    List (List Lexeme) :=
  [.name "texture", .char '(', .name sampler] ::
    ((occurrences (c.front ++ c.ident.toList) c.gap).map (fun _ => []) ++
      separator (c.arguments.all isBlank) :: (kept ++ [.char ')'] :: rest))

theorem flatten_callPieces (c : Call) (sampler : String) (kept rest : List (List Lexeme)) :
    (callPieces c sampler kept rest).flatten =
      callLexemes sampler (c.arguments.all isBlank) kept.flatten rest.flatten := by
  simp [callPieces, callLexemes]

namespace Samples

variable {r : Rewriting} {c : Call} {sampler : String}

/-- The lexemes of a sampling call. -/
theorem occurrences_eq (h : Samples r c sampler) :
    occurrences c.front (c.ident.toList ++ c.tail) = c.name ::
      ((occurrences (c.front ++ c.ident.toList) c.gap).map
          (Occurrence.within [] ('(' :: (c.arguments ++ ')' :: c.behind))) ++
        ⟨c.front ++ (c.ident.toList ++ c.gap), .char '(', c.arguments ++ ')' :: c.behind⟩ ::
          ((occurrences [] c.arguments).map (Occurrence.within c.opening (')' :: c.behind)) ++
            ⟨c.opening ++ c.arguments, .char ')', c.behind⟩ ::
              occurrences c.written c.behind)) := by
  have hopening : c.opening.getLast?.any isWordChar = false := by
    rw [getLast?_opening]
    decide
  have harguments : (occurrences c.opening c.arguments).map
      (Occurrence.within [] (')' :: c.behind)) =
      (occurrences [] c.arguments).map (Occurrence.within c.opening (')' :: c.behind)) := by
    have hread := occurrences_behind hopening [] c.arguments
    rw [List.append_nil] at hread
    rw [hread, List.map_map]
    refine List.map_congr_left fun o _ => ?_
    simp [Occurrence.within]
  rw [occurrences_name h.identifier h.boundary h.tail_head, String.ofList_toList]
  have hfront : c.front ++ c.ident.toList ++ c.gap ++ ['('] = c.opening := by simp [Call.opening]
  have hwritten : c.opening ++ c.arguments ++ [')'] = c.written := by simp [Call.written]
  rw [Call.tail, occurrences_append (.inr rfl),
    occurrences_char (startsName_eq_false_of_not_isNameChar rfl _), hfront,
    occurrences_append (.inr rfl), harguments,
    occurrences_char (startsName_eq_false_of_not_isNameChar rfl _), hwritten]
  simp only [List.append_assoc, Call.name, Call.tail]

theorem replaced_gap (h : Samples r c sampler) :
    List.Forall₂ (Replaced r)
      ((occurrences (c.front ++ c.ident.toList) c.gap).map
        (Occurrence.within [] ('(' :: (c.arguments ++ ')' :: c.behind))))
      ((occurrences (c.front ++ c.ident.toList) c.gap).map fun _ => []) := by
  rw [List.forall₂_map_left_iff, List.forall₂_map_right_iff, List.forall₂_same]
  intro o ho
  obtain ⟨⟨a, ha, hsplit⟩, hname⟩ := mem_occurrences ho
  obtain ⟨front, lexeme, behind⟩ := o
  obtain rfl : front = _ := ha
  cases lexeme with
  | name ident =>
    exfalso
    have hident := hname ident rfl
    have hmem := List.head_mem hident.ne_nil
    have hgap := h.gap _ (hsplit ▸ List.mem_append_right a (List.mem_append_left behind hmem))
    exact absurd (hident.isNameChar hmem) (by rw [isNameChar_eq_false_of_isCallGap hgap]; decide)
  | char x =>
    refine .reshaped h (.gap hsplit ?_ rfl)
    rw [List.nil_append, List.append_assoc]

theorem replaced_closing (r : Rewriting) (c : Call) :
    Replaced r ⟨c.opening ++ c.arguments, .char ')', c.behind⟩ [.char ')'] := by
  refine .copied fun c' sampler' piece h' hreshapes => ?_
  cases hreshapes with
  | gap hgap => exact absurd (h'.gap ')' (by simp [hgap])) (by decide)
  | blank _ _ _ hx => exact absurd hx (by decide)

theorem replaced_opening (h : Samples r c sampler) :
    Replaced r ⟨c.front ++ (c.ident.toList ++ c.gap), .char '(', c.arguments ++ ')' :: c.behind⟩
      (separator (c.arguments.all isBlank)) := by
  cases harguments : c.arguments.all isBlank with
  | true => exact .reshaped h (.opening rfl rfl harguments)
  | false => exact .reshaped h (.separator rfl rfl (by simp [harguments]))

end Samples

theorem textureCall_eq (sampler : String) (arguments : List Char) :
    textureCall sampler arguments = "texture".toList ++ '(' :: (sampler.toList ++
      ((if arguments.isEmpty then [] else ',' :: ' ' :: arguments) ++ [')'])) := by
  have hopening : "texture(".toList = "texture".toList ++ ['('] := by decide
  delta textureCall
  rw [hopening, List.append_assoc, List.append_assoc, List.append_assoc]
  apply congrArg ("texture".toList ++ ·)
  rw [List.singleton_append]

section CallLexemes

variable {sampler : String} {arguments rest : List Lexeme} {blank : Bool}

theorem spell_callLexemes (hblank : blank = true → arguments = [])
    (hsolid : blank = false → Solid (spell arguments)) :
    spell (callLexemes sampler blank arguments rest) =
      textureCall sampler (spell arguments) ++ spell rest := by
  rw [callLexemes, textureCall_eq]
  cases blank with
  | true =>
    rw [hblank rfl]
    simp only [spell_cons, Lexeme.text_name, Lexeme.text_char, separator, if_true, spell_nil,
      List.isEmpty_nil, List.append_assoc, List.cons_append, List.nil_append]
  | false =>
    have hne : (spell arguments).isEmpty = false := by simpa using (hsolid rfl).ne_nil
    simp only [spell_cons, spell_append, Lexeme.text_name, Lexeme.text_char, separator, hne,
      Bool.false_eq_true, if_false, List.append_assoc, List.cons_append, List.nil_append]

theorem lexed_callLexemes {before : Option Char} (hbefore : before.any isWordChar = false)
    (hsampler : IsIdentifier sampler.toList) (harguments : Lexed none arguments)
    (hrest : Lexed (some ')') rest) (hblank : blank = true → arguments = []) :
    Lexed before (callLexemes sampler blank arguments rest) := by
  have hclosing (before : Option Char) : Lexed before (.char ')' :: rest) :=
    .char (startsName_eq_false_of_not_isNameChar rfl before) hrest
  refine .name (.of_all rfl rfl) hbefore rfl
    (.char (startsName_eq_false_of_not_isNameChar rfl _) (.name hsampler rfl ?_ ?_))
  · cases blank with
    | true => rw [hblank rfl]; rfl
    | false => rfl
  · cases blank with
    | true =>
      rw [hblank rfl]
      exact hclosing _
    | false =>
      have hspace : (none : Option Char).any isWordChar = (some ' ').any isWordChar := by decide
      have htail : Lexed (some ' ') (arguments ++ .char ')' :: rest) :=
        .append (harguments.congr hspace) (hclosing _) (.inr rfl)
      exact .char (startsName_eq_false_of_not_isNameChar rfl _)
        (.char (startsName_eq_false_of_not_isNameChar rfl _) htail)

end CallLexemes

theorem Substituted.call {r : Rewriting} (hr : r.Selects) {c : Call} {sampler : String}
    (hc : Samples r c sampler) (hclear : Clear r c.front (c.ident.toList ++ c.tail))
    {arguments behind : List Char} {pieces pieces' : List (List Lexeme)}
    (harguments : Substituted r [] c.arguments arguments pieces)
    (hbehind : Substituted r c.written c.behind behind pieces') :
    ∃ kept, Substituted r c.front (c.ident.toList ++ c.tail)
      (textureCall sampler (trim arguments) ++ behind) (callPieces c sampler kept pieces') := by
  obtain ⟨kept, hkept, hspell, hlexed, hblank, hsolid⟩ :=
    hc.replaced_arguments hr hclear harguments.replaced harguments.lexed
  obtain ⟨t, -, hlookup⟩ := hc.texture
  refine ⟨kept, ?_, ?_, ?_⟩
  · rw [hc.occurrences_eq]
    exact .cons (.sample hc rfl) (List.rel_append hc.replaced_gap (.cons hc.replaced_opening
      (List.rel_append hkept (.cons (Samples.replaced_closing r c) hbehind.replaced))))
  · rw [flatten_callPieces, spell_callLexemes hblank hsolid, hbehind.spelled, harguments.spelled,
      hspell]
  · have hrest := hbehind.lexed
    have hwritten : c.written.getLast? = some ')' := by simp [Call.written, List.getLast?_append]
    rw [hwritten] at hrest
    rw [flatten_callPieces]
    exact lexed_callLexemes hc.boundary (hr.textures hlookup) hlexed hrest hblank

/-! ## The whole text -/

/-- That texts up to a length are rewritten piece by piece.  No sampling call may lie open where
such a text starts. -/
def Piecewise (r : Rewriting) (fuel : Nat) : Prop :=
  ∀ front text : List Char, text.length ≤ fuel → Clear r front text →
    ∃ pieces, Substituted r front text (rewriteFrom r fuel front.getLast? text) pieces

namespace Piecewise

variable {r : Rewriting} {fuel : Nat} {front : List Char}

theorem call (h : Piecewise r fuel) (hr : r.Selects) {c : Call} {sampler : String}
    (hc : Samples r c sampler) (hclear : Clear r c.front (c.ident.toList ++ c.tail))
    (hlength : c.tail.length ≤ fuel) :
    ∃ pieces, Substituted r c.front (c.ident.toList ++ c.tail)
      (textureCall sampler (trim (rewriteFrom r fuel none c.arguments)) ++
        rewriteFrom r fuel (some ')') c.behind) pieces := by
  simp only [Call.tail, List.length_append, List.length_cons] at hlength
  have hwritten : c.written.getLast? = some ')' := by simp [Call.written, List.getLast?_append]
  obtain ⟨pieces, harguments⟩ := h [] c.arguments (by omega) (Clear.start r c.arguments)
  obtain ⟨pieces', hbehind⟩ := h c.written c.behind (by omega) (hclear.call hc)
  rw [hwritten] at hbehind
  obtain ⟨kept, hcall⟩ := harguments.call hr hc hclear hbehind
  exact ⟨_, hcall⟩

/-- An identifier with all that is behind it. -/
theorem name (h : Piecewise r fuel) (hr : r.Selects) {ident behind : List Char}
    (hident : IsIdentifier ident) (hfront : front.getLast?.any isWordChar = false)
    (hbehind : behind.head?.any isNameChar = false) (hlength : behind.length ≤ fuel)
    (hclear : Clear r front (ident ++ behind)) :
    ∃ pieces, Substituted r front (ident ++ behind)
      (rewriteFrom r (fuel + 1) front.getLast? (ident ++ behind)) pieces := by
  have hhead (before : Option Char) := @head?_rewriteFrom r fuel before behind hbehind
  have hrest (hcall : ∀ (c : Call) (sampler : String), Samples r c sampler →
      c.name ≠ ⟨front, .name (String.ofList ident), behind⟩) :
      ∃ pieces, Substituted r (front ++ ident) behind (rewriteFrom r fuel ident.getLast? behind)
        pieces := by
    rw [← hident.getLast?_append front]
    exact h _ _ hlength (hclear.name hident hbehind hcall)
  rw [rewriteFrom_name r fuel hident hfront hbehind]
  by_cases hpoint : front.getLast? = some '.'
  · obtain ⟨pieces, hpieces⟩ := hrest fun c sampler hc hname => by
      obtain ⟨rfl, -, -⟩ := Occurrence.mk.inj hname
      exact hc.free hpoint
    rw [if_pos hpoint]
    exact ⟨_, hpieces.kept hident hfront hbehind (.selector hpoint) (hhead _)⟩
  rw [if_neg hpoint]
  cases hmember : r.members.lookup (String.ofList ident) with
  | some replacement =>
    obtain ⟨pieces, hpieces⟩ := hrest fun c sampler hc hname => by
      obtain ⟨-, hname, -⟩ := Occurrence.mk.inj hname
      have hno := hc.noMember
      rw [Lexeme.name.inj hname, hmember] at hno
      contradiction
    obtain ⟨inst, mem, rfl, hinst, hmem⟩ := hr.members hmember
    exact ⟨_, hpieces.selection hident hfront hbehind hinst hmem hpoint hmember (hhead _)⟩
  | none =>
    cases hcall : sampleCall? r ident behind with
    | none =>
      have hno : ∀ (c : Call) (sampler : String), Samples r c sampler →
          c.name ≠ ⟨front, .name (String.ofList ident), behind⟩ := by
        intro c sampler hc hname
        obtain ⟨-, hname, htail⟩ := Occurrence.mk.inj hname
        have hsome : sampleCall? r ident behind = some ⟨sampler, c.arguments, c.behind⟩ := by
          refine sampleCall?_eq_some_iff.mpr ⟨sampledTexture?_eq_some_iff.mpr ?_, c.gap, hc.gap,
            hc.arguments, htail.symm⟩
          rw [← Lexeme.name.inj hname]
          exact hc.texture
        rw [hcall] at hsome
        contradiction
      obtain ⟨pieces, hpieces⟩ := hrest hno
      exact ⟨_, hpieces.kept hident hfront hbehind (.name hpoint hmember hno) (hhead _)⟩
    | some call =>
      obtain ⟨hsampler, gap, hgap, hbalanced, rfl⟩ := sampleCall?_eq_some_iff.mp hcall
      have hc : Samples r ⟨front, String.ofList ident, gap, call.arguments, call.behind⟩
          call.sampler :=
        ⟨by rwa [String.toList_ofList], hfront, hpoint, hmember,
          sampledTexture?_eq_some_iff.mp hsampler, hgap, hbalanced⟩
      have hpieces := h.call hr hc (by rwa [String.toList_ofList]) hlength
      rwa [String.toList_ofList] at hpieces

end Piecewise

/-- Texts of all lengths are rewritten piece by piece. -/
theorem piecewise {r : Rewriting} (hr : r.Selects) (fuel : Nat) : Piecewise r fuel := by
  induction fuel with
  | zero =>
    intro front text hfuel hclear
    obtain rfl := List.length_eq_zero_iff.mp (Nat.le_zero.mp hfuel)
    exact ⟨[], rewriteFrom_nil r 0 front.getLast? ▸ .nil r front⟩
  | succ fuel ih =>
    intro front text hfuel hclear
    induction front, text using reading_induction with
    | nil front => exact ⟨[], rewriteFrom_nil r (fuel + 1) front.getLast? ▸ .nil r front⟩
    | char front c rest hc =>
      obtain ⟨pieces, hpieces⟩ := ih _ rest (Nat.le_of_succ_le_succ hfuel) (hclear.char hc)
      rw [List.getLast?_concat] at hpieces
      exact ⟨_, rewriteFrom_char r fuel hc rest ▸ hpieces.char hc hclear⟩
    | name front ident behind hident hfront hbehind =>
      have hne := List.length_pos_iff.mpr hident.ne_nil
      rw [List.length_append] at hfuel
      exact ih.name hr hident hfront hbehind (by omega) hclear

/-- The rewriting of a text is the substitution of its lexemes. -/
theorem substituted_rewrite {r : Rewriting} (hr : r.Selects) (text : List Char) :
    ∃ pieces, Substituted r [] text (rewrite r text) pieces :=
  piecewise hr text.length [] text (Nat.le_refl _) (Clear.start r text)

/-- A text is rewritten lexeme by lexeme: for each lexeme, as it stands in the text, there is one
piece that replaces it, the rewritten text is made of these pieces in order, and its lexemes are
those of the pieces. -/
theorem rewrite_spec {r : Rewriting} (hr : r.Selects) (text : List Char) :
    ∃ pieces, List.Forall₂ (Replaced r) (occurrences [] text) pieces ∧
      (∀ pieces', List.Forall₂ (Replaced r) (occurrences [] text) pieces' → pieces' = pieces) ∧
      rewrite r text = spell pieces.flatten ∧ lexemes (rewrite r text) = pieces.flatten := by
  obtain ⟨pieces, hreplaced, hspelled, hlexed⟩ := substituted_rewrite hr text
  refine ⟨pieces, hreplaced, fun pieces' h => ?_, hspelled, ?_⟩
  · have hunique : Relator.RightUnique (Replaced r) := fun _ _ _ => Replaced.unique
    exact List.right_unique_forall₂' hunique h hreplaced
  · rw [hspelled, lexemes]
    exact hlexed.occurrences

/-- The references of a body with one light and one texture. -/
def litRewriting : Rewriting := ⟨[("Light_Color", "Light.Color")], [("Albedo", "Albedo")]⟩

theorem litRewriting_selects : litRewriting.Selects where
  members h := by
    rw [litRewriting, List.lookup_cons, List.lookup_nil] at h
    split at h
    · refine ⟨"Light", "Color", (Option.some.inj h).symm, .of_all rfl rfl, .of_all rfl rfl⟩
    · contradiction
  textures h := by
    rw [litRewriting, List.lookup_cons, List.lookup_nil] at h
    split at h
    · rw [← Option.some.inj h]
      exact .of_all rfl rfl
    · contradiction

/-- A call in a call, a member, and a member of something else. -/
def litBody : List Char :=
  "Albedo_Sample (Albedo_Sample( uv ).xy ) * Light_Color + s.Light_Color".toList

theorem rewrite_spec_lit :
    litRewriting.Selects ∧
    (∃ pieces, List.Forall₂ (Replaced litRewriting) (occurrences [] litBody) pieces ∧
      (∀ pieces', List.Forall₂ (Replaced litRewriting) (occurrences [] litBody) pieces' →
        pieces' = pieces) ∧
      rewrite litRewriting litBody = spell pieces.flatten ∧
      lexemes (rewrite litRewriting litBody) = pieces.flatten) ∧
    rewrite litRewriting litBody =
      "texture(Albedo, texture(Albedo, uv).xy) * Light.Color + s.Light_Color".toList :=
  ⟨litRewriting_selects, rewrite_spec litRewriting_selects litBody, by decide +kernel⟩

end AnnotatedShader.Glsl
