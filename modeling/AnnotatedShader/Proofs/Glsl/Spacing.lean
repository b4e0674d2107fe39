import AnnotatedShader.Proofs.Glsl.Rewriting
import AnnotatedShader.Proofs.Glsl.Tokens

set_option autoImplicit false

/-!
# Rewriting and the layout

Rewriting substitutes the tokens of a body.  It looks at the blanks between them in two places only:
in front of a name behind a point, and in front of the parenthesis behind the name of a sampling.

`substitute` is rewriting on tokens.  It is given each token with what is in front of it as far as
it counts, and has one equation for each kind of step: a selector that is kept, a call, a name that
is replaced, and a token that is copied.  Its closing parentheses are found on tokens
(`closeTokens?`), and they are those that are found on characters (`closeTokens?_spacedFrom`).

`tokens_rewrite` proves that the tokens of a rewritten body are what `substitute` makes of those of
the body.  The induction is on the characters that are left, and has a case for a blank, for a mark
and for a word; `WordStep` says what rewriting does with a word, whether it is a number, a name or
the start of a call.
-/

namespace AnnotatedShader.Glsl

open AnnotatedShader.Text

/-! ## Closing parentheses -/

/-- How many parentheses are open behind a token, unless it closes the one in question. -/
def nest (depth : Nat) (token : List Char) : Option Nat :=
  if token = [')'] then if depth = 0 then none else some (depth - 1)
  else if token = ['('] then some (depth + 1) else some depth

/-- The tokens in front of the one that closes an open parenthesis, and those behind it. -/
def closeTokens? : (depth : Nat) → List Spaced → Option (List Spaced × List Spaced)
  | _, [] => none
  | depth, t :: rest =>
    match nest depth t.token with
    | none => some ([], rest)
    | some inner => (closeTokens? inner rest).map (Prod.map (t :: ·) id)

theorem nest_of_isWord {word : List Char} (h : IsWord word) (depth : Nat) :
    nest depth word = some depth := by
  rw [nest, if_neg (h.ne_mark (by decide)), if_neg (h.ne_mark (by decide))]

theorem nest_eq_none_iff {depth : Nat} {token : List Char} :
    nest depth token = none ↔ token = [')'] ∧ depth = 0 := by
  rw [nest]
  split
  · split <;> simp_all
  · split <;> simp_all

section Search

variable {depth inner : Nat}

theorem closeTokens?_last {t : Spaced} (h : nest depth t.token = none) (rest : List Spaced) :
    closeTokens? depth (t :: rest) = some ([], rest) := by
  rw [closeTokens?, h]

theorem closeTokens?_inner {t : Spaced} (h : nest depth t.token = some inner) (rest : List Spaced) :
    closeTokens? depth (t :: rest) = (closeTokens? inner rest).map (Prod.map (t :: ·) id) := by
  rw [closeTokens?, h]

theorem closeParen?_last {c : Char} (h : nest depth [c] = none) (rest : List Char) :
    closeParen? depth (c :: rest) = some ([], rest) := by
  obtain ⟨hc, rfl⟩ := nest_eq_none_iff.mp h
  obtain rfl : c = ')' := by simpa using hc
  exact closeParen?_closing_zero rest

theorem closeParen?_inner {c : Char} (h : nest depth [c] = some inner) (rest : List Char) :
    closeParen? depth (c :: rest) = (closeParen? inner rest).map (Prod.map (c :: ·) id) := by
  simp only [nest, List.singleton_inj] at h
  split at h
  · rename_i hclosing
    subst hclosing
    cases depth with
    | zero => contradiction
    | succ depth =>
      obtain rfl := Option.some.inj h
      exact closeParen?_closing_succ depth rest
  · rename_i hclosing
    rw [closeParen?_char hclosing]
    split at h <;> rename_i hopening <;> obtain rfl := Option.some.inj h
    · rw [if_pos hopening]
      rfl
    · rw [if_neg hopening]
      rfl

end Search

theorem closeParen?_append_word {word : List Char} (h : ∀ c ∈ word, isWordChar c = true)
    (depth : Nat) (rest : List Char) :
    closeParen? depth (word ++ rest) = (closeParen? depth rest).map (Prod.map (word ++ ·) id) := by
  induction word with
  | nil => exact Option.map_id'.symm
  | cons c word ih =>
    have hc : IsWord [c] := ⟨List.cons_ne_nil c [], by simpa using h c List.mem_cons_self⟩
    rw [List.cons_append, closeParen?_inner (nest_of_isWord hc depth),
      ih fun d hd => h d (List.mem_cons_of_mem c hd), Option.map_map]
    rfl

/-- The search in the tokens of a text finds the tokens of what the search in the text finds. -/
theorem closeTokens?_spacedFrom (depth : Nat) (gap text : List Char) :
    closeTokens? depth (spacedFrom gap text) =
      (closeParen? depth text).map (Prod.map (spacedFrom gap) (spacedFrom [])) := by
  induction gap, text using spacing_induction generalizing depth with
  | nil gap => rw [spacedFrom_nil, closeParen?_nil, closeTokens?, Option.map_none]
  | blank gap c rest hc ih =>
    have hinner : nest depth [c] = some depth := by
      rw [nest, if_neg, if_neg] <;> rw [List.singleton_inj] <;> rintro rfl <;>
        exact absurd hc (by decide)
    rw [spacedFrom_blank gap hc, ih, closeParen?_inner hinner, Option.map_map]
    exact Option.map_congr fun found _ => Prod.ext (spacedFrom_blank gap hc found.1).symm rfl
  | mark gap c rest hblank hword ih =>
    rw [spacedFrom_mark gap hblank hword]
    cases hnest : nest depth [c] with
    | none =>
      rw [closeTokens?_last hnest, closeParen?_last hnest, Option.map_some, Prod.map_apply,
        spacedFrom_nil]
    | some inner =>
      rw [closeTokens?_inner hnest, closeParen?_inner hnest, ih, Option.map_map, Option.map_map]
      exact Option.map_congr fun found _ =>
        Prod.ext (spacedFrom_mark gap hblank hword found.1).symm rfl
  | word gap word rest hword hrest ih =>
    rw [spacedFrom_word gap hword hrest, closeTokens?_inner (nest_of_isWord hword depth),
      closeParen?_append_word hword.chars, ih, Option.map_map, Option.map_map]
    -- What is found in the rest starts where the rest does, so the word ends in front of it.
    refine Option.map_congr fun found hfound => Prod.ext ?_ rfl
    obtain ⟨-, hsplit⟩ := closing_of_closeParen? hfound
    refine (spacedFrom_word gap hword ?_).symm
    rw [hsplit, List.head?_append] at hrest
    cases hhead : found.1.head? with
    | none => rfl
    | some c => simpa [hhead] using hrest

/-! ## Substitution of tokens -/

/-- What a word is replaced by if it refers to a member.  Only its front is an identifier if it goes
on with characters that none has. -/
def selection? (r : Rewriting) (word : List Char) : Option (List Char) :=
  if word.head?.any isNameStart then
    (r.members.lookup (String.ofList (word.takeWhile isNameChar))).map fun replacement =>
      replacement.toList ++ word.dropWhile isNameChar
  else none

/-- The sampler of a word that names the sampling of a texture. -/
def sampler? (r : Rewriting) (word : List Char) : Option String :=
  if word.head?.any isNameStart && word.all isNameChar && (selection? r word).isNone then
    sampledTexture? r word
  else none

/-- The tokens that stand for one that makes no call. -/
def replacement (r : Rewriting) (token : List Char) : List (List Char) :=
  ((selection? r token).map tokens).getD [token]

/-- A sampling call among tokens. -/
structure TokenCall where
  sampler : String
  arguments : List Spaced
  behind : List Spaced
  deriving DecidableEq, Repr, Inhabited

/-- The sampling call that a token with those behind it makes. -/
def tokenCall? (r : Rewriting) (token : List Char) : List Spaced → Option TokenCall
  | [] => none
  | p :: rest =>
    if p.token = ['('] ∧ p.gap.all isCallGap = true then
      (sampler? r token).bind fun sampler =>
        (closeTokens? 0 rest).map fun found => ⟨sampler, found.1, found.2⟩
    else none

/-- The tokens of a call of the sampling function. -/
def callTokens (sampler : String) (arguments : List (List Char)) : List (List Char) :=
  "texture".toList :: ['('] :: (tokens sampler.toList ++
    ((if arguments.isEmpty then [] else [','] :: arguments) ++ [[')']]))

theorem length_of_closeTokens? {depth : Nat} {ts inside behind : List Spaced}
    (h : closeTokens? depth ts = some (inside, behind)) :
    ts.length = inside.length + behind.length + 1 := by
  induction ts generalizing depth inside with
  | nil => contradiction
  | cons t rest ih =>
    cases hnest : nest depth t.token with
    | none =>
      rw [closeTokens?_last hnest, Option.some.injEq, Prod.mk.injEq] at h
      obtain ⟨rfl, rfl⟩ := h
      simp
    | some inner =>
      rw [closeTokens?_inner hnest, Option.map_eq_some_iff] at h
      obtain ⟨⟨inside, behind⟩, hrest, heq⟩ := h
      obtain ⟨rfl, rfl⟩ := Prod.mk.inj heq
      rw [List.length_cons, ih hrest, List.length_cons, id_eq]
      omega

theorem tokenCall?_eq_some {r : Rewriting} {token : List Char} {ts : List Spaced} {c : TokenCall}
    (h : tokenCall? r token ts = some c) : ∃ p rest, ts = p :: rest ∧ p.token = ['('] ∧
      p.gap.all isCallGap = true ∧ sampler? r token = some c.sampler ∧
      closeTokens? 0 rest = some (c.arguments, c.behind) := by
  cases ts with
  | nil => contradiction
  | cons p rest =>
    rw [tokenCall?] at h
    split at h
    · rename_i hopening
      obtain ⟨sampler, hsampler, h⟩ := Option.bind_eq_some_iff.mp h
      obtain ⟨found, hclose, rfl⟩ := Option.map_eq_some_iff.mp h
      exact ⟨p, rest, rfl, hopening.1, hopening.2, hsampler, hclose⟩
    · contradiction

theorem tokenCall?_of_opening {r : Rewriting} {token : List Char} {p : Spaced} {rest : List Spaced}
    {sampler : String} (htoken : p.token = ['(']) (hgap : p.gap.all isCallGap = true)
    (hsampler : sampler? r token = some sampler) :
    tokenCall? r token (p :: rest) =
      (closeTokens? 0 rest).map fun found => ⟨sampler, found.1, found.2⟩ := by
  rw [tokenCall?, if_pos ⟨htoken, hgap⟩, hsampler, Option.bind_some]

theorem length_lt_of_tokenCall? {r : Rewriting} {token : List Char} {ts : List Spaced}
    {c : TokenCall} (h : tokenCall? r token ts = some c) :
    c.arguments.length < ts.length ∧ c.behind.length < ts.length := by
  obtain ⟨p, rest, rfl, _, _, _, hclose⟩ := tokenCall?_eq_some h
  have hlength := length_of_closeTokens? hclose
  rw [List.length_cons]
  omega

/-- The tokens of a rewritten text, by those of the text; `point` tells whether a point is in front.
Directly behind a point a token is copied. -/
def substitute (r : Rewriting) : (point : Bool) → List Spaced → List (List Char)
  | _, [] => []
  | point, t :: rest =>
    if point && t.gap.isEmpty then t.token :: substitute r (t.token == ['.']) rest
    else
      match _h : tokenCall? r t.token rest with
      | some c =>
        callTokens c.sampler (substitute r false c.arguments) ++ substitute r false c.behind
      | none => replacement r t.token ++ substitute r (t.token == ['.']) rest
termination_by _ ts => ts.length
decreasing_by
  · exact Nat.lt_succ_self _
  · exact Nat.lt_succ_of_lt (length_lt_of_tokenCall? _h).1
  · exact Nat.lt_succ_of_lt (length_lt_of_tokenCall? _h).2
  · exact Nat.lt_succ_self _

section Substitute

variable (r : Rewriting) {point : Bool} {t : Spaced} {rest : List Spaced}

@[simp] theorem substitute_nil : substitute r point [] = [] := by rw [substitute]

theorem substitute_pointed (h : (point && t.gap.isEmpty) = true) :
    substitute r point (t :: rest) = t.token :: substitute r (t.token == ['.']) rest := by
  rw [substitute, if_pos h]

theorem substitute_call (h : (point && t.gap.isEmpty) = false) {c : TokenCall}
    (hcall : tokenCall? r t.token rest = some c) : substitute r point (t :: rest) =
      callTokens c.sampler (substitute r false c.arguments) ++ substitute r false c.behind := by
  rw [substitute, h, if_neg Bool.false_ne_true]
  split
  · rename_i c' hcall'
    obtain rfl := Option.some.inj (hcall.symm.trans hcall')
    rfl
  · rename_i hcall'
    rw [hcall] at hcall'
    contradiction

theorem substitute_replaced (h : (point && t.gap.isEmpty) = false)
    (hcall : tokenCall? r t.token rest = none) : substitute r point (t :: rest) =
      replacement r t.token ++ substitute r (t.token == ['.']) rest := by
  rw [substitute, h, if_neg Bool.false_ne_true]
  split
  · rename_i c hcall'
    rw [hcall] at hcall'
    contradiction
  · rfl

theorem selection?_eq_none {token : List Char} (h : token.head?.any isNameStart = false) :
    selection? r token = none := by
  rw [selection?, h, if_neg Bool.false_ne_true]

theorem sampler?_eq_none {token : List Char} (h : token.head?.any isNameStart = false) :
    sampler? r token = none := by
  rw [sampler?, h, Bool.false_and, Bool.false_and, if_neg Bool.false_ne_true]

theorem replacement_eq {token : List Char} (h : selection? r token = none) :
    replacement r token = [token] := by
  rw [replacement, h, Option.map_none, Option.getD_none]

theorem tokenCall?_eq_none {token : List Char} (h : sampler? r token = none) (ts : List Spaced) :
    tokenCall? r token ts = none := by
  cases hcall : tokenCall? r token ts with
  | none => rfl
  | some c =>
    obtain ⟨_, _, _, _, _, hsampler, _⟩ := tokenCall?_eq_some hcall
    rw [h] at hsampler
    contradiction

/-- A token that refers to nothing is copied. -/
theorem substitute_copied (hselection : selection? r t.token = none)
    (hcall : tokenCall? r t.token rest = none) :
    substitute r point (t :: rest) = t.token :: substitute r (t.token == ['.']) rest := by
  cases h : point && t.gap.isEmpty with
  | true => exact substitute_pointed r h
  | false =>
    rw [substitute_replaced r h hcall, replacement_eq r hselection]
    rfl

end Substitute

/-! ## Rewriting substitutes tokens -/

section Words

variable (r : Rewriting)

theorem IsIdentifier.isWord {ident : List Char} (h : IsIdentifier ident) : IsWord ident :=
  ⟨h.ne_nil, fun _ hc => isWordChar_of_isNameChar (h.isNameChar hc)⟩

theorem IsWord.getLast?_ne_point {word : List Char} (h : IsWord word) :
    word.getLast? ≠ some '.' := by
  intro hlast
  have hchar := h.any_getLast?
  rw [hlast] at hchar
  exact absurd hchar (by decide)

theorem isNameStart_eq_false_of_not_isWordChar {c : Char} (h : isWordChar c = false) :
    isNameStart c = false := by
  refine Bool.eq_false_iff.mpr fun hstart => ?_
  rw [isWordChar_of_isNameChar (isNameChar_of_isNameStart hstart)] at h
  contradiction

theorem startsName_eq_false_of_not_isWordChar {before : Option Char} {c : Char}
    (h : isWordChar c = false) : startsName before c = false := by
  rw [startsName, isNameStart_eq_false_of_not_isWordChar h, Bool.false_and]

/-- A rewritten text starts with a word only if the text does. -/
theorem any_head?_rewriteFrom (fuel : Nat) (before : Option Char) {text : List Char}
    (h : text.head?.any isWordChar = false) :
    (rewriteFrom r fuel before text).head?.any isWordChar = false := by
  cases text with
  | nil => rw [rewriteFrom_nil, List.head?_nil, Option.any_none]
  | cons c rest =>
    cases fuel with
    | zero => exact h
    | succ fuel =>
      have hc : isWordChar c = false := by simpa using h
      rw [rewriteFrom_char r fuel (startsName_eq_false_of_not_isWordChar hc)]
      simpa using hc

/-- Word characters that start no identifier are copied. -/
theorem rewriteFrom_word {word : List Char} (hword : ∀ c ∈ word, isWordChar c = true)
    {before : Option Char} (hstart : word.head?.any (startsName before) = false) (fuel : Nat)
    (rest : List Char) : rewriteFrom r (word.length + fuel) before (word ++ rest) =
      word ++ rewriteFrom r fuel (word.getLast?.or before) rest := by
  induction word generalizing before with
  | nil => simp
  | cons c word ih =>
    have hc : startsName before c = false := by simpa using hstart
    have hnext : word.head?.any (startsName (some c)) = false := by
      cases word.head? with
      | none => rfl
      | some d =>
        rw [Option.any_some, startsName, Option.any_some, hword c List.mem_cons_self, Bool.not_true,
          Bool.and_false]
    rw [List.length_cons, Nat.add_right_comm, List.cons_append, rewriteFrom_char r _ hc,
      ih (fun d hd => hword d (List.mem_cons_of_mem c hd)) hnext, List.getLast?_cons,
      List.cons_append]
    cases word.getLast? <;> rfl

variable {fuel : Nat} {before : Option Char} {word rest : List Char}

/-- Behind the identifier that a word starts with, the rest of the word is copied. -/
theorem rewriteFrom_tail {ident tail : List Char} (hident : IsIdentifier ident)
    (htail : ∀ c ∈ tail, isWordChar c = true) (fuel : Nat) (rest : List Char) :
    rewriteFrom r (tail.length + fuel) ident.getLast? (tail ++ rest) =
      tail ++ rewriteFrom r fuel (ident ++ tail).getLast? rest := by
  rw [List.getLast?_append]
  refine rewriteFrom_word r htail ?_ fuel rest
  cases tail.head? with
  | none => rfl
  | some c =>
    rw [Option.any_some, startsName, hident.any_getLast?, Bool.not_true, Bool.and_false]

/-- The parenthesis that is the first of several tokens, in its text. -/
theorem opening_of_spacedFrom {gap text : List Char} {p : Spaced} {ts : List Spaced}
    (h : spacedFrom gap text = p :: ts) (hp : p.token = ['(']) :
    ∃ more, gap ++ text = p.gap ++ '(' :: more ∧ ts = spacedFrom [] more := by
  induction gap, text using spacing_induction with
  | nil gap =>
    rw [spacedFrom_nil] at h
    contradiction
  | blank gap c rest hc ih =>
    rw [spacedFrom_blank gap hc] at h
    obtain ⟨more, hmore, hts⟩ := ih h
    exact ⟨more, by rw [← hmore, List.append_assoc, List.singleton_append], hts⟩
  | mark gap c rest hblank hword _ =>
    rw [spacedFrom_mark gap hblank hword] at h
    obtain ⟨rfl, rfl⟩ := List.cons.inj h
    obtain rfl := (List.singleton_inj.mp hp : c = '(')
    exact ⟨rest, rfl, rfl⟩
  | word gap word rest hword hrest _ =>
    rw [spacedFrom_word gap hword hrest] at h
    obtain ⟨rfl, rfl⟩ := List.cons.inj h
    exact absurd hp (hword.ne_mark (by decide))

theorem spacedFrom_append_blank {blanks : List Char} (h : ∀ c ∈ blanks, isBlank c = true)
    (gap text : List Char) : spacedFrom gap (blanks ++ text) = spacedFrom (gap ++ blanks) text := by
  induction blanks generalizing gap with
  | nil => rw [List.nil_append, List.append_nil]
  | cons c blanks ih =>
    rw [List.cons_append, spacedFrom_blank gap (h c List.mem_cons_self),
      ih (fun d hd => h d (List.mem_cons_of_mem c hd)), List.append_assoc, List.singleton_append]

theorem isBlank_of_isCallGap {c : Char} (h : isCallGap c = true) : isBlank c = true := by
  obtain rfl | rfl : c = ' ' ∨ c = '\t' := by simpa [isCallGap] using h
  all_goals decide

/-- The calls that an identifier makes in a text are those that it makes among the tokens. -/
theorem tokenCall?_spacedFrom_eq_some_iff {ident : List Char} {c : TokenCall}
    (hsampler : sampler? r ident = sampledTexture? r ident) :
    tokenCall? r ident (spacedFrom [] rest) = some c ↔
      ∃ call, sampleCall? r ident rest = some call ∧
        c = ⟨call.sampler, spacedFrom [] call.arguments, spacedFrom [] call.behind⟩ := by
  constructor
  · intro h
    obtain ⟨p, ts, hspaced, htoken, hgap, hsampled, hclose⟩ := tokenCall?_eq_some h
    obtain ⟨more, hmore, rfl⟩ := opening_of_spacedFrom hspaced htoken
    rw [closeTokens?_spacedFrom, Option.map_eq_some_iff] at hclose
    obtain ⟨⟨arguments, behind⟩, hclose, hfound⟩ := hclose
    obtain ⟨harguments, rfl⟩ := closing_of_closeParen? hclose
    obtain ⟨sampler, _, _⟩ := c
    obtain ⟨rfl, rfl⟩ := Prod.mk.inj hfound
    exact ⟨⟨sampler, arguments, behind⟩, sampleCall?_eq_some_iff.mpr ⟨hsampler ▸ hsampled, p.gap,
      List.all_eq_true.mp hgap, harguments, hmore⟩, rfl⟩
  · rintro ⟨call, hcall, rfl⟩
    obtain ⟨hsampled, gap, hgap, harguments, rfl⟩ := sampleCall?_eq_some_iff.mp hcall
    have hblanks : ∀ c ∈ gap, isBlank c = true := fun c hc => isBlank_of_isCallGap (hgap c hc)
    rw [spacedFrom_append_blank hblanks, spacedFrom_mark _ (by decide) (by decide), List.nil_append,
      tokenCall?_of_opening rfl (List.all_eq_true.mpr hgap) (hsampler.trans hsampled),
      closeTokens?_spacedFrom, closeParen?_of_closing harguments]
    rfl

/-- No call is made by an identifier that a word goes on behind. -/
theorem sampleCall?_eq_none_of_word {ident tail : List Char} (htail : IsWord tail) :
    sampleCall? r ident (tail ++ rest) = none := by
  cases hcall : sampleCall? r ident (tail ++ rest) with
  | none => rfl
  | some call =>
    obtain ⟨_, gap, hgap, _, hsplit⟩ := sampleCall?_eq_some_iff.mp hcall
    have hhead := htail.any_head?
    obtain ⟨c, tail, rfl⟩ := List.exists_cons_of_ne_nil htail.ne_nil
    cases gap with
    | nil =>
      obtain ⟨rfl, -⟩ := List.cons.inj hsplit
      rw [List.head?_cons, Option.any_some] at hhead
      exact absurd hhead (by decide)
    | cons d gap =>
      obtain ⟨rfl, -⟩ := List.cons.inj hsplit
      have hblank := isBlank_of_isCallGap (hgap c List.mem_cons_self)
      rw [List.head?_cons, Option.any_some, isWordChar_eq_false_of_isBlank hblank] at hhead
      contradiction

/-- The identifier that a word starts with, and the rest of the word. -/
theorem exists_identifier (hword : IsWord word) (hstart : word.head?.any isNameStart = true) :
    ∃ ident tail, word = ident ++ tail ∧ IsIdentifier ident ∧ (tail = [] ∨ IsWord tail) ∧
      tail.head?.any isNameChar = false := by
  obtain ⟨c, chars, rfl⟩ := List.exists_cons_of_ne_nil hword.ne_nil
  have hc : isNameStart c = true := by simpa using hstart
  have hident : IsIdentifier ((c :: chars).takeWhile isNameChar) := by
    rw [List.takeWhile_cons_of_pos (isNameChar_of_isNameStart hc)]
    exact .cons hc fun d hd => List.mem_takeWhile_imp hd
  refine ⟨_, _, List.takeWhile_append_dropWhile.symm, hident, ?_,
    head?_any_dropWhile isNameChar (c :: chars)⟩
  rcases eq_or_ne ((c :: chars).dropWhile isNameChar) [] with hnil | hne
  · exact .inl hnil
  · exact .inr ⟨hne, fun d hd => hword.chars d ((List.dropWhile_suffix isNameChar).subset hd)⟩

section Identifier

variable {ident tail : List Char}

theorem selection?_append (hident : IsIdentifier ident)
    (htail : tail.head?.any isNameChar = false) : selection? r (ident ++ tail) =
      (r.members.lookup (String.ofList ident)).map fun replacement =>
        replacement.toList ++ tail := by
  obtain ⟨htake, hdrop⟩ := takeWhile_append_of_head? (fun c hc => hident.isNameChar hc) htail
  have hstart : (ident ++ tail).head?.any isNameStart = true := by
    cases hident with
    | cons hstart _ => simpa using hstart
  rw [selection?, if_pos hstart, htake, hdrop]

theorem sampler?_eq (hident : IsIdentifier ident) (hselection : selection? r ident = none) :
    sampler? r ident = sampledTexture? r ident := by
  have hstart : ident.head?.any isNameStart = true := by
    cases hident with
    | cons hstart _ => simpa using hstart
  rw [sampler?, hstart, hselection, List.all_eq_true.mpr fun c hc => hident.isNameChar hc]
  rfl

/-- A word that goes on behind its identifier names no sampling. -/
theorem sampler?_append (hne : tail ≠ []) (htail : tail.head?.any isNameChar = false) :
    sampler? r (ident ++ tail) = none := by
  obtain ⟨c, tail, rfl⟩ := List.exists_cons_of_ne_nil hne
  have hc : isNameChar c = false := by simpa using htail
  rw [sampler?, if_neg]
  simp [hc]

end Identifier

theorem sampler?_of_selection? {chars : List Char} (h : selection? r word = some chars) :
    sampler? r word = none := by
  rw [sampler?, h, Option.isNone_some, Bool.and_false, if_neg Bool.false_ne_true]

theorem replacement_of_selection? {chars : List Char} (h : selection? r word = some chars) :
    replacement r word = tokens chars := by
  rw [replacement, h, Option.map_some, Option.getD_some]

/-- What a word in front of a text becomes: a copy or what it is replaced by, with the rest behind
it, or a call. -/
inductive WordStep (r : Rewriting) (before : Option Char) (word rest : List Char) : List Char → Prop
  | written {fuel : Nat} {out : List Char} (hfuel : rest.length ≤ fuel)
    (hout : tokens out = if before = some '.' then [word] else replacement r word)
    (hcall : before = some '.' ∨ tokenCall? r word (spacedFrom [] rest) = none) :
    WordStep r before word rest (out ++ rewriteFrom r fuel word.getLast? rest)
  | call {fuel : Nat} {c : SampleCall} (hfuel : rest.length ≤ fuel) (hbefore : before ≠ some '.')
    (hlength : c.arguments.length < rest.length ∧ c.behind.length < rest.length)
    (hcall : tokenCall? r word (spacedFrom [] rest) =
      some ⟨c.sampler, spacedFrom [] c.arguments, spacedFrom [] c.behind⟩) :
    WordStep r before word rest (textureCall c.sampler
      (trim (rewriteFrom r fuel none c.arguments)) ++ rewriteFrom r fuel (some ')') c.behind)

/-- A word that starts no identifier is copied. -/
theorem wordStep_of_number (hfuel : word.length + rest.length ≤ fuel) (hword : IsWord word)
    (hstart : word.head?.any isNameStart = false) :
    WordStep r before word rest (rewriteFrom r fuel before (word ++ rest)) := by
  obtain ⟨fuel', rfl⟩ := Nat.exists_eq_add_of_le (Nat.le_of_add_right_le hfuel)
  have hhead : word.head?.any (startsName before) = false := by
    cases hfirst : word.head? with
    | none => rfl
    | some c =>
      rw [hfirst, Option.any_some] at hstart
      rw [Option.any_some, startsName, hstart, Bool.false_and]
  have hstep := rewriteFrom_word r hword.chars hhead fuel' rest
  rw [List.getLast?_eq_some_getLast hword.ne_nil, Option.some_or,
    ← List.getLast?_eq_some_getLast hword.ne_nil] at hstep
  rw [hstep]
  refine .written (by omega) ?_ (.inr (tokenCall?_eq_none r (sampler?_eq_none r hstart) _))
  rw [replacement_eq r (selection?_eq_none r hstart), ite_self, tokens_word hword]

theorem head?_any_append {p : Char → Bool} {left right : List Char}
    (hleft : left.head?.any p = false) (hright : right.head?.any p = false) :
    (left ++ right).head?.any p = false := by
  cases left with
  | nil => exact hright
  | cons c left => exact hleft

/-- A word makes no call if its identifier makes none in front of all that is behind it. -/
theorem tokenCall?_eq_none_of_sampleCall? {ident tail : List Char} (hident : IsIdentifier ident)
    (hend : tail.head?.any isNameChar = false) (hselection : selection? r (ident ++ tail) = none)
    (hcall : sampleCall? r ident (tail ++ rest) = none) :
    tokenCall? r (ident ++ tail) (spacedFrom [] rest) = none := by
  cases tail with
  | cons c tail => exact tokenCall?_eq_none r (sampler?_append r (List.cons_ne_nil c tail) hend) _
  | nil =>
    rw [List.append_nil] at hselection ⊢
    refine Option.eq_none_iff_forall_ne_some.mpr fun c hc => ?_
    obtain ⟨call, hsome, -⟩ :=
      (tokenCall?_spacedFrom_eq_some_iff r (sampler?_eq r hident hselection)).mp hc
    exact absurd (hsome.symm.trans hcall) (Option.some_ne_none call)

theorem WordStep.of_sampleCall? {ident : List Char} {call : SampleCall} (hfuel : rest.length ≤ fuel)
    (hbefore : before ≠ some '.') (hident : IsIdentifier ident)
    (hselection : selection? r ident = none) (hcall : sampleCall? r ident rest = some call) :
    WordStep r before ident rest
      (textureCall call.sampler (trim (rewriteFrom r fuel none call.arguments)) ++
        rewriteFrom r fuel (some ')') call.behind) := by
  obtain ⟨-, gap, -, -, hsplit⟩ := sampleCall?_eq_some_iff.mp hcall
  have hlength := congrArg List.length hsplit
  simp only [List.length_append, List.length_cons] at hlength
  exact .call hfuel hbefore ⟨by omega, by omega⟩
    ((tokenCall?_spacedFrom_eq_some_iff r (sampler?_eq r hident hselection)).mpr ⟨call, hcall, rfl⟩)

/-- A word that starts with an identifier is copied directly behind a point, and is what the
identifier becomes with the rest of the word behind it. -/
theorem wordStep_of_name {ident tail : List Char} (hfuel : tail.length + rest.length < fuel)
    (hword : IsWord (ident ++ tail)) (hident : IsIdentifier ident) (htail : tail = [] ∨ IsWord tail)
    (hend : tail.head?.any isNameChar = false) (hrest : rest.head?.any isNameChar = false)
    (hbefore : before.any isWordChar = false) :
    WordStep r before (ident ++ tail) rest (rewriteFrom r fuel before (ident ++ tail ++ rest)) := by
  obtain ⟨fuel', rfl⟩ : ∃ fuel', fuel = tail.length + fuel' + 1 :=
    ⟨fuel - 1 - tail.length, by omega⟩
  have hle : rest.length ≤ fuel' := by omega
  have hcopied : ∀ front : List Char,
      front ++ rewriteFrom r (tail.length + fuel') ident.getLast? (tail ++ rest) =
        (front ++ tail) ++ rewriteFrom r fuel' (ident ++ tail).getLast? rest := by
    intro front
    rw [rewriteFrom_tail r hident fun c hc => hword.chars c (List.mem_append_right ident hc),
      List.append_assoc]
  have hselection := selection?_append r hident hend
  rw [List.append_assoc, rewriteFrom_name r _ hident hbefore (head?_any_append hend hrest)]
  by_cases hpoint : before = some '.'
  · rw [if_pos hpoint, hcopied]
    exact .written hle (by rw [if_pos hpoint, tokens_word hword]) (.inl hpoint)
  rw [if_neg hpoint]
  cases hmember : r.members.lookup (String.ofList ident) with
  | some chars =>
    rw [hmember, Option.map_some] at hselection
    dsimp only
    rw [hcopied]
    refine .written hle ?_ (.inr (tokenCall?_eq_none r (sampler?_of_selection? r hselection) _))
    rw [if_neg hpoint, replacement_of_selection? r hselection]
  | none =>
    rw [hmember, Option.map_none] at hselection
    dsimp only
    cases hcall : sampleCall? r ident (tail ++ rest) with
    | none =>
      dsimp only
      rw [hcopied]
      refine .written hle ?_
        (.inr (tokenCall?_eq_none_of_sampleCall? r hident hend hselection hcall))
      rw [if_neg hpoint, replacement_eq r hselection, tokens_word hword]
    | some call =>
      rcases htail with rfl | htail
      · rw [List.append_nil] at hselection ⊢
        rw [List.length_nil, Nat.zero_add]
        exact .of_sampleCall? r hle hpoint hident hselection hcall
      · exact absurd (hcall.symm.trans (sampleCall?_eq_none_of_word r htail))
          (Option.some_ne_none call)

theorem wordStep (hfuel : (word ++ rest).length ≤ fuel) (hword : IsWord word)
    (hrest : rest.head?.any isWordChar = false) (hbefore : before.any isWordChar = false) :
    WordStep r before word rest (rewriteFrom r fuel before (word ++ rest)) := by
  rw [List.length_append] at hfuel
  cases hstart : word.head?.any isNameStart with
  | false => exact wordStep_of_number r hfuel hword hstart
  | true =>
    obtain ⟨ident, tail, rfl, hident, htail, hend⟩ := exists_identifier hword hstart
    have hpos := List.length_pos_iff.mpr hident.ne_nil
    rw [List.length_append] at hfuel
    refine wordStep_of_name r (by omega) hword hident htail hend ?_ hbefore
    cases hhead : rest.head? with
    | none => rfl
    | some c =>
      refine Bool.eq_false_iff.mpr fun hc => ?_
      rw [hhead, Option.any_some, isWordChar_of_isNameChar hc] at hrest
      contradiction

end Words

theorem tokens_cons_blank {c : Char} (h : isBlank c = true) (rest : List Char) :
    tokens (c :: rest) = tokens rest := by
  rw [tokens, spacedFrom_blank [] h, map_token_spacedFrom]

theorem tokens_textureCall (sampler : String) (text : List Char) :
    tokens (textureCall sampler (trim text)) = callTokens sampler (tokens text) := by
  obtain ⟨htrim, hempty⟩ := tokens_trim text
  have hname : IsIdentifier "texture".toList := .of_all rfl rfl
  rw [textureCall_eq, tokens_append (.inr rfl), tokens_word hname.isWord,
    tokens_mark (by decide) (by decide), hempty, callTokens]
  cases hnil : (tokens text).isEmpty with
  | true =>
    simp only [if_true, List.nil_append]
    rw [tokens_append (.inr rfl), tokens_mark (by decide) (by decide), tokens_nil]
    rfl
  | false =>
    simp only [Bool.false_eq_true, if_false, List.cons_append]
    rw [tokens_append (.inr rfl), tokens_mark (by decide) (by decide),
      tokens_cons_blank (by decide), tokens_append (.inr rfl), htrim,
      tokens_mark (by decide) (by decide), tokens_nil]
    rfl

theorem wordsApart_textureCall (sampler : String) (arguments right : List Char) :
    WordsApart (textureCall sampler arguments) right := by
  have hlast : (textureCall sampler arguments).getLast? = some ')' := by
    delta textureCall
    exact List.getLast?_concat
  rw [WordsApart, hlast]
  exact .inl (by decide)

/-- What stands in front of a text, as the text is read and as its tokens are: no word goes on in
the text, and a point is directly in front for both or for none. -/
structure Entered (before : Option Char) (point : Bool) (gap text : List Char) : Prop where
  apart : before.any isWordChar = false ∨ text.head?.any isWordChar = false
  pointed : (point && gap.isEmpty) = decide (before = some '.')

/-- That texts below a length are rewritten to what their tokens are substituted by. -/
def Tokenwise (r : Rewriting) (bound : Nat) : Prop :=
  ∀ (fuel : Nat) (before : Option Char) (point : Bool) (gap text : List Char),
    text.length < bound → text.length ≤ fuel → Entered before point gap text →
      tokens (rewriteFrom r fuel before text) = substitute r point (spacedFrom gap text)

namespace Tokenwise

variable {r : Rewriting} {bound fuel : Nat} {before : Option Char} {point : Bool}
  {gap word rest : List Char} {c : Char}

theorem cons_blank (h : Tokenwise r bound) (hc : isBlank c = true) (hlt : rest.length < bound)
    (hfuel : (c :: rest).length ≤ fuel) :
    tokens (rewriteFrom r fuel before (c :: rest)) =
      substitute r point (spacedFrom gap (c :: rest)) := by
  cases fuel with
  | zero => exact absurd hfuel (Nat.not_succ_le_zero _)
  | succ fuel =>
    have hword := isWordChar_eq_false_of_isBlank hc
    have hne : c ≠ '.' := by
      rintro rfl
      exact absurd hc (by decide)
    rw [rewriteFrom_char r fuel (startsName_eq_false_of_not_isWordChar hword), tokens_cons_blank hc,
      spacedFrom_blank gap hc]
    exact h _ _ _ _ _ hlt (Nat.le_of_succ_le_succ hfuel) ⟨.inl hword, by simp [hne]⟩

theorem cons_mark (h : Tokenwise r bound) (hblank : isBlank c = false)
    (hword : isWordChar c = false) (hlt : rest.length < bound)
    (hfuel : (c :: rest).length ≤ fuel) :
    tokens (rewriteFrom r fuel before (c :: rest)) =
      substitute r point (spacedFrom gap (c :: rest)) := by
  cases fuel with
  | zero => exact absurd hfuel (Nat.not_succ_le_zero _)
  | succ fuel =>
    have hcopied : ([c] : List Char).head?.any isNameStart = false :=
      isNameStart_eq_false_of_not_isWordChar hword
    have hpointed : ([c] == ['.'] && ([] : List Char).isEmpty) = decide (some c = some '.') := by
      rw [List.isEmpty_nil, Bool.and_true, beq_eq_decide]
      simp only [List.singleton_inj, Option.some_inj]
    rw [rewriteFrom_char r fuel (startsName_eq_false_of_not_isWordChar hword),
      tokens_mark hblank hword, spacedFrom_mark gap hblank hword,
      substitute_copied r (selection?_eq_none r hcopied)
        (tokenCall?_eq_none r (sampler?_eq_none r hcopied) _),
      h fuel (some c) ([c] == ['.']) [] rest hlt (Nat.le_of_succ_le_succ hfuel)
        ⟨.inl hword, hpointed⟩]

/-- A word is written, with the rest of the text behind it, or a call that it makes. -/
theorem append_word (h : Tokenwise r bound) (hword : IsWord word)
    (hrest : rest.head?.any isWordChar = false) (hlt : rest.length < bound)
    (hfuel : (word ++ rest).length ≤ fuel) (hentered : Entered before point gap (word ++ rest)) :
    tokens (rewriteFrom r fuel before (word ++ rest)) =
      substitute r point (spacedFrom gap (word ++ rest)) := by
  have hboundary : before.any isWordChar = false := by
    refine hentered.apart.resolve_right fun hhead => ?_
    rw [List.head?_append, List.head?_eq_some_head hword.ne_nil, Option.some_or,
      ← List.head?_eq_some_head hword.ne_nil, hword.any_head?] at hhead
    contradiction
  have hpointed := hentered.pointed
  have hstep := wordStep r hfuel hword hrest hboundary
  rw [spacedFrom_word gap hword hrest]
  generalize rewriteFrom r fuel before (word ++ rest) = written at hstep ⊢
  cases hstep with
  | @written fuel' out hle hout hcall =>
    have hnext : (word == ['.']) = false := by simpa using hword.ne_mark (by decide)
    have hbehind : Entered word.getLast? false [] rest :=
      ⟨.inr hrest, (decide_eq_false hword.getLast?_ne_point).symm⟩
    rw [tokens_append (.inr (any_head?_rewriteFrom r fuel' _ hrest)), hout,
      h _ _ _ _ _ hlt hle hbehind]
    by_cases hdirect : before = some '.'
    · rw [if_pos hdirect, substitute_pointed r (hpointed.trans (decide_eq_true hdirect)), hnext]
      rfl
    · rw [if_neg hdirect, substitute_replaced r (hpointed.trans (decide_eq_false hdirect))
        (hcall.resolve_left hdirect), hnext]
  | @call fuel' c hle hne hlength hcall =>
    rw [tokens_append (wordsApart_textureCall _ _ _), tokens_textureCall,
      h fuel' none false [] c.arguments (by omega) (by omega) ⟨.inl rfl, rfl⟩,
      h fuel' (some ')') false [] c.behind (by omega) (by omega) ⟨.inl (by decide), by decide⟩,
      substitute_call r (hpointed.trans (decide_eq_false hne)) hcall]

end Tokenwise

/-- Texts of all lengths are rewritten to what their tokens are substituted by. -/
theorem tokenwise (r : Rewriting) (bound : Nat) : Tokenwise r bound := by
  induction bound with
  | zero => exact fun _ _ _ _ _ hlt => absurd hlt (Nat.not_lt_zero _)
  | succ bound ih =>
    intro fuel before point gap text hlt hfuel hentered
    cases begins text with
    | nil => rw [rewriteFrom_nil, spacedFrom_nil, tokens_nil, substitute_nil]
    | blank hc => exact ih.cons_blank hc (Nat.lt_of_succ_lt_succ hlt) hfuel
    | mark hblank hword => exact ih.cons_mark hblank hword (Nat.lt_of_succ_lt_succ hlt) hfuel
    | word hword hrest =>
      have hpos := hword.length_pos
      refine ih.append_word hword hrest ?_ hfuel hentered
      rw [List.length_append] at hlt
      omega

/-- Rewriting replaces tokens. -/
theorem tokens_rewrite (r : Rewriting) (text : List Char) :
    tokens (rewrite r text) = substitute r false (spacedFrom [] text) :=
  tokenwise r (text.length + 1) _ _ _ _ _ (Nat.lt_succ_self _) (Nat.le_refl _) ⟨.inl rfl, rfl⟩

end AnnotatedShader.Glsl
