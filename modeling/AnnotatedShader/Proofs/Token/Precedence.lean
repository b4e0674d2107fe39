import AnnotatedShader.Proofs.Token.Longest

set_option autoImplicit false

/-!
# Terminals in the order of the grammar

The reader of a piece, `munch`, looks at the first character of a text and takes what can start with
it.  The grammar knows nothing of first characters.  It has a pattern for every terminal, an order
in which the patterns are tried at the front of a text, and the first pattern that matches gives the
piece, whether or not a later one would match more.  This file writes that reader down as well and
proves that it is the same one (`munch_eq_firstMatch?`).

* `Pattern.ways`: how a pattern matches.  It tries more characters before fewer and a left branch
  before a right one, and goes back where what follows does not match.
* `rules`: the terminals with their patterns.  They stand in the order of the grammar
  (`rules_ordered`): by priority, then the wider pattern first, then the one that is longer written
  down, then by symbol.
* Reserved words are not tried.  The pattern of identifiers matches each of them from end to end
  (`match?_reserved`), so an identifier becomes a reserved word when all of it is one.

So a floating number is tried before the whole number that it starts with, and a double colon before
a colon.  No other two patterns match at the front of one text.
-/

namespace AnnotatedShader.Lexer

open AnnotatedShader.Text AnnotatedShader.Number

/-! ## Patterns -/

/-- A class of characters, and how the grammar writes it. -/
structure CharClass where
  source : String
  mem : Char → Bool

/-- A pattern. -/
inductive Pattern where
  | literal (text : String)
  | one (cls : CharClass)
  | many (cls : CharClass)
  | several (cls : CharClass)
  | optional (p : Pattern)
  | seq (p q : Pattern)
  | alt (p q : Pattern)

namespace Pattern

/-- The runs of a class at the front of a text with what is behind them, the longest first. -/
def runs (cls : CharClass) : List Char → List (List Char × List Char)
  | [] => [([], [])]
  | c :: rest =>
    if cls.mem c then ((runs cls rest).map fun w => (c :: w.1, w.2)) ++ [([], c :: rest)]
    else [([], c :: rest)]

/-- What a pattern matches at the front of a text with what is behind it, in the order in which it
is tried. -/
def ways : Pattern → List Char → List (List Char × List Char)
  | literal s, text =>
    if s.toList.isPrefixOf text then [(s.toList, text.drop s.toList.length)] else []
  | one _, [] => []
  | one cls, c :: rest => if cls.mem c then [([c], rest)] else []
  | many cls, text => runs cls text
  | several _, [] => []
  | several cls, c :: rest =>
    if cls.mem c then (runs cls rest).map fun w => (c :: w.1, w.2) else []
  | optional p, text => p.ways text ++ [([], text)]
  | seq p q, text => (p.ways text).flatMap fun w => (q.ways w.2).map fun v => (w.1 ++ v.1, v.2)
  | alt p q, text => p.ways text ++ q.ways text

/-- What a pattern matches at the front of a text. -/
def match? (p : Pattern) (text : List Char) : Option (List Char) := (p.ways text).head?.map Prod.fst

/-- The greatest number of characters that a pattern matches, if there is one. -/
def width : Pattern → Option Nat
  | literal s => some s.length
  | one _ => some 1
  | many _ | several _ => none
  | optional p => p.width
  | seq p q => p.width.bind fun n => q.width.map (n + ·)
  | alt p q => p.width.bind fun n => q.width.map (max n)

/-- How the grammar writes a pattern. -/
def source : Pattern → String
  | literal s => s
  | one cls => cls.source
  | many cls => cls.source ++ "*"
  | several cls => cls.source ++ "+"
  | optional (one cls) => cls.source ++ "?"
  | optional p => "(" ++ p.source ++ ")?"
  | seq p q => p.source ++ q.source
  | alt p q => p.source ++ "|" ++ q.source

/-- A pattern that matches nothing where a character of a class stands. -/
def Refuses (p : Pattern) (cls : CharClass) : Prop :=
  ∀ c rest, cls.mem c = true → p.ways (c :: rest) = []

theorem head?_runs (cls : CharClass) (text : List Char) :
    (runs cls text).head? = some (text.takeWhile cls.mem, text.dropWhile cls.mem) := by
  induction text with
  | nil => rfl
  | cons c rest ih =>
    rw [runs]
    cases hc : cls.mem c with
    | false => simp [hc]
    | true => simp [hc, ih]

/-- Of the runs of a class only the longest is left where what follows refuses the class. -/
theorem flatMap_runs {q : Pattern} {cls : CharClass} (hq : q.Refuses cls) (text : List Char) :
    ((runs cls text).flatMap fun w => (q.ways w.2).map fun v => (w.1 ++ v.1, v.2)) =
      (q.ways (text.dropWhile cls.mem)).map fun v => (text.takeWhile cls.mem ++ v.1, v.2) := by
  induction text with
  | nil => simp [runs]
  | cons c rest ih =>
    rw [runs]
    cases hc : cls.mem c with
    | false => simp [hc]
    | true =>
      have hlonger := congrArg (List.map fun v : List Char × List Char => (c :: v.1, v.2)) ih
      rw [List.map_flatMap, List.map_map] at hlonger
      simpa [hc, hq c rest hc, List.flatMap_map, Function.comp_def] using hlonger

theorem ways_seq_assoc (p q r : Pattern) (text : List Char) :
    (seq (seq p q) r).ways text = (seq p (seq q r)).ways text := by
  simp [ways, List.flatMap_assoc, List.flatMap_map, List.map_flatMap, Function.comp_def]

/-- A run that is not empty and what follows it, where that refuses the class. -/
theorem ways_several_seq {q : Pattern} {cls : CharClass} (hq : q.Refuses cls) (text : List Char) :
    (seq (several cls) q).ways text = if text.takeWhile cls.mem = [] then [] else
      (q.ways (text.dropWhile cls.mem)).map fun v => (text.takeWhile cls.mem ++ v.1, v.2) := by
  cases text with
  | nil => rfl
  | cons c rest =>
    cases hc : cls.mem c with
    | false => simp [ways, hc]
    | true =>
      have hruns := congrArg (List.map fun v : List Char × List Char => (c :: v.1, v.2))
        (flatMap_runs hq rest)
      rw [List.map_flatMap, List.map_map] at hruns
      simpa [ways, hc, List.flatMap_map, Function.comp_def] using hruns

theorem head?_ways_several (cls : CharClass) (text : List Char) :
    ((several cls).ways text).head? = if text.takeWhile cls.mem = [] then none else
      some (text.takeWhile cls.mem, text.dropWhile cls.mem) := by
  cases text with
  | nil => rfl
  | cons c rest =>
    cases hc : cls.mem c with
    | false => simp [ways, hc]
    | true => simp [ways, hc, head?_runs]

theorem refuses_several {cls other : CharClass}
    (h : ∀ c, other.mem c = true → cls.mem c = false) : (several cls).Refuses other := by
  intro c rest hc
  simp [ways, h c hc]

theorem refuses_seq {p q : Pattern} {cls : CharClass} (h : p.Refuses cls) :
    (seq p q).Refuses cls := by
  intro c rest hc
  rw [ways, h c rest hc, List.flatMap_nil]

theorem refuses_one {cls other : CharClass} (h : ∀ c, other.mem c = true → cls.mem c = false) :
    (one cls).Refuses other := by
  intro c rest hc
  simp [ways, h c hc]

theorem ways_one_seq (cls : CharClass) (q : Pattern) (c : Char) (rest : List Char) :
    (seq (one cls) q).ways (c :: rest) =
      if cls.mem c then (q.ways rest).map fun v => (c :: v.1, v.2) else [] := by
  cases hc : cls.mem c <;> simp [ways, hc]

/-- The character of a class in front of a text, if one stands there. -/
inductive Leads (cls : CharClass) : List Char → List Char → Prop
  | present (c : Char) (rest : List Char) (hc : cls.mem c = true) : Leads cls [c] (c :: rest)
  | absent (text : List Char) (htext : text.head?.any cls.mem = false) : Leads cls [] text

/-- One character that may be missing is taken where it stands, if what follows cannot start with
it. -/
theorem ways_optional_seq {r : Pattern} {cls : CharClass} (hr : r.Refuses cls)
    {sign text : List Char}
    (h : Leads cls sign text) : (seq (optional (one cls)) r).ways text =
      (r.ways (text.drop sign.length)).map fun v => (sign ++ v.1, v.2) := by
  cases h with
  | present c rest hc => simp [ways, hc, hr c rest hc]
  | absent _ htext =>
    cases text with
    | nil => simp [ways]
    | cons c rest =>
      have hc : cls.mem c = false := by simpa using htext
      simp [ways, hc]

end Pattern

open Pattern

/-! ## The patterns of the grammar -/

def digitClass : CharClass := ⟨"[0-9]", Char.isDigit⟩

def minusClass : CharClass := ⟨"-", (· == '-')⟩

def signClass : CharClass := ⟨"[+-]", fun c => c == '+' || c == '-'⟩

def exponentClass : CharClass := ⟨"[eE]", fun c => c = 'e' || c = 'E'⟩

def pointClass : CharClass := ⟨"\\.", (· == '.')⟩

def wholePattern : Pattern := .seq (.optional (.one minusClass)) (.several digitClass)

def exponentPattern : Pattern :=
  .seq (.one exponentClass) (.seq (.optional (.one signClass)) (.several digitClass))

/-- What stands behind the whole number of a number with a point. -/
def fractionPattern : Pattern :=
  .seq (.one pointClass) (.seq (.many digitClass) (.optional exponentPattern))

def floatingPattern : Pattern :=
  .alt (.seq wholePattern fractionPattern) (.seq wholePattern exponentPattern)

def identifierPattern : Pattern :=
  .seq (.one ⟨"[A-Za-z_]", isNameStart⟩) (.many ⟨"[A-Za-z0-9_]", isNameChar⟩)

def commentPattern : Pattern := .seq (.one ⟨"#", (· == '#')⟩) (.many ⟨"[^\\n]", (· != '\n')⟩)

def blankPattern : Pattern := .several ⟨"[ \\t\\r\\n\\f]", isGap⟩

/-! ## The order of the terminals -/

/-- A terminal with its pattern and its priority. -/
structure Rule where
  terminal : Terminal
  priority : Nat
  pattern : Pattern

/-- Whether a pattern is wider than another one; there is no bound to the widest. -/
def isWider : Option Nat → Option Nat → Bool
  | none, some _ => true
  | some n, some k => k < n
  | _, none => false

/-- Whether the pattern of a terminal is tried before that of another one: for its priority, then
for its width, then because more is written down for it, and then for its symbol. -/
def Rule.precedes (r s : Rule) : Bool :=
  s.priority < r.priority || r.priority == s.priority &&
    (isWider r.pattern.width s.pattern.width || r.pattern.width == s.pattern.width &&
      (s.pattern.source.length < r.pattern.source.length ||
        r.pattern.source.length == s.pattern.source.length &&
          r.terminal.symbol < s.terminal.symbol))

/-- The marks in their order. -/
def marksInOrder : List Mark :=
  [.doubleColon, .colon, .equals, .leftBrace, .leftBracket, .leftParen, .rightBrace, .rightBracket,
    .rightParen, .semicolon]

/-- The rule of a mark. -/
def markRule (m : Mark) : Rule := ⟨.mark m, 0, .literal m.text⟩

/-- The terminals that are tried. -/
def rules : List Rule :=
  [⟨.floating, 2, floatingPattern⟩, ⟨.identifier, 0, identifierPattern⟩, ⟨.blank, 0, blankPattern⟩,
    ⟨.integer, 0, wholePattern⟩, ⟨.comment, 0, commentPattern⟩] ++ marksInOrder.map markRule

theorem rules_ordered : rules.Pairwise fun r s => r.precedes s = true := by decide

/-- Every terminal is tried but reserved words and the end of the input. -/
theorem mem_terminals_rules (t : Terminal) : t ∈ rules.map Rule.terminal ∨ (∃ w, t = .word w) ∨
    t = .endOfInput := by
  cases t with
  | word w => exact .inr (.inl ⟨w, rfl⟩)
  | endOfInput => exact .inr (.inr rfl)
  | mark m => exact .inl (by cases m <;> decide)
  | _ => exact .inl (by decide)

/-- The pattern of identifiers matches all of a reserved word. -/
theorem match?_reserved (w : Reserved) :
    identifierPattern.match? w.text.toList = some w.text.toList := by
  cases w <;> decide

/-- The terminal of a piece that a rule has matched: an identifier may be a reserved word. -/
def Rule.label (r : Rule) (piece : List Char) : Terminal :=
  if r.terminal = .identifier then wordTerminal piece else r.terminal

/-- What a rule matches at the front of a text, with the terminal that this is. -/
def Rule.match? (r : Rule) (text : List Char) : Option (Terminal × List Char) :=
  (r.pattern.match? text).map fun piece => (r.label piece, piece)

/-- What the first rule that matches does at the front of a text. -/
def firstMatch? (text : List Char) : Option (Terminal × List Char) :=
  rules.findSome? (Rule.match? · text)

/-! ## What the patterns match -/

theorem minus_not_digit {c : Char} (h : minusClass.mem c = true) : digitClass.mem c = false := by
  rw [beq_iff_eq.mp h]
  decide

theorem digits_refuse_minus : (several digitClass).Refuses minusClass :=
  refuses_several fun _ => minus_not_digit

theorem leads_numberSign (text : List Char) : Leads minusClass (numberSign text) text := by
  unfold numberSign
  split
  · exact .present _ _ rfl
  · rename_i hsign
    refine .absent _ ?_
    cases text with
    | nil => rfl
    | cons c rest => exact beq_false_of_ne fun hc => hsign rest (by rw [hc])

theorem leads_exponentSign (text : List Char) : Leads signClass (exponentSign text) text := by
  unfold exponentSign
  split
  · exact .present _ _ rfl
  · exact .present _ _ rfl
  · rename_i hplus hminus
    refine .absent _ ?_
    cases text with
    | nil => rfl
    | cons c rest =>
      exact Bool.or_eq_false_iff.mpr ⟨beq_false_of_ne fun hc => hplus rest (by rw [hc]),
        beq_false_of_ne fun hc => hminus rest (by rw [hc])⟩

/-- A whole number takes all its digits where what follows it starts with none. -/
theorem ways_whole_seq {q : Pattern} (hq : q.Refuses digitClass) {text digits behind : List Char}
    (hdigits : (text.drop (numberSign text).length).takeWhile digitClass.mem = digits)
    (hbehind : (text.drop (numberSign text).length).dropWhile digitClass.mem = behind) :
    (seq wholePattern q).ways text = if digits = [] then [] else
      (q.ways behind).map fun v => (numberSign text ++ digits ++ v.1, v.2) := by
  rw [wholePattern, ways_seq_assoc,
    ways_optional_seq (refuses_seq digits_refuse_minus) (leads_numberSign text),
    ways_several_seq hq, hdigits, hbehind]
  split
  · rfl
  · simp [Function.comp_def]

theorem match?_whole {text digits : List Char}
    (hdigits : (text.drop (numberSign text).length).takeWhile digitClass.mem = digits) :
    wholePattern.match? text = if digits = [] then none else some (numberSign text ++ digits) := by
  rw [match?, wholePattern, ways_optional_seq digits_refuse_minus (leads_numberSign text),
    List.head?_map, head?_ways_several, hdigits]
  split
  · rfl
  · rfl

theorem sign_not_digit {c : Char} (h : signClass.mem c = true) : digitClass.mem c = false := by
  rcases Bool.or_eq_true _ _ |>.mp h with hc | hc <;> rw [beq_iff_eq.mp hc] <;> decide

theorem match?_exponent (text : List Char) : exponentPattern.match? text =
    if exponentPart text = [] then none else some (exponentPart text) := by
  cases text with
  | nil => rfl
  | cons e rest =>
    have hpart : exponentPart (e :: rest) = if exponentClass.mem e then
        (let digits := (rest.drop (exponentSign rest).length).takeWhile digitClass.mem
         if digits.isEmpty then [] else e :: (exponentSign rest ++ digits)) else [] := rfl
    rw [match?, exponentPattern, ways_one_seq, hpart]
    cases exponentClass.mem e with
    | false => rfl
    | true =>
      simp only [if_true, List.head?_map, head?_ways_several,
        ways_optional_seq (refuses_several fun _ => sign_not_digit) (leads_exponentSign rest)]
      generalize (rest.drop (exponentSign rest).length).takeWhile digitClass.mem = digits
      cases digits <;> simp

/-- A pattern that may be missing matches what it matches, or nothing. -/
theorem match?_optional (p : Pattern) (text : List Char) :
    (Pattern.optional p).match? text = some ((p.match? text).getD []) := by
  rw [match?, match?, ways, List.head?_append]
  cases (p.ways text).head? <;> rfl

/-- The longest run is taken where what follows it matches. -/
theorem match?_many_seq {cls : CharClass} {q : Pattern} {text piece : List Char}
    (hq : q.match? (text.dropWhile cls.mem) = some piece) :
    (seq (many cls) q).match? text = some (text.takeWhile cls.mem ++ piece) := by
  obtain ⟨others, hruns⟩ := List.head?_eq_some_iff.mp (head?_runs cls text)
  obtain ⟨way, hway, rfl⟩ := Option.map_eq_some_iff.mp hq
  rw [match?, ways, ways, hruns, List.flatMap_cons, List.head?_append, List.head?_map, hway]
  rfl

theorem match?_fraction (text : List Char) : fractionPattern.match? ('.' :: text) =
    some ('.' :: (text.takeWhile Char.isDigit ++ exponentPart (text.dropWhile Char.isDigit))) := by
  have htail : (Pattern.optional exponentPattern).match? (text.dropWhile digitClass.mem) =
      some (exponentPart (text.dropWhile digitClass.mem)) := by
    rw [match?_optional, match?_exponent]
    split
    · rename_i hnone
      rw [hnone]
      rfl
    · rfl
  have hrun := match?_many_seq htail
  rw [match?, Option.map_eq_some_iff] at hrun
  obtain ⟨way, hway, hpiece⟩ := hrun
  rw [match?, fractionPattern, ways_one_seq, if_pos (show pointClass.mem '.' = true from rfl),
    List.head?_map, hway]
  exact congrArg (fun piece => some ('.' :: piece)) hpiece

theorem fraction_refuses {text : List Char} (h : ∀ rest, text ≠ '.' :: rest) :
    fractionPattern.ways text = [] := by
  cases text with
  | nil => rfl
  | cons c rest =>
    rw [fractionPattern, ways_one_seq, if_neg]
    exact fun hc => h rest (by rw [beq_iff_eq.mp hc])

/-- What makes a whole number a floating one is what one of the two patterns matches behind it. -/
theorem match?_tail (text : List Char) :
    (fractionPattern.match? text).or (exponentPattern.match? text) =
      if numberTail text = [] then none else some (numberTail text) := by
  unfold numberTail
  split
  · rw [match?_fraction]
    rfl
  · rename_i hpoint
    rw [match?, fraction_refuses hpoint, match?_exponent]
    rfl

theorem fraction_refuses_digit : fractionPattern.Refuses digitClass := fun c rest hc =>
  fraction_refuses fun other heq => by
    rw [(List.cons.inj heq).1] at hc
    exact absurd hc (by decide)

theorem exponent_refuses_digit : exponentPattern.Refuses digitClass := by
  refine refuses_seq (refuses_one fun c hc => ?_)
  have hsmall := ne_of_isDigit hc (d := 'e') (by decide)
  have hgreat := ne_of_isDigit hc (d := 'E') (by decide)
  simp [exponentClass, hsmall, hgreat]

theorem match?_floating {text digits behind : List Char}
    (hdigits : (text.drop (numberSign text).length).takeWhile digitClass.mem = digits)
    (hbehind : (text.drop (numberSign text).length).dropWhile digitClass.mem = behind) :
    floatingPattern.match? text = if digits = [] then none else
      (if numberTail behind = [] then none else some (numberTail behind)).map
        fun tail => numberSign text ++ digits ++ tail := by
  rw [match?, floatingPattern, ways, ways_whole_seq fraction_refuses_digit hdigits hbehind,
    ways_whole_seq exponent_refuses_digit hdigits hbehind, ← match?_tail]
  split
  · rfl
  · rw [List.head?_append, List.head?_map, List.head?_map, match?, match?]
    cases (fractionPattern.ways behind).head? <;> cases (exponentPattern.ways behind).head? <;> rfl

/-- A number is what the pattern of floating numbers matches, or else that of whole ones. -/
theorem number?_eq (text : List Char) : number? text =
    ((floatingPattern.match? text).map fun piece => (.floating, piece)).or
      ((wholePattern.match? text).map fun piece => (.integer, piece)) := by
  generalize hdigits : (text.drop (numberSign text).length).takeWhile digitClass.mem = digits
  generalize hbehind : (text.drop (numberSign text).length).dropWhile digitClass.mem = behind
  rw [match?_floating hdigits hbehind, match?_whole hdigits]
  by_cases hnone : digits = []
  · rw [if_pos hnone, if_pos hnone]
    have hempty : (text.drop (numberSign text).length).takeWhile Char.isDigit = [] :=
      hdigits.trans hnone
    simp [number?, hempty]
  · rw [if_neg hnone, if_neg hnone]
    let n : Whole := ⟨numberSign text, digits, by unfold numberSign; split <;> simp, hnone,
      fun c hc => List.mem_takeWhile_imp (p := Char.isDigit) (by rw [← hdigits] at hc; exact hc)⟩
    have htext : text = n.toText ++ behind :=
      calc text
        _ = numberSign text ++ text.drop (numberSign text).length :=
          (List.prefix_iff_eq_append.mp (numberSign_isPrefix text)).symm
        _ = numberSign text ++ (digits ++ behind) := by
          rw [← hdigits, ← hbehind, List.takeWhile_append_dropWhile]
        _ = n.toText ++ behind := (List.append_assoc _ _ _).symm
    have hhead : behind.head?.any Char.isDigit = false := by
      rw [← hbehind]
      exact head?_any_dropWhile _ _
    have hread := number?_toText n hhead
    rw [← htext, numberTerminal] at hread
    rw [hread]
    split <;> rename_i htail
    · rw [htail, List.append_nil]
      rfl
    · rfl

/-! ## The first terminal that matches -/

/-- The characters that marks start with. -/
def markStarts : List Char := [':', '=', '\x7b', '[', '(', '\x7d', ']', ')', ';']

theorem isPrefixOf_mark {c : Char} (hc : c ∉ markStarts) (m : Mark) (rest : List Char) :
    m.text.toList.isPrefixOf (c :: rest) = false := by
  have hstart : ∃ x others, m.text.toList = x :: others ∧ x ∈ markStarts := by
    cases m <;> exact ⟨_, _, rfl, by decide⟩
  obtain ⟨x, others, hm, hx⟩ := hstart
  have hne : x ≠ c := fun heq => hc (heq ▸ hx)
  rw [hm, List.isPrefixOf_cons_cons, beq_false_of_ne hne, Bool.false_and]

/-- Marks are tried in another order than in `mark?`, but a double colon before a colon in both. -/
theorem find?_marksInOrder (text : List Char) :
    marksInOrder.find? (fun m => m.text.toList.isPrefixOf text) =
      Mark.all.find? fun m => m.text.toList.isPrefixOf text := by
  cases text with
  | nil => rfl
  | cons c rest =>
    by_cases hc : c ∈ markStarts
    · simp only [markStarts, List.mem_cons, List.not_mem_nil, or_false] at hc
      rcases hc with rfl | rfl | rfl | rfl | rfl | rfl | rfl | rfl | rfl
      · cases rest with
        | nil => rfl
        | cons d rest =>
          by_cases hd : d = ':'
          · subst hd
            rfl
          · simp [marksInOrder, Mark.all, Mark.text, Ne.symm hd]
      all_goals rfl
    · have hnone : ∀ marks : List Mark,
          marks.find? (fun m => m.text.toList.isPrefixOf (c :: rest)) = none := fun marks =>
        List.find?_eq_none.mpr fun m _ => by simp [isPrefixOf_mark hc m rest]
      rw [hnone, hnone]

/-- The rules of marks match what the first mark of theirs is that the text starts with. -/
theorem findSome?_markRules (marks : List Mark) (text : List Char) :
    (marks.map markRule).findSome? (Rule.match? · text) =
      (marks.find? fun m => m.text.toList.isPrefixOf text).map
        fun m => (.mark m, m.text.toList) := by
  induction marks with
  | nil => rfl
  | cons m marks ih =>
    rw [List.map_cons, List.findSome?_cons, List.find?_cons, ih, Rule.match?, Pattern.match?,
      markRule, ways]
    cases m.text.toList.isPrefixOf text <;> rfl

/-- Where a number cannot start, no pattern of numbers matches. -/
theorem match?_numbers {c : Char} (hminus : c ≠ '-') (hdigit : c.isDigit = false)
    (rest : List Char) : floatingPattern.match? (c :: rest) = none ∧
      wholePattern.match? (c :: rest) = none := by
  have hsign : numberSign (c :: rest) = [] := by
    unfold numberSign
    split
    · rename_i heq
      exact absurd (List.cons.inj heq).1 hminus
    · rfl
  have hdigits :
      ((c :: rest).drop (numberSign (c :: rest)).length).takeWhile digitClass.mem = [] := by
    rw [hsign, List.length_nil, List.drop_zero]
    exact List.takeWhile_cons_of_neg (by simp [digitClass, hdigit])
  exact ⟨by rw [match?_floating hdigits rfl, if_pos rfl], by rw [match?_whole hdigits, if_pos rfl]⟩

/-- A class in front of a run: the pattern matches where the first character is of the class. -/
theorem match?_one_many (cls run : CharClass) (c : Char) (rest : List Char) :
    (Pattern.seq (.one cls) (.many run)).match? (c :: rest) =
      if cls.mem c then some (c :: rest.takeWhile run.mem) else none := by
  rw [Pattern.match?, ways_one_seq, ways]
  cases cls.mem c with
  | false => rfl
  | true => simp [head?_runs]

theorem match?_blank (c : Char) (rest : List Char) : blankPattern.match? (c :: rest) =
    if isGap c then some ((c :: rest).takeWhile isGap) else none := by
  rw [Pattern.match?, blankPattern, head?_ways_several]
  cases hc : isGap c with
  | false => simp [hc]
  | true => simp [hc]

theorem match?_identifier (c : Char) (rest : List Char) : identifierPattern.match? (c :: rest) =
    if isNameStart c then some ((c :: rest).takeWhile isNameChar) else none := by
  rw [identifierPattern, match?_one_many]
  change (if isNameStart c then some (c :: rest.takeWhile isNameChar) else none) = _
  split
  · rename_i hc
    rw [List.takeWhile_cons_of_pos (isNameChar_of_isNameStart hc)]
  · rfl

theorem match?_comment (c : Char) (rest : List Char) : commentPattern.match? (c :: rest) =
    if c = '#' then some ((c :: rest).takeWhile (· != '\n')) else none := by
  rw [commentPattern, match?_one_many]
  by_cases hc : c = '#'
  · subst hc
    rfl
  · simp [hc]

/-- One terminal is tried after the other: numbers with a point or an exponent, names, blanks, whole
numbers, comments and marks. -/
theorem firstMatch?_eq (text : List Char) : firstMatch? text =
    ((floatingPattern.match? text).map fun piece => (.floating, piece)).or
      (((identifierPattern.match? text).map fun piece => (wordTerminal piece, piece)).or
        (((blankPattern.match? text).map fun piece => (.blank, piece)).or
          (((wholePattern.match? text).map fun piece => (.integer, piece)).or
            (((commentPattern.match? text).map fun piece => (.comment, piece)).or
              (mark? text))))) := by
  have hcons : ∀ (r : Rule) (rs : List Rule), (r :: rs).findSome? (Rule.match? · text) =
      (r.match? text).or (rs.findSome? (Rule.match? · text)) := by
    intro r rs
    rw [List.findSome?_cons]
    cases r.match? text <;> rfl
  simp only [firstMatch?, rules, List.cons_append, List.nil_append, hcons, findSome?_markRules,
    find?_marksInOrder]
  rfl

theorem mark?_eq_none {c : Char} (hc : c ∉ markStarts) (rest : List Char) :
    mark? (c :: rest) = none := by
  rw [mark?, List.find?_eq_none.mpr fun m _ => by simp [isPrefixOf_mark hc m rest], Option.map_none]

/-- The characters that numbers start with are of no other terminal. -/
theorem number_start {c : Char} (h : c = '-' ∨ c.isDigit = true) :
    isNameStart c = false ∧ isGap c = false ∧ c ≠ '#' ∧ c ∉ markStarts := by
  rcases h with rfl | h
  · decide
  · refine ⟨isNameStart_eq_false_of_isDigit h, isGap_eq_false_of_isDigit h,
      ne_of_isDigit h (by decide), fun hmem => ?_⟩
    have hmarks : markStarts.all (!Char.isDigit ·) = true := by decide
    simpa [h] using List.all_eq_true.mp hmarks c hmem

/-- The piece that is read is that of the first terminal that matches. -/
theorem munch_eq_firstMatch? (text : List Char) : munch text = firstMatch? text := by
  cases text with
  | nil => rfl
  | cons c rest =>
    rw [firstMatch?_eq, match?_identifier, match?_blank, match?_comment]
    by_cases hnumber : c = '-' ∨ c.isDigit = true
    · obtain ⟨hname, hgap, hcomment, hmark⟩ := number_start hnumber
      rw [munch_eq_number? hnumber, number?_eq, mark?_eq_none hmark]
      simp [hname, hgap, hcomment]
    · obtain ⟨hminus, hdigit⟩ := not_or.mp hnumber
      obtain ⟨hfloating, hwhole⟩ := match?_numbers hminus (by simpa using hdigit) rest
      rw [hfloating, hwhole, munch]
      by_cases hname : isNameStart c = true
      · simp [hname]
      · by_cases hgap : isGap c = true
        · simp [hname, hgap]
        · by_cases hcomment : c = '#'
          · subst hcomment
            rfl
          · simp [hname, hgap, hcomment, hminus, hdigit]

end AnnotatedShader.Lexer
