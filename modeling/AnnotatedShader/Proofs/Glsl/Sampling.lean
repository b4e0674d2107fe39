import AnnotatedShader.Proofs.Glsl.Lexeme
import AnnotatedShader.Proofs.Glsl.Parenthesis

set_option autoImplicit false

/-!
# Sampling calls of a body

A call stands in a body with an identifier, a gap, and arguments in parentheses.  `Samples` says
that of a call in a text, with no search in it, and `sampleCall?_eq_some_iff` that the search finds
it.

Two sampling calls of one body are apart or one stands in the arguments of the other
(`within_or_behind`), so the arguments of a call can be read as a text of their own: the calls in
them are those of the body that stand inside (`within_iff`).  A place is `Clear` if no call lies
across it.  The start of a text is, the place behind a call is, and so is the one behind an
identifier that starts no call; these are the places that rewriting goes through.
-/

namespace AnnotatedShader.Glsl

open AnnotatedShader.Text

/-! ## Runs -/

/-- A run of a class ends in front of a character that is not of the class. -/
theorem eq_append_of_run {p : Char → Bool} {run tail front rest : List Char} {c : Char}
    (hrun : ∀ x ∈ run, p x = true) (hc : p c = false) (h : run ++ tail = front ++ c :: rest) :
    ∃ y, front = run ++ y ∧ tail = y ++ c :: rest := by
  rcases List.append_eq_append_iff.mp h with ⟨y, hfront, htail⟩ | ⟨y, hsplit, hbehind⟩
  · exact ⟨y, hfront, htail⟩
  · cases y with
    | nil => exact ⟨[], by simpa using hsplit.symm, by simpa using hbehind.symm⟩
    | cons x y =>
      obtain ⟨rfl, -⟩ := List.cons.inj hbehind
      have hmem : c ∈ run := by simp [hsplit]
      rw [hrun c hmem] at hc
      contradiction

/-- What is longer of two fronts of a text goes on where the other one ends. -/
theorem exists_eq_append_of_length_le {front front' rest rest' : List Char}
    (h : front ++ rest = front' ++ rest') (hle : front.length ≤ front'.length) :
    ∃ x, front' = front ++ x ∧ rest = x ++ rest' := by
  rcases List.append_eq_append_iff.mp h with ⟨x, hfront, hrest⟩ | ⟨x, hfront, hrest⟩
  · exact ⟨x, hfront, hrest⟩
  · have hlength := congrArg List.length hfront
    rw [List.length_append] at hlength
    obtain rfl : x = [] := List.length_eq_zero_iff.mp (by omega)
    exact ⟨[], by simp [hfront], by simp [hrest]⟩

theorem isNameChar_eq_false_of_isCallGap {c : Char} (h : isCallGap c = true) :
    isNameChar c = false := by
  obtain rfl | rfl : c = ' ' ∨ c = '\t' := by simpa [isCallGap] using h
  all_goals decide

/-! ## Calls -/

/-- A call in its place in a body, by the parts it is written in. -/
structure Call where
  front : List Char
  ident : String
  gap : List Char
  arguments : List Char
  behind : List Char
  deriving DecidableEq, Repr, Inhabited

namespace Call

/-- What stands behind the identifier of a call. -/
def tail (c : Call) : List Char := c.gap ++ '(' :: (c.arguments ++ ')' :: c.behind)

/-- What stands in front of the arguments of a call. -/
def opening (c : Call) : List Char := c.front ++ (c.ident.toList ++ (c.gap ++ ['(']))

/-- The text up to the end of a call. -/
def written (c : Call) : List Char := c.opening ++ (c.arguments ++ [')'])

/-- The body that a call stands in. -/
def text (c : Call) : List Char := c.front ++ (c.ident.toList ++ c.tail)

theorem text_eq_opening (c : Call) : c.text = c.opening ++ (c.arguments ++ ')' :: c.behind) := by
  simp [text, tail, opening]

theorem text_eq_written (c : Call) : c.text = c.written ++ c.behind := by
  simp [text, tail, written, opening]

/-- A call in a part of a body, seen in the body. -/
def within (c : Call) (front behind : List Char) : Call :=
  ⟨front ++ c.front, c.ident, c.gap, c.arguments, c.behind ++ behind⟩

theorem opening_within (c : Call) (front behind : List Char) :
    (c.within front behind).opening = front ++ c.opening := by
  simp [within, opening]

theorem written_within (c : Call) (front behind : List Char) :
    (c.within front behind).written = front ++ c.written := by
  simp [within, written, opening]

/-- The identifier of a call in its place. -/
def name (c : Call) : Occurrence := ⟨c.front, .name c.ident, c.tail⟩

end Call

/-- The calls that sample a texture: those of `T_Sample` for a texture `T`, unless the identifier
selects a member of something else or is one that a member is referred to by. -/
structure Samples (r : Rewriting) (c : Call) (sampler : String) : Prop where
  identifier : IsIdentifier c.ident.toList
  boundary : c.front.getLast?.any isWordChar = false
  free : c.front.getLast? ≠ some '.'
  noMember : r.members.lookup c.ident = none
  texture : ∃ t, c.ident = t ++ "_Sample" ∧ r.textures.lookup t = some sampler
  gap : ∀ x ∈ c.gap, isCallGap x = true
  arguments : Balanced c.arguments

theorem sampledTexture?_eq_some_iff {r : Rewriting} {ident : List Char} {sampler : String} :
    sampledTexture? r ident = some sampler ↔
      ∃ t, String.ofList ident = t ++ "_Sample" ∧ r.textures.lookup t = some sampler := by
  rw [sampledTexture?]
  constructor
  · intro h
    split at h
    · rename_i hsuffix
      obtain ⟨front, rfl⟩ := List.isSuffixOf_iff_suffix.mp hsuffix
      refine ⟨String.ofList front, ?_, ?_⟩
      · rw [String.ofList_append]
        rfl
      · simpa using h
    · contradiction
  · rintro ⟨t, hident, hlookup⟩
    have hident' : ident = t.toList ++ sampleSuffix := by
      have hlist := congrArg String.toList hident
      rwa [String.toList_ofList, String.toList_append] at hlist
    rw [if_pos (List.isSuffixOf_iff_suffix.mpr ⟨t.toList, hident'.symm⟩), hident']
    simpa using hlookup

/-- The call that is found for an identifier and the text behind it. -/
theorem sampleCall?_eq_some_iff {r : Rewriting} {ident after : List Char} {call : SampleCall} :
    sampleCall? r ident after = some call ↔
      sampledTexture? r ident = some call.sampler ∧ ∃ gap, (∀ x ∈ gap, isCallGap x = true) ∧
        Balanced call.arguments ∧
        after = gap ++ '(' :: (call.arguments ++ ')' :: call.behind) := by
  rw [sampleCall?]
  constructor
  · intro h
    split at h
    · contradiction
    · rename_i sampler hsampler
      split at h
      · rename_i rest hafter
        obtain ⟨⟨arguments, behind⟩, hclose, rfl⟩ := Option.map_eq_some_iff.mp h
        obtain ⟨hbalanced, rfl⟩ := closeParen?_eq_some_iff.mp hclose
        refine ⟨hsampler, after.takeWhile isCallGap, fun x hx => List.mem_takeWhile_imp hx,
          hbalanced, ?_⟩
        rw [← hafter, List.takeWhile_append_dropWhile]
      · contradiction
  · rintro ⟨hsampler, gap, hgap, hbalanced, rfl⟩
    rw [hsampler, (takeWhile_append_of_head? hgap rfl).2]
    simp only [closeParen?_of_closing hbalanced, Option.map_some]

/-! ## How calls of one body lie -/

namespace Samples

variable {r : Rewriting} {c c' : Call} {sampler sampler' : String}

theorem name_head (h : Samples r c sampler) :
    ∃ k ks, c.ident.toList = k :: ks ∧ isNameStart k = true := by
  have hident := h.identifier
  generalize c.ident.toList = ident at hident
  cases hident with
  | @cons k ks hk hks => exact ⟨k, ks, rfl, hk⟩

theorem tail_head (h : Samples r c sampler) : c.tail.head?.any isNameChar = false := by
  rw [Call.tail]
  cases hgap : c.gap with
  | nil => rfl
  | cons x gap =>
    obtain rfl | rfl : x = ' ' ∨ x = '\t' := by
      simpa [isCallGap] using h.gap x (by rw [hgap]; exact List.mem_cons_self)
    all_goals rfl

/-- No character between an identifier and its arguments is a closing parenthesis. -/
theorem not_closing (h : Samples r c sampler) :
    ∀ x ∈ c.ident.toList ++ (c.gap ++ ['(']), (x != ')') = true := by
  intro x hx
  rw [bne_iff_ne]
  rintro rfl
  rcases List.mem_append.mp hx with hx | hx
  · exact absurd (h.identifier.isNameChar hx) (by decide)
  · rcases List.mem_append.mp hx with hx | hx
    · exact absurd (h.gap _ hx) (by decide)
    · exact absurd (List.mem_singleton.mp hx) (by decide)

/-- The identifier of a sampling call is the one that is read where it starts. -/
theorem name_eq (h : Samples r c sampler) {ident behind : List Char} (hident : IsIdentifier ident)
    (hbehind : behind.head?.any isNameChar = false)
    (htext : c.text = c.front ++ (ident ++ behind)) :
    c.name = ⟨c.front, .name (String.ofList ident), behind⟩ := by
  have hread := occurrences_name h.identifier h.boundary h.tail_head
  rw [List.append_cancel_left htext, occurrences_name hident h.boundary hbehind] at hread
  obtain ⟨hname, -⟩ := List.cons.inj hread
  rw [hname, Call.name, String.ofList_toList]

/-- No sampling call starts in an identifier. -/
theorem not_inside_name (h : Samples r c sampler) {front x y : List Char} (hne : x ≠ [])
    (hident : IsIdentifier (x ++ y)) : c.front ≠ front ++ x := by
  intro hfront
  have hlast : isNameChar (x.getLast hne) = true :=
    hident.isNameChar (List.mem_append_left y (List.getLast_mem hne))
  have hword := h.boundary
  rw [hfront, List.getLast?_append, List.getLast?_eq_some_getLast hne, Option.some_or,
    Option.any_some, isWordChar_of_isNameChar hlast] at hword
  contradiction

/-- Where a sampling call starts there is no other one. -/
theorem eq_of_front (h : Samples r c sampler) (h' : Samples r c' sampler')
    (hfront : c.front = c'.front) (htext : c.text = c'.text) : c = c' := by
  have hname := h.name_eq h'.identifier h'.tail_head (htext.trans (by rw [Call.text, hfront]))
  obtain ⟨front, ident, gap, arguments, behind⟩ := c
  obtain ⟨front', ident', gap', arguments', behind'⟩ := c'
  obtain rfl : front = front' := hfront
  obtain ⟨-, hident, htail⟩ := Occurrence.mk.inj hname
  obtain rfl : ident = ident' := by simpa using hident
  have hcut := @takeWhile_append_of_head? _ _ ('(' :: (arguments ++ ')' :: behind)) h.gap rfl
  have hcut' := @takeWhile_append_of_head? _ _ ('(' :: (arguments' ++ ')' :: behind')) h'.gap rfl
  simp only [Call.tail] at htail
  rw [← htail] at hcut'
  obtain rfl : gap = gap' := hcut.1.symm.trans hcut'.1
  obtain ⟨rfl, rfl⟩ :=
    h.arguments.unique h'.arguments (List.cons.inj (hcut.2.symm.trans hcut'.2)).2
  rfl

/-- A sampling call that starts behind the start of another one starts behind its parenthesis. -/
theorem front_eq_opening (h : Samples r c sampler) (h' : Samples r c' sampler')
    (hlt : c.front.length < c'.front.length) (htext : c.text = c'.text) :
    ∃ f, c'.front = c.opening ++ f ∧
      c.arguments ++ ')' :: c.behind = f ++ (c'.ident.toList ++ c'.tail) := by
  obtain ⟨k, ks, hk, hstart⟩ := h'.name_head
  rw [Call.text, Call.text] at htext
  obtain ⟨x, hfront, hx⟩ := exists_eq_append_of_length_le htext hlt.le
  have hne : x ≠ [] := by
    rintro rfl
    rw [hfront, List.append_nil] at hlt
    exact absurd hlt (Nat.lt_irrefl _)
  -- In the identifier the text in front would end with a word character.
  obtain ⟨y, rfl, hy⟩ :
      ∃ y, x = c.ident.toList ++ y ∧ c.tail = y ++ (c'.ident.toList ++ c'.tail) := by
    rcases List.append_eq_append_iff.mp hx with ⟨y, hx, hy⟩ | ⟨y, hident, -⟩
    · exact ⟨y, hx, hy⟩
    · exact absurd hfront (h'.not_inside_name hne (hident ▸ h.identifier))
  -- Neither a gap nor a parenthesis starts an identifier.
  have hk' : isCallGap k = false := by
    refine Bool.eq_false_iff.mpr fun hgap => ?_
    have hname := isNameChar_of_isNameStart hstart
    rw [isNameChar_eq_false_of_isCallGap hgap] at hname
    contradiction
  rw [Call.tail, hk, List.cons_append] at hy
  obtain ⟨z, rfl, hz⟩ := eq_append_of_run h.gap hk' hy
  cases z with
  | nil =>
    obtain ⟨rfl, -⟩ := List.cons.inj hz
    exact absurd hstart (by decide)
  | cons p f =>
    obtain ⟨rfl, hf⟩ := List.cons.inj hz
    exact ⟨f, by simp [hfront, Call.opening], by simpa [hk] using hf⟩

/-- Of two sampling calls of one body the second stands in the arguments of the first, or behind
it. -/
theorem within_or_behind (h : Samples r c sampler) (h' : Samples r c' sampler')
    (hlt : c.front.length < c'.front.length) (htext : c.text = c'.text) :
    (∃ d : Call, d.text = c.arguments ∧ c' = d.within c.opening (')' :: c.behind)) ∨
      ∃ y, c'.front = c.written ++ y := by
  obtain ⟨k, ks, hk, hstart⟩ := h'.name_head
  obtain ⟨f, hfront, hf⟩ := front_eq_opening h h' hlt htext
  rcases List.append_eq_append_iff.mp hf with ⟨y, rfl, hy⟩ | ⟨z, harguments, hz⟩
  · right
    cases y with
    | nil =>
      rw [hk, List.nil_append, List.cons_append] at hy
      obtain ⟨rfl, -⟩ := List.cons.inj hy
      exact absurd hstart (by decide)
    | cons p y =>
      obtain ⟨rfl, -⟩ := List.cons.inj hy
      exact ⟨y, by simp [hfront, Call.written]⟩
  · left
    -- The arguments reach behind the opening parenthesis, so they reach its counterpart.
    have hz' : (c'.ident.toList ++ (c'.gap ++ ['('])) ++ (c'.arguments ++ ')' :: c'.behind) =
        z ++ ')' :: c.behind := by
      simpa [Call.tail] using hz
    obtain ⟨q, rfl, hq⟩ := eq_append_of_run h'.not_closing (by decide) hz'
    have hbalanced := h.arguments
    have hshape : c.arguments = (f ++ (c'.ident.toList ++ c'.gap)) ++ '(' :: q := by
      simp [harguments]
    rw [hshape] at hbalanced
    obtain ⟨inner, behind, rfl, hinner⟩ := hbalanced.inside
    have hclose :
        c'.arguments ++ ')' :: c'.behind = inner ++ ')' :: (behind ++ ')' :: c.behind) := by
      simpa using hq
    obtain ⟨rfl, hbehind⟩ := h'.arguments.unique hinner hclose
    refine ⟨⟨f, c'.ident, c'.gap, c'.arguments, behind⟩, ?_, ?_⟩
    · simp [Call.text, Call.tail, harguments]
    · rw [Call.within, ← hfront, ← hbehind]

/-- What is in front of a part of a body does not matter if it is not a word or a point. -/
theorem within_iff {front : List Char} (hword : front.getLast?.any isWordChar = false)
    (hpoint : front.getLast? ≠ some '.') (behind : List Char) :
    Samples r (c.within front behind) sampler ↔ Samples r c sampler := by
  have hlast : ((front ++ c.front).getLast?.any isWordChar = false ∧
      (front ++ c.front).getLast? ≠ some '.') ↔
      (c.front.getLast?.any isWordChar = false ∧ c.front.getLast? ≠ some '.') := by
    rw [List.getLast?_append]
    cases c.front.getLast? with
    | none => simpa using ⟨by simpa using hword, hpoint⟩
    | some x => simp
  constructor
  · intro h
    obtain ⟨hboundary, hfree⟩ := hlast.mp ⟨h.boundary, h.free⟩
    exact ⟨h.identifier, hboundary, hfree, h.noMember, h.texture, h.gap, h.arguments⟩
  · intro h
    obtain ⟨hboundary, hfree⟩ := hlast.mpr ⟨h.boundary, h.free⟩
    exact ⟨h.identifier, hboundary, hfree, h.noMember, h.texture, h.gap, h.arguments⟩

end Samples

/-! ## Places that no call lies across -/

/-- Whether every sampling call that starts in front of a place ends in front of it. -/
def Clear (r : Rewriting) (front text : List Char) : Prop :=
  ∀ (c : Call) (sampler : String), Samples r c sampler → c.text = front ++ text →
    c.front.length < front.length → ∃ y, front = c.written ++ y

namespace Clear

variable {r : Rewriting} {front text : List Char}

theorem start (r : Rewriting) (text : List Char) : Clear r [] text :=
  fun _ _ _ _ hlt => absurd hlt (Nat.not_lt_zero _)

/-- Behind a piece of text it is as in front of it, but for the calls that start in the piece. -/
theorem extend {piece : List Char} (h : Clear r front (piece ++ text))
    (hpiece : ∀ (c : Call) (sampler : String), Samples r c sampler →
      c.text = front ++ (piece ++ text) → ∀ x, c.front = front ++ x → x.length < piece.length →
      ∃ y, front ++ piece = c.written ++ y) :
    Clear r (front ++ piece) text := by
  intro c sampler hc htext hlt
  rw [List.append_assoc] at htext
  rcases Nat.lt_or_ge c.front.length front.length with hfront | hfront
  · obtain ⟨y, hy⟩ := h c sampler hc htext hfront
    exact ⟨y ++ piece, by rw [hy, List.append_assoc]⟩
  · obtain ⟨x, hx, -⟩ := exists_eq_append_of_length_le htext.symm hfront
    refine hpiece c sampler hc htext x hx ?_
    rw [hx, List.length_append, List.length_append] at hlt
    omega

theorem char {x : Char} (h : Clear r front (x :: text))
    (hx : startsName front.getLast? x = false) : Clear r (front ++ [x]) text := by
  refine extend h fun c sampler hc htext y hfront hlength => ?_
  obtain rfl : y = [] := List.length_eq_zero_iff.mp (Nat.lt_one_iff.mp hlength)
  rw [List.append_nil] at hfront
  obtain ⟨k, ks, hk, hstart⟩ := hc.name_head
  rw [Call.text, hfront, hk] at htext
  obtain ⟨rfl, -⟩ := List.cons.inj (List.append_cancel_left htext)
  rw [startsName_iff.mpr ⟨hstart, hfront ▸ hc.boundary⟩] at hx
  contradiction

/-- Behind an identifier that no sampling call starts with. -/
theorem name {ident : List Char} (h : Clear r front (ident ++ text)) (hident : IsIdentifier ident)
    (htext : text.head?.any isNameChar = false)
    (hcall : ∀ (c : Call) (sampler : String), Samples r c sampler →
      c.name ≠ ⟨front, .name (String.ofList ident), text⟩) : Clear r (front ++ ident) text := by
  refine extend h fun c sampler hc hwhole x hfront hlength => ?_
  exfalso
  rcases eq_or_ne x [] with rfl | hne
  · rw [List.append_nil] at hfront
    have hname := hc.name_eq hident htext (by rw [hwhole, hfront])
    exact hcall c sampler hc (hfront ▸ hname)
  · rw [Call.text, hfront, List.append_assoc] at hwhole
    obtain ⟨y, rfl, -⟩ :=
      exists_eq_append_of_length_le (List.append_cancel_left hwhole) hlength.le
    exact hc.not_inside_name hne hident hfront

/-- Behind a sampling call. -/
theorem call {c : Call} {sampler : String} (hc : Samples r c sampler)
    (h : Clear r c.front (c.ident.toList ++ c.tail)) : Clear r c.written c.behind := by
  intro c' sampler' hc' htext hlt
  rw [← c.text_eq_written] at htext
  rcases Nat.lt_trichotomy c'.front.length c.front.length with hfront | hfront | hfront
  · obtain ⟨y, hy⟩ := h c' sampler' hc' htext hfront
    exact ⟨y ++ (c.ident.toList ++ (c.gap ++ '(' :: (c.arguments ++ [')']))),
      by rw [Call.written, Call.opening, hy]; simp⟩
  · obtain rfl : c' = c := hc'.eq_of_front hc (List.append_inj htext hfront).1 htext
    exact ⟨[], by rw [List.append_nil]⟩
  · rcases hc.within_or_behind hc' hfront htext.symm with ⟨d, hd, rfl⟩ | ⟨y, hy⟩
    · refine ⟨d.behind ++ [')'], ?_⟩
      rw [Call.written_within, Call.written, ← hd, d.text_eq_written]
      simp
    · rw [hy, List.length_append] at hlt
      omega

end Clear

end AnnotatedShader.Glsl
