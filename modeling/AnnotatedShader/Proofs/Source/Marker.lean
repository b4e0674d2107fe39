import AnnotatedShader.Proofs.Text.Run
import AnnotatedShader.Source.Line

set_option autoImplicit false

/-!
# Markers

Which lines are sentinels or stage directives, by their characters.  A line that holds any other
character in front of its first space is none, and a line that starts like a directive with a space
behind it is one, whatever follows.

`Marker` says it without the functions that look for them, and the first section proves the two to
be the same.  For texts in which a part is replaced, the question is whether a line can become a
marker when something is put into it.  It cannot if what is put in is alien to markers (`Alien`),
unless the line has been committed to being one before (`Committed`).
-/

namespace AnnotatedShader.Source

open AnnotatedShader.Text

/-- The lines that are sentinels or stage directives. -/
inductive Marker : List Char → Prop
  | sentinel {front behind : List Char} (hfront : front.all isBlank = true)
    (hbehind : behind.all isBlank = true) : Marker (front ++ (sentinel.toList ++ behind))
  | directive {front middle behind : List Char} (hfront : front.all isBlank = true)
    (hmiddle : middle.all isBlank = true)
    (hbehind : behind.all isBlank = true ∨ behind.head? = some ' ') :
    Marker (front ++ ('#' :: (middle ++ ("stage".toList ++ behind))))

/-! ## Sentinels and directives are markers -/

theorem isSentinel_iff {line : List Char} : isSentinel (String.ofList line) = true ↔
    ∃ front behind, front.all isBlank = true ∧ behind.all isBlank = true ∧
      line = front ++ (sentinel.toList ++ behind) := by
  rw [isSentinel, String.toList_ofList, beq_iff_eq]
  constructor
  · intro h
    by_cases hblank : line.all isBlank = true
    · rw [trim_eq_nil hblank] at h
      exact absurd h (by decide)
    · obtain ⟨front, solid, behind, rfl, hfront, hsolid, hbehind⟩ :=
        exists_solid (Bool.eq_false_iff.mpr hblank)
      rw [hsolid.trim_append hfront hbehind] at h
      exact ⟨front, behind, hfront, hbehind, by rw [h]⟩
  · rintro ⟨front, behind, hfront, hbehind, rfl⟩
    have hsolid : Solid sentinel.toList :=
      ⟨⟨'#', by decide, by decide⟩, ⟨'l', by decide, by decide⟩⟩
    exact hsolid.trim_append hfront hbehind

/-- A text starts with a word that its first space ends. -/
theorem takeWhile_eq_iff {word text : List Char} (hword : ' ' ∉ word) :
    text.takeWhile (· != ' ') = word ↔
      ∃ rest, text = word ++ rest ∧ (rest = [] ∨ rest.head? = some ' ') := by
  constructor
  · rintro rfl
    refine ⟨text.dropWhile (· != ' '), List.takeWhile_append_dropWhile.symm, ?_⟩
    cases hrest : text.dropWhile (· != ' ') with
    | nil => exact .inl rfl
    | cons c rest =>
      have hc := List.head_dropWhile_not (· != ' ') (l := text) (by simp [hrest])
      simp only [hrest, List.head_cons] at hc
      exact .inr (by simpa using hc)
  · rintro ⟨rest, rfl, hrest⟩
    have hall : ∀ c ∈ word, (c != ' ') = true := by
      intro c hc
      simpa using ne_of_mem_of_not_mem hc hword
    rw [List.takeWhile_append_of_pos hall]
    rcases hrest with rfl | hrest
    · simp
    · obtain ⟨c, rest, rfl⟩ := List.exists_cons_of_ne_nil (l := rest) (by rintro rfl; simp at hrest)
      obtain rfl := Option.some.inj hrest
      simp

/-- A directive is what is left between blanks of a mark and the word `stage` behind it, which is
all or has a space behind it. -/
theorem isSome_directiveValue?_iff {line : List Char} :
    (directiveValue? (String.ofList line)).isSome = true ↔
      ∃ rest content, trim line = '#' :: rest ∧ trim rest = "stage".toList ++ content ∧
        (content = [] ∨ content.head? = some ' ') := by
  have hword : ∀ text : List Char, text.takeWhile (· != ' ') = "stage".toList ↔ _ := fun text =>
    takeWhile_eq_iff (by decide)
  rw [directiveValue?, String.toList_ofList]
  split
  · rename_i rest heq
    simp only [Option.isSome_ite, beq_iff_eq, hword, heq]
    constructor
    · rintro ⟨content, hcontent⟩
      exact ⟨rest, content, rfl, hcontent⟩
    · rintro ⟨rest', content, hrest, hcontent⟩
      obtain rfl := (List.cons.inj hrest).2
      exact ⟨content, hcontent⟩
  · rename_i hother
    constructor
    · intro h
      contradiction
    · rintro ⟨rest, _, heq, _⟩
      exact absurd heq (hother rest)

theorem marker_of_isSome_directiveValue? {line : List Char}
    (h : (directiveValue? (String.ofList line)).isSome = true) : Marker line := by
  obtain ⟨rest, content, hline, hrest, hcontent⟩ := isSome_directiveValue?_iff.mp h
  have hnotBlank : ∀ {text : List Char} {c : Char} {trimmed : List Char}, trim text = c :: trimmed →
      text.all isBlank = false := by
    intro text c trimmed htrim
    refine Bool.eq_false_iff.mpr fun hblank => ?_
    rw [trim_eq_nil hblank] at htrim
    contradiction
  obtain ⟨front, solid, behind, rfl, hfront, hsolid, hbehind⟩ := exists_solid (hnotBlank hline)
  rw [hsolid.trim_append hfront hbehind] at hline
  obtain ⟨middle, inner, after, rfl, hmiddle, hinner, hafter⟩ := exists_solid (hnotBlank hrest)
  rw [hinner.trim_append hmiddle hafter] at hrest
  have hline : front ++ (solid ++ behind) =
      front ++ ('#' :: (middle ++ ("stage".toList ++ (content ++ (after ++ behind))))) := by
    simp only [hline, hrest, List.cons_append, List.append_assoc]
  rw [hline]
  refine .directive hfront hmiddle ?_
  rcases hcontent with rfl | hspace
  · exact .inl (by simp [hafter, hbehind])
  · exact .inr (by rw [List.head?_append, hspace]; rfl)

theorem Marker.isSome_directiveValue? {front middle behind : List Char}
    (hfront : front.all isBlank = true) (hmiddle : middle.all isBlank = true)
    (hbehind : behind.all isBlank = true ∨ behind.head? = some ' ') :
    (directiveValue? (String.ofList
      (front ++ ('#' :: (middle ++ ("stage".toList ++ behind)))))).isSome = true := by
  have hmark : Solid ['#'] := .singleton (by decide)
  have hstage : Solid "stage".toList := ⟨⟨'s', by decide, by decide⟩, ⟨'e', by decide, by decide⟩⟩
  rw [isSome_directiveValue?_iff]
  by_cases hblank : behind.all isBlank = true
  · refine ⟨middle ++ "stage".toList, [], ?_, ?_, .inl rfl⟩
    · have htrim := (hmark.append hstage middle).trim_append hfront hblank
      simpa using htrim
    · have htrim := hstage.trim_append hmiddle (List.all_nil (f := isBlank))
      simpa using htrim
  · -- What is not blank behind the word is kept, and so is the space in front of it.
    have hspace := hbehind.resolve_left hblank
    obtain ⟨gap, text, after, rfl, hgap, htext, hafter⟩ :=
      exists_solid (Bool.eq_false_iff.mpr hblank)
    refine ⟨middle ++ ("stage".toList ++ (gap ++ text)), gap ++ text, ?_, ?_, .inr ?_⟩
    · have htrim := (hmark.append (hstage.append htext gap) middle).trim_append hfront hafter
      simpa using htrim
    · have htrim := (hstage.append htext gap).trim_append hmiddle (List.all_nil (f := isBlank))
      simpa using htrim
    · cases gap with
      | nil =>
        obtain ⟨x, hx, hnot⟩ := htext.first
        rw [List.nil_append, List.head?_append, hx] at hspace
        obtain rfl := Option.some.inj hspace
        exact absurd hnot (by decide)
      | cons c gap => exact hspace

/-- A line is body text outside the blocks exactly when it is no marker. -/
theorem outsideRole_eq_body_iff {line : List Char} :
    outsideRole (String.ofList line) = .body ↔ ¬ Marker line := by
  have hbody : outsideRole (String.ofList line) = .body ↔
      isSentinel (String.ofList line) = false ∧
        (directiveValue? (String.ofList line)).isSome = false := by
    unfold outsideRole
    cases isSentinel (String.ofList line) <;> cases directiveValue? (String.ofList line) <;> simp
  rw [hbody]
  constructor
  · rintro ⟨hsentinel, hdirective⟩ hmarker
    cases hmarker with
    | @sentinel front behind hfront hbehind =>
      rw [isSentinel_iff.mpr ⟨front, behind, hfront, hbehind, rfl⟩] at hsentinel
      contradiction
    | directive hfront hmiddle hbehind =>
      rw [Marker.isSome_directiveValue? hfront hmiddle hbehind] at hdirective
      contradiction
  · intro h
    refine ⟨Bool.eq_false_iff.mpr fun hsentinel => h ?_,
      Bool.eq_false_iff.mpr fun hdirective => h (marker_of_isSome_directiveValue? hdirective)⟩
    obtain ⟨front, behind, hfront, hbehind, rfl⟩ := isSentinel_iff.mp hsentinel
    exact .sentinel hfront hbehind

/-! ## Lines that grow -/

/-- A character that no marker holds in front of its value: it is not blank, and not among the
characters of the two words. -/
structure Alien (c : Char) : Prop where
  blank : isBlank c = false
  fresh : c ∉ "#stagel".toList

/-- A line that is a marker whatever is put behind it. -/
def Committed (line : List Char) : Prop := ∀ behind, Marker (line ++ behind)

theorem committed_of_space {front middle : List Char} (hfront : front.all isBlank = true)
    (hmiddle : middle.all isBlank = true) (behind : List Char) :
    Committed (front ++ ('#' :: (middle ++ ("stage".toList ++ ' ' :: behind)))) := by
  intro more
  have hmarker :
      Marker (front ++ ('#' :: (middle ++ ("stage".toList ++ ' ' :: (behind ++ more))))) :=
    .directive hfront hmiddle (.inr rfl)
  simpa using hmarker

theorem Alien.notMem {c : Char} (hc : Alien c) {text : List Char} (h : text.all isBlank = true) :
    c ∉ text := by
  intro hmem
  have hblank := List.all_eq_true.mp h c hmem
  rw [hc.blank] at hblank
  contradiction

/-- A start that ends with a blank, without the character that follows a word, is all in front of
the word. -/
theorem exists_eq_append_of_word {line word behind start rest : List Char} {c x : Char}
    (hx : isBlank x = true) (hstart : c ∉ start ++ [x]) (hword : ∀ y ∈ word, isBlank y = false)
    (h : line ++ (word ++ c :: behind) = start ++ x :: rest) : ∃ t, line = start ++ x :: t := by
  have h : (line ++ word) ++ c :: behind = (start ++ [x]) ++ rest := by simpa using h
  obtain ⟨more, hmore⟩ : ∃ more, line ++ word = (start ++ [x]) ++ more := by
    rcases List.append_eq_append_iff.mp h with ⟨y, hy, hbehind⟩ | ⟨y, hy, _⟩
    · cases y with
      | nil => exact ⟨[], by simpa using hy.symm⟩
      | cons d y =>
        obtain rfl := (List.cons.inj hbehind).1
        exact absurd (by rw [hy]; simp) hstart
    · exact ⟨y, hy⟩
  rcases List.append_eq_append_iff.mp hmore with ⟨y, hy, hsplit⟩ | ⟨y, hy, _⟩
  · rcases List.eq_nil_or_concat y with rfl | ⟨y, d, rfl⟩
    · exact ⟨[], by simpa using hy.symm⟩
    · have hlast : x = d := by
        have heq : (start ++ [x]) = (line ++ y) ++ [d] := by simpa using hy
        exact (List.append_inj' heq rfl).2 |> List.singleton_inj.mp
      have hblank := hword d (by rw [hsplit]; simp)
      rw [← hlast, hx] at hblank
      contradiction
  · exact ⟨y, by simpa using hy⟩

/-- A marker with an alien character has it in the value of a directive, so that what stands in
front of the word that the character ends has committed itself. -/
theorem Marker.committed {line word behind : List Char} {c : Char} (hc : Alien c)
    (hword : ∀ x ∈ word, isBlank x = false) (h : Marker (line ++ (word ++ c :: behind))) :
    Committed line := by
  have hfresh : ∀ {text : List Char}, text ⊆ "#stagel".toList → c ∉ text := fun hsub hmem =>
    hc.fresh (hsub hmem)
  generalize htext : line ++ (word ++ c :: behind) = text at h
  have hmem : c ∈ text := by simp [← htext]
  cases h with
  | sentinel hfront hbehind =>
    simp only [List.mem_append] at hmem
    rcases hmem with hmem | hmem | hmem
    · exact absurd hmem (hc.notMem hfront)
    · exact absurd hmem (hfresh (by decide))
    · exact absurd hmem (hc.notMem hbehind)
  | @directive front middle rest hfront hmiddle hrest =>
    have hstart : c ∉ front ++ ('#' :: (middle ++ "stage".toList)) := by
      have hmark : c ∉ ['#'] := hfresh (by decide)
      simp only [List.mem_append, List.mem_cons, not_or]
      exact ⟨hc.notMem hfront, by simpa using hmark, hc.notMem hmiddle, hfresh (by decide)⟩
    have hsplit : front ++ ('#' :: (middle ++ ("stage".toList ++ rest))) =
        (front ++ ('#' :: (middle ++ "stage".toList))) ++ rest := by simp
    rw [hsplit] at hmem htext
    have hmem : c ∈ rest := (List.mem_append.mp hmem).resolve_left hstart
    have hspace := hrest.resolve_left fun hblank => hc.notMem hblank hmem
    obtain ⟨space, value, rfl⟩ :=
      List.exists_cons_of_ne_nil (l := rest) (by rintro rfl; simp at hmem)
    obtain rfl := Option.some.inj hspace
    have hspace : c ∉ [' '] := hc.notMem rfl
    obtain ⟨t, rfl⟩ := exists_eq_append_of_word (by decide)
      (fun hmem => (List.mem_append.mp hmem).elim hstart hspace) hword htext
    simpa using committed_of_space hfront hmiddle t

/-! ## Lines that are no markers -/

/-- Every marker has a mark. -/
theorem Marker.mem {line : List Char} (h : Marker line) : '#' ∈ line := by
  cases h with
  | sentinel => exact List.mem_append_right _ (List.mem_append_left _ (by decide))
  | directive => exact List.mem_append_right _ List.mem_cons_self

/-- Behind the mark of a marker there is a blank or the first letter of its words. -/
theorem not_marker_of_start {c : Char} (hc : isBlank c = false) (hs : c ≠ 's') (rest : List Char) :
    ¬ Marker ('#' :: c :: rest) := by
  have hnil : ∀ {front behind : List Char}, front.all isBlank = true →
      '#' :: c :: rest = front ++ behind → front = [] := by
    intro front behind hfront heq
    cases front with
    | nil => rfl
    | cons x front =>
      obtain ⟨rfl, _⟩ := List.cons.inj heq
      simp [show isBlank '#' = false by decide] at hfront
  intro h
  generalize htext : '#' :: c :: rest = text at h
  cases h with
  | sentinel hfront hbehind =>
    obtain rfl := hnil hfront htext
    obtain ⟨_, htext⟩ := List.cons.inj htext
    exact hs (List.cons.inj htext).1
  | @directive front middle behind hfront hmiddle =>
    obtain rfl := hnil hfront htext
    obtain ⟨_, htext⟩ := List.cons.inj htext
    cases middle with
    | nil => exact hs (List.cons.inj htext).1
    | cons x middle =>
      obtain ⟨rfl, _⟩ := List.cons.inj htext
      simp [hc] at hmiddle

end AnnotatedShader.Source
