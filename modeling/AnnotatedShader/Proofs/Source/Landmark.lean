import AnnotatedShader.Proofs.Source.Coordinates
import AnnotatedShader.Proofs.Source.Marker
import AnnotatedShader.Proofs.Statement.Reports

set_option autoImplicit false

/-!
# Landmarks

The places of a source that reports can name: its stage directives, the sentinels that open its
blocks, and what the annotations between them consist of.  Each of them is the place of a character
of the source (`Landmark.inText`).

`read_reports` has the reports of reading a source itself: they are at a directive, or at the
sentinel of a block that is not closed.  Everything that is reported later is at a token of the
annotations or at the character that stopped their scan, both of which are landmarks by their
coordinates (`landmark_of_scanned`).  The column of a mark is counted from the first character of
its line that is not blank, as the report does.
-/

namespace AnnotatedShader.Source

open AnnotatedShader.Text
open Statement (Scanned)

variable {file text : String}

/-- What stands at a position of a source. -/
inductive Landmark (file text : String) : Position → Prop
  | directive (d : Directive) (hd : d ∈ directivesFrom 1 ((lines text).zip (roles (lines text)))) :
    Landmark file text ⟨d.line, d.column⟩
  | opening (k : Nat) (hk : (roles (lines text))[k]? = some .opening) :
    Landmark file text ⟨k + 1, 1⟩
  | token (a : Annotated) (hread : (read file text).outcome = .ok a) (t : Token)
    (ht : t ∈ (Lexer.scan a.annotationText).tokens) : Landmark file text t.position
  | character (a : Annotated) (hread : (read file text).outcome = .ok a) (c : Char) (q : Position)
    (hstop : (Lexer.scan a.annotationText).stop = some (c, q)) : Landmark file text q
  | statement (a : Annotated) (hread : (read file text).outcome = .ok a) (ss : List Statement)
    (hparse : Statement.parse file a.annotationText = .ok ss) (s : Statement) (hs : s ∈ ss) :
    Landmark file text s.position
  | property (a : Annotated) (hread : (read file text).outcome = .ok a) (ss : List Statement)
    (hparse : Statement.parse file a.annotationText = .ok ss) (s : Statement) (hs : s ∈ ss)
    (p : Property) (hp : p ∈ s.body.properties) : Landmark file text p.position

/-- A position is that of a character: its line is one of the text, and its column is one of the
line. -/
def InText (text : String) (q : Position) : Prop :=
  ∃ k line, (lines text)[k]? = some line ∧ q.line = k + 1 ∧ 1 ≤ q.column ∧
    q.column ≤ line.toList.length

theorem InText.line_le {q : Position} (h : InText text q) :
    1 ≤ q.line ∧ q.line ≤ (lines text).length := by
  obtain ⟨k, line, hline, heq, _⟩ := h
  have hlt := (List.getElem?_eq_some_iff.mp hline).1
  omega

/-! ## Lines with a role -/

theorem exists_line_of_role {inside : Bool} {ls : List String} {k : Nat} {role : LineRole}
    (h : (rolesFrom inside ls)[k]? = some role) :
    ∃ line, ls[k]? = some line ∧ (role = insideRole line ∨ role = outsideRole line) := by
  induction ls generalizing inside k with
  | nil => cases inside <;> simp [rolesFrom] at h
  | cons line rest ih =>
    cases k with
    | zero =>
      refine ⟨line, rfl, ?_⟩
      cases inside with
      | true => exact .inl (Option.some.inj h).symm
      | false => exact .inr (Option.some.inj h).symm
    | succ k =>
      cases inside with
      | true => exact ih h
      | false => exact ih h

/-- A line that is a sentinel or a directive has a mark. -/
theorem mark_mem_of_role {ls : List String} {k : Nat} {role : LineRole}
    (h : (roles ls)[k]? = some role) (hannotated : role ≠ .annotated) (hbody : role ≠ .body) :
    ∃ line, ls[k]? = some line ∧ '#' ∈ line.toList := by
  obtain ⟨line, hline, hrole⟩ := exists_line_of_role h
  refine ⟨line, hline, ?_⟩
  suffices hmarker : Marker line.toList from hmarker.mem
  by_contra hplain
  have hbodyRole : outsideRole (String.ofList line.toList) = .body :=
    outsideRole_eq_body_iff.mpr hplain
  rw [String.ofList_toList] at hbodyRole
  have hsentinel : isSentinel line = false := by
    rw [outsideRole] at hbodyRole
    split at hbodyRole
    · contradiction
    · simpa using ‹¬ isSentinel line = true›
  rcases hrole with rfl | rfl
  · exact hannotated (by rw [insideRole, hsentinel]; rfl)
  · exact hbody hbodyRole

theorem markColumn_le {line : String} (h : '#' ∈ line.toList) :
    markColumn line ≤ line.toList.length := by
  refine Nat.lt_of_le_of_ne (List.takeWhile_prefix _).length_le fun heq => ?_
  have hall := List.takeWhile_eq_self_iff.mp ((List.takeWhile_prefix _).eq_of_length heq) '#' h
  contradiction

/-! ## Directives and sentinels -/

theorem directive_of_mem {n : Nat} {pairs : List (String × LineRole)} {d : Directive}
    (h : d ∈ directivesFrom n pairs) : ∃ k line value,
      pairs[k]? = some (line, .directive value) ∧ d.line = n + k ∧ d.column = markColumn line := by
  induction pairs generalizing n with
  | nil => simp [directivesFrom] at h
  | cons pair rest ih =>
    have hlater : d ∈ directivesFrom (n + 1) rest → ∃ k line value,
        (pair :: rest)[k]? = some (line, .directive value) ∧ d.line = n + k ∧
          d.column = markColumn line := by
      intro hd
      obtain ⟨k, line, value, hk, hline, hcolumn⟩ := ih hd
      exact ⟨k + 1, line, value, hk, by omega, hcolumn⟩
    obtain ⟨line, role⟩ := pair
    cases role with
    | directive value =>
      rcases List.mem_cons.mp h with rfl | hd
      · exact ⟨0, line, value, rfl, rfl, rfl⟩
      · exact hlater hd
    | opening | closing | annotated | body => exact hlater h

/-- A sentinel that no other one closes is one that opens a block. -/
theorem opening_of_unclosedFrom {n : Nat} {opened : Option Nat} {rs : List LineRole} {line : Nat}
    (h : unclosedFrom n opened rs = some line) :
    opened = some line ∨ ∃ k, rs[k]? = some .opening ∧ line = n + k := by
  induction rs generalizing n opened with
  | nil => exact .inl h
  | cons role rest ih =>
    have hlater : ∀ {opened}, (opened = some line ∨ ∃ k, rest[k]? = some .opening ∧
        line = n + 1 + k) → opened = some line ∨
          ∃ k, (role :: rest)[k]? = some .opening ∧ line = n + k := by
      rintro opened (hopened | ⟨k, hk, rfl⟩)
      · exact .inl hopened
      · exact .inr ⟨k + 1, hk, by omega⟩
    cases role with
    | opening =>
      rcases hlater (ih h) with hopened | hfound
      · exact .inr ⟨0, rfl, (Option.some.inj hopened).symm⟩
      · exact .inr hfound
    | closing =>
      rcases hlater (ih h) with hopened | hfound
      · contradiction
      · exact .inr hfound
    | directive | annotated | body => exact hlater (ih h)

/-! ## What is reported, and where it stands -/

/-- Whatever is reported of the lines of a source stands there. -/
theorem read_reports {d : Diagnostic} (h : (read file text).outcome = .error d) :
    d.file = file ∧ Landmark file text d.position := by
  unfold read at h
  simp only at h
  split at h
  · rename_i directive hfind
    obtain rfl := Except.error.inj h
    exact ⟨rfl, .directive directive (List.mem_of_find?_eq_some hfind)⟩
  · split at h
    · rename_i line hunclosed
      obtain rfl := Except.error.inj h
      rcases opening_of_unclosedFrom hunclosed with hopened | ⟨k, hk, rfl⟩
      · contradiction
      · rw [Nat.add_comm]
        exact ⟨rfl, .opening k hk⟩
    · split at h <;> contradiction

theorem landmark_of_scanned {a : Annotated} (hread : (read file text).outcome = .ok a)
    {q : Position}
    (h : Scanned (Lexer.scan a.annotationText) q) : Landmark file text q := by
  cases h with
  | token t ht => exact .token a hread t ht
  | character c q hstop => exact .character a hread c q hstop

theorem Annotated.Shows.inText {a : Annotated} (hread : (read file text).outcome = .ok a)
    {piece : List Char} (hne : piece ≠ []) {q : Position} (h : a.Shows piece q) :
    InText text q := by
  obtain ⟨k, line, before, after, hline, _, hsplit, rfl⟩ := h
  rw [(read_eq_ok hread).1] at hline
  have hlength := congrArg List.length hsplit
  have hpos := List.length_pos_iff.mpr hne
  simp only [List.length_append] at hlength
  refine ⟨k, line, hline, rfl, Nat.le_add_left 1 _, ?_⟩
  show before.length + 1 ≤ _
  omega

theorem inText_of_scanned {a : Annotated} (hread : (read file text).outcome = .ok a) {q : Position}
    (h : Scanned (Lexer.scan a.annotationText) q) : InText text q := by
  cases h with
  | token t ht =>
    obtain ⟨hne, hshows⟩ := shows_token hread ht
    exact hshows.inText hread hne
  | character c q hstop => exact (shows_stop hread hstop).inText hread (List.cons_ne_nil c [])

/-- A landmark is the place of a character. -/
theorem Landmark.inText {q : Position} (h : Landmark file text q) : InText text q := by
  cases h with
  | directive d hd =>
    obtain ⟨k, line, value, hk, hline, hcolumn⟩ := directive_of_mem hd
    obtain ⟨hfound, hrole⟩ := List.getElem?_zip_eq_some.mp hk
    obtain ⟨line', hline', hmark⟩ := mark_mem_of_role hrole (by simp) (by simp)
    obtain rfl := Option.some.inj (hfound.symm.trans hline')
    refine ⟨k, line, hfound, by rw [hline, Nat.add_comm], ?_, ?_⟩
    · rw [hcolumn]
      exact Nat.le_add_left 1 _
    · rw [hcolumn]
      exact markColumn_le hmark
  | opening k hk =>
    obtain ⟨line, hline, hmark⟩ := mark_mem_of_role hk (by simp) (by simp)
    exact ⟨k, line, hline, rfl, Nat.le_refl 1, List.length_pos_of_mem hmark⟩
  | token a hread t ht => exact inText_of_scanned hread (.token t ht)
  | character a hread c q hstop => exact inText_of_scanned hread (.character c q hstop)
  | statement a hread ss hparse s hs =>
    exact inText_of_scanned hread (Statement.parse_positions hparse s hs).1
  | property a hread ss hparse s hs p hp =>
    exact inText_of_scanned hread ((Statement.parse_positions hparse s hs).2 p hp)

end AnnotatedShader.Source
