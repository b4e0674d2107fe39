import AnnotatedShader.Proofs.Glsl.Sampling
import AnnotatedShader.Proofs.Lists
import AnnotatedShader.Proofs.Text.Run

set_option autoImplicit false

/-!
# What stands for a lexeme of a body

`Replaced` says in place, from the body around a lexeme, what the rewritten body has for it: a
reference to a member becomes a selection, the identifier of a sampling call the sampling function
with its sampler, and the parenthesis of such a call a comma.  All else is copied, up to the blanks
at the ends of the arguments.

What is said of a lexeme in the arguments of a call read alone holds of it in the body
(`Replaced.within`).  That is the lemma by which the recursion of the rewriting into arguments turns
into a statement on one body.  It needs that a lexeme is reshaped by one call at most, as its
opening or as a blank at the ends of its arguments, and by the same one in both texts
(`Reshapes.unique`).

A lexeme has one piece (`Replaced.unique`), so the relation leaves no choice to what rewriting makes
of a body.
-/

namespace AnnotatedShader.Glsl

open AnnotatedShader.Text

/-- The body that a lexeme stands in. -/
def Occurrence.text (o : Occurrence) : List Char := o.front ++ (o.lexeme.text ++ o.behind)

theorem text_of_mem_occurrences {front text : List Char} {o : Occurrence}
    (h : o ∈ occurrences front text) : o.text = front ++ text := by
  obtain ⟨⟨a, ha, hsplit⟩, -⟩ := mem_occurrences h
  rw [Occurrence.text, ha, hsplit, List.append_assoc]

theorem Occurrence.within_inj {front behind : List Char} {o o' : Occurrence}
    (h : o.within front behind = o'.within front behind) : o = o' := by
  obtain ⟨hfront, hlexeme, hbehind⟩ := Occurrence.mk.inj h
  obtain ⟨ofront, lexeme, obehind⟩ := o
  obtain rfl := List.append_cancel_left hfront
  obtain rfl := List.append_cancel_right hbehind
  obtain rfl : lexeme = o'.lexeme := hlexeme
  rfl

theorem Occurrence.text_within (o : Occurrence) (front behind : List Char) :
    (o.within front behind).text = front ++ (o.text ++ behind) := by
  simp [Occurrence.text, Occurrence.within]

namespace Call

theorem name_within (c : Call) (front behind : List Char) :
    (c.within front behind).name = c.name.within front behind := by
  simp [name, within, tail, Occurrence.within]

/-- The characters that a sampling call does not copy, with what it has for them: the gap, the
opening parenthesis, and the blanks at the ends of the arguments. -/
inductive Reshapes (c : Call) : Occurrence → List Lexeme → Prop
  | gap {front a b behind : List Char} {x : Char} (hgap : c.gap = a ++ x :: b)
    (hfront : front = c.front ++ (c.ident.toList ++ a))
    (hbehind : behind = b ++ '(' :: (c.arguments ++ ')' :: c.behind)) :
    Reshapes c ⟨front, .char x, behind⟩ []
  | separator {front behind : List Char} (hfront : front = c.front ++ (c.ident.toList ++ c.gap))
    (hbehind : behind = c.arguments ++ ')' :: c.behind) (harguments : ¬ c.arguments.all isBlank) :
    Reshapes c ⟨front, .char '(', behind⟩ [.char ',', .char ' ']
  | opening {front behind : List Char} (hfront : front = c.front ++ (c.ident.toList ++ c.gap))
    (hbehind : behind = c.arguments ++ ')' :: c.behind) (harguments : c.arguments.all isBlank) :
    Reshapes c ⟨front, .char '(', behind⟩ []
  | blank {front a b behind : List Char} {x : Char} (harguments : c.arguments = a ++ x :: b)
    (hfront : front = c.opening ++ a) (hbehind : behind = b ++ ')' :: c.behind)
    (hx : isBlank x = true) (hend : a.all isBlank ∨ b.all isBlank) :
    Reshapes c ⟨front, .char x, behind⟩ []

namespace Reshapes

variable {c : Call} {o : Occurrence} {piece : List Lexeme}

theorem text_eq (h : c.Reshapes o piece) : o.text = c.text := by
  cases h with
  | gap hgap hfront hbehind => simp [Occurrence.text, Call.text, tail, hgap, hfront, hbehind]
  | separator hfront hbehind => simp [Occurrence.text, Call.text, tail, hfront, hbehind]
  | opening hfront hbehind => simp [Occurrence.text, Call.text, tail, hfront, hbehind]
  | blank harguments hfront hbehind =>
    simp [Occurrence.text, Call.text, tail, Call.opening, harguments, hfront, hbehind]

/-- It stands behind the identifier of its call and in front of the closing parenthesis. -/
theorem inside (h : c.Reshapes o piece) :
    (∃ a, o.front = c.front ++ (c.ident.toList ++ a)) ∧ ∃ b, o.behind = b ++ ')' :: c.behind := by
  cases h with
  | @gap front a b behind x hgap hfront hbehind =>
    exact ⟨⟨a, hfront⟩, b ++ '(' :: c.arguments, by simp [hbehind]⟩
  | separator hfront hbehind => exact ⟨⟨c.gap, hfront⟩, c.arguments, hbehind⟩
  | opening hfront hbehind => exact ⟨⟨c.gap, hfront⟩, c.arguments, hbehind⟩
  | @blank front a b behind x harguments hfront hbehind =>
    exact ⟨⟨c.gap ++ '(' :: a, by simp [hfront, Call.opening]⟩, b, hbehind⟩

theorem within_iff {front behind : List Char} :
    (c.within front behind).Reshapes (o.within front behind) piece ↔ c.Reshapes o piece := by
  obtain ⟨ofront, lexeme, obehind⟩ := o
  constructor
  · intro h
    rw [Occurrence.within] at h
    cases h with
    | gap hgap hfront hbehind =>
      refine .gap hgap (by simpa [Call.within] using hfront) (List.append_cancel_right
        (hbehind.trans ?_))
      simp [Call.within]
    | separator hfront hbehind harguments =>
      refine .separator (by simpa [Call.within] using hfront) (List.append_cancel_right
        (hbehind.trans ?_)) harguments
      simp [Call.within]
    | opening hfront hbehind harguments =>
      refine .opening (by simpa [Call.within] using hfront) (List.append_cancel_right
        (hbehind.trans ?_)) harguments
      simp [Call.within]
    | blank harguments hfront hbehind hx hend =>
      rw [opening_within, List.append_assoc] at hfront
      refine .blank harguments (List.append_cancel_left hfront) (List.append_cancel_right
        (hbehind.trans ?_)) hx hend
      simp [Call.within]
  · intro h
    rw [Occurrence.within]
    cases h with
    | gap hgap hfront hbehind =>
      exact .gap hgap (by simp [Call.within, hfront]) (by simp [Call.within, hbehind])
    | separator hfront hbehind harguments =>
      exact .separator (by simp [Call.within, hfront]) (by simp [Call.within, hbehind]) harguments
    | opening hfront hbehind harguments =>
      exact .opening (by simp [Call.within, hfront]) (by simp [Call.within, hbehind]) harguments
    | blank harguments hfront hbehind hx hend =>
      exact .blank harguments (by simp [opening_within, hfront])
        (by simp [Call.within, hbehind]) hx hend

/-- Behind the opening parenthesis it is a blank at an end of the arguments. -/
theorem blank_of_opening (h : c.Reshapes o piece) {front : List Char}
    (hfront : o.front = c.opening ++ front) :
    piece = [] ∧ ∃ x behind, o.lexeme = .char x ∧ isBlank x = true ∧
      o.behind = behind ++ ')' :: c.behind ∧ (front.all isBlank ∨ behind.all isBlank) := by
  have hlength := congrArg List.length hfront
  simp only [Call.opening, List.length_append, List.length_singleton] at hlength
  cases h with
  | gap hgap hfront' =>
    have hlength' := congrArg List.length hfront'
    have hgap := congrArg List.length hgap
    simp only [List.length_append, List.length_cons] at *
    omega
  | separator hfront' =>
    have hlength' := congrArg List.length hfront'
    simp only [List.length_append] at *
    omega
  | opening hfront' =>
    have hlength' := congrArg List.length hfront'
    simp only [List.length_append] at *
    omega
  | blank harguments hfront' hbehind hx hend =>
    obtain rfl := List.append_cancel_left (hfront'.symm.trans hfront)
    exact ⟨rfl, _, _, rfl, hx, hbehind, hend⟩

/-- A call reshapes a character in one way. -/
theorem unique {piece' : List Lexeme} (h : c.Reshapes o piece) (h' : c.Reshapes o piece') :
    piece = piece' := by
  have hgapless {a b front : List Char} {x : Char} (hgap : c.gap = a ++ x :: b)
      (hfront : front = c.front ++ (c.ident.toList ++ a))
      (hfront' : front = c.front ++ (c.ident.toList ++ c.gap)) : False := by
    have hlength := congrArg List.length (hfront.symm.trans hfront')
    simp only [hgap, List.length_append, List.length_cons] at hlength
    omega
  cases h with
  | gap hgap hfront =>
    cases h' with
    | separator hfront' => exact (hgapless hgap hfront hfront').elim
    | _ => rfl
  | separator hfront _ harguments =>
    cases h' with
    | gap hgap hfront' => exact (hgapless hgap hfront' hfront).elim
    | separator => rfl
    | opening _ _ harguments' => exact absurd harguments' harguments
    | blank _ _ _ hx => exact absurd hx (by decide)
  | opening hfront _ harguments =>
    cases h' with
    | separator _ _ harguments' => exact absurd harguments harguments'
    | _ => rfl
  | blank _ _ _ hx =>
    cases h' with
    | separator => exact absurd hx (by decide)
    | _ => rfl

end Reshapes

end Call

/-- What a rewritten body has for a lexeme of the body. -/
inductive Replaced (r : Rewriting) : Occurrence → List Lexeme → Prop
  /-- An identifier behind a point is a member of something else. -/
  | selector {front behind : List Char} {ident : String} (hpoint : front.getLast? = some '.') :
    Replaced r ⟨front, .name ident, behind⟩ [.name ident]
  | member {front behind : List Char} {ident inst mem : String}
    (hpoint : front.getLast? ≠ some '.')
    (hmember : r.members.lookup ident = some (inst ++ "." ++ mem))
    (hinst : IsIdentifier inst.toList) (hmem : IsIdentifier mem.toList) :
    Replaced r ⟨front, .name ident, behind⟩ [.name inst, .char '.', .name mem]
  | sample {c : Call} {sampler : String} {o : Occurrence} (hc : Samples r c sampler)
    (ho : c.name = o) : Replaced r o [.name "texture", .char '(', .name sampler]
  | name {front behind : List Char} {ident : String} (hpoint : front.getLast? ≠ some '.')
    (hmember : r.members.lookup ident = none)
    (hsample : ∀ (c : Call) (sampler : String), Samples r c sampler →
      c.name ≠ ⟨front, .name ident, behind⟩) :
    Replaced r ⟨front, .name ident, behind⟩ [.name ident]
  | reshaped {c : Call} {sampler : String} {o : Occurrence} {piece : List Lexeme}
    (hc : Samples r c sampler) (ho : c.Reshapes o piece) : Replaced r o piece
  | copied {front behind : List Char} {x : Char}
    (h : ∀ (c : Call) (sampler : String) (piece : List Lexeme), Samples r c sampler →
      ¬ c.Reshapes ⟨front, .char x, behind⟩ piece) :
    Replaced r ⟨front, .char x, behind⟩ [.char x]

/-! ## A lexeme in the arguments of a call -/

namespace Samples

variable {r : Rewriting} {c c' : Call} {sampler sampler' : String}

theorem getLast?_opening (c : Call) : c.opening.getLast? = some '(' := by
  simp [Call.opening, List.getLast?_append]

theorem length_front_lt (h : Samples r c sampler) : c.front.length < c.opening.length := by
  have := List.length_pos_iff.mpr h.identifier.ne_nil
  simp only [Call.opening, List.length_append, List.length_singleton]
  omega

theorem within_opening_iff {behind : List Char} :
    Samples r (c'.within c.opening behind) sampler ↔ Samples r c' sampler :=
  within_iff (by rw [getLast?_opening]; decide) (by rw [getLast?_opening]; decide) behind

/-- A sampling call that starts in the arguments of another one stands in them. -/
theorem within_of_front (h : Samples r c sampler) (h' : Samples r c' sampler')
    {front : List Char} (hfront : c'.front = c.opening ++ front)
    (hlength : front.length ≤ c.arguments.length) (htext : c'.text = c.text) :
    ∃ d : Call, Samples r d sampler' ∧ d.text = c.arguments ∧
      c' = d.within c.opening (')' :: c.behind) := by
  have hlt : c.front.length < c'.front.length := by
    rw [hfront, List.length_append]
    exact Nat.lt_of_lt_of_le h.length_front_lt (Nat.le_add_right _ _)
  rcases within_or_behind h h' hlt htext.symm with ⟨d, hd, hwithin⟩ | ⟨y, hy⟩
  · exact ⟨d, within_opening_iff.mp (hwithin ▸ h'), hd, hwithin⟩
  · rw [hfront, Call.written, List.append_assoc] at hy
    have := congrArg List.length (List.append_cancel_left hy)
    simp only [List.length_append, List.length_singleton] at this
    omega

/-- No sampling call of a body reshapes what stands in the arguments of another one, other than
those in these arguments, if it does not start before that one. -/
theorem reshapes_within (h : Samples r c sampler) (h' : Samples r c' sampler')
    (hclear : Clear r c.front (c.ident.toList ++ c.tail)) {o : Occurrence} {piece : List Lexeme}
    (ho : o.text = c.arguments)
    (hreshapes : c'.Reshapes (o.within c.opening (')' :: c.behind)) piece) :
    (c' = c ∧ ∃ x, o.lexeme = .char x ∧ isBlank x = true ∧
      (o.front.all isBlank ∨ o.behind.all isBlank)) ∨
    ∃ d : Call, Samples r d sampler' ∧ d.Reshapes o piece := by
  have hin : (o.within c.opening (')' :: c.behind)).text = c.text := by
    rw [c.text_eq_opening, ← ho, Occurrence.text_within]
  have htext : c'.text = c.text := hreshapes.text_eq.symm.trans hin
  have hlength : o.front.length ≤ c.arguments.length := by
    rw [← ho, Occurrence.text, List.length_append]
    exact Nat.le_add_right _ _
  obtain ⟨⟨a, ha⟩, b, hb⟩ := hreshapes.inside
  rcases Nat.lt_trichotomy c'.front.length c.front.length with hlt | heq | hgt
  · -- It ends before this one starts.
    exfalso
    obtain ⟨y, hy⟩ := hclear c' sampler' h' htext hlt
    have hbehind := congrArg List.length htext
    rw [c'.text_eq_written, c.text_eq_opening] at hbehind
    have hfront := congrArg List.length hy
    have hb := congrArg List.length hb
    have hopening := h.length_front_lt
    have ho := congrArg List.length ho
    simp only [Occurrence.within, Occurrence.text, List.length_append, List.length_cons] at *
    omega
  · left
    have hfront : c'.front = c.front :=
      (List.append_inj htext heq).1
    obtain rfl : c' = c := eq_of_front h' h hfront htext
    refine ⟨rfl, ?_⟩
    obtain ⟨-, x, behind, hx, hblank, hbehind, hend⟩ := hreshapes.blank_of_opening rfl
    obtain rfl : o.behind = behind := List.append_cancel_right hbehind
    exact ⟨x, hx, hblank, hend⟩
  · right
    have hopening : ∃ f, c'.front = c.opening ++ f ∧ f.length ≤ c.arguments.length := by
      obtain ⟨f, hf, -⟩ := front_eq_opening h h' hgt htext.symm
      refine ⟨f, hf, ?_⟩
      have ha := congrArg List.length ha
      have hf := congrArg List.length hf
      simp only [Occurrence.within, List.length_append] at ha hf
      omega
    obtain ⟨f, hf, hlength⟩ := hopening
    obtain ⟨d, hd, -, rfl⟩ := within_of_front h h' hf hlength htext
    exact ⟨d, hd, Call.Reshapes.within_iff.mp hreshapes⟩

theorem sampler_unique (h : Samples r c sampler) (h' : Samples r c sampler') :
    sampler = sampler' := by
  obtain ⟨t, ht, hlookup⟩ := h.texture
  obtain ⟨t', ht', hlookup'⟩ := h'.texture
  obtain rfl : t = t' := by
    have hlist := congrArg String.toList (ht.symm.trans ht')
    rw [String.toList_append, String.toList_append] at hlist
    exact String.toList_inj.mp (List.append_cancel_right hlist)
  exact Option.some.inj (hlookup.symm.trans hlookup')

/-- Two calls that stand in one another do not reshape the same character. -/
theorem not_reshapes_both (h : Samples r c sampler) (h' : Samples r c' sampler')
    (hlt : c.front.length < c'.front.length) {o : Occurrence} {piece piece' : List Lexeme}
    (ho : c.Reshapes o piece) (ho' : c'.Reshapes o piece') : False := by
  have htext : c.text = c'.text := ho.text_eq.symm.trans ho'.text_eq
  obtain ⟨⟨a, ha⟩, b, hb⟩ := ho'.inside
  rcases within_or_behind h h' hlt htext with ⟨d, -, rfl⟩ | ⟨y, hy⟩
  · -- In the arguments of the first call the identifier and the parenthesis of the second one stand
    -- around the character.
    have hfront : o.front = c.opening ++ (d.front ++ (d.ident.toList ++ a)) := by
      rw [ha, Call.within, List.append_assoc]
    obtain ⟨-, x, behind, -, -, hbehind, hend⟩ := ho.blank_of_opening hfront
    have hbehind' : behind = b ++ ')' :: d.behind := by
      refine List.append_cancel_right (hbehind.symm.trans (hb.trans ?_))
      simp [Call.within]
    have hword {x : Char} (hx : x ∈ d.ident.toList) : isBlank x = false :=
      isBlank_eq_false_of_isNameChar (h'.identifier.isNameChar hx)
    obtain ⟨k, ks, hk, -⟩ := h'.name_head
    have hmem : k ∈ d.ident.toList := (show d.ident.toList = k :: ks from hk) ▸ List.mem_cons_self
    rcases hend with hend | hend
    · have hblank := List.all_eq_true.mp hend k (by simp [hmem])
      rw [hword hmem] at hblank
      contradiction
    · rw [hbehind'] at hend
      exact absurd (List.all_eq_true.mp hend ')' (by simp)) (by decide)
  · obtain ⟨-, b', hb'⟩ := ho.inside
    have hwhole := congrArg List.length (ho.text_eq.trans c.text_eq_written)
    have ha := congrArg List.length ha
    have hb' := congrArg List.length hb'
    have hy := congrArg List.length hy
    simp only [Occurrence.text, List.length_append, List.length_cons] at *
    omega

end Samples

/-- What the arguments of a sampling call have for a lexeme when they are read alone is what the
body has for it, unless it is a blank at an end of the arguments. -/
theorem Replaced.within {r : Rewriting} {c : Call} {sampler : String} {o : Occurrence}
    {piece : List Lexeme} (hc : Samples r c sampler)
    (hclear : Clear r c.front (c.ident.toList ++ c.tail)) (h : Replaced r o piece)
    (ho : o.text = c.arguments)
    (hkeep : ∀ x, o.lexeme = .char x → isBlank x = true →
      ¬ (o.front.all isBlank ∨ o.behind.all isBlank)) :
    Replaced r (o.within c.opening (')' :: c.behind)) piece := by
  have hpoint (front : List Char) :
      (c.opening ++ front).getLast? = some '.' ↔ front.getLast? = some '.' := by
    rw [List.getLast?_append, Samples.getLast?_opening]
    cases front.getLast? with
    | none => simp
    | some x => simp
  cases h with
  | selector hfront => exact .selector ((hpoint _).mpr hfront)
  | member hfront hmember hinst hmem => exact .member (mt (hpoint _).mp hfront) hmember hinst hmem
  | @sample d sampler' o hd hname =>
    rw [← hname, ← Call.name_within]
    exact .sample (Samples.within_opening_iff.mpr hd) rfl
  | @name front behind ident hfront hmember hsample =>
    refine .name (mt (hpoint _).mp hfront) hmember fun c' sampler' hc' hname => ?_
    obtain ⟨hfront', hident, htail⟩ := Occurrence.mk.inj hname
    have htext : c'.text = c.text := by
      rw [c.text_eq_opening, ← ho, Call.text, hfront', htail, Lexeme.name.inj hident]
      simp [Occurrence.text]
    have hlength : front.length ≤ c.arguments.length := by
      rw [← ho, Occurrence.text, List.length_append]
      exact Nat.le_add_right _ _
    obtain ⟨d, hd, -, rfl⟩ := Samples.within_of_front hc hc' hfront' hlength htext
    exact hsample d sampler' hd (Occurrence.within_inj (d.name_within _ _ ▸ hname))
  | reshaped hd ho' =>
    exact .reshaped (Samples.within_opening_iff.mpr hd) (Call.Reshapes.within_iff.mpr ho')
  | copied hcopied =>
    refine .copied fun c' sampler' piece hc' hreshapes => ?_
    rcases Samples.reshapes_within hc hc' hclear ho hreshapes with ⟨-, x, hx, hblank, hend⟩ | hinner
    · exact hkeep x hx hblank hend
    · obtain ⟨d, hd, hreshapes⟩ := hinner
      exact hcopied d sampler' piece hd hreshapes

/-! ## One piece for a lexeme -/

/-- Only the first point of a selection ends its first identifier. -/
theorem selection_inj {inst mem inst' mem' : String} (hinst : IsIdentifier inst.toList)
    (hinst' : IsIdentifier inst'.toList) (h : inst ++ "." ++ mem = inst' ++ "." ++ mem') :
    inst = inst' ∧ mem = mem' := by
  have hlist : inst.toList ++ '.' :: mem.toList = inst'.toList ++ '.' :: mem'.toList := by
    have hlist := congrArg String.toList h
    simpa [String.toList_append] using hlist
  have hcut := @takeWhile_append_of_head? _ _ ('.' :: mem.toList) (fun _ => hinst.isNameChar) rfl
  have hcut' :=
    @takeWhile_append_of_head? _ _ ('.' :: mem'.toList) (fun _ => hinst'.isNameChar) rfl
  rw [← hlist] at hcut'
  refine ⟨String.toList_inj.mp (hcut.1.symm.trans hcut'.1), String.toList_inj.mp ?_⟩
  exact (List.cons.inj (hcut.2.symm.trans hcut'.2)).2

/-- A lexeme of a body is replaced in one way. -/
theorem Replaced.unique {r : Rewriting} {o : Occurrence} {piece piece' : List Lexeme}
    (h : Replaced r o piece) (h' : Replaced r o piece') : piece = piece' := by
  cases h with
  | selector hpoint =>
    cases h' with
    | selector => rfl
    | member hpoint' => exact absurd hpoint hpoint'
    | sample hc ho =>
      obtain ⟨rfl, -, -⟩ := Occurrence.mk.inj ho
      exact absurd hpoint hc.free
    | name => rfl
    | reshaped _ ho => cases ho
  | member hpoint hmember hinst hmem =>
    cases h' with
    | selector hpoint' => exact absurd hpoint' hpoint
    | member _ hmember' hinst' =>
      obtain ⟨rfl, rfl⟩ :=
        selection_inj hinst hinst' (Option.some.inj (hmember.symm.trans hmember'))
      rfl
    | sample hc ho =>
      obtain ⟨-, hident, -⟩ := Occurrence.mk.inj ho
      rw [← Lexeme.name.inj hident, hc.noMember] at hmember
      contradiction
    | name _ hmember' =>
      rw [hmember'] at hmember
      contradiction
    | reshaped _ ho => cases ho
  | @sample c sampler o hc ho =>
    subst ho
    cases h' with
    | selector hpoint => exact absurd hpoint hc.free
    | member _ hmember =>
      rw [hc.noMember] at hmember
      contradiction
    | @sample c' sampler' _ hc' ho' =>
      obtain ⟨hfront, hident, htail⟩ := Occurrence.mk.inj ho'
      have htext : c.text = c'.text := by
        rw [Call.text, Call.text, hfront, Lexeme.name.inj hident, htail]
      obtain rfl := Samples.eq_of_front hc hc' hfront.symm htext
      rw [Samples.sampler_unique hc hc']
    | name _ _ hsample => exact absurd rfl (hsample c sampler hc)
    | reshaped _ ho => cases ho
  | name hpoint hmember hsample =>
    cases h' with
    | selector => rfl
    | member _ hmember' =>
      rw [hmember'] at hmember
      contradiction
    | sample hc ho => exact absurd ho (hsample _ _ hc)
    | name => rfl
    | reshaped _ ho => cases ho
  | @reshaped c sampler o piece hc ho =>
    cases h' with
    | selector => cases ho
    | member => cases ho
    | sample _ ho' =>
      subst ho'
      cases ho
    | name => cases ho
    | @reshaped c' sampler' _ _ hc' ho' =>
      rcases Nat.lt_trichotomy c.front.length c'.front.length with hlt | heq | hgt
      · exact (Samples.not_reshapes_both hc hc' hlt ho ho').elim
      · have htext : c.text = c'.text := ho.text_eq.symm.trans ho'.text_eq
        obtain rfl : c = c' := Samples.eq_of_front hc hc' (List.append_inj htext heq).1 htext
        exact ho.unique ho'
      · exact (Samples.not_reshapes_both hc' hc hgt ho' ho).elim
    | copied h => exact absurd ho (h c sampler _ hc)
  | copied h =>
    cases h' with
    | sample _ ho => cases ho
    | reshaped hc ho => exact absurd ho (h _ _ _ hc)
    | copied => rfl

end AnnotatedShader.Glsl
