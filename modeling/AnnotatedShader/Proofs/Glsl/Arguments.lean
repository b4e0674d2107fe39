import AnnotatedShader.Proofs.Glsl.Substitution

set_option autoImplicit false

/-!
# The arguments of a sampling call

The arguments of a call are rewritten as a text of their own and trimmed.  Trimming takes away what
stands for the blanks at their ends and nothing else, so the rest is what the body has for the
lexemes of the arguments.

A text is cut into blanks in front, a solid middle and blanks behind (`occurrences_between`).  A
blank lexeme has a blank piece or, at the end of a trimmed text, no piece (`Replaced.of_blank`), and
a solid text has a solid one, since neither a member nor a sampling function is written with blanks
at its ends (`Replaced.solid`).  So trimming the rewritten arguments is the same as rewriting their
middle, lexeme for lexeme (`Samples.replaced_arguments`), which is what the rewriting of a whole
body needs of a call.

`Rewriting.Selects` is the condition on names that this takes: the texts that are put in are read
back as they are written.
-/

namespace AnnotatedShader.Glsl

open AnnotatedShader.Text

/-- Whether members are replaced by selections and textures by identifiers. -/
structure Rewriting.Selects (r : Rewriting) : Prop where
  members : ∀ {ident replacement : String}, r.members.lookup ident = some replacement →
    ∃ inst mem : String, replacement = inst ++ "." ++ mem ∧ IsIdentifier inst.toList ∧
      IsIdentifier mem.toList
  textures : ∀ {t sampler : String}, r.textures.lookup t = some sampler →
    IsIdentifier sampler.toList

/-! ## Pieces of blanks -/

/-- A blank is dropped or copied. -/
theorem Replaced.of_blank {r : Rewriting} {o : Occurrence} {piece : List Lexeme}
    (h : Replaced r o piece) {x : Char} (ho : o.lexeme = .char x) (hx : isBlank x = true) :
    ∃ cs : List Char, piece = cs.map Lexeme.char ∧ cs.all isBlank = true := by
  cases h with
  | selector => exact absurd ho Lexeme.noConfusion
  | member => exact absurd ho Lexeme.noConfusion
  | sample _ hname =>
    subst hname
    exact absurd ho Lexeme.noConfusion
  | name => exact absurd ho Lexeme.noConfusion
  | reshaped _ hreshapes =>
    cases hreshapes with
    | separator =>
      rw [← Lexeme.char.inj ho] at hx
      exact absurd hx (by decide)
    | _ => exact ⟨[], rfl, rfl⟩
  | copied =>
    obtain rfl := Lexeme.char.inj ho
    exact ⟨[_], rfl, by simpa using hx⟩

theorem Replaced.of_blanks {r : Rewriting} {os : List Occurrence} {pieces : List (List Lexeme)}
    (h : List.Forall₂ (Replaced r) os pieces)
    (hos : ∀ o ∈ os, ∃ x, o.lexeme = .char x ∧ isBlank x = true) :
    ∃ cs : List Char, pieces.flatten = cs.map Lexeme.char ∧ cs.all isBlank = true := by
  induction h with
  | nil => exact ⟨[], rfl, rfl⟩
  | @cons o piece os pieces hpiece _ ih =>
    obtain ⟨x, hx, hblank⟩ := hos o List.mem_cons_self
    obtain ⟨cs, rfl, hcs⟩ := hpiece.of_blank hx hblank
    obtain ⟨ds, hds, hds'⟩ := ih fun o ho => hos o (List.mem_cons_of_mem _ ho)
    exact ⟨cs ++ ds, by rw [List.flatten_cons, hds, List.map_append], by simp [hcs, hds']⟩

theorem spell_map_char (cs : List Char) : spell (cs.map Lexeme.char) = cs := by
  induction cs with
  | nil => rfl
  | cons c cs ih => rw [List.map_cons, spell_cons, ih, Lexeme.text_char, List.singleton_append]

theorem not_isNameChar_of_blanks {text : List Char} (h : text.all isBlank = true) :
    text.getLast?.any isNameChar = false := by
  cases hlast : text.getLast? with
  | none => rfl
  | some x =>
    refine Bool.eq_false_iff.mpr fun hname => ?_
    have hblank := isBlank_eq_false_of_isNameChar hname
    rw [List.all_eq_true.mp h x (List.mem_of_getLast? hlast)] at hblank
    contradiction

/-- The lexemes of blanks are blanks. -/
theorem lexeme_of_blanks {front text : List Char} (htext : text.all isBlank = true) {o : Occurrence}
    (ho : o ∈ occurrences front text) : ∃ x, o.lexeme = .char x ∧ isBlank x = true := by
  obtain ⟨⟨a, -, hsplit⟩, hname⟩ := mem_occurrences ho
  have hblank : ∀ x ∈ o.lexeme.text, isBlank x = true := fun x hx =>
    List.all_eq_true.mp htext x (by simp [hsplit, hx])
  cases hlexeme : o.lexeme with
  | name ident =>
    have hident := hname ident hlexeme
    rw [hlexeme] at hblank
    have hmem := List.head_mem hident.ne_nil
    have hfirst := hblank _ hmem
    rw [isBlank_eq_false_of_isNameChar (hident.isNameChar hmem)] at hfirst
    contradiction
  | char x =>
    rw [hlexeme] at hblank
    exact ⟨x, rfl, hblank x (by simp)⟩

/-! ## Pieces of solid texts -/

theorem IsIdentifier.solid {ident : List Char} (h : IsIdentifier ident) : Solid ident :=
  .of_forall h.ne_nil fun _ hx => isBlank_eq_false_of_isNameChar (h.isNameChar hx)

/-- What stands for a solid lexeme is solid, if nothing but blanks stands on one side of it. -/
theorem Replaced.solid {r : Rewriting} (hr : r.Selects) {o : Occurrence} {piece : List Lexeme}
    (h : Replaced r o piece) (ho : Solid o.lexeme.text)
    (hend : o.front.all isBlank = true ∨ o.behind.all isBlank = true) : Solid (spell piece) := by
  cases h with
  | selector => simpa using ho
  | @member front behind ident inst mem _ _ hinst hmem =>
    simpa using hinst.solid.append hmem.solid ['.']
  | sample hc =>
    obtain ⟨t, -, hlookup⟩ := hc.texture
    have htexture : IsIdentifier "texture".toList := .of_all rfl rfl
    simpa using htexture.solid.append (hr.textures hlookup).solid ['(']
  | name => simpa using ho
  | reshaped hc hreshapes =>
    exfalso
    obtain ⟨⟨a, hfront⟩, b, hbehind⟩ := hreshapes.inside
    obtain ⟨k, ks, hk, hstart⟩ := hc.name_head
    rcases hend with hend | hend
    · have hblank := List.all_eq_true.mp hend k (by simp [hfront, hk])
      rw [isBlank_eq_false_of_isNameChar (isNameChar_of_isNameStart hstart)] at hblank
      contradiction
    · rw [hbehind] at hend
      exact absurd (List.all_eq_true.mp hend ')' (by simp)) (by decide)
  | copied => simpa using ho

/-- What stands for a solid part of a text is solid, if nothing but blanks stands around the
part. -/
theorem Replaced.solid_of_forall₂ {r : Rewriting} (hr : r.Selects) {front text behind : List Char}
    {pieces : List (List Lexeme)}
    (h : List.Forall₂ (Replaced r)
      ((occurrences front text).map (Occurrence.within [] behind)) pieces)
    (htext : Solid text) (hfront : front.all isBlank = true) (hbehind : behind.all isBlank = true) :
    Solid (spell pieces.flatten) := by
  have hsolid {o : Occurrence} (ho : o ∈ occurrences front text) {x : Char}
      (hx : o.lexeme.text.head? = some x ∨ o.lexeme.text.getLast? = some x)
      (hblank : isBlank x = false) : Solid o.lexeme.text := by
    obtain ⟨-, hname⟩ := mem_occurrences ho
    cases hlexeme : o.lexeme with
    | name ident => exact (hname ident hlexeme).solid
    | char y =>
      obtain rfl : y = x := by simpa [hlexeme] using hx
      exact .singleton hblank
  constructor
  · obtain ⟨x, hx, hblank⟩ := htext.first
    obtain ⟨o, os, hos, ho, hhead⟩ := occurrences_first front htext.ne_nil
    rw [hos, List.map_cons] at h
    cases h with
    | @cons _ piece _ pieces hpiece hpieces =>
      have hmem : o ∈ occurrences front text := hos ▸ List.mem_cons_self
      have hlexeme := hsolid hmem (.inl (hhead.trans hx)) hblank
      obtain ⟨y, hy, hblank⟩ := (hpiece.solid hr hlexeme (.inl (by simpa [Occurrence.within, ho]
        using hfront))).first
      refine ⟨y, ?_, hblank⟩
      rw [List.flatten_cons, spell_append, List.head?_append, hy, Option.some_or]
  · obtain ⟨x, hx, hblank⟩ := htext.last
    obtain ⟨os, o, hos, ho, hlast⟩ := occurrences_last front htext.ne_nil
    rw [hos, List.map_append, List.map_singleton] at h
    obtain ⟨pieces, last, rfl, -, hlastPiece⟩ := exists_append_of_forall₂ h
    cases hlastPiece with
    | @cons _ piece _ _ hpiece hnil =>
      cases hnil
      have hmem : o ∈ occurrences front text := hos ▸ List.mem_append_right os List.mem_cons_self
      have hlexeme := hsolid hmem (.inr (hlast.trans hx)) hblank
      obtain ⟨y, hy, hblank⟩ := (hpiece.solid hr hlexeme (.inr (by simpa [Occurrence.within, ho]
        using hbehind))).last
      refine ⟨y, ?_, hblank⟩
      rw [List.flatten_append, spell_append, List.getLast?_append]
      simp [hy]

/-! ## A solid text between blanks -/

section Between

variable {front middle behind : List Char}

theorem occurrences_between (hfront : front.all isBlank = true)
    (hbehind : behind.all isBlank = true) :
    occurrences [] (front ++ (middle ++ behind)) =
      (occurrences [] front).map (Occurrence.within [] (middle ++ behind)) ++
        ((occurrences front middle).map (Occurrence.within [] behind) ++
          occurrences (front ++ middle) behind) := by
  have hreverse : behind.reverse.all isBlank = true := by rwa [List.all_reverse]
  have hsevered : Severed middle behind :=
    .inr (List.getLast?_reverse ▸ not_isNameChar_of_blanks hreverse)
  rw [occurrences_append (.inl (not_isNameChar_of_blanks hfront)), List.nil_append,
    occurrences_append hsevered]

theorem blank_of_mem_front (hfront : front.all isBlank = true) (rest : List Char) {o : Occurrence}
    (ho : o ∈ (occurrences [] front).map (Occurrence.within [] rest)) :
    (∃ x, o.lexeme = .char x ∧ isBlank x = true) ∧ o.front.all isBlank = true := by
  obtain ⟨o', ho', rfl⟩ := List.mem_map.mp ho
  obtain ⟨⟨a, ha, hsplit⟩, -⟩ := mem_occurrences ho'
  have hlexeme := lexeme_of_blanks hfront ho'
  refine ⟨hlexeme, ?_⟩
  rw [hsplit, List.all_append, Bool.and_eq_true] at hfront
  simpa [Occurrence.within, ha] using hfront.1

theorem blank_of_mem_behind (hbehind : behind.all isBlank = true) {rest : List Char}
    {o : Occurrence}
    (ho : o ∈ occurrences rest behind) :
    (∃ x, o.lexeme = .char x ∧ isBlank x = true) ∧ o.behind.all isBlank = true := by
  obtain ⟨⟨a, -, hsplit⟩, -⟩ := mem_occurrences ho
  refine ⟨lexeme_of_blanks hbehind ho, ?_⟩
  rw [hsplit, List.all_append, List.all_append] at hbehind
  simp only [Bool.and_eq_true] at hbehind
  exact hbehind.2.2

/-- In a solid text no blank stands at an end. -/
theorem not_blank_of_mem_middle (hmiddle : Solid middle) {o : Occurrence}
    (ho : o ∈ (occurrences front middle).map (Occurrence.within [] behind)) {x : Char}
    (hx : o.lexeme = .char x) (hblank : isBlank x = true) :
    ¬ (o.front.all isBlank = true ∨ o.behind.all isBlank = true) := by
  obtain ⟨o', ho', rfl⟩ := List.mem_map.mp ho
  obtain ⟨⟨a, ha, hsplit⟩, -⟩ := mem_occurrences ho'
  rw [show o'.lexeme = .char x from hx, Lexeme.text_char, List.singleton_append] at hsplit
  have hne : ∀ {y : Char}, isBlank y = false → y ≠ x := by
    rintro y hy rfl
    rw [hblank] at hy
    contradiction
  have hnotAll : ∀ {y : Char} {text : List Char}, isBlank y = false → y ∈ text →
      text.all isBlank ≠ true := by
    intro y text hy hmem hall
    rw [List.all_eq_true.mp hall y hmem] at hy
    contradiction
  rintro (hend | hend)
  · obtain ⟨y, hy, hsolid⟩ := hmiddle.first
    rw [hsplit] at hy
    cases a with
    | nil => exact hne hsolid (Option.some.inj hy).symm
    | cons z a =>
      obtain rfl : z = y := Option.some.inj hy
      refine hnotAll hsolid (List.mem_cons_self (l := a)) ?_
      simp only [Occurrence.within, List.nil_append, ha, List.all_append, Bool.and_eq_true] at hend
      exact hend.2
  · obtain ⟨y, hy, hsolid⟩ := hmiddle.last
    rw [hsplit, List.getLast?_append, List.getLast?_cons, Option.some_or] at hy
    cases hbehind : o'.behind.getLast? with
    | none =>
      rw [hbehind] at hy
      exact hne hsolid (Option.some.inj hy).symm
    | some z =>
      rw [hbehind] at hy
      obtain rfl : z = y := Option.some.inj hy
      refine hnotAll hsolid (List.mem_of_getLast? hbehind) ?_
      simp only [Occurrence.within, List.all_append, Bool.and_eq_true] at hend
      exact hend.1

end Between

/-! ## The arguments in the body -/

theorem flatten_map_nil {α β : Type} (as : List α) :
    (as.map fun _ => ([] : List β)).flatten = [] := by
  simp

section Arguments

variable {r : Rewriting} {c : Call} {sampler : String}

/-- A blank at an end of the arguments is dropped. -/
theorem Samples.replaced_blank (hc : Samples r c sampler) {o : Occurrence} {x : Char}
    (htext : o.text = c.arguments) (ho : o.lexeme = .char x) (hx : isBlank x = true)
    (hend : o.front.all isBlank = true ∨ o.behind.all isBlank = true) :
    Replaced r (o.within c.opening (')' :: c.behind)) [] := by
  obtain ⟨front, lexeme, behind⟩ := o
  obtain rfl : lexeme = .char x := ho
  exact .reshaped hc (.blank htext.symm rfl rfl hx hend)

theorem Samples.replaced_blanks (hc : Samples r c sampler) {os : List Occurrence}
    (hos : ∀ o ∈ os, o.text = c.arguments ∧ (∃ x, o.lexeme = .char x ∧ isBlank x = true) ∧
      (o.front.all isBlank = true ∨ o.behind.all isBlank = true)) :
    List.Forall₂ (Replaced r) (os.map (Occurrence.within c.opening (')' :: c.behind)))
      (os.map fun _ => []) := by
  rw [List.forall₂_map_left_iff, List.forall₂_map_right_iff, List.forall₂_same]
  intro o ho
  obtain ⟨htext, ⟨x, hx, hblank⟩, hend⟩ := hos o ho
  exact hc.replaced_blank htext hx hblank hend

theorem Samples.replaced_middle (hc : Samples r c sampler)
    (hclear : Clear r c.front (c.ident.toList ++ c.tail)) {os : List Occurrence}
    {pieces : List (List Lexeme)} (hpieces : List.Forall₂ (Replaced r) os pieces)
    (hos : ∀ o ∈ os, o.text = c.arguments ∧ ∀ x, o.lexeme = .char x → isBlank x = true →
      ¬ (o.front.all isBlank = true ∨ o.behind.all isBlank = true)) :
    List.Forall₂ (Replaced r) (os.map (Occurrence.within c.opening (')' :: c.behind))) pieces := by
  rw [List.forall₂_map_left_iff]
  refine (forall₂_imp_of_mem hpieces.flip fun piece o ho hpiece => ?_).flip
  exact hpiece.within hc hclear (hos o ho).1 (hos o ho).2

/-- What the body has for the arguments of a sampling call is what they have when they are read
alone, trimmed. -/
theorem Samples.replaced_arguments (hr : r.Selects) (hc : Samples r c sampler)
    (hclear : Clear r c.front (c.ident.toList ++ c.tail)) {pieces : List (List Lexeme)}
    (hpieces : List.Forall₂ (Replaced r) (occurrences [] c.arguments) pieces)
    (hlexed : Lexed none pieces.flatten) :
    ∃ kept, List.Forall₂ (Replaced r)
        ((occurrences [] c.arguments).map (Occurrence.within c.opening (')' :: c.behind))) kept ∧
      spell kept.flatten = trim (spell pieces.flatten) ∧ Lexed none kept.flatten ∧
      (c.arguments.all isBlank = true → kept.flatten = []) ∧
      (c.arguments.all isBlank = false → Solid (spell kept.flatten)) := by
  have htext {o : Occurrence} (ho : o ∈ occurrences [] c.arguments) : o.text = c.arguments :=
    text_of_mem_occurrences ho
  cases hblank : c.arguments.all isBlank with
  | true =>
    have hblanks {o : Occurrence} (ho : o ∈ occurrences [] c.arguments) :=
      blank_of_mem_behind hblank ho
    obtain ⟨cs, hcs, hcs'⟩ := Replaced.of_blanks hpieces fun o ho => (hblanks ho).1
    refine ⟨(occurrences [] c.arguments).map fun _ => [], hc.replaced_blanks fun o ho =>
      ⟨htext ho, (hblanks ho).1, .inr (hblanks ho).2⟩, ?_⟩
    rw [hcs, spell_map_char, trim_eq_nil hcs', flatten_map_nil]
    exact ⟨rfl, .nil none, fun _ => rfl, fun h => absurd h (by simp)⟩
  | false =>
    obtain ⟨front, middle, behind, hsplit, hfront, hmiddle, hbehind⟩ := exists_solid hblank
    have hocc := @occurrences_between _ middle _ hfront hbehind
    rw [← hsplit] at hocc
    rw [hocc] at hpieces htext
    rw [hocc]
    obtain ⟨lead, rest, rfl, hlead, hrest⟩ := exists_append_of_forall₂ hpieces
    obtain ⟨kept, trail, rfl, hkept, htrail⟩ := exists_append_of_forall₂ hrest
    have hfronts {o : Occurrence} := @blank_of_mem_front _ hfront (middle ++ behind) o
    have hbehinds {o : Occurrence} := @blank_of_mem_behind _ hbehind (front ++ middle) o
    obtain ⟨cs, hcs, hcs'⟩ := Replaced.of_blanks hlead fun o ho => (hfronts ho).1
    obtain ⟨ds, hds, hds'⟩ := Replaced.of_blanks htrail fun o ho => (hbehinds ho).1
    have hsolid := Replaced.solid_of_forall₂ hr hkept hmiddle hfront hbehind
    rw [List.flatten_append, List.flatten_append, hcs, hds] at hlexed ⊢
    refine ⟨((occurrences [] front).map (Occurrence.within [] (middle ++ behind))).map (fun _ => []) ++
      (kept ++ (occurrences (front ++ middle) behind).map fun _ => []), ?_, ?_⟩
    · rw [List.map_append, List.map_append]
      refine List.rel_append (hc.replaced_blanks fun o ho => ?_)
        (List.rel_append (hc.replaced_middle hclear hkept fun o ho => ?_)
          (hc.replaced_blanks fun o ho => ?_))
      · exact ⟨htext (List.mem_append_left _ ho), (hfronts ho).1, .inl (hfronts ho).2⟩
      · exact ⟨htext (List.mem_append_right _ (List.mem_append_left _ ho)),
          fun x => not_blank_of_mem_middle hmiddle ho⟩
      · exact ⟨htext (List.mem_append_right _ (List.mem_append_right _ ho)), (hbehinds ho).1,
          .inr (hbehinds ho).2⟩
    · rw [List.flatten_append, List.flatten_append, flatten_map_nil, flatten_map_nil,
        List.nil_append,
        List.append_nil, spell_append, spell_append, spell_map_char, spell_map_char,
        hsolid.trim_append hcs' hds']
      refine ⟨rfl, hlexed.right.left.congr ?_, fun h => absurd h (by simp), fun _ => hsolid⟩
      cases hlast : cs.getLast? with
      | none => rfl
      | some x =>
        exact isWordChar_eq_false_of_isBlank
          (List.all_eq_true.mp hcs' x (List.mem_of_getLast? hlast))

end Arguments

end AnnotatedShader.Glsl
