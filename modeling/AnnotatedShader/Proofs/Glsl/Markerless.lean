import AnnotatedShader.Proofs.Glsl.Reference
import AnnotatedShader.Proofs.Glsl.Unmarked

set_option autoImplicit false

/-!
# Generated texts without markers

No line of a generated text is a marker.  The declarations hold no mark at all.  A rewritten body
may join lines, since the arguments of sampling calls are trimmed, but where it differs from the
body it has a point or a parenthesis behind an identifier, so no line becomes a marker that was
none.

The argument for bodies is a relation between a text and one that refines it, kept by each step of
the rewriting (`refines_rewriteFrom`): a selection and a call of a texture function hold characters
that are alien to markers.  The line of the version is trimmed at its end and starts with its own
word, so it is no marker either, as long as the profile is a single word (`markerless_versionLine`).
`generate_markerless` has all lines of a text.
-/

namespace AnnotatedShader.Glsl

open AnnotatedShader.Text
open Source (Alien Marker Markerless Refines)

/-! ## Rewritten bodies -/

theorem alien_point : Alien '.' := ⟨by decide, by decide⟩

theorem alien_opening : Alien '(' := ⟨by decide, by decide⟩

theorem alien_closing : Alien ')' := ⟨by decide, by decide⟩

theorem IsIdentifier.isBlank {ident : List Char} (h : IsIdentifier ident) :
    ∀ x ∈ ident, isBlank x = false :=
  fun _ hx => isBlank_eq_false_of_isNameChar (h.isNameChar hx)

theorem IsIdentifier.isLineBreak {ident : List Char} (h : IsIdentifier ident) :
    ∀ x ∈ ident, isLineBreak x = false :=
  fun x hx => isLineBreak_eq_false_of_not_blank (h.isBlank x hx)

/-- A member can be selected wherever a text stands. -/
theorem refines_selection (text : List Char) {inst mem : String} (hinst : IsIdentifier inst.toList)
    (hmem : IsIdentifier mem.toList) : Refines text (inst ++ "." ++ mem).toList := by
  have hrefines := Refines.of_alien text hinst.isBlank alien_point hmem.isLineBreak
  simpa using hrefines

/-- A call of the sampling function can stand for a sampling call whose arguments are replaced. -/
theorem refines_textureCall {sampler : String} (hsampler : IsIdentifier sampler.toList)
    (ident gap : List Char) {arguments arguments' : List Char}
    (h : Refines arguments arguments') :
    Refines (ident ++ (gap ++ '(' :: (arguments ++ [')'])))
      (textureCall sampler (trim arguments')) := by
  have htexture : IsIdentifier "texture".toList := .of_all rfl rfl
  have hclosed : ∀ x ∈ [')'], isLineBreak x = false := List.forall_mem_singleton.mpr rfl
  rw [textureCall_eq]
  by_cases hblank : arguments'.all isBlank = true
  · rw [trim_eq_nil hblank]
    refine .of_alien _ htexture.isBlank alien_opening ?_
    exact List.forall_mem_append.mpr ⟨hsampler.isLineBreak, hclosed⟩
  · -- The blanks around the arguments go with the parentheses beside them.
    obtain ⟨front, solid, behind, rfl, hfront, hsolid, hbehind⟩ :=
      exists_solid (Bool.eq_false_iff.mpr hblank)
    rw [hsolid.trim_append hfront hbehind]
    have hseparator : ∀ x ∈ [',', ' '], isLineBreak x = false :=
      List.forall_mem_cons.mpr ⟨rfl, List.forall_mem_singleton.mpr rfl⟩
    have hopening : Refines (ident ++ (gap ++ ['(']) ++ front)
        ("texture".toList ++ '(' :: (sampler.toList ++ [',', ' '])) :=
      .of_alien _ htexture.isBlank alien_opening
        (List.forall_mem_append.mpr ⟨hsampler.isLineBreak, hseparator⟩)
    have hclosing : Refines (behind ++ [')']) ([] ++ ')' :: []) :=
      .of_alien _ (by simp) alien_closing (by simp)
    have harguments := ((Refines.refl (ident ++ (gap ++ ['(']))).append h).append (.refl [')'])
    have hcall := (hopening.append (.refl solid)).append hclosing
    have hne : solid.isEmpty = false := by simpa using hsolid.ne_nil
    simp only [List.append_assoc, List.cons_append, List.nil_append] at harguments hcall
    simpa [hne] using harguments.trans hcall

section Rewriting

variable {r : Rewriting} (hr : r.Selects)

include hr

/-- An identifier with all that is behind it, when the texts behind it are rewritten with less
fuel. -/
theorem refines_rewriteFrom_name {fuel : Nat}
    (h : ∀ front text, Refines text (rewriteFrom r fuel (List.getLast? front) text))
    {front ident behind : List Char} (hident : IsIdentifier ident)
    (hfront : front.getLast?.any isWordChar = false)
    (hbehind : behind.head?.any isNameChar = false) :
    Refines (ident ++ behind) (rewriteFrom r (fuel + 1) front.getLast? (ident ++ behind)) := by
  have hkept := (Refines.refl ident).append (h ident behind)
  rw [rewriteFrom_name r fuel hident hfront hbehind]
  split
  · exact hkept
  · split
    · rename_i replacement hmember
      obtain ⟨inst, mem, rfl, hinst, hmem⟩ := hr.members hmember
      exact (refines_selection ident hinst hmem).append (h ident behind)
    · split
      · exact hkept
      · rename_i call hcall
        obtain ⟨hsampler, gap, _, _, rfl⟩ := sampleCall?_eq_some_iff.mp hcall
        obtain ⟨t, _, hlookup⟩ := sampledTexture?_eq_some_iff.mp hsampler
        have hcall := (refines_textureCall (hr.textures hlookup) ident gap
          (h [] call.arguments)).append (h [')'] call.behind)
        simpa using hcall

/-- A rewritten text can stand wherever the text can. -/
theorem refines_rewriteFrom (fuel : Nat) (front text : List Char) :
    Refines text (rewriteFrom r fuel front.getLast? text) := by
  induction fuel generalizing front text with
  | zero => exact .refl text
  | succ fuel ih =>
    induction front, text using reading_induction with
    | nil front =>
      rw [rewriteFrom_nil]
      exact .refl []
    | char front c rest hc =>
      rw [rewriteFrom_char r fuel hc]
      exact (ih [c] rest).cons c
    | name front ident behind hident hfront hbehind =>
      exact refines_rewriteFrom_name hr ih hident hfront hbehind

theorem refines_rewrite (text : List Char) : Refines text (rewrite r text) :=
  refines_rewriteFrom hr text.length [] text

end Rewriting

/-- Members are replaced by selections and textures by identifiers in the bodies beside a model
whose names are identifiers. -/
theorem rewritingOf_selects {m : Model} (hm : m.Spelled) : (rewritingOf m).Selects where
  members := by
    intro ident replacement h
    rw [lookup_members] at h
    obtain ⟨ref, href, rfl⟩ := Option.map_eq_some_iff.mp h
    have hmem : ref ∈ m.references := (List.mem_filter.mp (List.mem_of_getLast? href)).1
    obtain ⟨b, hb, hmem⟩ := List.mem_flatMap.mp hmem
    obtain ⟨member, hmember, rfl⟩ := List.mem_map.mp hmem
    obtain ⟨hname, hmembers⟩ := hm.buffers b (List.mem_filter.mp hb).1
    exact ⟨b.name, member.name, rfl, hname, (hmembers member hmember).1⟩
  textures := by
    intro t sampler h
    obtain ⟨before, after, hsplit, _⟩ := List.lookup_eq_some_iff.mp h
    have hmem : (t, sampler) ∈ m.textures.map fun t => (t.name, t.name) := by
      rw [show (m.textures.map fun t => (t.name, t.name)) = _ from hsplit]
      simp
    obtain ⟨texture, htexture, heq⟩ := List.mem_map.mp hmem
    rw [← (Prod.mk.inj heq).2]
    exact (hm.textures texture htexture).1

/-! ## The lines of a generated text -/

theorem trimEnd_append {front : List Char} (h : ∃ x, front.getLast? = some x ∧ isBlank x = false)
    (behind : List Char) : trimEnd (front ++ behind) = front ++ trimEnd behind := by
  obtain ⟨x, hx, hblank⟩ := h
  obtain ⟨init, rfl⟩ := List.getLast?_eq_some_iff.mp hx
  rw [trimEnd, trimEnd, List.reverse_append, List.dropWhile_append, List.reverse_concat,
    List.dropWhile_cons_of_neg (by simp [hblank])]
  split
  · rename_i hempty
    rw [List.isEmpty_iff.mp hempty]
    simp
  · simp

theorem unmarked_versionText {o : Options} {version : String} (h : versionText o = .ok version) :
    Unmarked version := by
  unfold versionText at h
  split at h
  · exact unmarked_writeInt h
  · obtain rfl := Except.ok.inj h
    decide

/-- The line that states the version is no marker, when the profile has no blanks. -/
theorem markerless_versionLine {o : Options} (hprofile : ∀ c ∈ o.profile.toList, isBlank c = false)
    {line : String} (h : versionLine o = .ok line) : Markerless line.toList := by
  obtain ⟨version, hversion, h⟩ := bind_eq_ok_iff.mp h
  obtain rfl := Except.ok.inj h
  have hstart : ("#version " ++ version ++ " " ++ o.profile).toList =
      ['#', 'v'] ++ ("ersion " ++ version ++ " " ++ o.profile).toList := by
    simp [String.toList_append]
  have hfront : Unmarked ("ersion " ++ version ++ " ") := by
    simp only [unmarked_append_iff]
    exact ⟨⟨by decide, unmarked_versionText hversion⟩, by decide⟩
  have hbreaks : ∀ c ∈ trimEnd ("ersion " ++ version ++ " " ++ o.profile).toList,
      isLineBreak c = false := by
    intro c hc
    rw [trimEnd, List.mem_reverse] at hc
    have hmem := List.mem_reverse.mp ((List.dropWhile_sublist _).subset hc)
    rw [String.toList_append] at hmem
    rcases List.mem_append.mp hmem with hmem | hmem
    · exact (hfront c hmem).2
    · exact isLineBreak_eq_false_of_not_blank (hprofile c hmem)
  rw [String.toList_ofList, hstart, trimEnd_append ⟨'v', rfl, rfl⟩]
  refine Source.markerless_line ?_ (Source.not_marker_of_start rfl (by decide) _)
  exact List.forall_mem_append.mpr ⟨List.forall_mem_cons.mpr
    ⟨rfl, List.forall_mem_singleton.mpr rfl⟩, hbreaks⟩

theorem markerless_heading {o : Options} (hprofile : ∀ c ∈ o.profile.toList, isBlank c = false)
    {a : Source.Annotated} {front : List String} (h : heading a o = .ok front) :
    ∀ line ∈ front, Markerless line.toList := by
  unfold heading at h
  split at h
  · obtain rfl := Except.ok.inj h
    simp
  · obtain ⟨line, hline, h⟩ := bind_eq_ok_iff.mp h
    obtain rfl := Except.ok.inj h
    exact List.forall_mem_singleton.mpr (markerless_versionLine hprofile hline)

/-- The lines of the body segments of a source are body lines of it. -/
theorem body_of_mem_segmentsFrom {chunk ls : List String} {index : Nat}
    {pairs : List (String × Source.LineRole)} (h : .body ls ∈ segmentsFrom chunk index pairs) :
    ∀ line ∈ ls, line ∈ chunk ∨ (line, .body) ∈ pairs := by
  have hchunk : ∀ chunk, .body ls ∈ bodySegment chunk → ls = chunk := by
    intro chunk hmem
    unfold bodySegment at hmem
    split at hmem
    · simp at hmem
    · exact Segment.body.inj (List.mem_singleton.mp hmem)
  induction pairs generalizing chunk index with
  | nil =>
    rw [hchunk chunk h]
    exact fun line hline => .inl hline
  | cons pair rest ih =>
    obtain ⟨line, role⟩ := pair
    intro other hother
    cases role with
    | opening =>
      rw [segmentsFrom, List.mem_append, List.mem_cons] at h
      rcases h with h | h | h
      · exact .inl (hchunk chunk h ▸ hother)
      · contradiction
      · refine .inr (List.mem_cons_of_mem _ ?_)
        simpa using ih h other hother
    | body =>
      rcases ih h other hother with hmem | hmem
      · rcases List.mem_append.mp hmem with hmem | hmem
        · exact .inl hmem
        · rw [List.mem_singleton.mp hmem]
          exact .inr List.mem_cons_self
      · exact .inr (List.mem_cons_of_mem _ hmem)
    | closing | annotated | directive value =>
      exact (ih h other hother).imp_right (List.mem_cons_of_mem _)

/-- The text that is generated for a source ends with a line feed, and there is no marker in
front. -/
theorem generate_markerless {file text : String} {a : Source.Annotated}
    (hread : (Source.read file text).outcome = .ok a) {m : Model} (hm : m.Emittable)
    (hspelled : m.Spelled) {o : Options} (hprofile : ∀ c ∈ o.profile.toList, isBlank c = false)
    {source : String} (h : generate a m o = .ok source) :
    ∃ front : String, source = front ++ "\n" ∧ Markerless front.toList := by
  obtain ⟨is, his, front, parts, hfront, hparts, htext⟩ := generate_written h
  refine ⟨_, htext, Source.markerless_joinLines (List.forall_mem_append.mpr
    ⟨?_, fun line hline => ?_⟩)⟩
  · exact markerless_heading hprofile hfront
  · obtain ⟨part, hpart, hline⟩ := List.mem_flatten.mp hline
    obtain ⟨segment, hsegment, hwritten⟩ := exists_left_of_forall₂ hparts hpart
    cases hwritten with
    | body ls =>
      obtain rfl := List.mem_singleton.mp hline
      rw [String.toList_ofList]
      refine (refines_rewrite (rewritingOf_selects hspelled) _).markerless
        (Source.markerless_joinLines fun line hline => ?_)
      refine Source.markerless_of_body hread ?_
      simpa using body_of_mem_segmentsFrom hsegment line hline
    | block index lines hlines =>
      obtain ⟨ls, hls, hline⟩ := List.mem_flatten.mp hline
      obtain ⟨d, hd, hwritten⟩ := exists_left_of_forall₂ hlines hls
      obtain ⟨item, hitem, hd⟩ := List.mem_flatMap.mp hd
      have hmade := items_madeOf hm his item (List.mem_filter.mp hitem).1 d hd
      exact (unmarked_lines (hmade.unmarked hspelled) hwritten line hline).markerless

end AnnotatedShader.Glsl
