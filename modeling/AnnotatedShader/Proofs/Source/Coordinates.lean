import AnnotatedShader.Proofs.Source.Blocks
import AnnotatedShader.Proofs.Statement.Place
import AnnotatedShader.Proofs.Token.Line

set_option autoImplicit false

/-!
# Coordinates

The annotation text has a line for each line of its source, so what stands in it stands in the
source at the same line and column.  A blank line holds nothing, so it stands in a line between two
sentinels, and those are the sentinels of one block.

`Annotated.Shows` says that a source shows given characters at a position, whichever line breaks its
text has.  What a scan of the annotation text finds is shown by the source (`shows_token`,
`shows_stop`), and lies in the block of its line (`Annotated.Shows.inBlock`).  So the positions in
diagnostics of annotations are positions in the file, without a correction by the place of a block.
-/

namespace AnnotatedShader.Source

variable {file text : String} {a : Annotated}

/-! ## The lines of an annotation text -/

namespace Annotated

/-- The lines of the annotation text, as many as the source has. -/
def annotationLines (a : Annotated) : List (List Char) :=
  (a.lines.zip a.roles).map fun entry => (annotationLine entry).toList

theorem toList_annotationText (a : Annotated) (hne : a.annotationLines ≠ []) :
    a.annotationText.toList = a.annotationLines.flatMap fun line => line ++ ['\n'] := by
  have hlines : (a.lines.zip a.roles).map annotationLine ≠ [] :=
    fun hnil => hne (List.map_eq_nil_iff.mpr (List.map_eq_nil_iff.mp hnil))
  rw [annotationText, String.toList_append, annotationLines, List.flatMap_map]
  exact (Text.toList_joinLines hlines).trans (List.flatMap_map ..)

/-- A line of the annotation text that is not blank is an annotation of the source. -/
theorem line_of_annotationLines {k : Nat} {line : List Char} {c : Char}
    (hline : a.annotationLines[k]? = some line) (hc : c ∈ line) :
    ∃ found, a.lines[k]? = some found ∧ a.roles[k]? = some .annotated ∧ line = found.toList := by
  rw [annotationLines, List.getElem?_map, Option.map_eq_some_iff] at hline
  obtain ⟨⟨found, role⟩, hentry, rfl⟩ := hline
  obtain ⟨hfound, hrole⟩ := List.getElem?_zip_eq_some.mp hentry
  have hannotated : role = .annotated := by
    cases role <;> first | rfl | simp [annotationLine] at hc
  subst hannotated
  exact ⟨found, hfound, hrole, rfl⟩

end Annotated

theorem not_mem_of_mem_annotationLines (h : (read file text).outcome = .ok a) {line : List Char}
    (hline : line ∈ a.annotationLines) : '\n' ∉ line := by
  intro hmem
  obtain ⟨k, hk⟩ := List.mem_iff_getElem?.mp hline
  obtain ⟨found, hfound, _, rfl⟩ := Annotated.line_of_annotationLines hk hmem
  exact not_mem_of_mem_lines h (List.mem_of_getElem? hfound) hmem

/-- An annotation text is scanned one line of its source after the other. -/
theorem scan_annotationText (h : (read file text).outcome = .ok a) :
    Lexer.scan a.annotationText = Lexer.scanLines 1 a.annotationLines := by
  by_cases hne : a.annotationLines = []
  · have hfeed : a.annotationText = "\n" := by
      rw [Annotated.annotationText, List.map_eq_nil_iff.mp hne]
      rfl
    rw [hne, hfeed]
    rfl
  · rw [← Lexer.scanAt_flatMap fun line hline => not_mem_of_mem_annotationLines h hline,
      ← a.toList_annotationText hne]
    rfl

/-! ## Places in a source -/

/-- Characters stand in an annotation of a source, at the column that counts what is in front of
them. -/
def Annotated.Shows (a : Annotated) (piece : List Char) (q : Position) : Prop :=
  ∃ k line before after, a.lines[k]? = some line ∧ a.roles[k]? = some .annotated ∧
    line.toList = before ++ piece ++ after ∧ q = ⟨k + 1, before.length + 1⟩

theorem shows_of_standsAt {piece : List Char} (hne : piece ≠ []) {q : Position}
    (h : Lexer.StandsAt 1 a.annotationLines piece q) : a.Shows piece q := by
  obtain ⟨k, line, before, after, hline, hsplit, rfl⟩ := h
  obtain ⟨c, hc⟩ := List.exists_mem_of_ne_nil piece hne
  have hmem : c ∈ line := by
    rw [hsplit]
    exact List.mem_append_left _ (List.mem_append_right _ hc)
  obtain ⟨found, hfound, hrole, rfl⟩ := Annotated.line_of_annotationLines hline hmem
  exact ⟨k, found, before, after, hfound, hrole, hsplit, by rw [Nat.add_comm]⟩

/-- A token of an annotation text is not empty, and stands in the source where it says. -/
theorem shows_token (h : (read file text).outcome = .ok a) {t : Token}
    (ht : t ∈ (Lexer.scan a.annotationText).tokens) :
    t.text.toList ≠ [] ∧ a.Shows t.text.toList t.position := by
  rw [scan_annotationText h] at ht
  obtain ⟨hne, hstands⟩ := (Lexer.scanLines_standsAt
    (fun line hline => not_mem_of_mem_annotationLines h hline) 1).1 t ht
  exact ⟨hne, shows_of_standsAt hne hstands⟩

/-- So does a character that no token starts with. -/
theorem shows_stop (h : (read file text).outcome = .ok a) {c : Char} {q : Position}
    (hstop : (Lexer.scan a.annotationText).stop = some (c, q)) : a.Shows [c] q := by
  rw [scan_annotationText h] at hstop
  exact shows_of_standsAt (List.cons_ne_nil c []) ((Lexer.scanLines_standsAt
    (fun line hline => not_mem_of_mem_annotationLines h hline) 1).2 c q hstop)

/-! ## Blocks -/

/-- A line stands strictly between the sentinels of the block with an index, and of no other one. -/
structure Annotated.InBlock (a : Annotated) (line index : Nat) : Prop where
  found : a.blockOf? line = some index
  inside : ∃ b, a.blocks[index]? = some b ∧ b.opening < line ∧ line < b.closing
  only : ∀ i b, a.blocks[i]? = some b → b.opening < line → line < b.closing → i = index

/-- A line lies in one block behind each other at most. -/
theorem index_unique {bs : List Block}
    (h : bs.Pairwise fun b b' => b.closing < b'.opening) {line i j : Nat} {b b' : Block}
    (hb : bs[i]? = some b) (hb' : bs[j]? = some b') (hline : b.opening < line ∧ line < b.closing)
    (hline' : b'.opening < line ∧ line < b'.closing) : i = j := by
  obtain ⟨hi, rfl⟩ := List.getElem?_eq_some_iff.mp hb
  obtain ⟨hj, rfl⟩ := List.getElem?_eq_some_iff.mp hb'
  rcases Nat.lt_trichotomy i j with hlt | heq | hlt
  · have := List.pairwise_iff_getElem.mp h i j hi hj hlt
    omega
  · exact heq
  · have := List.pairwise_iff_getElem.mp h j i hj hi hlt
    omega

theorem inBlock_of_annotated (h : (read file text).outcome = .ok a) {k : Nat}
    (hk : a.roles[k]? = some .annotated) : ∃ index, a.InBlock (k + 1) index := by
  have hsplit := split_of_read h
  obtain ⟨b, hb, hcontains⟩ := (hsplit.contains_iff (by simp) k).mpr hk
  rw [Nat.add_comm] at hcontains
  obtain ⟨index, hindex⟩ : ∃ index, a.blockOf? (k + 1) = some index :=
    Option.isSome_iff_exists.mp (List.findIdx?_isSome ▸ List.any_eq_true.mpr ⟨b, hb, hcontains⟩)
  obtain ⟨hlt, hinside, -⟩ := List.findIdx?_eq_some_iff_getElem.mp hindex
  simp only [Block.contains, Bool.and_eq_true, decide_eq_true_eq] at hinside
  have hfound := List.getElem?_eq_getElem hlt
  exact ⟨index, hindex, ⟨_, hfound, hinside⟩, fun i b' hb' hopening hclosing =>
    index_unique hsplit.pairwise hb' hfound ⟨hopening, hclosing⟩ hinside⟩

theorem Annotated.Shows.inBlock (h : (read file text).outcome = .ok a) {piece : List Char}
    {q : Position} (hshows : a.Shows piece q) : ∃ index, a.InBlock q.line index := by
  obtain ⟨k, _, _, _, _, hrole, _, rfl⟩ := hshows
  exact inBlock_of_annotated h hrole

/-! ## Tokens and statements -/

/-- In the annotation text of a source that is read, every token lies in the lines of exactly one
block, and stands in the line of the source, at the column, that its position names.  Every
statement starts in a line of exactly one block. -/
theorem read_coordinates {file text : String} {a : Annotated}
    (h : (read file text).outcome = .ok a) :
    (∀ ts, Lexer.tokenize file a.annotationText = .ok ts → ∀ t ∈ ts,
      (∃ index, a.InBlock t.position.line index) ∧ t.text ≠ "" ∧
        ∃ k line before after, (Text.lines text)[k]? = some line ∧
          line.toList = before ++ t.text.toList ++ after ∧
          t.position = ⟨k + 1, before.length + 1⟩) ∧
    ∀ ss, Statement.parse file a.annotationText = .ok ss → ∀ s ∈ ss,
      ∃ index, a.InBlock s.position.line index := by
  constructor
  · intro ts hts t ht
    rw [Lexer.tokenize] at hts
    split at hts
    · cases hts
    · obtain rfl := Except.ok.inj hts
      obtain ⟨hne, hshows⟩ := shows_token h ht
      refine ⟨hshows.inBlock h, fun hempty => hne (by rw [hempty]; rfl), ?_⟩
      obtain ⟨k, line, before, after, hline, _, hsplit, hposition⟩ := hshows
      rw [(read_eq_ok h).1] at hline
      exact ⟨k, line, before, after, hline, hsplit, hposition⟩
  · intro ss hss s hs
    obtain ⟨k, hline, hrole⟩ := annotated_of_parse h hss hs
    rw [hline, Nat.add_comm]
    exact inBlock_of_annotated h hrole

/-- A constant behind a tab and in front of a comment, with a different break behind every line. -/
def glowText : String := "#stage pixel\r\n#sal\x0b\tconst float Glow; # warm\u2028#sal\n"

theorem read_coordinates_glow : ∃ a ts, (read "Glow" glowText).outcome = .ok a ∧
    Lexer.tokenize "Glow" a.annotationText = .ok ts ∧
      ts.map Token.position = [⟨3, 2⟩, ⟨3, 8⟩, ⟨3, 14⟩, ⟨3, 18⟩, ⟨3, 20⟩] ∧
      ∀ t ∈ ts, ∃ index, a.InBlock t.position.line index := by
  obtain ⟨a, hread, hchecked⟩ := exists_eq_ok_of_any (x := (read "Glow" glowText).outcome)
    (p := fun a => (Lexer.tokenize "Glow" a.annotationText).toOption.any fun ts =>
      ts.map Token.position = [⟨3, 2⟩, ⟨3, 8⟩, ⟨3, 14⟩, ⟨3, 18⟩, ⟨3, 20⟩]) (by decide +kernel)
  obtain ⟨ts, htokens, hpositions⟩ := exists_eq_ok_of_any hchecked
  exact ⟨a, ts, hread, htokens, of_decide_eq_true hpositions, fun t ht =>
    ((read_coordinates hread).1 ts htokens t ht).1⟩

end AnnotatedShader.Source
