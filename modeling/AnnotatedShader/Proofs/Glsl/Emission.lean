import AnnotatedShader.Glsl.Generate
import AnnotatedShader.Proofs.Lists
import AnnotatedShader.Proofs.Source.Blocks
import Mathlib.Data.List.Perm.Basic

set_option autoImplicit false

/-!
# Emitted declarations

A generated text consists of the segments of its source, behind the version if the source states
none (`Written`).  Theorems on texts speak of the declarations that are emitted (`emitted`) and of
this relation, not of the function that joins the pieces.

Two facts lead from the one to the other.  Every block is one of the segments, so the declarations
that are emitted are those of all items, each once, as long as every item belongs to a block
(`declarationsOf_perm`).  And every declaration that is emitted is written down, and its lines stand
in the text one behind the other (`Written.hasLines`), so what is known of the lines of a
declaration is known of the text.
-/

namespace AnnotatedShader.Glsl

open AnnotatedShader.Text

/-- The lines of a segment: a piece of the body that is rewritten, or the lines of all declarations
that stand for a block. -/
inductive SegmentWritten (r : Rewriting) (ds : Nat → List Declaration) :
    Segment → List String → Prop
  | body (ls : List String) :
    SegmentWritten r ds (.body ls) [String.ofList (rewrite r (joinLines ls).toList)]
  | block (index : Nat) (parts : List (List String))
    (h : List.Forall₂ (fun d ls => d.lines = .ok ls) (ds index) parts) :
    SegmentWritten r ds (.block index) parts.flatten

/-- A text consists of the segments of a source, with given declarations in the places of the
blocks, behind a version if the source states none. -/
def Written (o : Options) (a : Source.Annotated) (r : Rewriting) (ds : Nat → List Declaration)
    (text : String) : Prop :=
  ∃ front parts, heading a o = .ok front ∧ List.Forall₂ (SegmentWritten r ds) (segments a) parts ∧
    text = joinLines (front ++ parts.flatten) ++ "\n"

/-- The declarations in a segment. -/
def Segment.declarations (ds : Nat → List Declaration) : Segment → List Declaration
  | .body _ => []
  | .block index => ds index

/-- The declarations in a text from top to bottom. -/
def emitted (a : Source.Annotated) (ds : Nat → List Declaration) : List Declaration :=
  (segments a).flatMap (Segment.declarations ds)

theorem generate_written {a : Source.Annotated} {m : Model} {o : Options} {text : String}
    (h : generate a m o = .ok text) : ∃ is, items a m o = .ok is ∧
      Written o a (rewritingOf m) (declarationsOf is) text := by
  simp only [generate, bind_eq_ok_iff] at h
  obtain ⟨is, his, parts, hparts, front, hfront, h⟩ := h
  refine ⟨is, his, front, parts, hfront, (forall₂_of_mapM hparts).imp fun segment ls hls => ?_,
    (Except.ok.inj h).symm⟩
  cases segment with
  | body ls =>
    obtain rfl := Except.ok.inj hls
    exact .body ls
  | block index =>
    rw [segmentLines, bind_eq_ok_iff] at hls
    obtain ⟨blockParts, hblock, hls⟩ := hls
    obtain rfl := Except.ok.inj hls
    exact .block index blockParts (forall₂_of_mapM hblock)

/-! ## Lines
What a generated text says it says line by line.  The lines of a declaration stand in it one behind
the other, wherever the block of the declaration is. -/

/-- Whether a text has given lines, one behind the other. -/
def HasLines (text : String) (ls : List String) : Prop :=
  ∃ before after, text = joinLines (before ++ ls ++ after) ++ "\n"

theorem HasLines.of_infix {text : String} {ls part : List String} (h : HasLines text ls)
    (hpart : part <:+: ls) : HasLines text part := by
  obtain ⟨before, after, rfl⟩ := h
  obtain ⟨front, behind, rfl⟩ := hpart
  exact ⟨before ++ front, behind ++ after, by simp⟩

/-- Whatever is emitted is written down, and its lines stand in the text. -/
theorem Written.hasLines {o : Options} {a : Source.Annotated} {r : Rewriting}
    {ds : Nat → List Declaration} {text : String} (h : Written o a r ds text) {d : Declaration}
    (hd : d ∈ emitted a ds) : ∃ ls, d.lines = .ok ls ∧ HasLines text ls := by
  obtain ⟨front, parts, _, hparts, rfl⟩ := h
  obtain ⟨segment, hsegment, hd⟩ := List.mem_flatMap.mp hd
  obtain ⟨part, hpart, hsegment⟩ := exists_right_of_forall₂ hparts hsegment
  cases hsegment with
  | body => simp [Segment.declarations] at hd
  | block index blockParts hblock =>
    obtain ⟨ls, hls, hlines⟩ := exists_right_of_forall₂ hblock hd
    obtain ⟨before, behind, heq⟩ :=
      (List.infix_of_mem_flatten hls).trans (List.infix_of_mem_flatten hpart)
    exact ⟨ls, hlines, front ++ before, behind, by rw [← heq]; simp⟩

/-! ## Blocks -/

/-- The blocks of a source stand in its segments in order. -/
theorem declarations_segmentsFrom (ds : Nat → List Declaration) (chunk : List String) (index : Nat)
    (pairs : List (String × Source.LineRole)) :
    (segmentsFrom chunk index pairs).flatMap (Segment.declarations ds) =
      (List.range' index ((pairs.map Prod.snd).count .opening)).flatMap ds := by
  have hbody : ∀ chunk, (bodySegment chunk).flatMap (Segment.declarations ds) = [] := by
    intro chunk
    rw [bodySegment]
    split <;> rfl
  induction pairs generalizing chunk index with
  | nil => simp [segmentsFrom, hbody]
  | cons pair rest ih =>
    obtain ⟨line, role⟩ := pair
    cases role with
    | opening =>
      rw [segmentsFrom, List.flatMap_append, hbody, List.flatMap_cons, ih, List.map_cons,
        List.count_cons_self, List.range'_succ]
      rfl
    | closing | annotated | directive value | body => simpa [segmentsFrom] using ih _ index

/-- What is emitted are the declarations of the blocks in order. -/
theorem emitted_eq {a : Source.Annotated} (hroles : a.roles = Source.roles a.lines)
    (ds : Nat → List Declaration) :
    emitted a ds = (List.range (Source.openings a)).flatMap ds := by
  have hlength : a.roles.length = a.lines.length := by
    rw [hroles, Source.roles, Source.rolesFrom_length]
  rw [emitted, segments, declarations_segmentsFrom, List.map_snd_zip (by omega),
    List.range_eq_range', Source.openings]

/-- Items that are sorted by blocks are all there. -/
theorem declarationsOf_perm {is : List Item} {n : Nat} (h : ∀ i ∈ is, i.block < n) :
    ((List.range n).flatMap (declarationsOf is)).Perm (is.flatMap Item.declarations) := by
  induction is with
  | nil => simp [declarationsOf]
  | cons i rest ih =>
    have hsplit : ∀ block, declarationsOf (i :: rest) block =
        (if i.block = block then i.declarations else []) ++ declarationsOf rest block := by
      intro block
      by_cases hblock : i.block = block <;> simp [declarationsOf, hblock]
    -- The first item stands in front of the others of its block, and in no other block.
    rw [funext hsplit, List.flatMap_cons]
    refine (List.flatMap_append_perm _ _ _).symm.trans ?_
    rw [flatMap_single List.nodup_range (List.mem_range.mpr (h i List.mem_cons_self))]
    exact (ih fun j hj => h j (List.mem_cons_of_mem _ hj)).append_left _

end AnnotatedShader.Glsl
