import AnnotatedShader.Proofs.Glsl.Interface
import AnnotatedShader.Proofs.Glsl.Stretch
import AnnotatedShader.Proofs.Model.Entity

set_option autoImplicit false

/-!
# The place of each declaration

A generated text is made of the stretches of the body and, between them, what stands for the blocks.
For a block stand the declarations of the entities whose statements start in it, in the order of the
statements.

`Piece` is an entity with the lines of its declarations, and `assembled` a text of stretches and
pieces, each in the place of the block that holds the position of its entity.  `generate_assembled`
proves that the generated text is such a text, with one piece for each entity of the model.  The
items that generation sorts are those of the entities (`items_itemOf`), and sorting by statement is
strict, since no two entities belong to one statement.  Each piece has a line for every resource of
its entity (`Piece.Written.exists_line`).

The last section reads the same text from top to bottom.  Statements stand in the order of their
lines, so the blocks of sorted items never go back (`Seated`), and the declarations of the text are
those of the items one behind the other (`items_seated`).
-/

namespace AnnotatedShader

namespace Source.Annotated

/-- Whether a position lies in the block of an index. -/
def holds (a : Annotated) (i : Nat) (p : Position) : Bool := (a.blocks[i]?).any (·.contains p.line)

theorem holds_iff {a : Annotated} (h : Split 1 none a.roles a.blocks) {i : Nat} {p : Position} :
    a.holds i p = true ↔ a.blockOf? p.line = some i := by
  rw [blockOf?_eq_some_iff h, holds, Option.any_eq_true]

end Source.Annotated

namespace Glsl

open AnnotatedShader.Text
open Source (Split)

/-! ## Pieces -/

/-- The structs that are emitted with buffers. -/
def emittedBy (m : Model) (bs : List Buffer) : List StructId :=
  bs.foldl (fun emitted b => (emitStructs m emitted b.members).emitted) []

/-- The declarations of an entity.  In front of the uniform block of a buffer stand the structs that
it needs, but for those that are emitted with the buffers before it. -/
inductive Declares (m : Model) (o : Options) : Entity → List Declaration → Prop
  | format (vf : VertexFormat) : Declares m o (.format vf) (vf.inputs.map fun i =>
      .input i.location i.type (vf.name ++ "_" ++ i.name))
  | buffer (before after : List Buffer) (b : Buffer) (block : Declaration)
    (hbuffers : m.buffers = before ++ b :: after) (hblock : blockDeclaration o b = .ok block) :
    Declares m o (.buffer b)
      ((emitStructs m (emittedBy m before) b.members).declarations ++ [block])
  | texture (t : Texture) :
    Declares m o (.texture t) [.texture (bindingFor o t.binding) t.type t.name]
  | output (out : Output) : Declares m o (.output out) [.output out.location out.type out.name]

/-- The lines of an entity. -/
structure Piece where
  entity : Entity
  lines : List String
  deriving DecidableEq, Repr, Inhabited

/-- Whether lines are those of the declarations of an entity. -/
def Piece.Written (m : Model) (o : Options) (p : Piece) : Prop :=
  ∃ ds parts, Declares m o p.entity ds ∧ List.Forall₂ (fun d ls => d.lines = .ok ls) ds parts ∧
    p.lines = parts.flatten

/-- The resources of an entity, with the slots that are stated for them. -/
def resourcesOf (o : Options) : Entity → List Resource
  | .format vf => vf.inputs.map fun i =>
    ⟨.vertexAttribute, vf.name ++ "_" ++ i.name, some i.location⟩
  | .buffer b => [⟨.constantBuffer, b.name, bindingFor o b.binding⟩]
  | .texture t => [⟨.texture, t.name, bindingFor o t.binding⟩]
  | .output out => [⟨.output, out.name, some out.location⟩]

/-- An entity declares its resources. -/
theorem Declares.exists_declaration {m : Model} {o : Options} {e : Entity} {ds : List Declaration}
    (h : Declares m o e ds) : ∀ res ∈ resourcesOf o e, ∃ d ∈ ds, d.resource? = some res := by
  intro res hres
  cases h with
  | format vf =>
    obtain ⟨i, hi, rfl⟩ := List.mem_map.mp hres
    exact ⟨_, List.mem_map_of_mem hi, rfl⟩
  | buffer before after b block hbuffers hblock =>
    obtain rfl := List.mem_singleton.mp hres
    obtain ⟨members, _, rfl⟩ := blockDeclaration_eq_ok hblock
    exact ⟨_, List.mem_append_right _ (List.mem_singleton_self _), rfl⟩
  | texture t | output out =>
    obtain rfl := List.mem_singleton.mp hres
    exact ⟨_, List.mem_singleton_self _, rfl⟩

/-- The lines of an entity introduce its resources. -/
theorem Piece.Written.exists_line {m : Model} {o : Options} {p : Piece} (h : p.Written m o) :
    ∀ res ∈ resourcesOf o p.entity, ∃ line ∈ p.lines, res.Line line := by
  intro res hres
  obtain ⟨ds, parts, hdeclares, hparts, hlines⟩ := h
  obtain ⟨d, hd, hdeclared⟩ := hdeclares.exists_declaration res hres
  obtain ⟨ls, hls, hwritten⟩ := exists_right_of_forall₂ hparts hd
  obtain ⟨line, hmem, hline⟩ := Declaration.exists_line hwritten hdeclared
  exact ⟨line, by rw [hlines]; exact List.mem_flatten.mpr ⟨ls, hls, hmem⟩, hline⟩

/-- A stretch of the body, rewritten as one piece, unless it has no lines. -/
def stretchLines (r : Rewriting) (a : Source.Annotated) (i : Nat) : List String :=
  if (a.stretch i).isEmpty then []
  else [String.ofList (rewrite r (joinLines (a.stretch i)).toList)]

/-- The lines in the place of a block. -/
def blockLines (a : Source.Annotated) (ps : List Piece) (i : Nat) : List String :=
  (ps.filter fun p => a.holds i p.entity.site.position).flatMap Piece.lines

/-- A text whose blocks are replaced by pieces, behind the lines in front of it. -/
def assembled (front : List String) (a : Source.Annotated) (r : Rewriting) (ps : List Piece) :
    String :=
  joinLines (front ++ stretchLines r a 0 ++ (List.range a.blocks.length).flatMap fun i =>
    blockLines a ps i ++ stretchLines r a (i + 1)) ++ "\n"

/-! ## Segments in terms of lines -/

/-- The lines of a declaration that can be written down. -/
def linesOf (d : Declaration) : List String := d.lines.toOption.getD []

theorem eq_map_linesOf {ds : List Declaration} {parts : List (List String)}
    (h : List.Forall₂ (fun d ls => d.lines = .ok ls) ds parts) : parts = ds.map linesOf := by
  have hmap := map_eq_of_forall₂ h (f := linesOf) (g := id) fun d ls hd => by
    rw [linesOf, hd]
    rfl
  rwa [List.map_id] at hmap

/-- The lines of a segment. -/
def Segment.lines (r : Rewriting) (ds : Nat → List Declaration) : Segment → List String
  | .body ls => [String.ofList (rewrite r (joinLines ls).toList)]
  | .block index => (ds index).flatMap linesOf

theorem flatten_eq {r : Rewriting} {ds : Nat → List Declaration} {ss : List Segment}
    {parts : List (List String)} (h : List.Forall₂ (SegmentWritten r ds) ss parts) :
    parts.flatten = ss.flatMap (Segment.lines r ds) := by
  have hlines : parts = ss.map (Segment.lines r ds) := by
    have hmap := map_eq_of_forall₂ h (f := Segment.lines r ds) (g := id) fun s ls hs => by
      cases hs with
      | body ls => rfl
      | block index parts hparts =>
        rw [eq_map_linesOf hparts, Segment.lines, List.flatMap_def]
        rfl
    rwa [List.map_id] at hmap
  rw [hlines, List.flatMap_def]

theorem flatMap_bodySegment (r : Rewriting) (ds : Nat → List Declaration) (a : Source.Annotated)
    (i : Nat) : (bodySegment (a.stretch i)).flatMap (Segment.lines r ds) = stretchLines r a i := by
  rw [bodySegment, stretchLines]
  split <;> rfl

/-- The lines of the segments of a source. -/
theorem lines_segments {a : Source.Annotated} (h : Split 1 none a.roles a.blocks)
    (hlength : a.lines.length = a.roles.length) (r : Rewriting) (ds : Nat → List Declaration) :
    (segments a).flatMap (Segment.lines r ds) = stretchLines r a 0 ++
      (List.range a.blocks.length).flatMap fun i =>
        (ds i).flatMap linesOf ++ stretchLines r a (i + 1) := by
  rw [segments_eq h hlength, List.flatMap_append, flatMap_bodySegment, List.flatMap_assoc]
  simp only [List.flatMap_cons, flatMap_bodySegment, Segment.lines]

/-! ## Items as entities -/

/-- An item is made of an entity. -/
structure ItemOf (a : Source.Annotated) (m : Model) (o : Options) (e : Entity) (i : Item) :
    Prop where
  index : i.index = e.site.index
  block : i.block = blockOf a e.site.position
  declares : Declares m o e i.declarations

variable {a : Source.Annotated} {m : Model} {o : Options}

theorem bufferItems_itemOf {before bs : List Buffer} (hbuffers : m.buffers = before ++ bs)
    {is : List Item} (h : bufferItems a m o (emittedBy m before) bs = .ok is) :
    List.Forall₂ (ItemOf a m o) (bs.map .buffer) is := by
  induction bs generalizing before is with
  | nil =>
    obtain rfl := Except.ok.inj h
    exact .nil
  | cons b rest ih =>
    simp only [bufferItems, bind_eq_ok_iff] at h
    obtain ⟨block, hblock, others, hothers, h⟩ := h
    obtain rfl := Except.ok.inj h
    have hemitted : (emitStructs m (emittedBy m before) b.members).emitted =
        emittedBy m (before ++ [b]) := by
      rw [emittedBy, emittedBy, List.foldl_append]
      rfl
    rw [hemitted] at hothers
    refine .cons ⟨rfl, rfl, .buffer before rest b block hbuffers hblock⟩ (ih ?_ hothers)
    rw [hbuffers, List.append_assoc]
    rfl

theorem forall₂_map_itemOf {α : Type} {f : α → Entity} {g : α → Item}
    (h : ∀ x, ItemOf a m o (f x) (g x)) (xs : List α) :
    List.Forall₂ (ItemOf a m o) (xs.map f) (xs.map g) := by
  rw [List.forall₂_map_left_iff, List.forall₂_map_right_iff, List.forall₂_same]
  exact fun x _ => h x

/-- The items of a model are made of its entities, and stand in the order of their indices. -/
theorem items_itemOf {is : List Item} (h : items a m o = .ok is) :
    ∃ es, es.Perm m.entities ∧ List.Forall₂ (ItemOf a m o) es is ∧
      is.Pairwise fun i j => i.index ≤ j.index := by
  rw [items, bind_eq_ok_iff] at h
  obtain ⟨buffers, hbuffers, h⟩ := h
  obtain rfl := Except.ok.inj h
  have hblocks : List.Forall₂ (ItemOf a m o) (m.buffers.map .buffer) buffers :=
    @bufferItems_itemOf a m o [] _ rfl _ hbuffers
  have hitems : List.Forall₂ (ItemOf a m o) m.entities
      (m.vertexFormat.toList.map (formatItem a) ++ buffers ++ m.textures.map (textureItem a o) ++
        m.outputs.map (outputItem a)) := by
    refine List.rel_append (List.rel_append (List.rel_append ?_ hblocks) ?_) ?_
    · exact forall₂_map_itemOf (fun vf => ⟨rfl, rfl, .format vf⟩) _
    · exact forall₂_map_itemOf (fun t => ⟨rfl, rfl, .texture t⟩) _
    · exact forall₂_map_itemOf (fun out => ⟨rfl, rfl, .output out⟩) _
  obtain ⟨es, hes, hperm⟩ := List.perm_comp_forall₂ (List.mergeSort_perm _ _) hitems.flip
  refine ⟨es, hperm, hes.flip, ?_⟩
  refine (List.pairwise_mergeSort ?_ ?_ _).imp of_decide_eq_true
  · intro i j k hij hjk
    rw [decide_eq_true_iff] at *
    exact Nat.le_trans hij hjk
  · intro i j
    simpa using Nat.le_total i.index j.index

/-! ## Pieces of a text -/

/-- An item is made of the entity of a piece, and has the lines of the piece. -/
structure PieceOf (a : Source.Annotated) (m : Model) (o : Options) (p : Piece) (i : Item) :
    Prop where
  item : ItemOf a m o p.entity i
  lines : p.lines = i.declarations.flatMap linesOf

theorem exists_pieces {es : List Entity} {is : List Item} (h : List.Forall₂ (ItemOf a m o) es is) :
    ∃ ps : List Piece, ps.map Piece.entity = es ∧ List.Forall₂ (PieceOf a m o) ps is := by
  induction h with
  | nil => exact ⟨[], rfl, .nil⟩
  | @cons e i es is hitem _ ih =>
    obtain ⟨ps, rfl, hps⟩ := ih
    exact ⟨⟨e, i.declarations.flatMap linesOf⟩ :: ps, rfl, .cons ⟨hitem, rfl⟩ hps⟩

/-- The lines of the pieces that start in a block are those of the items that belong to it. -/
theorem flatMap_declarationsOf {ps : List Piece} {is : List Item}
    (h : List.Forall₂ (PieceOf a m o) ps is) (hsplit : Split 1 none a.roles a.blocks)
    (hinside : ∀ p ∈ ps, ∃ i, a.blockOf? p.entity.site.position.line = some i) (k : Nat) :
    (declarationsOf is k).flatMap linesOf = blockLines a ps k := by
  rw [declarationsOf, List.flatMap_assoc, blockLines]
  induction h with
  | nil => rfl
  | @cons p i ps is hpiece _ ih =>
    have hrest := ih fun q hq => hinside q (List.mem_cons_of_mem _ hq)
    have hblock : (i.block == k) = a.holds k p.entity.site.position := by
      obtain ⟨j, hj⟩ := hinside p List.mem_cons_self
      rw [Bool.eq_iff_iff, Source.Annotated.holds_iff hsplit, hpiece.item.block, blockOf, hj]
      simp
    rw [List.filter_cons, List.filter_cons, hblock]
    cases a.holds k p.entity.site.position with
    | false => exact hrest
    | true =>
      rw [if_pos rfl, if_pos rfl, List.flatMap_cons, List.flatMap_cons, hrest, hpiece.lines]

/-- What stands for a block has lines. -/
theorem exists_lines {r : Rewriting} {ds : Nat → List Declaration} {parts : List (List String)}
    (h : List.Forall₂ (SegmentWritten r ds) (segments a) parts)
    (hsplit : Split 1 none a.roles a.blocks) (hlength : a.lines.length = a.roles.length) {k : Nat}
    (hk : k < a.blocks.length) : ∀ d ∈ ds k, d.lines = .ok (linesOf d) := by
  have hmem : Segment.block k ∈ segments a := by
    rw [segments_eq hsplit hlength]
    refine List.mem_append_right _ (List.mem_flatMap.mpr ⟨k, List.mem_range.mpr hk, ?_⟩)
    exact List.mem_cons_self
  obtain ⟨ls, _, hls⟩ := exists_right_of_forall₂ h hmem
  cases hls with
  | block _ parts hparts =>
    intro d hd
    obtain ⟨ls, _, hlines⟩ := exists_right_of_forall₂ hparts hd
    rw [linesOf, hlines]
    rfl

/-- A generated text is the stretches of its source with pieces in the places of the blocks: one for
each entity of the model, in the order of the statements. -/
theorem generate_assembled {text : String} (hsplit : Split 1 none a.roles a.blocks)
    (hlength : a.lines.length = a.roles.length) (hindices : (m.sites.map Site.index).Nodup)
    (hinside : ∀ site ∈ m.sites, ∃ i, a.blockOf? site.position.line = some i)
    (h : generate a m o = .ok text) :
    ∃ ps : List Piece, (ps.map Piece.entity).Perm m.entities ∧
      (ps.Pairwise fun p q => p.entity.site.index < q.entity.site.index) ∧
      (∀ p ∈ ps, p.Written m o) ∧
      ∃ front, heading a o = .ok front ∧ text = assembled front a (rewritingOf m) ps := by
  obtain ⟨is, his, front, parts, hfront, hparts, htext⟩ := generate_written h
  obtain ⟨es, hperm, hes, hsorted⟩ := items_itemOf his
  obtain ⟨ps, rfl, hps⟩ := exists_pieces hes
  have hplaces : ∀ p ∈ ps, ∃ i, a.blockOf? p.entity.site.position.line = some i := fun p hp =>
    hinside _ (List.mem_map_of_mem (hperm.subset (List.mem_map_of_mem hp)))
  refine ⟨ps, hperm, ?_, ?_, front, hfront, ?_⟩
  · -- The items are sorted by their indices, and no two entities share one.
    have hsame : is.map Item.index = ps.map fun p => p.entity.site.index :=
      map_eq_of_forall₂ hps fun p i hp => hp.item.index
    have hdistinct : (ps.map fun p => p.entity.site.index).Nodup := by
      have hmap := ((hperm.map Entity.site).map Site.index).nodup_iff.mpr hindices
      rwa [List.map_map, List.map_map] at hmap
    have hle : (ps.map fun p => p.entity.site.index).Pairwise (· ≤ ·) := by
      rw [← hsame]
      exact List.pairwise_map.mpr hsorted
    exact List.pairwise_map.mp ((hle.and hdistinct).imp fun hij => Nat.lt_of_le_of_ne hij.1 hij.2)
  · intro p hp
    obtain ⟨i, hi, hpiece⟩ := exists_right_of_forall₂ hps hp
    obtain ⟨k, hk⟩ := hplaces p hp
    have hblock : i.block = k := by
      rw [hpiece.item.block, blockOf, hk]
      rfl
    have hlt : k < a.blocks.length := (List.findIdx?_eq_some_iff_getElem.mp hk).1
    refine ⟨i.declarations, i.declarations.map linesOf, hpiece.item.declares, ?_, ?_⟩
    · rw [List.forall₂_map_right_iff, List.forall₂_same]
      intro d hd
      refine exists_lines hparts hsplit hlength hlt d (List.mem_flatMap.mpr ⟨i, ?_, hd⟩)
      exact List.mem_filter.mpr ⟨hi, beq_iff_eq.mpr hblock⟩
    · rw [hpiece.lines, List.flatMap_def]
  · rw [htext, flatten_eq hparts, lines_segments hsplit hlength, assembled, ← List.append_assoc]
    simp only [flatMap_declarationsOf hps hsplit hplaces]

/-!
## From top to bottom

Items are sorted by their statements, and statements stand in the order of their lines, so the
blocks of sorted items never go back.  From top to bottom a text has the declarations of its items
one behind the other then, although it has them block by block.
-/

/-- The statements that entities belong to start in the blocks of a source, in the order of the
statements. -/
structure Seated (a : Source.Annotated) (m : Model) : Prop where
  inside : ∀ site ∈ m.sites, ∃ i, a.blockOf? site.position.line = some i
  lines : ∀ site ∈ m.sites, ∀ site' ∈ m.sites, site.index ≤ site'.index →
    site.position.line ≤ site'.position.line

/-- Items whose blocks never go back are emitted one behind the other. -/
theorem emitted_eq_flatMap (hroles : a.roles = Source.roles a.lines) {is : List Item}
    (hsorted : is.Pairwise fun i j => i.block ≤ j.block)
    (hblocks : ∀ i ∈ is, i.block < Source.openings a) :
    emitted a (declarationsOf is) = is.flatMap Item.declarations := by
  have hall : ((List.range (Source.openings a)).flatMap fun k => is.filter (·.block == k)) = is :=
    (flatMap_range_filter hsorted _).trans
      (List.filter_eq_self.mpr fun i hi => decide_eq_true (hblocks i hi))
  calc emitted a (declarationsOf is)
    _ = (List.range (Source.openings a)).flatMap (declarationsOf is) := emitted_eq hroles _
    _ = ((List.range (Source.openings a)).flatMap fun k => is.filter (·.block == k)).flatMap
          Item.declarations := List.flatMap_assoc.symm
    _ = is.flatMap Item.declarations := by rw [hall]

/-- The buffers among entities that are sorted are those of the model in their order. -/
theorem filterMap_buffer?_of_sorted (hordered : (m.buffers.map Buffer.index).Pairwise (· < ·))
    {es : List Entity}
    (hperm : es.Perm m.entities)
    (hsorted : es.Pairwise fun e e' => e.site.index ≤ e'.site.index) :
    es.filterMap Entity.buffer? = m.buffers := by
  have hbuffers := List.pairwise_map.mp hordered
  have hdistinct : (m.buffers.map Buffer.index).Nodup :=
    hordered.imp Nat.ne_of_lt
  have hfound : (es.filterMap Entity.buffer?).Perm m.buffers := by
    have hmap := hperm.filterMap Entity.buffer?
    rwa [m.filterMap_buffer?_entities] at hmap
  refine @List.Perm.eq_of_pairwise _ (fun b b' => b.index ≤ b'.index) _ _ ?_ ?_
    (hbuffers.imp Nat.le_of_lt) hfound
  · intro b b' hb hb' hle hle'
    exact List.inj_on_of_nodup_map hdistinct (hfound.mem_iff.mp hb) hb' (Nat.le_antisymm hle hle')
  · refine hsorted.filterMap _ fun e e' hle b hb b' hb' => ?_
    cases e with
    | buffer =>
      cases e' with
      | buffer =>
        obtain rfl := Option.some.inj hb
        obtain rfl := Option.some.inj hb'
        exact hle
      | _ => contradiction
    | _ => contradiction

/-- From top to bottom stand the declarations of the entities in the order of their statements, with
the buffers in the order of the model. -/
theorem items_seated (hseated : Seated a m) (hroles : a.roles = Source.roles a.lines)
    (hsplit : Split 1 none a.roles a.blocks)
    (hordered : (m.buffers.map Buffer.index).Pairwise (· < ·)) {is : List Item}
    (h : items a m o = .ok is) :
    ∃ es, es.Perm m.entities ∧ es.filterMap Entity.buffer? = m.buffers ∧
      List.Forall₂ (ItemOf a m o) es is ∧
      emitted a (declarationsOf is) = is.flatMap Item.declarations := by
  obtain ⟨es, hperm, hes, hsorted⟩ := items_itemOf h
  have hsite : ∀ i ∈ is, ∃ site ∈ m.sites, i.index = site.index ∧
      a.blockOf? site.position.line = some i.block := by
    intro i hi
    obtain ⟨e, he, hof⟩ := exists_left_of_forall₂ hes hi
    have hmem : e.site ∈ m.sites := List.mem_map_of_mem (hperm.mem_iff.mp he)
    obtain ⟨k, hk⟩ := hseated.inside _ hmem
    exact ⟨_, hmem, hof.index, by rw [hof.block, blockOf, hk]; rfl⟩
  have hmap : is.map Item.index = es.map fun e => e.site.index :=
    map_eq_of_forall₂ hes fun _ _ hof => hof.index
  have hentities : es.Pairwise fun e e' => e.site.index ≤ e'.site.index := by
    rw [← List.pairwise_map (f := fun e : Entity => e.site.index) (R := (· ≤ ·)), ← hmap]
    exact List.pairwise_map.mpr hsorted
  refine ⟨es, hperm, filterMap_buffer?_of_sorted hordered hperm hentities, hes,
    emitted_eq_flatMap hroles ?_ ?_⟩
  · refine hsorted.imp_of_mem fun {i j} hi hj hle => ?_
    obtain ⟨site, hmem, hindex, hblock⟩ := hsite i hi
    obtain ⟨site', hmem', hindex', hblock'⟩ := hsite j hj
    rw [hindex, hindex'] at hle
    exact Source.Annotated.blockOf?_mono hsplit (hseated.lines _ hmem _ hmem' hle) hblock hblock'
  · intro i hi
    obtain ⟨site, _, _, hblock⟩ := hsite i hi
    exact Source.blockOf?_lt hblock

end Glsl

end AnnotatedShader
