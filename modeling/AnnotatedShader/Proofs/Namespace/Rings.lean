import AnnotatedShader.Proofs.Namespace.Search

set_option autoImplicit false

/-!
# Rings

The rings that are found one after the other.  Every rotation of a ring is a ring again, and every
cycle of the graph leads to a file of some ring: a cycle that the first ring does not touch is still
there when the ring has been taken out.

`CoverCycles` says so of a list of rings, and `rings_coverCycles` proves it for those that the
search gives, by the rounds of the search.  The rounds end because a ring has an edge to take out
(`IsRing.length_without_lt`).  Which of the rings a file is told about is left to the walk.
-/

namespace AnnotatedShader.ImportGraph

open Relation

variable {g : ImportGraph}

theorem IsRing.mono {g' : ImportGraph} (hedge : ∀ a b, g.Edge a b → g'.Edge a b)
    {ring : List String} (h : IsRing g ring) : IsRing g' ring :=
  ⟨h.closed, h.chain.imp hedge, h.nodup⟩

/-- A ring that is cut in front of one of its files can be closed there. -/
theorem isRing_rotate {before after : List String} {first f : String}
    (hchain : (before ++ f :: (after ++ [first])).IsChain g.Edge)
    (hnodup : (before ++ f :: after).Nodup) (hfirst : (before ++ f :: after).head? = some first) :
    IsRing g (f :: after ++ before ++ [f]) := by
  refine ⟨⟨f, after ++ before, by simp⟩, ?_, ?_⟩
  · cases before with
    | nil =>
      obtain rfl : f = first := by simpa using hfirst
      simpa using hchain
    | cons b before =>
      obtain rfl : b = first := by simpa using hfirst
      obtain ⟨hleft, hright⟩ := List.isChain_split.mp hchain
      have hright : (f :: after ++ [b]).IsChain g.Edge := by simpa using hright
      have hleft : (b :: (before ++ [f])).IsChain g.Edge := by simpa using hleft
      simpa using List.isChain_split.mpr ⟨hright, hleft⟩
  · rw [List.dropLast_concat]
    exact (List.perm_append_comm.nodup_iff).mp hnodup

/-- A rotation of a ring starts with its own file and has the files of the ring. -/
theorem isRing_of_mem_rotations {ring : List String} (h : IsRing g ring) {file : String}
    {rotation : List String} (hmem : (file, rotation) ∈ rotations ring) :
    IsRing g rotation ∧ rotation.head? = some file ∧
      ∀ x, x ∈ rotation ↔ x ∈ ring.dropLast := by
  obtain ⟨first, rest, hclosed⟩ := h.closed
  have hmembers : ring.dropLast = first :: rest := by
    rw [hclosed]
    exact List.dropLast_concat
  obtain ⟨⟨f, i⟩, hindex, heq⟩ := List.mem_map.mp hmem
  obtain ⟨rfl, hrotation⟩ := Prod.mk.inj heq
  rw [hmembers] at hrotation hindex ⊢
  obtain ⟨hlt, hget⟩ := List.getElem?_eq_some_iff.mp (List.mk_mem_zipIdx_iff_getElem?.mp hindex)
  have hdrop : (first :: rest).drop i = f :: (first :: rest).drop (i + 1) := by
    rw [List.drop_eq_getElem_cons hlt, hget]
  have hsplit := List.take_append_drop i (first :: rest)
  rw [hdrop] at hrotation hsplit
  generalize (first :: rest).drop (i + 1) = after at hrotation hsplit
  generalize (first :: rest).take i = before at hrotation hsplit
  have hnodup : (before ++ f :: after).Nodup := by
    rw [hsplit, ← hmembers]
    exact h.nodup
  have hchain : (before ++ f :: (after ++ [first])).IsChain g.Edge := by
    have := h.chain
    rw [hclosed, ← hsplit] at this
    simpa using this
  subst hrotation
  refine ⟨isRing_rotate hchain hnodup (by rw [hsplit, List.head?_cons]), by simp, ?_⟩
  intro x
  rw [← hsplit]
  simp only [List.mem_append, List.mem_cons, List.not_mem_nil, or_false]
  tauto

theorem mem_rotations_of_mem {ring : List String} {file : String} (h : file ∈ ring.dropLast) :
    ∃ rotation, (file, rotation) ∈ rotations ring := by
  obtain ⟨i, hi, hget⟩ := List.getElem_of_mem h
  refine ⟨_, List.mem_map.mpr ⟨(file, i), ?_, rfl⟩⟩
  exact List.mk_mem_zipIdx_iff_getElem?.mpr (List.getElem?_eq_some_iff.mpr ⟨hi, hget⟩)

/-! ## All rings -/

/-- Rings of a graph, listed under each of their files, to one of which every cycle leads. -/
structure CoverCycles (g : ImportGraph) (rings : List (String × List String)) : Prop where
  isRing : ∀ file ring, (file, ring) ∈ rings → IsRing g ring ∧ ring.head? = some file
  listed : ∀ file ring, (file, ring) ∈ rings → ∀ x ∈ ring, ∃ ring', (x, ring') ∈ rings
  reached : ∀ x, TransGen g.Edge x x →
    ∃ y ring, ReflTransGen g.Edge x y ∧ (y, ring) ∈ rings

/-- A path that meets none of the files that are taken out stays. -/
theorem transGen_without (hg : g.files.Nodup) {gone : List String} {x y : String}
    (hx : ∀ z, ReflTransGen g.Edge x z → z ∉ gone) (h : TransGen g.Edge x y) :
    TransGen (g.without gone).Edge x y := by
  have hkeeps : KeepsRegion (ReflTransGen g.Edge x) g.Edge (g.without gone).Edge := by
    intro a b ha hstep
    have hb := ha.tail hstep
    exact ⟨(edge_without_iff hg).mpr ⟨hstep, hx a ha, hx b hb⟩, hb⟩
  exact transGen_of_keepsRegion hkeeps .refl h

theorem length_without_lt {gone : List String} {file : String} (hfile : file ∈ g.files)
    (hgone : file ∈ gone) : (g.without gone).length < g.length := by
  obtain ⟨entry, hentry, rfl⟩ := List.mem_map.mp hfile
  rw [without, List.length_map]
  exact List.length_filter_lt_length_iff_exists.mpr ⟨entry, hentry, by simpa using hgone⟩

/-- A graph is smaller without the files of one of its rings. -/
theorem IsRing.length_without_lt (hg : g.files.Nodup) {ring : List String} (h : IsRing g ring) :
    (g.without ring.dropLast).length < g.length := by
  obtain ⟨first, rest, hclosed⟩ := h.closed
  have hfirst : first ∈ ring.dropLast := by
    rw [hclosed, List.dropLast_concat]
    exact List.mem_cons_self
  have hchain := h.chain
  rw [hclosed] at hchain
  have hfile : first ∈ g.files := by
    cases rest with
    | nil => exact mem_files_of_edge hg (List.isChain_cons_cons.mp hchain).1
    | cons next rest => exact mem_files_of_edge hg (List.isChain_cons_cons.mp hchain).1
  exact ImportGraph.length_without_lt hfile hfirst

theorem edge_of_edge_without (hg : g.files.Nodup) {gone : List String} (a b : String)
    (h : (g.without gone).Edge a b) : g.Edge a b :=
  ((edge_without_iff hg).mp h).1

/-- A ring, and rings of the graph without its files, are rings of the graph. -/
theorem IsRing.coverCycles (hg : g.files.Nodup) {ring : List String} (h : IsRing g ring)
    {rings : List (String × List String)} (hrest : CoverCycles (g.without ring.dropLast) rings) :
    CoverCycles g (rotations ring ++ rings) := by
  refine ⟨?_, ?_, ?_⟩
  · intro file r hmem
    rcases List.mem_append.mp hmem with hmem | hmem
    · obtain ⟨hr, hhead, _⟩ := isRing_of_mem_rotations h hmem
      exact ⟨hr, hhead⟩
    · obtain ⟨hr, hhead⟩ := hrest.isRing file r hmem
      exact ⟨hr.mono (edge_of_edge_without hg), hhead⟩
  · intro file r hmem x hx
    rcases List.mem_append.mp hmem with hmem | hmem
    · obtain ⟨_, _, hfiles⟩ := isRing_of_mem_rotations h hmem
      obtain ⟨r', hr'⟩ := mem_rotations_of_mem ((hfiles x).mp hx)
      exact ⟨r', List.mem_append_left _ hr'⟩
    · obtain ⟨r', hr'⟩ := hrest.listed file r hmem x hx
      exact ⟨r', List.mem_append_right _ hr'⟩
  · intro x hx
    -- a cycle from which the ring cannot be reached is a cycle of the smaller graph
    by_cases hmeets : ∃ y, ReflTransGen g.Edge x y ∧ y ∈ ring.dropLast
    · obtain ⟨y, hreach, hy⟩ := hmeets
      obtain ⟨r, hr⟩ := mem_rotations_of_mem hy
      exact ⟨y, r, hreach, List.mem_append_left _ hr⟩
    · have havoids : ∀ z, ReflTransGen g.Edge x z → z ∉ ring.dropLast :=
        fun z hz hmem => hmeets ⟨z, hz, hmem⟩
      obtain ⟨y, r, hreach, hr⟩ := hrest.reached x (transGen_without hg havoids hx)
      exact ⟨y, r, ReflTransGen.mono (edge_of_edge_without hg) _ _ hreach,
        List.mem_append_right _ hr⟩

theorem ringsFrom_coverCycles (hg : g.files.Nodup) {fuel : Nat} (hfuel : g.length ≤ fuel) :
    CoverCycles g (ringsFrom fuel g) := by
  induction fuel generalizing g with
  | zero =>
    obtain rfl := List.length_eq_zero_iff.mp (Nat.le_zero.mp hfuel)
    refine ⟨by simp [ringsFrom], by simp [ringsFrom], ?_⟩
    intro x hx
    obtain ⟨y, hstep, _⟩ := TransGen.head'_iff.mp hx
    simpa [files] using mem_files_of_edge hg hstep
  | succ fuel ih =>
    unfold ringsFrom
    split
    · rename_i hnone
      exact ⟨by simp, by simp, fun x hx => absurd hx (acyclic_of_ring? hg hnone x)⟩
    · rename_i ring hring
      have hisRing := isRing_of_ring? hg hring
      have hlength := hisRing.length_without_lt hg
      exact hisRing.coverCycles hg (ih (nodup_files_without hg ring.dropLast) (by omega))

/-- A path to a file of the graph goes along files of the graph. -/
theorem transGen_restrict (hg : g.files.Nodup) {x y : String} (hy : y ∈ g.files)
    (h : TransGen g.Edge x y) : TransGen g.restrict.Edge x y := by
  induction h using TransGen.head_induction_on with
  | single hstep => exact .single ((edge_restrict_iff hg).mpr ⟨hstep, hy⟩)
  | head hstep hrest ih =>
    obtain ⟨_, hnext, _⟩ := TransGen.head'_iff.mp hrest
    exact .head ((edge_restrict_iff hg).mpr ⟨hstep, mem_files_of_edge hg hnext⟩) ih

theorem rings_coverCycles (hg : g.files.Nodup) : CoverCycles g g.rings := by
  have hedge : ∀ a b, g.restrict.Edge a b → g.Edge a b :=
    fun a b hab => ((edge_restrict_iff hg).mp hab).1
  have hcover : CoverCycles g.restrict g.rings :=
    ringsFrom_coverCycles (files_restrict g ▸ hg) (by simp [restrict])
  refine ⟨?_, hcover.listed, ?_⟩
  · intro file ring hmem
    obtain ⟨hring, hhead⟩ := hcover.isRing file ring hmem
    exact ⟨hring.mono hedge, hhead⟩
  · intro x hx
    obtain ⟨_, hstep, _⟩ := TransGen.head'_iff.mp hx
    obtain ⟨y, ring, hreach, hring⟩ :=
      hcover.reached x (transGen_restrict hg (mem_files_of_edge hg hstep) hx)
    exact ⟨y, ring, ReflTransGen.mono hedge _ _ hreach, hring⟩

end AnnotatedShader.ImportGraph
