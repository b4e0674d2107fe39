import AnnotatedShader.Proofs.Namespace.Rings

set_option autoImplicit false

/-!
# Cycles of imports

A file is reported to depend on a cycle exactly when it reaches one, and what is reported is a path
of imports into a cycle and once around it.

`CyclePath` says what such a path is.  The walk starts at the file and follows imports depth first,
until it comes to a file of a ring; `Trail` and `Explored` are its invariants, the way to where it
stands and the files that lead to no ring.  A walk that ends without a ring has explored all that
the file reaches (`walk_spec`).  With the rings of the graph, which touch every cycle, this gives
both directions (`dependencyCycle?_isSome_iff`).
-/

namespace AnnotatedShader.ImportGraph

open Relation

/-- A path of imports that ends where it meets itself. -/
structure CyclePath (E : String → String → Prop) (start : String) (path : List String) : Prop where
  head : path.head? = some start
  chain : path.IsChain E
  nodup : path.dropLast.Nodup
  back : ∃ last ∈ path.dropLast, path.getLast? = some last

theorem IsRing.cyclePath {g : ImportGraph} {file : String} {ring : List String} (h : IsRing g ring)
    (hhead : ring.head? = some file) : CyclePath g.Edge file ring := by
  refine ⟨hhead, h.chain, h.nodup, file, ?_⟩
  obtain ⟨first, rest, hclosed⟩ := h.closed
  rw [hclosed] at hhead ⊢
  obtain rfl := Option.some.inj hhead
  exact ⟨by rw [List.dropLast_concat]; exact List.mem_cons_self, List.getLast?_concat⟩

/-- A path that meets itself shows a cycle. -/
theorem CyclePath.reachesCycle {E : String → String → Prop} {start : String} {path : List String}
    (h : CyclePath E start path) : ReachesCycle E start := by
  obtain ⟨last, hlast, hend⟩ := h.back
  have hpath : path = path.dropLast ++ [last] := (List.dropLast_append_getLast? last hend).symm
  obtain ⟨before, after, hsplit⟩ := List.append_of_mem hlast
  have hpairs : path.Pairwise (TransGen E) :=
    (h.chain.imp fun _ _ hstep => TransGen.single hstep).pairwise
  rw [hpath, hsplit] at hpairs
  have hcycle : TransGen E last last := by
    rw [List.append_assoc, List.pairwise_append] at hpairs
    exact List.rel_of_pairwise_cons hpairs.2.1 (by simp)
  refine ⟨last, ?_, hcycle⟩
  have hhead := h.head
  rw [hpath, hsplit] at hhead
  cases before with
  | nil =>
    obtain rfl := Option.some.inj hhead
    exact .refl
  | cons first before =>
    obtain rfl := Option.some.inj hhead
    exact (List.rel_of_pairwise_cons hpairs (by simp)).to_reflTransGen

/-! ## The walk -/

variable {g : ImportGraph} {rings : List (String × List String)}

/-- A path on the stack of the walk. -/
structure Trail (g : ImportGraph) (rings : List (String × List String)) (start : String)
    (seen : List String) (entry : String × List String) : Prop where
  head : entry.2.head? = some start
  getLast : entry.2.getLast? = some entry.1
  chain : entry.2.IsChain g.Edge
  nodup : entry.2.Nodup
  offRing : ∀ x ∈ entry.2, rings.lookup x = none
  seen : entry.2 ⊆ seen

theorem Trail.widen {start : String} {seen seen' : List String} {entry : String × List String}
    (h : Trail g rings start seen entry) (hseen : seen ⊆ seen') :
    Trail g rings start seen' entry :=
  { h with seen := List.Subset.trans h.seen hseen }

/-- The walk takes one more step along a trail. -/
theorem Trail.extend {start file d : String} {path seen : List String}
    (h : Trail g rings start seen (file, path)) (hedge : g.Edge file d) (hd : d ∉ seen)
    (hring : rings.lookup d = none) {seen' : List String} (hseen : seen ⊆ seen') (hd' : d ∈ seen') :
    Trail g rings start seen' (d, path ++ [d]) where
  head := by rw [List.head?_append, h.head, Option.some_or]
  getLast := List.getLast?_concat
  chain := by
    apply h.chain.append (.singleton d)
    intro x hx y hy
    obtain rfl := Option.some.inj (h.getLast.symm.trans hx)
    obtain rfl := Option.some.inj hy
    exact hedge
  nodup := by
    rw [List.nodup_append]
    refine ⟨h.nodup, by simp, ?_⟩
    intro x hx y hy heq
    rw [List.mem_singleton] at hy
    exact hd (h.seen (hy ▸ heq ▸ hx))
  offRing x hx := by
    rcases List.mem_append.mp hx with hx | hx
    · exact h.offRing x hx
    · rwa [List.mem_singleton.mp hx]
  seen x hx := by
    rcases List.mem_append.mp hx with hx | hx
    · exact hseen (h.seen hx)
    · rwa [List.mem_singleton.mp hx]

/-- A trail that comes to a ring ends with it. -/
theorem Trail.cyclePath (hcover : CoverCycles g rings) {start file d : String}
    {path seen ring : List String} (h : Trail g rings start seen (file, path))
    (hedge : g.Edge file d) (hring : (d, ring) ∈ rings) :
    CyclePath g.Edge start (path ++ ring) := by
  obtain ⟨hisRing, hhead⟩ := hcover.isRing d ring hring
  obtain ⟨last, hlast, hend⟩ := (hisRing.cyclePath hhead).back
  have hne : ring ≠ [] := by
    rintro rfl
    simp at hhead
  have hdropLast : (path ++ ring).dropLast = path ++ ring.dropLast :=
    List.dropLast_append_of_ne_nil hne
  refine ⟨by rw [List.head?_append, h.head, Option.some_or], ?_, ?_, last, ?_, ?_⟩
  · apply h.chain.append hisRing.chain
    intro x hx y hy
    obtain rfl := Option.some.inj (h.getLast.symm.trans hx)
    obtain rfl := Option.some.inj (hhead.symm.trans hy)
    exact hedge
  · rw [hdropLast, List.nodup_append]
    refine ⟨h.nodup, hisRing.nodup, ?_⟩
    intro x hx y hy heq
    obtain ⟨ring', hring'⟩ := hcover.listed d ring hring x (heq ▸ List.dropLast_subset _ hy)
    have hnone := h.offRing x hx
    rw [List.lookup_eq_none_iff] at hnone
    simpa using hnone _ hring'
  · rw [hdropLast]
    exact List.mem_append_right _ hlast
  · rw [List.getLast?_append, hend, Option.some_or]

/-- What the walk has seen: the files that are no longer on its stack lead to seen files only, and
no seen file lies on a ring. -/
structure Explored (g : ImportGraph) (rings : List (String × List String)) (start : String)
    (seen : List String) (stack : List (String × List String)) : Prop where
  start_mem : start ∈ seen
  trails : ∀ entry ∈ stack, Trail g rings start seen entry
  offRing : ∀ x ∈ seen, rings.lookup x = none
  left : ∀ x ∈ seen, x ∉ stack.map Prod.fst → ∀ y, g.Edge x y → y ∈ seen

/-- The files that the walk has still to come to. -/
def unseen (g : ImportGraph) (seen : List String) : Nat :=
  (g.flatMap Prod.snd).countP fun d => !seen.contains d

theorem unseen_append_le {seen fresh : List String} (hnodup : fresh.Nodup)
    (hsubset : fresh ⊆ g.flatMap Prod.snd) (hfresh : ∀ d ∈ fresh, d ∉ seen) :
    unseen g (seen ++ fresh) + fresh.length ≤ unseen g seen := by
  unfold unseen
  generalize g.flatMap Prod.snd = all at hsubset
  have hlater : (all.countP fun d => !(seen ++ fresh).contains d) =
      (all.filter fun d => !seen.contains d).countP fun d => !fresh.contains d := by
    rw [List.countP_filter]
    congr 1
    funext d
    simp [Bool.and_comm]
  have hnow : fresh.length ≤
      (all.filter fun d => !seen.contains d).countP fun d => fresh.contains d := by
    rw [List.countP_eq_length_filter]
    refine (hnodup.subperm ?_).length_le
    intro d hd
    simp only [List.mem_filter]
    exact ⟨⟨hsubset hd, by simpa using hfresh d hd⟩, by simpa using hd⟩
  have hall := List.length_eq_countP_add_countP (fun d => fresh.contains d)
    (l := all.filter fun d => !seen.contains d)
  have hnot : (fun d => decide (¬ fresh.contains d = true)) = fun d => !fresh.contains d := by
    funext d
    cases fresh.contains d <;> rfl
  rw [hnot] at hall
  rw [hlater, List.countP_eq_length_filter (p := fun d => !seen.contains d), hall]
  omega

/-- One round of the walk, when no file that is imported lies on a ring. -/
theorem Explored.step {start file : String} {path seen : List String}
    {stack : List (String × List String)} (h : Explored g rings start seen ((file, path) :: stack))
    (hnone : ∀ d, g.Edge file d → rings.lookup d = none) {fresh : List String}
    (hfresh : ∀ d, d ∈ fresh ↔ g.Edge file d ∧ d ∉ seen) :
    Explored g rings start (seen ++ fresh)
      ((fresh.map fun d => (d, path ++ [d])).reverse ++ stack) := by
  have htrail := h.trails (file, path) List.mem_cons_self
  refine ⟨List.mem_append_left _ h.start_mem, ?_, ?_, ?_⟩
  · intro entry hentry
    rcases List.mem_append.mp hentry with hentry | hentry
    · obtain ⟨d, hd, rfl⟩ := List.mem_map.mp (List.mem_reverse.mp hentry)
      obtain ⟨hedge, hseen⟩ := (hfresh d).mp hd
      exact htrail.extend hedge hseen (hnone d hedge) (List.subset_append_left _ _)
        (List.mem_append_right _ hd)
    · exact (h.trails entry (List.mem_cons_of_mem _ hentry)).widen (List.subset_append_left _ _)
  · intro x hx
    rcases List.mem_append.mp hx with hx | hx
    · exact h.offRing x hx
    · exact hnone x ((hfresh x).mp hx).1
  · intro x hx hstack y hy
    have hold : x ∉ fresh ∧ x ∉ stack.map Prod.fst := by
      simpa [Function.comp_def] using hstack
    have hx := (List.mem_append.mp hx).resolve_right hold.1
    by_cases hfile : x = file
    · subst hfile
      by_cases hseen : y ∈ seen
      · exact List.mem_append_left _ hseen
      · exact List.mem_append_right _ ((hfresh y).mpr ⟨hy, hseen⟩)
    · refine List.mem_append_left _ (h.left x hx ?_ y hy)
      simpa [hfile] using hold.2

/-- A walk that has left all its files has found no cycle because there is none. -/
theorem Explored.not_reachesCycle (hcover : CoverCycles g rings) {start : String}
    {seen : List String} (h : Explored g rings start seen []) : ¬ ReachesCycle g.Edge start := by
  rintro ⟨x, hreach, hcycle⟩
  obtain ⟨y, ring, hring, hmem⟩ := hcover.reached x hcycle
  have hseen : ∀ z, ReflTransGen g.Edge start z → z ∈ seen := by
    intro z hz
    induction hz with
    | refl => exact h.start_mem
    | tail _ hstep ih => exact h.left _ ih (by simp) _ hstep
  have hnone := h.offRing y (hseen y (hreach.trans hring))
  rw [List.lookup_eq_none_iff] at hnone
  simpa using hnone _ hmem

/-- The walk finds a path into a ring if a cycle is reached, and nothing otherwise. -/
theorem walk_spec (hg : g.files.Nodup) (hcover : CoverCycles g rings) {fuel : Nat} {start : String}
    {seen : List String} {stack : List (String × List String)}
    (h : Explored g rings start seen stack) (hfuel : stack.length + unseen g seen ≤ fuel) :
    match walk g rings fuel seen stack with
    | some path => CyclePath g.Edge start path
    | none => ¬ ReachesCycle g.Edge start := by
  induction fuel generalizing seen stack with
  | zero =>
    obtain rfl := List.length_eq_zero_iff.mp (by omega : stack.length = 0)
    exact h.not_reachesCycle hcover
  | succ fuel ih =>
    cases stack with
    | nil => exact h.not_reachesCycle hcover
    | cons entry stack =>
      obtain ⟨file, path⟩ := entry
      have hdeps : ∀ d, d ∈ sortedUnique (g.importsOf file) ↔ g.Edge file d :=
        fun d => mem_sortedUnique
      rw [walk]
      cases hfind : (sortedUnique (g.importsOf file)).findSome? fun d =>
          (rings.lookup d).map (path ++ ·) with
      | some found =>
        obtain ⟨d, hd, hfound⟩ := List.exists_of_findSome?_eq_some hfind
        obtain ⟨ring, hring, rfl⟩ := Option.map_eq_some_iff.mp hfound
        obtain ⟨before, after, hsplit, _⟩ := List.lookup_eq_some_iff.mp hring
        exact (h.trails _ List.mem_cons_self).cyclePath hcover ((hdeps d).mp hd) (by simp [hsplit])
      | none =>
        have hnone : ∀ d, g.Edge file d → rings.lookup d = none := by
          intro d hd
          simpa using List.findSome?_eq_none_iff.mp hfind d ((hdeps d).mpr hd)
        have hfresh : ∀ d, d ∈ (sortedUnique (g.importsOf file)).filter
            (fun d => !seen.contains d) ↔ g.Edge file d ∧ d ∉ seen := by
          intro d
          rw [List.mem_filter, hdeps]
          simp
        apply ih (h.step hnone hfresh)
        have hsubset : (sortedUnique (g.importsOf file)).filter (fun d => !seen.contains d) ⊆
            g.flatMap Prod.snd := by
          intro d hd
          obtain ⟨deps, hentry, hd⟩ := (edge_iff hg).mp ((hfresh d).mp hd).1
          exact List.mem_flatMap.mpr ⟨_, hentry, hd⟩
        have hbound := unseen_append_le ((nodup_sortedUnique _).filter _) hsubset
          fun d hd => ((hfresh d).mp hd).2
        simp only [List.length_append, List.length_reverse, List.length_map, List.length_cons]
          at hfuel ⊢
        omega

theorem cycleFrom?_spec (hg : g.files.Nodup) (file : String) :
    match cycleFrom? g g.rings file with
    | some path => CyclePath g.Edge file path
    | none => ¬ ReachesCycle g.Edge file := by
  have hcover := rings_coverCycles hg
  unfold cycleFrom?
  cases hring : g.rings.lookup file with
  | some ring =>
    obtain ⟨before, after, hsplit, _⟩ := List.lookup_eq_some_iff.mp hring
    obtain ⟨hisRing, hhead⟩ := hcover.isRing file ring (by simp [hsplit])
    exact hisRing.cyclePath hhead
  | none =>
    have htrail : Trail g g.rings file [file] (file, [file]) :=
      ⟨rfl, rfl, .singleton file, by simp, by simpa using hring, List.Subset.refl _⟩
    have hstart : Explored g g.rings file [file] [(file, [file])] :=
      ⟨by simp, by simpa using htrail, by simpa using hring, by simp⟩
    apply walk_spec hg hcover hstart
    have hunseen : unseen g [file] ≤ (g.flatMap Prod.snd).length := List.countP_le_length
    simp only [List.length_singleton]
    omega

end AnnotatedShader.ImportGraph

namespace AnnotatedShader.Namespace

open Relation
open AnnotatedShader.ImportGraph (CyclePath)

/-- The path that is reported for a file is a path of imports into a cycle, and one is reported
whenever a cycle is reached. -/
theorem dependencyCycle?_spec {ns : Namespace} (hns : ns.files.Nodup) (file : String) :
    match ns.dependencyCycle? file with
    | some path => CyclePath ns.Imports file path
    | none => ¬ ReachesCycle ns.Imports file := by
  have hedge : ns.importGraph.Edge = ns.Imports := by
    funext a b
    exact propext edge_importGraph_iff
  have hspec := ImportGraph.cycleFrom?_spec (files_importGraph ns ▸ hns) file
  rwa [hedge] at hspec

theorem dependencyCycle?_isSome_iff {ns : Namespace} (hns : ns.files.Nodup) {file : String} :
    (ns.dependencyCycle? file).isSome ↔ ReachesCycle ns.Imports file := by
  have hspec := dependencyCycle?_spec hns file
  cases hcycle : ns.dependencyCycle? file with
  | none =>
    rw [hcycle] at hspec
    simpa using hspec
  | some path =>
    rw [hcycle] at hspec
    simpa using hspec.reachesCycle

end AnnotatedShader.Namespace
