import AnnotatedShader.Proofs.Namespace.Cycle

set_option autoImplicit false

/-!
# The search for a cycle ends

The search for a cycle consists of three loops: the depth-first visits that close a ring, the rounds
in which one ring after the other is taken out, and the walk along a stack.  Their runs are given
here step by step and without a bound on the number of steps, so that a run that exists has come to
an end.  Every search has such a run, and its outcome is what is reported (`searches_cycleFrom?`).

So the fuel of the loops is enough for every graph.  A file that is left is not entered again, a
round takes at least one edge out of the graph, and the walk puts no file on its stack twice; each
of the three has a lemma that turns the measure into a run.
-/

namespace AnnotatedShader.ImportGraph

/-! ## Runs -/

/-- A run of visits to files in turn, each followed by the visits to its importers.  It ends with a
ring, or with the files that have been seen. -/
inductive Visits (g : ImportGraph) :
    (path seen files : List String) → Except (List String) (List String) → Prop
  | done (path seen : List String) : Visits g path seen [] (.ok seen)
  | again {path seen rest : List String} {file : String} {outcome} (hseen : file ∈ seen)
    (hpath : file ∉ path) (hrest : Visits g path seen rest outcome) :
    Visits g path seen (file :: rest) outcome
  | back {path seen rest : List String} {file : String} (hseen : file ∈ seen)
    (hpath : file ∈ path) : Visits g path seen (file :: rest) (.error (closeRing path file))
  | left {path seen rest mid : List String} {file : String} {outcome} (hseen : file ∉ seen)
    (himporters : Visits g (file :: path) (file :: seen) (g.importersOf file) (.ok mid))
    (hrest : Visits g path mid rest outcome) : Visits g path seen (file :: rest) outcome
  | found {path seen rest ring : List String} {file : String} (hseen : file ∉ seen)
    (himporters : Visits g (file :: path) (file :: seen) (g.importersOf file) (.error ring)) :
    Visits g path seen (file :: rest) (.error ring)

/-- A run of rounds, each of which takes a ring out of the graph, until there is none. -/
inductive Peels : ImportGraph → List (String × List String) → Prop
  | done {g : ImportGraph} {seen : List String}
    (hvisits : Visits g [] [] (searchOrder g) (.ok seen)) : Peels g []
  | round {g : ImportGraph} {ring : List String} {rings : List (String × List String)}
    (hvisits : Visits g [] [] (searchOrder g) (.error ring))
    (hrest : Peels (g.without ring.reverse.dropLast) rings) :
    Peels g (rotations ring.reverse ++ rings)

/-- A run of the walk along a stack of paths. -/
inductive Walks (g : ImportGraph) (rings : List (String × List String)) :
    (seen : List String) → (stack : List (String × List String)) → Option (List String) → Prop
  | done (seen : List String) : Walks g rings seen [] none
  | found {seen path found : List String} {file : String} {stack : List (String × List String)}
    (hfind : (sortedUnique (g.importsOf file)).findSome?
      (fun d => (rings.lookup d).map (path ++ ·)) = some found) :
    Walks g rings seen ((file, path) :: stack) (some found)
  | step {seen path fresh : List String} {file : String} {stack : List (String × List String)}
    {outcome : Option (List String)}
    (hfind : (sortedUnique (g.importsOf file)).findSome?
      (fun d => (rings.lookup d).map (path ++ ·)) = none)
    (hfresh : fresh = (sortedUnique (g.importsOf file)).filter fun d => !seen.contains d)
    (hrest : Walks g rings (seen ++ fresh)
      ((fresh.map fun d => (d, path ++ [d])).reverse ++ stack) outcome) :
    Walks g rings seen ((file, path) :: stack) outcome

/-- A run of the whole search for a file. -/
inductive Searches (g : ImportGraph) (file : String) : Option (List String) → Prop
  | onRing {rings : List (String × List String)} {ring : List String}
    (hpeels : Peels g.restrict rings) (hring : rings.lookup file = some ring) :
    Searches g file (some ring)
  | walked {rings : List (String × List String)} {outcome : Option (List String)}
    (hpeels : Peels g.restrict rings) (hring : rings.lookup file = none)
    (hwalks : Walks g rings [file] [(file, [file])] outcome) : Searches g file outcome

/-! ## Every search has a run -/

variable {g : ImportGraph}

theorem importersOf_subset (g : ImportGraph) (file : String) : g.importersOf file ⊆ g.files :=
  (List.filter_sublist.map _).subset

/-- Visits come to an end: the path has no file twice, so it does not grow longer than the number of
files. -/
theorem visits_of_foldlM {order : List String} (horder : g.files ⊆ order) {fuel : Nat}
    {path seen files : List String} (hpath : path.Nodup) (hpathOrder : path ⊆ order)
    (hpathSeen : path ⊆ seen) (hfiles : files ⊆ order) (hfuel : order.length < fuel + path.length) :
    Visits g path seen files
      (files.foldlM (fun seen next => visit g fuel path seen next) seen) := by
  induction fuel generalizing path seen files with
  | zero =>
    have := (hpath.subperm hpathOrder).length_le
    omega
  | succ fuel ih =>
    induction files generalizing seen with
    | nil => exact .done path seen
    | cons file rest ihrest =>
      obtain ⟨hfile, hrest⟩ := List.cons_subset.mp hfiles
      rw [List.foldlM_cons]
      by_cases hseen : file ∈ seen
      · by_cases hback : file ∈ path
        · have hvisit : visit g (fuel + 1) path seen file = .error (closeRing path file) := by
            simp [visit, hseen, hback]
          rw [hvisit]
          exact .back hseen hback
        · have hvisit : visit g (fuel + 1) path seen file = .ok seen := by
            simp [visit, hseen, hback]
          rw [hvisit]
          exact .again hseen hback (ihrest hpathSeen hrest)
      · have hout : file ∉ path := fun hmem => hseen (hpathSeen hmem)
        have hinner := ih (List.nodup_cons.mpr ⟨hout, hpath⟩)
          (List.cons_subset.mpr ⟨hfile, hpathOrder⟩) (List.cons_subset_cons file hpathSeen)
          (List.Subset.trans (importersOf_subset g file) horder)
          (by simp only [List.length_cons]; omega)
        have hvisit : visit g (fuel + 1) path seen file =
            (g.importersOf file).foldlM (fun seen next => visit g fuel (file :: path) seen next)
              (file :: seen) := by
          simp [visit, hseen]
        cases hmid : visit g (fuel + 1) path seen file with
        | error ring =>
          rw [← hvisit, hmid] at hinner
          exact .found hseen hinner
        | ok mid =>
          rw [← hvisit, hmid] at hinner
          have hmidSeen := List.Subset.trans hpathSeen (seen_subset_of_visit hmid)
          exact .left hseen hinner (ihrest hmidSeen hrest)

/-- Rounds come to an end: each of them makes the graph smaller. -/
theorem peels_ringsFrom (hg : g.files.Nodup) {fuel : Nat} (hfuel : g.length ≤ fuel) :
    Peels g (ringsFrom fuel g) := by
  induction fuel generalizing g with
  | zero =>
    obtain rfl := List.length_eq_zero_iff.mp (Nat.le_zero.mp hfuel)
    exact .done (.done [] [])
  | succ fuel ih =>
    have hvisits : Visits g [] [] (searchOrder g) ((searchOrder g).foldlM
        (fun seen file => visit g ((searchOrder g).length + 1) [] seen file) []) :=
      visits_of_foldlM (fun _ hfile => mem_searchOrder_of_mem_files hfile) .nil
        (List.nil_subset _) (List.nil_subset _) (List.Subset.refl _) (Nat.lt_succ_self _)
    cases houtcome : (searchOrder g).foldlM
        (fun seen file => visit g ((searchOrder g).length + 1) [] seen file) [] with
    | ok seen =>
      rw [houtcome] at hvisits
      have hring : ring? g = none := by simp only [ring?, houtcome]
      rw [ringsFrom, hring]
      exact .done hvisits
    | error ring =>
      rw [houtcome] at hvisits
      have hring : ring? g = some ring.reverse := by simp only [ring?, houtcome]
      have hlength := (isRing_of_ring? hg hring).length_without_lt hg
      rw [ringsFrom, hring]
      exact .round hvisits (ih (nodup_files_without hg _) (by omega))

/-- The walk comes to an end: a file that it puts on its stack has not been seen before. -/
theorem walks_walk (hg : g.files.Nodup) {rings : List (String × List String)} {fuel : Nat}
    {seen : List String} {stack : List (String × List String)}
    (hfuel : stack.length + unseen g seen ≤ fuel) :
    Walks g rings seen stack (walk g rings fuel seen stack) := by
  induction fuel generalizing seen stack with
  | zero =>
    obtain rfl := List.length_eq_zero_iff.mp (by omega : stack.length = 0)
    exact .done seen
  | succ fuel ih =>
    cases stack with
    | nil => exact .done seen
    | cons entry stack =>
      obtain ⟨file, path⟩ := entry
      rw [walk]
      cases hfind : (sortedUnique (g.importsOf file)).findSome? fun d =>
          (rings.lookup d).map (path ++ ·) with
      | some found => exact .found hfind
      | none =>
        refine .step hfind rfl (ih ?_)
        have hsubset : (sortedUnique (g.importsOf file)).filter (fun d => !seen.contains d) ⊆
            g.flatMap Prod.snd := by
          intro d hd
          obtain ⟨deps, hentry, hd⟩ :=
            (edge_iff hg).mp (mem_sortedUnique.mp (List.mem_filter.mp hd).1)
          exact List.mem_flatMap.mpr ⟨_, hentry, hd⟩
        have hfresh : ∀ d ∈ (sortedUnique (g.importsOf file)).filter (fun d => !seen.contains d),
            d ∉ seen := fun d hd => by simpa using (List.mem_filter.mp hd).2
        have hbound := unseen_append_le ((nodup_sortedUnique _).filter _) hsubset hfresh
        simp only [List.length_append, List.length_reverse, List.length_map, List.length_cons]
          at hfuel ⊢
        omega

theorem searches_cycleFrom? (hg : g.files.Nodup) (file : String) :
    Searches g file (cycleFrom? g g.rings file) := by
  have hpeels : Peels g.restrict g.rings :=
    peels_ringsFrom (files_restrict g ▸ hg) (by simp [restrict])
  unfold cycleFrom?
  cases hring : g.rings.lookup file with
  | some ring => exact .onRing hpeels hring
  | none =>
    have hunseen : unseen g [file] ≤ (g.flatMap Prod.snd).length := List.countP_le_length
    refine .walked hpeels hring (walks_walk hg ?_)
    simp only [List.length_singleton]
    omega

end AnnotatedShader.ImportGraph
