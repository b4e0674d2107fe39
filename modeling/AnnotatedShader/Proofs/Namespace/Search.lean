import AnnotatedShader.Proofs.Except
import AnnotatedShader.Proofs.Namespace.Graph
import Mathlib.Data.List.Chain
import Mathlib.Data.List.Perm.Subperm
import Mathlib.Logic.Relation

set_option autoImplicit false

/-!
# The search for a ring

The depth-first search for a ring is sound and complete.  A file that has been left again is
finished: all files that import from it are finished too, and it lies on no cycle (`Finished`).  A
ring is closed where the search comes back to its own path, which follows imports from each file to
the next (`IsRing`).

The search carries the files that it has seen and the path to where it stands.  Without a ring it
leaves every file that it enters finished (`visit_searched`); with one, what it closes is a part of
its path (`visit_isRing`).  Over all files this gives that a graph without a ring that is found is
acyclic (`acyclic_of_ring?`), where cycles are those of the transitive closure of imports.
-/

/-!
## Reachability

A cycle that can be reached from a point, and what two relations have to share so that the same can
be reached in both.
-/

namespace AnnotatedShader

open Relation

variable {α : Type} {E E' : α → α → Prop}

/-- A cycle is reached from a point. -/
def ReachesCycle (E : α → α → Prop) (a : α) : Prop := ∃ b, ReflTransGen E a b ∧ TransGen E b b

/-- Every step out of a region is a step of the other relation into the region. -/
def KeepsRegion (P : α → Prop) (E E' : α → α → Prop) : Prop := ∀ a b, P a → E a b → E' a b ∧ P b

variable {P : α → Prop} (hkeeps : KeepsRegion P E E')

include hkeeps

theorem reflTransGen_of_keepsRegion {a b : α} (ha : P a) (h : ReflTransGen E a b) :
    ReflTransGen E' a b ∧ P b := by
  induction h with
  | refl => exact ⟨.refl, ha⟩
  | tail _ hstep ih =>
    obtain ⟨hreach, hp⟩ := ih
    obtain ⟨hstep, hp⟩ := hkeeps _ _ hp hstep
    exact ⟨hreach.tail hstep, hp⟩

theorem transGen_of_keepsRegion {a b : α} (ha : P a) (h : TransGen E a b) : TransGen E' a b := by
  obtain ⟨c, hstep, hreach⟩ := TransGen.head'_iff.mp h
  obtain ⟨hstep, hc⟩ := hkeeps _ _ ha hstep
  exact TransGen.head' hstep (reflTransGen_of_keepsRegion hkeeps hc hreach).1

theorem reachesCycle_of_keepsRegion {a : α} (ha : P a) (h : ReachesCycle E a) :
    ReachesCycle E' a := by
  obtain ⟨b, hreach, hcycle⟩ := h
  obtain ⟨hreach, hb⟩ := reflTransGen_of_keepsRegion hkeeps ha hreach
  exact ⟨b, hreach, transGen_of_keepsRegion hkeeps hb hcycle⟩

end AnnotatedShader

namespace AnnotatedShader.ImportGraph

open Relation

variable {g : ImportGraph}

/-- The search has left every file that it has seen, except for those on its path. -/
structure Finished (g : ImportGraph) (path seen : List String) : Prop where
  path_seen : path ⊆ seen
  importers : ∀ x ∈ seen, x ∉ path → ∀ y, g.Edge y x → y ∈ seen ∧ y ∉ path
  acyclic : ∀ x ∈ seen, x ∉ path → ¬ TransGen g.Edge x x

/-- What leads to a finished file is finished. -/
theorem Finished.of_reaches {path seen : List String} (h : Finished g path seen) {x y : String}
    (hx : x ∈ seen) (hpath : x ∉ path) (hreach : ReflTransGen g.Edge y x) :
    y ∈ seen ∧ y ∉ path := by
  induction hreach using ReflTransGen.head_induction_on with
  | refl => exact ⟨hx, hpath⟩
  | head hstep _ ih => exact h.importers _ ih.1 ih.2 _ hstep

/-- The search enters a file. -/
theorem Finished.enter {path seen : List String} (h : Finished g path seen) {file : String}
    (hfile : file ∉ seen) : Finished g (file :: path) (file :: seen) where
  path_seen := List.cons_subset_cons file h.path_seen
  importers x hx hpath y hy := by
    have hne : x ≠ file := fun heq => hpath (heq ▸ List.mem_cons_self)
    have hx := (List.mem_cons.mp hx).resolve_left hne
    obtain ⟨hseen, hout⟩ := h.importers x hx (fun hmem => hpath (List.mem_cons_of_mem _ hmem)) y hy
    refine ⟨List.mem_cons_of_mem _ hseen, ?_⟩
    intro hmem
    rcases List.mem_cons.mp hmem with rfl | hmem
    · exact hfile hseen
    · exact hout hmem
  acyclic x hx hpath := by
    have hne : x ≠ file := fun heq => hpath (heq ▸ List.mem_cons_self)
    exact h.acyclic x ((List.mem_cons.mp hx).resolve_left hne)
      fun hmem => hpath (List.mem_cons_of_mem _ hmem)

/-- The search leaves a file whose importers are finished. -/
theorem Finished.leave {path seen : List String} {file : String}
    (h : Finished g (file :: path) seen) (hfile : file ∉ path)
    (himporters : ∀ y, g.Edge y file → y ∈ seen ∧ y ∉ file :: path) : Finished g path seen where
  path_seen := List.subset_of_cons_subset h.path_seen
  importers x hx hpath y hy := by
    have hdone : y ∈ seen ∧ y ∉ file :: path := by
      by_cases heq : x = file
      · exact himporters y (heq ▸ hy)
      · exact h.importers x hx (by simp [heq, hpath]) y hy
    exact ⟨hdone.1, fun hmem => hdone.2 (List.mem_cons_of_mem _ hmem)⟩
  acyclic x hx hpath hcycle := by
    by_cases heq : x = file
    · -- the last step of the cycle comes from a finished file, and so would the file itself
      subst heq
      obtain ⟨y, hreach, hstep⟩ := TransGen.tail'_iff.mp hcycle
      obtain ⟨hseen, hout⟩ := himporters y hstep
      exact (h.of_reaches hseen hout hreach).2 List.mem_cons_self
    · exact h.acyclic x hx (by simp [heq, hpath]) hcycle

/-! ## Searches that find no ring -/

/-- What a search from a file leaves. -/
structure Searched (g : ImportGraph) (path seen : List String) (file : String)
    (seen' : List String) : Prop where
  finished : Finished g path seen'
  seen_subset : seen ⊆ seen'
  mem : file ∈ seen'
  not_mem : file ∉ path

/-- Searches from several files, one after the other. -/
theorem foldlM_searched {path : List String} {step : List String → String →
      Except (List String) (List String)} {files : List String} {seen seen' : List String}
    (hstep : ∀ file ∈ files, ∀ seen seen', Finished g path seen → step seen file = .ok seen' →
      Searched g path seen file seen') (hseen : Finished g path seen)
    (h : files.foldlM step seen = .ok seen') :
    Finished g path seen' ∧ seen ⊆ seen' ∧ ∀ file ∈ files, file ∈ seen' ∧ file ∉ path := by
  induction files generalizing seen with
  | nil =>
    obtain rfl : seen = seen' := Except.ok.inj h
    exact ⟨hseen, List.Subset.refl _, by simp⟩
  | cons file rest ih =>
    rw [List.foldlM_cons, bind_eq_ok_iff] at h
    obtain ⟨mid, hmid, h⟩ := h
    have hsearched := hstep file List.mem_cons_self seen mid hseen hmid
    obtain ⟨hfinished, hsubset, hrest⟩ :=
      ih (fun other hother => hstep other (List.mem_cons_of_mem _ hother)) hsearched.finished h
    refine ⟨hfinished, List.Subset.trans hsearched.seen_subset hsubset, ?_⟩
    intro other hother
    rcases List.mem_cons.mp hother with rfl | hother
    · exact ⟨hsubset hsearched.mem, hsearched.not_mem⟩
    · exact hrest other hother

/-- A search that finds no ring finishes its file.  The path has no file twice, so it never grows
longer than the number of files. -/
theorem visit_searched (hg : g.files.Nodup) {order : List String} (horder : g.files ⊆ order)
    {fuel : Nat} {path seen seen' : List String} {file : String} (hpath : path.Nodup)
    (hpathOrder : path ⊆ order) (hfile : file ∈ order) (hfuel : order.length < fuel + path.length)
    (hseen : Finished g path seen) (h : visit g fuel path seen file = .ok seen') :
    Searched g path seen file seen' := by
  induction fuel generalizing path seen seen' file with
  | zero =>
    have := (hpath.subperm hpathOrder).length_le
    omega
  | succ fuel ih =>
    unfold visit at h
    split at h
    · rename_i hcontains
      split at h
      · simp at h
      · rename_i hout
        obtain rfl := Except.ok.inj h
        exact ⟨hseen, List.Subset.refl _, List.contains_iff_mem.mp hcontains, by simpa using hout⟩
    · rename_i hnew
      have hnew : file ∉ seen := by simpa using hnew
      have hout : file ∉ path := fun hmem => hnew (hseen.path_seen hmem)
      have hstep : ∀ next ∈ g.importersOf file, ∀ seen seen', Finished g (file :: path) seen →
          visit g fuel (file :: path) seen next = .ok seen' →
          Searched g (file :: path) seen next seen' := by
        intro next hnext seen seen' hfinished hvisit
        have hedge := (mem_importersOf_iff hg).mp hnext
        refine ih (List.nodup_cons.mpr ⟨hout, hpath⟩) (List.cons_subset.mpr ⟨hfile, hpathOrder⟩)
          (horder (mem_files_of_edge hg hedge)) ?_ hfinished hvisit
        simp only [List.length_cons]
        omega
      obtain ⟨hfinished, hsubset, himporters⟩ := foldlM_searched hstep (hseen.enter hnew) h
      refine ⟨hfinished.leave hout ?_, ?_, ?_, hout⟩
      · intro y hy
        exact himporters y ((mem_importersOf_iff hg).mpr hy)
      · intro x hx
        exact hsubset (List.mem_cons_of_mem _ hx)
      · exact hsubset List.mem_cons_self

/-! ## Searches that find a ring -/

/-- A closed path of imports: its last file is its first one, and no other file occurs twice. -/
structure IsRing (g : ImportGraph) (ring : List String) : Prop where
  closed : ∃ file rest, ring = file :: rest ++ [file]
  chain : ring.IsChain g.Edge
  nodup : ring.dropLast.Nodup

theorem isInitial_takeWhile {path : List String} {file : String} (h : file ∈ path) :
    path.takeWhile (· != file) ++ [file] <+: path := by
  induction path with
  | nil => simp at h
  | cons first rest ih =>
    by_cases hfirst : first = file
    · subst hfirst
      simp
    · have hrest := ih ((List.mem_cons.mp h).resolve_left (Ne.symm hfirst))
      simpa [hfirst] using hrest

/-- A path that comes back to one of its files closes a ring. -/
theorem isRing_closeRing {path : List String} {file : String} (hpath : path.Nodup)
    (hchain : (file :: path).IsChain g.Edge) (hfile : file ∈ path) :
    IsRing g (closeRing path file).reverse := by
  have heq : (closeRing path file).reverse =
      file :: path.takeWhile (· != file) ++ [file] := by
    simp [closeRing]
  have hnodup : (file :: path.takeWhile (· != file)).Nodup := by
    refine List.nodup_cons.mpr ⟨?_, hpath.sublist (List.takeWhile_sublist _)⟩
    intro hmem
    simpa using List.all_eq_true.mp List.all_takeWhile file hmem
  rw [heq]
  refine ⟨⟨file, _, rfl⟩, ?_, by rwa [List.dropLast_concat]⟩
  obtain ⟨rest, hrest⟩ := isInitial_takeWhile hfile
  rw [← hrest, ← List.cons_append, ← List.cons_append] at hchain
  exact hchain.left_of_append

theorem seen_subset_of_visit {fuel : Nat} {path seen seen' : List String} {file : String}
    (h : visit g fuel path seen file = .ok seen') : seen ⊆ seen' := by
  induction fuel generalizing path seen seen' file with
  | zero =>
    obtain rfl := Except.ok.inj h
    exact List.Subset.refl _
  | succ fuel ih =>
    unfold visit at h
    split at h
    · split at h
      · simp at h
      · obtain rfl := Except.ok.inj h
        exact List.Subset.refl _
    · have hfold := (foldlM_cases (P := fun mid => file :: seen ⊆ mid) (List.Subset.refl _)
        fun b a _ b' hb hv => List.Subset.trans hb (ih hv)).1 seen' h
      exact List.subset_of_cons_subset hfold

/-- A search that ends with a ring has come along imports. -/
theorem visit_isRing (hg : g.files.Nodup) {fuel : Nat} {path seen ring : List String}
    {file : String} (hpath : path.Nodup) (hseen : path ⊆ seen)
    (hchain : (file :: path).IsChain g.Edge) (h : visit g fuel path seen file = .error ring) :
    IsRing g ring.reverse := by
  induction fuel generalizing path seen file with
  | zero => simp [visit] at h
  | succ fuel ih =>
    unfold visit at h
    split at h
    · split at h
      · rename_i hback
        obtain rfl := Except.error.inj h
        exact isRing_closeRing hpath hchain (List.contains_iff_mem.mp hback)
      · simp at h
    · rename_i hnew
      have hnew : file ∉ seen := by simpa using hnew
      have hpath' : (file :: path).Nodup :=
        List.nodup_cons.mpr ⟨fun hmem => hnew (hseen hmem), hpath⟩
      obtain ⟨mid, hmid, next, hnext, hvisit⟩ :=
        (foldlM_cases (P := fun mid => file :: path ⊆ mid) (List.cons_subset_cons file hseen)
          fun b a _ b' hb hv => List.Subset.trans hb (seen_subset_of_visit hv)).2 ring h
      refine ih hpath' hmid (List.isChain_cons_cons.mpr ⟨?_, hchain⟩) hvisit
      exact (mem_importersOf_iff hg).mp hnext

/-! ## The whole search -/

theorem isRing_of_ring? (hg : g.files.Nodup) {ring : List String} (h : ring? g = some ring) :
    IsRing g ring := by
  unfold ring? at h
  simp only at h
  split at h
  · rename_i found hfound
    obtain rfl := Option.some.inj h
    obtain ⟨mid, file, _, hvisit⟩ := exists_of_foldlM_eq_error hfound
    exact visit_isRing hg .nil (List.nil_subset _) (.singleton file) hvisit
  · simp at h

/-- A graph in which no ring is found has no cycle. -/
theorem acyclic_of_ring? (hg : g.files.Nodup) (h : ring? g = none) (x : String) :
    ¬ TransGen g.Edge x x := by
  unfold ring? at h
  simp only at h
  split at h
  · simp at h
  · rename_i seen hseen
    have hstart : Finished g [] [] := ⟨List.nil_subset _, by simp, by simp⟩
    have horder : g.files ⊆ searchOrder g := fun _ hfile => mem_searchOrder_of_mem_files hfile
    have hstep : ∀ file ∈ searchOrder g, ∀ seen seen', Finished g [] seen →
        visit g ((searchOrder g).length + 1) [] seen file = .ok seen' →
        Searched g [] seen file seen' :=
      fun file hfile seen seen' hmid hv =>
        visit_searched hg horder .nil (List.nil_subset _) hfile (Nat.lt_succ_self _) hmid hv
    obtain ⟨hfinished, _, hall⟩ := foldlM_searched hstep hstart hseen
    intro hcycle
    obtain ⟨y, hstep, _⟩ := TransGen.head'_iff.mp hcycle
    have hx := hall x (horder (mem_files_of_edge hg hstep))
    exact hfinished.acyclic x hx.1 hx.2 hcycle

end AnnotatedShader.ImportGraph
