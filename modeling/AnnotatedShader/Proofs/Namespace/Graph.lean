import AnnotatedShader.Namespace.Cycle
import AnnotatedShader.Proofs.Lists
import AnnotatedShader.Proofs.Namespace.Lookup
import Mathlib.Data.List.Induction
import Mathlib.Data.List.Nodup

set_option autoImplicit false

/-!
# Edges of import graphs

The edges of a graph whose files are distinct, and what is left of them when the graph is restricted
to its files or loses some of them.

Graphs are lists of files with the files that they import, as the search keeps them.  `Edge` is the
relation that theorems speak of, and every operation of the search on a list has a lemma in terms of
it: the importers of a file, the restriction to known files, the removal of a ring.  The last
section has the graph of a namespace, whose edges are the imports that its files state
(`edge_importGraph_iff`).
-/

namespace AnnotatedShader

theorem mem_sortedUnique {names : List String} {name : String} :
    name ∈ sortedUnique names ↔ name ∈ names := by
  rw [sortedUnique, List.mem_mergeSort, List.mem_eraseDups]

theorem nodup_eraseDups (names : List String) : names.eraseDups.Nodup := by
  induction names using List.reverseRecOn with
  | nil => simp
  | append_singleton before name ih =>
    rw [List.eraseDups_append]
    by_cases hmem : name ∈ before
    · simpa [List.removeAll, hmem] using ih
    · have hfresh : ∀ other ∈ before, other ≠ name :=
        fun other hother heq => hmem (heq ▸ hother)
      simpa [List.removeAll, hmem, List.nodup_append, ih, List.eraseDups_cons] using hfresh

theorem nodup_sortedUnique (names : List String) : (sortedUnique names).Nodup :=
  (List.mergeSort_perm ..).nodup_iff.mpr (nodup_eraseDups names)

namespace ImportGraph

/-- A file imports from another one. -/
def Edge (g : ImportGraph) (a b : String) : Prop := b ∈ g.importsOf a

/-- The files of a graph. -/
def files (g : ImportGraph) : List String := g.map Prod.fst

variable {g : ImportGraph} {a b : String}

theorem edge_iff (hg : g.files.Nodup) : g.Edge a b ↔ ∃ deps, (a, deps) ∈ g ∧ b ∈ deps := by
  simp only [← lookup_eq_some_iff_of_nodup hg, Edge, importsOf]
  cases hlookup : g.lookup a with
  | none => simp
  | some deps => simp

theorem mem_importersOf_iff (hg : g.files.Nodup) : a ∈ g.importersOf b ↔ g.Edge a b := by
  rw [edge_iff hg, importersOf, List.mem_map]
  constructor
  · rintro ⟨⟨_, deps⟩, hentry, rfl⟩
    obtain ⟨hmem, hcontains⟩ := List.mem_filter.mp hentry
    exact ⟨deps, hmem, List.contains_iff_mem.mp hcontains⟩
  · rintro ⟨deps, hmem, hb⟩
    exact ⟨(a, deps), List.mem_filter.mpr ⟨hmem, List.contains_iff_mem.mpr hb⟩, rfl⟩

theorem mem_files_of_edge (hg : g.files.Nodup) (h : g.Edge a b) : a ∈ g.files := by
  obtain ⟨deps, hmem, _⟩ := (edge_iff hg).mp h
  exact List.mem_map.mpr ⟨(a, deps), hmem, rfl⟩

/-! ## Smaller graphs -/

theorem files_restrict (g : ImportGraph) : g.restrict.files = g.files := by
  simp [files, restrict, Function.comp_def]

theorem edge_restrict_iff (hg : g.files.Nodup) :
    g.restrict.Edge a b ↔ g.Edge a b ∧ b ∈ g.files := by
  rw [edge_iff (files_restrict g ▸ hg), edge_iff hg]
  constructor
  · rintro ⟨_, hmem, hb⟩
    obtain ⟨⟨a', deps⟩, hentry, heq⟩ := List.mem_map.mp hmem
    obtain ⟨rfl, rfl⟩ := Prod.mk.inj heq
    obtain ⟨hb, hfile⟩ := List.mem_filter.mp hb
    exact ⟨⟨deps, hentry, hb⟩, List.contains_iff_mem.mp hfile⟩
  · rintro ⟨⟨deps, hentry, hb⟩, hfile⟩
    refine ⟨_, List.mem_map.mpr ⟨(a, deps), hentry, rfl⟩, ?_⟩
    exact List.mem_filter.mpr ⟨hb, List.contains_iff_mem.mpr hfile⟩

theorem files_without (g : ImportGraph) (gone : List String) :
    (g.without gone).files = g.files.filter fun file => !gone.contains file := by
  simp [files, without, Function.comp_def, List.filter_map]

theorem nodup_files_without (hg : g.files.Nodup) (gone : List String) :
    (g.without gone).files.Nodup := by
  rw [files_without]
  exact hg.filter _

theorem edge_without_iff (hg : g.files.Nodup) {gone : List String} :
    (g.without gone).Edge a b ↔ g.Edge a b ∧ a ∉ gone ∧ b ∉ gone := by
  rw [edge_iff (nodup_files_without hg gone), edge_iff hg]
  constructor
  · rintro ⟨_, hmem, hb⟩
    obtain ⟨⟨a', deps⟩, hentry, heq⟩ := List.mem_map.mp hmem
    obtain ⟨rfl, rfl⟩ := Prod.mk.inj heq
    obtain ⟨hentry, ha⟩ := List.mem_filter.mp hentry
    obtain ⟨hb, hstays⟩ := List.mem_filter.mp hb
    exact ⟨⟨deps, hentry, hb⟩, by simpa using ha, by simpa using hstays⟩
  · rintro ⟨⟨deps, hentry, hb⟩, ha, hstays⟩
    have hentry : (a, deps) ∈ g.filter fun entry => !gone.contains entry.1 :=
      List.mem_filter.mpr ⟨hentry, by simpa using ha⟩
    refine ⟨_, List.mem_map.mpr ⟨(a, deps), hentry, rfl⟩, ?_⟩
    exact List.mem_filter.mpr ⟨hb, by simpa using hstays⟩

theorem mem_searchOrder_of_mem_files {file : String} (h : file ∈ g.files) :
    file ∈ searchOrder g := by
  obtain ⟨⟨_, deps⟩, hentry, rfl⟩ := List.mem_map.mp h
  rw [searchOrder, List.mem_eraseDups]
  exact List.mem_flatMap.mpr ⟨_, hentry, List.mem_cons_self⟩

end ImportGraph

/-! ## The graph of a namespace -/

namespace Namespace

/-- A file of a namespace imports from another one. -/
def Imports (ns : Namespace) (a b : String) : Prop := ∃ entry ∈ ns.usesOf a, entry.1.file = b

theorem files_importGraph (ns : Namespace) : ns.importGraph.files = ns.files := by
  simp [ImportGraph.files, importGraph, files, Function.comp_def]

theorem edge_importGraph_iff {ns : Namespace} {a b : String} :
    ns.importGraph.Edge a b ↔ ns.Imports a b := by
  have hlookup : ns.importGraph.lookup a =
      (ns.scope? a).map fun s => sortedUnique (s.uses.map fun entry => entry.1.file) := by
    rw [importGraph, scope?]
    induction ns.scopes with
    | nil => rfl
    | cons s rest ih =>
      rw [List.map_cons, List.lookup_cons, List.find?_cons]
      by_cases hfile : s.file = a
      · simp [hfile]
      · rw [beq_eq_false_iff_ne.mpr hfile, beq_eq_false_iff_ne.mpr (Ne.symm hfile)]
        exact ih
  rw [ImportGraph.Edge, ImportGraph.importsOf, hlookup, Imports, usesOf]
  cases ns.scope? a with
  | none => simp
  | some s => simp [mem_sortedUnique]

theorem files_register (ns : Namespace) (m : Module) :
    (ns.register m).files = if m.file ∈ ns.files then ns.files else ns.files ++ [m.file] := by
  unfold register
  have hsame : ∀ s : FileScope, (if s.file == m.file then s.addModule m else s).file = s.file := by
    intro s
    split <;> rfl
  by_cases hknown : m.file ∈ ns.files
  · rw [if_pos (List.contains_iff_mem.mpr hknown), if_pos hknown]
    rw [files, files, List.map_map]
    exact List.map_congr_left fun s _ => hsame s
  · rw [if_neg (fun h => hknown (List.contains_iff_mem.mp h)), if_neg hknown]
    simp [files, FileScope.addModule]

/-- No file has two scopes. -/
theorem nodup_files_ofModules (ms : List Module) : (ofModules ms).files.Nodup := by
  have hfold : ∀ ns : Namespace, ns.files.Nodup → (ms.foldl register ns).files.Nodup := by
    induction ms with
    | nil => exact fun _ h => h
    | cons m rest ih =>
      intro ns hns
      rw [List.foldl_cons]
      apply ih _
      rw [files_register]
      split
      · exact hns
      · rename_i hnew
        rw [List.nodup_append]
        refine ⟨hns, by simp, ?_⟩
        intro file hfile other hother heq
        rw [List.mem_singleton] at hother
        exact hnew (hother ▸ heq ▸ hfile)
  exact hfold empty (by simp [files, empty])

end Namespace

end AnnotatedShader
