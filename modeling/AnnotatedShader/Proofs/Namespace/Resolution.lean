import AnnotatedShader.Proofs.Lists
import AnnotatedShader.Proofs.Namespace.Ending
import AnnotatedShader.Proofs.Namespace.Imports
import Mathlib

set_option autoImplicit false

/-!
# Resolution of imports

What the registered modules themselves say about their imports: which file imports from which, and
which imports name something that is declared.  A module from which no cycle is reached has its
imports resolved exactly when all of them name something that is declared; otherwise the first cycle
or the first import that names nothing is reported.

`Importing`, `Declared` and `ResolvesTo` are read off the modules, with no namespace in them, and
`Resolution` lists the three outcomes with what is reported in each.  The lemmas on registration
lead from the namespace to the modules, those on cycles from the search to paths.  The outcome is
determined by the modules (`Resolution.cycle_iff`).
-/

namespace AnnotatedShader

open ImportGraph (CyclePath Searches)

/-- An element is the first of a list with a property. -/
def IsFirst {α : Type} (p : α → Prop) (as : List α) (a : α) : Prop :=
  ∃ before after, as = before ++ a :: after ∧ p a ∧ ∀ b ∈ before, ¬ p b

theorem isFirst_of_find? {α : Type} {p : α → Prop} [DecidablePred p] {as : List α} {a : α}
    (h : as.find? (fun b => p b) = some a) : IsFirst p as a := by
  obtain ⟨hp, before, after, heq, hbefore⟩ := List.find?_eq_some_iff_append.mp h
  exact ⟨before, after, heq, by simpa using hp, fun b hb => by simpa using hbefore b hb⟩

namespace Module

/-- A file of some modules imports from another file. -/
def Importing (ms : List Module) (a b : String) : Prop :=
  ∃ m ∈ ms, m.file = a ∧ ∃ entry ∈ m.uses, entry.1.file = b

/-- The file that an import names declares its member itself. -/
def Declared (ms : List Module) (u : Use) : Prop :=
  ∃ m ∈ ms, m.file = u.file ∧ ∃ entry ∈ m.declarations, entry.1.name = u.member

/-- An import has the symbol of the first declaration of its member in the file that it names. -/
structure ResolvesTo (ms : List Module) (entry : Use × Position) (r : ResolvedImport) : Prop where
  use : r.use = entry.1
  position : r.position = entry.2
  file : r.target.file = entry.1.file
  declared : ∃ m ∈ ms, m.file = entry.1.file ∧
    IsFirst (fun d => d.1.name = entry.1.member) m.declarations
      (r.target.declaration, r.target.position)

/-- What becomes of the imports of a module. -/
inductive Resolution (ms : List Module) (m : Module) : Except Failure (List ResolvedImport) → Prop
  | cycle (path : List String) (u : Use) (position : Position)
    (hpath : CyclePath (Importing ms) m.file path)
    (hfirst : IsFirst (fun entry => path[1]? = some entry.1.file) m.uses (u, position)) :
    Resolution ms m (.error (.at_ m.file position (.importCycle path)))
  | undeclared (u : Use) (position : Position) (hacyclic : ¬ ReachesCycle (Importing ms) m.file)
    (hfirst : IsFirst (fun entry => ¬ Declared ms entry.1) m.uses (u, position)) :
    Resolution ms m (.error (.at_ m.file position (.unresolvedImport u.file u.member)))
  | resolved (imports : List ResolvedImport) (hacyclic : ¬ ReachesCycle (Importing ms) m.file)
    (hdeclared : ∀ entry ∈ m.uses, Declared ms entry.1)
    (himports : List.Forall₂ (ResolvesTo ms) m.uses imports) : Resolution ms m (.ok imports)

end Module

namespace Namespace

theorem imports_ofModules_iff {ms : List Module} {a b : String} :
    (ofModules ms).Imports a b ↔ Module.Importing ms a b := by
  simp only [Imports, usesOf_ofModules, modulesOf, List.mem_flatMap, List.mem_filter, beq_iff_eq,
    Module.Importing]
  constructor
  · rintro ⟨entry, ⟨m, ⟨hm, hfile⟩, hentry⟩, rfl⟩
    exact ⟨m, hm, hfile, entry, hentry, rfl⟩
  · rintro ⟨m, hm, hfile, entry, hentry, rfl⟩
    exact ⟨entry, ⟨m, ⟨hm, hfile⟩, hentry⟩, rfl⟩

/-- A name that no module of a file declares is not found. -/
theorem lookup_ofModules_eq_none_iff {ms : List Module} {u : Use} :
    (ofModules ms).lookup u.file u.member = none ↔ ¬ Module.Declared ms u := by
  rw [lookup_ofModules, List.find?_eq_none]
  simp only [modulesOf, Module.symbols, List.mem_flatMap, List.mem_filter, List.mem_map, beq_iff_eq,
    Module.Declared]
  constructor
  · rintro h ⟨m, hm, hfile, ⟨d, p⟩, hd, hname⟩
    exact h ⟨m.file, p, d⟩ ⟨m, ⟨hm, hfile⟩, (d, p), hd, rfl⟩ hname
  · rintro h _ ⟨m, ⟨hm, hfile⟩, ⟨d, p⟩, hd, rfl⟩ hname
    exact h ⟨m, hm, hfile, (d, p), hd, hname⟩

end Namespace

namespace Module

section Distinct

variable {ms : List Module} (hfiles : (ms.map Module.file).Nodup)

include hfiles

theorem modulesOf_eq_singleton {m : Module} (hm : m ∈ ms) : modulesOf ms m.file = [m] := by
  rw [← filter_key_eq_singleton hfiles hm, modulesOf]
  simp only [beq_eq_decide]

/-- What an import finds is the first declaration of its member. -/
theorem resolvesTo_of_resolves {entry : Use × Position} {r : ResolvedImport}
    (h : Resolves (Namespace.ofModules ms) entry r) : ResolvesTo ms entry r := by
  obtain ⟨hfile, _, m, hm, hmfile, _⟩ := Namespace.lookup_ofModules_eq_some h.lookup
  refine ⟨h.use, h.position, hfile, m, hm, hmfile, ?_⟩
  have hfind := h.lookup
  rw [Namespace.lookup_ofModules, ← hmfile, modulesOf_eq_singleton hfiles hm,
    List.flatMap_singleton, symbols, List.find?_map, Option.map_eq_some_iff] at hfind
  obtain ⟨⟨d, p⟩, hfind, heq⟩ := hfind
  rw [← heq]
  exact isFirst_of_find? (p := fun d : Declaration × Position => d.1.name = entry.1.member)
    (by simpa [Function.comp_def, Symbol.name, beq_eq_decide] using hfind)

/-- Imports are looked up until one of them names nothing. -/
theorem lookupUses_spec (file : String) (uses : List (Use × Position)) :
    (∃ u position, IsFirst (fun entry => ¬ Declared ms entry.1) uses (u, position) ∧
      lookupUses file (Namespace.ofModules ms) uses =
        .error (.at_ file position (.unresolvedImport u.file u.member))) ∨
    ∃ imports, (∀ entry ∈ uses, Declared ms entry.1) ∧
      List.Forall₂ (ResolvesTo ms) uses imports ∧
      lookupUses file (Namespace.ofModules ms) uses = .ok imports := by
  induction uses with
  | nil => exact .inr ⟨[], by simp, .nil, rfl⟩
  | cons entry rest ih =>
    obtain ⟨u, position⟩ := entry
    rw [lookupUses]
    cases hlookup : (Namespace.ofModules ms).lookup u.file u.member with
    | none =>
      have hu := Namespace.lookup_ofModules_eq_none_iff.mp hlookup
      exact .inl ⟨u, position, ⟨[], rest, rfl, hu, by simp⟩, rfl⟩
    | some s =>
      have hu : Declared ms u := by
        by_contra hu
        simp [Namespace.lookup_ofModules_eq_none_iff.mpr hu] at hlookup
      rcases ih with ⟨u', position', ⟨before, after, heq, hu', hbefore⟩, herror⟩ |
        ⟨imports, hdeclared, himports, hok⟩
      · refine .inl ⟨u', position', ⟨(u, position) :: before, after, by rw [heq]; rfl, hu', ?_⟩, ?_⟩
        · simpa [hu] using hbefore
        · simp only [herror, bind, Except.bind]
      · refine .inr ⟨⟨u, position, s⟩ :: imports, by simpa [hu] using hdeclared,
          .cons ?_ himports, ?_⟩
        · exact resolvesTo_of_resolves hfiles ⟨rfl, rfl, hlookup⟩
        · simp only [hok, bind, Except.bind]

end Distinct

/-- A path into a cycle is reported at the first import that goes its way. -/
theorem cycleFailure_of_cyclePath {ms : List Module} {m : Module} {path : List String}
    (huses : ∀ b, Importing ms m.file b → ∃ entry ∈ m.uses, entry.1.file = b)
    (h : CyclePath (Importing ms) m.file path) :
    ∃ u position, IsFirst (fun entry => path[1]? = some entry.1.file) m.uses (u, position) ∧
      m.cycleFailure path = .at_ m.file position (.importCycle path) := by
  obtain ⟨last, hlast, _⟩ := h.back
  have hhead := h.head
  have hchain := h.chain
  match path with
  | [] => simp at hhead
  | [_] => simp at hlast
  | first :: next :: rest =>
    obtain rfl := Option.some.inj hhead
    obtain ⟨entry, hentry, hnext⟩ := huses next (List.isChain_cons_cons.mp hchain).1
    have hfound : (m.uses.find? fun entry => entry.1.file == next).isSome :=
      List.find?_isSome.mpr ⟨entry, hentry, by simpa using hnext⟩
    obtain ⟨⟨u, position⟩, hfind⟩ := Option.isSome_iff_exists.mp hfound
    refine ⟨u, position, ?_, by simp [cycleFailure, hfind]⟩
    have hfirst := isFirst_of_find? (p := fun entry : Use × Position => entry.1.file = next)
      (by simpa [beq_eq_decide] using hfind)
    simpa [eq_comm] using hfirst

/-! ## The outcome -/

/-- Which files reach a cycle, and along which path, is found by a search that ends. -/
theorem dependencyCycle?_ofModules (ms : List Module) (file : String) :
    Searches (Namespace.ofModules ms).importGraph file
        ((Namespace.ofModules ms).dependencyCycle? file) ∧
      (((Namespace.ofModules ms).dependencyCycle? file).isSome ↔
        ReachesCycle (Importing ms) file) ∧
      ∀ path, (Namespace.ofModules ms).dependencyCycle? file = some path →
        CyclePath (Importing ms) file path := by
  have hns := Namespace.nodup_files_ofModules ms
  have himports : (Namespace.ofModules ms).Imports = Importing ms := by
    funext a b
    exact propext Namespace.imports_ofModules_iff
  refine ⟨?_, ?_, ?_⟩
  · exact ImportGraph.searches_cycleFrom? (Namespace.files_importGraph _ ▸ hns) file
  · rw [Namespace.dependencyCycle?_isSome_iff hns, himports]
  · intro path hpath
    have hspec := Namespace.dependencyCycle?_spec hns file
    rwa [hpath, himports] at hspec

theorem resolution_of_mem {ms : List Module} (hfiles : (ms.map Module.file).Nodup) {m : Module}
    (hm : m ∈ ms) : Resolution ms m (m.resolveImports (Namespace.ofModules ms)) := by
  obtain ⟨_, hcycle, hpath⟩ := dependencyCycle?_ofModules ms m.file
  unfold resolveImports
  cases hfound : (Namespace.ofModules ms).dependencyCycle? m.file with
  | some path =>
    have huses : ∀ b, Importing ms m.file b → ∃ entry ∈ m.uses, entry.1.file = b := by
      rintro b ⟨m', hm', hfile, hentry⟩
      obtain rfl := List.inj_on_of_nodup_map hfiles hm' hm hfile
      exact hentry
    obtain ⟨u, position, hfirst, heq⟩ := cycleFailure_of_cyclePath huses (hpath path hfound)
    simp only [heq]
    exact .cycle path u position (hpath path hfound) hfirst
  | none =>
    have hacyclic : ¬ ReachesCycle (Importing ms) m.file := by
      rw [← hcycle, hfound]
      simp
    rcases lookupUses_spec hfiles m.file m.uses with ⟨u, position, hfirst, herror⟩ |
      ⟨imports, hdeclared, himports, hok⟩
    · simp only [herror]
      exact .undeclared u position hacyclic hfirst
    · simp only [hok]
      exact .resolved imports hacyclic hdeclared himports

/-- A cycle is reported of a module exactly when it reaches one. -/
theorem Resolution.cycle_iff {ms : List Module} {m : Module}
    {outcome : Except Failure (List ResolvedImport)} (h : Resolution ms m outcome) :
    (∃ position path, outcome = .error (.at_ m.file position (.importCycle path))) ↔
      ReachesCycle (Importing ms) m.file := by
  cases h with
  | cycle path u position hpath =>
    exact ⟨fun _ => hpath.reachesCycle, fun _ => ⟨position, path, rfl⟩⟩
  | undeclared u position hacyclic =>
    refine ⟨?_, fun hcycle => absurd hcycle hacyclic⟩
    rintro ⟨_, _, heq⟩
    simp [Failure.at_] at heq
  | resolved imports hacyclic =>
    refine ⟨?_, fun hcycle => absurd hcycle hacyclic⟩
    rintro ⟨_, _, heq⟩
    simp at heq

/-- A module that imports nothing has its imports resolved. -/
theorem resolveImports_of_uses_eq_nil {ms : List Module} (hfiles : (ms.map Module.file).Nodup)
    {m : Module} (hm : m ∈ ms) (huses : m.uses = []) :
    m.resolveImports (Namespace.ofModules ms) = .ok [] := by
  have hresolution := resolution_of_mem hfiles hm
  generalize m.resolveImports (Namespace.ofModules ms) = outcome at hresolution
  have hnone :
      ∀ {P : Use × Position → Prop} {entry : Use × Position}, ¬ IsFirst P m.uses entry := by
    rintro P entry ⟨before, after, hsplit, _⟩
    simp [huses] at hsplit
  cases hresolution with
  | cycle _ _ _ _ hfirst => exact absurd hfirst hnone
  | undeclared _ _ _ hfirst => exact absurd hfirst hnone
  | resolved imports _ _ himports =>
    rw [huses, List.forall₂_nil_left_iff] at himports
    rw [himports]

/-- Cycles are found wherever they are reached, by a search that ends, and what is reported is a
path of imports into one.  In a batch whose files have distinct names, the imports of a module fail
with a cycle exactly when one is reached, otherwise with the first import that names nothing
declared, and otherwise each of them gets its symbol. -/
theorem resolveImports_spec (ms : List Module) :
    (∀ file, Searches (Namespace.ofModules ms).importGraph file
        ((Namespace.ofModules ms).dependencyCycle? file) ∧
      (((Namespace.ofModules ms).dependencyCycle? file).isSome ↔
        ReachesCycle (Importing ms) file) ∧
      ∀ path, (Namespace.ofModules ms).dependencyCycle? file = some path →
        CyclePath (Importing ms) file path) ∧
    ((ms.map Module.file).Nodup → ∀ m ∈ ms,
      ((∃ position path, m.resolveImports (Namespace.ofModules ms) =
          .error (.at_ m.file position (.importCycle path))) ↔
        ReachesCycle (Importing ms) m.file) ∧
      Resolution ms m (m.resolveImports (Namespace.ofModules ms))) := by
  refine ⟨dependencyCycle?_ofModules ms, ?_⟩
  intro hfiles m hm
  have hresolution := resolution_of_mem hfiles hm
  exact ⟨hresolution.cycle_iff, hresolution⟩

/-- A module with an import of a member of another file. -/
def importing (file target member : String) : Module :=
  ⟨file, [⟨.start, .use ⟨target, member, none⟩⟩]⟩

/-- Two files that import from each other, and a third one that imports from the first of them. -/
def entangled : List Module :=
  [importing "Left" "Right" "Glow", importing "Right" "Left" "Haze",
    importing "Front" "Right" "Glow"]

theorem resolveImports_spec_entangled :
    (entangled.map Module.file).Nodup ∧ importing "Front" "Right" "Glow" ∈ entangled ∧
      (importing "Front" "Right" "Glow").resolveImports (Namespace.ofModules entangled) =
        .error (.at_ "Front" .start (.importCycle ["Front", "Right", "Left", "Right"])) ∧
      ReachesCycle (Importing entangled) "Front" ∧
      Resolution entangled (importing "Front" "Right" "Glow")
        ((importing "Front" "Right" "Glow").resolveImports (Namespace.ofModules entangled)) := by
  have hfiles : (entangled.map Module.file).Nodup := by decide
  have hmem : importing "Front" "Right" "Glow" ∈ entangled := by decide
  have hpath : (importing "Front" "Right" "Glow").resolveImports (Namespace.ofModules entangled) =
      .error (.at_ "Front" .start (.importCycle ["Front", "Right", "Left", "Right"])) := by cbv
  obtain ⟨hcycle, hresolution⟩ := (resolveImports_spec entangled).2 hfiles _ hmem
  exact ⟨hfiles, hmem, hpath, hcycle.mp ⟨_, _, hpath⟩, hresolution⟩

end Module

end AnnotatedShader
