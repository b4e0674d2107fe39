import AnnotatedShader.Proofs.Namespace.Cycle
import AnnotatedShader.Proofs.Namespace.Imports

set_option autoImplicit false

/-!
# Namespaces alike in a region

Two namespaces that say the same about a region of files, out of which no import leads, resolve
names and imports of these files in the same way.  Only the cycles that they report may be different
ones.

A region is given by a predicate on files, and `Alike` compares exports, imports and the order of
registration inside it.  Whether a file of the region reaches a cycle is the same in both
(`reachesCycle_iff`), since the search goes along imports and does not leave the region.  Which
cycle is found first depends on the order of all files, so a failure for a cycle is only compared as
such (`IsCycleFailure`).
-/

namespace AnnotatedShader

open ImportGraph (CyclePath)

/-- Two namespaces say the same about the files of a region that imports do not leave. -/
structure Alike (P : String → Prop) (ns ns' : Namespace) : Prop where
  lookup : ∀ file, P file → ∀ name, ns.lookup file name = ns'.lookup file name
  usesOf : ∀ file, P file → ns.usesOf file = ns'.usesOf file
  closed : ∀ file, P file → ∀ entry ∈ ns.usesOf file, P entry.1.file
  origin : ∀ file, P file → ∀ name s, ns.lookup file name = some s → s.file = file

namespace Alike

variable {P : String → Prop} {ns ns' : Namespace} (h : Alike P ns ns')

include h

theorem symm : Alike P ns' ns where
  lookup file hfile name := (h.lookup file hfile name).symm
  usesOf file hfile := (h.usesOf file hfile).symm
  closed file hfile entry hentry := h.closed file hfile entry (h.usesOf file hfile ▸ hentry)
  origin file hfile name s hs := h.origin file hfile name s (h.lookup file hfile name ▸ hs)

theorem resolveName {file : String} (hfile : P file) (name : String) :
    ns.resolveName file name = ns'.resolveName file name := by
  unfold Namespace.resolveName
  rw [← h.lookup file hfile name, ← h.usesOf file hfile]
  cases ns.lookup file name with
  | some s => rfl
  | none =>
    cases huse : (ns.usesOf file).find? (·.1.name == name) with
    | none => rfl
    | some entry =>
      have hentry := h.closed file hfile entry (List.mem_of_find?_eq_some huse)
      exact h.lookup entry.1.file hentry entry.1.member

/-- What a name means in the region is declared in the region. -/
theorem file_of_resolveName {file name : String} (hfile : P file) {s : Symbol}
    (hs : ns.resolveName file name = some s) : P s.file := by
  unfold Namespace.resolveName at hs
  split at hs
  · rename_i found hfound
    obtain rfl := Option.some.inj hs
    rwa [h.origin file hfile name found hfound]
  · split at hs
    · rename_i u position huse
      have hentry := h.closed file hfile (u, position) (List.mem_of_find?_eq_some huse)
      rwa [h.origin u.file hentry u.member s hs]
    · simp at hs

theorem imports_keepsRegion : KeepsRegion P ns.Imports ns'.Imports := by
  rintro a b ha ⟨entry, hentry, rfl⟩
  exact ⟨⟨entry, h.usesOf a ha ▸ hentry, rfl⟩, h.closed a ha entry hentry⟩

theorem reachesCycle_iff {file : String} (hfile : P file) :
    ReachesCycle ns.Imports file ↔ ReachesCycle ns'.Imports file :=
  ⟨reachesCycle_of_keepsRegion h.imports_keepsRegion hfile,
    reachesCycle_of_keepsRegion h.symm.imports_keepsRegion hfile⟩

theorem lookupUses {file : String} {uses : List (Use × Position)}
    (huses : ∀ entry ∈ uses, P entry.1.file) :
    Module.lookupUses file ns uses = Module.lookupUses file ns' uses := by
  induction uses with
  | nil => rfl
  | cons entry rest ih =>
    obtain ⟨u, position⟩ := entry
    have hu := huses (u, position) List.mem_cons_self
    have hrest := ih fun entry hentry => huses entry (List.mem_cons_of_mem _ hentry)
    rw [Module.lookupUses, Module.lookupUses, ← h.lookup u.file hu u.member, hrest]

end Alike

/-! ## Failures for cycles -/

/-- A failure for a cycle, reported in a file. -/
def IsCycleFailure (file : String) (failure : Failure) : Prop :=
  ∃ position path, failure = .at_ file position (.importCycle path)

/-- The path to a cycle starts with an import of the file. -/
theorem isCycleFailure_of_cyclePath {ns : Namespace} {m : Module} {path : List String}
    (huses : ∀ entry ∈ ns.usesOf m.file, entry ∈ m.uses) (h : CyclePath ns.Imports m.file path) :
    IsCycleFailure m.file (m.cycleFailure path) := by
  obtain ⟨last, hlast, hend⟩ := h.back
  have hhead := h.head
  have hchain := h.chain
  match path with
  | [] => simp at hhead
  | [_] => simp at hlast
  | first :: next :: rest =>
    obtain rfl := Option.some.inj hhead
    obtain ⟨⟨entry, hentry, hnext⟩, _⟩ := List.isChain_cons_cons.mp hchain
    have hfound : (m.uses.find? fun entry => entry.1.file == next).isSome := by
      rw [List.find?_isSome]
      exact ⟨entry, huses entry hentry, by simpa using hnext⟩
    obtain ⟨⟨u, position⟩, hfind⟩ := Option.isSome_iff_exists.mp hfound
    refine ⟨position, m.file :: next :: rest, ?_⟩
    simp [Module.cycleFailure, hfind]

section Imports

variable {P : String → Prop} {ns ns' : Namespace} (h : Alike P ns ns') (hns : ns.files.Nodup)
  (hns' : ns'.files.Nodup) {m : Module} (hm : P m.file)
  (huses : ∀ entry, entry ∈ m.uses ↔ entry ∈ ns.usesOf m.file)

include h hns hns' hm huses

/-- Imports that reach no cycle are resolved alike. -/
theorem Alike.resolveImports_eq (hacyclic : ns.dependencyCycle? m.file = none) :
    m.resolveImports ns = m.resolveImports ns' := by
  have hspec := Namespace.dependencyCycle?_spec hns m.file
  have hspec' := Namespace.dependencyCycle?_spec hns' m.file
  rw [hacyclic] at hspec
  unfold Module.resolveImports
  rw [hacyclic]
  cases hcycle' : ns'.dependencyCycle? m.file with
  | some path' =>
    rw [hcycle'] at hspec'
    exact absurd ((h.reachesCycle_iff hm).mpr hspec'.reachesCycle) hspec
  | none =>
    refine h.lookupUses ?_
    intro entry hentry
    exact h.closed m.file hm entry ((huses entry).mp hentry)

/-- Imports are resolved alike, or both namespaces report a cycle. -/
theorem Alike.resolveImports :
    m.resolveImports ns = m.resolveImports ns' ∨
      ∃ e e', m.resolveImports ns = .error e ∧ m.resolveImports ns' = .error e' ∧
        IsCycleFailure m.file e ∧ IsCycleFailure m.file e' := by
  cases hcycle : ns.dependencyCycle? m.file with
  | none => exact .inl (h.resolveImports_eq hns hns' hm huses hcycle)
  | some path =>
    have hspec := Namespace.dependencyCycle?_spec hns m.file
    have hspec' := Namespace.dependencyCycle?_spec hns' m.file
    rw [hcycle] at hspec
    unfold Module.resolveImports
    rw [hcycle]
    cases hcycle' : ns'.dependencyCycle? m.file with
    | some path' =>
      rw [hcycle'] at hspec'
      refine .inr ⟨_, _, rfl, rfl, isCycleFailure_of_cyclePath (fun e => (huses e).mpr) hspec,
        isCycleFailure_of_cyclePath (fun e he => (huses e).mpr ?_) hspec'⟩
      rwa [h.usesOf m.file hm]
    | none =>
      rw [hcycle'] at hspec'
      exact absurd ((h.reachesCycle_iff hm).mp hspec.reachesCycle) hspec'

end Imports

end AnnotatedShader
