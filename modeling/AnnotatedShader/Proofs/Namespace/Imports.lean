import AnnotatedShader.Namespace.Import
import AnnotatedShader.Proofs.Except
import AnnotatedShader.Proofs.Lists
import AnnotatedShader.Proofs.Namespace.Lookup

set_option autoImplicit false

/-!
# Resolved imports

Every import of a module is resolved to the symbol that its file exports.

`Resolves` is what a resolved import says: its statement, and the symbol under the name of the
member in the file that is imported from.  `resolveImports_eq_ok` has it for all imports of a
module, one for each use statement and in their order, and that the file reaches no cycle.  This is
all that the build of a model is told of imports.
-/

namespace AnnotatedShader

/-- An import is resolved by what the named file exports. -/
structure Resolves (ns : Namespace) (entry : Use × Position) (r : ResolvedImport) : Prop where
  use : r.use = entry.1
  position : r.position = entry.2
  lookup : ns.lookup entry.1.file entry.1.member = some r.target

namespace Module

theorem lookupUses_eq_ok {file : String} {ns : Namespace} {uses : List (Use × Position)}
    {imports : List ResolvedImport} (h : lookupUses file ns uses = .ok imports) :
    List.Forall₂ (Resolves ns) uses imports := by
  induction uses generalizing imports with
  | nil =>
    obtain rfl := Except.ok.inj h
    exact .nil
  | cons entry rest ih =>
    obtain ⟨u, position⟩ := entry
    unfold lookupUses at h
    split at h
    · simp [Failure.at_] at h
    · rename_i s hlookup
      rw [bind_eq_ok_iff] at h
      obtain ⟨others, hothers, h⟩ := h
      obtain rfl := Except.ok.inj h
      exact .cons ⟨rfl, rfl, hlookup⟩ (ih hothers)

/-- The imports of a module are resolved one by one. -/
theorem resolveImports_eq_ok {m : Module} {ns : Namespace} {imports : List ResolvedImport}
    (h : m.resolveImports ns = .ok imports) :
    ns.dependencyCycle? m.file = none ∧ List.Forall₂ (Resolves ns) m.uses imports := by
  unfold resolveImports at h
  split at h
  · simp at h
  · rename_i hcycle
    exact ⟨hcycle, lookupUses_eq_ok h⟩

theorem mem_uses {m : Module} {s : Statement} {u : Use} (hs : s ∈ m.statements)
    (hbody : s.body = .use u) : (u, s.position) ∈ m.uses :=
  List.mem_filterMap.mpr ⟨s, hs, by rw [hbody]⟩

theorem mem_declarations {m : Module} {s : Statement} {d : Declaration} (hs : s ∈ m.statements)
    (hbody : s.body = .declare d) : (d, s.position) ∈ m.declarations :=
  List.mem_filterMap.mpr ⟨s, hs, by rw [hbody]⟩

theorem mem_statements_of_mem_declarations {m : Module} {d : Declaration} {p : Position}
    (h : (d, p) ∈ m.declarations) : ⟨p, .declare d⟩ ∈ m.statements := by
  obtain ⟨⟨q, body⟩, hs, hbody⟩ := List.mem_filterMap.mp h
  cases body with
  | declare d' =>
    obtain ⟨rfl, rfl⟩ := Prod.mk.inj (Option.some.inj hbody)
    exact hs
  | use | comment => contradiction

/-- The names of declarations are among the names of statements. -/
theorem declarations_names_sublist (m : Module) :
    (m.declarations.map fun entry => entry.1.name).Sublist
      (m.statements.filterMap Statement.name?) := by
  unfold declarations
  induction m.statements with
  | nil => exact .slnil
  | cons s rest ih =>
    cases hbody : s.body with
    | use u => simpa [hbody, Statement.name?] using ih.cons u.name
    | declare d => simpa [hbody, Statement.name?] using ih
    | comment text => simpa [hbody, Statement.name?] using ih

end Module

namespace Namespace

/-- What a name means in a file is exported by the file of the symbol. -/
theorem lookup_of_resolveName {ms : List Module} {file name : String} {s : Symbol}
    (h : (ofModules ms).resolveName file name = some s) :
    (ofModules ms).lookup s.file s.name = some s := by
  have hself : ∀ {file name : String}, (ofModules ms).lookup file name = some s →
      (ofModules ms).lookup s.file s.name = some s := by
    intro file name hlookup
    obtain ⟨hfile, hname, _⟩ := lookup_ofModules_eq_some hlookup
    rwa [hfile, hname]
  unfold resolveName at h
  split at h
  · rename_i found hfound
    obtain rfl := Option.some.inj h
    exact hself hfound
  · split at h
    · exact hself h
    · simp at h

end Namespace

end AnnotatedShader
