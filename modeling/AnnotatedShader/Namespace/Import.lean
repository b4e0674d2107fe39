import AnnotatedShader.Failure
import AnnotatedShader.Namespace.Cycle

set_option autoImplicit false

/-!
# Resolved imports

The imports of a module are looked up in the files they name; an import cannot pass on what its file
has imported itself.  A module from which a cycle can be reached has no resolved imports.

A `ResolvedImport` is a `use` statement with the symbol it refers to.  The first import that is not
found is reported, at its place.
-/

namespace AnnotatedShader

/-- An import with the symbol that it refers to. -/
structure ResolvedImport where
  use : Use
  position : Position
  target : Symbol
  deriving DecidableEq, Repr, Inhabited

namespace Module

/-- Looks imports up, one after the other. -/
def lookupUses (file : String) (ns : Namespace) :
    List (Use × Position) → Except Failure (List ResolvedImport)
  | [] => .ok []
  | (u, position) :: rest =>
    match ns.lookup u.file u.member with
    | none => .error (.at_ file position (.unresolvedImport u.file u.member))
    | some s => do
      let others ← lookupUses file ns rest
      .ok (⟨u, position, s⟩ :: others)

/-- The failure for a module from which a cycle is reached: it is reported at the first import of
the file that the path goes to. -/
def cycleFailure (m : Module) (path : List String) : Failure :=
  match path[1]? with
  | none => .cycleWithoutUse
  | some next =>
    match m.uses.find? (·.1.file == next) with
    | none => .cycleWithoutUse
    | some (_, position) => .at_ m.file position (.importCycle path)

/-- The resolved imports of a module, in order. -/
def resolveImports (m : Module) (ns : Namespace) : Except Failure (List ResolvedImport) :=
  match ns.dependencyCycle? m.file with
  | some path => .error (m.cycleFailure path)
  | none => lookupUses m.file ns m.uses

end Module

end AnnotatedShader
