import AnnotatedShader.Statement.Basic

set_option autoImplicit false

/-!
# Namespaces

The files of a batch see each other's declarations through one namespace.  A file exports what it
declares under the first declaration of each name, and imports by `use` statements.  A file that is
registered twice adds to what it had.

Look-ups are made in one scope: a name is resolved in the file where it is written, first among the
declarations of the file and then among its imports.  An import is a step to another file and to the
declaration there, never to an import of that file.  `Registry` is a namespace that can be closed,
after which nothing more is registered.
-/

namespace AnnotatedShader

/-- An exported declaration. -/
structure Symbol where
  file : String
  position : Position
  declaration : Declaration
  deriving DecidableEq, Repr, Inhabited

/-- The name of a symbol. -/
def Symbol.name (s : Symbol) : String := s.declaration.name

/-- What a file exports and imports. -/
structure FileScope where
  file : String
  exports : List Symbol
  uses : List (Use × Position)
  deriving DecidableEq, Repr, Inhabited

namespace FileScope

/-- Adds a symbol, unless its name is exported already. -/
def addSymbol (exports : List Symbol) (s : Symbol) : List Symbol :=
  if exports.any (·.name == s.name) then exports else exports ++ [s]

/-- Adds the statements of a module. -/
def addModule (scope : FileScope) (m : Module) : FileScope :=
  { scope with
    exports := (m.declarations.map fun (d, p) => (⟨m.file, p, d⟩ : Symbol)).foldl addSymbol
      scope.exports
    uses := scope.uses ++ m.uses }

end FileScope

/-- The scopes of the files of a batch, in the order of their registration. -/
structure Namespace where
  scopes : List FileScope
  deriving DecidableEq, Repr, Inhabited

namespace Namespace

/-- A namespace without files. -/
def empty : Namespace := ⟨[]⟩

/-- The files, in the order of their registration. -/
def files (ns : Namespace) : List String := ns.scopes.map FileScope.file

/-- The scope of a file. -/
def scope? (ns : Namespace) (file : String) : Option FileScope :=
  ns.scopes.find? (·.file == file)

/-- Registers a module. -/
def register (ns : Namespace) (m : Module) : Namespace :=
  if ns.files.contains m.file then
    ⟨ns.scopes.map fun s => if s.file == m.file then s.addModule m else s⟩
  else ⟨ns.scopes ++ [(⟨m.file, [], []⟩ : FileScope).addModule m]⟩

/-- The namespace of several modules. -/
def ofModules (ms : List Module) : Namespace := ms.foldl register empty

/-- What a file exports under a name. -/
def lookup (ns : Namespace) (file name : String) : Option Symbol := do
  let scope ← ns.scope? file
  scope.exports.find? (·.name == name)

/-- The imports of a file. -/
def usesOf (ns : Namespace) (file : String) : List (Use × Position) :=
  ((ns.scope? file).map FileScope.uses).getD []

/-- What a name means in a file: its own declaration, or else what its first import under that name
refers to. -/
def resolveName (ns : Namespace) (file name : String) : Option Symbol :=
  match ns.lookup file name with
  | some s => some s
  | none =>
    match (ns.usesOf file).find? (·.1.name == name) with
    | some (u, _) => ns.lookup u.file u.member
    | none => none

/-- The number of structs that the files declare. -/
def structCount (ns : Namespace) : Nat :=
  (ns.scopes.flatMap FileScope.exports).countP fun e =>
    match e.declaration with
    | .buffer _ _ _ => true
    | _ => false

end Namespace

/-- A namespace that takes modules until it is frozen. -/
structure Registry where
  namespace_ : Namespace
  frozen : Bool
  deriving DecidableEq, Repr, Inhabited

namespace Registry

/-- A registry without modules. -/
def empty : Registry := ⟨.empty, false⟩

/-- Why a frozen registry takes no module. -/
def frozenMessage : String := "namespace table is frozen"

/-- Registers a module, unless the registry is frozen. -/
def register? (r : Registry) (m : Module) : Option Registry :=
  if r.frozen then none else some { r with namespace_ := r.namespace_.register m }

/-- Takes no more modules. -/
def freeze (r : Registry) : Registry := { r with frozen := true }

end Registry

end AnnotatedShader
