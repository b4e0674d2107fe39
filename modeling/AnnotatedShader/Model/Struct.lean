import AnnotatedShader.Layout.Std140
import AnnotatedShader.Model.Basic
import AnnotatedShader.Namespace.Import

set_option autoImplicit false

/-!
# Structs and their members

The members of a struct are typed in the scope of the file that declares the struct.  A member type
that is a struct is defined first, with all that it needs itself, so definitions stand in the order
of their dependencies.  A struct that is met again while it is being defined contains itself.

`members` and `structBody` are told how a struct is defined; `define` closes the recursion.  Structs
under definition are distinct and declared, so the number of declared structs bounds its depth.
-/

namespace AnnotatedShader

/-- A declaration of a struct. -/
structure DeclaredStruct where
  id : StructId
  position : Position
  fields : List Property
  deriving DecidableEq, Repr, Inhabited

/-- The struct that a symbol declares. -/
def Symbol.struct? (s : Symbol) : Option DeclaredStruct :=
  match s.declaration with
  | .buffer name _ fields => some ⟨⟨name, s.file⟩, s.position, fields⟩
  | _ => none

namespace Model

/-- A misplaced type as a failure. -/
def fitting {α : Type} : Except Misfit α → Except Failure α
  | .ok a => .ok a
  | .error m => .error (.misfit m)

/-- How a declared struct is added to the definitions, unless it is among them. -/
abbrev Definer := List StructDef → DeclaredStruct → Except Failure (List StructDef)

/-- The type of a member without its array size, and the definitions that it needs. -/
def baseType (ns : Namespace) (define : Definer) (origin : String) (defs : List StructDef)
    (p : Property) : Except Failure (ShaderType × List StructDef) :=
  match ShaderType.ofName? p.type.name with
  | some base =>
    if base.isObject then .error (.at_ origin p.position (.badType (.inStruct p.type.render)))
    else .ok (base, defs)
  | none =>
    match (ns.resolveName origin p.type.name).bind Symbol.struct? with
    | none => .error (.at_ origin p.position (.badType (.unknown p.type.name)))
    | some d => do
      let defs ← define defs d
      .ok (.struct d.id, defs)

/-- The type of a member, and the definitions that it needs. -/
def memberType (ns : Namespace) (define : Definer) (origin : String) (defs : List StructDef)
    (p : Property) : Except Failure (ShaderType × List StructDef) :=
  if p.type.element.isSome then
    .error (.at_ origin p.position (.badType (.inStruct p.type.render)))
  else do
    let (base, defs) ← baseType ns define origin defs p
    match p.type.size with
    | none => .ok (base, defs)
    | some 0 => .error (.at_ origin p.position (.badType (.emptyArray p.name)))
    | some n => .ok (.array p.type.render base n, defs)

/-- What is wrong with the attribute of a member. -/
def memberMisuse? (owner : String) (p : Property) (t : ShaderType) : Option Misuse :=
  match p.attr with
  | some .pack => if t.isPackable then none else some (.packOnMember p.name p.type.render)
  | some a => some (.onMember a.render owner p.name)
  | none => none

/-- The members of a struct, not yet placed, and the definitions that they need. -/
def members (ns : Namespace) (define : Definer) (origin owner : String) :
    (seen : List String) → List StructDef → List Property →
      Except Failure (List Member × List StructDef)
  | _, defs, [] => .ok ([], defs)
  | seen, defs, p :: rest =>
    if seen.contains p.name then .error (.at_ origin p.position (.duplicate .member p.name))
    else do
      let (t, defs) ← memberType ns define origin defs p
      match memberMisuse? owner p t with
      | some misuse => .error (.at_ origin p.position (.misuse misuse))
      | none => do
        let (others, defs) ← members ns define origin owner (p.name :: seen) defs rest
        .ok (⟨p.name, t, p.type.render, p.attr, p.index, 0, 0⟩ :: others, defs)

/-- The field that a member takes in a layout. -/
def fieldOf (m : Member) : Field := ⟨m.name, m.type, m.attr == some .pack⟩

/-- Members at the places of a layout. -/
def placeMembers (ms : List Member) (l : Layout) : List Member :=
  List.zipWith (fun m place => { m with offset := place.offset, size := place.size }) ms l.places

/-- The failure for a packed member off its alignment. -/
def misaligned (origin : String) (p : Property) (offset alignment : Int) : Failure :=
  if Number.isWritable offset then
    .at_ origin p.position (.misuse (.packMisaligned p.name offset alignment))
  else .numeralUnwritten

/-- Requires every packed member to lie at a multiple of its alignment. -/
def checkAligned (structs : StructId → Option Layout) (origin : String) :
    List (Member × Property) → Except Failure Unit
  | [] => .ok ()
  | (m, p) :: rest =>
    if m.attr = some .pack then do
      let e ← fitting (Layout.Std140.extent structs m.type)
      if m.offset % e.alignment = 0 then checkAligned structs origin rest
      else .error (misaligned origin p m.offset e.alignment)
    else checkAligned structs origin rest

/-- The members of a struct at their places, its layout and the definitions that it needs. -/
def structBody (ns : Namespace) (define : Definer) (origin owner : String)
    (defs : List StructDef) (fields : List Property) :
    Except Failure (List Member × Layout × List StructDef) := do
  let (ms, defs) ← members ns define origin owner [] defs fields
  let l ← fitting (Layout.Std140.ofFields (layoutsOf defs) (ms.map fieldOf))
  let placed := placeMembers ms l
  checkAligned (layoutsOf defs) origin (placed.zip fields)
  .ok (placed, l, defs)

/-- The structs that members refer to, in order and each once. -/
def dependenciesOf (ms : List Member) : List StructId :=
  (ms.filterMap fun m => m.type.structId?).eraseDups

/-- The failure for a struct that contains itself. -/
def containsItself (d : DeclaredStruct) : Failure :=
  .at_ d.id.origin d.position (.badType (.containsItself d.id.name))

/-- Defines a struct while others are under definition; `fuel` bounds how many more can be. -/
def define (ns : Namespace) : Nat → (underDefinition : List StructId) → Definer
  | 0, _, defs, d =>
    if defs.any (·.id == d.id) then .ok defs else .error (containsItself d)
  | fuel + 1, underDefinition, defs, d =>
    if defs.any (·.id == d.id) then .ok defs
    else if underDefinition.contains d.id then .error (containsItself d)
    else do
      let (ms, l, defs) ← structBody ns (define ns fuel (d.id :: underDefinition))
        d.id.origin d.id.name defs d.fields
      .ok (defs ++ [⟨d.id, ms, l, dependenciesOf ms⟩])

/-- Defines a struct while none is under definition. -/
def defineStruct (ns : Namespace) : Definer := define ns (ns.structCount + 1) []

end Model

end AnnotatedShader
