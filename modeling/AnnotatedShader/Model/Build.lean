import AnnotatedShader.Layout.Vertex
import AnnotatedShader.Model.Struct

set_option autoImplicit false

/-!
# Models from statements

The statements of a file are visited in order; an import is visited as the declaration that it
refers to, under its own name.  A fault inside an imported declaration is reported in the file that
declares it.  Afterwards the constants outside all structs are collected into one buffer, and the
samplers that textures refer to are looked up in the files of the textures.

`Draft` is the model under construction with what is left for the end.  Each kind of declaration has
a visit of its own, from a draft to a draft, and `visit` selects it.  An `Introduction` says how the
file comes by a declaration: the name it has here, and the file and position where it stands, which
is where types, attributes and samplers are looked up.
-/

namespace AnnotatedShader

namespace Model

/-- The buffer of the constants that stand outside all structs. -/
def rootName : String := "Root"

/-- A constant for the root buffer. -/
structure RootConstant where
  member : Member
  order : Option Int
  index : Nat
  position : Position
  deriving DecidableEq, Repr, Inhabited

/-- A reference from a texture to a sampler, in the scope of a file. -/
structure SamplerRef where
  texture : String
  sampler : String
  origin : String
  position : Position
  deriving DecidableEq, Repr, Inhabited

/-- A model under construction. -/
structure Draft where
  model : Model
  roots : List RootConstant
  samplerRefs : List SamplerRef
  deriving DecidableEq, Repr, Inhabited

/-- A declaration as a file introduces it: the local name, the file and position of the declaration,
and the index and position of the statement that introduces it. -/
structure Introduction where
  name : String
  origin : String
  declared : Position
  index : Nat
  position : Position
  declaration : Declaration
  deriving DecidableEq, Repr, Inhabited

/-! ## Parts of declarations -/

/-- The slot that an attribute pins.  It is no negative number. -/
def orderOf (origin : String) (position : Position) :
    Option Attribute → Except Failure (Option Int)
  | some (.order slot) =>
    if slot < 0 then .error (.at_ origin position (.misuse (.negativeSlot slot)))
    else .ok (some slot)
  | _ => .ok none

/-- Requires that a bearer has no attribute other than a slot number. -/
def allowOnlyOrder (origin : String) (position : Position) (bearer : Bearer) (name : String) :
    Option Attribute → Except Failure Unit
  | some .pack =>
    .error (.at_ origin position (.misuse (.misplaced bearer Attribute.pack.render name)))
  | some (.sampler s) =>
    .error (.at_ origin position (.misuse (.misplaced bearer (Attribute.sampler s).render name)))
  | _ => .ok ()

/-- Requires that a bearer has no attribute at all. -/
def allowNone (origin : String) (position : Position) (bearer : Bearer) (name : String) :
    Option Attribute → Except Failure Unit
  | some a => .error (.at_ origin position (.misuse (.misplaced bearer a.render name)))
  | none => .ok ()

/-- Requires that the keys of state entries differ. -/
def distinctKeys (i : Introduction) : (seen : List String) → List StateEntry → Except Failure Unit
  | _, [] => .ok ()
  | seen, e :: rest =>
    if seen.contains e.key then
      .error (.at_ i.origin i.declared (.duplicate (.stateKey i.name) e.key))
    else distinctKeys i (e.key :: seen) rest

/-- A state block with distinct keys. -/
def stateBlock (i : Introduction) (entries : List StateEntry) : Except Failure StateBlock := do
  distinctKeys i [] entries
  .ok ⟨i.name, entries, i.index, i.position⟩

/-! ## Declarations -/

/-- Adds a constant struct: a struct type if it is packed, a buffer otherwise. -/
def visitBuffer (ns : Namespace) (d : Draft) (i : Introduction) (name : String)
    (attr : Option Attribute) (fields : List Property) : Except Failure Draft :=
  match attr with
  | some .pack => do
    let structs ← defineStruct ns d.model.structs ⟨⟨name, i.origin⟩, i.declared, fields⟩
    .ok { d with model := { d.model with structs } }
  | some (.sampler s) => .error (.at_ i.origin i.declared (.misuse (.onBuffer s i.name)))
  | attr => do
    let order ← orderOf i.origin i.declared attr
    let (members, layout, structs) ←
      structBody ns (defineStruct ns) i.origin name d.model.structs fields
    let buffer : Buffer :=
      ⟨i.name, members, order, i.index, i.origin, i.position, layout, unassigned, false⟩
    .ok { d with model := { d.model with structs, buffers := d.model.buffers ++ [buffer] } }

/-- Adds a texture.  It has an element type, no array size and a sampler. -/
def visitTexture (d : Draft) (i : Introduction) (p : Property) : Except Failure Draft :=
  let wrong (fault : Fault) : Except Failure Draft := .error (.at_ i.origin p.position fault)
  match p.type.element with
  | none => wrong (.badType (.textureWithoutElement i.name p.type.name))
  | some element =>
    match ShaderType.ofTextureName? p.type.name element, p.type.size with
    | some t, none =>
      match p.attr with
      | some (.sampler s) =>
        let texture : Texture :=
          ⟨i.name, t, p.type.render, s, i.index, i.position, unassigned⟩
        .ok { d with
          model := { d.model with textures := d.model.textures ++ [texture] }
          samplerRefs := d.samplerRefs ++ [⟨i.name, s, i.origin, p.position⟩] }
      | attr => wrong (.misuse (.noSampler i.name (attr.map Attribute.render)))
    | _, _ => wrong (.badType (.ofTexture p.type.render))

/-- Adds a constant of a numeric type to those of the root buffer. -/
def visitNumeric (d : Draft) (i : Introduction) (p : Property) (t : ShaderType) :
    Except Failure Draft := do
  allowOnlyOrder i.origin p.position .constant i.name p.attr
  let type : ShaderType :=
    match p.type.size with
    | some n => .array p.type.render t n
    | none => t
  let order ← orderOf i.origin p.position p.attr
  let root : RootConstant :=
    ⟨⟨i.name, type, p.type.render, p.attr, 0, 0, 0⟩, order, i.index, i.position⟩
  .ok { d with roots := d.roots ++ [root] }

/-- Adds a sampler. -/
def visitSampler (d : Draft) (i : Introduction) (p : Property) : Except Failure Draft := do
  allowNone i.origin p.position .sampler i.name p.attr
  .ok { d with model :=
    { d.model with samplers := d.model.samplers ++ [⟨i.name, i.index, i.position⟩] } }

/-- Adds a constant that stands outside all structs. -/
def visitConstant (d : Draft) (i : Introduction) (p : Property) : Except Failure Draft :=
  if (TextureKind.ofName? p.type.name).isSome then visitTexture d i p
  else if p.type.element.isSome then
    .error (.at_ i.origin p.position (.badType (.unknown p.type.render)))
  else
    match ShaderType.ofName? p.type.name with
    | none => .error (.at_ i.origin p.position (.badType (.ofConstant i.name p.type.render)))
    | some .sampler => visitSampler d i p
    | some t => visitNumeric d i p t

/-- Adds an output. -/
def visitOutput (d : Draft) (i : Introduction) (p : Property) : Except Failure Draft :=
  let wrong : Except Failure Draft :=
    .error (.at_ i.origin p.position (.badType (.ofOutput i.name p.type.render)))
  match ShaderType.ofName? p.type.name, p.type.element, p.type.size with
  | some t, none, none =>
    if t.isPackable then do
      allowOnlyOrder i.origin p.position .output i.name p.attr
      let order ← orderOf i.origin p.position p.attr
      let output : Output :=
        ⟨i.name, t, p.type.render, order, i.index, i.position, unassigned⟩
      .ok { d with model := { d.model with outputs := d.model.outputs ++ [output] } }
    else wrong
  | _, _, _ => wrong

/-- The inputs of a vertex format, not yet placed. -/
def vertexInputs (origin : String) : (seen : List String) → List Property →
    Except Failure (List VertexInput)
  | _, [] => .ok []
  | seen, p :: rest =>
    let wrong : Except Failure (List VertexInput) :=
      .error (.at_ origin p.position (.badType (.ofVertexAttribute p.name p.type.render)))
    if seen.contains p.name then .error (.at_ origin p.position (.duplicate .member p.name))
    else
      match ShaderType.ofName? p.type.name, p.type.element, p.type.size with
      | some t, none, none =>
        if t.isNumeric then do
          allowOnlyOrder origin p.position .vertexAttribute p.name p.attr
          let order ← orderOf origin p.position p.attr
          let others ← vertexInputs origin (p.name :: seen) rest
          .ok (⟨p.name, t, p.type.render, order, p.index, 0, unassigned⟩ :: others)
        else wrong
      | _, _, _ => wrong

/-- Vertex inputs at the places of a layout. -/
def placeInputs (inputs : List VertexInput) (l : Layout) : List VertexInput :=
  List.zipWith (fun (i : VertexInput) place => { i with offset := place.offset }) inputs l.places

/-- Adds a vertex format.  A file has one at most. -/
def visitVertexFormat (file : String) (d : Draft) (i : Introduction) (attr : Option Attribute)
    (fields : List Property) : Except Failure Draft :=
  if d.model.vertexFormat.isSome then
    .error (.at_ file i.declared (.duplicate .vertexFormat i.name))
  else do
    allowNone i.origin i.declared .vertexFormat i.name attr
    let inputs ← vertexInputs i.origin [] fields
    let l ← fitting (Layout.Vertex.ofFields (inputs.map
      fun input => ⟨input.name, input.type, false⟩))
    let format : VertexFormat :=
      ⟨i.name, placeInputs inputs l, l.size, i.index, i.origin, i.position⟩
    .ok { d with model := { d.model with vertexFormat := some format } }

/-- Adds what a statement introduces. -/
def visit (ns : Namespace) (file : String) (d : Draft) (i : Introduction) :
    Except Failure Draft :=
  match i.declaration with
  | .buffer name attr fields => visitBuffer ns d i name attr fields
  | .constant p => visitConstant d i p
  | .output p => visitOutput d i p
  | .vertexFormat _ attr fields => visitVertexFormat file d i attr fields
  | .pipeline _ entries => do
    let block ← stateBlock i entries
    .ok { d with model := { d.model with pipelines := d.model.pipelines ++ [block] } }
  | .blendFunc _ entries => do
    let block ← stateBlock i entries
    .ok { d with model := { d.model with blendFuncs := d.model.blendFuncs ++ [block] } }

/-! ## Statements -/

/-- What the statement of an index introduces, if it is no comment. -/
def introduction? (file : String) (imports : List ResolvedImport) (index : Nat) (s : Statement) :
    Except Failure (Option Introduction) :=
  match s.body with
  | .comment _ => .ok none
  | .declare decl => .ok (some ⟨decl.name, file, s.position, index, s.position, decl⟩)
  | .use u =>
    match imports.find? fun r => r.use == u && r.position == s.position with
    | none => .error .importUnresolved
    | some r =>
      .ok (some ⟨u.name, r.target.file, r.target.position, index, s.position,
        r.target.declaration⟩)

/-- Requires that the names of statements differ. -/
def distinctNames (file : String) : (seen : List String) → List Statement → Except Failure Unit
  | _, [] => .ok ()
  | seen, s :: rest =>
    match s.name? with
    | none => distinctNames file seen rest
    | some name =>
      if seen.contains name then .error (.at_ file s.position (.duplicate .name name))
      else distinctNames file (name :: seen) rest

/-- Visits statements numbered from an index on. -/
def visitAll (ns : Namespace) (file : String) (imports : List ResolvedImport) :
    (index : Nat) → Draft → List Statement → Except Failure Draft
  | _, d, [] => .ok d
  | index, d, s :: rest => do
    match ← introduction? file imports index s with
    | none => visitAll ns file imports (index + 1) d rest
    | some i => do
      let d ← visit ns file d i
      visitAll ns file imports (index + 1) d rest

/-! ## After all statements -/

/-- The slots that constants pin their buffer to, in order and each once. -/
def rootOrders (roots : List RootConstant) : List Int :=
  ((roots.filterMap RootConstant.order).eraseDups).mergeSort fun a b => decide (a ≤ b)

/-- Buffers in the order of their statements. -/
def sortBuffers (bs : List Buffer) : List Buffer :=
  bs.mergeSort fun a b => decide (a.index ≤ b.index)

/-- Collects the constants outside all structs into a buffer, which stands where the first of them
is introduced. -/
def buildRoot (file : String) (names : List String) (d : Draft) : Except Failure Model :=
  match d.roots with
  | [] => .ok d.model
  | first :: _ =>
    if names.contains rootName then
      .error (.at_ file first.position (.duplicate .name rootName))
    else
      let orders := rootOrders d.roots
      if 1 < orders.length then
        .error (.at_ file first.position (.misuse (.rootOrders orders)))
      else do
        let ms := d.roots.map RootConstant.member
        let l ← fitting (Layout.Std140.ofFields (fun _ => none)
          (ms.map fun m => ⟨m.name, m.type, false⟩))
        let root : Buffer :=
          ⟨rootName, placeMembers ms l, orders.head?, first.index, file, first.position, l,
            unassigned, true⟩
        .ok { d.model with buffers := sortBuffers (d.model.buffers ++ [root]) }

/-- Whether a symbol declares a sampler. -/
def isSamplerSymbol (s : Symbol) : Bool :=
  match s.declaration with
  | .constant p => p.type.name == ShaderType.samplerName && p.type.element.isNone
  | _ => false

/-- Requires that textures refer to samplers. -/
def checkSamplers (ns : Namespace) : List SamplerRef → Except Failure Unit
  | [] => .ok ()
  | r :: rest =>
    match ns.resolveName r.origin r.sampler with
    | none => .error (.at_ r.origin r.position (.undeclaredSampler r.sampler r.texture))
    | some s =>
      if isSamplerSymbol s then checkSamplers ns rest
      else .error (.at_ r.origin r.position (.misuse (.notASampler r.texture r.sampler)))

/-- The model of a module whose imports are resolved. -/
def build (m : Module) (stage : Stage) (ns : Namespace) (imports : List ResolvedImport) :
    Except Failure Model := do
  distinctNames m.file [] m.statements
  let d ← visitAll ns m.file imports 0 ⟨.empty m.file stage, [], []⟩ m.statements
  let model ← buildRoot m.file (m.statements.filterMap Statement.name?) d
  checkSamplers ns d.samplerRefs
  .ok model

end Model

end AnnotatedShader
