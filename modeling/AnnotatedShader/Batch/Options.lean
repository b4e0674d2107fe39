set_option autoImplicit false

/-!
# Options of a batch

What the generated GLSL looks like, whether it is validated, and for which client.

A client is an environment of a validator: OpenGL or a version of Vulkan.  The version of GLSL is an
integer, given or not.  Offsets are stated with the members of blocks unless the version is too old
for that, and without a version there is nothing to compare (`memberOffsets?`).
-/

namespace AnnotatedShader

/-- What a validator is told about its target. -/
structure Environment where
  client : String
  clientVersion : String
  target : String
  profile : String
  deriving DecidableEq, Repr, Inhabited

/-- The arguments by which a validator is told its target. -/
def Environment.arguments (e : Environment) : List String :=
  if e.client = "vulkan" then ["-V", "--target-env", e.target] else ["-G" ++ e.clientVersion]

/-- The target for OpenGL. -/
def Environment.opengl : Environment := ⟨"opengl", "100", "vulkan1.0", "core"⟩

/-- The options of a batch. -/
structure Options where
  /-- the number of the version that generated GLSL declares, if one is given -/
  glslVersion : Option Int
  profile : String
  /-- whether declarations state their bindings -/
  explicitBindings : Bool
  emitReflection : Bool
  /-- whether generated GLSL is handed to a validator -/
  validate : Bool
  /-- whether the files share the bindings of their resources -/
  programBindings : Bool
  environment : Environment
  deriving DecidableEq, Repr, Inhabited

namespace Options

/-- The options where nothing else is asked for. -/
def default : Options := ⟨some 450, "core", true, true, false, true, .opengl⟩

/-- Whether members of buffers state their offsets, which GLSL knows from version 4.40 on.  Without
a version there is no answer. -/
def memberOffsets? (o : Options) : Option Bool := o.glslVersion.map fun n => decide (440 ≤ n)

end Options

end AnnotatedShader
