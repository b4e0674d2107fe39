set_option autoImplicit false

/-!
# Pipeline stages

A shader file belongs to one stage of the graphics pipeline.  A validator tells the stages apart by
the suffix of the file it is given.
-/

namespace AnnotatedShader

/-- A programmable stage. -/
inductive Stage where
  | vertex | hull | domain | geometry | pixel
  deriving DecidableEq, Repr, Inhabited

namespace Stage

/-- Every stage. -/
def all : List Stage := [.vertex, .hull, .domain, .geometry, .pixel]

/-- The name of a stage. -/
def name : Stage → String
  | .vertex => "vertex"
  | .hull => "hull"
  | .domain => "domain"
  | .geometry => "geometry"
  | .pixel => "pixel"

/-- The suffix of a file of this stage. -/
def suffix : Stage → String
  | .vertex => "vert"
  | .hull => "tesc"
  | .domain => "tese"
  | .geometry => "geom"
  | .pixel => "frag"

/-- The stage of a name. -/
def ofName? (text : String) : Option Stage := all.find? (·.name == text)

theorem ofName?_name (s : Stage) : ofName? s.name = some s := by cases s <;> decide

end Stage

end AnnotatedShader
