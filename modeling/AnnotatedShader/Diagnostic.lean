import AnnotatedShader.Token.Basic
import AnnotatedShader.Text.Quoted

set_option autoImplicit false

/-!
# Diagnostics

A diagnostic names a file, a position in it and the fault found there.  A fault is the cause itself;
`Fault.kind` and `Fault.message` hold every wording.

The kinds of faults follow the phases: characters and tokens, attributes and types, names and
imports, slots, and stages.  Each carries the data its message is made of, so a proof that a file is
reported tells by the constructor what was found, and no proof looks into a text.
-/

namespace AnnotatedShader

/-- What a reader of annotations may have wanted to see next. -/
inductive Expectation where
  | terminal (t : Terminal)
  | arraySize
  | orderName
  deriving DecidableEq, Repr, Inhabited

/-- How a message names an expectation. -/
def Expectation.describe : Expectation → String
  | .terminal t => t.describe
  | .arraySize => "array size"
  | .orderName => "'Order'"

/-- What the reader saw instead. -/
inductive Finding where
  | token (t : Token)
  | text (s : String)
  | endOfInput
  deriving DecidableEq, Repr, Inhabited

/-- How a message names a finding. -/
def Finding.describe : Finding → String
  | .token t => t.describe
  | .text s => s
  | .endOfInput => Terminal.endOfInput.describe

/-- What a definition that exists already is. -/
inductive Definable where
  | name
  | file
  | member
  | vertexFormat
  | stateKey (block : String)
  deriving DecidableEq, Repr, Inhabited

/-- How a message names what is defined twice. -/
def Definable.describe : Definable → String
  | .name => "name"
  | .file => "file"
  | .member => "member"
  | .vertexFormat => "vertex format"
  | .stateKey block => "state key in '" ++ block ++ "'"

/-- What may bear an attribute. -/
inductive Bearer where
  | sampler
  | constant
  | output
  | vertexFormat
  | vertexAttribute
  deriving DecidableEq, Repr, Inhabited

/-- How a message names the bearer of an attribute. -/
def Bearer.describe : Bearer → String
  | .sampler => "sampler"
  | .constant => "constant"
  | .output => "output"
  | .vertexFormat => "vertex format"
  | .vertexAttribute => "vertex attribute"

/-- An attribute where it has no meaning, or a missing one. -/
inductive Misuse where
  | onBuffer (attr buffer : String)
  | packOnMember (member type : String)
  | onMember (attr owner member : String)
  | packMisaligned (member : String) (offset alignment : Int)
  | misplaced (bearer : Bearer) (attr name : String)
  | noSampler (texture : String) (attr : Option String)
  | notASampler (texture sampler : String)
  | rootOrders (orders : List Int)
  | negativeSlot (slot : Int)
  deriving DecidableEq, Repr, Inhabited

/-- Integers between brackets, with commas. -/
def bracketed (ns : List Int) : String := "[" ++ ", ".intercalate (ns.map toString) ++ "]"

/-- The message for a misused attribute. -/
def Misuse.message : Misuse → String
  | .onBuffer attr buffer =>
    "'" ++ attr ++ "' is not a valid attribute for constant buffer '" ++ buffer ++ "'"
  | .packOnMember member type =>
    "Pack is only valid on scalar or vector members, not on '" ++ member ++ "' (" ++ type ++ ")"
  | .onMember attr owner member =>
    "attribute '" ++ attr ++ "' is not valid on member '" ++ owner ++ "." ++ member ++ "'"
  | .packMisaligned member offset alignment =>
    "packed member '" ++ member ++ "' lands at offset " ++ toString offset ++
      ", which is not a multiple of its alignment " ++ toString alignment
  | .misplaced bearer attr name =>
    "attribute '" ++ attr ++ "' is not valid on " ++ bearer.describe ++ " '" ++ name ++ "'"
  | .noSampler texture none =>
    "texture '" ++ texture ++ "' must reference a sampler, got no attribute"
  | .noSampler texture (some attr) =>
    "texture '" ++ texture ++ "' must reference a sampler, got attribute '" ++ attr ++ "'"
  | .notASampler texture sampler =>
    "texture '" ++ texture ++ "' references '" ++ sampler ++ "', which is not a Sampler"
  | .rootOrders orders => "root constants are pinned to conflicting slots " ++ bracketed orders
  | .negativeSlot slot => "slot number " ++ toString slot ++ " is negative"

/-- A type where it has no meaning. -/
inductive BadType where
  | inStruct (type : String)
  | emptyArray (name : String)
  | unknown (type : String)
  | containsItself (struct : String)
  | ofConstant (name type : String)
  | textureWithoutElement (texture kind : String)
  | ofTexture (type : String)
  | ofOutput (name type : String)
  | ofVertexAttribute (name type : String)
  deriving DecidableEq, Repr, Inhabited

/-- The message for a misplaced type. -/
def BadType.message : BadType → String
  | .inStruct type => "type '" ++ type ++ "' is not allowed in a struct"
  | .emptyArray name => "array '" ++ name ++ "' has zero size"
  | .unknown type => "unknown type '" ++ type ++ "'"
  | .containsItself struct => "struct '" ++ struct ++ "' contains itself"
  | .ofConstant name type =>
    "constant '" ++ name ++ "' must have a numeric, Sampler or texture type, not '" ++ type ++ "'"
  | .textureWithoutElement texture kind =>
    "texture '" ++ texture ++ "' needs an element type (e.g. " ++ kind ++ ":vec4f)"
  | .ofTexture type => "invalid texture type '" ++ type ++ "'"
  | .ofOutput name type =>
    "output '" ++ name ++ "' must be a scalar or vector, not '" ++ type ++ "'"
  | .ofVertexAttribute name type =>
    "vertex attribute '" ++ name ++ "' must be numeric, not '" ++ type ++ "'"

/-- A slot that more than one name claims, or a name that claims more than one slot; in the second
case `earlier` is the file and the slot of the first claim. -/
structure SlotClash where
  resource : String
  slot : Int
  names : List String
  earlier : Option (String × Int)
  deriving DecidableEq, Repr, Inhabited

/-- The message for a slot clash. -/
def SlotClash.message (clash : SlotClash) : String :=
  let claim := clash.resource ++ " slot " ++ toString clash.slot ++ " is claimed by " ++
    ", ".intercalate (clash.names.map fun name => "'" ++ name ++ "'")
  match clash.earlier with
  | none => claim
  | some (file, slot) =>
    claim ++ " ('" ++ file ++ "' binds it to slot " ++ toString slot ++ ")"

/-- Everything that can be wrong with a file. -/
inductive Fault where
  | unexpectedCharacter (c : Char)
  | unterminatedBlock
  | unexpectedToken (expected : List Expectation) (found : Finding)
  | unknownStage (name : String)
  | unresolvedImport (file member : String)
  | importCycle (path : List String)
  | duplicate (what : Definable) (name : String)
  | misuse (m : Misuse)
  | badType (b : BadType)
  | slotClash (clash : SlotClash)
  | undeclaredSampler (sampler texture : String)
  | validation (log : String)
  deriving DecidableEq, Repr, Inhabited

namespace Fault

/-- The class that a fault is reported under. -/
def kind : Fault → String
  | .unexpectedCharacter _ | .unterminatedBlock => "lex error"
  | .unexpectedToken _ _ => "syntax error"
  | .unknownStage _ => "stage error"
  | .unresolvedImport _ _ => "unresolved import"
  | .importCycle _ => "cyclic import"
  | .duplicate _ _ => "duplicate definition"
  | .misuse _ => "attribute misuse"
  | .badType _ => "type error"
  | .slotClash _ => "slot collision"
  | .undeclaredSampler _ _ => "unresolved reference"
  | .validation _ => "backend error"

/-- Descriptions of what was expected, in the order of their characters. -/
def expectedTexts (expected : List Expectation) : List String :=
  (expected.map Expectation.describe).mergeSort fun a b => decide (a ≤ b)

/-- The wording of a fault. -/
def message : Fault → String
  | .unexpectedCharacter c => "unexpected character " ++ Text.quoted c.toString
  | .unterminatedBlock => "unterminated SAL block"
  | .unexpectedToken expected found =>
    "expected " ++ " or ".intercalate (expectedTexts expected) ++ " but got " ++ found.describe
  | .unknownStage name => "unknown shader stage '" ++ name ++ "'"
  | .unresolvedImport file member => "cannot resolve '" ++ file ++ "::" ++ member ++ "'"
  | .importCycle path => "import cycle " ++ " -> ".intercalate path
  | .duplicate what name => what.describe ++ " '" ++ name ++ "' is already defined"
  | .misuse m => m.message
  | .badType b => b.message
  | .slotClash clash => clash.message
  | .undeclaredSampler sampler texture =>
    "sampler '" ++ sampler ++ "' referenced by '" ++ texture ++ "' is not declared"
  | .validation log => log

/-- The line that reports a fault at a line and a column of a file. -/
def report (fault : Fault) (file : String) (line column : Int) : String :=
  file ++ ":" ++ toString line ++ ":" ++ toString column ++ ": " ++ fault.kind ++ ": " ++
    fault.message

end Fault

/-- A fault at a position of a file. -/
structure Diagnostic where
  file : String
  position : Position
  fault : Fault
  deriving DecidableEq, Repr, Inhabited

namespace Diagnostic

/-- The line that reports a diagnostic. -/
def render (d : Diagnostic) : String := d.fault.report d.file d.position.line d.position.column

/-- The text of a fault where it arises: as `render`, but the log of a validator stands below its
heading, as it came. -/
def renderRaised (d : Diagnostic) : String :=
  match d.fault with
  | .validation log => d.file ++ ": " ++ d.fault.kind ++ ":\n" ++ log
  | _ => d.render

end Diagnostic

end AnnotatedShader
