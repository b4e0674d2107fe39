import AnnotatedShader.Proofs.Json.Reading
import AnnotatedShader.Reflection

set_option autoImplicit false

/-!
# Reflection documents

What a program reads from the document of a reflection record is the record: nothing that is in it
is lost on the way, and the kinds of state values are told apart.

`ofJson?` reads a record from a JSON value, list by list, as any client of the format would, with a
reader for each kind of entry.  The lemmas of the third section follow these readers: what is
written for an entry is read as this entry, so the record is read back (`ofJson?_toJson`).  It needs
no assumption on the record.

A document can be written only if no number in it is infinite, and numbers that are no integers come
from state blocks alone (`toJson_finite`).  `Holds` says what it is for a text to be the document of
a record: it follows the grammar of JSON, and its value is that of the record.
-/

namespace AnnotatedShader

namespace Json

/-- The items of an array. -/
def items? : Json → Option (List Json)
  | .array items => some items
  | _ => none

/-- The members of an object. -/
def members? : Json → Option (List (String × Json))
  | .object members => some members
  | _ => none

/-- The text of a string. -/
def str? : Json → Option String
  | .str s => some s
  | _ => none

/-- The number of an integer. -/
def int? : Json → Option Int
  | .int n => some n
  | _ => none

@[simp] theorem items?_array (items : List Json) : (array items).items? = some items := rfl

@[simp] theorem members?_object (members : List (String × Json)) :
    (object members).members? = some members := rfl

@[simp] theorem str?_str (s : String) : (str s).str? = some s := rfl

@[simp] theorem int?_int (n : Int) : (int n).int? = some n := rfl

/-- The text of a member. -/
def text? (j : Json) (name : String) : Option String := (j.member? name).bind str?

/-- The number of a member. -/
def number? (j : Json) (name : String) : Option Int := (j.member? name).bind int?

/-- The items of a member, each read in one way. -/
def list? {α : Type} (read : Json → Option α) (j : Json) (name : String) : Option (List α) :=
  ((j.member? name).bind items?).bind fun items => items.mapM read

end Json

namespace Reflection

open Json

/-! ## Reading records -/

/-- An attribute as a document holds it. -/
def attributeOf? (j : Json) : Option AttributeRecord := do
  some ⟨← j.text? "name", ← j.text? "type", ← j.number? "location", ← j.number? "offset",
    ← j.text? "format"⟩

/-- A member as a document holds it. -/
def memberOf? (j : Json) : Option MemberRecord := do
  some ⟨← j.text? "name", ← j.text? "type", ← j.number? "offset", ← j.number? "size",
    ← j.number? "array_size"⟩

/-- A buffer as a document holds it. -/
def bufferOf? (j : Json) : Option BufferRecord := do
  some ⟨← j.text? "name", ← j.number? "binding", ← j.number? "size", ← j.list? memberOf? "members"⟩

/-- A texture as a document holds it. -/
def textureOf? (j : Json) : Option TextureRecord := do
  some ⟨← j.text? "name", ← j.number? "binding", ← j.text? "sampler", ← j.text? "type"⟩

/-- An output as a document holds it. -/
def outputOf? (j : Json) : Option OutputRecord := do
  some ⟨← j.text? "name", ← j.text? "type", ← j.number? "location"⟩

/-- A state value as a document holds it: a string is a name. -/
def valueOf? : Json → Option StateValue
  | .bool b => some (.bool b)
  | .int n => some (.int n)
  | .float x => some (.float x)
  | .str s => some (.name s)
  | _ => none

/-- A state entry as a document holds it. -/
def entryOf? (m : String × Json) : Option StateEntry := (valueOf? m.2).map fun v => ⟨m.1, v⟩

/-- A state block as a document holds it. -/
def stateOf? (j : Json) : Option StateRecord := do
  let members ← (j.member? "entries").bind members?
  some ⟨← j.text? "name", ← members.mapM entryOf?⟩

/-- A reflection record as a document of the known version holds it. -/
def ofJson? (j : Json) : Option Reflection := do
  if (← j.number? "version") = version then
    some ⟨← j.text? "source", ← (j.text? "stage").bind Stage.ofName?,
      ← j.list? attributeOf? "vertex_attributes", ← j.number? "vertex_stride",
      ← j.list? bufferOf? "constant_buffers", ← j.list? textureOf? "textures",
      ← j.list? outputOf? "outputs", ← j.list? stateOf? "pipelines",
      ← j.list? stateOf? "blendfuncs"⟩
  else none

/-! ## Records are read back -/

@[simp]
theorem member?_object (members : List (String × Json)) (name : String) :
    (Json.object members).member? name = members.lookup name := rfl

theorem mapM_map_eq_some {α β : Type} {write : α → β} {read : β → Option α}
    (h : ∀ a, read (write a) = some a) (as : List α) : (as.map write).mapM read = some as := by
  induction as with
  | nil => rfl
  | cons a rest ih => simp [h a, ih]

theorem attributeOf?_attributeJson (a : AttributeRecord) :
    attributeOf? (attributeJson a) = some a := by
  simp [attributeOf?, attributeJson, Json.text?, Json.number?, List.lookup_cons]

theorem memberOf?_memberJson (m : MemberRecord) : memberOf? (memberJson m) = some m := by
  simp [memberOf?, memberJson, Json.text?, Json.number?, List.lookup_cons]

theorem bufferOf?_bufferJson (b : BufferRecord) : bufferOf? (bufferJson b) = some b := by
  simp [bufferOf?, bufferJson, Json.text?, Json.number?, Json.list?, List.lookup_cons,
    mapM_map_eq_some memberOf?_memberJson]

theorem textureOf?_textureJson (t : TextureRecord) : textureOf? (textureJson t) = some t := by
  simp [textureOf?, textureJson, Json.text?, Json.number?, List.lookup_cons]

theorem outputOf?_outputJson (o : OutputRecord) : outputOf? (outputJson o) = some o := by
  simp [outputOf?, outputJson, Json.text?, Json.number?, List.lookup_cons]

theorem entryOf?_entry (e : StateEntry) : entryOf? (e.key, valueJson e.value) = some e := by
  obtain ⟨key, value⟩ := e
  cases value <;> rfl

theorem stateOf?_stateJson (b : StateRecord) : stateOf? (stateJson b) = some b := by
  simp [stateOf?, stateJson, Json.text?, List.lookup_cons, mapM_map_eq_some entryOf?_entry]

/-- A record is read back from its value. -/
theorem ofJson?_toJson (r : Reflection) : ofJson? r.toJson = some r := by
  simp [ofJson?, toJson, Json.text?, Json.number?, Json.list?, List.lookup_cons,
    Stage.ofName?_name, mapM_map_eq_some attributeOf?_attributeJson,
    mapM_map_eq_some bufferOf?_bufferJson, mapM_map_eq_some textureOf?_textureJson,
    mapM_map_eq_some outputOf?_outputJson, mapM_map_eq_some stateOf?_stateJson]

/-! ## Values of records -/

/-- Each floating number of a block is finite and in its one form. -/
def StatesFinite (blocks : List StateRecord) : Prop :=
  ∀ b ∈ blocks, ∀ e ∈ b.entries, ∀ x, e.value = .float x →
    x.Canonical ∧ ∀ negative, x ≠ .infinite negative

theorem valueJson_finite {v : StateValue}
    (h : ∀ x, v = .float x → x.Canonical ∧ ∀ negative, x ≠ .infinite negative) :
    (valueJson v).Finite := by
  cases v with
  | bool b => exact .bool b
  | int n => exact .int n
  | name s => exact .str s
  | float x =>
    obtain ⟨hcanonical, hfinite⟩ := h x rfl
    cases hcanonical with
    | infinite negative => exact absurd rfl (hfinite negative)
    | finite negative s e hbound hmin hmax hfull =>
      exact .float (.finite negative s e hbound hmin hmax hfull)

theorem stateJson_finite {blocks : List StateRecord} (h : StatesFinite blocks) :
    ∀ b ∈ blocks, (stateJson b).Finite := by
  intro b hb
  simp only [stateJson, finite_object_iff, List.forall_mem_cons, List.forall_mem_map, finite_str,
    true_and, List.not_mem_nil, false_implies, implies_true, and_true]
  exact fun e he => valueJson_finite (h b hb e he)

/-- Only state values are floating numbers. -/
theorem toJson_finite {r : Reflection} (h : StatesFinite (r.pipelines ++ r.blendFuncs)) :
    r.toJson.Finite := by
  obtain ⟨hpipelines, hblendFuncs⟩ := List.forall_mem_append.mp h
  have hpipelines := stateJson_finite hpipelines
  have hblendFuncs := stateJson_finite hblendFuncs
  simp only [toJson, finite_object_iff, List.forall_mem_cons, finite_array_iff, List.forall_mem_map]
  simpa [attributeJson, bufferJson, memberJson, textureJson, outputJson] using
    ⟨hpipelines, hblendFuncs⟩

/-- What a document must be: a text of the grammar for the record, from which it is read back. -/
structure Holds (text : String) (r : Reflection) : Prop where
  wellFormed : Json.IsDocument text r.toJson
  read : (Json.parse text).bind ofJson? = some r

/-- The document of a record holds it, if there is no infinity in it and no integer too large to be
written. -/
theorem document_holds {r : Reflection} (h : StatesFinite (r.pipelines ++ r.blendFuncs))
    (hintegers : r.toJson.integers.all Number.isWritable = true) :
    ∃ text, r.document = .ok text ∧ Holds text r := by
  have hdocument := Json.isDocument_document (toJson_finite h)
  refine ⟨r.toJson.document, by rw [document, if_pos hintegers], hdocument, ?_⟩
  rw [Json.parse_of_isDocument hdocument, Option.bind_some, ofJson?_toJson]

end Reflection

end AnnotatedShader
