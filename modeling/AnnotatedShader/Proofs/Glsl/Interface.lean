import AnnotatedShader.Proofs.Glsl.Emission
import AnnotatedShader.Proofs.Slot.Assignment
import AnnotatedShader.Reflection

set_option autoImplicit false

/-!
# The interface of a shader

The vertex inputs, uniform blocks, samplers and outputs that are declared, and the records of them
that are kept.  Both are made of one model, whose resources are addressed, so they correspond one to
one.

* `Corresponds` compares resources by class, name and slot, and the members of uniform blocks by
  name, offset and array size.  `corresponds` proves it from what is known of the items of a model
  (`items_filter`) and of its record (`recordedResources_perm`).
* `Ascending` says that the lists of a record are in the order of their slots, strictly, since slots
  are distinct.
* `Resource.Line` and `MemberLine` say what the line of a resource or of a member looks like, apart
  from the functions that write it.  Every declaration of a resource has such a line
  (`Declaration.exists_line`), so a text that is written from declarations that correspond to a
  record states all of the record (`Corresponds.stated`).

Struct types are no resources.  Where declarations are counted here they are passed over
(`interface_emitStructs`); a file of their own is about them.
-/

namespace AnnotatedShader.Glsl

/-! ## Declarations and records -/

/-- A resource of a shader, with the slot that is stated for it. -/
structure Resource where
  cls : ResourceClass
  name : String
  slot : Option Int
  deriving DecidableEq, Repr, Inhabited

/-- What tells resources apart. -/
def Resource.key (r : Resource) : ResourceClass × String := (r.cls, r.name)

/-- The resource that is declared. -/
def Declaration.resource? : Declaration → Option Resource
  | .input location _ name => some ⟨.vertexAttribute, name, some location⟩
  | .block binding name _ _ => some ⟨.constantBuffer, name, binding⟩
  | .texture binding _ name => some ⟨.texture, name, binding⟩
  | .output location _ name => some ⟨.output, name, some location⟩
  | .struct _ _ | .undefined _ => none

/-- The name of a uniform block with the names, offsets and array sizes of its members. -/
def Declaration.blockMembers? : Declaration → Option (String × List (String × Option Int × Int))
  | .block _ name members _ =>
    some (name, members.map fun m => (m.name, m.offset, m.type.arraySize))
  | _ => none

/-- The resources that are recorded. -/
def recordedResources (r : Reflection) : List Resource :=
  r.attributes.map (fun a => ⟨.vertexAttribute, a.name, some a.location⟩) ++
    r.buffers.map (fun b => ⟨.constantBuffer, b.name, some b.binding⟩) ++
    r.textures.map (fun t => ⟨.texture, t.name, some t.binding⟩) ++
    r.outputs.map fun out => ⟨.output, out.name, some out.location⟩

/-- Declarations and records correspond one to one: each resource that is recorded is declared at
its slot, no class and name is declared twice, and nothing else is declared.  From version 4.40 on
each uniform block has the members of its record, in order and with their offsets and array
sizes. -/
structure Corresponds (o : Options) (ds : List Declaration) (r : Reflection) : Prop where
  resources : (ds.filterMap Declaration.resource?).Perm (recordedResources r)
  distinct : ((ds.filterMap Declaration.resource?).map Resource.key).Nodup
  members : ∀ version, o.glslVersion = some version → 440 ≤ version →
    (ds.filterMap Declaration.blockMembers?).Perm
      (r.buffers.map fun b => (b.name, b.members.map fun m => (m.name, some m.offset, m.arraySize)))

/-- The lists of a reflection record ascend strictly in their slots. -/
structure Ascending (r : Reflection) : Prop where
  attributes : (r.attributes.map AttributeRecord.location).Pairwise (· < ·)
  buffers : (r.buffers.map BufferRecord.binding).Pairwise (· < ·)
  textures : (r.textures.map TextureRecord.binding).Pairwise (· < ·)
  outputs : (r.outputs.map OutputRecord.location).Pairwise (· < ·)

/-! ## The lines of resources
A resource is introduced by one line.  It says what kind of resource this is, at which slot and
under which name, and behind that of a uniform block stand the lines of its members. -/

/-- The line that introduces a resource, with the slot that is stated for it. -/
inductive Resource.Line : Resource → String → Prop
  | input {t : ShaderType} {type : String} (slot : Int) (name : String)
    (htype : t.glslName = .ok type) : Line ⟨.vertexAttribute, name, some slot⟩
      ("layout(location = " ++ toString slot ++ ") in " ++ type ++ " " ++ name ++ ";")
  | block (slot : Int) (name : String) : Line ⟨.constantBuffer, name, some slot⟩
      ("layout(binding = " ++ toString slot ++ ", std140) uniform " ++ name ++ "Block \x7b")
  | unboundBlock (name : String) : Line ⟨.constantBuffer, name, none⟩
      ("layout(std140) uniform " ++ name ++ "Block \x7b")
  | sampler {t : ShaderType} {type : String} (slot : Int) (name : String)
    (htype : t.glslName = .ok type) : Line ⟨.texture, name, some slot⟩
      ("layout(binding = " ++ toString slot ++ ") uniform " ++ type ++ " " ++ name ++ ";")
  | unboundSampler {t : ShaderType} {type : String} (name : String)
    (htype : t.glslName = .ok type) : Line ⟨.texture, name, none⟩
      ("uniform " ++ type ++ " " ++ name ++ ";")
  | output {t : ShaderType} {type : String} (slot : Int) (name : String)
    (htype : t.glslName = .ok type) : Line ⟨.output, name, some slot⟩
      ("layout(location = " ++ toString slot ++ ") out " ++ type ++ " " ++ name ++ ";")

/-- What a line of a member starts with: its offset, if it states one. -/
def memberStart : Option Int → String
  | none => "    "
  | some offset => "    layout(offset = " ++ toString offset ++ ") "

@[simp] theorem memberStart_none : memberStart none = "    " := rfl

@[simp] theorem memberStart_some (offset : Int) :
    memberStart (some offset) = "    layout(offset = " ++ toString offset ++ ") " := rfl

/-- What a line of a member ends with: its size, if it is an array. -/
def memberEnd : ShaderType → String
  | .array _ _ size => "[" ++ (toString size ++ "];")
  | _ => ";"

/-- The line of a member with its name, the offset that is stated for it and its array size. -/
inductive MemberLine : String × Option Int × Int → String → Prop
  | intro {t : ShaderType} {type : String} (name : String) (offset : Option Int)
    (htype : t.glslName = .ok type) :
    MemberLine (name, offset, t.arraySize)
      (memberStart offset ++ (type ++ (" " ++ (name ++ memberEnd t))))

/-- What the text of a source says of the resources that are recorded: each is introduced by a line
of the text.  From version 4.40 on the lines of the members of a uniform block stand behind its own,
in order and with their offsets and array sizes. -/
structure Stated (o : Options) (text : String) (r : Reflection) : Prop where
  resources : ∀ res ∈ recordedResources r, ∃ line, res.Line line ∧ HasLines text [line]
  members : ∀ version, o.glslVersion = some version → 440 ≤ version → ∀ b ∈ r.buffers,
    ∃ opening inside closing, HasLines text (opening :: inside ++ [closing]) ∧
      Resource.Line ⟨.constantBuffer, b.name, some b.binding⟩ opening ∧
      List.Forall₂ MemberLine (b.members.map fun m => (m.name, some m.offset, m.arraySize)) inside

theorem writeInt_eq_ok {n : Int} {text : String} (h : writeInt n = .ok text) :
    text = toString n := by
  unfold writeInt at h
  split at h
  · exact (Except.ok.inj h).symm
  · simp at h

theorem typeName_eq_ok {t : ShaderType} {type : String} (h : typeName t = .ok type) :
    t.glslName = .ok type := by
  unfold typeName at h
  split at h
  · rename_i heq
    rw [heq, Except.ok.inj h]
  · simp at h

theorem plainMember_eq_ok {m : MemberDeclaration} {plain : String} (h : plainMember m = .ok plain) :
    ∃ type, m.type.glslName = .ok type ∧
      plain = type ++ (" " ++ (m.name ++ memberEnd m.type)) := by
  obtain ⟨type, htype, h⟩ := bind_eq_ok_iff.mp h
  refine ⟨type, typeName_eq_ok htype, ?_⟩
  split at h
  · rename_i harray
    obtain ⟨size, hsize, h⟩ := bind_eq_ok_iff.mp h
    rw [← Except.ok.inj h, writeInt_eq_ok hsize, harray, memberEnd]
    simp only [String.append_assoc]
  · rename_i hother
    rw [← Except.ok.inj h, memberEnd]
    · simp only [String.append_assoc]
    · exact hother

theorem memberLine_spec {m : MemberDeclaration} {line : String} (h : memberLine m = .ok line) :
    MemberLine (m.name, m.offset, m.type.arraySize) line := by
  suffices hline : ∃ plain, plainMember m = .ok plain ∧ line = memberStart m.offset ++ plain by
    obtain ⟨plain, hplain, rfl⟩ := hline
    obtain ⟨type, htype, rfl⟩ := plainMember_eq_ok hplain
    exact .intro m.name m.offset htype
  unfold memberLine at h
  split at h
  · rename_i hoffset
    obtain ⟨plain, hplain, h⟩ := bind_eq_ok_iff.mp h
    exact ⟨plain, hplain, by rw [← Except.ok.inj h, hoffset, memberStart_none]⟩
  · rename_i offset hoffset
    simp only [bind_eq_ok_iff] at h
    obtain ⟨written, hwritten, plain, hplain, h⟩ := h
    refine ⟨plain, hplain, ?_⟩
    rw [← Except.ok.inj h, writeInt_eq_ok hwritten, hoffset, memberStart_some]

theorem memberLine_mapM_spec {members : List MemberDeclaration} {ls : List String}
    (h : members.mapM memberLine = .ok ls) :
    List.Forall₂ MemberLine (members.map fun m => (m.name, m.offset, m.type.arraySize)) ls :=
  List.forall₂_map_left_iff.mpr ((forall₂_of_mapM h).imp fun _ _ => memberLine_spec)

/-- A uniform block is written as its own line, those of its members and a line that closes it. -/
theorem Declaration.lines_block {binding : Option Int} {name : String}
    {members : List MemberDeclaration} {instanceName : Option String} {ls : List String}
    (h : (block binding name members instanceName).lines = .ok ls) :
    ∃ opening inside closing, ls = opening :: inside ++ [closing] ∧
      Resource.Line ⟨.constantBuffer, name, binding⟩ opening ∧
      List.Forall₂ MemberLine (members.map fun m => (m.name, m.offset, m.type.arraySize))
        inside := by
  cases binding with
  | none =>
    simp only [lines, bind_eq_ok_iff] at h
    obtain ⟨_, hqualifiers, inside, hinside, h⟩ := h
    obtain rfl := Except.ok.inj hqualifiers
    have hopening : "layout(" ++ "std140" ++ ") uniform " = "layout(std140) uniform " := by decide
    rw [hopening] at h
    exact ⟨_, inside, _, (Except.ok.inj h).symm, .unboundBlock name,
      memberLine_mapM_spec hinside⟩
  | some slot =>
    simp only [lines, bind_eq_ok_iff] at h
    obtain ⟨written, hslot, _, hqualifiers, inside, hinside, h⟩ := h
    obtain rfl := Except.ok.inj hqualifiers
    obtain rfl := writeInt_eq_ok hslot
    have hopening : "layout(" ++ ("binding = " ++ toString slot ++ ", std140") ++ ") uniform " =
        "layout(binding = " ++ toString slot ++ ", std140) uniform " := by
      rw [show "layout(binding = " = "layout(" ++ "binding = " by decide,
        show ", std140) uniform " = ", std140" ++ ") uniform " by decide]
      simp only [String.append_assoc]
    rw [hopening] at h
    exact ⟨_, inside, _, (Except.ok.inj h).symm, .block slot name,
      memberLine_mapM_spec hinside⟩

/-- The lines of a declaration introduce its resource. -/
theorem Declaration.exists_line {d : Declaration} {ls : List String} (h : d.lines = .ok ls)
    {res : Resource} (hres : d.resource? = some res) : ∃ line ∈ ls, res.Line line := by
  cases d with
  | input location type name =>
    obtain rfl := Option.some.inj hres
    simp only [lines, bind_eq_ok_iff] at h
    obtain ⟨slot, hslot, type, htype, h⟩ := h
    obtain rfl := Except.ok.inj h
    obtain rfl := writeInt_eq_ok hslot
    exact ⟨_, List.mem_singleton_self _, .input location name (typeName_eq_ok htype)⟩
  | block binding name members instanceName =>
    obtain rfl := Option.some.inj hres
    obtain ⟨opening, inside, closing, rfl, hopening, _⟩ := lines_block h
    exact ⟨opening, List.mem_cons_self, hopening⟩
  | texture binding type name =>
    obtain rfl := Option.some.inj hres
    cases binding with
    | none =>
      obtain ⟨type, htype, h⟩ := bind_eq_ok_iff.mp h
      obtain rfl := Except.ok.inj h
      exact ⟨_, List.mem_singleton_self _, .unboundSampler name (typeName_eq_ok htype)⟩
    | some slot =>
      simp only [lines, bind_eq_ok_iff] at h
      obtain ⟨written, hslot, type, htype, h⟩ := h
      obtain rfl := Except.ok.inj h
      obtain rfl := writeInt_eq_ok hslot
      exact ⟨_, List.mem_singleton_self _, .sampler slot name (typeName_eq_ok htype)⟩
  | output location type name =>
    obtain rfl := Option.some.inj hres
    simp only [lines, bind_eq_ok_iff] at h
    obtain ⟨slot, hslot, type, htype, h⟩ := h
    obtain rfl := Except.ok.inj h
    obtain rfl := writeInt_eq_ok hslot
    exact ⟨_, List.mem_singleton_self _, .output location name (typeName_eq_ok htype)⟩
  | struct | undefined => simp [resource?] at hres

/-! ## Declarations of a model -/

/-- Whether a declaration belongs to the interface. -/
def Declaration.isInterface (d : Declaration) : Bool := d.resource?.isSome

/-- The declarations of vertex inputs. -/
def inputDeclarations (m : Model) : List Declaration :=
  m.vertexFormat.toList.flatMap fun vf => vf.inputs.map fun i =>
    .input i.location i.type (vf.name ++ "_" ++ i.name)

/-- The declarations of samplers. -/
def textureDeclarations (o : Options) (m : Model) : List Declaration :=
  m.textures.map fun t => .texture (bindingFor o t.binding) t.type t.name

/-- The declarations of outputs. -/
def outputDeclarations (m : Model) : List Declaration :=
  m.outputs.map fun out => .output out.location out.type out.name

/-- The declarations of the interface among those so far. -/
def Emission.interface (e : Emission) : List Declaration :=
  e.declarations.filter Declaration.isInterface

theorem interface_foldl {step : Emission → StructId → Emission}
    (hstep : ∀ e id, (step e id).interface = e.interface) (ids : List StructId) (e : Emission) :
    (ids.foldl step e).interface = e.interface := by
  induction ids generalizing e with
  | nil => rfl
  | cons id rest ih => rw [List.foldl_cons, ih, hstep]

/-- Structs are no declarations of the interface. -/
theorem interface_emitStruct (m : Model) (fuel : Nat) (e : Emission) (id : StructId) :
    (emitStruct m fuel e id).interface = e.interface := by
  induction fuel generalizing e id with
  | zero => rfl
  | succ fuel ih =>
    unfold emitStruct
    split
    · rfl
    · split
      · simp [Emission.interface, Declaration.isInterface, Declaration.resource?]
      · rename_i d _
        have hdependencies := interface_foldl ih d.dependencies ⟨e.declarations, id :: e.emitted⟩
        simp only [Emission.interface] at hdependencies
        simp [Emission.interface, Declaration.isInterface, Declaration.resource?, hdependencies]

theorem interface_emitStructs (m : Model) (emitted : List StructId) (ms : List Member) :
    (emitStructs m emitted ms).interface = [] := by
  rw [emitStructs, interface_foldl (interface_emitStruct m _)]
  rfl

theorem blockDeclaration_eq_ok {o : Options} {b : Buffer} {d : Declaration}
    (h : blockDeclaration o b = .ok d) : ∃ members, b.members.mapM (blockMember o) = .ok members ∧
      d = .block (bindingFor o b.binding) b.name members (instanceName? b) := by
  rw [blockDeclaration, bind_eq_ok_iff] at h
  obtain ⟨members, hmembers, h⟩ := h
  exact ⟨members, hmembers, (Except.ok.inj h).symm⟩

/-- Each buffer has a uniform block, which follows the structs that it needs. -/
theorem bufferItems_filter {a : Source.Annotated} {m : Model} {o : Options}
    {emitted : List StructId} {bs : List Buffer} {is : List Item}
    (h : bufferItems a m o emitted bs = .ok is) :
    bs.mapM (blockDeclaration o) =
      .ok ((is.flatMap Item.declarations).filter Declaration.isInterface) ∧
      ∀ i ∈ is, ∃ position, i.block = blockOf a position := by
  induction bs generalizing emitted is with
  | nil =>
    obtain rfl := Except.ok.inj h
    exact ⟨rfl, by simp⟩
  | cons b rest ih =>
    simp only [bufferItems, bind_eq_ok_iff] at h
    obtain ⟨block, hblock, others, hothers, h⟩ := h
    obtain rfl := Except.ok.inj h
    obtain ⟨hrest, hblocks⟩ := ih hothers
    have hinterface : block.isInterface = true := by
      obtain ⟨_, _, rfl⟩ := blockDeclaration_eq_ok hblock
      rfl
    refine ⟨?_, ?_⟩
    · have hstructs := interface_emitStructs m emitted b.members
      rw [Emission.interface] at hstructs
      simp only [List.mapM_cons, hblock, hrest, List.flatMap_cons, List.filter_append, hstructs,
        List.nil_append]
      simp [hinterface, bind, Except.bind, pure, Except.pure]
    · intro i hi
      rcases List.mem_cons.mp hi with rfl | hi
      · exact ⟨_, rfl⟩
      · exact hblocks i hi

theorem declarations_formatItem (a : Source.Annotated) (m : Model) :
    (m.vertexFormat.toList.map (formatItem a)).flatMap Item.declarations = inputDeclarations m := by
  rw [List.flatMap_map]
  rfl

theorem declarations_textureItem (a : Source.Annotated) (o : Options) (m : Model) :
    (m.textures.map (textureItem a o)).flatMap Item.declarations = textureDeclarations o m := by
  rw [List.flatMap_map, textureDeclarations, List.map_eq_flatMap]
  rfl

theorem declarations_outputItem (a : Source.Annotated) (m : Model) :
    (m.outputs.map (outputItem a)).flatMap Item.declarations = outputDeclarations m := by
  rw [List.flatMap_map, outputDeclarations, List.map_eq_flatMap]
  rfl

theorem filter_inputDeclarations (m : Model) :
    (inputDeclarations m).filter Declaration.isInterface = inputDeclarations m := by
  refine List.filter_eq_self.mpr fun d hd => ?_
  obtain ⟨vf, _, hd⟩ := List.mem_flatMap.mp hd
  obtain ⟨i, _, rfl⟩ := List.mem_map.mp hd
  rfl

theorem filter_textureDeclarations (o : Options) (m : Model) :
    (textureDeclarations o m).filter Declaration.isInterface = textureDeclarations o m := by
  refine List.filter_eq_self.mpr fun d hd => ?_
  obtain ⟨t, _, rfl⟩ := List.mem_map.mp hd
  rfl

theorem filter_outputDeclarations (m : Model) :
    (outputDeclarations m).filter Declaration.isInterface = outputDeclarations m := by
  refine List.filter_eq_self.mpr fun d hd => ?_
  obtain ⟨out, _, rfl⟩ := List.mem_map.mp hd
  rfl

/-- The items of a model hold its declarations, each in a block. -/
theorem items_filter {a : Source.Annotated} {m : Model} {o : Options} {is : List Item}
    (h : items a m o = .ok is) : ∃ blocks, m.buffers.mapM (blockDeclaration o) = .ok blocks ∧
      ((is.flatMap Item.declarations).filter Declaration.isInterface).Perm
        (inputDeclarations m ++ blocks ++ textureDeclarations o m ++ outputDeclarations m) ∧
      ∀ i ∈ is, ∃ position, i.block = blockOf a position := by
  rw [items, bind_eq_ok_iff] at h
  obtain ⟨buffers, hbuffers, h⟩ := h
  obtain rfl := Except.ok.inj h
  obtain ⟨hblocks, hpositions⟩ := bufferItems_filter hbuffers
  refine ⟨_, hblocks, ?_, ?_⟩
  · refine (((List.mergeSort_perm _ _).flatMap_right _).filter _).trans (List.Perm.of_eq ?_)
    simp only [List.flatMap_append, List.filter_append, declarations_formatItem,
      declarations_textureItem, declarations_outputItem, filter_inputDeclarations,
      filter_textureDeclarations, filter_outputDeclarations]
  · intro i hi
    rw [List.mem_mergeSort, List.mem_append, List.mem_append, List.mem_append, List.mem_map,
      List.mem_map, List.mem_map] at hi
    rcases hi with ((⟨vf, _, rfl⟩ | hi) | ⟨t, _, rfl⟩) | ⟨out, _, rfl⟩
    · exact ⟨_, rfl⟩
    · exact hpositions i hi
    · exact ⟨_, rfl⟩
    · exact ⟨_, rfl⟩

/-- A model has no resources. -/
structure Bare (m : Model) : Prop where
  vertexFormat : m.vertexFormat = none
  buffers : m.buffers = []
  textures : m.textures = []
  outputs : m.outputs = []

/-- What is emitted are the declarations of all items, unless a model has resources and its source
has no block. -/
theorem emitted_perm {a : Source.Annotated} {m : Model} {o : Options} {is : List Item}
    (h : items a m o = .ok is) (hroles : a.roles = Source.roles a.lines)
    (hbare : Source.openings a = 0 → Bare m) :
    (emitted a (declarationsOf is)).Perm (is.flatMap Item.declarations) := by
  obtain ⟨_, _, _, hpositions⟩ := items_filter h
  rw [emitted_eq hroles]
  -- A position outside all blocks counts for the first, so there has to be a block for each item.
  by_cases hnone : Source.openings a = 0
  · obtain ⟨hformat, hbuffers, htextures, houtputs⟩ := hbare hnone
    simp only [items, hformat, hbuffers, htextures, houtputs, bufferItems] at h
    obtain rfl := Except.ok.inj h
    simp [hnone]
  · refine declarationsOf_perm fun i hi => ?_
    obtain ⟨position, heq⟩ := hpositions i hi
    rw [heq, blockOf]
    cases hblock : a.blockOf? position.line with
    | none => exact Nat.pos_of_ne_zero hnone
    | some block => exact Source.blockOf?_lt hblock

/-- The interface of a model is emitted, all of it and nothing else, unless it has resources without
having a block. -/
theorem generate_emitted {a : Source.Annotated} {m : Model} {o : Options} {text : String}
    (h : generate a m o = .ok text) (hroles : a.roles = Source.roles a.lines)
    (hbare : Source.openings a = 0 → Bare m) :
    ∃ r ds blocks, Written o a r ds text ∧ m.buffers.mapM (blockDeclaration o) = .ok blocks ∧
      ((emitted a ds).filter Declaration.isInterface).Perm
        (inputDeclarations m ++ blocks ++ textureDeclarations o m ++ outputDeclarations m) := by
  obtain ⟨is, his, hwritten⟩ := generate_written h
  obtain ⟨blocks, hblocks, hperm, _⟩ := items_filter his
  exact ⟨_, _, blocks, hwritten, hblocks, ((emitted_perm his hroles hbare).filter _).trans hperm⟩

/-! ## Correspondence -/

/-- What is read off the uniform blocks of buffers can be read off the buffers. -/
theorem filterMap_blocks {α : Type} {o : Options} {bs : List Buffer} {blocks : List Declaration}
    {f : Declaration → Option α} {g : Buffer → α}
    (hfg : ∀ b d, blockDeclaration o b = .ok d → f d = some (g b))
    (h : bs.mapM (blockDeclaration o) = .ok blocks) : blocks.filterMap f = bs.map g := by
  have hpairs := forall₂_of_mapM h
  clear h
  induction hpairs with
  | nil => rfl
  | cons hd _ ih => rw [List.filterMap_cons_some (hfg _ _ hd), List.map_cons, ih]

/-- The resources of a model. -/
def modelResources (m : Model) : List Resource :=
  (m.vertexFormat.toList.flatMap fun vf => vf.inputs.map fun i =>
      ⟨.vertexAttribute, vf.name ++ "_" ++ i.name, some i.location⟩) ++
    m.buffers.map (fun b => ⟨.constantBuffer, b.name, some b.binding⟩) ++
    m.textures.map (fun t => ⟨.texture, t.name, some t.binding⟩) ++
    m.outputs.map fun out => ⟨.output, out.name, some out.location⟩

theorem sortBySlot_perm {α : Type} (slot : α → Int) (as : List α) :
    (Reflection.sortBySlot slot as).Perm as := List.mergeSort_perm _ _

/-- The resources of a model are recorded. -/
theorem recordedResources_perm (m : Model) :
    (recordedResources (.ofModel m)).Perm (modelResources m) := by
  have hsorted : ∀ {α β : Type} (slot : β → Int) (record : α → β) (f : β → Resource)
      (as : List α), ((Reflection.sortBySlot slot (as.map record)).map f).Perm
        (as.map fun a => f (record a)) := by
    intro α β slot record f as
    simpa [Function.comp_def] using (sortBySlot_perm slot (as.map record)).map f
  refine .append (.append (.append ?_ ?_) ?_) ?_
  · cases hformat : m.vertexFormat with
    | none => simp [Reflection.ofModel, hformat]
    | some vf =>
      simpa [Reflection.ofModel, hformat, Reflection.attributeRecords,
        Reflection.attributeRecord] using hsorted AttributeRecord.location
        (Reflection.attributeRecord vf.name)
        (fun a => ⟨.vertexAttribute, a.name, some a.location⟩) vf.inputs
  · exact hsorted BufferRecord.binding Reflection.bufferRecord _ m.buffers
  · exact hsorted TextureRecord.binding Reflection.textureRecord _ m.textures
  · exact hsorted OutputRecord.location Reflection.outputRecord _ m.outputs

/-- What tells the resources of a class apart. -/
def keysOf (cls : ResourceClass) (names : List String) : List (ResourceClass × String) :=
  names.map fun name => (cls, name)

theorem nodup_keysOf {names : List String} (cls : ResourceClass) (h : names.Nodup) :
    (keysOf cls names).Nodup :=
  h.map fun _ _ heq => (Prod.mk.inj heq).2

theorem disjoint_keysOf {cls cls' : ResourceClass} (h : cls ≠ cls') (names names' : List String) :
    (keysOf cls names).Disjoint (keysOf cls' names') := by
  intro key hleft hright
  obtain ⟨_, _, rfl⟩ := List.mem_map.mp hleft
  obtain ⟨_, _, heq⟩ := List.mem_map.mp hright
  exact h (Prod.mk.inj heq).1.symm

/-- The names under which the inputs of a vertex format are declared. -/
def inputNames (m : Model) : List String :=
  m.vertexFormat.toList.flatMap fun vf => vf.inputs.map fun i => vf.name ++ "_" ++ i.name

theorem nodup_inputNames {m : Model} (h : m.Addressed) : (inputNames m).Nodup := by
  rw [inputNames]
  cases hformat : m.vertexFormat with
  | none => simp
  | some vf =>
    have hnames := (h.inputs vf hformat).names.map (f := fun name => vf.name ++ "_" ++ name)
      fun a b heq => by simpa using heq
    simpa [Function.comp_def] using hnames

/-- Addressed resources differ in class or name. -/
theorem modelResources_distinct {m : Model} (h : m.Addressed) :
    ((modelResources m).map Resource.key).Nodup := by
  have hkeys : (modelResources m).map Resource.key =
      keysOf .vertexAttribute (inputNames m) ++
        keysOf .constantBuffer (m.buffers.map Buffer.name) ++
        keysOf .texture (m.textures.map Texture.name) ++
        keysOf .output (m.outputs.map Output.name) := by
    simp [modelResources, Resource.key, keysOf, inputNames, List.map_flatMap, Function.comp_def]
  rw [hkeys]
  refine .append (.append (.append (nodup_keysOf _ (nodup_inputNames h))
    (nodup_keysOf _ h.buffers.names) ?_) (nodup_keysOf _ h.textures.names) ?_)
    (nodup_keysOf _ h.outputs.names) ?_
  · exact disjoint_keysOf (by decide) _ _
  · exact List.disjoint_append_left.mpr
      ⟨disjoint_keysOf (by decide) _ _, disjoint_keysOf (by decide) _ _⟩
  · exact List.disjoint_append_left.mpr
      ⟨List.disjoint_append_left.mpr ⟨disjoint_keysOf (by decide) _ _,
        disjoint_keysOf (by decide) _ _⟩, disjoint_keysOf (by decide) _ _⟩

/-- What corresponds to a record is stated by every text that it is written to. -/
theorem Corresponds.stated {o : Options} {a : Source.Annotated} {rewriting : Rewriting}
    {ds : Nat → List Declaration} {text : String} {r : Reflection}
    (h : Corresponds o (emitted a ds) r) (hwritten : Written o a rewriting ds text) :
    Stated o text r := by
  constructor
  · intro res hres
    obtain ⟨d, hd, hdeclared⟩ := List.mem_filterMap.mp (h.resources.mem_iff.mpr hres)
    obtain ⟨ls, hls, htext⟩ := hwritten.hasLines hd
    obtain ⟨line, hmem, hline⟩ := Declaration.exists_line hls hdeclared
    obtain ⟨before, after, rfl⟩ := List.append_of_mem hmem
    exact ⟨line, hline, htext.of_infix ⟨before, after, by simp⟩⟩
  · intro version hversion hle b hb
    obtain ⟨d, hd, hmembers⟩ := List.mem_filterMap.mp
      ((h.members version hversion hle).mem_iff.mpr (List.mem_map_of_mem hb))
    cases d with
    | block binding name members instanceName =>
      obtain ⟨rfl, hsame⟩ := Prod.mk.inj (Option.some.inj hmembers)
      obtain ⟨ls, hls, htext⟩ := hwritten.hasLines hd
      obtain ⟨opening, inside, closing, rfl, hopening, hinside⟩ := Declaration.lines_block hls
      -- The block and the record are of one class and name, so they are at one slot.
      have hdeclared : Resource.mk .constantBuffer b.name binding ∈
          (emitted a ds).filterMap Declaration.resource? := List.mem_filterMap.mpr ⟨_, hd, rfl⟩
      have hrecorded : Resource.mk .constantBuffer b.name (some b.binding) ∈
          (emitted a ds).filterMap Declaration.resource? :=
        h.resources.mem_iff.mpr (List.mem_append_left _ (List.mem_append_left _
          (List.mem_append_right _ (List.mem_map.mpr ⟨b, hb, rfl⟩))))
      have hslot := List.inj_on_of_nodup_map h.distinct hdeclared hrecorded rfl
      rw [(Resource.mk.inj hslot).2.2] at hopening
      rw [hsame] at hinside
      exact ⟨opening, inside, closing, htext, hopening, hinside⟩
    | _ => simp [Declaration.blockMembers?] at hmembers

section Emitted

variable {o : Options} {m : Model} {ds blocks : List Declaration}
  (hemitted : (ds.filter Declaration.isInterface).Perm
    (inputDeclarations m ++ blocks ++ textureDeclarations o m ++ outputDeclarations m))
  (hblocks : m.buffers.mapM (blockDeclaration o) = .ok blocks)

include hemitted

/-- What is read off the interface can be read off all that is emitted. -/
theorem filterMap_emitted {α : Type} {f : Declaration → Option α}
    (hf : ∀ d, d.isInterface = false → f d = none) :
    (ds.filterMap f).Perm ((inputDeclarations m).filterMap f ++ blocks.filterMap f ++
      (textureDeclarations o m).filterMap f ++ (outputDeclarations m).filterMap f) := by
  have hinterface : ds.filterMap f = (ds.filter Declaration.isInterface).filterMap f := by
    rw [List.filterMap_filter]
    refine List.filterMap_congr fun d _ => ?_
    cases hd : d.isInterface <;> simp [hd, hf]
  rw [hinterface, ← List.filterMap_append, ← List.filterMap_append, ← List.filterMap_append]
  exact hemitted.filterMap f

include hblocks

/-- The resources of a model are declared. -/
theorem resources_emitted (hbindings : o.explicitBindings = true) :
    (ds.filterMap Declaration.resource?).Perm (modelResources m) := by
  have hbinding : ∀ slot, bindingFor o slot = some slot := fun slot => by
    rw [bindingFor, if_pos hbindings]
  refine (filterMap_emitted hemitted fun d hd => ?_).trans (List.Perm.of_eq ?_)
  · simpa [Declaration.isInterface] using hd
  have hbuffers := filterMap_blocks (f := Declaration.resource?)
    (g := fun b => ⟨.constantBuffer, b.name, some b.binding⟩) (fun b d hd => by
      obtain ⟨_, _, rfl⟩ := blockDeclaration_eq_ok hd
      rw [hbinding]
      rfl) hblocks
  rw [hbuffers]
  simp [modelResources, inputDeclarations, textureDeclarations, outputDeclarations, hbinding,
    Declaration.resource?, List.filterMap_flatMap, List.filterMap_map, Function.comp_def]

/-- The members of buffers are declared with their offsets where the version knows offsets. -/
theorem members_emitted (hoffsets : o.memberOffsets? = some true) :
    (ds.filterMap Declaration.blockMembers?).Perm (m.buffers.map fun b =>
      (b.name, b.members.map fun m => (m.name, some m.offset, m.type.arraySize))) := by
  have hmember : ∀ member d, blockMember o member = .ok d →
      (d.name, d.offset, d.type.arraySize) =
        (member.name, some member.offset, member.type.arraySize) := by
    intro member d hd
    rw [blockMember, hoffsets] at hd
    rw [← Except.ok.inj hd]
    rfl
  have hbuffers := filterMap_blocks (f := Declaration.blockMembers?)
    (g := fun b => (b.name, b.members.map fun m => (m.name, some m.offset, m.type.arraySize)))
    (fun b d hd => by
      obtain ⟨members, hmembers, rfl⟩ := blockDeclaration_eq_ok hd
      rw [Declaration.blockMembers?, map_eq_of_forall₂ (forall₂_of_mapM hmembers) hmember]) hblocks
  have hread := filterMap_emitted (f := Declaration.blockMembers?) hemitted fun d hd => by
    cases d <;> simp_all [Declaration.isInterface, Declaration.resource?, Declaration.blockMembers?]
  rw [hbuffers] at hread
  have hinputs : (inputDeclarations m).filterMap Declaration.blockMembers? = [] := by
    simp [inputDeclarations, List.filterMap_flatMap, Declaration.blockMembers?]
  simpa [hinputs, textureDeclarations, outputDeclarations, Declaration.blockMembers?,
    List.filterMap_map, Function.comp_def] using hread

/-- What is emitted for a model whose resources are addressed corresponds to its record. -/
theorem corresponds (hbindings : o.explicitBindings = true) (h : m.Addressed) :
    Corresponds o ds (.ofModel m) := by
  have hperm := resources_emitted hemitted hblocks hbindings
  refine ⟨hperm.trans (recordedResources_perm m).symm,
    (hperm.map Resource.key).nodup_iff.mpr (modelResources_distinct h), ?_⟩
  intro version hversion hle
  have hoffsets : o.memberOffsets? = some true := by
    rw [Options.memberOffsets?, hversion, Option.map_some, decide_eq_true hle]
  refine (members_emitted hemitted hblocks hoffsets).trans (List.Perm.symm ?_)
  simpa [Reflection.ofModel, Reflection.bufferRecord, Reflection.memberRecord, Function.comp_def]
    using (sortBySlot_perm BufferRecord.binding (m.buffers.map Reflection.bufferRecord)).map
      fun b => (b.name, b.members.map fun m => (m.name, some m.offset, m.arraySize))

end Emitted

/-! ## Order -/

/-- Records of distinct slots ascend when they are sorted. -/
theorem sortBySlot_ascending {α : Type} {slot : α → Int} {as : List α} (h : (as.map slot).Nodup) :
    ((Reflection.sortBySlot slot as).map slot).Pairwise (· < ·) := by
  have hsorted : (Reflection.sortBySlot slot as).Pairwise fun a b => slot a ≤ slot b := by
    refine (List.pairwise_mergeSort ?_ ?_ as).imp of_decide_eq_true
    · intro a b c hab hbc
      rw [decide_eq_true_iff] at *
      exact Int.le_trans hab hbc
    · intro a b
      simpa using Int.le_total (slot a) (slot b)
  -- Sorting gives `≤`, and distinct slots make it strict.
  have hdistinct := ((sortBySlot_perm slot as).map slot).nodup_iff.mpr h
  rw [List.Nodup, List.pairwise_map] at hdistinct
  rw [List.pairwise_map]
  exact (hsorted.and hdistinct).imp fun ⟨hle, hne⟩ => by omega

/-- The records of a model whose resources are addressed ascend. -/
theorem ofModel_ascending {m : Model} (h : m.Addressed) : Ascending (.ofModel m) := by
  refine ⟨?_, ?_, ?_, ?_⟩
  · cases hformat : m.vertexFormat with
    | none => simp [Reflection.ofModel, hformat]
    | some vf =>
      simp only [Reflection.ofModel, hformat, Option.map_some, Option.getD_some]
      exact sortBySlot_ascending (by simpa [Function.comp_def, Reflection.attributeRecord] using
        (h.inputs vf hformat).slots)
  · exact sortBySlot_ascending (by simpa [Function.comp_def, Reflection.bufferRecord] using
      h.buffers.slots)
  · exact sortBySlot_ascending (by simpa [Function.comp_def, Reflection.textureRecord] using
      h.textures.slots)
  · exact sortBySlot_ascending (by simpa [Function.comp_def, Reflection.outputRecord] using
      h.outputs.slots)

end AnnotatedShader.Glsl
