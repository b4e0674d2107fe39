import AnnotatedShader.Proofs.Layout.Unpacked
import AnnotatedShader.Proofs.Model.Introduction
import AnnotatedShader.Proofs.Statement.Comments
import AnnotatedShader.Proofs.Statement.Spelling
import Mathlib

set_option autoImplicit false

/-!
# Room for members

Members that take no room lie on top of those behind them.  A struct of a text has members and its
arrays have elements, which is carried through nested structs and the strides of arrays, so every
member of a struct takes room.  Of the constants outside all structs only an array that is declared
without elements takes none.

A type `TakesRoom` if its arrays have elements and its structs a positive size, and then its extent
is positive (`extent_size_pos`).  Structs are defined in an order in which each stands behind those
that it needs, so that all of them take room is proved along this order (`Derived.roomyStructs`).
`Roomy` members lie strictly one behind the other.

For the root buffer `RootRoom` says the same of all constants but the empty arrays: each starts
where the ones before it end, and if none of them is empty, no two of them start at one offset.
-/

namespace AnnotatedShader

/-! ## Structs of a text -/

/-- A struct has members. -/
def Declaration.HasMembers : Declaration → Prop
  | .buffer _ _ fields | .vertexFormat _ _ fields => fields ≠ []
  | .constant _ | .output _ | .pipeline _ _ | .blendFunc _ _ => True

/-- All structs of a file have members. -/
def Module.HasMembers (m : Module) : Prop :=
  ∀ s ∈ m.statements, ∀ d, s.body = .declare d → d.HasMembers

/-- A file is what a text says. -/
def Module.Parsed (m : Module) : Prop := ∃ text, Statement.parse m.file text = .ok m.statements

namespace Statement

open Grammar

variable {file : String}

theorem propertiesOfTrees_ne_nil {index : Nat} {ts : List PropertyTree} {ps : List Property}
    (h : propertiesOfTrees file index ts = .ok ps) (hts : ts ≠ []) : ps ≠ [] := by
  have hnames := propertiesOfTrees_names h
  rintro rfl
  exact hts (List.map_eq_nil_iff.mp hnames.symm)

theorem hasMembers_of_bodyOfTree {ts : List Token} {t : StatementTree} {d : Declaration}
    (h : DerivesStatement ts t) (hbody : bodyOfTree file t = .ok (.declare d)) : d.HasMembers := by
  have hstruct : ∀ {us : List Token} {name : String} {attr : Option AttributeTree}
      {fields : List PropertyTree}, DerivesStruct us (name, attr, fields) → fields ≠ [] := by
    intro us name attr fields hderives
    cases hderives with
    | struct _ _ _ _ _ hsome => exact hsome
  cases h with
  | statement hword hbehind =>
    cases hbehind with
    | buffer hderives | vertexFormat hderives =>
      simp only [bodyOfTree, bind_eq_ok_iff] at hbody
      obtain ⟨_, _, fields, hfields, hbody⟩ := hbody
      obtain rfl := StatementBody.declare.inj (Except.ok.inj hbody)
      exact propertiesOfTrees_ne_nil hfields (hstruct hderives)
    | use => exact absurd (Except.ok.inj hbody) StatementBody.noConfusion
    | constant | output | pipeline | blendFuncAlone | blendFunc =>
      simp only [bodyOfTree, bind_eq_ok_iff] at hbody
      obtain ⟨_, _, hbody⟩ := hbody
      obtain rfl := StatementBody.declare.inj (Except.ok.inj hbody)
      trivial

theorem ofPhrases_bodies {ps : List Phrase} {ss : List Statement} (h : ofPhrases file ps = .ok ss) :
    ∀ s ∈ ss, ∃ p ∈ ps, bodyOfTree file p.tree = .ok s.body := by
  induction ps generalizing ss with
  | nil =>
    obtain rfl := Except.ok.inj h
    simp
  | cons p rest ih =>
    simp only [ofPhrases, bind_eq_ok_iff] at h
    obtain ⟨body, hbody, others, hothers, h⟩ := h
    obtain rfl := Except.ok.inj h
    refine List.forall_mem_cons.mpr ⟨⟨p, List.mem_cons_self, hbody⟩, fun s hs => ?_⟩
    obtain ⟨q, hq, hqs⟩ := ih hothers s hs
    exact ⟨q, List.mem_cons_of_mem p hq, hqs⟩

end Statement

/-- The grammar asks for a property in every struct. -/
theorem Module.Parsed.hasMembers {m : Module} (h : m.Parsed) : m.HasMembers := by
  obtain ⟨text, h⟩ := h
  obtain ⟨ps, ⟨ts, _, hderives⟩, found, hfound, hstatements⟩ := Statement.parse_eq_ok_iff.mp h
  intro s hs d hd
  rw [hstatements, Statement.inOrder, List.mem_mergeSort, List.mem_append] at hs
  rcases hs with hs | hs
  · obtain ⟨p, hp, hbody⟩ := Statement.ofPhrases_bodies hfound s hs
    obtain ⟨us, _, hphrase⟩ := hderives.exists_of_mem hp
    exact Statement.hasMembers_of_bodyOfTree hphrase.2 (hd ▸ hbody)
  · obtain ⟨t, _, rfl⟩ := List.mem_map.mp hs
    contradiction

/-! ## Extents and layouts -/

namespace Layout.Std140

/-- A type that takes room if structs do: its vectors have components and its arrays elements. -/
def TakesRoom : ShaderType → Prop
  | .vector _ _ size | .matrix _ _ size => 0 < size
  | .array _ element count => 0 < count ∧ TakesRoom element
  | _ => True

/-- All struct layouts that are known take room. -/
def RoomyStructs (structs : StructId → Option Layout) : Prop :=
  ∀ id l, structs id = some l → 0 < l.size

theorem TakesRoom.sized {t : ShaderType} (h : TakesRoom t) : Sized t := by
  induction t with
  | array text element count ih => exact ⟨Int.le_of_lt h.1, ih h.2⟩
  | _ => trivial

theorem vectorExtent_size_pos (c : Component) {size : Nat} (h : 0 < size) :
    0 < (vectorExtent c size).size := by
  have hc := c.size_pos
  unfold vectorExtent
  split
  · exact Int.mul_pos (by decide) hc
  · exact Int.mul_pos (Int.natCast_pos.mpr h) hc

/-- The stride of an array is no smaller than its elements. -/
theorem Extent.Fit.array_size_pos {e : Extent} (h : e.Fit) (hsize : 0 < e.size) {count : Int}
    (hcount : 0 < count) : 0 < (arrayExtent e count).size := by
  rw [arrayExtent_size]
  exact Int.mul_pos (Int.lt_of_lt_of_le hsize h.size_le_stride) hcount

theorem extent_size_pos {structs : StructId → Option Layout} (hs : SoundStructs structs)
    (hroomy : RoomyStructs structs) {t : ShaderType} (ht : TakesRoom t) {e : Extent}
    (h : extent structs t = .ok e) : 0 < e.size := by
  induction t generalizing e with
  | scalar c =>
    obtain rfl := Except.ok.inj h
    exact c.size_pos
  | vector spelling c size =>
    obtain rfl := Except.ok.inj h
    exact vectorExtent_size_pos c ht
  | matrix spelling c size =>
    obtain rfl := Except.ok.inj h
    exact (vectorExtent_fit c size).array_size_pos (vectorExtent_size_pos c ht)
      (Int.natCast_pos.mpr ht)
  | sampler => simp [extent] at h
  | texture kind element => simp [extent] at h
  | struct id =>
    obtain ⟨l, hl, rfl⟩ := extent_struct_eq_ok_iff.mp h
    exact hroomy id l hl
  | array text element count ih =>
    obtain ⟨inner, hinner, rfl⟩ := extent_array_eq_ok_iff.mp h
    exact (extent_fit hs ht.2.sized hinner).array_size_pos (ih ht.2 hinner) ht.1

/-- A layout with a field has room for it. -/
theorem Filled.size_pos {structs : StructId → Option Layout} {fields : List Field} {l : Layout}
    (h : Filled structs fields l) (hs : SoundStructs structs) (hroomy : RoomyStructs structs)
    (hne : fields ≠ []) (htypes : ∀ f ∈ fields, TakesRoom f.type) : 0 < l.size := by
  obtain ⟨f, hf⟩ := List.exists_mem_of_ne_nil fields hne
  obtain ⟨p, _, e, hp⟩ := exists_right_of_forall₂ h.placed hf
  have hpos := extent_size_pos hs hroomy (htypes f hf) hp.extent
  have hstart := hp.start_le
  have hend := hp.le_ending
  have hsize := hp.size
  omega

end Layout.Std140

/-! ## Members -/

namespace Model

open Layout

/-- Members each of which takes room, so that each stands behind all in front of it. -/
structure Roomy (ms : List Member) : Prop where
  size_pos : ∀ mem ∈ ms, 0 < mem.size
  increasing : ms.Pairwise fun a b => a.offset < b.offset
  arrays : ∀ mem ∈ ms, ∀ text element count, mem.type = .array text element count → 0 < count

/-- A struct that is declared with members. -/
def HasFields (d : DeclaredStruct) : Prop := d.fields ≠ []

theorem MemberType.takesRoom {t : ShaderType} (h : MemberType t) : Std140.TakesRoom t := by
  cases h with
  | vector _ _ _ hsize | matrix _ _ _ hsize => exact Nat.lt_of_lt_of_le Nat.two_pos hsize.1
  | scalar | struct => trivial

theorem takesRoom_of_writtenType? {ns : Namespace} {origin : String} {t : TypeRef}
    {type : ShaderType} (h : writtenType? ns origin t = some type) : Std140.TakesRoom type := by
  obtain ⟨base, hbase, rfl | ⟨n, hn, rfl⟩⟩ := writtenType?_cases h
  · exact (memberType_of_namedType? hbase).takesRoom
  · exact ⟨Int.natCast_pos.mpr hn, (memberType_of_namedType? hbase).takesRoom⟩

theorem InPlace.size_pos {structs : StructId → Option Layout} {l : Layout} {mem : Member}
    {e : Std140.Extent} (h : InPlace structs l mem e) (hs : Std140.SoundStructs structs)
    (hroomy : Std140.RoomyStructs structs) (htype : Std140.TakesRoom mem.type) : 0 < mem.size := by
  rw [h.size]
  exact Std140.extent_size_pos hs hroomy htype h.extent

/-- Arranged members of types that take room. -/
theorem Arranged.roomy {structs : StructId → Option Layout} {ms : List Member} {l : Layout}
    (h : Arranged structs ms l) (hs : Std140.SoundStructs structs)
    (hroomy : Std140.RoomyStructs structs) (htypes : ∀ mem ∈ ms, Std140.TakesRoom mem.type) :
    Roomy ms := by
  have hpos : ∀ mem ∈ ms, 0 < mem.size := fun mem hmem => by
    obtain ⟨e, hplace⟩ := h.inPlace mem hmem
    exact hplace.size_pos hs hroomy (htypes mem hmem)
  refine ⟨hpos, h.ordered.imp_of_mem fun ha _ hab => ?_, ?_⟩
  · have := hpos _ ha
    omega
  · intro mem hmem text element count htype
    have htakes := htypes mem hmem
    rw [htype] at htakes
    exact htakes.1

section Structs

variable {ns : Namespace} {origin : String} {fields : List Property} {raw : List Member}
  {defs : List StructDef} {l : Layout}

theorem Body.takesRoom (h : Body ns origin defs fields raw l) :
    ∀ mem ∈ raw, Std140.TakesRoom mem.type := by
  intro mem hmem
  obtain ⟨p, _, hp⟩ := exists_left_of_forall₂ h.typed hmem
  exact takesRoom_of_writtenType? hp.type

theorem Body.size_pos (h : Body ns origin defs fields raw l)
    (hs : Std140.SoundStructs (layoutsOf defs)) (hroomy : Std140.RoomyStructs (layoutsOf defs))
    (hfields : fields ≠ []) : 0 < l.size := by
  have hraw : raw.map fieldOf ≠ [] := by
    rw [← List.length_pos_iff, List.length_map, ← h.typed.length_eq]
    exact List.length_pos_iff.mpr hfields
  exact (h.filled hs).size_pos hs hroomy hraw (List.forall_mem_map.mpr h.takesRoom)

/-- Structs that are declared with members take room, each over those in front of it. -/
theorem Derived.roomyStructs (h : Derived ns HasFields defs) :
    Std140.RoomyStructs (layoutsOf defs) := by
  induction h with
  | nil =>
    intro id l hl
    simp [layoutsOf] at hl
  | @snoc defs d hdefs hd ih =>
    obtain ⟨decl, raw, hfields, _, hbody, _⟩ := hd.body
    intro id l hl
    rw [layoutsOf_snoc hd.fresh] at hl
    split at hl
    · obtain rfl := Option.some.inj hl
      exact hbody.size_pos hdefs.sound ih hfields
    · exact ih id l hl

theorem Body.roomy (h : Body ns origin defs fields raw l) (hdefs : Derived ns HasFields defs) :
    Roomy (placeMembers raw l) :=
  (h.arranged hdefs.sound).roomy hdefs.sound hdefs.roomyStructs (forall_placeMembers h.takesRoom)

end Structs

/-! ## Constants outside all structs -/

/-- The type of a constant takes room unless it is an array without elements. -/
theorem RootOf.takesRoom_or {i : Introduction} {r : RootConstant} (h : RootOf i r) :
    ∃ p, i.declaration = .constant p ∧ i.name = r.member.name ∧
      (p.type.size ≠ some 0 ∧ Std140.TakesRoom r.member.type ∨
        p.type.size = some 0 ∧ ∃ text element, r.member.type = .array text element 0) := by
  obtain ⟨p, t, order, hdecl, _, _, htype, hnumeric, _, _, rfl⟩ := h.source
  have htakes : Std140.TakesRoom t := by
    cases ShaderType.named_of_ofName? htype with
    | vector _ _ _ hsize | matrix _ _ _ hsize => exact Nat.lt_of_lt_of_le Nat.two_pos hsize.1
    | scalar | sampler => trivial
  refine ⟨p, hdecl, rfl, ?_⟩
  cases hsize : p.type.size with
  | none => exact .inl ⟨by simp, htakes⟩
  | some n =>
    cases n with
    | zero => exact .inr ⟨rfl, _, _, rfl⟩
    | succ n => exact .inl ⟨by simp, Int.natCast_pos.mpr n.succ_pos, htakes⟩

/-- An array without elements takes no room. -/
theorem InPlace.size_eq_zero {structs : StructId → Option Layout} {l : Layout} {mem : Member}
    {e : Std140.Extent} (h : InPlace structs l mem e) {text : String} {element : ShaderType}
    (htype : mem.type = .array text element 0) : mem.size = 0 := by
  obtain ⟨inner, _, rfl⟩ := Std140.extent_array_eq_ok_iff.mp (htype ▸ h.extent)
  rw [h.size, Std140.arrayExtent_size, Int.mul_zero]

/-- No constant of a file is declared as an array without elements. -/
def NoEmptyConstant (m : Module) (imports : List ResolvedImport) : Prop :=
  ∀ i p, Introduces m.file imports 0 m.statements i → i.declaration = .constant p →
    p.type.size ≠ some 0

/-- What room the constants of a root buffer take: none where one is declared as an array without
elements, and only there. -/
structure RootRoom (m : Module) (imports : List ResolvedImport) (b : Buffer) : Prop where
  ordered : b.members.Pairwise fun a c => a.offset + a.size ≤ c.offset
  empty_iff : ∀ mem ∈ b.members, 0 ≤ mem.size ∧
    ∃ i p, Introduces m.file imports 0 m.statements i ∧ i.name = mem.name ∧
      i.declaration = .constant p ∧ (mem.size = 0 ↔ p.type.size = some 0)
  roomy : NoEmptyConstant m imports → Roomy b.members

theorem RootBuffer.room {m : Module} {imports : List ResolvedImport} {roots : List RootConstant}
    {b : Buffer} (h : RootBuffer m.file roots b)
    (hroots : ∀ r ∈ roots, ∃ i, Introduces m.file imports 0 m.statements i ∧ RootOf i r) :
    RootRoom m imports b := by
  have hnone : Std140.SoundStructs fun _ => none := by simp [Std140.SoundStructs]
  have hnone' : Std140.RoomyStructs fun _ => none := by simp [Std140.RoomyStructs]
  have harranged := h.arranged fun r hr => by
    obtain ⟨i, _, hi⟩ := hroots r hr
    exact ⟨i, hi⟩
  -- Each member is a constant, with the type that it is declared with.
  have hsource : ∀ mem ∈ b.members, ∃ i p, Introduces m.file imports 0 m.statements i ∧
      i.name = mem.name ∧ i.declaration = .constant p ∧
      (p.type.size ≠ some 0 ∧ Std140.TakesRoom mem.type ∨
        p.type.size = some 0 ∧ ∃ text element, mem.type = .array text element 0) := by
    intro mem hmem
    obtain ⟨first, rest, _, heq⟩ := h.eq
    rw [heq] at hmem
    obtain ⟨_, hraw, _, _, rfl⟩ := exists_of_mem_placeMembers hmem
    obtain ⟨r, hr, rfl⟩ := List.mem_map.mp hraw
    obtain ⟨i, hi, hof⟩ := hroots r hr
    obtain ⟨p, hdecl, hname, hcases⟩ := hof.takesRoom_or
    exact ⟨i, p, hi, hname, hdecl, hcases⟩
  refine ⟨harranged.ordered, fun mem hmem => ?_, fun hno => ?_⟩
  · obtain ⟨e, hplace⟩ := harranged.inPlace mem hmem
    obtain ⟨i, p, hi, hname, hdecl, hcases⟩ := hsource mem hmem
    refine ⟨hplace.size ▸ hplace.fit.size_nonneg, i, p, hi, hname, hdecl, ?_⟩
    rcases hcases with ⟨hsize, htakes⟩ | ⟨hsize, _, _, htype⟩
    · have hpos := hplace.size_pos hnone hnone' htakes
      exact iff_of_false (by omega) hsize
    · exact iff_of_true (hplace.size_eq_zero htype) hsize
  · refine harranged.roomy hnone hnone' fun mem hmem => ?_
    obtain ⟨i, p, hi, _, hdecl, hcases⟩ := hsource mem hmem
    exact (hcases.resolve_right fun hempty => hno i p hi hdecl hempty.1).2

/-! ## Models -/

section Modules

variable {ms : List Module} (hms : ∀ m ∈ ms, m.HasMembers)

include hms

theorem hasMembers_of_lookup {file name : String} {sym : Symbol}
    (h : (Namespace.ofModules ms).lookup file name = some sym) : sym.declaration.HasMembers := by
  obtain ⟨_, _, m, hm, _, hdeclared⟩ := Namespace.lookup_ofModules_eq_some h
  exact hms m hm _ (Module.mem_statements_of_mem_declarations hdeclared) _ rfl

theorem coversNames_hasFields : CoversNames (Namespace.ofModules ms) HasFields := by
  intro origin name d h
  obtain ⟨sym, hresolve, hstruct⟩ := Option.bind_eq_some_iff.mp h
  have hmembers := hasMembers_of_lookup hms (Namespace.lookup_of_resolveName hresolve)
  unfold Symbol.struct? at hstruct
  split at hstruct
  · rename_i hdecl
    rw [hdecl] at hmembers
    rw [← Option.some.inj hstruct]
    exact hmembers
  · contradiction

theorem coversStructs_hasFields {m : Module} (hm : m.HasMembers) {imports : List ResolvedImport}
    (himports : m.resolveImports (Namespace.ofModules ms) = .ok imports) :
    CoversStructs HasFields (Introduces m.file imports 0 m.statements) := by
  intro i hi name attr fields hdecl
  suffices hmembers : i.declaration.HasMembers by
    rw [hdecl] at hmembers
    exact hmembers
  obtain ⟨k, s, hs, hby⟩ := hi.introducedBy
  cases hby with
  | declare d hbody => exact hm s hs d hbody
  | use r hbody hmem =>
    obtain ⟨entry, _, hresolves⟩ :=
      exists_left_of_forall₂ (Module.resolveImports_eq_ok himports).2 hmem
    exact hasMembers_of_lookup hms hresolves.lookup

end Modules

/-- In a model that is built from parsed files every member of a struct, and every member of a
buffer that a struct declares, takes room: the offsets increase from member to member, and no array
is without elements.  So do the members of the root buffer, unless one of its constants is declared
as an array without elements; such a constant takes no room, and all others do. -/
theorem build_roomy {ms : List Module} (hms : ∀ m ∈ ms, m.Parsed) {m : Module} (hm : m.Parsed)
    {stage : Stage} {imports : List ResolvedImport}
    (himports : m.resolveImports (.ofModules ms) = .ok imports) {model : Model}
    (h : build m stage (.ofModules ms) imports = .ok model) :
    (∀ d ∈ model.structs, Roomy d.members) ∧
    ∀ b ∈ model.buffers, (b.isRoot = false → Roomy b.members) ∧
      (b.isRoot = true → RootRoom m imports b) := by
  have hmembers : ∀ m ∈ ms, m.HasMembers := fun m hm => (hms m hm).hasMembers
  have haccepted := build_accepted (coversNames_hasFields hmembers)
    (coversStructs_hasFields hmembers hm.hasMembers himports) h
  have hstructs := haccepted.structs
  constructor
  · intro d hd
    obtain ⟨decl, raw, _, _, hbody, hplaced⟩ := hstructs.body hd
    rw [hplaced]
    exact hbody.roomy hstructs
  · intro b hb
    rcases haccepted.buffers b hb with ⟨i, _, hof⟩ | ⟨roots, hroot, _, hroots⟩
    · obtain ⟨name, attr, fields, order, raw, _, _, _, hbody, heq⟩ := hof.source
      have hplaced : b.members = placeMembers raw b.layout := by rw [heq]
      have hfalse : b.isRoot = false := by rw [heq]
      exact ⟨fun _ => hplaced ▸ hbody.roomy hstructs,
        fun htrue => absurd (hfalse.symm.trans htrue) Bool.false_ne_true⟩
    · obtain ⟨first, rest, _, heq⟩ := hroot.eq
      have htrue : b.isRoot = true := by rw [heq]
      exact ⟨fun hfalse => absurd (hfalse.symm.trans htrue) Bool.false_ne_true,
        fun _ => hroot.room hroots⟩

end Model

/-- What a text says, where all its statements are phrases. -/
theorem Module.Parsed.of_phrases {m : Module} {text : String}
    (h : ((Statement.phrasesOfScan m.file (Lexer.scan text)).toOption.any fun ps =>
      Statement.ofPhrases m.file ps = .ok m.statements ∧
        Statement.commentsApart ps (Lexer.scan text).tokens = []) = true) : m.Parsed := by
  obtain ⟨ps, hps, hany⟩ := exists_eq_ok_of_any h
  obtain ⟨hss, hcomments⟩ := of_decide_eq_true hany
  exact ⟨text, Statement.parse_of_phrases hps hss hcomments⟩

namespace Model

/-- A struct with an array in front of a number. -/
def lantern : Module :=
  ⟨"lantern", [⟨.start, .declare (.buffer "Lantern" none
    [⟨⟨"vec3f", none, some 2⟩, "Glass", none, 0, ⟨1, 33⟩⟩,
      ⟨⟨"float", none, none⟩, "Wick", none, 1, ⟨1, 46⟩⟩])⟩]⟩

/-- A constant without elements in front of a number. -/
def dusk : Module :=
  ⟨"dusk", [⟨.start, .declare (.constant ⟨⟨"float", none, some 0⟩, "Dusk", none, 0, ⟨1, 16⟩⟩)⟩,
    ⟨⟨1, 22⟩, .declare (.constant ⟨⟨"float", none, none⟩, "Glow", none, 0, ⟨1, 34⟩⟩)⟩]⟩

/-- The offsets and sizes of the members of each buffer. -/
def rooms (m : Model) : List (List (Int × Int)) :=
  m.buffers.map fun b => b.members.map fun mem => (mem.offset, mem.size)

/-- The lantern has room for its glass.  The constant without elements takes none, so the number
stands at its place. -/
theorem build_roomy_lantern : (∀ m ∈ [lantern, dusk], m.Parsed) ∧
    (∃ model, build lantern .pixel (.ofModules [lantern, dusk]) [] = .ok model ∧
      model.rooms = [[(0, 32), (32, 4)]] ∧ ∀ b ∈ model.buffers, Roomy b.members) ∧
    ∃ model, build dusk .pixel (.ofModules [lantern, dusk]) [] = .ok model ∧
      model.rooms = [[(0, 0), (0, 4)]] ∧ ∀ b ∈ model.buffers, RootRoom dusk [] b := by
  have hlantern : lantern.Parsed :=
    @Module.Parsed.of_phrases _ "const struct Lantern \x7b vec3f[2] Glass; float Wick; \x7d"
      (by decide +kernel)
  have hdusk : dusk.Parsed :=
    @Module.Parsed.of_phrases _ "const float[0] Dusk; const float Glow;" (by decide +kernel)
  have hms : ∀ m ∈ [lantern, dusk], m.Parsed := by
    simpa using ⟨hlantern, hdusk⟩
  obtain ⟨bright, hbright, hrooms⟩ := exists_eq_ok_of_any
    (show ((build lantern .pixel (.ofModules [lantern, dusk]) []).toOption.any fun model =>
      model.rooms = [[(0, 32), (32, 4)]] ∧ ∀ b ∈ model.buffers, b.isRoot = false) = true by cbv)
  obtain ⟨dark, hdark, hrooms'⟩ := exists_eq_ok_of_any
    (show ((build dusk .pixel (.ofModules [lantern, dusk]) []).toOption.any fun model =>
      model.rooms = [[(0, 0), (0, 4)]] ∧ ∀ b ∈ model.buffers, b.isRoot = true) = true by cbv)
  obtain ⟨hrooms, hplain⟩ := of_decide_eq_true hrooms
  obtain ⟨hrooms', hroot⟩ := of_decide_eq_true hrooms'
  have himports : lantern.resolveImports (.ofModules [lantern, dusk]) = .ok [] := by cbv
  have himports' : dusk.resolveImports (.ofModules [lantern, dusk]) = .ok [] := by cbv
  exact ⟨hms, ⟨bright, hbright, hrooms, fun b hb =>
      ((build_roomy hms hlantern himports hbright).2 b hb).1 (hplain b hb)⟩,
    dark, hdark, hrooms', fun b hb =>
      ((build_roomy hms hdusk himports' hdark).2 b hb).2 (hroot b hb)⟩

end Model

end AnnotatedShader
