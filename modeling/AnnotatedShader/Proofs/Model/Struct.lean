import AnnotatedShader.Model.Struct
import AnnotatedShader.Proofs.Layout.Placement
import AnnotatedShader.ShaderType

set_option autoImplicit false

/-!
# Definitions of structs

What the definition of structs leaves behind.  `Body` says what the members and the layout of a
struct are, given the definitions that its members refer to.  `Derived` says of a list of
definitions that each one has such a body over those in front of it.  A struct is only ever added at
the end of a list, so `Body` is stated in a form that survives later additions (`Body.grow`).

The members of a struct depend on its fields and its file alone: `writtenType?` reads a type without
defining anything.  So two runs of the definition that meet a struct give it the same members,
whatever each has defined before.

Each step of the recursion has one lemma that says what it defines (`baseType_spec`,
`memberType_spec`, `members_spec`, `structBody_spec`), for any definer that keeps `Defines`.
`define_spec` closes the recursion by induction on the fuel, and no other file opens it for what it
leaves behind.
-/

/-!
## Types of names

A name alone denotes a scalar, a vector, a matrix or the sampler type, never a struct, a texture or
an array.
-/

namespace AnnotatedShader.ShaderType

/-- The types that a name can denote. -/
inductive Named : ShaderType → Prop
  | scalar (c : Component) : Named (.scalar c)
  | vector (spelling : String) (c : Component) (size : Nat) (hsize : 2 ≤ size ∧ size ≤ 4) :
    Named (.vector spelling c size)
  | matrix (spelling : String) (c : Component) (size : Nat) (hsize : 2 ≤ size ∧ size ≤ 4) :
    Named (.matrix spelling c size)
  | sampler : Named .sampler

theorem sizeOfDigit?_bounds {c : Char} {size : Nat} (h : sizeOfDigit? c = some size) :
    2 ≤ size ∧ size ≤ 4 := by
  unfold sizeOfDigit? at h
  split at h
  · obtain rfl := Option.some.inj h
    decide
  · split at h
    · obtain rfl := Option.some.inj h
      decide
    · split at h
      · obtain rfl := Option.some.inj h
        decide
      · simp at h

/-- A digit and a letter of a shape make a size within its bounds. -/
theorem size_bounds_of_parts {digit letter : Char} {size : Nat} {c : Component}
    (h : ((sizeOfDigit? digit).bind fun size => (Component.ofLetter? letter).bind fun c =>
      some (size, c)) = some (size, c)) : 2 ≤ size ∧ size ≤ 4 := by
  obtain ⟨found, hfound, hrest⟩ := Option.bind_eq_some_iff.mp h
  obtain ⟨_, _, heq⟩ := Option.bind_eq_some_iff.mp hrest
  obtain ⟨rfl, rfl⟩ := Prod.mk.inj (Option.some.inj heq)
  exact sizeOfDigit?_bounds hfound

theorem named_of_ofShapedName? {text : String} {t : ShaderType}
    (h : ofShapedName? text = some t) : Named t := by
  unfold ofShapedName? at h
  simp only [Option.bind_eq_bind] at h
  split at h
  · split at h
    · rw [Option.map_eq_some_iff] at h
      obtain ⟨⟨size, c⟩, hparts, rfl⟩ := h
      exact .vector _ _ _ (size_bounds_of_parts hparts)
    · simp at h
  · split at h
    · split at h
      · simp at h
      · rename_i size c _ hparts
        obtain rfl := Option.some.inj h
        exact .matrix _ _ _ (size_bounds_of_parts hparts)
      · simp at h
    · simp at h
  · simp at h

theorem named_of_ofName? {text : String} {t : ShaderType} (h : ofName? text = some t) :
    Named t := by
  unfold ofName? at h
  split at h
  · obtain rfl := Option.some.inj h
    exact .scalar _
  · split at h
    · obtain rfl := Option.some.inj h
      exact .sampler
    · exact named_of_ofShapedName? h

end AnnotatedShader.ShaderType

namespace AnnotatedShader.Model

open AnnotatedShader.Layout

/-! ## Types of members -/

/-- The type that a name denotes inside the structs of a file. -/
def namedType? (ns : Namespace) (origin name : String) : Option ShaderType :=
  match ShaderType.ofName? name with
  | some base => if base.isObject then none else some base
  | none => ((ns.resolveName origin name).bind Symbol.struct?).map fun d => .struct d.id

/-- The type that a written type denotes inside the structs of a file. -/
def writtenType? (ns : Namespace) (origin : String) (t : TypeRef) : Option ShaderType :=
  if t.element.isSome then none
  else
    (namedType? ns origin t.name).bind fun base =>
      match t.size with
      | none => some base
      | some 0 => none
      | some n => some (.array t.render base n)

/-- The types of members: numbers, structs, and arrays of them that are not empty. -/
inductive MemberType : ShaderType → Prop
  | scalar (c : Component) : MemberType (.scalar c)
  | vector (spelling : String) (c : Component) (size : Nat) (hsize : 2 ≤ size ∧ size ≤ 4) :
    MemberType (.vector spelling c size)
  | matrix (spelling : String) (c : Component) (size : Nat) (hsize : 2 ≤ size ∧ size ≤ 4) :
    MemberType (.matrix spelling c size)
  | struct (id : StructId) : MemberType (.struct id)

theorem memberType_of_namedType? {ns : Namespace} {origin name : String} {t : ShaderType}
    (h : namedType? ns origin name = some t) : MemberType t := by
  unfold namedType? at h
  split at h
  · rename_i base hbase
    split at h
    · simp at h
    · rename_i hobject
      obtain rfl := Option.some.inj h
      cases ShaderType.named_of_ofName? hbase with
      | scalar c => exact .scalar c
      | vector spelling c size hsize => exact .vector spelling c size hsize
      | matrix spelling c size hsize => exact .matrix spelling c size hsize
      | sampler => simp [ShaderType.isObject] at hobject
  · obtain ⟨d, _, rfl⟩ := Option.map_eq_some_iff.mp h
    exact .struct d.id

/-- A written type denotes a type of members or an array of one, with at least one element. -/
theorem writtenType?_cases {ns : Namespace} {origin : String} {t : TypeRef} {type : ShaderType}
    (h : writtenType? ns origin t = some type) :
    ∃ base, namedType? ns origin t.name = some base ∧
      (type = base ∨ ∃ n : Nat, 0 < n ∧ type = .array t.render base n) := by
  unfold writtenType? at h
  split at h
  · simp at h
  · obtain ⟨base, hbase, h⟩ := Option.bind_eq_some_iff.mp h
    refine ⟨base, hbase, ?_⟩
    split at h
    · exact Or.inl (Option.some.inj h).symm
    · simp at h
    · rename_i n hn _
      exact Or.inr ⟨n, Nat.pos_of_ne_zero hn, (Option.some.inj h).symm⟩

theorem MemberType.sized {t : ShaderType} (h : MemberType t) : Std140.Sized t := by
  cases h <;> trivial

theorem sized_of_writtenType? {ns : Namespace} {origin : String} {t : TypeRef} {type : ShaderType}
    (h : writtenType? ns origin t = some type) : Std140.Sized type := by
  obtain ⟨base, hbase, rfl | ⟨n, _, rfl⟩⟩ := writtenType?_cases h
  · exact (memberType_of_namedType? hbase).sized
  · exact ⟨Int.natCast_nonneg n, (memberType_of_namedType? hbase).sized⟩

/-! ## Bodies -/

/-- What a field becomes before it is placed. -/
structure MemberOf (ns : Namespace) (origin : String) (p : Property) (m : Member) : Prop where
  type : writtenType? ns origin p.type = some m.type
  attr : p.attr = none ∨ p.attr = some .pack ∧ m.type.isPackable = true
  eq : m = ⟨p.name, m.type, p.type.render, p.attr, p.index, 0, 0⟩

/-- A placed member is a member with an offset and a size. -/
theorem exists_of_mem_placeMembers {raw : List Member} {l : Layout} {mem : Member}
    (h : mem ∈ placeMembers raw l) : ∃ r ∈ raw, ∃ offset size, mem = { r with offset, size } := by
  rw [placeMembers, ← List.map_uncurry_zip_eq_zipWith] at h
  obtain ⟨⟨r, place⟩, hzip, rfl⟩ := List.mem_map.mp h
  exact ⟨r, (List.of_mem_zip hzip).1, place.offset, place.size, rfl⟩

/-- The members `raw` of a struct, not yet placed, and its layout, as the fields of the struct give
them when the structs of the members are defined. -/
structure Body (ns : Namespace) (origin : String) (defs : List StructDef)
    (fields : List Property) (raw : List Member) (l : Layout) : Prop where
  typed : List.Forall₂ (MemberOf ns origin) fields raw
  names : (fields.map Property.name).Nodup
  known : ∀ m ∈ raw, ∀ id, m.type.structId? = some id → id ∈ defs.map StructDef.id
  layout : Std140.ofFields (layoutsOf defs) (raw.map fieldOf) = .ok l
  aligned : checkAligned (layoutsOf defs) origin ((placeMembers raw l).zip fields) = .ok ()

/-- A definition with a body over other definitions; it defines a struct of a class `Known`. -/
structure Defined (ns : Namespace) (Known : DeclaredStruct → Prop) (defs : List StructDef)
    (d : StructDef) : Prop where
  fresh : d.id ∉ defs.map StructDef.id
  body : ∃ decl raw, Known decl ∧ decl.id = d.id ∧
    Body ns d.id.origin defs decl.fields raw d.layout ∧ d.members = placeMembers raw d.layout
  dependencies : d.dependencies = dependenciesOf d.members

/-- Definitions in the order of their dependencies. -/
inductive Derived (ns : Namespace) (Known : DeclaredStruct → Prop) : List StructDef → Prop
  | nil : Derived ns Known []
  | snoc {defs : List StructDef} {d : StructDef} :
    Derived ns Known defs → Defined ns Known defs d → Derived ns Known (defs ++ [d])

/-- Definitions that have been added to others, none of them of a struct under definition. -/
structure Grown (ns : Namespace) (Known : DeclaredStruct → Prop) (underDefinition : List StructId)
    (defs defs' : List StructDef) : Prop where
  derived : Derived ns Known defs'
  before : defs <+: defs'
  avoids : ∀ id ∈ underDefinition, id ∈ defs'.map StructDef.id → id ∈ defs.map StructDef.id

/-- Every struct that a name can denote is of a class. -/
def CoversNames (ns : Namespace) (Known : DeclaredStruct → Prop) : Prop :=
  ∀ origin name d, (ns.resolveName origin name).bind Symbol.struct? = some d → Known d

/-- A way to define structs that keeps the order of dependencies. -/
def Defines (ns : Namespace) (Known : DeclaredStruct → Prop) (underDefinition : List StructId)
    (define : Definer) : Prop :=
  ∀ defs d defs', Derived ns Known defs → Known d → define defs d = .ok defs' →
    Grown ns Known underDefinition defs defs' ∧ d.id ∈ defs'.map StructDef.id

/-! ## Later additions -/

theorem layoutsOf_extends {defs defs' : List StructDef} (h : defs <+: defs') :
    Std140.Extends (layoutsOf defs) (layoutsOf defs') := by
  intro id l hl
  obtain ⟨d, hd, rfl⟩ := Option.map_eq_some_iff.mp hl
  exact Option.map_eq_some_iff.mpr ⟨d, h.find?_eq_some hd, rfl⟩

theorem mem_ids_of_prefix {defs defs' : List StructDef} (h : defs <+: defs') {id : StructId}
    (hid : id ∈ defs.map StructDef.id) : id ∈ defs'.map StructDef.id :=
  (h.map StructDef.id).subset hid

theorem checkAligned_extends {structs structs' : StructId → Option Layout}
    (hs : Std140.Extends structs structs') {origin : String} {ms : List (Member × Property)}
    (h : checkAligned structs origin ms = .ok ()) : checkAligned structs' origin ms = .ok () := by
  induction ms with
  | nil => rfl
  | cons entry rest ih =>
    obtain ⟨m, p⟩ := entry
    unfold checkAligned at h ⊢
    split at h
    · rename_i hpack
      rw [if_pos hpack, bind_eq_ok_iff]
      rw [bind_eq_ok_iff] at h
      obtain ⟨e, he, h⟩ := h
      refine ⟨e, ?_, ?_⟩
      · cases hextent : Std140.extent structs m.type with
        | error misfit => simp [hextent, fitting] at he
        | ok e' =>
          rw [Std140.extent_extends hs hextent]
          rwa [hextent] at he
      · split at h
        · rename_i hmod
          rw [if_pos hmod]
          exact ih h
        · simp at h
    · rename_i hpack
      rw [if_neg hpack]
      exact ih h

/-- The body of a struct stays what it is when definitions are added. -/
theorem Body.grow {ns : Namespace} {origin : String} {defs defs' : List StructDef}
    {fields : List Property} {raw : List Member} {l : Layout}
    (hb : Body ns origin defs fields raw l) (h : defs <+: defs') :
    Body ns origin defs' fields raw l where
  typed := hb.typed
  names := hb.names
  known m hm id hid := mem_ids_of_prefix h (hb.known m hm id hid)
  layout := Std140.ofFields_extends (layoutsOf_extends h) hb.layout
  aligned := checkAligned_extends (layoutsOf_extends h) hb.aligned

section Growth

variable {ns : Namespace} {Known : DeclaredStruct → Prop} {underDefinition : List StructId}

theorem Grown.refl {defs : List StructDef} (h : Derived ns Known defs) :
    Grown ns Known underDefinition defs defs :=
  ⟨h, List.prefix_rfl, fun _ _ hid => hid⟩

theorem Grown.trans {a b c : List StructDef} (h : Grown ns Known underDefinition a b)
    (h' : Grown ns Known underDefinition b c) : Grown ns Known underDefinition a c :=
  ⟨h'.derived, h.before.trans h'.before, fun id hid hc => h.avoids id hid (h'.avoids id hid hc)⟩

/-- No struct is defined twice. -/
theorem Derived.nodup {defs : List StructDef} (h : Derived ns Known defs) :
    (defs.map StructDef.id).Nodup := by
  induction h with
  | nil => exact .nil
  | snoc _ hd ih =>
    rw [List.map_append, List.nodup_append]
    refine ⟨ih, by simp, ?_⟩
    intro id hid other hother heq
    rw [List.map_singleton, List.mem_singleton] at hother
    exact hd.fresh (hother ▸ heq ▸ hid)

/-- Every definition in a list has its body over the whole list. -/
theorem Derived.body {defs : List StructDef} (h : Derived ns Known defs) {d : StructDef}
    (hd : d ∈ defs) :
    ∃ decl raw, Known decl ∧ decl.id = d.id ∧
      Body ns d.id.origin defs decl.fields raw d.layout ∧
      d.members = placeMembers raw d.layout := by
  induction h with
  | nil => simp at hd
  | snoc _ hlast ih =>
    rcases List.mem_append.mp hd with hd | hd
    · obtain ⟨decl, raw, hknown, hid, hbody, hmembers⟩ := ih hd
      exact ⟨decl, raw, hknown, hid, hbody.grow (List.prefix_append ..), hmembers⟩
    · obtain rfl := List.mem_singleton.mp hd
      obtain ⟨decl, raw, hknown, hid, hbody, hmembers⟩ := hlast.body
      exact ⟨decl, raw, hknown, hid, hbody.grow (List.prefix_append ..), hmembers⟩

/-! ## What each step defines -/

variable {define : Definer} (hcovers : CoversNames ns Known)
  (hdefines : Defines ns Known underDefinition define)

include hcovers hdefines

theorem baseType_spec {origin : String} {defs defs' : List StructDef} {p : Property}
    {base : ShaderType} (hdefs : Derived ns Known defs)
    (h : baseType ns define origin defs p = .ok (base, defs')) :
    namedType? ns origin p.type.name = some base ∧ Grown ns Known underDefinition defs defs' ∧
      ∀ id, base = .struct id → id ∈ defs'.map StructDef.id := by
  unfold baseType at h
  split at h
  · rename_i named hnamed
    split at h
    · simp [Failure.at_] at h
    · rename_i hobject
      obtain ⟨rfl, rfl⟩ := Prod.mk.inj (Except.ok.inj h)
      refine ⟨by simp [namedType?, hnamed, hobject], .refl hdefs, ?_⟩
      rintro id rfl
      cases ShaderType.named_of_ofName? hnamed
  · rename_i hnamed
    split at h
    · simp [Failure.at_] at h
    · rename_i d hd
      rw [bind_eq_ok_iff] at h
      obtain ⟨grown, hgrown, h⟩ := h
      obtain ⟨rfl, rfl⟩ := Prod.mk.inj (Except.ok.inj h)
      obtain ⟨hg, hmem⟩ := hdefines defs d grown hdefs (hcovers origin _ d hd) hgrown
      refine ⟨by simp [namedType?, hnamed, hd], hg, ?_⟩
      rintro id heq
      obtain rfl := ShaderType.struct.inj heq
      exact hmem

theorem memberType_spec {origin : String} {defs defs' : List StructDef} {p : Property}
    {t : ShaderType} (hdefs : Derived ns Known defs)
    (h : memberType ns define origin defs p = .ok (t, defs')) :
    writtenType? ns origin p.type = some t ∧ Grown ns Known underDefinition defs defs' ∧
      ∀ id, t.structId? = some id → id ∈ defs'.map StructDef.id := by
  unfold memberType at h
  split at h
  · simp [Failure.at_] at h
  · rename_i helement
    rw [bind_eq_ok_iff] at h
    obtain ⟨⟨base, grown⟩, hbase, h⟩ := h
    obtain ⟨hnamed, hgrown, hknown⟩ := baseType_spec hcovers hdefines hdefs hbase
    have hstruct : ∀ id, base.structId? = some id → id ∈ grown.map StructDef.id := by
      intro id hid
      cases memberType_of_namedType? hnamed with
      | struct id' => exact hknown id (by rw [Option.some.inj hid])
      | _ => simp [ShaderType.structId?] at hid
    simp only at h
    split at h
    · rename_i hsize
      obtain ⟨rfl, rfl⟩ := Prod.mk.inj (Except.ok.inj h)
      exact ⟨by simp [writtenType?, helement, hnamed, hsize], hgrown, hstruct⟩
    · simp [Failure.at_] at h
    · rename_i n hzero hsize
      obtain ⟨rfl, rfl⟩ := Prod.mk.inj (Except.ok.inj h)
      refine ⟨?_, hgrown, ?_⟩
      · cases n with
        | zero => exact absurd rfl hzero
        | succ n => simp [writtenType?, helement, hnamed, hsize]
      · intro id hid
        cases memberType_of_namedType? hnamed with
        | struct id' => exact hknown id (by rw [Option.some.inj hid])
        | _ => simp [ShaderType.structId?] at hid

omit hcovers hdefines in
theorem attr_of_memberMisuse?_eq_none {owner : String} {p : Property} {t : ShaderType}
    (h : memberMisuse? owner p t = none) :
    p.attr = none ∨ p.attr = some .pack ∧ t.isPackable = true := by
  unfold memberMisuse? at h
  split at h
  · rename_i hattr
    split at h
    · rename_i hpackable
      exact Or.inr ⟨hattr, hpackable⟩
    · simp at h
  · simp at h
  · rename_i hattr
    exact Or.inl hattr

theorem members_spec {origin owner : String} {fields : List Property} {seen : List String}
    {defs defs' : List StructDef} {raw : List Member} (hdefs : Derived ns Known defs)
    (h : members ns define origin owner seen defs fields = .ok (raw, defs')) :
    List.Forall₂ (MemberOf ns origin) fields raw ∧
      (fields.map Property.name).Nodup ∧ (∀ name ∈ fields.map Property.name, name ∉ seen) ∧
      Grown ns Known underDefinition defs defs' ∧
      ∀ m ∈ raw, ∀ id, m.type.structId? = some id → id ∈ defs'.map StructDef.id := by
  induction fields generalizing seen defs raw with
  | nil =>
    obtain ⟨rfl, rfl⟩ := Prod.mk.inj (Except.ok.inj h)
    exact ⟨.nil, .nil, by simp, .refl hdefs, by simp⟩
  | cons p rest ih =>
    unfold members at h
    split at h
    · simp [Failure.at_] at h
    · rename_i hseen
      rw [bind_eq_ok_iff] at h
      obtain ⟨⟨t, mid⟩, htype, h⟩ := h
      obtain ⟨hwritten, hmid, hknown⟩ := memberType_spec hcovers hdefines hdefs htype
      simp only at h
      split at h
      · simp [Failure.at_] at h
      · rename_i hmisuse
        rw [bind_eq_ok_iff] at h
        obtain ⟨⟨others, last⟩, hothers, h⟩ := h
        obtain ⟨rfl, rfl⟩ := Prod.mk.inj (Except.ok.inj h)
        obtain ⟨htyped, hnames, hfresh, hlast, hrest⟩ := ih hmid.derived hothers
        have hattr := attr_of_memberMisuse?_eq_none hmisuse
        refine ⟨.cons ⟨hwritten, hattr, rfl⟩ htyped, ?_, ?_, hmid.trans hlast, ?_⟩
        · refine List.nodup_cons.mpr ⟨?_, hnames⟩
          intro hmem
          exact hfresh p.name hmem List.mem_cons_self
        · intro name hname hin
          rcases List.mem_cons.mp hname with rfl | hname
          · exact hseen (by simpa using hin)
          · exact hfresh name hname (List.mem_cons_of_mem _ hin)
        · intro m hm id hid
          rcases List.mem_cons.mp hm with rfl | hm
          · exact mem_ids_of_prefix hlast.before (hknown id hid)
          · exact hrest m hm id hid

omit hcovers hdefines in
theorem fitting_eq_ok_iff {α : Type} {x : Except Misfit α} {a : α} :
    fitting x = .ok a ↔ x = .ok a := by
  cases x <;> simp [fitting]

theorem structBody_spec {origin owner : String} {fields : List Property}
    {defs defs' : List StructDef} {ms : List Member} {l : Layout} (hdefs : Derived ns Known defs)
    (h : structBody ns define origin owner defs fields = .ok (ms, l, defs')) :
    Grown ns Known underDefinition defs defs' ∧
      ∃ raw, Body ns origin defs' fields raw l ∧ ms = placeMembers raw l := by
  unfold structBody at h
  rw [bind_eq_ok_iff] at h
  obtain ⟨⟨raw, grown⟩, hmembers, h⟩ := h
  obtain ⟨htyped, hnames, _, hgrown, hknown⟩ := members_spec hcovers hdefines hdefs hmembers
  simp only [bind_eq_ok_iff, fitting_eq_ok_iff] at h
  obtain ⟨layout, hlayout, ⟨⟩, haligned, h⟩ := h
  obtain ⟨rfl, rfl, rfl⟩ := by simpa using Except.ok.inj h
  exact ⟨hgrown, raw, ⟨htyped, hnames, hknown, hlayout, haligned⟩, rfl⟩

omit hdefines in
/-- Defining a struct keeps the order of dependencies, however many structs are under definition. -/
theorem define_spec (fuel : Nat) (underDefinition : List StructId) :
    Defines ns Known underDefinition (Model.define ns fuel underDefinition) := by
  induction fuel generalizing underDefinition with
  | zero =>
    intro defs d defs' hdefs _ h
    rw [Model.define] at h
    split at h
    · rename_i hany
      obtain rfl := Except.ok.inj h
      exact ⟨.refl hdefs, by simpa using hany⟩
    · simp [containsItself, Failure.at_] at h
  | succ fuel ih =>
    intro defs d defs' hdefs hknown h
    rw [Model.define] at h
    split at h
    · rename_i hany
      obtain rfl := Except.ok.inj h
      exact ⟨.refl hdefs, by simpa using hany⟩
    · rename_i hany
      split at h
      · simp [containsItself, Failure.at_] at h
      · rename_i hunder
        rw [bind_eq_ok_iff] at h
        obtain ⟨⟨ms, l, grown⟩, hstruct, h⟩ := h
        obtain ⟨hgrown, raw, hbody, rfl⟩ := structBody_spec hcovers (ih _) hdefs hstruct
        obtain rfl := Except.ok.inj h
        have hfresh : d.id ∉ grown.map StructDef.id := by
          intro hmem
          have := hgrown.avoids d.id List.mem_cons_self hmem
          exact hany (by simpa using this)
        refine ⟨⟨.snoc hgrown.derived ⟨hfresh, ⟨d, raw, hknown, rfl, hbody, rfl⟩, rfl⟩, ?_, ?_⟩, ?_⟩
        · exact hgrown.before.trans (List.prefix_append ..)
        · intro id hid hmem
          rw [List.map_append, List.mem_append, List.map_singleton, List.mem_singleton] at hmem
          rcases hmem with hmem | rfl
          · exact hgrown.avoids id (List.mem_cons_of_mem _ hid) hmem
          · exact absurd (by simpa using hid) hunder
        · simp

omit hdefines in
theorem defineStruct_spec : Defines ns Known [] (defineStruct ns) :=
  define_spec hcovers _ []

end Growth

end AnnotatedShader.Model
