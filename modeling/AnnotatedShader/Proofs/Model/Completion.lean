import AnnotatedShader.Proofs.Model.Agreement
import AnnotatedShader.Proofs.Model.Alike
import AnnotatedShader.Proofs.Model.Failures
import AnnotatedShader.Proofs.Model.Moved

set_option autoImplicit false

/-!
# Definitions in any order

A struct that can be defined once can be defined again, whatever has been defined before: the
structs that it needs stand in front of it in the order of dependencies, so none of them is under
definition when it is met.  Nothing else is defined on the way.

`Completes` says of a definer that it defines every struct of a given list, adding structs of this
list only (`Within`).  The functions on members are followed once for it, from the name of a type to
a whole body, and `define_complete` closes the recursion by the place of a struct in the list.  A
definition that exists can so be moved to another file order, another draft or another namespace
that says the same of names, which is what the last section is for.
-/

namespace AnnotatedShader.Model

open AnnotatedShader.Layout

/-! ## Other sources of layouts -/

theorem placeFrom_congr {structs structs' : StructId → Option Layout} {fields : List Field}
    (h : ∀ f ∈ fields, Std140.extent structs' f.type = Std140.extent structs f.type)
    (offset alignment : Int) (afterPacked : Bool) :
    Std140.placeFrom structs' offset alignment afterPacked fields =
      Std140.placeFrom structs offset alignment afterPacked fields := by
  induction fields generalizing offset alignment afterPacked with
  | nil => rfl
  | cons f rest ih =>
    rw [Std140.placeFrom, Std140.placeFrom, h f List.mem_cons_self]
    refine congrArg _ (funext fun e => ?_)
    simp only [ih fun g hg => h g (List.mem_cons_of_mem _ hg)]

theorem ofFields_congr {structs structs' : StructId → Option Layout} {fields : List Field}
    (h : ∀ f ∈ fields, Std140.extent structs' f.type = Std140.extent structs f.type) :
    Std140.ofFields structs' fields = Std140.ofFields structs fields := by
  rw [Std140.ofFields, Std140.ofFields, placeFrom_congr h]

theorem checkAligned_congr {structs structs' : StructId → Option Layout} {origin : String}
    {ms : List (Member × Property)}
    (h : ∀ entry ∈ ms, Std140.extent structs' entry.1.type = Std140.extent structs entry.1.type) :
    checkAligned structs' origin ms = checkAligned structs origin ms := by
  induction ms with
  | nil => rfl
  | cons entry rest ih =>
    obtain ⟨m, p⟩ := entry
    have hfirst : Std140.extent structs' m.type = Std140.extent structs m.type :=
      h (m, p) List.mem_cons_self
    rw [checkAligned, checkAligned, hfirst, ih fun e he => h e (List.mem_cons_of_mem _ he)]

section Bodies

variable {ns : Namespace} {origin : String} {defs defs' : List StructDef} {fields : List Property}
  {raw : List Member} {l : Layout}

/-- A body is the same over definitions that agree with those it is over, as long as they define
what its members refer to. -/
theorem Body.transfer (h : Body ns origin defs fields raw l)
    (hagree : Std140.Agree (layoutsOf defs) (layoutsOf defs'))
    (hknown : ∀ mem ∈ raw, ∀ id, mem.type.structId? = some id → id ∈ defs'.map StructDef.id) :
    Body ns origin defs' fields raw l := by
  have hextent : ∀ mem ∈ raw, Std140.extent (layoutsOf defs') mem.type =
      Std140.extent (layoutsOf defs) mem.type := by
    intro mem hmem
    obtain ⟨e, he⟩ := exists_extent_of_typed h.typed h.known mem hmem
    obtain ⟨e', he'⟩ := exists_extent_of_typed h.typed hknown mem hmem
    rw [he, he', Std140.extent_agree hagree he he']
  refine ⟨h.typed, h.names, hknown, ?_, ?_⟩
  · rw [ofFields_congr (List.forall_mem_map.mpr hextent)]
    exact h.layout
  · rw [checkAligned_congr fun entry hentry => ?_]
    · exact h.aligned
    · exact forall_placeMembers
        (P := fun t => Std140.extent (layoutsOf defs') t = Std140.extent (layoutsOf defs) t) hextent
        entry.1 (List.of_mem_zip hentry).1

end Bodies

/-! ## Complete definers -/

/-- Definitions that have been added to others are among some. -/
def Within (D defs defs' : List StructDef) : Prop :=
  defs'.map StructDef.id ⊆ defs.map StructDef.id ++ D.map StructDef.id

theorem Within.refl (D defs : List StructDef) : Within D defs defs :=
  List.subset_append_left _ _

theorem Within.trans {D a b c : List StructDef} (h : Within D a b) (h' : Within D b c) :
    Within D a c := by
  intro id hid
  rcases List.mem_append.mp (h' hid) with hid | hid
  · exact h hid
  · exact List.mem_append_right _ hid

/-- A definer finds every struct that is among some definitions, and adds none that is not. -/
def Completes (ns : Namespace) (D : List StructDef) (define : Definer) : Prop :=
  ∀ defs d, Derived ns (Exported ns) defs → Exported ns d → d.id ∈ D.map StructDef.id →
    ∃ defs', define defs d = .ok defs' ∧ Within D defs defs'

theorem memberMisuse?_eq_none {owner : String} {p : Property} {t : ShaderType}
    (h : p.attr = none ∨ p.attr = some .pack ∧ t.isPackable = true) :
    memberMisuse? owner p t = none := by
  rcases h with h | ⟨h, hpackable⟩
  · simp [memberMisuse?, h]
  · simp [memberMisuse?, h, hpackable]

theorem baseType_of_name {ns : Namespace} {define : Definer} {origin : String}
    {defs : List StructDef} {p : Property} {base : ShaderType}
    (hname : ShaderType.ofName? p.type.name = some base) (hobject : ¬ base.isObject = true) :
    baseType ns define origin defs p = .ok (base, defs) := by
  rw [baseType, hname]
  exact if_neg hobject

theorem baseType_of_struct {ns : Namespace} {define : Definer} {origin : String}
    {defs defs' : List StructDef} {p : Property} {d : DeclaredStruct}
    (hname : ShaderType.ofName? p.type.name = none)
    (hd : (ns.resolveName origin p.type.name).bind Symbol.struct? = some d)
    (hdefine : define defs d = .ok defs') :
    baseType ns define origin defs p = .ok (.struct d.id, defs') := by
  rw [baseType, hname, hd]
  exact bind_eq_ok_iff.mpr ⟨defs', hdefine, rfl⟩

section Complete

variable {ns : Namespace} {D : List StructDef} {define : Definer}
  {underDefinition : List StructId} (hcovers : CoversNames ns (Exported ns))
  (hdefines : Defines ns (Exported ns) underDefinition define) (hcomplete : Completes ns D define)

include hcovers hcomplete

theorem baseType_complete {origin : String} {defs : List StructDef} {p : Property}
    {base : ShaderType} (hdefs : Derived ns (Exported ns) defs)
    (hnamed : namedType? ns origin p.type.name = some base)
    (hknown : ∀ id, base = .struct id → id ∈ D.map StructDef.id) :
    ∃ defs', baseType ns define origin defs p = .ok (base, defs') ∧ Within D defs defs' := by
  unfold namedType? at hnamed
  split at hnamed
  · split at hnamed
    · simp at hnamed
    · rename_i named hname hobject
      obtain rfl := Option.some.inj hnamed
      exact ⟨defs, baseType_of_name hname hobject, .refl D defs⟩
  · rename_i hname
    obtain ⟨d, hd, rfl⟩ := Option.map_eq_some_iff.mp hnamed
    obtain ⟨defs', hdefine, hwithin⟩ :=
      hcomplete defs d hdefs (hcovers origin _ d hd) (hknown d.id rfl)
    exact ⟨defs', baseType_of_struct hname hd hdefine, hwithin⟩

theorem memberType_complete {origin : String} {defs : List StructDef} {p : Property}
    {t : ShaderType} (hdefs : Derived ns (Exported ns) defs)
    (hwritten : writtenType? ns origin p.type = some t)
    (hknown : ∀ id, t.structId? = some id → id ∈ D.map StructDef.id) :
    ∃ defs', memberType ns define origin defs p = .ok (t, defs') ∧ Within D defs defs' := by
  unfold writtenType? at hwritten
  unfold memberType
  split at hwritten
  · simp at hwritten
  · rename_i helement
    obtain ⟨base, hbase, hsized⟩ := Option.bind_eq_some_iff.mp hwritten
    have hbaseKnown : ∀ id, base = .struct id → id ∈ D.map StructDef.id := by
      rintro id rfl
      refine hknown id ?_
      split at hsized
      · rw [← Option.some.inj hsized]
        rfl
      · simp at hsized
      · rw [← Option.some.inj hsized]
        rfl
    obtain ⟨defs', heq, hwithin⟩ := baseType_complete hcovers hcomplete hdefs hbase hbaseKnown
    simp only [if_neg helement, heq, bind, Except.bind]
    refine ⟨defs', ?_, hwithin⟩
    cases hsize : p.type.size with
    | none =>
      rw [hsize] at hsized
      obtain rfl := Option.some.inj hsized
      rfl
    | some n =>
      rw [hsize] at hsized
      cases n with
      | zero => simp at hsized
      | succ n =>
        obtain rfl := Option.some.inj hsized
        rfl

include hdefines

theorem members_complete {origin : String} (owner : String) {seen : List String}
    {defs : List StructDef}
    {fields : List Property} {raw : List Member} (hdefs : Derived ns (Exported ns) defs)
    (htyped : List.Forall₂ (MemberOf ns origin) fields raw)
    (hnames : (fields.map Property.name).Nodup)
    (hfresh : ∀ name ∈ fields.map Property.name, name ∉ seen)
    (hknown : ∀ mem ∈ raw, ∀ id, mem.type.structId? = some id → id ∈ D.map StructDef.id) :
    ∃ defs', members ns define origin owner seen defs fields = .ok (raw, defs') ∧
      Within D defs defs' := by
  induction htyped generalizing seen defs with
  | nil => exact ⟨defs, rfl, .refl D defs⟩
  | @cons p m rest others hm _ ih =>
    obtain ⟨hfirst, hrest⟩ := List.nodup_cons.mp hnames
    obtain ⟨mid, htype, hmid⟩ :=
      memberType_complete hcovers hcomplete hdefs hm.type (hknown m List.mem_cons_self)
    obtain ⟨_, hgrown, _⟩ := memberType_spec hcovers hdefines hdefs htype
    have hlater : ∀ name ∈ rest.map Property.name, name ∉ p.name :: seen := by
      intro name hname hmem
      rcases List.mem_cons.mp hmem with rfl | hmem
      · exact hfirst hname
      · exact hfresh name (List.mem_cons_of_mem _ hname) hmem
    obtain ⟨defs', hothers, hwithin⟩ := ih hgrown.derived hrest hlater
      fun mem hmem => hknown mem (List.mem_cons_of_mem _ hmem)
    have hseen : seen.contains p.name = false := by
      simpa using hfresh p.name List.mem_cons_self
    refine ⟨defs', ?_, hmid.trans hwithin⟩
    simp only [members, hseen, htype, memberMisuse?_eq_none hm.attr, hothers, bind, Except.bind]
    rw [hm.eq]
    rfl

/-- A body that is there over definitions of the structs which it needs is found again. -/
theorem structBody_complete {origin : String} (owner : String) {defs : List StructDef}
    {fields : List Property} {raw : List Member} {l : Layout}
    (hdefs : Derived ns (Exported ns) defs)
    (hD : Derived ns (Exported ns) D) (hbody : Body ns origin D fields raw l) :
    ∃ defs', structBody ns define origin owner defs fields = .ok (placeMembers raw l, l, defs') ∧
      Within D defs defs' := by
  have hfresh : ∀ name ∈ fields.map Property.name, name ∉ [] := by simp
  obtain ⟨defs', hmembers, hwithin⟩ := members_complete hcovers hdefines hcomplete owner hdefs
    hbody.typed hbody.names hfresh hbody.known
  obtain ⟨_, _, _, hgrown, hknown⟩ := members_spec hcovers hdefines hdefs hmembers
  have hbody' := hbody.transfer (hD.sameDefs hgrown.derived).agree hknown
  refine ⟨defs', ?_, hwithin⟩
  simp only [structBody, bind_eq_ok_iff, fitting_eq_ok_iff]
  exact ⟨(raw, defs'), hmembers, l, hbody'.layout, (), hbody'.aligned, rfl⟩

end Complete

/-- Definitions of distinct structs are no more than the structs that are declared. -/
theorem Derived.length_le {ns : Namespace} {D : List StructDef} (hD : Derived ns (Exported ns) D) :
    D.length ≤ ns.structCount := by
  have hsubset : D.map StructDef.id ⊆ ns.structIds := by
    intro id hid
    obtain ⟨def_, hdef, rfl⟩ := List.mem_map.mp hid
    obtain ⟨decl, _, ⟨sym, hlookup, hstruct⟩, hdeclId, _⟩ := hD.body hdef
    rw [← hdeclId]
    exact Namespace.mem_structIds hlookup hstruct
  have hlength := (hD.nodup.subperm hsubset).length_le
  rwa [List.length_map, Namespace.length_structIds] at hlength

section Definitions

variable {ns : Namespace} {D : List StructDef} (hcovers : CoversNames ns (Exported ns))
  (hD : Derived ns (Exported ns) D)

include hcovers hD

/-- Structs in the order of their dependencies are defined from any definitions while none of them
is under definition. -/
theorem define_complete {fuel : Nat} {underDefinition : List StructId}
    (havoids : ∀ id ∈ underDefinition, id ∉ D.map StructDef.id) (hfuel : D.length ≤ fuel) :
    Completes ns D (define ns fuel underDefinition) := by
  induction hD generalizing fuel underDefinition with
  | nil =>
    intro defs d _ _ hid
    simp at hid
  | @snoc D last hD hlast ih =>
    rw [List.length_append, List.length_singleton] at hfuel
    intro defs d hdefs hd hid
    rw [List.map_append, List.map_singleton] at hid havoids
    have hwiden : ∀ defs', Within D defs defs' → Within (D ++ [last]) defs defs' := by
      intro defs' h id hid
      rw [List.map_append, ← List.append_assoc]
      exact List.mem_append_left _ (h hid)
    rcases List.mem_append.mp hid with hid | hid
    · have hcompletes : Completes ns D (define ns fuel underDefinition) :=
        ih (fun id hunder hmem => havoids id hunder (List.mem_append_left _ hmem)) (by omega)
      obtain ⟨defs', hdefine, hwithin⟩ := hcompletes defs d hdefs hd hid
      exact ⟨defs', hdefine, hwiden defs' hwithin⟩
    · -- the last struct: those that it needs are defined while it is under definition itself
      rw [List.mem_singleton] at hid
      obtain ⟨decl, raw, hdecl, hdeclId, hbody, _⟩ := hlast.body
      obtain rfl := hdecl.eq_of_id hd (hdeclId.trans hid.symm)
      cases fuel with
      | zero => omega
      | succ fuel =>
        rw [define]
        split
        · exact ⟨defs, rfl, .refl _ defs⟩
        · rename_i hany
          have hunder : underDefinition.contains decl.id = false := by
            rw [← Bool.not_eq_true, List.contains_iff_mem]
            intro hmem
            exact havoids decl.id hmem (List.mem_append_right _ (by simp [hid]))
          have hinner : Completes ns D (define ns fuel (decl.id :: underDefinition)) := by
            refine ih ?_ (by omega)
            intro id hmem hin
            rcases List.mem_cons.mp hmem with rfl | hmem
            · exact hlast.fresh (hid ▸ hin)
            · exact havoids id hmem (List.mem_append_left _ hin)
          rw [← hid] at hbody
          obtain ⟨defs', hstruct, hwithin⟩ := structBody_complete hcovers
            (define_spec hcovers fuel _) hinner decl.id.name hdefs hD hbody
          rw [hunder]
          refine ⟨defs' ++ [⟨decl.id, placeMembers raw last.layout, last.layout,
            dependenciesOf (placeMembers raw last.layout)⟩], ?_, ?_⟩
          · simp only [Bool.false_eq_true, if_false, hstruct, bind, Except.bind]
          · intro id hmem
            rw [List.map_append, List.map_singleton, List.mem_append, List.mem_singleton] at hmem
            rcases hmem with hmem | rfl
            · exact hwiden defs' hwithin hmem
            · rw [List.map_append, List.map_singleton, hid]
              simp

/-- A struct that is among definitions in the order of their dependencies can be defined. -/
theorem defineStruct_complete : Completes ns D (defineStruct ns) := by
  have hlength := hD.length_le
  exact define_complete hcovers hD (by simp) (by omega)

end Definitions

/-! ## Namespaces at other positions -/

section Moved

variable {ns ns' : Namespace} (h : ns.Moved ns')

include h

theorem namedType?_moved (origin name : String) :
    namedType? ns' origin name = namedType? ns origin name := by
  have hstruct := h.struct? origin name
  unfold namedType?
  generalize (ns.resolveName origin name).bind Symbol.struct? = s at hstruct
  generalize (ns'.resolveName origin name).bind Symbol.struct? = s' at hstruct
  cases hstruct with
  | none => rfl
  | some hd => rw [Option.map_some, Option.map_some, hd.id]

theorem writtenType?_moved (origin : String) (t : TypeRef) :
    writtenType? ns' origin t = writtenType? ns origin t := by
  rw [writtenType?, writtenType?, namedType?_moved h]

theorem MemberOf.moved {origin : String} {p p' : Property} {m : Member} (hp : p.Moved p')
    (hm : MemberOf ns origin p m) : MemberOf ns' origin p' m := by
  obtain ⟨position, rfl⟩ := hp
  exact ⟨(writtenType?_moved h origin p.type).trans hm.type, hm.attr, hm.eq⟩

/-- A struct has the same body at other positions. -/
theorem Body.moved {origin : String} {defs : List StructDef} {fields fields' : List Property}
    {raw : List Member} {l : Layout} (hfields : List.Forall₂ Property.Moved fields fields')
    (hbody : Body ns origin defs fields raw l) : Body ns' origin defs fields' raw l where
  typed := by
    refine forall₂_trans hfields.flip hbody.typed fun p' p m hp hm => ?_
    exact hm.moved h hp
  names := by
    have hnames : fields'.map Property.name = fields.map Property.name :=
      map_eq_of_forall₂ hfields fun p p' hp => by
        obtain ⟨position, rfl⟩ := hp
        rfl
    rw [hnames]
    exact hbody.names
  known := hbody.known
  layout := hbody.layout
  aligned := by
    obtain ⟨_, haligned, _⟩ := (checkAligned_moved _ origin _ hfields).exists_ok hbody.aligned
    exact haligned

/-- An exported struct is exported at another position. -/
theorem Exported.moved {d : DeclaredStruct} (hd : Exported ns d) :
    ∃ d', d.Moved d' ∧ Exported ns' d' := by
  obtain ⟨sym, hlookup, hstruct⟩ := hd
  have hfound := Symbol.rel_moved_of_unsited (h.lookup d.id.origin d.id.name)
  rw [hlookup] at hfound
  generalize hlookup' : ns'.lookup d.id.origin d.id.name = sym' at hfound
  cases hfound with
  | some hsym =>
    have hrel := hsym.struct?
    rw [hstruct] at hrel
    generalize hstruct' : Symbol.struct? _ = d' at hrel
    cases hrel with
    | some hd => exact ⟨_, hd, _, by rw [hd.id]; exact hlookup', hstruct'⟩

/-- Definitions in the order of their dependencies are so at other positions. -/
theorem Derived.moved {D : List StructDef} (hD : Derived ns (Exported ns) D) :
    Derived ns' (Exported ns') D := by
  induction hD with
  | nil => exact .nil
  | snoc _ hlast ih =>
    obtain ⟨decl, raw, hdecl, hid, hbody, hmembers⟩ := hlast.body
    obtain ⟨decl', hmoved, hdecl'⟩ := hdecl.moved h
    exact .snoc ih ⟨hlast.fresh, ⟨decl', raw, hdecl', hmoved.id.trans hid,
      hbody.moved h hmoved.fields, hmembers⟩, hlast.dependencies⟩

end Moved

end AnnotatedShader.Model
