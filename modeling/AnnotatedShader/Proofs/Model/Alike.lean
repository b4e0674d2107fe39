import AnnotatedShader.Proofs.Model.Visit
import AnnotatedShader.Proofs.Namespace.Alike
import Mathlib.Data.List.Dedup

set_option autoImplicit false

/-!
# Models in namespaces alike

The model of a file depends on the files that it can reach and on nothing else in its namespace.  A
walk through a build shows it step by step, for namespaces that are alike in the region of the file:
the types of members, the definitions of structs, the visits of statements, the samplers of
textures.

The fuel of the definition of structs does depend on the whole namespace, but it never runs out: the
structs under definition are distinct, and each of them is exported in the region.  `remaining`
counts those that are not yet under definition, and any fuel above it gives the same
(`define_alike`), so the two recursions are compared although they start with different fuel.
-/

namespace AnnotatedShader

/-- The structs that the files of a namespace export. -/
def Namespace.structIds (ns : Namespace) : List StructId :=
  (ns.scopes.flatMap FileScope.exports).filterMap fun e => e.struct?.map DeclaredStruct.id

theorem Namespace.length_structIds (ns : Namespace) : ns.structIds.length = ns.structCount := by
  rw [structIds, structCount, List.length_filterMap_eq_countP]
  congr 1
  funext e
  unfold Symbol.struct?
  cases e.declaration <;> rfl

theorem Namespace.mem_structIds {ns : Namespace} {file name : String} {sym : Symbol}
    (h : ns.lookup file name = some sym) {d : DeclaredStruct} (hd : sym.struct? = some d) :
    d.id ∈ ns.structIds := by
  obtain ⟨scope, hscope, hfind⟩ := Option.bind_eq_some_iff.mp h
  have hsym : sym ∈ ns.scopes.flatMap FileScope.exports :=
    List.mem_flatMap.mpr
      ⟨scope, List.mem_of_find?_eq_some hscope, List.mem_of_find?_eq_some hfind⟩
  refine List.mem_filterMap.mpr ⟨sym, hsym, ?_⟩
  rw [hd, Option.map_some]

namespace Model

open AnnotatedShader.Layout

/-! ## Definers -/

/-- Structs of a region, out of which no member type leads, with identities from a list. -/
structure Enclosed (P : String → Prop) (ids : List StructId) (d : DeclaredStruct) : Prop where
  origin : P d.id.origin
  mem : d.id ∈ ids

/-- Two namespaces alike in which member types of the region lead to structs from a list. -/
structure Enclosing (P : String → Prop) (ids : List StructId) (ns ns' : Namespace) : Prop where
  alike : Alike P ns ns'
  named : ∀ origin, P origin → ∀ name d,
    (ns.resolveName origin name).bind Symbol.struct? = some d → Enclosed P ids d

section Definers

variable {P : String → Prop} {ids : List StructId} {ns ns' : Namespace}
  (h : Enclosing P ids ns ns') {define define' : Definer}
  (hdefine : ∀ defs d, Enclosed P ids d → define defs d = define' defs d)
  {origin : String} (horigin : P origin)

include h hdefine horigin

theorem baseType_alike (defs : List StructDef) (p : Property) :
    baseType ns define origin defs p = baseType ns' define' origin defs p := by
  unfold baseType
  rw [← h.alike.resolveName horigin p.type.name]
  cases ShaderType.ofName? p.type.name with
  | some base => rfl
  | none =>
    cases hd : (ns.resolveName origin p.type.name).bind Symbol.struct? with
    | none => rfl
    | some d => simp only [hdefine defs d (h.named origin horigin _ d hd)]

theorem memberType_alike (defs : List StructDef) (p : Property) :
    memberType ns define origin defs p = memberType ns' define' origin defs p := by
  unfold memberType
  rw [baseType_alike h hdefine horigin]

theorem members_alike (owner : String) (seen : List String) (defs : List StructDef)
    (fields : List Property) :
    members ns define origin owner seen defs fields =
      members ns' define' origin owner seen defs fields := by
  induction fields generalizing seen defs with
  | nil => rfl
  | cons p rest ih =>
    rw [members, members, memberType_alike h hdefine horigin]
    simp only [ih]

theorem structBody_alike (owner : String) (defs : List StructDef) (fields : List Property) :
    structBody ns define origin owner defs fields =
      structBody ns' define' origin owner defs fields := by
  rw [structBody, structBody, members_alike h hdefine horigin]

end Definers

/-! ## Fuel -/

/-- A struct under definition is not defined again. -/
theorem define_of_mem (ns : Namespace) (fuel : Nat) {underDefinition : List StructId}
    {d : DeclaredStruct} (hd : d.id ∈ underDefinition) (defs : List StructDef) :
    define ns fuel underDefinition defs d =
      if defs.any (·.id == d.id) then .ok defs else .error (containsItself d) := by
  cases fuel with
  | zero => rw [define]
  | succ fuel => rw [define, if_pos (List.contains_iff_mem.mpr hd)]

/-- How many structs of a list are not under definition. -/
def remaining (ids underDefinition : List StructId) : Nat :=
  (ids.filter (· ∉ underDefinition)).length

theorem remaining_nil (ids : List StructId) : remaining ids [] = ids.length := by
  simp [remaining]

theorem mem_of_remaining_eq_zero {ids underDefinition : List StructId}
    (h : remaining ids underDefinition = 0) {id : StructId} (hid : id ∈ ids) :
    id ∈ underDefinition := by
  by_contra hfresh
  have hmem : id ∈ ids.filter (· ∉ underDefinition) :=
    List.mem_filter.mpr ⟨hid, decide_eq_true hfresh⟩
  rw [List.length_eq_zero_iff.mp h] at hmem
  contradiction

theorem filter_notMem_cons (id : StructId) (ids underDefinition : List StructId) :
    ids.filter (· ∉ id :: underDefinition) =
      (ids.filter (· ∉ underDefinition)).filter (· ≠ id) := by
  rw [List.filter_filter]
  refine List.filter_congr fun other _ => ?_
  simp only [List.mem_cons, not_or, ne_eq, Bool.decide_and]

theorem remaining_cons_le (id : StructId) (ids underDefinition : List StructId) :
    remaining ids (id :: underDefinition) ≤ remaining ids underDefinition := by
  rw [remaining, filter_notMem_cons]
  exact List.length_filter_le _ _

/-- With each struct of the list that comes under definition fewer remain. -/
theorem remaining_cons_lt {ids underDefinition : List StructId} {id : StructId} (hid : id ∈ ids)
    (hfresh : id ∉ underDefinition) :
    remaining ids (id :: underDefinition) < remaining ids underDefinition := by
  rw [remaining, filter_notMem_cons]
  exact List.length_filter_lt_length_iff_exists.mpr
    ⟨id, List.mem_filter.mpr ⟨hid, decide_eq_true hfresh⟩, by simp⟩

/-- Definitions are the same in namespaces alike, with any fuel that covers the structs that are not
yet under definition. -/
theorem define_alike {P : String → Prop} {ids : List StructId} {ns ns' : Namespace}
    (h : Enclosing P ids ns ns') {fuel fuel' : Nat} {underDefinition : List StructId}
    (hfuel : remaining ids underDefinition ≤ fuel) (hfuel' : remaining ids underDefinition ≤ fuel')
    (defs : List StructDef) {d : DeclaredStruct} (hd : Enclosed P ids d) :
    define ns fuel underDefinition defs d = define ns' fuel' underDefinition defs d := by
  induction fuel generalizing fuel' underDefinition defs d with
  | zero =>
    have hmem := mem_of_remaining_eq_zero (Nat.le_zero.mp hfuel) hd.mem
    rw [define_of_mem ns 0 hmem, define_of_mem ns' fuel' hmem]
  | succ fuel ih =>
    by_cases hmem : d.id ∈ underDefinition
    · rw [define_of_mem ns _ hmem, define_of_mem ns' fuel' hmem]
    · have hless := remaining_cons_lt hd.mem hmem
      cases fuel' with
      | zero => omega
      | succ fuel' =>
        have hinner : ∀ defs e, Enclosed P ids e →
            define ns fuel (d.id :: underDefinition) defs e =
              define ns' fuel' (d.id :: underDefinition) defs e :=
          fun defs e he => ih (by omega) (by omega) defs he
        rw [define, define, structBody_alike h hinner hd.origin]

/-! ## Builds -/

section Builds

variable {P : String → Prop} {ns ns' : Namespace} (h : Alike P ns ns')

include h

/-- A name of a struct in the region leads to a struct that both namespaces export. -/
theorem mem_structIds_of_resolveName {origin name : String} (horigin : P origin)
    {d : DeclaredStruct} (hd : (ns.resolveName origin name).bind Symbol.struct? = some d) :
    P d.id.origin ∧ d.id ∈ ns.structIds ∧ d.id ∈ ns'.structIds := by
  obtain ⟨sym, hresolve, hstruct⟩ := Option.bind_eq_some_iff.mp hd
  have hfile := h.file_of_resolveName horigin hresolve
  have horiginOf : d.id.origin = sym.file := by
    unfold Symbol.struct? at hstruct
    split at hstruct
    · rw [← Option.some.inj hstruct]
    · simp at hstruct
  have hlookup : ∃ file, P file ∧ ∃ name, ns.lookup file name = some sym := by
    unfold Namespace.resolveName at hresolve
    split at hresolve
    · rename_i found hfound
      exact ⟨origin, horigin, name, hfound.trans hresolve⟩
    · split at hresolve
      · rename_i u position huse
        exact ⟨u.file, h.closed origin horigin _ (List.mem_of_find?_eq_some huse), u.member,
          hresolve⟩
      · simp at hresolve
  obtain ⟨file, hregion, name, hlookup⟩ := hlookup
  refine ⟨horiginOf ▸ hfile, Namespace.mem_structIds hlookup hstruct, ?_⟩
  exact Namespace.mem_structIds (h.lookup file hregion name ▸ hlookup) hstruct

theorem defineStruct_alike (defs : List StructDef) {d : DeclaredStruct} (hd : P d.id.origin) :
    defineStruct ns defs d = defineStruct ns' defs d := by
  -- the structs that both namespaces export, and the one that the definition starts with
  let shared := (ns.structIds.filter (ns'.structIds.contains ·)).dedup
  have hmem : ∀ id, id ∈ shared ↔ id ∈ ns.structIds ∧ id ∈ ns'.structIds := by
    intro id
    simp [shared, List.mem_dedup, List.mem_filter]
  have hlength : shared.length ≤ ns.structCount := by
    rw [← ns.length_structIds]
    exact ((List.nodup_dedup _).subperm fun id hid => ((hmem id).mp hid).1).length_le
  have hlength' : shared.length ≤ ns'.structCount := by
    rw [← ns'.length_structIds]
    exact ((List.nodup_dedup _).subperm fun id hid => ((hmem id).mp hid).2).length_le
  have henclosing : Enclosing P (d.id :: shared) ns ns' := by
    refine ⟨h, ?_⟩
    intro origin horigin name e he
    obtain ⟨hregion, hid, hid'⟩ := mem_structIds_of_resolveName h horigin he
    exact ⟨hregion, List.mem_cons_of_mem _ ((hmem e.id).mpr ⟨hid, hid'⟩)⟩
  refine define_alike henclosing ?_ ?_ defs ⟨hd, List.mem_cons_self⟩
  · rw [remaining_nil, List.length_cons]
    omega
  · rw [remaining_nil, List.length_cons]
    omega

theorem structBody_defineStruct_alike {origin : String} (horigin : P origin) (owner : String)
    (defs : List StructDef) (fields : List Property) :
    structBody ns (defineStruct ns) origin owner defs fields =
      structBody ns' (defineStruct ns') origin owner defs fields := by
  let ids := ns.structIds
  have henclosing : Enclosing P ids ns ns' := by
    refine ⟨h, ?_⟩
    intro origin horigin name e he
    obtain ⟨hregion, hid, _⟩ := mem_structIds_of_resolveName h horigin he
    exact ⟨hregion, hid⟩
  exact structBody_alike henclosing (fun defs d hd => defineStruct_alike h defs hd.origin) horigin
    owner defs fields

theorem visit_alike (file : String) (d : Draft) {i : Introduction} (hi : P i.origin) :
    visit ns file d i = visit ns' file d i := by
  unfold visit
  cases i.declaration with
  | buffer name attr fields =>
    simp only [visitBuffer, structBody_defineStruct_alike h hi]
    split
    · rw [defineStruct_alike h d.model.structs (d := ⟨⟨name, i.origin⟩, i.declared, fields⟩) hi]
    · rfl
    · rfl
  | _ => rfl

theorem visitAll_alike {file : String} {imports : List ResolvedImport} {index : Nat}
    {statements : List Statement} (d : Draft)
    (hregion : ∀ i, Introduces file imports index statements i → P i.origin) :
    visitAll ns file imports index d statements = visitAll ns' file imports index d statements := by
  induction statements generalizing index d with
  | nil => rfl
  | cons s rest ih =>
    have hrest : ∀ d, visitAll ns file imports (index + 1) d rest =
        visitAll ns' file imports (index + 1) d rest :=
      fun d => ih d fun i hi => hregion i (introduces_cons_iff.mpr (Or.inr hi))
    simp only [visitAll, bind, Except.bind]
    cases hfirst : introduction? file imports index s with
    | error e => simp only
    | ok first? =>
      cases first? with
      | none => simp only [hrest]
      | some i =>
        have hi := hregion i (introduces_cons_iff.mpr (Or.inl hfirst))
        simp only [visit_alike h file d hi, hrest]

theorem checkSamplers_alike {refs : List SamplerRef} (hrefs : ∀ r ∈ refs, P r.origin) :
    checkSamplers ns refs = checkSamplers ns' refs := by
  induction refs with
  | nil => rfl
  | cons r rest ih =>
    rw [checkSamplers, checkSamplers, ← h.resolveName (hrefs r List.mem_cons_self) r.sampler,
      ih fun other hother => hrefs other (List.mem_cons_of_mem _ hother)]

/-- The model of a file of the region is the same in namespaces alike. -/
theorem build_alike {m : Module} {stage : Stage} {imports : List ResolvedImport}
    (hregion : ∀ i, Introduces m.file imports 0 m.statements i → P i.origin) :
    build m stage ns imports = build m stage ns' imports := by
  simp only [build, ← visitAll_alike h _ hregion]
  cases hvisit : visitAll ns m.file imports 0 ⟨.empty m.file stage, [], []⟩ m.statements with
  | error e => rfl
  | ok d =>
    have hrefs : ∀ r ∈ d.samplerRefs, P r.origin := by
      refine visitAll_induction (P := fun d => ∀ r ∈ d.samplerRefs, P r.origin) (by simp) ?_ hvisit
      intro d i d' hd hi hv r hr
      cases hv with
      | texture =>
        rcases List.mem_append.mp hr with hr | hr
        · exact hd r hr
        · rw [List.mem_singleton.mp hr]
          exact hregion i hi
      | _ => exact hd r hr
    simp only [bind, Except.bind, checkSamplers_alike h hrefs]

end Builds

end Model

end AnnotatedShader
