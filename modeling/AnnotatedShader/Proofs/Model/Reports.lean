import AnnotatedShader.Proofs.Model.Entity
import AnnotatedShader.Proofs.Model.Failures
import AnnotatedShader.Proofs.Statement.Reports

set_option autoImplicit false

/-!
# Places that reports on models name

A report on a model names a place and the file that the place is in, also where the fault is in a
declaration of another file.  There is one exception: a second vertex format is reported under the
name of the file that introduces it, and at the place where it is declared (`SecondFormat`).

`Spot` is any relation between files and places that holds of all places of declarations
(`Namespace.Stands`), and `AtSpot` says that a diagnostic is at one.  So nothing about texts has to
be known here; the theorems on batches put the landmarks of texts in.  Each function that reports
something has one lemma, from the types of members to a whole build (`build_reports`), and the sites
of the model are spots as well (`sites_spot`).
-/

namespace AnnotatedShader

open Failure (Reports reports_diagnosed)

variable {Spot : String → Position → Prop}

/-! ## Declarations and where they stand -/

/-- A declaration of a file and its properties stand at places of a kind. -/
structure Declaration.Stands (Spot : String → Position → Prop) (file : String) (position : Position)
    (d : Declaration) : Prop where
  start : Spot file position
  properties : ∀ p ∈ d.properties, Spot file p.position

/-- The statements of a module and their properties stand at places of a kind. -/
def Module.Stands (Spot : String → Position → Prop) (m : Module) : Prop :=
  ∀ s ∈ m.statements, Spot m.file s.position ∧ ∀ p ∈ s.body.properties, Spot m.file p.position

/-- Whatever is exported stands at places of a kind. -/
def Namespace.Stands (Spot : String → Position → Prop) (ns : Namespace) : Prop :=
  ∀ file name s, ns.lookup file name = some s → s.declaration.Stands Spot s.file s.position

theorem Module.Stands.declaration {m : Module} (h : m.Stands Spot) {s : Statement}
    (hs : s ∈ m.statements) {d : Declaration} (hbody : s.body = .declare d) :
    d.Stands Spot m.file s.position :=
  ⟨(h s hs).1, fun p hp => (h s hs).2 p (by rw [hbody]; exact hp)⟩

theorem Namespace.stands_ofModules {ms : List Module} (h : ∀ m ∈ ms, m.Stands Spot) :
    (ofModules ms).Stands Spot := by
  intro file name sym hsym
  obtain ⟨hfile, _, m, hm, hmfile, hdecl⟩ := lookup_ofModules_eq_some hsym
  rw [hfile, ← hmfile]
  exact (h m hm).declaration (Module.mem_statements_of_mem_declarations hdecl) rfl

theorem Namespace.Stands.resolveName {ns : Namespace} (h : ns.Stands Spot) {file name : String}
    {s : Symbol} (hs : ns.resolveName file name = some s) :
    s.declaration.Stands Spot s.file s.position := by
  unfold Namespace.resolveName at hs
  split at hs
  · obtain rfl := Option.some.inj hs
    exact h _ _ _ ‹_›
  · split at hs
    · exact h _ _ _ hs
    · contradiction

/-- A failure reports at a place of a kind, if it reports anything. -/
abbrev AtSpot (Spot : String → Position → Prop) : Failure → Prop :=
  Reports fun d => Spot d.file d.position

theorem atSpot_at {file : String} {position : Position} (h : Spot file position) (fault : Fault) :
    AtSpot Spot (.at_ file position fault) := reports_diagnosed h

/-! ## Imports -/

namespace Module

theorem Stands.uses {m : Module} (h : m.Stands Spot) {entry : Use × Position}
    (hentry : entry ∈ m.uses) : Spot m.file entry.2 := by
  obtain ⟨s, hs, hbody⟩ := List.mem_filterMap.mp hentry
  cases hkind : s.body with
  | use u =>
    rw [hkind] at hbody
    rw [← Option.some.inj hbody]
    exact (h s hs).1
  | declare | comment => simp [hkind] at hbody

theorem lookupUses_atSpot {ns : Namespace} {file : String} {uses : List (Use × Position)}
    (h : ∀ entry ∈ uses, Spot file entry.2) :
    FailsOnly (AtSpot Spot) (lookupUses file ns uses) := by
  induction uses with
  | nil => exact failsOnly_ok _ _
  | cons entry rest ih =>
    obtain ⟨hfirst, hrest⟩ := List.forall_mem_cons.mp h
    unfold lookupUses
    split
    · exact failsOnly_error (atSpot_at hfirst _)
    · exact (ih hrest).bind fun _ _ => failsOnly_ok _ _

theorem resolveImports_atSpot {m : Module} {ns : Namespace} (h : m.Stands Spot) :
    FailsOnly (AtSpot Spot) (m.resolveImports ns) := by
  unfold resolveImports
  split
  · refine failsOnly_error ?_
    unfold cycleFailure
    split
    · exact fun _ hd => nomatch hd
    · split
      · exact fun _ hd => nomatch hd
      · rename_i hfind
        exact atSpot_at (h.uses (List.mem_of_find?_eq_some hfind)) _
  · exact lookupUses_atSpot fun _ => h.uses

end Module

/-- A declared struct and its members stand at places of a kind. -/
structure DeclaredStruct.Stands (Spot : String → Position → Prop) (d : DeclaredStruct) : Prop where
  start : Spot d.id.origin d.position
  fields : ∀ p ∈ d.fields, Spot d.id.origin p.position

theorem Symbol.stands_of_struct? {s : Symbol} {d : DeclaredStruct} (h : s.struct? = some d)
    (hs : s.declaration.Stands Spot s.file s.position) : d.Stands Spot := by
  unfold Symbol.struct? at h
  split at h
  · rename_i hdecl
    rw [← Option.some.inj h]
    exact ⟨hs.start, fun p hp => hs.properties p (by rw [hdecl]; exact hp)⟩
  · contradiction

namespace Model

theorem fitting_atSpot {α : Type} (x : Except Misfit α) : FailsOnly (AtSpot Spot) (fitting x) := by
  cases x with
  | ok a => exact failsOnly_ok _ _
  | error m => exact failsOnly_error fun _ hd => nomatch hd

/-! ## Structs -/

section Structs

variable {ns : Namespace} (hns : ns.Stands Spot) {define : Definer}
  (hdefine : ∀ defs (d : DeclaredStruct), d.Stands Spot → FailsOnly (AtSpot Spot) (define defs d))
  {origin owner : String}

include hns hdefine

theorem baseType_atSpot {defs : List StructDef} {p : Property} (hp : Spot origin p.position) :
    FailsOnly (AtSpot Spot) (baseType ns define origin defs p) := by
  unfold baseType
  split
  · split
    · exact failsOnly_error (atSpot_at hp _)
    · exact failsOnly_ok _ _
  · split
    · exact failsOnly_error (atSpot_at hp _)
    · rename_i d hd
      obtain ⟨s, hs, hstruct⟩ := Option.bind_eq_some_iff.mp hd
      exact (hdefine defs d (Symbol.stands_of_struct? hstruct (hns.resolveName hs))).bind
        fun _ _ => failsOnly_ok _ _

theorem memberType_atSpot {defs : List StructDef} {p : Property} (hp : Spot origin p.position) :
    FailsOnly (AtSpot Spot) (memberType ns define origin defs p) := by
  unfold memberType
  split
  · exact failsOnly_error (atSpot_at hp _)
  · refine (baseType_atSpot hns hdefine hp).bind fun typed _ => ?_
    obtain ⟨base, defs'⟩ := typed
    simp only
    split
    · exact failsOnly_ok _ _
    · exact failsOnly_error (atSpot_at hp _)
    · exact failsOnly_ok _ _

theorem members_atSpot {fields : List Property} {seen : List String} {defs : List StructDef}
    (h : ∀ p ∈ fields, Spot origin p.position) :
    FailsOnly (AtSpot Spot) (members ns define origin owner seen defs fields) := by
  induction fields generalizing seen defs with
  | nil => exact failsOnly_ok _ _
  | cons p rest ih =>
    obtain ⟨hp, hrest⟩ := List.forall_mem_cons.mp h
    unfold members
    split
    · exact failsOnly_error (atSpot_at hp _)
    · refine (memberType_atSpot hns hdefine hp).bind fun typed _ => ?_
      obtain ⟨t, defs'⟩ := typed
      simp only
      split
      · exact failsOnly_error (atSpot_at hp _)
      · exact (ih hrest).bind fun _ _ => failsOnly_ok _ _

omit hns hdefine in
theorem checkAligned_atSpot {structs : StructId → Option Layout}
    {entries : List (Member × Property)}
    (h : ∀ entry ∈ entries, Spot origin entry.2.position) :
    FailsOnly (AtSpot Spot) (checkAligned structs origin entries) := by
  induction entries with
  | nil => exact failsOnly_ok _ _
  | cons entry rest ih =>
    obtain ⟨hfirst, hrest⟩ := List.forall_mem_cons.mp h
    unfold checkAligned
    split
    · refine (fitting_atSpot _).bind fun e _ => ?_
      split
      · exact ih hrest
      · refine failsOnly_error ?_
        unfold misaligned
        split
        · exact atSpot_at hfirst _
        · exact fun _ hd => by cases hd
    · exact ih hrest

theorem structBody_atSpot {fields : List Property} {defs : List StructDef}
    (h : ∀ p ∈ fields, Spot origin p.position) :
    FailsOnly (AtSpot Spot) (structBody ns define origin owner defs fields) := by
  refine (members_atSpot hns hdefine h).bind fun typed _ => (fitting_atSpot _).bind fun l _ => ?_
  exact (checkAligned_atSpot fun entry hentry => h _ (List.of_mem_zip hentry).2).bind
    fun _ _ => failsOnly_ok _ _

omit hdefine in
theorem define_atSpot (fuel : Nat) (underDefinition : List StructId) (defs : List StructDef)
    {d : DeclaredStruct} (hd : d.Stands Spot) :
    FailsOnly (AtSpot Spot) (Model.define ns fuel underDefinition defs d) := by
  induction fuel generalizing underDefinition defs d with
  | zero =>
    rw [Model.define]
    split
    · exact failsOnly_ok _ _
    · exact failsOnly_error (atSpot_at hd.start _)
  | succ fuel ih =>
    rw [Model.define]
    split
    · exact failsOnly_ok _ _
    · split
      · exact failsOnly_error (atSpot_at hd.start _)
      · exact (structBody_atSpot hns (fun defs d hd => ih _ defs hd) hd.fields).bind
          fun _ _ => failsOnly_ok _ _

omit hdefine in
theorem defineStruct_atSpot (defs : List StructDef) (d : DeclaredStruct) (hd : d.Stands Spot) :
    FailsOnly (AtSpot Spot) (defineStruct ns defs d) := define_atSpot hns _ _ defs hd

end Structs

/-! ## Visits -/

/-- A second vertex format is reported under the name of the file that introduces it, at the place
where it is declared. -/
structure SecondFormat (file : String) (i : Introduction) (d : Diagnostic) : Prop where
  isFormat : ∃ name attr fields, i.declaration = .vertexFormat name attr fields
  report : d = ⟨file, i.declared, .duplicate .vertexFormat i.name⟩

section Visits

variable {ns : Namespace} (hns : ns.Stands Spot) {file : String} {d : Draft} {i : Introduction}
  (hi : i.declaration.Stands Spot i.origin i.declared)

include hi

theorem visitVertexFormat_reports {name : String} {attr : Option Attribute} {fields : List Property}
    (hdecl : i.declaration = .vertexFormat name attr fields) :
    FailsOnly (Reports fun r => Spot r.file r.position ∨ SecondFormat file i r)
      (visitVertexFormat file d i attr fields) := by
  unfold visitVertexFormat
  split
  · exact failsOnly_error (reports_diagnosed (.inr ⟨⟨name, attr, fields, hdecl⟩, rfl⟩))
  · refine FailsOnly.imp (P := AtSpot Spot) ?_ fun _ he => he.imp fun _ => .inl
    have hfields : ∀ p ∈ fields, Spot i.origin p.position := fun p hp =>
      hi.properties p (by rw [hdecl]; exact hp)
    refine (allowNone_fails _ (atSpot_at hi.start)).bind fun _ _ => ?_
    refine (vertexInputs_fails fun p hp => atSpot_at (hfields p hp)).bind fun _ _ => ?_
    exact (fitting_atSpot _).bind fun _ _ => failsOnly_ok _ _

include hns

theorem visitBuffer_atSpot {name : String} {attr : Option Attribute} {fields : List Property}
    (hdecl : i.declaration = .buffer name attr fields) :
    FailsOnly (AtSpot Spot) (visitBuffer ns d i name attr fields) := by
  have hfields : ∀ p ∈ fields, Spot i.origin p.position := fun p hp =>
    hi.properties p (by rw [hdecl]; exact hp)
  unfold visitBuffer
  split
  · exact (defineStruct_atSpot hns _ ⟨⟨name, i.origin⟩, i.declared, fields⟩
      ⟨hi.start, hfields⟩).bind fun _ _ => failsOnly_ok _ _
  · exact failsOnly_error (atSpot_at hi.start _)
  · refine (orderOf_fails _ (atSpot_at hi.start)).bind fun _ _ => ?_
    exact (structBody_atSpot hns (defineStruct_atSpot hns) hfields).bind fun _ _ => failsOnly_ok _ _

theorem visit_reports :
    FailsOnly (Reports fun r => Spot r.file r.position ∨ SecondFormat file i r)
      (visit ns file d i) := by
  have hown : ∀ {x : Except Failure Draft}, FailsOnly (AtSpot Spot) x →
      FailsOnly (Reports fun r => Spot r.file r.position ∨ SecondFormat file i r) x :=
    fun hx => hx.imp fun _ he => he.imp fun _ => .inl
  unfold visit
  split
  · exact hown (visitBuffer_atSpot hns hi ‹_›)
  · rename_i p hdecl
    have hp : Spot i.origin p.position := hi.properties p (by rw [hdecl]; exact List.mem_cons_self)
    exact hown (visitConstant_fails d (atSpot_at hp))
  · rename_i p hdecl
    have hp : Spot i.origin p.position := hi.properties p (by rw [hdecl]; exact List.mem_cons_self)
    exact hown (visitOutput_fails d (atSpot_at hp))
  · exact visitVertexFormat_reports hi ‹_›
  · exact hown ((stateBlock_fails _ (atSpot_at hi.start)).bind fun _ _ => failsOnly_ok _ _)
  · exact hown ((stateBlock_fails _ (atSpot_at hi.start)).bind fun _ _ => failsOnly_ok _ _)

end Visits

/-! ## All statements -/

/-- What a module introduces stands at places of a kind, each in the file that declares it. -/
theorem stands_of_introduces {m : Module} (hm : m.Stands Spot) {ns : Namespace}
    (hns : ns.Stands Spot) {imports : List ResolvedImport}
    (himports : List.Forall₂ (Resolves ns) m.uses imports) {i : Introduction}
    (h : Introduces m.file imports 0 m.statements i) :
    i.declaration.Stands Spot i.origin i.declared ∧ Spot m.file i.position := by
  obtain ⟨k, s, hs, hi⟩ := h.introducedBy
  cases hi with
  | declare d hbody => exact ⟨hm.declaration hs hbody, (hm s hs).1⟩
  | use r hbody hmem =>
    obtain ⟨entry, _, hresolves⟩ := exists_left_of_forall₂ himports hmem
    exact ⟨hns _ _ _ hresolves.lookup, (hm s hs).1⟩

theorem introduction?_silent {Q : Diagnostic → Prop} {file : String} {imports : List ResolvedImport}
    {index : Nat} {s : Statement} : FailsOnly (Reports Q) (introduction? file imports index s) := by
  unfold introduction?
  split
  · exact failsOnly_ok _ _
  · exact failsOnly_ok _ _
  · split
    · exact failsOnly_error fun _ hd => nomatch hd
    · exact failsOnly_ok _ _

section Build

variable {m : Module} {ns : Namespace} {imports : List ResolvedImport} (hm : m.Stands Spot)
  (hns : ns.Stands Spot) (himports : List.Forall₂ (Resolves ns) m.uses imports)

/-- A report on a module: at a place of a kind, or on a second vertex format. -/
def BuildReport (Spot : String → Position → Prop) (m : Module) (imports : List ResolvedImport)
    (r : Diagnostic) : Prop :=
  Spot r.file r.position ∨
    ∃ i, Introduces m.file imports 0 m.statements i ∧ SecondFormat m.file i r

include hns in
theorem visitAll_reports {Q : Diagnostic → Prop} {file : String} {index : Nat} {d : Draft}
    {statements : List Statement} (hspot : ∀ r, Spot r.file r.position → Q r)
    (h : ∀ i, Introduces file imports index statements i →
      i.declaration.Stands Spot i.origin i.declared ∧ ∀ r, SecondFormat file i r → Q r) :
    FailsOnly (Reports Q) (visitAll ns file imports index d statements) := by
  induction statements generalizing index d with
  | nil => exact failsOnly_ok _ _
  | cons s rest ih =>
    have hlater : ∀ i, Introduces file imports (index + 1) rest i →
        i.declaration.Stands Spot i.origin i.declared ∧ ∀ r, SecondFormat file i r → Q r :=
      fun i hi => h i (introduces_cons_iff.mpr (.inr hi))
    unfold visitAll
    refine introduction?_silent.bind fun i? hi? => ?_
    cases i? with
    | none => exact ih hlater
    | some i =>
      obtain ⟨hi, hsecond⟩ := h i (introduces_cons_iff.mpr (.inl hi?))
      refine ((visit_reports hns hi).imp fun _ he => he.imp fun r hr => ?_).bind fun _ _ =>
        ih hlater
      exact hr.elim (hspot r) (hsecond r)

/-- The samplers that textures refer to are looked up where the textures stand. -/
theorem samplerRefs_spot {file : String} {stage : Stage} {index : Nat} {d : Draft}
    {statements : List Statement}
    (hi : ∀ i, Introduces file imports index statements i →
      i.declaration.Stands Spot i.origin i.declared)
    (h : visitAll ns file imports index ⟨.empty file stage, [], []⟩ statements = .ok d) :
    ∀ r ∈ d.samplerRefs, Spot r.origin r.position := by
  refine visitAll_induction (P := fun d => ∀ r ∈ d.samplerRefs, Spot r.origin r.position) (by simp)
    (fun d i d' hd hintroduced hv => ?_) h
  cases hv with
  | texture p element sampler t hdecl =>
    refine List.forall_mem_append.mpr ⟨hd, List.forall_mem_singleton.mpr ?_⟩
    exact (hi i hintroduced).properties p (by rw [hdecl]; exact List.mem_cons_self)
  | _ => exact hd

theorem buildRoot_atSpot {file : String} {names : List String} {d : Draft}
    (h : ∀ r ∈ d.roots, Spot file r.position) :
    FailsOnly (AtSpot Spot) (buildRoot file names d) := by
  unfold buildRoot
  split
  · exact failsOnly_ok _ _
  · rename_i first rest hroots
    have hfirst : Spot file first.position := h first (by rw [hroots]; exact List.mem_cons_self)
    split
    · exact failsOnly_error (atSpot_at hfirst _)
    · simp only
      split
      · exact failsOnly_error (atSpot_at hfirst _)
      · exact (fitting_atSpot _).bind fun _ _ => failsOnly_ok _ _

include hm hns himports

/-- The constants of the root buffer are introduced by statements of the module. -/
theorem roots_spot {stage : Stage} {d : Draft}
    (h : visitAll ns m.file imports 0 ⟨.empty m.file stage, [], []⟩ m.statements = .ok d) :
    ∀ r ∈ d.roots, Spot m.file r.position := by
  obtain ⟨is, hmem, _, _, hroots⟩ := visitAll_sites h
  intro r hr
  have hsite := List.mem_map_of_mem (f := RootConstant.site) hr
  rw [hroots] at hsite
  obtain ⟨i, hi, heq⟩ := List.mem_map.mp hsite
  have hintroduced := (hmem i).mp (List.mem_filter.mp hi).1
  have hposition : i.position = r.position := congrArg Site.position heq
  exact hposition ▸ (stands_of_introduces hm hns himports hintroduced).2

/-- Whatever is reported of a module while its model is built, but for a second vertex format, is
reported in the file that the place belongs to. -/
theorem build_reports (stage : Stage) :
    FailsOnly (Reports (BuildReport Spot m imports)) (build m stage ns imports) := by
  have hown : ∀ {α : Type} {x : Except Failure α}, FailsOnly (AtSpot Spot) x →
      FailsOnly (Reports (BuildReport Spot m imports)) x :=
    fun hx => hx.imp fun _ he => he.imp fun _ => .inl
  have hstands := fun i hi => (stands_of_introduces hm hns himports (i := i) hi).1
  refine (hown (distinctNames_fails fun s hs => atSpot_at (hm s hs).1)).bind fun _ _ => ?_
  refine (visitAll_reports hns (fun _ => .inl) fun i hi =>
    ⟨hstands i hi, fun r hr => .inr ⟨i, hi, hr⟩⟩).bind fun d hd => ?_
  refine (hown (buildRoot_atSpot (roots_spot hm hns himports hd))).bind fun _ _ => ?_
  refine (hown (checkSamplers_fails ns fun r hr => ?_)).bind fun _ _ => failsOnly_ok _ _
  exact atSpot_at (samplerRefs_spot hstands hd r hr)

/-- The entities of a model stand at places of its file. -/
theorem sites_spot {stage : Stage} {model : Model} (h : build m stage ns imports = .ok model) :
    ∀ site ∈ model.sites, Spot m.file site.position := by
  intro site hsite
  cases ((build_sites h).1 site).mp hsite with
  | introduced i cls hi | root i hi => exact (stands_of_introduces hm hns himports hi).2

end Build

end Model

end AnnotatedShader
