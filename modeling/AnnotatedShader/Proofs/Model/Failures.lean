import AnnotatedShader.Proofs.Except
import AnnotatedShader.Proofs.Model.Emittable
import AnnotatedShader.Proofs.Model.Introduction
import AnnotatedShader.Proofs.Model.Members

set_option autoImplicit false

/-!
# Failures of models

What can go wrong when a model is built.  A lookup that is missing would be no fault of a file, so
each of them has to be shown to succeed: a member type that is a struct is defined before the struct
that it is in is laid out, every type of a member or a vertex input has a size, and every import has
been resolved.  What is left are diagnostics, and one number that a diagnostic cannot show.

That number is the offset of a packed member that is not aligned (`FarMember`).  `Misbuilt` is the
set of failures that this leaves, and `FailsOnly` is proved of one function after the other, from
the layout of a struct to the build of a whole model (`build_fails`).  Where a step relies on an
earlier one, that one is used through its own lemma, so each function is opened once.
-/

namespace AnnotatedShader

open Failure (Diagnosed diagnosed_at)

/-! ## Layouts that exist -/

namespace Layout

theorem Std140.exists_ofFields {structs : StructId → Option Layout} {fields : List Field}
    (h : ∀ f ∈ fields, ∃ e, Std140.extent structs f.type = .ok e) :
    ∃ l, Std140.ofFields structs fields = .ok l := by
  have hrun : ∀ offset alignment afterPacked,
      ∃ run, Std140.placeFrom structs offset alignment afterPacked fields = .ok run := by
    induction fields with
    | nil => exact fun _ _ _ => ⟨_, rfl⟩
    | cons f rest ih =>
      intro offset alignment afterPacked
      obtain ⟨e, he⟩ := h f List.mem_cons_self
      obtain ⟨run, hrun⟩ := ih (fun g hg => h g (List.mem_cons_of_mem _ hg))
        ((if f.packed && afterPacked then offset else alignUp offset e.alignment) + e.size)
        (max alignment e.alignment) f.packed
      simp only [Std140.placeFrom, bind_eq_ok_iff]
      exact ⟨_, e, he, run, hrun, rfl⟩
  obtain ⟨run, hrun⟩ := hrun 0 0 false
  unfold Std140.ofFields
  rw [hrun]
  show ∃ l, (if fields.isEmpty = true then _ else _) = Except.ok l
  split <;> exact ⟨_, rfl⟩

theorem Vertex.exists_ofFields {fields : List Field} (h : ∀ f ∈ fields, f.type.isNumeric = true) :
    ∃ l, Vertex.ofFields fields = .ok l := by
  have hplaced : ∀ offset, ∃ placed, Vertex.placeFrom offset fields = .ok placed := by
    induction fields with
    | nil => exact fun _ => ⟨_, rfl⟩
    | cons f rest ih =>
      intro offset
      obtain ⟨size, hsize⟩ : ∃ size, Vertex.attributeSize f.type = .ok size := by
        have hnumeric := h f List.mem_cons_self
        cases hf : f.type with
        | scalar | vector | matrix => exact ⟨_, rfl⟩
        | _ => simp [hf, ShaderType.isNumeric] at hnumeric
      obtain ⟨⟨places, ending⟩, hrest⟩ :=
        ih (fun g hg => h g (List.mem_cons_of_mem _ hg)) (offset + size)
      refine ⟨(⟨f.name, offset, size⟩ :: places, ending), ?_⟩
      simp only [Vertex.placeFrom, bind_eq_ok_iff]
      exact ⟨size, hsize, (places, ending), hrest, rfl⟩
  obtain ⟨placed, hplaced⟩ := hplaced 0
  exact ⟨_, by rw [Vertex.ofFields, hplaced]; rfl⟩

end Layout

namespace Model

open AnnotatedShader.Layout

/-- A member type has an extent when the struct in it is laid out. -/
theorem exists_extent {structs : StructId → Option Layout} {base t : ShaderType}
    (hbase : MemberType base) (ht : t = base ∨ ∃ text n, t = .array text base n)
    (hknown : ∀ id, base = .struct id → (structs id).isSome = true) :
    ∃ e, Std140.extent structs t = .ok e := by
  have hextent : ∃ e, Std140.extent structs base = .ok e := by
    cases hbase with
    | struct id =>
      obtain ⟨l, hl⟩ := Option.isSome_iff_exists.mp (hknown id rfl)
      exact ⟨_, Std140.extent_struct_eq_ok_iff.mpr ⟨l, hl, rfl⟩⟩
    | _ => exact ⟨_, rfl⟩
  rcases ht with rfl | ⟨text, n, rfl⟩
  · exact hextent
  · obtain ⟨e, he⟩ := hextent
    exact ⟨_, Std140.extent_array_eq_ok_iff.mpr ⟨e, he, rfl⟩⟩

theorem isSome_layoutsOf {defs : List StructDef} {id : StructId}
    (h : id ∈ defs.map StructDef.id) : (layoutsOf defs id).isSome = true := by
  rw [layoutsOf, Option.isSome_map, List.find?_isSome]
  obtain ⟨d, hd, rfl⟩ := List.mem_map.mp h
  exact ⟨d, hd, beq_self_eq_true _⟩

/-- Every member of a struct has an extent when the structs that members refer to are defined. -/
theorem exists_extent_of_typed {ns : Namespace} {origin : String} {fields : List Property}
    {raw : List Member} {defs : List StructDef}
    (htyped : List.Forall₂ (MemberOf ns origin) fields raw)
    (hknown : ∀ mem ∈ raw, ∀ id, mem.type.structId? = some id → id ∈ defs.map StructDef.id) :
    ∀ mem ∈ raw, ∃ e, Std140.extent (layoutsOf defs) mem.type = .ok e := by
  intro mem hmem
  obtain ⟨p, _, hp⟩ := exists_left_of_forall₂ htyped hmem
  obtain ⟨base, hbase, ht⟩ := writtenType?_cases hp.type
  refine exists_extent (memberType_of_namedType? hbase) (ht.imp_right ?_) ?_
  · rintro ⟨n, _, ht⟩
    exact ⟨_, _, ht⟩
  · rintro id rfl
    refine isSome_layoutsOf (hknown mem hmem id ?_)
    rcases ht with ht | ⟨n, _, ht⟩ <;> rw [ht] <;> rfl

/-! ## Numbers that cannot be shown -/

/-- The layout of a struct of a class `Known` has a packed member at an offset with more digits than
can be written. -/
inductive FarMember (ns : Namespace) (Known : DeclaredStruct → Prop) : Prop
  | intro (decl : DeclaredStruct) (defs : List StructDef) (raw : List Member) (l : Layout)
    (mem : Member) (hknown : Known decl) (hdefs : Derived ns Known defs)
    (htyped : List.Forall₂ (MemberOf ns decl.id.origin) decl.fields raw)
    (hlayout : Std140.ofFields (layoutsOf defs) (raw.map fieldOf) = .ok l)
    (hmem : mem ∈ placeMembers raw l) (hpack : mem.attr = some .pack)
    (hfar : Number.isWritable mem.offset = false)

/-- What building a model fails with: a diagnostic, or one that would have to show the offset of a
far member. -/
def Misbuilt (ns : Namespace) (Known : DeclaredStruct → Prop) (e : Failure) : Prop :=
  e.Diagnosed ∨ e = .numeralUnwritten ∧ FarMember ns Known

variable {ns : Namespace} {Known : DeclaredStruct → Prop}

theorem misbuilt_at (file : String) (position : Position) (fault : Fault) :
    Misbuilt ns Known (.at_ file position fault) := .inl (diagnosed_at file position fault)

theorem failsOnly_at {α : Type} (file : String) (position : Position) (fault : Fault) :
    FailsOnly (Misbuilt ns Known) (.error (.at_ file position fault) : Except Failure α) :=
  failsOnly_error (misbuilt_at file position fault)

theorem failsOnly_fitting {α : Type} {P : Failure → Prop} {x : Except Misfit α}
    (h : ∃ a, x = .ok a) : FailsOnly P (fitting x) := by
  obtain ⟨a, rfl⟩ := h
  exact failsOnly_ok P a

/-! ## Structs -/

/-- What the check of alignments fails with. -/
def Misaligned (ms : List (Member × Property)) (e : Failure) : Prop :=
  e.Diagnosed ∨ e = .numeralUnwritten ∧ ∃ entry ∈ ms,
    entry.1.attr = some .pack ∧ Number.isWritable entry.1.offset = false

theorem Misaligned.cons {ms : List (Member × Property)} {e : Failure} (h : Misaligned ms e)
    (entry : Member × Property) : Misaligned (entry :: ms) e := by
  refine h.imp_right ?_
  rintro ⟨heq, other, hother, hfar⟩
  exact ⟨heq, other, List.mem_cons_of_mem _ hother, hfar⟩

/-- The check of alignments fails at a packed member. -/
theorem checkAligned_fails {structs : StructId → Option Layout} {origin : String}
    {ms : List (Member × Property)}
    (h : ∀ entry ∈ ms, ∃ e, Std140.extent structs entry.1.type = .ok e) :
    FailsOnly (Misaligned ms) (checkAligned structs origin ms) := by
  induction ms with
  | nil => exact failsOnly_ok _ _
  | cons entry rest ih =>
    obtain ⟨m, p⟩ := entry
    have hrest : FailsOnly (Misaligned ((m, p) :: rest)) (checkAligned structs origin rest) :=
      (ih fun entry hentry => h entry (List.mem_cons_of_mem _ hentry)).imp fun _ he => he.cons _
    unfold checkAligned
    split
    · rename_i hpack
      refine (failsOnly_fitting (h (m, p) List.mem_cons_self)).bind fun e _ => ?_
      split
      · exact hrest
      · refine failsOnly_error ?_
        unfold misaligned
        split
        · exact .inl (diagnosed_at _ _ _)
        · rename_i hfar
          exact .inr ⟨rfl, (m, p), List.mem_cons_self, hpack, by simpa using hfar⟩
    · exact hrest

section Structs

variable {underDefinition : List StructId} {define : Definer} (hcovers : CoversNames ns Known)
  (hdefines : Defines ns Known underDefinition define)
  (hfails : ∀ defs d, Derived ns Known defs → Known d →
    FailsOnly (Misbuilt ns Known) (define defs d))

include hcovers hfails

theorem baseType_fails {origin : String} {defs : List StructDef} (p : Property)
    (hdefs : Derived ns Known defs) :
    FailsOnly (Misbuilt ns Known) (baseType ns define origin defs p) := by
  unfold baseType
  split
  · split
    · exact failsOnly_at _ _ _
    · exact failsOnly_ok _ _
  · split
    · exact failsOnly_at _ _ _
    · rename_i d hd
      exact (hfails defs d hdefs (hcovers origin _ d hd)).bind fun _ _ => failsOnly_ok _ _

theorem memberType_fails {origin : String} {defs : List StructDef} (p : Property)
    (hdefs : Derived ns Known defs) :
    FailsOnly (Misbuilt ns Known) (memberType ns define origin defs p) := by
  unfold memberType
  split
  · exact failsOnly_at _ _ _
  · refine (baseType_fails hcovers hfails p hdefs).bind ?_
    rintro ⟨base, defs'⟩ _
    simp only
    split
    · exact failsOnly_ok _ _
    · exact failsOnly_at _ _ _
    · exact failsOnly_ok _ _

include hdefines

theorem members_fails {origin owner : String} (fields : List Property) {seen : List String}
    {defs : List StructDef} (hdefs : Derived ns Known defs) :
    FailsOnly (Misbuilt ns Known) (members ns define origin owner seen defs fields) := by
  induction fields generalizing seen defs with
  | nil => exact failsOnly_ok _ _
  | cons p rest ih =>
    unfold members
    split
    · exact failsOnly_at _ _ _
    · refine (memberType_fails hcovers hfails p hdefs).bind ?_
      rintro ⟨t, mid⟩ hmid
      obtain ⟨_, hgrown, _⟩ := memberType_spec hcovers hdefines hdefs hmid
      simp only
      split
      · exact failsOnly_at _ _ _
      · exact (ih hgrown.derived).bind fun _ _ => failsOnly_ok _ _

/-- The members of a known struct are typed, and then there is a layout for them. -/
theorem structBody_fails {decl : DeclaredStruct} {owner : String} {defs : List StructDef}
    (hknown : Known decl) (hdefs : Derived ns Known defs) :
    FailsOnly (Misbuilt ns Known)
      (structBody ns define decl.id.origin owner defs decl.fields) := by
  unfold structBody
  refine (members_fails hcovers hdefines hfails decl.fields hdefs).bind ?_
  rintro ⟨raw, defs'⟩ hraw
  obtain ⟨htyped, _, _, hgrown, hids⟩ := members_spec hcovers hdefines hdefs hraw
  have hextents := exists_extent_of_typed htyped hids
  have hplaced : ∃ l, Std140.ofFields (layoutsOf defs') (raw.map fieldOf) = .ok l := by
    refine Std140.exists_ofFields fun f hf => ?_
    obtain ⟨mem, hmem, rfl⟩ := List.mem_map.mp hf
    exact hextents mem hmem
  refine (failsOnly_fitting hplaced).bind fun l hl => ?_
  have haligned : ∀ entry ∈ (placeMembers raw l).zip decl.fields,
      ∃ e, Std140.extent (layoutsOf defs') entry.1.type = .ok e := by
    intro entry hentry
    exact forall_placeMembers (P := fun t => ∃ e, Std140.extent (layoutsOf defs') t = .ok e)
      hextents
      entry.1 (List.of_mem_zip hentry).1
  refine ((checkAligned_fails haligned).imp fun e he => ?_).bind fun _ _ => failsOnly_ok _ _
  refine he.imp_right ?_
  rintro ⟨heq, entry, hentry, hpack, hfar⟩
  refine ⟨heq, ?_⟩
  exact .intro decl defs' raw l entry.1 hknown hgrown.derived htyped (fitting_eq_ok_iff.mp hl)
    (List.of_mem_zip hentry).1 hpack hfar

omit hfails hdefines in
theorem define_fails (fuel : Nat) (underDefinition : List StructId) (defs : List StructDef)
    (d : DeclaredStruct) (hdefs : Derived ns Known defs) (hknown : Known d) :
    FailsOnly (Misbuilt ns Known) (Model.define ns fuel underDefinition defs d) := by
  induction fuel generalizing underDefinition defs d with
  | zero =>
    rw [Model.define]
    split
    · exact failsOnly_ok _ _
    · exact failsOnly_at _ _ _
  | succ fuel ih =>
    rw [Model.define]
    split
    · exact failsOnly_ok _ _
    · split
      · exact failsOnly_at _ _ _
      · exact (structBody_fails hcovers (define_spec hcovers fuel _)
          (fun defs d hdefs hknown => ih _ defs d hdefs hknown) hknown hdefs).bind
            fun _ _ => failsOnly_ok _ _

omit hdefines hfails in
theorem defineStruct_fails {defs : List StructDef} {d : DeclaredStruct}
    (hdefs : Derived ns Known defs)
    (hknown : Known d) : FailsOnly (Misbuilt ns Known) (defineStruct ns defs d) :=
  define_fails hcovers _ [] defs d hdefs hknown

end Structs

/-! ## Checks of single declarations

What a check can fail with is a report at one place, whatever is known of such reports.
-/

section Checks

variable {P : Failure → Prop}

theorem orderOf_fails {origin : String} {position : Position} (attr : Option Attribute)
    (h : ∀ fault, P (.at_ origin position fault)) : FailsOnly P (orderOf origin position attr) := by
  unfold orderOf
  split
  · split
    · exact failsOnly_error (h _)
    · exact failsOnly_ok _ _
  · exact failsOnly_ok _ _

theorem allowOnlyOrder_fails {origin name : String} {position : Position} {bearer : Bearer}
    (attr : Option Attribute) (h : ∀ fault, P (.at_ origin position fault)) :
    FailsOnly P (allowOnlyOrder origin position bearer name attr) := by
  unfold allowOnlyOrder
  split
  · exact failsOnly_error (h _)
  · exact failsOnly_error (h _)
  · exact failsOnly_ok _ _

theorem allowNone_fails {origin name : String} {position : Position} {bearer : Bearer}
    (attr : Option Attribute) (h : ∀ fault, P (.at_ origin position fault)) :
    FailsOnly P (allowNone origin position bearer name attr) := by
  unfold allowNone
  split
  · exact failsOnly_error (h _)
  · exact failsOnly_ok _ _

theorem stateBlock_fails {i : Introduction} (entries : List StateEntry)
    (h : ∀ fault, P (.at_ i.origin i.declared fault)) : FailsOnly P (stateBlock i entries) := by
  have hkeys : ∀ seen, FailsOnly P (distinctKeys i seen entries) := by
    induction entries with
    | nil => exact fun _ => failsOnly_ok _ _
    | cons e rest ih =>
      intro seen
      unfold distinctKeys
      split
      · exact failsOnly_error (h _)
      · exact ih _
  exact (hkeys []).bind fun _ _ => failsOnly_ok _ _

theorem distinctNames_fails {file : String} {statements : List Statement} {seen : List String}
    (h : ∀ s ∈ statements, ∀ fault, P (.at_ file s.position fault)) :
    FailsOnly P (distinctNames file seen statements) := by
  induction statements generalizing seen with
  | nil => exact failsOnly_ok _ _
  | cons s rest ih =>
    obtain ⟨hfirst, hrest⟩ := List.forall_mem_cons.mp h
    unfold distinctNames
    split
    · exact ih hrest
    · split
      · exact failsOnly_error (hfirst _)
      · exact ih hrest

theorem checkSamplers_fails (ns : Namespace) {refs : List SamplerRef}
    (h : ∀ r ∈ refs, ∀ fault, P (.at_ r.origin r.position fault)) :
    FailsOnly P (checkSamplers ns refs) := by
  induction refs with
  | nil => exact failsOnly_ok _ _
  | cons r rest ih =>
    obtain ⟨hfirst, hrest⟩ := List.forall_mem_cons.mp h
    unfold checkSamplers
    split
    · exact failsOnly_error (hfirst _)
    · split
      · exact ih hrest
      · exact failsOnly_error (hfirst _)

/-! ## Visits -/

theorem visitTexture_fails (d : Draft) {i : Introduction} {p : Property}
    (h : ∀ fault, P (.at_ i.origin p.position fault)) : FailsOnly P (visitTexture d i p) := by
  unfold visitTexture
  simp only
  split
  · exact failsOnly_error (h _)
  · split
    · split
      · exact failsOnly_ok _ _
      · exact failsOnly_error (h _)
    · exact failsOnly_error (h _)

theorem visitConstant_fails (d : Draft) {i : Introduction} {p : Property}
    (h : ∀ fault, P (.at_ i.origin p.position fault)) : FailsOnly P (visitConstant d i p) := by
  unfold visitConstant
  split
  · exact visitTexture_fails d h
  · split
    · exact failsOnly_error (h _)
    · split
      · exact failsOnly_error (h _)
      · exact (allowNone_fails _ h).bind fun _ _ => failsOnly_ok _ _
      · exact (allowOnlyOrder_fails _ h).bind fun _ _ =>
          (orderOf_fails _ h).bind fun _ _ => failsOnly_ok _ _

theorem visitOutput_fails (d : Draft) {i : Introduction} {p : Property}
    (h : ∀ fault, P (.at_ i.origin p.position fault)) : FailsOnly P (visitOutput d i p) := by
  unfold visitOutput
  simp only
  split
  · split
    · exact (allowOnlyOrder_fails _ h).bind fun _ _ =>
        (orderOf_fails _ h).bind fun _ _ => failsOnly_ok _ _
    · exact failsOnly_error (h _)
  · exact failsOnly_error (h _)

theorem vertexInputs_fails {origin : String} {fields : List Property} {seen : List String}
    (h : ∀ p ∈ fields, ∀ fault, P (.at_ origin p.position fault)) :
    FailsOnly P (vertexInputs origin seen fields) := by
  induction fields generalizing seen with
  | nil => exact failsOnly_ok _ _
  | cons p rest ih =>
    obtain ⟨hfirst, hrest⟩ := List.forall_mem_cons.mp h
    unfold vertexInputs
    simp only
    split
    · exact failsOnly_error (hfirst _)
    · split
      · split
        · exact (allowOnlyOrder_fails _ hfirst).bind fun _ _ => (orderOf_fails _ hfirst).bind
            fun _ _ => (ih hrest).bind fun _ _ => failsOnly_ok _ _
        · exact failsOnly_error (hfirst _)
      · exact failsOnly_error (hfirst _)

end Checks

theorem visitVertexFormat_fails (file : String) (d : Draft) (i : Introduction)
    (attr : Option Attribute) (fields : List Property) :
    FailsOnly (Misbuilt ns Known) (visitVertexFormat file d i attr fields) := by
  unfold visitVertexFormat
  split
  · exact failsOnly_at _ _ _
  · refine (allowNone_fails attr (misbuilt_at _ _)).bind fun _ _ => ?_
    refine (vertexInputs_fails fun _ _ => misbuilt_at _ _).bind fun inputs hinputs => ?_
    refine (failsOnly_fitting (Vertex.exists_ofFields ?_)).bind fun _ _ => failsOnly_ok _ _
    intro f hf
    obtain ⟨input, hinput, rfl⟩ := List.mem_map.mp hf
    obtain ⟨_, _, hof⟩ := exists_inputOf hinputs hinput
    exact hof.numeric

section Visits

variable {Source : Introduction → Prop} (hcovers : CoversNames ns Known)
  (hstructs : CoversStructs Known Source) {d : Draft} {i : Introduction}
  (hd : Drafted ns Known Source d)

include hcovers hstructs hd

theorem visitBuffer_fails {name : String} {attr : Option Attribute} {fields : List Property}
    (hi : Source i) (hdecl : i.declaration = .buffer name attr fields) :
    FailsOnly (Misbuilt ns Known) (visitBuffer ns d i name attr fields) := by
  have hknown := hstructs i hi name attr fields hdecl
  unfold visitBuffer
  split
  · exact (defineStruct_fails hcovers hd.structs hknown).bind fun _ _ => failsOnly_ok _ _
  · exact failsOnly_at _ _ _
  · refine (orderOf_fails attr (misbuilt_at _ _)).bind fun _ _ => ?_
    exact (structBody_fails hcovers (defineStruct_spec hcovers)
      (fun _ _ hdefs hknown => defineStruct_fails hcovers hdefs hknown) hknown hd.structs).bind
        fun _ _ => failsOnly_ok _ _

theorem visit_fails (file : String) (hi : Source i) :
    FailsOnly (Misbuilt ns Known) (visit ns file d i) := by
  unfold visit
  split
  · rename_i hdecl
    exact visitBuffer_fails hcovers hstructs hd hi hdecl
  · exact visitConstant_fails d (misbuilt_at _ _)
  · exact visitOutput_fails d (misbuilt_at _ _)
  · exact visitVertexFormat_fails file d i _ _
  · exact (stateBlock_fails _ (misbuilt_at _ _)).bind fun _ _ => failsOnly_ok _ _
  · exact (stateBlock_fails _ (misbuilt_at _ _)).bind fun _ _ => failsOnly_ok _ _

end Visits

/-! ## All statements -/

/-- Every import of a list of statements has been resolved. -/
def Resolved (imports : List ResolvedImport) (statements : List Statement) : Prop :=
  ∀ s ∈ statements, ∀ u, s.body = .use u → ∃ r ∈ imports, r.use = u ∧ r.position = s.position

theorem resolved_of_resolves {ns : Namespace} {m : Module} {imports : List ResolvedImport}
    (himports : List.Forall₂ (Resolves ns) m.uses imports) : Resolved imports m.statements := by
  intro s hs u hbody
  obtain ⟨r, hr, hresolves⟩ := exists_right_of_forall₂ himports (Module.mem_uses hs hbody)
  exact ⟨r, hr, hresolves.use, hresolves.position⟩

theorem introduction?_fails {file : String} {imports : List ResolvedImport} {index : Nat}
    {s : Statement} (h : ∀ u, s.body = .use u →
      ∃ r ∈ imports, r.use = u ∧ r.position = s.position) :
    FailsOnly (Misbuilt ns Known) (introduction? file imports index s) := by
  unfold introduction?
  split
  · exact failsOnly_ok _ _
  · exact failsOnly_ok _ _
  · rename_i u hbody
    split
    · rename_i hnone
      obtain ⟨r, hr, huse, hposition⟩ := h u hbody
      have hother := List.find?_eq_none.mp hnone r hr
      simp [huse, hposition] at hother
    · exact failsOnly_ok _ _

section Build

variable {Source : Introduction → Prop} {file : String} {imports : List ResolvedImport}
  (hcovers : CoversNames ns Known) (hstructs : CoversStructs Known Source)

include hcovers hstructs

theorem visitAll_fails {index : Nat} {d : Draft} {statements : List Statement}
    (hd : Drafted ns Known Source d) (hresolved : Resolved imports statements)
    (hsource : ∀ i, Introduces file imports index statements i → Source i) :
    FailsOnly (Misbuilt ns Known) (visitAll ns file imports index d statements) := by
  induction statements generalizing index d with
  | nil => exact failsOnly_ok _ _
  | cons s rest ih =>
    have hrest : Resolved imports rest := fun t ht => hresolved t (List.mem_cons_of_mem _ ht)
    have hlater : ∀ i, Introduces file imports (index + 1) rest i → Source i := fun i hi =>
      hsource i (introduces_cons_iff.mpr (.inr hi))
    unfold visitAll
    refine (introduction?_fails (hresolved s List.mem_cons_self)).bind fun i? hi? => ?_
    cases i? with
    | none => exact ih hd hrest hlater
    | some i =>
      have hi : Source i := hsource i (introduces_cons_iff.mpr (.inl hi?))
      refine (visit_fails hcovers hstructs hd file hi).bind fun mid hmid => ?_
      exact ih (hd.visit hcovers hstructs hi (visit_visited hmid)) hrest hlater

omit hcovers hstructs in
theorem buildRoot_fails {names : List String} {d : Draft} (hd : Drafted ns Known Source d) :
    FailsOnly (Misbuilt ns Known) (buildRoot file names d) := by
  unfold buildRoot
  split
  · exact failsOnly_ok _ _
  · split
    · exact failsOnly_at _ _ _
    · simp only
      split
      · exact failsOnly_at _ _ _
      · refine (failsOnly_fitting (Std140.exists_ofFields fun f hf => ?_)).bind
          fun _ _ => failsOnly_ok _ _
        simp only [List.map_map, List.mem_map, Function.comp_apply] at hf
        obtain ⟨r, hr, rfl⟩ := hf
        obtain ⟨i, _, hi⟩ := hd.roots r hr
        obtain ⟨p, t, order, _, _, _, htype, hnumeric, _, _, rfl⟩ := hi.source
        have ht : MemberType t := by
          cases ShaderType.named_of_ofName? htype with
          | scalar c => exact .scalar c
          | vector spelling c size hsize => exact .vector spelling c size hsize
          | matrix spelling c size hsize => exact .matrix spelling c size hsize
          | sampler => exact absurd rfl hnumeric
        refine exists_extent ht ?_ ?_
        · dsimp only
          split
          · exact .inr ⟨_, _, rfl⟩
          · exact .inl rfl
        · -- no name of a numeric type denotes a struct
          rintro id rfl
          cases ShaderType.named_of_ofName? htype

/-- A model is built, or a diagnostic tells why not, unless it would have to show too long a
number. -/
theorem build_fails {m : Module} (stage : Stage)
    (himports : List.Forall₂ (Resolves ns) m.uses imports)
    (hintroduced : (namesOf m).Nodup → ∀ i, Introduces m.file imports 0 m.statements i → Source i) :
    FailsOnly (Misbuilt ns Known) (build m stage ns imports) := by
  have hempty : Drafted ns Known Source ⟨.empty m.file stage, [], []⟩ :=
    ⟨.nil, by simp [Model.empty], by simp⟩
  have hresolved := resolved_of_resolves himports
  unfold build
  refine (distinctNames_fails fun _ _ => misbuilt_at _ _).bind fun _ hnames => ?_
  have hsource := hintroduced (distinctNames_spec hnames).1
  refine (visitAll_fails hcovers hstructs hempty hresolved hsource).bind fun d hd => ?_
  have hdrafted : Drafted ns Known Source d := visitAll_induction hempty
    (fun _ i _ hd hi hv => hd.visit hcovers hstructs (hsource i hi) hv) hd
  refine (buildRoot_fails hdrafted).bind fun _ _ => ?_
  exact (checkSamplers_fails ns fun _ _ => misbuilt_at _ _).bind fun _ _ => failsOnly_ok _ _

end Build

end Model

end AnnotatedShader
