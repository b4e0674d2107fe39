import AnnotatedShader.Proofs.Glsl.Globals
import AnnotatedShader.Proofs.Glsl.Origin
import AnnotatedShader.Proofs.Glsl.Placement
import AnnotatedShader.Proofs.Model.Containment

set_option autoImplicit false

/-!
# Struct types in front of their uses

A struct type is declared in front of the first buffer that needs it, behind the struct types that
it has members of.  The recursion notes a struct type when it begins it, so what is noted is
declared, or it is still begun (`Emission.Kept`).  A struct type that is begun is not met again
below, because its rank among the structs of the model is above that of all that it contains.

What is noted goes from buffer to buffer in the order of the model.  It stays true of the text only
because buffers are emitted in the same order, whatever blocks they stand in.  Declarations each of
which stands behind what it uses are `Grounded`; the recursion and the items keep this, one lemma
each, and `grounded_items` has it for a whole text.

`StructsPlaced` collects what follows for a model: each struct type is declared once at most, in
front of its uses, with the members recorded for it, and it is declared exactly if a buffer needs
it.  A text that is written from such declarations has the lines of each struct type
(`Written.structStated`).
-/

namespace AnnotatedShader

namespace Model

/-- A struct type that a buffer of a model has members of, or that such a struct type contains. -/
def Needs (m : Model) (id : StructId) : Prop :=
  ∃ b ∈ m.buffers, ∃ mem ∈ b.members, ∃ first, mem.type.structId? = some first ∧
    Relation.ReflTransGen m.Contains first id

section Struct

variable {m : Model} {id : StructId} {d : StructDef}

theorem mem_of_struct? (h : m.struct? id = some d) : d ∈ m.structs ∧ d.id = id :=
  ⟨List.mem_of_find?_eq_some h, by simpa using List.find?_some h⟩

theorem exists_struct? (h : id ∈ m.structs.map StructDef.id) : ∃ d, m.struct? id = some d := by
  obtain ⟨d, hd, rfl⟩ := List.mem_map.mp h
  exact Option.isSome_iff_exists.mp (List.find?_isSome.mpr ⟨d, hd, beq_self_eq_true d.id⟩)

theorem struct?_of_mem (hids : (m.structs.map StructDef.id).Nodup) (hd : d ∈ m.structs) :
    m.struct? d.id = some d := by
  obtain ⟨d', hd'⟩ := exists_struct? (List.mem_map_of_mem hd)
  obtain ⟨hmem, hid⟩ := mem_of_struct? hd'
  rw [hd', List.inj_on_of_nodup_map hids hmem hd hid]

theorem contains_iff (hids : (m.structs.map StructDef.id).Nodup) (h : m.struct? id = some d)
    {other : StructId} :
    m.Contains id other ↔ ∃ mem ∈ d.members, mem.type.structId? = some other := by
  obtain ⟨hmem, hid⟩ := mem_of_struct? h
  constructor
  · rintro ⟨d', hd', hid', hused⟩
    rwa [← List.inj_on_of_nodup_map hids hd' hmem (hid'.trans hid.symm)]
  · exact fun hused => ⟨d, hmem, hid, hused⟩

end Struct

end Model

namespace Glsl

/-! ## Uses -/

/-- The struct types that a declaration has members of, or arrays of them. -/
def Declaration.uses : Declaration → List StructId
  | .struct _ members | .block _ _ members _ => members.filterMap fun mem => mem.type.structId?
  | _ => []

theorem uses_struct (id : StructId) (members : List Member) :
    (Declaration.struct id (structMembers members)).uses =
      members.filterMap fun mem => mem.type.structId? :=
  List.filterMap_map

theorem uses_blockDeclaration {o : Options} {b : Buffer} {block : Declaration}
    (h : blockDeclaration o b = .ok block) :
    block.uses = b.members.filterMap fun mem => mem.type.structId? := by
  obtain ⟨members, hmembers, rfl⟩ := blockDeclaration_eq_ok h
  have htypes : members.map MemberDeclaration.type = b.members.map Member.type := by
    refine map_eq_of_forall₂ (forall₂_of_mapM hmembers) fun mem d hd => ?_
    unfold blockMember at hd
    split at hd
    · rw [← Except.ok.inj hd]
    · contradiction
  have hmap := congrArg (List.filterMap ShaderType.structId?) htypes
  rwa [List.filterMap_map, List.filterMap_map] at hmap

/-- A struct type is declared, with the members that its model records for it. -/
def StructDeclared (m : Model) (ds : List Declaration) (id : StructId) : Prop :=
  ∃ d, m.struct? id = some d ∧ .struct id (structMembers d.members) ∈ ds

theorem StructDeclared.mono {m : Model} {ds ds' : List Declaration} (hsub : ds ⊆ ds')
    {id : StructId}
    (h : StructDeclared m ds id) : StructDeclared m ds' id := by
  obtain ⟨d, hd, hmem⟩ := h
  exact ⟨d, hd, hsub hmem⟩

theorem mem_structsOf_iff {ds : List Declaration} {id : StructId} :
    id ∈ structsOf ds ↔ ∃ members, .struct id members ∈ ds := by
  constructor
  · intro h
    obtain ⟨g, hg, hid⟩ := List.mem_filterMap.mp h
    obtain ⟨d, hd, hg⟩ := List.mem_flatMap.mp hg
    have hplain : d.isInterface = false := by
      refine Bool.eq_false_iff.mpr fun hinterface => ?_
      have hmem : id ∈ structsOf [d] := List.mem_filterMap.mpr
        ⟨g, List.mem_flatMap.mpr ⟨d, List.mem_singleton_self d, hg⟩, hid⟩
      rw [structsOf_eq_nil (List.forall_mem_singleton.mpr hinterface)] at hmem
      exact List.not_mem_nil hmem
    cases d with
    | struct id' members =>
      obtain rfl := List.mem_singleton.mp hg
      obtain rfl := Option.some.inj hid
      exact ⟨members, hd⟩
    | undefined => exact absurd hg List.not_mem_nil
    | input | texture | output | block => contradiction
  · rintro ⟨members, hmem⟩
    exact List.mem_filterMap.mpr
      ⟨.structType id, List.mem_flatMap.mpr ⟨_, hmem, List.mem_singleton_self _⟩, rfl⟩

/-! ## Declarations behind what they use -/

/-- Declarations that stand behind those of the struct types they use. -/
inductive Grounded (m : Model) : List Declaration → Prop
  | nil : Grounded m []
  | snoc {ds : List Declaration} {d : Declaration} (h : Grounded m ds)
    (hd : ∀ id ∈ d.uses, StructDeclared m ds id) : Grounded m (ds ++ [d])

namespace Grounded

variable {m : Model} {ds : List Declaration}

theorem before (h : Grounded m ds) {front back : List Declaration} {d : Declaration}
    (hsplit : ds = front ++ d :: back) : ∀ id ∈ d.uses, StructDeclared m front id := by
  induction h generalizing back with
  | nil => simp at hsplit
  | @snoc ds last _ hlast ih =>
    rcases List.eq_nil_or_concat back with rfl | ⟨back, last', rfl⟩
    · obtain ⟨rfl, hd⟩ := List.append_inj' hsplit rfl
      obtain rfl := List.singleton_inj.mp hd
      exact hlast
    · rw [List.concat_eq_append, ← List.cons_append, ← List.append_assoc] at hsplit
      exact ih (List.append_inj' hsplit rfl).1

theorem declared (h : Grounded m ds) {d : Declaration} (hd : d ∈ ds) :
    ∀ id ∈ d.uses, StructDeclared m ds id := by
  obtain ⟨front, back, rfl⟩ := List.append_of_mem hd
  exact fun id hid => (h.before rfl id hid).mono (List.subset_append_left _ _)

/-- Declarations that use no struct types can stand anywhere. -/
theorem append_plain (h : Grounded m ds) {new : List Declaration} (hnew : ∀ d ∈ new, d.uses = []) :
    Grounded m (ds ++ new) := by
  induction new generalizing ds with
  | nil => rwa [List.append_nil]
  | cons d rest ih =>
    have hfirst : Grounded m (ds ++ [d]) := h.snoc fun id hid => by
      rw [hnew d List.mem_cons_self] at hid
      contradiction
    have hall := ih hfirst fun other hother => hnew other (List.mem_cons_of_mem _ hother)
    rwa [List.append_assoc] at hall

end Grounded

/-! ## The recursion -/

/-- Declarations behind others are grounded, and the struct types that are noted are declared, but
for those that are still begun. -/
structure Emission.Kept (m : Model) (before : List Declaration) (begun : List StructId)
    (e : Emission) : Prop where
  grounded : Grounded m (before ++ e.declarations)
  noted : ∀ id ∈ e.emitted, id ∈ begun ∨ StructDeclared m (before ++ e.declarations) id

namespace Emission.Kept

variable {m : Model} {before : List Declaration} {begun : List StructId} {e : Emission}

/-- A struct type is begun when it is noted. -/
theorem start (h : e.Kept m before begun) (id : StructId) :
    Emission.Kept m before (id :: begun) ⟨e.declarations, id :: e.emitted⟩ := by
  refine ⟨h.grounded, List.forall_mem_cons.mpr ⟨.inl List.mem_cons_self, fun other hother => ?_⟩⟩
  exact (h.noted other hother).imp_left (List.mem_cons_of_mem id)

/-- A struct type that is begun is declared behind those that it needs. -/
theorem close {id : StructId} (h : e.Kept m before (id :: begun)) {d : StructDef}
    (hd : m.struct? id = some d)
    (hneeded : ∀ mem ∈ d.members, ∀ other, mem.type.structId? = some other →
      StructDeclared m (before ++ e.declarations) other) :
    Emission.Kept m before begun
        ⟨e.declarations ++ [.struct id (structMembers d.members)], e.emitted⟩ ∧
      StructDeclared m
        (before ++ (e.declarations ++ [.struct id (structMembers d.members)])) id := by
  rw [← List.append_assoc]
  have hself : StructDeclared m
      ((before ++ e.declarations) ++ [.struct id (structMembers d.members)]) id :=
    ⟨d, hd, List.mem_append_right _ (List.mem_singleton_self _)⟩
  refine ⟨⟨?_, fun other hother => ?_⟩, hself⟩
  · rw [← List.append_assoc]
    refine h.grounded.snoc fun other hother => ?_
    rw [uses_struct] at hother
    obtain ⟨mem, hmem, hstruct⟩ := List.mem_filterMap.mp hother
    exact hneeded mem hmem other hstruct
  · rw [← List.append_assoc]
    rcases h.noted other hother with hbegun | hdeclared
    · rcases List.mem_cons.mp hbegun with rfl | hbegun
      · exact .inr hself
      · exact .inl hbegun
    · exact .inr (hdeclared.mono (List.subset_append_left _ _))

/-- Steps that each declare a struct type declare all of them. -/
theorem foldl {step : Emission → StructId → Emission}
    (hgrows : ∀ e id, Emission.Grows e (step e id))
    {ids : List StructId}
    (hstep : ∀ (e : Emission), ∀ id ∈ ids, e.Kept m before begun → (step e id).Kept m before begun ∧
      StructDeclared m (before ++ (step e id).declarations) id)
    (h : e.Kept m before begun) : (ids.foldl step e).Kept m before begun ∧
      ∀ id ∈ ids, StructDeclared m (before ++ (ids.foldl step e).declarations) id := by
  induction ids generalizing e with
  | nil => exact ⟨h, by simp⟩
  | cons id rest ih =>
    obtain ⟨hkept, hdeclared⟩ := hstep e id List.mem_cons_self h
    obtain ⟨hall, hrest⟩ :=
      ih (fun e other hother => hstep e other (List.mem_cons_of_mem _ hother)) hkept
    refine ⟨hall, List.forall_mem_cons.mpr ⟨hdeclared.mono ?_, hrest⟩⟩
    -- What has been declared stays declared.
    obtain ⟨new, hnew, _⟩ := (Emission.Grows.foldl hgrows rest (step e id)).added
    rw [List.foldl_cons, hnew, ← List.append_assoc]
    exact List.subset_append_left _ _

end Emission.Kept

section Recursion

variable {ns : Namespace} {Known : DeclaredStruct → Prop} {m : Model}
  (hstructs : Model.Derived ns Known m.structs) (hm : m.Emittable)

include hstructs hm

/-- With fuel above its rank a struct type is declared, behind all that it contains. -/
theorem emitStruct_kept {fuel : Nat} {before : List Declaration} {begun : List StructId}
    {e : Emission} {id : StructId} (hid : id ∈ m.structs.map StructDef.id)
    (hfuel : (m.structs.map StructDef.id).idxOf id < fuel)
    (hbegun : ∀ other ∈ begun,
      (m.structs.map StructDef.id).idxOf id < (m.structs.map StructDef.id).idxOf other)
    (he : e.Kept m before begun) : (emitStruct m fuel e id).Kept m before begun ∧
      StructDeclared m (before ++ (emitStruct m fuel e id).declarations) id := by
  induction fuel generalizing e id begun with
  | zero => exact absurd hfuel (Nat.not_lt_zero _)
  | succ fuel ih =>
    unfold emitStruct
    split
    · rename_i hnoted
      refine ⟨he, (he.noted id (List.contains_iff_mem.mp hnoted)).resolve_left fun hmem => ?_⟩
      exact Nat.lt_irrefl _ (hbegun id hmem)
    · obtain ⟨d, hd⟩ := Model.exists_struct? hid
      obtain ⟨hmem, rfl⟩ := Model.mem_of_struct? hd
      simp only [hd]
      have hcontained : ∀ other ∈ d.dependencies, m.Contains d.id other := by
        intro other hother
        rw [hstructs.dependencies d hmem, Model.mem_dependenciesOf_iff] at hother
        exact (Model.contains_iff hstructs.nodup hd).mpr hother
      obtain ⟨hkept, hdeclared⟩ := (he.start d.id).foldl (emitStruct_grows m fuel)
        fun e other hother he => by
          have hless := hstructs.idxOf_lt (hcontained other hother)
          refine ih ((hm.structs d hmem).2 other hother) (by omega) ?_ he
          refine List.forall_mem_cons.mpr ⟨hless, fun earlier hearlier => ?_⟩
          exact Nat.lt_trans hless (hbegun earlier hearlier)
      refine hkept.close hd fun mem hmember other hused => hdeclared other ?_
      rw [hstructs.dependencies d hmem, Model.mem_dependenciesOf_iff]
      exact ⟨mem, hmember, hused⟩

/-- In front of a buffer all struct types are declared that it has members of. -/
theorem emitStructs_kept {before : List Declaration} {noted : List StructId} {ms : List Member}
    (hms : ∀ mem ∈ ms, Model.Declarable m.structs mem.type)
    (hbefore : Emission.Kept m before [] ⟨[], noted⟩) :
    (emitStructs m noted ms).Kept m before [] ∧
      ∀ mem ∈ ms, ∀ id, mem.type.structId? = some id →
        StructDeclared m (before ++ (emitStructs m noted ms).declarations) id := by
  obtain ⟨hkept, hdeclared⟩ := hbefore.foldl (emitStruct_grows m (m.structs.length + 1))
    fun e id (hid : id ∈ ms.filterMap fun mem => mem.type.structId?) he => by
      obtain ⟨mem, hmem, hstruct⟩ := List.mem_filterMap.mp hid
      have hdefined := (hms mem hmem).defined id hstruct
      have hrank := List.idxOf_lt_length_iff.mpr hdefined
      rw [List.length_map] at hrank
      exact emitStruct_kept hstructs hm hdefined (by omega) (by simp) he
  exact ⟨hkept, fun mem hmem id hstruct =>
    hdeclared id (List.mem_filterMap.mpr ⟨mem, hmem, hstruct⟩)⟩

end Recursion

/-- A property of struct types that goes from each to those it contains holds of all that are
declared with one. -/
theorem emitStruct_structsOf {m : Model} (hids : (m.structs.map StructDef.id).Nodup)
    {P : StructId → Prop} (hP : ∀ id other, P id → m.Contains id other → P other)
    (hdependencies : ∀ d ∈ m.structs, d.dependencies = Model.dependenciesOf d.members) {fuel : Nat}
    {e : Emission} {id : StructId} (hid : P id) (he : ∀ other ∈ structsOf e.declarations, P other) :
    ∀ other ∈ structsOf (emitStruct m fuel e id).declarations, P other := by
  induction fuel generalizing e id with
  | zero => exact he
  | succ fuel ih =>
    unfold emitStruct
    split
    · exact he
    · split
      · rw [structsOf_append]
        exact List.forall_mem_append.mpr ⟨he, by simp [structsOf, globalsOf, Declaration.globals]⟩
      · rename_i d hd
        obtain ⟨hmem, rfl⟩ := Model.mem_of_struct? hd
        rw [structsOf_append]
        refine List.forall_mem_append.mpr ⟨?_, List.forall_mem_singleton.mpr hid⟩
        refine List.foldlRecOn (motive := fun e => ∀ other ∈ structsOf e.declarations, P other)
          d.dependencies (emitStruct m fuel) (b := ⟨e.declarations, d.id :: e.emitted⟩) he
          fun e he other hother => ih (hP _ _ hid ?_) he
        rw [hdependencies d hmem, Model.mem_dependenciesOf_iff] at hother
        exact (Model.contains_iff hids hd).mpr hother

/-! ## Items one behind the other -/

section Items

variable {ns : Namespace} {Known : DeclaredStruct → Prop} {a : Source.Annotated} {m : Model}
  {o : Options}

theorem Emission.Kept.append_plain {before new : List Declaration} {noted : List StructId}
    (h : Emission.Kept m before [] ⟨[], noted⟩) (hnew : ∀ d ∈ new, d.uses = []) :
    Emission.Kept m (before ++ new) [] ⟨[], noted⟩ := by
  obtain ⟨hgrounded, hnoted⟩ := h
  simp only [List.append_nil] at hgrounded hnoted
  refine ⟨by simpa using hgrounded.append_plain hnew, fun id hid => ?_⟩
  rw [List.append_nil]
  exact (hnoted id hid).imp_right fun hdeclared => hdeclared.mono (List.subset_append_left _ _)

/-- The declaration behind the struct types that it uses takes nothing from what is noted. -/
theorem Emission.Kept.behind {before : List Declaration} {e : Emission} (h : e.Kept m before [])
    {d : Declaration} (hd : ∀ id ∈ d.uses, StructDeclared m (before ++ e.declarations) id) :
    Emission.Kept m (before ++ (e.declarations ++ [d])) [] ⟨[], e.emitted⟩ := by
  rw [← List.append_assoc]
  refine ⟨by simpa using h.grounded.snoc hd, fun id hid => ?_⟩
  rw [List.append_nil]
  exact (h.noted id hid).imp_right fun hdeclared => hdeclared.mono (List.subset_append_left _ _)

section Entities

variable (hstructs : Model.Derived ns Known m.structs) (hm : m.Emittable)

include hstructs hm

/-- The declarations of an entity keep what is noted, if the buffers before it have been emitted. -/
theorem Declares.kept {e : Entity} {new : List Declaration} (h : Declares m o e new)
    (hdistinct : m.buffers.Nodup) {done rest : List Buffer}
    (hbuffers : m.buffers = done ++ (e.buffer?.toList ++ rest)) {ds : List Declaration}
    (hds : Emission.Kept m ds [] ⟨[], emittedBy m done⟩) :
    Emission.Kept m (ds ++ new) [] ⟨[], emittedBy m (done ++ e.buffer?.toList)⟩ := by
  have hplain : e.buffer? = none → (∀ d ∈ new, d.uses = []) →
      Emission.Kept m (ds ++ new) [] ⟨[], emittedBy m (done ++ e.buffer?.toList)⟩ := by
    intro hnone hnew
    rw [hnone, Option.toList_none, List.append_nil]
    exact hds.append_plain hnew
  cases h with
  | format vf => exact hplain rfl (List.forall_mem_map.mpr fun _ _ => rfl)
  | texture t => exact hplain rfl (List.forall_mem_singleton.mpr rfl)
  | output out => exact hplain rfl (List.forall_mem_singleton.mpr rfl)
  | buffer before after b block hsplit hblock =>
    -- Buffers differ, so those before it in the model are those that have been emitted.
    have hbuffers : m.buffers = done ++ b :: rest := hbuffers
    obtain ⟨-, hafter, hbefore⟩ := List.nodup_append.mp (hbuffers ▸ hdistinct)
    have hdone : b ∉ done := fun hmem => hbefore b hmem b List.mem_cons_self rfl
    obtain ⟨rfl, -, rfl⟩ := (List.append_cons_inj_of_notMem hdone (List.nodup_cons.mp hafter).1).mp
      (hbuffers.symm.trans hsplit)
    have hmem : b ∈ m.buffers := by rw [hsplit]; exact List.mem_append_right _ List.mem_cons_self
    obtain ⟨hkept, hdeclared⟩ := emitStructs_kept hstructs hm (hm.buffers b hmem) hds
    have hemitted :
        emittedBy m (done ++ [b]) = (emitStructs m (emittedBy m done) b.members).emitted := by
      rw [emittedBy, emittedBy, List.foldl_append]
      rfl
    show Emission.Kept m _ [] ⟨[], emittedBy m (done ++ [b])⟩
    rw [hemitted]
    refine hkept.behind fun id hid => ?_
    rw [uses_blockDeclaration hblock] at hid
    obtain ⟨mem, hmember, hstruct⟩ := List.mem_filterMap.mp hid
    exact hdeclared mem hmember id hstruct

/-- The declarations of entities that have the remaining buffers in the order of the model are
grounded. -/
theorem grounded_items (hdistinct : m.buffers.Nodup) {done : List Buffer} {ds : List Declaration}
    {es : List Entity} {is : List Item} (hes : List.Forall₂ (ItemOf a m o) es is)
    (hbuffers : m.buffers = done ++ es.filterMap Entity.buffer?)
    (hds : Emission.Kept m ds [] ⟨[], emittedBy m done⟩) :
    Grounded m (ds ++ is.flatMap Item.declarations) := by
  induction hes generalizing done ds with
  | nil => exact hds.grounded
  | @cons e i es is hof _ ih =>
    have hsplit : (e :: es).filterMap Entity.buffer? =
        e.buffer?.toList ++ es.filterMap Entity.buffer? := by
      rw [List.filterMap_cons]
      cases e.buffer? <;> rfl
    rw [hsplit] at hbuffers
    rw [List.flatMap_cons, ← List.append_assoc]
    exact ih (by rw [hbuffers, List.append_assoc])
      (hof.declares.kept hstructs hm hdistinct hbuffers hds)

end Entities

/-- An entity declares no struct types but those that a buffer needs. -/
theorem Declares.needed (hstructs : Model.Derived ns Known m.structs) {e : Entity}
    {ds : List Declaration} (h : Declares m o e ds) : ∀ id ∈ structsOf ds, m.Needs id := by
  have hplain : ∀ {ds : List Declaration}, (∀ d ∈ ds, d.isInterface = true) →
      ∀ id ∈ structsOf ds, m.Needs id := fun hds id hid => by
    rw [structsOf_eq_nil hds] at hid
    contradiction
  cases h with
  | format vf => exact hplain (List.forall_mem_map.mpr fun _ _ => rfl)
  | texture t => exact hplain (List.forall_mem_singleton.mpr rfl)
  | output out => exact hplain (List.forall_mem_singleton.mpr rfl)
  | buffer before after b block hsplit hblock =>
    have hb : b ∈ m.buffers := by rw [hsplit]; exact List.mem_append_right _ List.mem_cons_self
    rw [structsOf_append]
    refine List.forall_mem_append.mpr ⟨?_, hplain (List.forall_mem_singleton.mpr ?_)⟩
    · refine List.foldlRecOn (motive := fun e : Emission => ∀ id ∈ structsOf e.declarations,
        m.Needs id)
        _ _ (fun id hid => nomatch hid) fun e he first hfirst => ?_
      obtain ⟨mem, hmem, hused⟩ := List.mem_filterMap.mp hfirst
      refine emitStruct_structsOf hstructs.nodup ?_ hstructs.dependencies
        ⟨b, hb, mem, hmem, first, hused, .refl⟩ he
      rintro id other ⟨b, hb, mem, hmem, first, hused, hreached⟩ hcontains
      exact ⟨b, hb, mem, hmem, first, hused, hreached.tail hcontains⟩
    · obtain ⟨_, _, rfl⟩ := blockDeclaration_eq_ok hblock
      rfl

end Items

/-! ## All declarations of a model -/

/-- How struct types stand among the declarations of a model: each buffer is declared, each struct
type once at most, in front of what has members of it or of arrays of it, with the members recorded
for it, and only if a buffer needs it. -/
structure StructsPlaced (o : Options) (m : Model) (ds : List Declaration) : Prop where
  buffers : ∀ b ∈ m.buffers, ∃ block ∈ ds, blockDeclaration o b = .ok block
  once : (structsOf ds).Nodup
  before : ∀ front d back, ds = front ++ d :: back → ∀ id ∈ d.uses, StructDeclared m front id
  recorded : ∀ id members, .struct id members ∈ ds →
    ∃ d, m.struct? id = some d ∧ members = structMembers d.members
  needed : ∀ id, id ∈ structsOf ds ↔ m.Needs id

/-- Whether a text declares a struct type with given members, one line for each. -/
def StructStated (text : String) (id : StructId) (members : List MemberDeclaration) : Prop :=
  ∃ inside, HasLines text (("struct " ++ (id.name ++ "Type") ++ " \x7b") :: inside ++ ["\x7d;"]) ∧
    List.Forall₂ MemberLine (members.map fun m => (m.name, m.offset, m.type.arraySize)) inside

/-- A struct type that is emitted is declared by the text. -/
theorem Written.structStated {o : Options} {a : Source.Annotated} {r : Rewriting}
    {ds : Nat → List Declaration} {text : String} (h : Written o a r ds text) {id : StructId}
    {members : List MemberDeclaration} (hd : .struct id members ∈ emitted a ds) :
    StructStated text id members := by
  obtain ⟨ls, hls, htext⟩ := h.hasLines hd
  simp only [Declaration.lines, bind_eq_ok_iff] at hls
  obtain ⟨type, htype, inside, hinside, hls⟩ := hls
  obtain rfl := Except.ok.inj hls
  obtain rfl := Except.ok.inj (typeName_eq_ok htype)
  exact ⟨inside, htext, memberLine_mapM_spec hinside⟩

section Model

variable {ns : Namespace} {Known : DeclaredStruct → Prop} {a : Source.Annotated} {m : Model}
  {o : Options}

/-- Where declarations stand behind what they use, all struct types are declared that buffers
need. -/
theorem Grounded.mem_structsOf {ds : List Declaration} (h : Grounded m ds)
    (hids : (m.structs.map StructDef.id).Nodup)
    (hbuffers : ∀ b ∈ m.buffers, ∃ block ∈ ds, blockDeclaration o b = .ok block) {id : StructId}
    (hneeds : m.Needs id) : id ∈ structsOf ds := by
  obtain ⟨b, hb, mem, hmem, first, hused, hreached⟩ := hneeds
  suffices hdeclared : StructDeclared m ds id by
    obtain ⟨d, _, hd⟩ := hdeclared
    exact mem_structsOf_iff.mpr ⟨_, hd⟩
  induction hreached with
  | refl =>
    obtain ⟨block, hblock, hdeclares⟩ := hbuffers b hb
    refine h.declared hblock first ?_
    rw [uses_blockDeclaration hdeclares]
    exact List.mem_filterMap.mpr ⟨mem, hmem, hused⟩
  | tail _ hcontains ih =>
    obtain ⟨d, hd, hdeclared⟩ := ih
    obtain ⟨member, hmember, hstruct⟩ := (Model.contains_iff hids hd).mp hcontains
    refine h.declared hdeclared _ ?_
    rw [uses_struct]
    exact List.mem_filterMap.mpr ⟨member, hmember, hstruct⟩

/-- In a generated text struct types are declared where they are needed. -/
theorem generate_structs {text : String} (h : generate a m o = .ok text)
    (hroles : a.roles = Source.roles a.lines) (hsplit : Source.Split 1 none a.roles a.blocks)
    (hseated : Seated a m) (hordered : (m.buffers.map Buffer.index).Pairwise (· < ·))
    (hstructs : Model.Derived ns Known m.structs) (hm : m.Emittable) :
    ∃ r ds, Written o a r ds text ∧ StructsPlaced o m (emitted a ds) := by
  obtain ⟨is, his, hwritten⟩ := generate_written h
  obtain ⟨es, hperm, hbuffers, hes, hemitted⟩ := items_seated hseated hroles hsplit hordered his
  have hdistinct : m.buffers.Nodup :=
    List.Nodup.of_map Buffer.index (hordered.imp Nat.ne_of_lt)
  have hstart : Emission.Kept m [] [] ⟨[], emittedBy m []⟩ := ⟨.nil, fun _ hid => nomatch hid⟩
  have hgrounded : Grounded m (is.flatMap Item.declarations) :=
    grounded_items hstructs hm hdistinct hes hbuffers.symm hstart
  have hblocks : ∀ b ∈ m.buffers, ∃ block ∈ is.flatMap Item.declarations,
      blockDeclaration o b = .ok block := by
    intro b hb
    have hentity : Entity.buffer b ∈ m.entities := by simp [Model.entities, hb]
    obtain ⟨i, hi, hof⟩ := exists_right_of_forall₂ hes (hperm.mem_iff.mpr hentity)
    have hdeclares := hof.declares
    generalize hnew : i.declarations = new at hdeclares
    cases hdeclares with
    | buffer before after _ block _ hblock =>
      refine ⟨block, List.mem_flatMap.mpr ⟨i, hi, ?_⟩, hblock⟩
      rw [hnew]
      exact List.mem_append_right _ (List.mem_singleton_self block)
  refine ⟨_, _, hwritten, ?_⟩
  rw [hemitted]
  refine ⟨hblocks, items_structs his, fun front d back => hgrounded.before,
    fun id members hmem => ?_,
    fun id => ⟨fun hid => ?_, hgrounded.mem_structsOf hstructs.nodup hblocks⟩⟩
  · obtain ⟨i, hi, hdeclared⟩ := List.mem_flatMap.mp hmem
    cases items_madeOf hm his i hi _ hdeclared with
    | struct d hd => exact ⟨d, Model.struct?_of_mem hstructs.nodup hd, rfl⟩
  · obtain ⟨members, hmem⟩ := mem_structsOf_iff.mp hid
    obtain ⟨i, hi, hd⟩ := List.mem_flatMap.mp hmem
    obtain ⟨e, _, hof⟩ := exists_left_of_forall₂ hes hi
    exact hof.declares.needed hstructs id (mem_structsOf_iff.mpr ⟨members, hd⟩)

end Model

end Glsl

end AnnotatedShader
