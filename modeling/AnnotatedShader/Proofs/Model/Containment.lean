import AnnotatedShader.Proofs.Model.Agreement
import AnnotatedShader.Proofs.Model.Alike
import AnnotatedShader.Proofs.Model.Emittable
import Mathlib

set_option autoImplicit false

/-!
# Structs inside structs

Structs are defined by a recursion that follows the names of member types, also where they lead back
to a struct under definition.  It ends, because with each struct under definition fewer declared
ones remain, and its fuel covers them.  What it leaves behind is free of cycles: every struct stands
behind those that its members need, so a struct that contains itself is in no model, and nothing
that leads to one is accepted.

The recursion is described without fuel.  `Calls` relates a call to those that it makes, and this
relation is well-founded (`wellFounded_calls`).  `round` is one round of the definition with any
definer for the calls inside; the recursion is the one solution of the equation that it gives
(`recursion_eq_round`, `eq_recursion_of_round`).  `Ends` puts both together for the namespaces of a
batch.

`InOrderOfNeed` says what the structs of a model are in the end: complete, in the order of their
dependencies, and so without one that contains itself.
-/

namespace AnnotatedShader

/-- A struct has a member of another struct, or an array of it. -/
def DeclaredStruct.Holds (ns : Namespace) (d d' : DeclaredStruct) : Prop :=
  ∃ p ∈ d.fields, ShaderType.ofName? p.type.name = none ∧
    (ns.resolveName d.id.origin p.type.name).bind Symbol.struct? = some d'

namespace Model

/-! ## The recursion -/

/-- The definition of a struct inside others asks for that of a struct that it holds. -/
structure Calls (ns : Namespace) (callee caller : List StructId × DeclaredStruct) : Prop where
  fresh : caller.2.id ∉ caller.1
  underDefinition : callee.1 = caller.2.id :: caller.1
  holds : caller.2.Holds ns callee.2

/-- A bound on the length of a chain of calls.  Each call takes a declared struct from those that
remain; only the first struct may be undeclared, so it counts once more. -/
def callsLeft (ns : Namespace) (call : List StructId × DeclaredStruct) : Nat :=
  2 * remaining ns.structIds call.1 + if call.2.id ∈ ns.structIds then 0 else 1

/-- One round of the recursion: defines a struct while others are under definition, when it is told
how structs are defined inside. -/
def round (ns : Namespace) (inside : List StructId → Definer) (underDefinition : List StructId) :
    Definer := fun defs d =>
  if defs.any (·.id == d.id) then .ok defs
  else if underDefinition.contains d.id then .error (containsItself d)
  else do
    let (ms, l, defs) ← structBody ns (inside (d.id :: underDefinition)) d.id.origin d.id.name defs
      d.fields
    .ok (defs ++ [⟨d.id, ms, l, dependenciesOf ms⟩])

theorem define_succ (ns : Namespace) (fuel : Nat) (underDefinition : List StructId) :
    define ns (fuel + 1) underDefinition = round ns (define ns fuel) underDefinition := rfl

theorem round_of_mem (ns : Namespace) (inside : List StructId → Definer)
    {underDefinition : List StructId} {d : DeclaredStruct} (hd : d.id ∈ underDefinition)
    (defs : List StructDef) : round ns inside underDefinition defs d =
      if defs.any (·.id == d.id) then .ok defs else .error (containsItself d) := by
  rw [round, if_pos (List.contains_iff_mem.mpr hd)]

/-- The recursion with as much fuel as structs remain. -/
def recursion (ns : Namespace) (underDefinition : List StructId) : Definer :=
  define ns (remaining ns.structIds underDefinition + 1) underDefinition

/-- How the recursion that defines structs ends: its calls cannot go on without end, and its
equation has one solution, which is what structs are defined by. -/
structure Ends (ns : Namespace) : Prop where
  calls : WellFounded (Calls ns)
  solution : recursion ns = round ns (recursion ns)
  unique : ∀ other, other = round ns other → other = recursion ns
  defineStruct : recursion ns [] = defineStruct ns

section Recursion

variable (ms : List Module)

/-- A struct that a namespace declares. -/
def Declared (d : DeclaredStruct) : Prop :=
  Enclosed (fun _ => True) (Namespace.ofModules ms).structIds d

theorem enclosing_ofModules : Enclosing (fun _ => True) (Namespace.ofModules ms).structIds
    (Namespace.ofModules ms) (Namespace.ofModules ms) := by
  have halike : Alike (fun _ => True) (Namespace.ofModules ms) (Namespace.ofModules ms) :=
    ⟨fun _ _ _ => rfl, fun _ _ => rfl, fun _ _ _ _ => trivial,
      fun _ _ _ _ h => (Namespace.lookup_ofModules_eq_some h).1⟩
  exact ⟨halike, fun _ _ _ _ hd => ⟨trivial, (mem_structIds_of_resolveName halike trivial hd).2.1⟩⟩

variable {ms}

/-- A round depends on how declared structs are defined inside. -/
theorem round_congr {inside inside' : List StructId → Definer} {underDefinition : List StructId}
    {d : DeclaredStruct} (h : ∀ defs e, Declared ms e →
      inside (d.id :: underDefinition) defs e = inside' (d.id :: underDefinition) defs e)
    (defs : List StructDef) : round (.ofModules ms) inside underDefinition defs d =
      round (.ofModules ms) inside' underDefinition defs d := by
  rw [round, round, structBody_alike (enclosing_ofModules ms) h trivial]

theorem recursion_eq_round :
    recursion (.ofModules ms) = round (.ofModules ms) (recursion (.ofModules ms)) := by
  funext underDefinition defs d
  rw [recursion, define_succ]
  refine round_congr (fun defs e he => ?_) defs
  have hle := remaining_cons_le d.id (Namespace.ofModules ms).structIds underDefinition
  exact define_alike (enclosing_ofModules ms) hle (Nat.le_succ _) defs he

/-- Fuel that covers the declared structs which remain gives what any solution of the equation
gives. -/
theorem define_eq_of_round {other : List StructId → Definer}
    (h : other = round (.ofModules ms) other) {fuel : Nat} {underDefinition : List StructId}
    (hfuel : remaining (Namespace.ofModules ms).structIds underDefinition ≤ fuel)
    (defs : List StructDef) {d : DeclaredStruct} (hd : Declared ms d) :
    define (.ofModules ms) fuel underDefinition defs d = other underDefinition defs d := by
  induction fuel generalizing underDefinition defs d with
  | zero =>
    have hmem := mem_of_remaining_eq_zero (Nat.le_zero.mp hfuel) hd.mem
    rw [define_of_mem _ 0 hmem, h, round_of_mem _ _ hmem]
  | succ fuel ih =>
    rw [h]
    by_cases hmem : d.id ∈ underDefinition
    · rw [define_of_mem _ _ hmem, round_of_mem _ _ hmem]
    · have hless := remaining_cons_lt hd.mem hmem
      rw [define_succ]
      exact round_congr (fun defs e he => ih (by omega) defs he) defs

theorem eq_recursion_of_round {other : List StructId → Definer}
    (h : other = round (.ofModules ms) other) : other = recursion (.ofModules ms) := by
  funext underDefinition defs d
  have hle := remaining_cons_le d.id (Namespace.ofModules ms).structIds underDefinition
  rw [h, recursion, define_succ]
  exact (round_congr (fun defs e he => define_eq_of_round h hle defs he) defs).symm

theorem recursion_nil (ns : Namespace) : recursion ns [] = defineStruct ns := by
  rw [recursion, remaining_nil, ns.length_structIds, defineStruct]

/-- A struct that is held is declared. -/
theorem declared_of_holds {d d' : DeclaredStruct} (h : d.Holds (.ofModules ms) d') :
    Declared ms d' := by
  obtain ⟨p, _, _, hresolve⟩ := h
  exact (enclosing_ofModules ms).named d.id.origin trivial p.type.name d' hresolve

/-- The calls of the recursion have no infinite chain. -/
theorem wellFounded_calls : WellFounded (Calls (.ofModules ms)) := by
  refine Subrelation.wf (r := InvImage (· < ·) (callsLeft (.ofModules ms))) ?_
    (InvImage.wf _ Nat.lt_wfRel.wf)
  rintro ⟨inner, callee⟩ ⟨outer, caller⟩ ⟨hfresh, rfl, hholds⟩
  have hcallee : callee.id ∈ (Namespace.ofModules ms).structIds := (declared_of_holds hholds).mem
  show callsLeft _ _ < callsLeft _ _
  dsimp only [callsLeft]
  rw [if_pos hcallee]
  split
  · rename_i hcaller
    have hless : remaining _ (caller.id :: outer) < remaining _ outer :=
      remaining_cons_lt hcaller hfresh
    omega
  · have hle := remaining_cons_le caller.id (Namespace.ofModules ms).structIds outer
    omega

theorem ends_ofModules : Ends (.ofModules ms) where
  calls := wellFounded_calls
  solution := recursion_eq_round
  unique _ h := eq_recursion_of_round h
  defineStruct := recursion_nil _

end Recursion

/-! ## Structs of a model -/

/-- A struct of a model has a member of another struct, or an array of it. -/
def Contains (m : Model) (a b : StructId) : Prop :=
  ∃ d ∈ m.structs, d.id = a ∧ ∃ mem ∈ d.members, mem.type.structId? = some b

/-- The structs of a model are complete, and each stands behind those that its members need. -/
structure InOrderOfNeed (m : Model) : Prop where
  nodup : (m.structs.map StructDef.id).Nodup
  buffers : ∀ b ∈ m.buffers, ∀ mem ∈ b.members, ∀ id, mem.type.structId? = some id →
    id ∈ m.structs.map StructDef.id
  members : ∀ d ∈ m.structs, ∀ mem ∈ d.members, ∀ id, mem.type.structId? = some id →
    id ∈ m.structs.map StructDef.id
  dependencies : ∀ d ∈ m.structs, ∀ id,
    id ∈ d.dependencies ↔ ∃ mem ∈ d.members, mem.type.structId? = some id
  before : ∀ front d back, m.structs = front ++ d :: back → ∀ id ∈ d.dependencies,
    id ∈ front.map StructDef.id
  acyclic : ∀ id, ¬ Relation.TransGen m.Contains id id

section Derived

variable {ns : Namespace} {Known : DeclaredStruct → Prop} {defs : List StructDef}

theorem Defined.known {d : StructDef} (h : Defined ns Known defs d) :
    ∀ mem ∈ d.members, ∀ id, mem.type.structId? = some id → id ∈ defs.map StructDef.id := by
  obtain ⟨decl, raw, _, _, hbody, hmembers⟩ := h.body
  rw [hmembers]
  exact forall_placeMembers (P := fun t => ∀ id, t.structId? = some id → id ∈ defs.map StructDef.id)
    hbody.known

theorem mem_dependenciesOf_iff {ms : List Member} {id : StructId} :
    id ∈ dependenciesOf ms ↔ ∃ mem ∈ ms, mem.type.structId? = some id := by
  rw [dependenciesOf, List.mem_eraseDups, List.mem_filterMap]

/-- What a struct depends on stands in front of it. -/
theorem Derived.before (h : Derived ns Known defs) {front back : List StructDef} {d : StructDef}
    (hsplit : defs = front ++ d :: back) : ∀ id ∈ d.dependencies, id ∈ front.map StructDef.id := by
  induction h generalizing back with
  | nil => simp at hsplit
  | @snoc defs last _ hlast ih =>
    rcases List.eq_nil_or_concat back with rfl | ⟨back, last', rfl⟩
    · obtain ⟨rfl, hd⟩ := List.append_inj' hsplit rfl
      obtain rfl := List.singleton_inj.mp hd
      intro id hid
      rw [hlast.dependencies, mem_dependenciesOf_iff] at hid
      obtain ⟨mem, hmem, hstruct⟩ := hid
      exact hlast.known mem hmem id hstruct
    · rw [List.concat_eq_append, ← List.cons_append, ← List.append_assoc] at hsplit
      exact ih (List.append_inj' hsplit rfl).1

/-- The structs that a struct contains stand in front of it. -/
theorem Derived.idxOf_lt {m : Model} (h : Derived ns Known m.structs) {a b : StructId}
    (hab : m.Contains a b) :
    (m.structs.map StructDef.id).idxOf b < (m.structs.map StructDef.id).idxOf a := by
  obtain ⟨d, hd, rfl, mem, hmem, hstruct⟩ := hab
  obtain ⟨front, back, hsplit⟩ := List.append_of_mem hd
  have hb : b ∈ front.map StructDef.id := by
    refine h.before hsplit b ?_
    rw [h.dependencies d hd, mem_dependenciesOf_iff]
    exact ⟨mem, hmem, hstruct⟩
  have hfresh : d.id ∉ front.map StructDef.id := by
    have hnodup := h.nodup
    rw [hsplit, List.map_append, List.map_cons, List.nodup_append] at hnodup
    exact fun hmem => hnodup.2.2 d.id hmem d.id List.mem_cons_self rfl
  rw [hsplit, List.map_append, List.map_cons, List.idxOf_append_of_mem hb,
    List.idxOf_append_of_notMem hfresh, List.idxOf_cons_self, Nat.add_zero]
  exact List.idxOf_lt_length_iff.mpr hb

/-- No struct of a model contains itself. -/
theorem Derived.acyclic {m : Model} (h : Derived ns Known m.structs) (id : StructId) :
    ¬ Relation.TransGen m.Contains id id := by
  intro hcycle
  have hlt := hcycle.lift (p := (· > ·)) (m.structs.map StructDef.id).idxOf
    fun a b hab => h.idxOf_lt hab
  rw [Relation.transGen_eq_self] at hlt
  exact lt_irrefl _ hlt

end Derived

/-! ## Declarations -/

section Declarations

variable {ms : List Module} {defs : List StructDef}

theorem exported_of_holds {d d' : DeclaredStruct} (h : d.Holds (.ofModules ms) d') :
    Exported (.ofModules ms) d' := by
  obtain ⟨p, _, _, hresolve⟩ := h
  exact coversNames_exported ms _ _ d' hresolve

/-- What an accessible element leads to is accessible. -/
theorem acc_of_reached {α : Type} {r : α → α → Prop} {a b : α} (h : Acc (flip r) a)
    (hreached : Relation.ReflTransGen r a b) : Acc (flip r) b := by
  induction hreached with
  | refl => exact h
  | tail _ hstep ih => exact ih.inv hstep

/-- An accessible element does not lead back to itself. -/
theorem not_transGen_of_acc {α : Type} {r : α → α → Prop} {a : α} (h : Acc (flip r) a) :
    ¬ Relation.TransGen r a a := by
  have hacc : Acc (Relation.TransGen (flip r)) a := acc_transGen_iff.mpr h
  induction hacc with
  | intro a _ ih => exact fun hcycle => ih a (Relation.transGen_swap.mpr hcycle) h hcycle

/-- From a struct with a body over definitions, names of types lead to an end. -/
theorem Body.acc (decl : DeclaredStruct) {raw : List Member} {l : Layout}
    (hb : Body (.ofModules ms) decl.id.origin defs decl.fields raw l)
    (hdefs : ∀ d, Exported (.ofModules ms) d → d.id ∈ defs.map StructDef.id →
      Acc (flip (DeclaredStruct.Holds (.ofModules ms))) d) :
    Acc (flip (DeclaredStruct.Holds (.ofModules ms))) decl := by
  refine .intro _ fun d hholds => ?_
  obtain ⟨p, hp, hname, hresolve⟩ := hholds
  refine hdefs d (coversNames_exported ms _ _ d hresolve) ?_
  obtain ⟨mem, hmem, hof⟩ := exists_right_of_forall₂ hb.typed hp
  refine hb.known mem hmem d.id ?_
  have hbase : namedType? (.ofModules ms) decl.id.origin p.type.name = some (.struct d.id) := by
    simp [namedType?, hname, hresolve]
  obtain ⟨base, hbase', hcases⟩ := writtenType?_cases hof.type
  obtain rfl := Option.some.inj (hbase.symm.trans hbase')
  rcases hcases with heq | ⟨n, _, heq⟩ <;> rw [heq] <;> rfl

/-- From a struct that is defined, names of types lead to an end. -/
theorem Derived.acc (h : Derived (.ofModules ms) (Exported (.ofModules ms)) defs) :
    ∀ d, Exported (.ofModules ms) d → d.id ∈ defs.map StructDef.id →
      Acc (flip (DeclaredStruct.Holds (.ofModules ms))) d := by
  induction h with
  | nil => simp
  | @snoc defs last _ hlast ih =>
    intro d hd hmem
    rw [List.map_append, List.mem_append, List.map_singleton, List.mem_singleton] at hmem
    rcases hmem with hmem | hid
    · exact ih d hd hmem
    · obtain ⟨decl, raw, hdecl, hdeclId, hbody, _⟩ := hlast.body
      obtain rfl := hd.eq_of_id hdecl (hid.trans hdeclId.symm)
      rw [← hdeclId] at hbody
      exact hbody.acc d ih

/-- From every struct that an accepted file introduces, names of types lead to an end. -/
theorem acc_of_introduces {m : Module} {stage : Stage} {imports : List ResolvedImport}
    {model : Model}
    (hm : m ∈ ms) (honly : ∀ m' ∈ ms, m'.file = m.file → m' = m)
    (himports : m.resolveImports (.ofModules ms) = .ok imports)
    (h : build m stage (.ofModules ms) imports = .ok model) {i : Introduction}
    (hi : Introduces m.file imports 0 m.statements i) {name : String} {attr : Option Attribute}
    {fields : List Property} (hdecl : i.declaration = .buffer name attr fields) :
    Acc (flip (DeclaredStruct.Holds (.ofModules ms))) ⟨⟨name, i.origin⟩, i.declared, fields⟩ := by
  have hcovers := coversNames_exported ms
  have hstructs := coversStructs_exported hm honly (build_eq_ok h).1
    (Module.resolveImports_eq_ok himports).2
  obtain ⟨_, d, hvisit, _⟩ := build_eq_ok h
  obtain ⟨before, after, hdrafted, hvisited, _⟩ :=
    visitAll_visited
      (P := Drafted _ (Exported (.ofModules ms)) (Introduces m.file imports 0 m.statements))
      ⟨.nil, by simp [Model.empty], by simp⟩
      (fun d i d' hd hi hv => hd.visit hcovers hstructs hi hv) hvisit hi
  cases hvisited with
  | structType name' fields' structs hdecl' hdefine =>
    obtain ⟨rfl, rfl, rfl⟩ := Declaration.buffer.inj (hdecl.symm.trans hdecl')
    have hexported := hstructs i hi _ _ _ hdecl
    obtain ⟨hgrown, hmem⟩ := defineStruct_spec hcovers _ _ _ hdrafted.structs hexported hdefine
    exact hgrown.derived.acc _ hexported hmem
  | buffer name' attr' fields' order members layout structs hdecl' _ _ hstruct =>
    obtain ⟨rfl, rfl, rfl⟩ := Declaration.buffer.inj (hdecl.symm.trans hdecl')
    obtain ⟨hgrown, raw, hbody, rfl⟩ :=
      structBody_spec hcovers (defineStruct_spec hcovers) hdrafted.structs hstruct
    exact hbody.acc ⟨⟨name, i.origin⟩, i.declared, fields⟩ hgrown.derived.acc
  | _ => simp_all

end Declarations

/-! ## All of it -/

/-- The definition of structs ends, whatever they contain, and it leaves a model that has all
structs, each behind those that it needs.  When a file is accepted that is the only one of its name,
no struct that its buffers or its packed structs lead to contains itself. -/
theorem build_contains (ms : List Module) : Ends (.ofModules ms) ∧
    ∀ (m : Module) (stage : Stage) (imports : List ResolvedImport) (model : Model),
      build m stage (.ofModules ms) imports = .ok model → InOrderOfNeed model ∧
      (m ∈ ms → (∀ m' ∈ ms, m'.file = m.file → m' = m) →
        m.resolveImports (.ofModules ms) = .ok imports →
        ∀ i name attr fields, Introduces m.file imports 0 m.statements i →
          i.declaration = .buffer name attr fields → ∀ d d',
            Relation.ReflTransGen (DeclaredStruct.Holds (.ofModules ms))
              ⟨⟨name, i.origin⟩, i.declared, fields⟩ d →
            Relation.TransGen (DeclaredStruct.Holds (.ofModules ms)) d d' → d'.id ≠ d.id) := by
  refine ⟨ends_ofModules, fun m stage imports model hbuild => ⟨?_, ?_⟩⟩
  · have hderived := (accepted_of_build hbuild).structs
    have hemittable := build_emittable hbuild
    refine ⟨hderived.nodup, fun b hb mem hmem => (hemittable.buffers b hb mem hmem).defined,
      fun d hd mem hmem => ((hemittable.structs d hd).1 mem hmem).defined, fun d hd id => ?_,
      fun _ _ _ => hderived.before, hderived.acyclic⟩
    rw [hderived.dependencies d hd, mem_dependenciesOf_iff]
  · intro hm honly himports i name attr fields hi hdecl d d' hreached hcycle hid
    have hstart := coversStructs_exported hm honly (build_eq_ok hbuild).1
      (Module.resolveImports_eq_ok himports).2 i hi name attr fields hdecl
    have hd : Exported (.ofModules ms) d := by
      cases hreached with
      | refl => exact hstart
      | tail _ hlast => exact exported_of_holds hlast
    have hd' : Exported (.ofModules ms) d' := by
      cases hcycle with
      | single hlast => exact exported_of_holds hlast
      | tail _ hlast => exact exported_of_holds hlast
    obtain rfl := hd'.eq_of_id hd hid
    have hacc := acc_of_introduces hm honly himports hbuild hi hdecl
    exact not_transGen_of_acc (acc_of_reached hacc hreached) hcycle

/-- A struct with an array of itself. -/
def ring : Module :=
  ⟨"ring", [⟨.start, .declare (.buffer "Ring" none
    [⟨⟨"Ring", none, some 2⟩, "inner", none, 0, .start⟩])⟩]⟩

/-- The lamp is accepted, with the colour that it holds, and the ring is not. -/
theorem build_contains_lamps :
    (∃ model, build lampModule .pixel (.ofModules lampBatch) [] = .ok model ∧
      InOrderOfNeed model ∧ model.structs.map StructDef.id = [⟨"Colour", "lamps"⟩] ∧
      ∀ d d', Relation.ReflTransGen (DeclaredStruct.Holds (.ofModules lampBatch))
          ⟨⟨"Lamp", "lamps"⟩, .start,
            [bareField "Colour" "colour" 0, bareField "float" "power" 1]⟩ d →
        Relation.TransGen (DeclaredStruct.Holds (.ofModules lampBatch)) d d' → d'.id ≠ d.id) ∧
    build ring .pixel (.ofModules [ring]) [] = .error (containsItself
      ⟨⟨"Ring", "ring"⟩, .start, [⟨⟨"Ring", none, some 2⟩, "inner", none, 0, .start⟩]⟩) := by
  refine ⟨?_, by cbv⟩
  have himports : lampModule.resolveImports (.ofModules lampBatch) = .ok [] := by cbv
  obtain ⟨model, hmodel, hids⟩ := exists_eq_ok_of_any
    (show ((build lampModule .pixel (.ofModules lampBatch) []).toOption.any fun model =>
      model.structs.map StructDef.id == [⟨"Colour", "lamps"⟩]) = true by cbv)
  obtain ⟨-, hbuilt⟩ := build_contains lampBatch
  obtain ⟨hordered, hfree⟩ := hbuilt lampModule .pixel [] model hmodel
  exact ⟨model, hmodel, hordered, eq_of_beq hids,
    hfree (by decide) (by decide) himports ⟨"Lamp", "lamps", .start, 1, .start, lamp⟩ _ _ _
      ⟨1, _, rfl, rfl⟩ rfl⟩

end Model

end AnnotatedShader
