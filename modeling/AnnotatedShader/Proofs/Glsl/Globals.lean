import AnnotatedShader.Proofs.Glsl.Interface
import AnnotatedShader.Proofs.Model.Names

set_option autoImplicit false

/-!
# Global names of generated declarations

A declaration introduces global names: that of a struct type or of a uniform block, the handles of
resources, or that of a vertex input.  A struct type is told apart by its file, but its name is not.

What a text introduces is counted in two ways.  As entities (`Global`), nothing is introduced twice:
a struct type is noted when it is declared (`Emission.Grows`, `items_structs`), and the resources of
a class have distinct names in the model (`nodup_globalsOf`).  As names, there is no clash among
those of one kind, struct types apart, and none between struct types and blocks, whose derived names
end differently (`type_ne_block`).  Between the other kinds nothing prevents one, because a derived
name is compared with no other.  `Apart` lists what is then left to ask, and `nodup_names_iff`
proves that it is enough and that less is not.
-/

namespace AnnotatedShader.Glsl

/-- What is introduced globally. -/
inductive Global where
  | structType (id : StructId)
  | block (buffer : String)
  | handle (name : String)
  | input (name : String)
  deriving DecidableEq, Repr, Inhabited

namespace Global

/-- The name as the text has it. -/
def name : Global → String
  | structType id => id.name ++ "Type"
  | block buffer => buffer ++ "Block"
  | handle name => name
  | input name => name

/-- The struct type that is introduced. -/
def struct? : Global → Option StructId
  | structType id => some id
  | _ => none

/-- The buffer whose block is introduced. -/
def block? : Global → Option String
  | block buffer => some buffer
  | _ => none

/-- The handle that is introduced. -/
def handle? : Global → Option String
  | handle name => some name
  | _ => none

/-- The vertex input that is introduced. -/
def input? : Global → Option String
  | input name => some name
  | _ => none

/-- What is introduced is introduced once, if each kind of it is. -/
theorem nodup_of_kinds {gs : List Global} (hstructs : (gs.filterMap struct?).Nodup)
    (hblocks : (gs.filterMap block?).Nodup) (hhandles : (gs.filterMap handle?).Nodup)
    (hinputs : (gs.filterMap input?).Nodup) : gs.Nodup := by
  have hfresh : ∀ {α : Type} {f : Global → Option α} {g : Global} {a : α} {rest : List Global},
      ((g :: rest).filterMap f).Nodup → f g = some a → g ∉ rest := by
    intro α f g a rest h hg hmem
    rw [List.filterMap_cons_some hg] at h
    exact (List.nodup_cons.mp h).1 (List.mem_filterMap.mpr ⟨g, hmem, hg⟩)
  induction gs with
  | nil => exact .nil
  | cons g rest ih =>
    have hrest : ∀ {α : Type} {f : Global → Option α}, ((g :: rest).filterMap f).Nodup →
        (rest.filterMap f).Nodup := fun h => h.sublist ((List.sublist_cons_self g rest).filterMap _)
    refine List.nodup_cons.mpr
      ⟨?_, ih (hrest hstructs) (hrest hblocks) (hrest hhandles) (hrest hinputs)⟩
    cases g with
    | structType id => exact hfresh hstructs rfl
    | block buffer => exact hfresh hblocks rfl
    | handle name => exact hfresh hhandles rfl
    | input name => exact hfresh hinputs rfl

/-- What keeps the names of different things apart, and what no check sees to: struct types of one
name are of one file, no handle or vertex input is named like a struct type or a uniform block, and
no vertex input like a handle. -/
structure Apart (gs : List Global) : Prop where
  structs : ∀ a b, .structType a ∈ gs → .structType b ∈ gs → a.name = b.name → a.origin = b.origin
  types : ∀ id name, .structType id ∈ gs → .handle name ∈ gs ∨ .input name ∈ gs →
    name ≠ id.name ++ "Type"
  blocks : ∀ buffer name, .block buffer ∈ gs → .handle name ∈ gs ∨ .input name ∈ gs →
    name ≠ buffer ++ "Block"
  inputs : ∀ name, .input name ∈ gs → .handle name ∉ gs

/-- Struct types and uniform blocks end differently. -/
theorem type_ne_block (a b : String) : a ++ "Type" ≠ b ++ "Block" := by
  intro h
  have hlast := congrArg (fun s : String => s.toList.getLast?) h
  simp [String.toList_append] at hlast

/-- What is kept apart is told apart by its names. -/
theorem Apart.eq_of_name {gs : List Global} (h : Apart gs) {g g' : Global} (hg : g ∈ gs)
    (hg' : g' ∈ gs) (heq : g.name = g'.name) : g = g' := by
  cases g with
  | structType a =>
    cases g' with
    | structType b =>
      have hname : a.name = b.name := by simpa [name] using heq
      obtain ⟨aname, aorigin⟩ := a
      obtain ⟨bname, borigin⟩ := b
      obtain rfl : aname = bname := hname
      obtain rfl : aorigin = borigin := h.structs _ _ hg hg' rfl
      rfl
    | block b => exact absurd heq (type_ne_block _ _)
    | handle n => exact absurd heq.symm (h.types a n hg (.inl hg'))
    | input n => exact absurd heq.symm (h.types a n hg (.inr hg'))
  | block a =>
    cases g' with
    | structType b => exact absurd heq.symm (type_ne_block _ _)
    | block b => exact congrArg block (by simpa [name] using heq)
    | handle n => exact absurd heq.symm (h.blocks a n hg (.inl hg'))
    | input n => exact absurd heq.symm (h.blocks a n hg (.inr hg'))
  | handle n =>
    cases g' with
    | structType b => exact absurd heq (h.types b n hg' (.inl hg))
    | block b => exact absurd heq (h.blocks b n hg' (.inl hg))
    | handle n' => exact congrArg handle heq
    | input n' =>
      obtain rfl : n = n' := heq
      exact absurd hg (h.inputs n hg')
  | input n =>
    cases g' with
    | structType b => exact absurd heq (h.types b n hg' (.inr hg))
    | block b => exact absurd heq (h.blocks b n hg' (.inr hg))
    | handle n' =>
      obtain rfl : n = n' := heq
      exact absurd hg' (h.inputs n hg)
    | input n' => exact congrArg input heq

/-- What is told apart by its names is kept apart. -/
theorem apart_of_inj {gs : List Global}
    (hinj : ∀ g ∈ gs, ∀ g' ∈ gs, g.name = g'.name → g = g') : Apart gs := by
  refine ⟨fun a b ha hb hname => ?_, fun id n hid hn heq => ?_, fun b n hb hn heq => ?_,
    fun n hinput hhandle => nomatch hinj _ hinput _ hhandle rfl⟩
  · exact congrArg StructId.origin (structType.inj (hinj _ ha _ hb (congrArg (· ++ "Type") hname)))
  · rcases hn with hn | hn
    · exact nomatch hinj _ hn _ hid heq
    · exact nomatch hinj _ hn _ hid heq
  · rcases hn with hn | hn
    · exact nomatch hinj _ hn _ hb heq
    · exact nomatch hinj _ hn _ hb heq

/-- Names are distinct exactly when the things of different kinds, and the struct types of different
files, are kept apart. -/
theorem nodup_names_iff {gs : List Global} (h : gs.Nodup) : (gs.map name).Nodup ↔ Apart gs := by
  rw [List.nodup_map_iff_inj_on h]
  exact ⟨apart_of_inj, fun hapart _ hg _ hg' => hapart.eq_of_name hg hg'⟩

end Global

/-- What a declaration introduces globally.  The members of a block without an instance are global,
those of a struct or of a block with one are not. -/
def Declaration.globals : Declaration → List Global
  | .input _ _ name => [.input name]
  | .struct id _ => [.structType id]
  | .block _ name members none => .block name :: members.map fun m => .handle m.name
  | .block _ name _ (some instanceName) => [.block name, .handle instanceName]
  | .texture _ _ name => [.handle name]
  | .output _ _ name => [.handle name]
  | .undefined _ => []

/-- What declarations introduce globally. -/
def globalsOf (ds : List Declaration) : List Global := ds.flatMap Declaration.globals

/-! ## Structs -/

/-- The structs that are declared. -/
def structsOf (ds : List Declaration) : List StructId := (globalsOf ds).filterMap Global.struct?

@[simp] theorem structsOf_nil : structsOf [] = [] := rfl

theorem structsOf_append (ds ds' : List Declaration) :
    structsOf (ds ++ ds') = structsOf ds ++ structsOf ds' := by
  rw [structsOf, globalsOf, List.flatMap_append, List.filterMap_append]
  rfl

theorem structsOf_eq_nil {ds : List Declaration} (h : ∀ d ∈ ds, d.isInterface = true) :
    structsOf ds = [] := by
  refine List.filterMap_eq_nil_iff.mpr fun g hg => ?_
  obtain ⟨d, hd, hg⟩ := List.mem_flatMap.mp hg
  have hinterface := h d hd
  cases d with
  | struct | undefined => contradiction
  | block binding name members instanceName =>
    cases instanceName with
    | some instanceName =>
      rcases List.mem_cons.mp hg with rfl | hg
      · rfl
      · obtain rfl := List.mem_singleton.mp hg
        rfl
    | none =>
      rcases List.mem_cons.mp hg with rfl | hg
      · rfl
      · obtain ⟨member, _, rfl⟩ := List.mem_map.mp hg
        rfl
  | input | texture | output =>
    obtain rfl := List.mem_singleton.mp hg
    rfl

/-- More is emitted: the structs among the new declarations were not noted before, and are now. -/
structure Emission.Grows (e e' : Emission) : Prop where
  noted : ∀ id ∈ e.emitted, id ∈ e'.emitted
  added : ∃ new, e'.declarations = e.declarations ++ new ∧ (structsOf new).Nodup ∧
    ∀ id ∈ structsOf new, id ∉ e.emitted ∧ id ∈ e'.emitted

namespace Emission.Grows

theorem refl (e : Emission) : e.Grows e := ⟨fun _ => id, [], by simp, .nil, by simp⟩

theorem trans {e mid e' : Emission} (h : e.Grows mid) (h' : mid.Grows e') : e.Grows e' := by
  obtain ⟨new, hnew, hdistinct, hfresh⟩ := h.added
  obtain ⟨more, hmore, hdistinct', hfresh'⟩ := h'.added
  refine ⟨fun id hid => h'.noted id (h.noted id hid), new ++ more, ?_, ?_, ?_⟩
  · rw [hmore, hnew, List.append_assoc]
  · rw [structsOf_append, List.nodup_append]
    refine ⟨hdistinct, hdistinct', fun a ha b hb heq => ?_⟩
    exact (hfresh' b hb).1 (heq ▸ (hfresh a ha).2)
  · rw [structsOf_append]
    refine List.forall_mem_append.mpr ⟨fun id hid => ?_, fun id hid => ?_⟩
    · exact ⟨(hfresh id hid).1, h'.noted id (hfresh id hid).2⟩
    · exact ⟨fun hmem => (hfresh' id hid).1 (h.noted id hmem), (hfresh' id hid).2⟩

theorem foldl {step : Emission → StructId → Emission}
    (hstep : ∀ (e : Emission) id, e.Grows (step e id))
    (ids : List StructId) (e : Emission) : e.Grows (ids.foldl step e) := by
  induction ids generalizing e with
  | nil => exact refl e
  | cons id rest ih => exact (hstep e id).trans (ih _)

end Emission.Grows

/-- A struct is noted before those it depends on are declared, so none of them declares it again. -/
theorem emitStruct_grows (m : Model) (fuel : Nat) (e : Emission) (id : StructId) :
    e.Grows (emitStruct m fuel e id) := by
  induction fuel generalizing e id with
  | zero => exact .refl e
  | succ fuel ih =>
    unfold emitStruct
    split
    · exact .refl e
    · rename_i hfresh
      have hid : id ∉ e.emitted := fun hmem => hfresh (List.contains_iff_mem.mpr hmem)
      split
      · exact ⟨fun _ => List.mem_cons_of_mem id, [.undefined id], rfl, .nil, fun _ hi => nomatch hi⟩
      · rename_i d _
        obtain ⟨hnoted, new, hnew, hdistinct, hadded⟩ :=
          Emission.Grows.foldl ih d.dependencies ⟨e.declarations, id :: e.emitted⟩
        have hself := hnoted id List.mem_cons_self
        have hsplit : structsOf (new ++ [.struct id (structMembers d.members)]) =
            structsOf new ++ [id] := by
          rw [structsOf_append]
          rfl
        refine ⟨fun i hi => hnoted i (List.mem_cons_of_mem _ hi),
          new ++ [.struct id (structMembers d.members)], ?_, ?_, ?_⟩
        · simp only [hnew, List.append_assoc]
        · rw [hsplit, List.nodup_append]
          refine ⟨hdistinct, List.nodup_singleton id, fun a ha b hb heq => ?_⟩
          obtain rfl := List.mem_singleton.mp hb
          exact (hadded a ha).1 (heq ▸ List.mem_cons_self)
        · rw [hsplit]
          refine List.forall_mem_append.mpr
            ⟨fun i hi => ?_, List.forall_mem_singleton.mpr ⟨hid, hself⟩⟩
          exact ⟨fun hmem => (hadded i hi).1 (List.mem_cons_of_mem _ hmem), (hadded i hi).2⟩

/-- Each struct is declared in front of one buffer at most, and once there. -/
theorem bufferItems_structs {a : Source.Annotated} {m : Model} {o : Options}
    {emitted : List StructId} {bs : List Buffer} {is : List Item}
    (h : bufferItems a m o emitted bs = .ok is) :
    (structsOf (is.flatMap Item.declarations)).Nodup ∧
      ∀ id ∈ structsOf (is.flatMap Item.declarations), id ∉ emitted := by
  induction bs generalizing emitted is with
  | nil =>
    obtain rfl := Except.ok.inj h
    exact ⟨.nil, by simp⟩
  | cons b rest ih =>
    simp only [bufferItems, bind_eq_ok_iff] at h
    obtain ⟨block, hblock, others, hothers, h⟩ := h
    obtain rfl := Except.ok.inj h
    obtain ⟨hrest, hfresh⟩ := ih hothers
    obtain ⟨hnoted, new, hnew, hdistinct, hadded⟩ := Emission.Grows.foldl
      (emitStruct_grows m (m.structs.length + 1))
      (b.members.filterMap fun member => member.type.structId?) ⟨[], emitted⟩
    have hblockStructs : structsOf [block] = [] := by
      obtain ⟨_, _, rfl⟩ := blockDeclaration_eq_ok hblock
      exact structsOf_eq_nil (List.forall_mem_singleton.mpr rfl)
    rw [List.flatMap_cons, structsOf_append, structsOf_append, hblockStructs, List.append_nil,
      emitStructs, hnew, List.nil_append]
    refine ⟨List.nodup_append.mpr ⟨hdistinct, hrest, fun i hi j hj heq => ?_⟩,
      List.forall_mem_append.mpr ⟨fun i hi => (hadded i hi).1, fun i hi hmem => ?_⟩⟩
    · exact hfresh j hj (heq ▸ (hadded i hi).2)
    · exact hfresh i hi (hnoted i hmem)

/-! ## All declarations of a model -/

section Model

variable {a : Source.Annotated} {m : Model} {o : Options}

/-- No struct is declared twice among the items of a model. -/
theorem items_structs {is : List Item} (h : items a m o = .ok is) :
    (structsOf (is.flatMap Item.declarations)).Nodup := by
  rw [items, bind_eq_ok_iff] at h
  obtain ⟨buffers, hbuffers, h⟩ := h
  obtain rfl := Except.ok.inj h
  have hinterface : ∀ {ds : List Declaration}, ds.filter Declaration.isInterface = ds →
      structsOf ds = [] := fun h => structsOf_eq_nil (List.filter_eq_self.mp h)
  have hperm := (((List.mergeSort_perm (m.vertexFormat.toList.map (formatItem a) ++ buffers ++
    m.textures.map (textureItem a o) ++ m.outputs.map (outputItem a))
    fun x y => decide (x.index ≤ y.index)).flatMap_right Item.declarations).flatMap_right
      Declaration.globals).filterMap Global.struct?
  refine hperm.nodup_iff.mpr ?_
  show (structsOf _).Nodup
  simp only [List.flatMap_append, structsOf_append, declarations_formatItem,
    declarations_textureItem, declarations_outputItem, hinterface (filter_inputDeclarations m),
    hinterface (filter_textureDeclarations o m), hinterface (filter_outputDeclarations m),
    List.nil_append, List.append_nil]
  exact (bufferItems_structs hbuffers).1

/-- What a buffer introduces globally: its block and its handles. -/
def bufferGlobals (b : Buffer) : List Global := .block b.name :: b.handles.map .handle

/-- What the resources of a model introduce globally. -/
def resourceGlobals (m : Model) : List Global :=
  (inputNames m).map .input ++ m.buffers.flatMap bufferGlobals ++
    m.textures.map (fun t => .handle t.name) ++ m.outputs.map fun out => .handle out.name

theorem block?_resourceGlobals (m : Model) :
    (resourceGlobals m).filterMap Global.block? = m.buffers.map Buffer.name := by
  simp [resourceGlobals, bufferGlobals, Global.block?, List.filterMap_flatMap, List.filterMap_map,
    Function.comp_def, ← List.map_eq_flatMap]

theorem handle?_resourceGlobals (m : Model) :
    (resourceGlobals m).filterMap Global.handle? = m.handles := by
  simp [resourceGlobals, bufferGlobals, Model.handles, Global.handle?, List.filterMap_flatMap,
    List.filterMap_cons, List.filterMap_map, Function.comp_def]

theorem input?_resourceGlobals (m : Model) :
    (resourceGlobals m).filterMap Global.input? = inputNames m := by
  simp [resourceGlobals, bufferGlobals, Global.input?, List.filterMap_flatMap, List.filterMap_cons,
    List.filterMap_map, Function.comp_def]

theorem globals_blockDeclaration {b : Buffer} {d : Declaration} (h : blockDeclaration o b = .ok d) :
    d.globals = bufferGlobals b := by
  obtain ⟨members, hmembers, rfl⟩ := blockDeclaration_eq_ok h
  unfold instanceName? bufferGlobals Buffer.handles
  split
  · have hnames : members.map MemberDeclaration.name = b.members.map Member.name := by
      refine map_eq_of_forall₂ (forall₂_of_mapM hmembers) fun member d hd => ?_
      unfold blockMember at hd
      split at hd
      · rw [← Except.ok.inj hd]
      · contradiction
    rw [Declaration.globals, ← hnames, List.map_map]
    rfl
  · rfl

section Emitted

variable {ds blocks : List Declaration}
  (hemitted : (ds.filter Declaration.isInterface).Perm
    (inputDeclarations m ++ blocks ++ textureDeclarations o m ++ outputDeclarations m))
  (hblocks : m.buffers.mapM (blockDeclaration o) = .ok blocks)

include hemitted hblocks

/-- What is introduced besides struct types is what the resources of the model introduce. -/
theorem filterMap_globalsOf {f : Global → Option String} (hf : ∀ id, f (.structType id) = none) :
    ((globalsOf ds).filterMap f).Perm ((resourceGlobals m).filterMap f) := by
  have hinterface : (globalsOf ds).filterMap f =
      (globalsOf (ds.filter Declaration.isInterface)).filterMap f := by
    clear hemitted
    induction ds with
    | nil => rfl
    | cons d rest ih =>
      rw [globalsOf, List.flatMap_cons, List.filterMap_append, ← globalsOf, ih]
      cases d with
      | struct id members =>
        rw [Declaration.globals, List.filterMap_cons_none (hf id)]
        rfl
      | undefined id => rfl
      | input | block | texture | output =>
        rw [List.filter_cons_of_pos rfl, globalsOf, globalsOf, List.flatMap_cons,
          List.filterMap_append]
  have hbuffers : globalsOf blocks = m.buffers.flatMap bufferGlobals := by
    rw [globalsOf, List.flatMap_def, List.flatMap_def,
      map_eq_of_forall₂ (forall₂_of_mapM hblocks) fun _ _ => globals_blockDeclaration]
  have hall : globalsOf (inputDeclarations m ++ blocks ++ textureDeclarations o m ++
      outputDeclarations m) = resourceGlobals m := by
    simp only [globalsOf, List.flatMap_append] at hbuffers ⊢
    simp only [hbuffers, resourceGlobals, inputDeclarations, inputNames, textureDeclarations,
      outputDeclarations, List.map_eq_flatMap, List.flatMap_assoc, List.flatMap_cons,
      List.flatMap_nil, List.append_nil, Declaration.globals]
  rw [hinterface, ← hall]
  exact (hemitted.flatMap_right Declaration.globals).filterMap f

/-- Everything is introduced once, if no struct is declared twice and the resources are told
apart. -/
theorem nodup_globalsOf (hstructs : (structsOf ds).Nodup) (haddressed : m.Addressed)
    (hhandles : m.handles.Nodup) : (globalsOf ds).Nodup := by
  refine Global.nodup_of_kinds hstructs ?_ ?_ ?_
  · rw [(filterMap_globalsOf hemitted hblocks fun _ => rfl).nodup_iff, block?_resourceGlobals]
    exact haddressed.buffers.names
  · rw [(filterMap_globalsOf hemitted hblocks fun _ => rfl).nodup_iff, handle?_resourceGlobals]
    exact hhandles
  · rw [(filterMap_globalsOf hemitted hblocks fun _ => rfl).nodup_iff, input?_resourceGlobals]
    exact nodup_inputNames haddressed

end Emitted

/-- Everything that the declarations in a text introduce globally is introduced once. -/
theorem generate_globals {text : String} (h : generate a m o = .ok text)
    (hroles : a.roles = Source.roles a.lines) (hbare : Source.openings a = 0 → Bare m)
    (haddressed : m.Addressed) (hhandles : m.handles.Nodup) :
    ∃ r ds, Written o a r ds text ∧ (globalsOf (emitted a ds)).Nodup := by
  obtain ⟨is, his, hwritten⟩ := generate_written h
  obtain ⟨blocks, hblocks, hperm, _⟩ := items_filter his
  have hitems := emitted_perm his hroles hbare
  refine ⟨_, _, hwritten, nodup_globalsOf ((hitems.filter _).trans hperm) hblocks ?_ haddressed
    hhandles⟩
  exact ((hitems.flatMap_right _).filterMap _).nodup_iff.mpr (items_structs his)

end Model

end AnnotatedShader.Glsl
