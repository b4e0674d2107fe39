import AnnotatedShader.Proofs.Model.Entity
import AnnotatedShader.Proofs.Model.Names
import AnnotatedShader.Proofs.Model.Provenance
import Mathlib

set_option autoImplicit false

/-!
# Well formed models

What holds of every model that is built, whatever its module declares or imports.  Slots and layouts
are assigned and text is generated without a look back at the statements, so all that these steps
rely on has to be a property of the model.  `WellFormed` lists it: names and indices, pins, members,
the inputs of a vertex format, the samplers of textures.

Each visit keeps what is stated of drafts (`Formed`).  The indices are those of the statements, and
the visits go through the statements in order; this needs an induction that knows which statement is
next (`InOrder`).  The root buffer comes in at the end and takes the place of its first constant,
where no other buffer is.

A sampler is looked for in the file that declares the texture, which need not be the file of the
model (`SamplerFound`); the example imports a texture under another name.
-/

namespace AnnotatedShader

/-- The symbol that a name of a module stands for: what the module declares under the name, or what
its import under the name refers to. -/
inductive Module.StandsFor (m : Module) (ns : Namespace) : String → Symbol → Prop
  | own (position : Position) (d : Declaration) (hs : ⟨position, .declare d⟩ ∈ m.statements) :
    StandsFor m ns d.name ⟨m.file, position, d⟩
  | imported (position : Position) (u : Use) (sym : Symbol)
    (hs : ⟨position, .use u⟩ ∈ m.statements) (hlookup : ns.lookup u.file u.member = some sym) :
    StandsFor m ns u.name sym

/-- A symbol declares a constant of the sampler type. -/
def Symbol.IsSampler (s : Symbol) : Prop :=
  ∃ p, s.declaration = .constant p ∧ p.type.name = ShaderType.samplerName ∧ p.type.element = none

/-- A symbol declares a texture that refers to a sampler. -/
def Symbol.IsTextureOf (s : Symbol) (sampler : String) : Prop :=
  ∃ p, s.declaration = .constant p ∧ (TextureKind.ofName? p.type.name).isSome = true ∧
    p.attr = some (.sampler sampler)

namespace Model

/-! ## Statement -/

/-- A slot that is pinned is no negative number. -/
def NonnegSlot (order : Option Int) : Prop := ∀ slot, order = some slot → 0 ≤ slot

/-- Members with distinct names.  Only scalars and vectors are packed, and no slot is negative. -/
structure MembersFormed (ms : List Member) : Prop where
  names : (ms.map Member.name).Nodup
  packed : ∀ mem ∈ ms, mem.attr = some .pack → mem.type.isPackable = true
  orders : ∀ mem ∈ ms, ∀ slot, mem.attr = some (.order slot) → 0 ≤ slot

/-- A vertex format whose inputs have distinct names and pin no negative slot. -/
structure FormatFormed (vf : VertexFormat) : Prop where
  names : (vf.inputs.map VertexInput.name).Nodup
  orders : ∀ input ∈ vf.inputs, NonnegSlot input.order

/-- The sampler of a texture is found in the scope of the file that declares the texture, which may
be a file that the module imports from. -/
def SamplerFound (m : Module) (ns : Namespace) (t : Texture) : Prop :=
  ∃ sym s, m.StandsFor ns t.name sym ∧ sym.IsTextureOf t.sampler ∧
    ns.resolveName sym.file t.sampler = some s ∧ s.IsSampler

/-- A model of a module, as the later steps rely on it. -/
structure WellFormed (m : Module) (ns : Namespace) (model : Model) : Prop where
  names : model.names.Nodup
  buffers : ∀ b ∈ model.buffers, MembersFormed b.members ∧ NonnegSlot b.order
  structs : ∀ d ∈ model.structs, MembersFormed d.members
  vertexFormat : ∀ vf, model.vertexFormat = some vf → FormatFormed vf
  outputs : ∀ out ∈ model.outputs, NonnegSlot out.order
  bufferIndices : model.buffers.Pairwise fun a b => a.index < b.index
  textureIndices : model.textures.Pairwise fun a b => a.index < b.index
  outputIndices : model.outputs.Pairwise fun a b => a.index < b.index
  pipelineKeys : ∀ block ∈ model.pipelines, (block.entries.map StateEntry.key).Nodup
  blendFuncKeys : ∀ block ∈ model.blendFuncs, (block.entries.map StateEntry.key).Nodup
  samplers : ∀ t ∈ model.textures, SamplerFound m ns t

/-! ## Checks of single declarations -/

theorem slot_nonneg_of_orderOf {origin : String} {position : Position} {attr : Option Attribute}
    {order : Option Int} (h : orderOf origin position attr = .ok order) {slot : Int}
    (hattr : attr = some (.order slot)) : 0 ≤ slot := by
  subst hattr
  unfold orderOf at h
  split at h
  · split at h
    · simp [Failure.at_] at h
    · rename_i heq hneg
      obtain rfl := Attribute.order.inj (Option.some.inj heq)
      exact Int.not_lt.mp hneg
  · rename_i hother
    exact absurd rfl (hother slot)

theorem nonnegSlot_of_orderOf {origin : String} {position : Position} {attr : Option Attribute}
    {order : Option Int} (h : orderOf origin position attr = .ok order) : NonnegSlot order := by
  rintro slot rfl
  have hattr : attr = some (.order slot) := by
    unfold orderOf at h
    split at h
    · split at h
      · simp [Failure.at_] at h
      · rw [Option.some.inj (Except.ok.inj h)]
    · simp at h
  exact slot_nonneg_of_orderOf h hattr

theorem distinctKeys_spec {i : Introduction} {seen : List String} {entries : List StateEntry}
    (h : distinctKeys i seen entries = .ok ()) :
    (entries.map StateEntry.key).Nodup ∧ ∀ key ∈ entries.map StateEntry.key, key ∉ seen := by
  induction entries generalizing seen with
  | nil => simp
  | cons e rest ih =>
    unfold distinctKeys at h
    split at h
    · simp [Failure.at_] at h
    · rename_i hseen
      obtain ⟨hnodup, hfresh⟩ := ih h
      refine ⟨List.nodup_cons.mpr ⟨?_, hnodup⟩, ?_⟩
      · intro hmem
        exact hfresh e.key hmem List.mem_cons_self
      · intro key hkey hin
        rcases List.mem_cons.mp hkey with rfl | hkey
        · exact hseen (by simpa using hin)
        · exact hfresh key hkey (List.mem_cons_of_mem _ hin)

/-! ## Members -/

/-- Places are no part of what is required of members. -/
theorem MembersFormed.place {raw : List Member} (h : MembersFormed raw) (l : Layout) :
    MembersFormed (placeMembers raw l) := by
  have hnames : (placeMembers raw l).map Member.name <+: raw.map Member.name := by
    rw [placeMembers]
    apply map_zipWith_isPrefix
    exact fun _ _ => rfl
  refine ⟨h.names.sublist hnames.sublist, ?_, ?_⟩
  · intro mem hmem hpack
    obtain ⟨r, hr, _, _, rfl⟩ := exists_of_mem_placeMembers hmem
    exact h.packed r hr hpack
  · intro mem hmem slot hslot
    obtain ⟨r, hr, _, _, rfl⟩ := exists_of_mem_placeMembers hmem
    exact h.orders r hr slot hslot

/-- The members of a body have the names of its fields, and no attribute but `Pack`. -/
theorem Body.membersFormed {ns : Namespace} {origin : String} {defs : List StructDef}
    {fields : List Property} {raw : List Member} {l : Layout}
    (h : Body ns origin defs fields raw l) : MembersFormed raw := by
  have hattr :
      ∀ mem ∈ raw, mem.attr = none ∨ mem.attr = some .pack ∧ mem.type.isPackable = true := by
    intro mem hmem
    obtain ⟨p, _, hp⟩ := exists_left_of_forall₂ h.typed hmem
    rw [show mem.attr = p.attr by rw [hp.eq]]
    exact hp.attr
  refine ⟨?_, ?_, ?_⟩
  · have hnames : raw.map Member.name = fields.map Property.name :=
      map_eq_of_forall₂ h.typed fun p mem hp => by rw [hp.eq]
    rw [hnames]
    exact h.names
  · intro mem hmem hpack
    rcases hattr mem hmem with hnone | ⟨_, hpackable⟩
    · simp [hnone] at hpack
    · exact hpackable
  · intro mem hmem slot hslot
    rcases hattr mem hmem with hnone | ⟨hpack, _⟩
    · simp [hnone] at hslot
    · simp [hpack] at hslot

/-! ## Statements in order -/

/-- Indices that ascend, all of them below the next one. -/
def Ascending (next : Nat) (indices : List Nat) : Prop :=
  (indices ++ [next]).Pairwise (· < ·)

theorem Ascending.pairwise {next : Nat} {indices : List Nat} (h : Ascending next indices) :
    indices.Pairwise (· < ·) := (List.pairwise_append.mp h).1

theorem Ascending.add {next : Nat} {indices : List Nat} (h : Ascending next indices) :
    Ascending (next + 1) (indices ++ [next]) := by
  refine List.pairwise_append.mpr ⟨h, List.pairwise_singleton _ _, ?_⟩
  intro a ha b hb
  rw [List.mem_singleton.mp hb]
  rcases List.mem_append.mp ha with ha | ha
  · exact Nat.lt_succ_of_lt ((List.pairwise_append.mp h).2.2 a ha next (List.mem_singleton_self _))
  · rw [List.mem_singleton.mp ha]
    exact Nat.lt_succ_self next

theorem Ascending.skip {next : Nat} {indices : List Nat} (h : Ascending next indices) :
    Ascending (next + 1) indices :=
  h.add.sublist ((List.sublist_append_left _ _).append_right _)

/-- The entities of a draft stand in the order of their statements. -/
structure InOrder (next : Nat) (d : Draft) : Prop where
  buffers : Ascending next (d.model.buffers.map Buffer.index)
  textures : Ascending next (d.model.textures.map Texture.index)
  outputs : Ascending next (d.model.outputs.map Output.index)
  roots : Ascending next (d.roots.map RootConstant.index)

theorem InOrder.skip {next : Nat} {d : Draft} (h : InOrder next d) : InOrder (next + 1) d :=
  ⟨h.buffers.skip, h.textures.skip, h.outputs.skip, h.roots.skip⟩

theorem InOrder.visit {ns : Namespace} {next : Nat} {d d' : Draft} {i : Introduction}
    (h : InOrder next d) (hindex : i.index = next) (hv : Visited ns d i d') :
    InOrder (next + 1) d' := by
  subst hindex
  cases hv with
  | buffer =>
    refine ⟨?_, h.textures.skip, h.outputs.skip, h.roots.skip⟩
    rw [List.map_append]
    exact h.buffers.add
  | texture =>
    refine ⟨h.buffers.skip, ?_, h.outputs.skip, h.roots.skip⟩
    rw [List.map_append]
    exact h.textures.add
  | output =>
    refine ⟨h.buffers.skip, h.textures.skip, ?_, h.roots.skip⟩
    rw [List.map_append]
    exact h.outputs.add
  | numeric =>
    refine ⟨h.buffers.skip, h.textures.skip, h.outputs.skip, ?_⟩
    rw [List.map_append]
    exact h.roots.add
  | _ => exact ⟨h.buffers.skip, h.textures.skip, h.outputs.skip, h.roots.skip⟩

theorem visitAll_inOrder {ns : Namespace} {file : String} {imports : List ResolvedImport}
    {index : Nat} {d d' : Draft} {statements : List Statement} (hd : InOrder index d)
    (h : visitAll ns file imports index d statements = .ok d') :
    InOrder (index + statements.length) d' := by
  induction statements generalizing index d with
  | nil =>
    obtain rfl := Except.ok.inj h
    exact hd
  | cons s rest ih =>
    rw [show index + (s :: rest).length = index + 1 + rest.length by simp; omega]
    unfold visitAll at h
    rw [bind_eq_ok_iff] at h
    obtain ⟨i?, hi, h⟩ := h
    cases i? with
    | none => exact ih hd.skip h
    | some i =>
      simp only [bind_eq_ok_iff] at h
      obtain ⟨mid, hvisit, h⟩ := h
      have hindex := (introducedBy_of_introduction? hi).index_eq
      exact ih (hd.visit hindex (visit_visited hvisit)) h

/-! ## Drafts -/

/-- What is introduced stands for its symbol. -/
theorem standsFor_of_introduces {m : Module} {ns : Namespace} {imports : List ResolvedImport}
    (himports : List.Forall₂ (Resolves ns) m.uses imports) {i : Introduction}
    (hi : Introduces m.file imports 0 m.statements i) : m.StandsFor ns i.name i.symbol := by
  obtain ⟨_, ⟨position, body⟩, hs, hi⟩ := hi.introducedBy
  cases hi with
  | declare d hbody =>
    obtain rfl : body = .declare d := hbody
    exact .own position d hs
  | use r hbody hmem =>
    obtain rfl : body = .use r.use := hbody
    obtain ⟨entry, _, hresolves⟩ := exists_left_of_forall₂ himports hmem
    refine .imported position r.use r.target hs ?_
    rw [hresolves.use]
    exact hresolves.lookup

theorem FormatOf.formed {i : Introduction} {vf : VertexFormat} (h : FormatOf i vf) :
    FormatFormed vf := by
  refine ⟨h.nodup_names, fun input hinput => ?_⟩
  obtain ⟨_, _, _, p, _, raw, _, hof, rfl⟩ := h.exists_inputOf hinput
  exact nonnegSlot_of_orderOf hof.order

/-- What each visit keeps of a draft.  Samplers are looked up later, so the scope in which this is
done is kept with each texture. -/
structure Formed (m : Module) (ns : Namespace) (d : Draft) : Prop where
  pipelineKeys : ∀ block ∈ d.model.pipelines, (block.entries.map StateEntry.key).Nodup
  blendFuncKeys : ∀ block ∈ d.model.blendFuncs, (block.entries.map StateEntry.key).Nodup
  textures : ∀ t ∈ d.model.textures, ∃ sym, m.StandsFor ns t.name sym ∧
    sym.IsTextureOf t.sampler ∧ ∃ r ∈ d.samplerRefs, r.sampler = t.sampler ∧ r.origin = sym.file

theorem Formed.visit {m : Module} {ns : Namespace} {d d' : Draft} {i : Introduction}
    (h : Formed m ns d) (hi : m.StandsFor ns i.name i.symbol) (hv : Visited ns d i d') :
    Formed m ns d' := by
  cases hv with
  | pipeline name entries hdecl hkeys =>
    refine { h with pipelineKeys := List.forall_mem_append.mpr ⟨h.pipelineKeys, ?_⟩ }
    exact List.forall_mem_singleton.mpr (distinctKeys_spec hkeys).1
  | blendFunc name entries hdecl hkeys =>
    refine { h with blendFuncKeys := List.forall_mem_append.mpr ⟨h.blendFuncKeys, ?_⟩ }
    exact List.forall_mem_singleton.mpr (distinctKeys_spec hkeys).1
  | texture p element sampler t hdecl hkind helement htype hsize hattr =>
    refine { h with textures := List.forall_mem_append.mpr ⟨?_, List.forall_mem_singleton.mpr ?_⟩ }
    · intro old hold
      obtain ⟨sym, hstands, htexture, r, hr, hsampler, horigin⟩ := h.textures old hold
      exact ⟨sym, hstands, htexture, r, List.mem_append_left _ hr, hsampler, horigin⟩
    · refine ⟨i.symbol, hi, ⟨p, hdecl, hkind, hattr⟩, ?_⟩
      exact ⟨_, List.mem_append_right _ (List.mem_singleton_self _), rfl, rfl⟩
  | _ => exact ⟨h.pipelineKeys, h.blendFuncKeys, h.textures⟩

/-- What the check of the samplers has found. -/
theorem sampler_of_checkSamplers {ns : Namespace} {refs : List SamplerRef}
    (h : checkSamplers ns refs = .ok ()) {r : SamplerRef} (hr : r ∈ refs) :
    ∃ s, ns.resolveName r.origin r.sampler = some s ∧ s.IsSampler := by
  induction refs with
  | nil => simp at hr
  | cons first rest ih =>
    unfold checkSamplers at h
    split at h
    · simp [Failure.at_] at h
    · rename_i s hs
      split at h
      · rename_i hsampler
        rcases List.mem_cons.mp hr with rfl | hr
        · refine ⟨s, hs, ?_⟩
          unfold isSamplerSymbol at hsampler
          split at hsampler
          · rename_i p hp
            rw [Bool.and_eq_true, beq_iff_eq, Option.isNone_iff_eq_none] at hsampler
            exact ⟨p, hp, hsampler⟩
          · simp at hsampler
        · exact ih h hr
      · simp [Failure.at_] at h

/-! ## The root buffer -/

section Root

variable {m : Module} {imports : List ResolvedImport} {roots : List RootConstant}
  (hnames : (namesOf m).Nodup) (hascending : (roots.map RootConstant.index).Pairwise (· < ·))
  (hroots : ∀ r ∈ roots, ∃ i, Introduces m.file imports 0 m.statements i ∧ RootOf i r)

include hnames hascending hroots in
/-- Constants at different statements have different names. -/
theorem nodup_names_roots : (roots.map fun r => r.member.name).Nodup := by
  refine List.pairwise_map.mpr ((List.pairwise_map.mp hascending).imp_of_mem ?_)
  intro a b ha hb hlt hname
  obtain ⟨i, hi, hai⟩ := hroots a ha
  obtain ⟨j, hj, hbj⟩ := hroots b hb
  obtain ⟨_, _, _, _, _, _, _, _, _, _, haeq⟩ := hai.source
  obtain ⟨_, _, _, _, _, _, _, _, _, _, hbeq⟩ := hbj.source
  rw [haeq, hbeq] at hname hlt
  have hij : i = j := hi.eq_of_name hnames hj hname
  rw [hij] at hlt
  exact Nat.lt_irrefl _ hlt

include hnames hascending hroots in
/-- The members of the root buffer are constants outside all structs; none is packed. -/
theorem membersFormed_roots : MembersFormed (roots.map RootConstant.member) := by
  have hslot : ∀ mem ∈ roots.map RootConstant.member, PinsAtMost mem.attr ∧
      ∀ slot, mem.attr = some (.order slot) → 0 ≤ slot := by
    intro mem hmem
    obtain ⟨r, hr, rfl⟩ := List.mem_map.mp hmem
    obtain ⟨i, _, hri⟩ := hroots r hr
    obtain ⟨p, t, order, _, _, _, _, _, hattr, horder, rfl⟩ := hri.source
    exact ⟨hattr, fun slot hslot => slot_nonneg_of_orderOf horder hslot⟩
  refine ⟨?_, ?_, fun mem hmem => (hslot mem hmem).2⟩
  · rw [List.map_map]
    exact nodup_names_roots hnames hascending hroots
  · intro mem hmem hpack
    rcases (hslot mem hmem).1 with hnone | ⟨slot, hslot⟩
    · simp [hnone] at hpack
    · simp [hslot] at hpack

end Root

/-- The slot of the root buffer is one that a constant pins. -/
theorem nonnegSlot_head?_rootOrders {roots : List RootConstant}
    (h : ∀ r ∈ roots, NonnegSlot r.order) : NonnegSlot (rootOrders roots).head? := by
  intro slot hslot
  have hmem := List.mem_of_mem_head? (Option.mem_def.mpr hslot)
  rw [rootOrders, List.mem_mergeSort, List.mem_eraseDups, List.mem_filterMap] at hmem
  obtain ⟨r, hr, horder⟩ := hmem
  exact h r hr slot horder

/-! ## Models -/

/-- Buffers at different statements are sorted by their statements. -/
theorem pairwise_sortBuffers {bs : List Buffer} (h : (bs.map Buffer.index).Nodup) :
    (sortBuffers bs).Pairwise fun a b => a.index < b.index := by
  have hle : (sortBuffers bs).Pairwise fun a b => decide (a.index ≤ b.index) = true :=
    List.pairwise_mergeSort (by simp; omega) (by simp; omega) bs
  have hne : ((sortBuffers bs).map Buffer.index).Nodup :=
    ((List.mergeSort_perm _ _).map Buffer.index).nodup_iff.mpr h
  refine (hle.and (List.pairwise_map.mp hne)).imp ?_
  rintro a b ⟨hab, hne⟩
  exact Nat.lt_of_le_of_ne (of_decide_eq_true hab) hne

/-- Members and slots of a model whose structs and buffers are known, and the order of its
buffers. -/
theorem Rooted.buffersFormed {m : Module} {ns : Namespace} {imports : List ResolvedImport}
    {d : Draft} {model : Model} {Known : DeclaredStruct → Prop} {next : Nat}
    (hnames : (namesOf m).Nodup)
    (hd : Drafted ns Known (Introduces m.file imports 0 m.statements) d) (horder : InOrder next d)
    (h : Rooted m.file (namesOf m) d model) :
    ∀ b ∈ model.buffers, MembersFormed b.members ∧ NonnegSlot b.order := by
  have hown : ∀ b ∈ d.model.buffers, MembersFormed b.members ∧ NonnegSlot b.order := by
    intro b hb
    obtain ⟨i, _, hib⟩ := hd.buffers b hb
    obtain ⟨name, attr, fields, order, raw, _, _, hslot, hbody, heq⟩ := hib.source
    rw [heq]
    exact ⟨hbody.membersFormed.place _, nonnegSlot_of_orderOf hslot⟩
  cases h with
  | plain => exact hown
  | root root _ hroot =>
    intro b hb
    rw [sortBuffers, List.mem_mergeSort, List.mem_append, List.mem_singleton] at hb
    rcases hb with hb | rfl
    · exact hown b hb
    · obtain ⟨first, rest, _, heq⟩ := hroot.eq
      rw [heq]
      refine ⟨(membersFormed_roots hnames horder.roots.pairwise hd.roots).place _,
        nonnegSlot_head?_rootOrders fun r hr => ?_⟩
      obtain ⟨i, _, hri⟩ := hd.roots r hr
      obtain ⟨p, t, order, _, _, _, _, _, _, hslot, rfl⟩ := hri.source
      exact nonnegSlot_of_orderOf hslot

theorem build_bufferIndices {m : Module} {stage : Stage} {ns : Namespace}
    {imports : List ResolvedImport} {model : Model} (h : build m stage ns imports = .ok model) :
    model.buffers.Pairwise fun a b => a.index < b.index := by
  have hsites := (build_sites h).2
  have hsub : (model.buffers.map Buffer.index).Sublist (model.sites.map Site.index) := by
    rw [sites_eq, List.map_append, List.map_append, List.map_append, List.map_map, List.map_map]
    exact (List.sublist_append_right _ _).trans
      ((List.sublist_append_left _ _).trans (List.sublist_append_left _ _))
  have hnodup : (model.buffers.map Buffer.index).Nodup := hsites.sublist hsub
  obtain ⟨_, d, hvisit, hroot, _⟩ := build_eq_ok h
  have hempty : InOrder 0 ⟨.empty m.file stage, [], []⟩ := by
    constructor <;> exact List.pairwise_singleton _ _
  cases hroot with
  | plain => exact List.pairwise_map.mp (visitAll_inOrder hempty hvisit).buffers.pairwise
  | root root _ hb =>
    have hperm := (List.mergeSort_perm (d.model.buffers ++ [root])
      (fun a b => decide (a.index ≤ b.index))).map Buffer.index
    exact pairwise_sortBuffers (hperm.nodup_iff.mp hnodup)

/-- A module whose imports are resolved, in whatever namespace, has a well formed model or none. -/
theorem build_wellFormed {m : Module} {stage : Stage} {ns : Namespace}
    {imports : List ResolvedImport} {model : Model} (himports : m.resolveImports ns = .ok imports)
    (h : build m stage ns imports = .ok model) : WellFormed m ns model := by
  have hstands := fun i => standsFor_of_introduces (i := i) (Module.resolveImports_eq_ok himports).2
  have hcovers : CoversNames ns fun _ => True := fun _ _ _ _ => trivial
  have hstructs : CoversStructs (fun _ => True) (Introduces m.file imports 0 m.statements) :=
    fun _ _ _ _ _ _ => trivial
  obtain ⟨hnames, d, hvisit, hroot, hsamplers⟩ := build_eq_ok h
  have hdrafted : Drafted ns (fun _ => True) (Introduces m.file imports 0 m.statements) d :=
    visitAll_induction ⟨.nil, by simp [empty], by simp⟩
      (fun d i d' hd hi hv => hd.visit hcovers hstructs hi hv) hvisit
  have hformed : Formed m ns d :=
    visitAll_induction ⟨by simp [empty], by simp [empty], by simp [empty]⟩
      (fun d i d' hd hi hv => hd.visit (hstands i hi) hv) hvisit
  have horder : InOrder (0 + m.statements.length) d :=
    visitAll_inOrder (by constructor <;> exact List.pairwise_singleton _ _) hvisit
  have hbuffers := hroot.buffersFormed hnames hdrafted horder
  have hindices := build_bufferIndices h
  have hfound : ∀ t ∈ d.model.textures, SamplerFound m ns t := by
    intro t ht
    obtain ⟨sym, hsym, htexture, r, hr, hsampler, horigin⟩ := hformed.textures t ht
    obtain ⟨s, hs, hissampler⟩ := sampler_of_checkSamplers hsamplers hr
    rw [hsampler, horigin] at hs
    exact ⟨sym, s, hsym, htexture, hs, hissampler⟩
  have hmembers : ∀ def_ ∈ d.model.structs, MembersFormed def_.members := by
    intro def_ hdef
    obtain ⟨decl, raw, _, _, hbody, hplaced⟩ := hdrafted.structs.body hdef
    rw [hplaced]
    exact hbody.membersFormed.place _
  have hall := build_names h
  have hformat : ∀ vf, model.vertexFormat = some vf → FormatFormed vf := by
    intro vf hvf
    obtain ⟨i, _, hof⟩ := (build_traced h).format vf hvf
    exact hof.formed
  have houtputs : ∀ out ∈ model.outputs, NonnegSlot out.order := by
    intro out hout
    obtain ⟨i, _, hof⟩ := (build_traced h).outputs out hout
    obtain ⟨p, _, _, _, _, _, _, horder, _⟩ := hof.source
    exact nonnegSlot_of_orderOf horder
  cases hroot <;>
  exact
    { names := hall
      buffers := hbuffers
      structs := hmembers
      vertexFormat := hformat
      outputs := houtputs
      bufferIndices := hindices
      textureIndices := List.pairwise_map.mp horder.textures.pairwise
      outputIndices := List.pairwise_map.mp horder.outputs.pairwise
      pipelineKeys := hformed.pipelineKeys
      blendFuncKeys := hformed.blendFuncKeys
      samplers := hfound }

/-! ## A texture that is imported under another name -/

/-- A texture whose sampler no other file knows. -/
def wall : Declaration := .constant
  ⟨⟨"Texture2D", some "vec4f", none⟩, "Wall", some (.sampler "Linear"), 0, .start⟩

/-- Declares the texture and its sampler. -/
def wallModule : Module :=
  ⟨"walls",
    [⟨.start, .declare (.constant ⟨⟨"Sampler", none, none⟩, "Linear", none, 0, .start⟩)⟩,
     ⟨.start, .declare wall⟩]⟩

/-- Imports the texture, and has a constant outside all structs in front of a buffer. -/
def hallModule : Module :=
  ⟨"hall",
    [⟨.start, .declare (.constant ⟨⟨"float", none, none⟩, "Gain", some (.order 1), 0, .start⟩)⟩,
     ⟨.start, .declare (.buffer "Lamp" (some (.order 3))
        [⟨⟨"vec3f", none, none⟩, "colour", none, 0, .start⟩,
         ⟨⟨"float", none, none⟩, "power", some .pack, 1, .start⟩])⟩,
     ⟨.start, .use ⟨"walls", "Wall", some "Paint"⟩⟩,
     ⟨.start, .declare (.pipeline "Opaque" [⟨"depth", .bool true⟩, ⟨"cull", .name "back"⟩])⟩]⟩

theorem build_wellFormed_hallModule :
    ∃ imports model, hallModule.resolveImports (Namespace.ofModules [hallModule, wallModule]) =
        .ok imports ∧
      build hallModule .pixel (Namespace.ofModules [hallModule, wallModule]) imports = .ok model ∧
      model.buffers.map Buffer.name = ["Root", "Lamp"] ∧
      model.textures.map Texture.name = ["Paint"] ∧
      WellFormed hallModule (Namespace.ofModules [hallModule, wallModule]) model := by
  have himports : hallModule.resolveImports (Namespace.ofModules [hallModule, wallModule]) =
      .ok [⟨⟨"walls", "Wall", some "Paint"⟩, .start, ⟨"walls", .start, wall⟩⟩] := by cbv
  have hbuilt : ((build hallModule .pixel (Namespace.ofModules [hallModule, wallModule])
      [⟨⟨"walls", "Wall", some "Paint"⟩, .start, ⟨"walls", .start, wall⟩⟩]).toOption.any
        fun model => model.buffers.map Buffer.name == ["Root", "Lamp"] &&
          model.textures.map Texture.name == ["Paint"]) = true := by cbv
  obtain ⟨model, hmodel, hparts⟩ := exists_eq_ok_of_any hbuilt
  rw [Bool.and_eq_true, beq_iff_eq, beq_iff_eq] at hparts
  exact ⟨_, model, himports, hmodel, hparts.1, hparts.2, build_wellFormed himports hmodel⟩

end Model

end AnnotatedShader
