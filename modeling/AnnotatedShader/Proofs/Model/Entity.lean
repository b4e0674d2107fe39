import AnnotatedShader.Proofs.Model.Introduction
import AnnotatedShader.Proofs.Slot.Unslotted
import Mathlib.Data.List.Perm.Basic

set_option autoImplicit false

/-!
# Entities of a model

The entities of a model are what its text declares: the vertex format, the buffers, the textures and
the outputs.  Each of them belongs to one statement of the file.  That is the statement that
declares or imports it, or for the root buffer the first one that introduces a constant outside all
structs.

`Site` is what is left of an entity without its contents: its class and name, with the index and
position of its statement.  `Sited` says which sites the statements of a file give, read off the
statements alone.  `build_sites` proves that the sites of a built model are exactly these, and that
no two of them have one index; slots do not change them, be they those of the file or of its
program.

The proof counts: each visit adds the site of its introduction, if it has one, and keeps the others
(`Visited.sites`).
-/

namespace AnnotatedShader

/-- What is declared in the text of a model. -/
inductive Entity where
  | format (vf : VertexFormat)
  | buffer (b : Buffer)
  | texture (t : Texture)
  | output (out : Output)
  deriving DecidableEq, Repr, Inhabited

/-- The class and name of an entity, with the index and position of the statement that it belongs
to. -/
structure Site where
  cls : ResourceClass
  name : String
  index : Nat
  position : Position
  deriving DecidableEq, Repr, Inhabited

/-- The site of an entity. -/
def Entity.site : Entity → Site
  | .format vf => ⟨.vertexAttribute, vf.name, vf.index, vf.position⟩
  | .buffer b => ⟨.constantBuffer, b.name, b.index, b.position⟩
  | .texture t => ⟨.texture, t.name, t.index, t.position⟩
  | .output out => ⟨.output, out.name, out.index, out.position⟩

/-- The buffer that an entity is. -/
def Entity.buffer? : Entity → Option Buffer
  | .buffer b => some b
  | _ => none

/-- The class of the entity that a declaration makes, if it makes one: a packed struct, a sampler
and a state block make none. -/
def Declaration.class? : Declaration → Option ResourceClass
  | .buffer _ attr _ => if attr = some .pack then none else some .constantBuffer
  | .constant p => if (TextureKind.ofName? p.type.name).isSome then some .texture else none
  | .output _ => some .output
  | .vertexFormat _ _ _ => some .vertexAttribute
  | .pipeline _ _ | .blendFunc _ _ => none

/-- Whether a declaration is a constant that belongs to the root buffer: neither a texture nor a
sampler. -/
def Declaration.isLoose : Declaration → Bool
  | .constant p => (TextureKind.ofName? p.type.name).isNone &&
      ShaderType.ofName? p.type.name != some .sampler
  | _ => false

namespace Model

/-- The entities of a model, class by class. -/
def entities (m : Model) : List Entity :=
  m.vertexFormat.toList.map .format ++ m.buffers.map .buffer ++ m.textures.map .texture ++
    m.outputs.map .output

theorem filterMap_buffer?_entities (m : Model) :
    m.entities.filterMap Entity.buffer? = m.buffers := by
  simp [entities, Entity.buffer?, List.filterMap_append, List.filterMap_map, Function.comp_def]

/-- The sites of the entities of a model. -/
def sites (m : Model) : List Site := m.entities.map Entity.site

theorem sites_eq (m : Model) : m.sites =
    m.vertexFormat.toList.map (fun vf => Entity.site (.format vf)) ++
      m.buffers.map (fun b => Entity.site (.buffer b)) ++
      m.textures.map (fun t => Entity.site (.texture t)) ++
      m.outputs.map fun out => Entity.site (.output out) := by
  simp only [sites, entities, List.map_append, List.map_map]
  rfl

/-- The sites that the statements of a file give to entities. -/
inductive Sited (file : String) (imports : List ResolvedImport) (statements : List Statement) :
    Site → Prop
  | introduced (i : Introduction) (cls : ResourceClass)
    (hi : Introduces file imports 0 statements i) (hcls : i.declaration.class? = some cls) :
    Sited file imports statements ⟨cls, i.name, i.index, i.position⟩
  | root (i : Introduction) (hi : Introduces file imports 0 statements i)
    (hloose : i.declaration.isLoose = true)
    (hfirst : ∀ j, Introduces file imports 0 statements j → j.declaration.isLoose = true →
      i.index ≤ j.index) :
    Sited file imports statements ⟨.constantBuffer, rootName, i.index, i.position⟩

/-! ## Sites of drafts -/

/-- The site of the entity that is introduced, if there is one. -/
def Introduction.site? (i : Introduction) : Option Site :=
  i.declaration.class?.map fun cls => ⟨cls, i.name, i.index, i.position⟩

/-- The site of the root buffer, if what is introduced is its first constant. -/
def Introduction.rootSite (i : Introduction) : Site :=
  ⟨.constantBuffer, rootName, i.index, i.position⟩

/-- The site of the root buffer, if a constant is its first. -/
def RootConstant.site (r : RootConstant) : Site :=
  ⟨.constantBuffer, rootName, r.index, r.position⟩

/-- What is introduced that belongs to the root buffer. -/
def looseOf (is : List Introduction) : List Introduction := is.filter (·.declaration.isLoose)

variable {ns : Namespace} {d d' : Draft} {i : Introduction}

theorem count_sites (m : Model) (site : Site) : m.sites.count site =
    (m.vertexFormat.toList.map fun vf => Entity.site (.format vf)).count site +
      (m.buffers.map fun b => Entity.site (.buffer b)).count site +
      (m.textures.map fun t => Entity.site (.texture t)).count site +
      (m.outputs.map fun out => Entity.site (.output out)).count site := by
  rw [sites_eq, List.count_append, List.count_append, List.count_append]

/-- A visit adds the entity of its declaration, if it has one. -/
theorem Visited.sites (h : Visited ns d i d') :
    d'.model.sites.Perm (d.model.sites ++ i.site?.toList) := by
  refine List.perm_iff_count.mpr fun site => ?_
  rw [List.count_append, count_sites, count_sites, Introduction.site?]
  cases h with
  | structType name fields structs hdecl => simp [hdecl, Declaration.class?]
  | sampler p hdecl hkind | numeric p t order hdecl hkind =>
    simp [hdecl, Declaration.class?, hkind]
  | pipeline name entries hdecl | blendFunc name entries hdecl =>
    simp [hdecl, Declaration.class?]
  | buffer name attr fields order members layout structs hdecl hattr =>
    have hpack : attr ≠ some .pack := by rcases hattr with rfl | ⟨slot, rfl⟩ <;> simp
    simp only [hdecl, Declaration.class?, if_neg hpack, List.map_append, List.map_cons,
      List.map_nil, List.count_append, Entity.site, Option.map_some, Option.toList_some]
    omega
  | texture p element sampler t hdecl hkind =>
    simp only [hdecl, Declaration.class?, if_pos hkind, List.map_append, List.map_cons,
      List.map_nil, List.count_append, Entity.site, Option.map_some, Option.toList_some]
    omega
  | output p t order hdecl =>
    simp only [hdecl, Declaration.class?, List.map_append, List.map_cons, List.map_nil,
      List.count_append, Entity.site, Option.map_some, Option.toList_some]
    omega
  | vertexFormat name fields inputs l hdecl hfirst =>
    simp only [hdecl, hfirst, Declaration.class?, List.map_cons, List.map_nil, List.count_nil,
      Entity.site, Option.map_some, Option.toList_some, Option.toList_none]
    omega

/-- A visit adds the constant for the root buffer, if its declaration is one. -/
theorem Visited.roots (h : Visited ns d i d') :
    d'.roots.map RootConstant.site =
      d.roots.map RootConstant.site ++ (looseOf [i]).map Introduction.rootSite := by
  rw [looseOf, List.filter_singleton]
  cases h with
  | numeric p t order hdecl hkind helement htype hnumeric =>
    have hloose : i.declaration.isLoose = true := by
      simp [hdecl, Declaration.isLoose, hkind, htype, hnumeric]
    rw [hloose, List.map_append]
    rfl
  | texture p element sampler t hdecl hkind =>
    have hloose : i.declaration.isLoose = false := by
      rw [hdecl, Declaration.isLoose, Option.isNone_eq_false_iff.mpr hkind]
      rfl
    rw [hloose]
    exact (List.append_nil _).symm
  | sampler p hdecl hkind helement htype =>
    simp [hdecl, Declaration.isLoose, htype]
  | structType _ _ _ hdecl | buffer _ _ _ _ _ _ _ hdecl | output _ _ _ hdecl =>
    simp [hdecl, Declaration.isLoose]
  | vertexFormat _ _ _ _ hdecl | pipeline _ _ hdecl | blendFunc _ _ hdecl =>
    simp [hdecl, Declaration.isLoose]

variable {file : String} {imports : List ResolvedImport} {index : Nat}
  {statements : List Statement}

theorem IntroducedBy.index_eq {s : Statement} (h : IntroducedBy file imports index s i) :
    i.index = index := by
  cases h <;> rfl

theorem Introduces.le_index (h : Introduces file imports index statements i) :
    index ≤ i.index := by
  obtain ⟨k, s, _, hi⟩ := h
  rw [(introducedBy_of_introduction? hi).index_eq]
  exact Nat.le_add_right index k

/-- The visits of statements add what the statements introduce, in order. -/
theorem visitAll_sites (h : visitAll ns file imports index d statements = .ok d') :
    ∃ is : List Introduction, (∀ i, i ∈ is ↔ Introduces file imports index statements i) ∧
      is.Pairwise (fun i j => i.index < j.index) ∧
      d'.model.sites.Perm (d.model.sites ++ is.filterMap Introduction.site?) ∧
      d'.roots.map RootConstant.site =
        d.roots.map RootConstant.site ++ (looseOf is).map Introduction.rootSite := by
  induction statements generalizing index d with
  | nil =>
    obtain rfl := Except.ok.inj h
    refine ⟨[], fun i => ?_, .nil, by simp, by simp [looseOf]⟩
    simp [Introduces]
  | cons s rest ih =>
    unfold visitAll at h
    rw [bind_eq_ok_iff] at h
    obtain ⟨i?, hi, h⟩ := h
    cases i? with
    | none =>
      obtain ⟨is, hmem, hsorted, hsites, hroots⟩ := ih h
      refine ⟨is, fun i => ?_, hsorted, hsites, hroots⟩
      rw [hmem, introduces_cons_iff, hi]
      simp
    | some i =>
      simp only [bind_eq_ok_iff] at h
      obtain ⟨mid, hvisit, h⟩ := h
      have hvisited := visit_visited hvisit
      obtain ⟨is, hmem, hsorted, hsites, hroots⟩ := ih h
      have hindex : i.index = index := (introducedBy_of_introduction? hi).index_eq
      refine ⟨i :: is, fun j => ?_, List.pairwise_cons.mpr ⟨fun j hj => ?_, hsorted⟩, ?_, ?_⟩
      · rw [List.mem_cons, hmem, introduces_cons_iff, hi]
        simp [eq_comm]
      · rw [hindex]
        exact ((hmem j).mp hj).le_index
      · have hsplit : (i :: is).filterMap Introduction.site? =
            i.site?.toList ++ is.filterMap Introduction.site? := by
          rw [List.filterMap_cons]
          cases i.site? <;> rfl
        rw [hsplit, ← List.append_assoc]
        exact hsites.trans (hvisited.sites.append_right _)
      · have hsplit : looseOf (i :: is) = looseOf [i] ++ looseOf is :=
          List.filter_append [i] is
        rw [hroots, hvisited.roots, hsplit, List.map_append, List.append_assoc]

/-! ## Sites of models -/

/-- The root buffer has the site of the first constant that belongs to it. -/
theorem Rooted.sites {names : List String} {model : Model} {is : List Introduction}
    (h : Rooted file names d model)
    (hroots : d.roots.map RootConstant.site = (looseOf is).map Introduction.rootSite) :
    model.sites.Perm (d.model.sites ++ (looseOf is).head?.toList.map Introduction.rootSite) := by
  cases h with
  | plain hnone =>
    rw [hnone] at hroots
    rw [List.map_eq_nil_iff.mp hroots.symm]
    simp
  | root b hname hb =>
    obtain ⟨first, rest, hfirst, hb⟩ := hb.eq
    rw [hfirst] at hroots
    obtain ⟨i, others, hloose⟩ : ∃ i others, looseOf is = i :: others := by
      cases hloose : looseOf is with
      | nil => simp [hloose] at hroots
      | cons i others => exact ⟨i, others, rfl⟩
    rw [hloose, List.map_cons, List.map_cons] at hroots
    have hsite : Entity.site (.buffer b) = i.rootSite := by
      rw [← (List.cons.inj hroots).1, hb]
      rfl
    rw [hloose]
    refine List.perm_iff_count.mpr fun site => ?_
    have hsort := ((List.mergeSort_perm (d.model.buffers ++ [b])
      (fun a b => decide (a.index ≤ b.index))).map fun b => Entity.site (.buffer b)).count_eq site
    rw [List.count_append, count_sites, count_sites, sortBuffers, hsort]
    simp only [List.map_append, List.count_append, List.map_cons, List.map_nil, hsite,
      List.head?_cons, Option.toList_some]
    omega

theorem class?_of_isLoose {decl : Declaration} (h : decl.isLoose = true) : decl.class? = none := by
  cases decl with
  | constant p =>
    rw [Declaration.isLoose, Bool.and_eq_true, Option.isNone_iff_eq_none] at h
    rw [Declaration.class?, h.1]
    rfl
  | _ => simp [Declaration.isLoose] at h

theorem site?_eq_some_iff {site : Site} : i.site? = some site ↔
    ∃ cls, i.declaration.class? = some cls ∧ ⟨cls, i.name, i.index, i.position⟩ = site :=
  Option.map_eq_some_iff

/-- The first of the constants that belong to the root buffer. -/
theorem head?_looseOf_iff {is : List Introduction} (h : is.Pairwise fun i j => i.index < j.index) :
    (looseOf is).head? = some i ↔ i ∈ is ∧ i.declaration.isLoose = true ∧
      ∀ j ∈ is, j.declaration.isLoose = true → i.index ≤ j.index := by
  have hmem : ∀ j, j ∈ looseOf is ↔ j ∈ is ∧ j.declaration.isLoose = true := fun _ =>
    List.mem_filter
  have hsorted : (looseOf is).Pairwise fun i j => i.index < j.index := h.sublist List.filter_sublist
  cases hloose : looseOf is with
  | nil =>
    rw [hloose] at hmem
    refine iff_of_false (by simp) fun hi => ?_
    exact List.not_mem_nil ((hmem i).mpr ⟨hi.1, hi.2.1⟩)
  | cons first rest =>
    rw [hloose] at hmem hsorted
    rw [List.head?_cons, Option.some.injEq]
    constructor
    · rintro rfl
      obtain ⟨hfirst, hisLoose⟩ := (hmem first).mp List.mem_cons_self
      refine ⟨hfirst, hisLoose, fun j hj hjLoose => ?_⟩
      rcases List.mem_cons.mp ((hmem j).mpr ⟨hj, hjLoose⟩) with rfl | hlater
      · exact Nat.le_refl _
      · exact Nat.le_of_lt (List.rel_of_pairwise_cons hsorted hlater)
    · rintro ⟨hi, hisLoose, hleast⟩
      obtain ⟨hfirst, hfirstLoose⟩ := (hmem first).mp List.mem_cons_self
      rcases List.mem_cons.mp ((hmem i).mpr ⟨hi, hisLoose⟩) with rfl | hlater
      · rfl
      · have hlt := List.rel_of_pairwise_cons hsorted hlater
        exact absurd (hleast first hfirst hfirstLoose) (Nat.not_le_of_lt hlt)

/-- The entities of a model that is built are those that its statements introduce, each at a
statement of its own. -/
theorem build_sites {m : Module} {stage : Stage} {model : Model}
    (h : build m stage ns imports = .ok model) :
    (∀ site, site ∈ model.sites ↔ Sited m.file imports m.statements site) ∧
      (model.sites.map Site.index).Nodup := by
  obtain ⟨_, d, hvisit, hroot, _⟩ := build_eq_ok h
  obtain ⟨is, hmem, hsorted, hsites, hroots⟩ := visitAll_sites hvisit
  have hperm : model.sites.Perm (is.filterMap Introduction.site? ++
      (looseOf is).head?.toList.map Introduction.rootSite) :=
    (hroot.sites hroots).trans (hsites.append_right _)
  constructor
  · intro site
    simp only [hperm.mem_iff, List.mem_append, List.mem_filterMap, List.mem_map, Option.mem_toList,
      head?_looseOf_iff hsorted, hmem]
    constructor
    · rintro (⟨i, hi, hsite⟩ | ⟨i, ⟨hi, hloose, hfirst⟩, rfl⟩)
      · obtain ⟨cls, hcls, rfl⟩ := site?_eq_some_iff.mp hsite
        exact .introduced i cls hi hcls
      · exact .root i hi hloose hfirst
    · rintro (⟨i, cls, hi, hcls⟩ | ⟨i, hi, hloose, hfirst⟩)
      · exact .inl ⟨i, hi, site?_eq_some_iff.mpr ⟨cls, hcls, rfl⟩⟩
      · exact .inr ⟨i, ⟨hi, hloose, hfirst⟩, rfl⟩
  · have hindices : (is.map Introduction.index).Nodup :=
      (List.pairwise_map.mpr hsorted).imp Nat.ne_of_lt
    rw [(hperm.map Site.index).nodup_iff, List.map_append]
    refine List.Nodup.append ?_ ?_ ?_
    · refine List.pairwise_map.mpr (List.pairwise_filterMap.mpr (hsorted.imp ?_))
      intro i j hlt site hsite site' hsite'
      obtain ⟨_, _, rfl⟩ := site?_eq_some_iff.mp hsite
      obtain ⟨_, _, rfl⟩ := site?_eq_some_iff.mp hsite'
      exact Nat.ne_of_lt hlt
    · cases (looseOf is).head? <;> simp
    · -- A constant that belongs to the root buffer has no entity of its own.
      intro index hown hfirst
      simp only [List.mem_map, List.mem_filterMap, Option.mem_toList] at hown hfirst
      obtain ⟨_, ⟨i, hi, hsite⟩, rfl⟩ := hown
      obtain ⟨cls, hcls, rfl⟩ := site?_eq_some_iff.mp hsite
      obtain ⟨_, ⟨j, hj, rfl⟩, hindex⟩ := hfirst
      obtain ⟨hj, hloose, _⟩ := (head?_looseOf_iff hsorted).mp hj
      obtain rfl : j = i := List.inj_on_of_nodup_map hindices hj hi hindex
      rw [class?_of_isLoose hloose] at hcls
      contradiction

/-! ## Sites of placed models -/

/-- Slots are no part of a site. -/
theorem sites_unslotted (m : Model) : m.unslotted.sites = m.sites := by
  rw [sites_eq, sites_eq, unslotted]
  cases m.vertexFormat <;> simp only [List.map_map, Option.map_some, Option.map_none] <;> rfl

theorem assignSlots_sites {m m' : Model} (h : m.assignSlots = .ok m') : m'.sites = m.sites := by
  rw [← sites_unslotted, assignSlots_unslotted h, sites_unslotted]

theorem rebind_sites (buffers textures : Slots) (m : Model) :
    (Program.rebind buffers textures m).sites = m.sites := by
  rw [← sites_unslotted, Program.rebind_unslotted, sites_unslotted]

end Model

end AnnotatedShader
