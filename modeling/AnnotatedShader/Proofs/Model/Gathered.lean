import AnnotatedShader.Proofs.Model.Brought
import AnnotatedShader.Proofs.Model.Completion
import AnnotatedShader.Proofs.Model.Unsited

set_option autoImplicit false

/-!
# Drafts gathered from parts

Once all structs are defined, each introduction makes a part of the model by itself, and the draft
that visits in some order leave behind is gathered from these parts.  The structs come to be defined
on the way, in an order that depends on that of the visits; which they are does not.

`PartOf` is a part with the introduction that makes it: a visit of the empty draft with all structs
defined, which leaves nothing but the part.  `gathered` puts the parts of a list together, series by
series.  A visit that was made in the midst of others can be made from such a draft
(`Visited.part`), and the other way round (`PartOf.visited_gathered`), so a run of visits and a list
of parts are the same thing, and a list can be put into another order.
-/

namespace AnnotatedShader.Model

/-! ## Visits that can be made -/

section Made

variable {ns : Namespace} {d d' : Draft} {i : Introduction}

theorem allowOnlyOrder_of_pinsAtMost {attr : Option Attribute} (h : PinsAtMost attr)
    (origin : String) (position : Position) (bearer : Bearer) (name : String) :
    allowOnlyOrder origin position bearer name attr = .ok () := by
  rcases h with rfl | ⟨slot, rfl⟩ <;> rfl

theorem visitBuffer_of_pinsAtMost {attr : Option Attribute} (h : PinsAtMost attr) {name : String}
    {fields : List Property} {order : Option Int} {members : List Member} {layout : Layout}
    {structs : List StructDef} (horder : orderOf i.origin i.declared attr = .ok order)
    (hbody : structBody ns (defineStruct ns) i.origin name d.model.structs fields =
      .ok (members, layout, structs)) :
    visitBuffer ns d i name attr fields = .ok { d with model := { d.model with
      structs
      buffers := d.model.buffers ++
        [⟨i.name, members, order, i.index, i.origin, i.position, layout, unassigned,
          false⟩] } } := by
  rcases h with rfl | ⟨slot, rfl⟩ <;> simp only [visitBuffer, horder, hbody, bind, Except.bind]

/-- Every one of the things that are listed can be done by a visit. -/
theorem visit_of_visited (file : String) (h : Visited ns d i d') : visit ns file d i = .ok d' := by
  unfold visit
  cases h with
  | structType name fields structs hdecl hdefine =>
    simp only [hdecl, visitBuffer, hdefine, bind, Except.bind]
  | buffer name attr fields order members layout structs hdecl hattr horder hbody =>
    simp only [hdecl, visitBuffer_of_pinsAtMost hattr horder hbody]
  | texture p element sampler t hdecl hkind helement htype hsize hattr =>
    simp only [hdecl, visitConstant, if_pos hkind, visitTexture, helement, htype, hsize, hattr]
  | sampler p hdecl hkind helement htype hattr =>
    simp [hdecl, visitConstant, hkind, helement, htype, visitSampler, hattr, allowNone, bind,
      Except.bind]
  | numeric p t order hdecl hkind helement htype hnumeric hattr horder =>
    have hvisit : visitConstant d i p = visitNumeric d i p t := by
      cases t <;> simp_all [visitConstant]
    simp only [hdecl, hvisit]
    rw [visitNumeric, allowOnlyOrder_of_pinsAtMost hattr, horder]
    rfl
  | output p t order hdecl helement hsize htype hpackable hattr horder =>
    simp only [hdecl, visitOutput, htype, helement, hsize, if_pos hpackable,
      allowOnlyOrder_of_pinsAtMost hattr, horder, bind, Except.bind]
  | vertexFormat name fields inputs l hdecl hfirst hinputs hlayout =>
    simp [hdecl, visitVertexFormat, hfirst, allowNone, hinputs, hlayout, fitting, bind, Except.bind]
  | pipeline name entries hdecl hkeys =>
    simp only [hdecl, stateBlock, hkeys, bind, Except.bind]
  | blendFunc name entries hdecl hkeys =>
    simp only [hdecl, stateBlock, hkeys, bind, Except.bind]

/-- A visit can do one thing at most. -/
theorem Visited.eq {d'' : Draft} (h : Visited ns d i d') (h' : Visited ns d i d'') : d'' = d' :=
  Except.ok.inj ((visit_of_visited "" h').symm.trans (visit_of_visited "" h))

end Made

/-! ## Parts -/

/-- The draft that is gathered from others, with some structs. -/
def gathered (file : String) (stage : Stage) (structs : List StructDef) (xs : List Draft) :
    Draft where
  model :=
    { file, stage, structs
      buffers := xs.flatMap fun x => x.model.buffers
      vertexFormat := xs.findSome? fun x => x.model.vertexFormat
      samplers := xs.flatMap fun x => x.model.samplers
      textures := xs.flatMap fun x => x.model.textures
      outputs := xs.flatMap fun x => x.model.outputs
      pipelines := xs.flatMap fun x => x.model.pipelines
      blendFuncs := xs.flatMap fun x => x.model.blendFuncs }
  roots := xs.flatMap Draft.roots
  samplerRefs := xs.flatMap Draft.samplerRefs

/-- A draft as what an introduction makes by itself when all structs are defined. -/
structure PartOf (ns : Namespace) (file : String) (stage : Stage) (D : List StructDef)
    (i : Introduction) (x : Draft) : Prop where
  visited : Visited ns (gathered file stage D []) i x
  structs : x.model.structs = D

/-- Definitions that begin with some and define no other struct are those. -/
theorem Within.eq {ns : Namespace} {D defs : List StructDef} (h : Within D D defs)
    (hdefs : Derived ns (Exported ns) defs) (hbefore : D <+: defs) : defs = D := by
  obtain ⟨later, rfl⟩ := hbefore
  have hnone : later = [] := by
    refine List.eq_nil_iff_forall_not_mem.mpr fun def_ hdef => ?_
    have hid : def_.id ∈ D.map StructDef.id := by
      have hmem := h (List.mem_map_of_mem (List.mem_append_right _ hdef))
      rwa [List.mem_append, or_self] at hmem
    have hnodup := hdefs.nodup
    rw [List.map_append, List.nodup_append] at hnodup
    exact hnodup.2.2 def_.id hid def_.id (List.mem_map_of_mem hdef) rfl
  rw [hnone, List.append_nil]

section Parts

variable {ns : Namespace} {file : String} {stage : Stage} {Source : Introduction → Prop}
  {D S : List StructDef} {xs : List Draft} {i : Introduction}
  (hcovers : CoversNames ns (Exported ns)) (hstructs : CoversStructs (Exported ns) Source)
  (hD : Derived ns (Exported ns) D) (hS : Derived ns (Exported ns) S) (hi : Source i)

include hcovers hstructs hD hS hi

/-- A visit adds a part to what is gathered. -/
theorem Visited.part {d' : Draft} (h : Visited ns (gathered file stage S xs) i d')
    (hwithin : d'.model.structs.map StructDef.id ⊆ D.map StructDef.id) :
    ∃ x, PartOf ns file stage D i x ∧ d' = gathered file stage d'.model.structs (xs ++ [x]) := by
  have hcomplete := defineStruct_complete hcovers hD
  cases h with
  | structType name fields structs hdecl hdefine =>
    have hexported := hstructs i hi name _ fields hdecl
    obtain ⟨_, hmem⟩ := defineStruct_spec hcovers _ _ _ hS hexported hdefine
    obtain ⟨defs', hdefs', hdefined⟩ := hcomplete D _ hD hexported (hwithin hmem)
    obtain ⟨hgrown, _⟩ := defineStruct_spec hcovers _ _ _ hD hexported hdefs'
    rw [hdefined.eq hgrown.derived hgrown.before] at hdefs'
    exact ⟨_, ⟨.structType name fields D hdecl hdefs', rfl⟩, by simp [gathered]⟩
  | buffer name attr fields order members layout structs hdecl hattr horder hbody =>
    obtain ⟨hgrown, raw, hraw, rfl⟩ :=
      structBody_spec hcovers (defineStruct_spec hcovers) hS hbody
    have hraw' := hraw.transfer (hgrown.derived.sameDefs hD).agree
      fun mem hmem id hid => hwithin (hraw.known mem hmem id hid)
    obtain ⟨defs', hdefs', hdefined⟩ := structBody_complete hcovers
      (defineStruct_spec hcovers) hcomplete name hD hD hraw'
    obtain ⟨hgrown', _⟩ := structBody_spec hcovers (defineStruct_spec hcovers) hD hdefs'
    rw [hdefined.eq hgrown'.derived hgrown'.before] at hdefs'
    exact ⟨_, ⟨.buffer name attr fields order _ layout D hdecl hattr horder hdefs', rfl⟩,
      by simp [gathered]⟩
  | texture p element sampler t hdecl hkind helement htype hsize hattr =>
    exact ⟨_, ⟨.texture p element sampler t hdecl hkind helement htype hsize hattr, rfl⟩,
      by simp [gathered]⟩
  | sampler p hdecl hkind helement htype hattr =>
    exact ⟨_, ⟨.sampler p hdecl hkind helement htype hattr, rfl⟩, by simp [gathered]⟩
  | numeric p t order hdecl hkind helement htype hnumeric hattr horder =>
    exact ⟨_, ⟨.numeric p t order hdecl hkind helement htype hnumeric hattr horder, rfl⟩,
      by simp [gathered]⟩
  | output p t order hdecl helement hsize htype hpackable hattr horder =>
    exact ⟨_, ⟨.output p t order hdecl helement hsize htype hpackable hattr horder, rfl⟩,
      by simp [gathered]⟩
  | vertexFormat name fields inputs l hdecl hfirst hinputs hlayout =>
    have hnone : xs.findSome? (fun x => x.model.vertexFormat) = none := hfirst
    exact ⟨_, ⟨.vertexFormat name fields inputs l hdecl rfl hinputs hlayout, rfl⟩,
      by simp [gathered, List.findSome?_append, hnone]⟩
  | pipeline name entries hdecl hkeys =>
    exact ⟨_, ⟨.pipeline name entries hdecl hkeys, rfl⟩, by simp [gathered]⟩
  | blendFunc name entries hdecl hkeys =>
    exact ⟨_, ⟨.blendFunc name entries hdecl hkeys, rfl⟩, by simp [gathered]⟩

/-- A part can be added to what is gathered, unless it is a second vertex format. -/
theorem PartOf.visited_gathered {x : Draft} (h : PartOf ns file stage D i x)
    (hformat : i.declaration.product = .vertexFormat →
      xs.findSome? (fun x => x.model.vertexFormat) = none) :
    ∃ S', Visited ns (gathered file stage S xs) i (gathered file stage S' (xs ++ [x])) ∧
      Within D S S' := by
  have hcomplete := defineStruct_complete hcovers hD
  obtain ⟨hvisited, hfinal⟩ := h
  -- a visit that leaves the list of structs as it is
  have hsame : ∀ {d'}, Visited ns (gathered file stage S xs) i d' →
      d' = gathered file stage S (xs ++ [x]) →
      ∃ S', Visited ns (gathered file stage S xs) i (gathered file stage S' (xs ++ [x])) ∧
        Within D S S' := fun h heq => ⟨S, heq ▸ h, .refl D S⟩
  cases hvisited with
  | structType name fields structs hdecl hdefine =>
    have hexported := hstructs i hi name _ fields hdecl
    obtain ⟨_, hmem⟩ := defineStruct_spec hcovers _ _ _ hD hexported hdefine
    obtain rfl : structs = D := hfinal
    obtain ⟨S', hS', hwithin⟩ := hcomplete S _ hS hexported hmem
    have hvisit : Visited ns (gathered file stage S xs) i _ := .structType name fields S' hdecl hS'
    refine ⟨S', ?_, hwithin⟩
    simpa [gathered] using hvisit
  | buffer name attr fields order members layout structs hdecl hattr horder hbody =>
    obtain ⟨_, raw, hraw, rfl⟩ := structBody_spec hcovers (defineStruct_spec hcovers) hD hbody
    obtain rfl : structs = D := hfinal
    obtain ⟨S', hS', hwithin⟩ := structBody_complete hcovers
      (defineStruct_spec hcovers) hcomplete name hS hD hraw
    have hvisit : Visited ns (gathered file stage S xs) i _ :=
      .buffer name attr fields order _ layout S' hdecl hattr horder hS'
    refine ⟨S', ?_, hwithin⟩
    simpa [gathered] using hvisit
  | texture p element sampler t hdecl hkind helement htype hsize hattr =>
    exact hsame (.texture p element sampler t hdecl hkind helement htype hsize hattr)
      (by simp [gathered])
  | sampler p hdecl hkind helement htype hattr =>
    exact hsame (.sampler p hdecl hkind helement htype hattr) (by simp [gathered])
  | numeric p t order hdecl hkind helement htype hnumeric hattr horder =>
    exact hsame (.numeric p t order hdecl hkind helement htype hnumeric hattr horder)
      (by simp [gathered])
  | output p t order hdecl helement hsize htype hpackable hattr horder =>
    exact hsame (.output p t order hdecl helement hsize htype hpackable hattr horder)
      (by simp [gathered])
  | vertexFormat name fields inputs l hdecl hfirst hinputs hlayout =>
    have hnone := hformat (by rw [hdecl]; rfl)
    exact hsame (.vertexFormat name fields inputs l hdecl hnone hinputs hlayout)
      (by simp [gathered, List.findSome?_append, hnone])
  | pipeline name entries hdecl hkeys =>
    exact hsame (.pipeline name entries hdecl hkeys) (by simp [gathered])
  | blendFunc name entries hdecl hkeys =>
    exact hsame (.blendFunc name entries hdecl hkeys) (by simp [gathered])

end Parts

/-! ## What parts hold -/

/-- Whether a draft holds something of a series. -/
def Draft.isOf (x : Draft) : Series → Bool
  | .buffers => !x.model.buffers.isEmpty || !x.roots.isEmpty
  | .textures => !x.model.textures.isEmpty || !x.samplerRefs.isEmpty
  | .outputs => !x.model.outputs.isEmpty
  | .pipelines => !x.model.pipelines.isEmpty
  | .blendFuncs => !x.model.blendFuncs.isEmpty

section Holds

variable {ns : Namespace} {file : String} {stage : Stage} {D : List StructDef} {i : Introduction}
  {x : Draft}

theorem PartOf.isOf_eq (h : PartOf ns file stage D i x) (c : Series) :
    x.isOf c = decide (i.declaration.product.series? = some c) := by
  obtain ⟨hvisited, _⟩ := h
  cases hvisited with
  | buffer name attr fields order members layout structs hdecl hattr =>
    have hpack : attr ≠ some .pack := by rcases hattr with rfl | ⟨slot, rfl⟩ <;> simp
    cases c <;> simp [Draft.isOf, gathered, hdecl, Declaration.product, Product.series?, hpack]
  | _ => cases c <;> simp [Draft.isOf, gathered, Declaration.product, Product.series?, *]

theorem PartOf.isSome_vertexFormat (h : PartOf ns file stage D i x) :
    x.model.vertexFormat.isSome = decide (i.declaration.product = .vertexFormat) := by
  obtain ⟨hvisited, _⟩ := h
  cases hvisited with
  | buffer name attr fields order members layout structs hdecl hattr =>
    have hpack : attr ≠ some .pack := by rcases hattr with rfl | ⟨slot, rfl⟩ <;> simp
    simp [gathered, hdecl, Declaration.product, hpack]
  | _ => simp [gathered, Declaration.product, *]

end Holds

/-! ## The same parts at other positions -/

section Alike

variable {ns ns' : Namespace} {file : String} {stage : Stage} {D : List StructDef}
  {i i' : Introduction} {x : Draft}

/-- What is brought alike makes parts that are alike. -/
theorem PartOf.alike (h : ns.Moved ns') (hi : i'.brought = i.brought)
    (hx : PartOf ns file stage D i x) :
    ∃ x', PartOf ns' file stage D i' x' ∧ x'.unsited = x.unsited := by
  obtain ⟨hname, hsymbol⟩ := Prod.mk.inj hi
  have hmoved := Symbol.moved_of_unsited hsymbol
  have horigin : i'.origin = i.origin := hmoved.file
  have hdeclaration : i.declaration.Moved i'.declaration := hmoved.declaration
  obtain ⟨hvisited, hstructs⟩ := hx
  generalize hdecl' : i'.declaration = decl' at hdeclaration
  cases hvisited with
  | structType name fields structs hdecl hdefine =>
    rw [hdecl] at hdeclaration
    cases hdeclaration with
    | buffer _ _ _ fields' hfields =>
      have hdeclared : DeclaredStruct.Moved ⟨⟨name, i.origin⟩, i.declared, fields⟩
          ⟨⟨name, i'.origin⟩, i'.declared, fields'⟩ := ⟨by rw [horigin], hfields⟩
      obtain ⟨_, hdefine', rfl⟩ := (defineStruct_moved h _ hdeclared).exists_ok hdefine
      exact ⟨_, ⟨.structType name fields' _ hdecl' hdefine', hstructs⟩, rfl⟩
  | buffer name attr fields order members layout structs hdecl hattr horder hbody =>
    rw [hdecl] at hdeclaration
    cases hdeclaration with
    | buffer _ _ _ fields' hfields =>
      obtain ⟨_, horder', rfl⟩ := (orderOf_moved i.origin _ i'.declared attr).exists_ok horder
      obtain ⟨_, hbody', rfl⟩ :=
        (structBody_moved h (fun defs _ _ hd => defineStruct_moved h defs hd)
        i.origin name _ hfields).exists_ok hbody
      rw [← horigin] at horder' hbody'
      refine ⟨_, ⟨.buffer name attr fields' _ members layout structs hdecl' hattr horder' hbody',
        hstructs⟩, ?_⟩
      simp [Draft.unsited, unsited, Buffer.unsited, hname, horigin]
  | texture p element sampler t hdecl hkind helement htype hsize hattr =>
    rw [hdecl] at hdeclaration
    cases hdeclaration with
    | constant _ p' hp =>
      obtain ⟨position, rfl⟩ := hp
      refine ⟨_, ⟨.texture _ element sampler t hdecl' hkind helement htype hsize hattr, hstructs⟩,
        ?_⟩
      simp [Draft.unsited, unsited, Texture.unsited, SamplerRef.unsited, hname, horigin]
  | sampler p hdecl hkind helement htype hattr =>
    rw [hdecl] at hdeclaration
    cases hdeclaration with
    | constant _ p' hp =>
      obtain ⟨position, rfl⟩ := hp
      exact ⟨_, ⟨.sampler _ hdecl' hkind helement htype hattr, hstructs⟩, rfl⟩
  | numeric p t order hdecl hkind helement htype hnumeric hattr horder =>
    rw [hdecl] at hdeclaration
    cases hdeclaration with
    | constant _ p' hp =>
      obtain ⟨position, rfl⟩ := hp
      obtain ⟨_, horder', rfl⟩ := (orderOf_moved i.origin _ position p.attr).exists_ok horder
      rw [← horigin] at horder'
      refine ⟨_, ⟨.numeric _ t _ hdecl' hkind helement htype hnumeric hattr horder', hstructs⟩, ?_⟩
      simp [Draft.unsited, RootConstant.unsited, hname]
  | output p t order hdecl helement hsize htype hpackable hattr horder =>
    rw [hdecl] at hdeclaration
    cases hdeclaration with
    | output _ p' hp =>
      obtain ⟨position, rfl⟩ := hp
      obtain ⟨_, horder', rfl⟩ := (orderOf_moved i.origin _ position p.attr).exists_ok horder
      rw [← horigin] at horder'
      refine ⟨_, ⟨.output _ t _ hdecl' helement hsize htype hpackable hattr horder', hstructs⟩, ?_⟩
      simp [Draft.unsited, unsited, Output.unsited, hname]
  | vertexFormat name fields inputs l hdecl hfirst hinputs hlayout =>
    rw [hdecl] at hdeclaration
    cases hdeclaration with
    | vertexFormat _ _ _ fields' hfields =>
      obtain ⟨_, hinputs', rfl⟩ := (vertexInputs_moved i.origin [] hfields).exists_ok hinputs
      rw [← horigin] at hinputs'
      refine ⟨_, ⟨.vertexFormat name fields' inputs l hdecl' rfl hinputs' hlayout, hstructs⟩, ?_⟩
      simp [Draft.unsited, unsited, VertexFormat.unsited, hname, horigin]
  | pipeline name entries hdecl hkeys =>
    rw [hdecl] at hdeclaration
    cases hdeclaration with
    | pipeline =>
      obtain ⟨_, hkeys', _⟩ := (distinctKeys_moved i i' [] entries).exists_ok hkeys
      refine ⟨_, ⟨.pipeline name entries hdecl' hkeys', hstructs⟩, ?_⟩
      simp [Draft.unsited, unsited, StateBlock.unsited, hname]
  | blendFunc name entries hdecl hkeys =>
    rw [hdecl] at hdeclaration
    cases hdeclaration with
    | blendFunc =>
      obtain ⟨_, hkeys', _⟩ := (distinctKeys_moved i i' [] entries).exists_ok hkeys
      refine ⟨_, ⟨.blendFunc name entries hdecl' hkeys', hstructs⟩, ?_⟩
      simp [Draft.unsited, unsited, StateBlock.unsited, hname]

end Alike

end AnnotatedShader.Model
