import AnnotatedShader.Proofs.Model.Gathered

set_option autoImplicit false

/-!
# Visits in another order

Introductions that can be visited in one order can be visited in every other, with the same parts
and the same structs.  Where the orders agree on a series, the parts of that series are in the same
order.

Visits one after the other make parts one after the other (`parts_of_foldlM`), and parts can be put
together in any order, except that there is one vertex format at most (`foldlM_of_parts`).
`Reordered` relates two lists of introductions that bring the same declarations, in the same order
within each series; `Reordered.exists_parts` has the parts of both.
-/

namespace AnnotatedShader.Model

/-! ## Visits one after the other -/

/-- How many vertex formats are introduced. -/
def formats (is : List Introduction) : Nat :=
  is.countP fun i => i.declaration.product = .vertexFormat

/-- How many vertex formats there are, those that are gathered and those to come. -/
def formatsWith (xs : List Draft) (is : List Introduction) : Nat :=
  (xs.findSome? fun x => x.model.vertexFormat).toList.length + formats is

section Visits

variable {ns : Namespace} {file : String} {stage : Stage} {Source : Introduction → Prop}
  {D S : List StructDef} {xs : List Draft} {i : Introduction} {is : List Introduction}

theorem formatsWith_snoc {x : Draft} (hx : PartOf ns file stage D i x)
    (h : i.declaration.product = .vertexFormat →
      xs.findSome? (fun x => x.model.vertexFormat) = none) :
    formatsWith (xs ++ [x]) is = formatsWith xs (i :: is) := by
  have hsome := hx.isSome_vertexFormat
  rw [formatsWith, formatsWith, formats, formats, List.countP_cons, List.findSome?_append]
  by_cases hformat : i.declaration.product = .vertexFormat
  · rw [decide_eq_true hformat] at hsome ⊢
    obtain ⟨vf, hvf⟩ := Option.isSome_iff_exists.mp hsome
    simp [h hformat, hvf, Nat.add_comm]
  · rw [decide_eq_false hformat] at hsome ⊢
    have hvf : x.model.vertexFormat = none := by simpa using hsome
    simp [hvf]

/-- There is no vertex format yet where one is to come. -/
theorem findSome?_eq_none_of_formatsWith (h : formatsWith xs (i :: is) ≤ 1)
    (hformat : i.declaration.product = .vertexFormat) :
    xs.findSome? (fun x => x.model.vertexFormat) = none := by
  rw [formatsWith, formats, List.countP_cons, decide_eq_true hformat] at h
  cases hfound : xs.findSome? fun x => x.model.vertexFormat with
  | none => rfl
  | some vf =>
    rw [hfound] at h
    simp at h

/-- A vertex format is visited only if there is none. -/
theorem Visited.vertexFormat_eq_none {d d' : Draft} (h : Visited ns d i d')
    (hformat : i.declaration.product = .vertexFormat) : d.model.vertexFormat = none := by
  cases h with
  | vertexFormat name fields inputs l hdecl hfirst => exact hfirst
  | buffer name attr fields order members layout structs hdecl =>
    rw [hdecl, Declaration.product] at hformat
    split at hformat <;> contradiction
  | _ => simp [Declaration.product, *] at hformat

variable (hcovers : CoversNames ns (Exported ns)) (hstructs : CoversStructs (Exported ns) Source)

include hcovers hstructs

/-- A visit keeps the order of dependencies and takes no struct away. -/
theorem Visited.grows {d d' : Draft} (h : Visited ns d i d') (hi : Source i)
    (hd : Derived ns (Exported ns) d.model.structs) :
    Derived ns (Exported ns) d'.model.structs ∧ d.model.structs <+: d'.model.structs := by
  cases h with
  | structType name fields structs hdecl hdefine =>
    obtain ⟨hgrown, _⟩ :=
      defineStruct_spec hcovers _ _ _ hd (hstructs i hi name _ fields hdecl) hdefine
    exact ⟨hgrown.derived, hgrown.before⟩
  | buffer name attr fields order members layout structs hdecl hattr horder hbody =>
    obtain ⟨hgrown, _⟩ := structBody_spec hcovers (defineStruct_spec hcovers) hd hbody
    exact ⟨hgrown.derived, hgrown.before⟩
  | _ => exact ⟨hd, List.prefix_rfl⟩

theorem visits_grow (hsource : ∀ i ∈ is, Source i) {d d' : Draft}
    (hd : Derived ns (Exported ns) d.model.structs) (h : is.foldlM (visit ns file) d = .ok d') :
    Derived ns (Exported ns) d'.model.structs ∧ d.model.structs <+: d'.model.structs := by
  induction is generalizing d with
  | nil =>
    obtain rfl := Except.ok.inj h
    exact ⟨hd, List.prefix_rfl⟩
  | cons i rest ih =>
    obtain ⟨hi, hrest⟩ := List.forall_mem_cons.mp hsource
    rw [List.foldlM_cons, bind_eq_ok_iff] at h
    obtain ⟨mid, hvisit, h⟩ := h
    obtain ⟨hmid, hbefore⟩ := (visit_visited hvisit).grows hcovers hstructs hi hd
    obtain ⟨hd', hafter⟩ := ih hrest hmid h
    exact ⟨hd', hbefore.trans hafter⟩

variable (hD : Derived ns (Exported ns) D)

include hD

/-- What visits leave behind is gathered from parts, with one vertex format at most. -/
theorem parts_of_foldlM (hsource : ∀ i ∈ is, Source i) (hS : Derived ns (Exported ns) S) {d : Draft}
    (h : is.foldlM (visit ns file) (gathered file stage S xs) = .ok d)
    (hwithin : d.model.structs.map StructDef.id ⊆ D.map StructDef.id) :
    ∃ ys, List.Forall₂ (PartOf ns file stage D) is ys ∧
      d = gathered file stage d.model.structs (xs ++ ys) ∧ formatsWith xs is ≤ 1 := by
  induction is generalizing S xs with
  | nil =>
    obtain rfl := Except.ok.inj h
    refine ⟨[], .nil, by simp [gathered], ?_⟩
    rw [formatsWith]
    cases xs.findSome? fun x => x.model.vertexFormat <;> simp [formats]
  | cons i rest ih =>
    obtain ⟨hi, hrest⟩ := List.forall_mem_cons.mp hsource
    rw [List.foldlM_cons, bind_eq_ok_iff] at h
    obtain ⟨mid, hvisit, h⟩ := h
    have hvisited := visit_visited hvisit
    obtain ⟨hmid, _⟩ := hvisited.grows hcovers hstructs hi hS
    obtain ⟨_, hafter⟩ := visits_grow hcovers hstructs hrest hmid h
    obtain ⟨x, hx, heq⟩ := hvisited.part hcovers hstructs hD hS hi
      fun id hid => hwithin <| mem_ids_of_prefix hafter hid
    rw [heq] at h
    obtain ⟨ys, hys, hd, hformats⟩ := ih hrest hmid h
    refine ⟨x :: ys, .cons hx hys, by rw [hd]; simp [gathered], ?_⟩
    rwa [← formatsWith_snoc hx hvisited.vertexFormat_eq_none]

/-- Parts can be visited one after the other, unless there are two vertex formats. -/
theorem foldlM_of_parts (hsource : ∀ i ∈ is, Source i) (hS : Derived ns (Exported ns) S)
    {ys : List Draft} (hparts : List.Forall₂ (PartOf ns file stage D) is ys)
    (hformats : formatsWith xs is ≤ 1) :
    ∃ S', is.foldlM (visit ns file) (gathered file stage S xs) =
        .ok (gathered file stage S' (xs ++ ys)) ∧
      Derived ns (Exported ns) S' ∧ Within D S S' := by
  induction hparts generalizing S xs with
  | nil => exact ⟨S, by rw [List.append_nil]; rfl, hS, .refl D S⟩
  | @cons i x rest ys hx _ ih =>
    obtain ⟨hi, hrest⟩ := List.forall_mem_cons.mp hsource
    have hnone := findSome?_eq_none_of_formatsWith hformats
    obtain ⟨mid, hvisited, hmid⟩ := hx.visited_gathered hcovers hstructs hD hS hi hnone
    have hderived : Derived ns (Exported ns) mid := (hvisited.grows hcovers hstructs hi hS).1
    rw [← formatsWith_snoc hx hnone] at hformats
    obtain ⟨S', hS', hderived', hwithin⟩ := ih hrest hderived hformats
    refine ⟨S', ?_, hderived', hmid.trans hwithin⟩
    rw [List.foldlM_cons, bind_eq_ok_iff]
    refine ⟨_, visit_of_visited file hvisited, ?_⟩
    rw [hS', List.append_assoc]
    rfl

end Visits

/-! ## Another order -/

/-- The same is introduced in another order, which keeps that of each series. -/
structure Reordered (is is' : List Introduction) : Prop where
  perm : (is'.map Introduction.brought).Perm (is.map Introduction.brought)
  series : ∀ c, (is'.map Introduction.brought).filter (fun b => broughtSeries? b = some c) =
    (is.map Introduction.brought).filter fun b => broughtSeries? b = some c

/-- The same parts in another order, which keeps that of each series. -/
structure ReorderedParts (xs xs' : List Draft) : Prop where
  perm : (xs'.map Draft.unsited).Perm (xs.map Draft.unsited)
  series : ∀ c, (xs'.filter fun x => x.isOf c).map Draft.unsited =
    (xs.filter fun x => x.isOf c).map Draft.unsited

theorem Reordered.symm {is is' : List Introduction} (h : Reordered is is') : Reordered is' is :=
  ⟨h.perm.symm, fun c => (h.series c).symm⟩

theorem filter_brought (is : List Introduction) (c : Series) :
    (is.map Introduction.brought).filter (fun b => broughtSeries? b = some c) =
      (is.filter fun i => i.declaration.product.series? = some c).map Introduction.brought := by
  rw [List.filter_map]
  simp [Function.comp_def, broughtSeries?, Introduction.brought, Introduction.symbol,
    Symbol.unsited]

/-- Partners through something between them. -/
theorem exists_between_of_forall₂ {α β γ : Type} {R : α → β → Prop} {S : β → γ → Prop} {as : List α}
    {cs : List γ} (h : List.Forall₂ (fun a c => ∃ b, R a b ∧ S b c) as cs) :
    ∃ bs, List.Forall₂ R as bs ∧ List.Forall₂ S bs cs := by
  induction h with
  | nil => exact ⟨[], .nil, .nil⟩
  | cons hab _ ih =>
    obtain ⟨b, hr, hs⟩ := hab
    obtain ⟨bs, hrs, hss⟩ := ih
    exact ⟨b :: bs, .cons hr hrs, .cons hs hss⟩

section Parts

variable {ns ns' : Namespace} {file : String} {stage : Stage} {D : List StructDef}
  {is is' : List Introduction} {xs xs' : List Draft}

/-- What is introduced in another order makes the same parts. -/
theorem Reordered.exists_parts (hr : Reordered is is') (h : ns.Moved ns')
    (hparts : List.Forall₂ (PartOf ns file stage D) is xs) :
    ∃ xs', List.Forall₂ (PartOf ns' file stage D) is' xs' ∧
      (xs'.map Draft.unsited).Perm (xs.map Draft.unsited) := by
  have hmaps : List.Forall₂ (fun b i => b = i.brought) (is.map Introduction.brought) is := by
    rw [List.forall₂_map_left_iff]
    exact List.forall₂_same.mpr fun _ _ => rfl
  obtain ⟨js, hjs, hperm⟩ := List.perm_comp_forall₂ hr.perm hmaps
  rw [List.forall₂_map_left_iff] at hjs
  obtain ⟨zs, hzs, hzperm⟩ := List.perm_comp_forall₂ hperm hparts
  obtain ⟨xs', hxs', hsame⟩ := exists_between_of_forall₂
    (forall₂_trans hjs hzs fun i' j z hbrought hz => hz.alike h hbrought)
  refine ⟨xs', hxs', ?_⟩
  rw [← map_eq_of_forall₂ hsame fun _ _ heq => heq.symm]
  exact hzperm.map _

/-- The parts of each series are in the same order. -/
theorem Reordered.series_parts (hr : Reordered is is') (h : ns.Moved ns')
    (hparts : List.Forall₂ (PartOf ns file stage D) is xs)
    (hparts' : List.Forall₂ (PartOf ns' file stage D) is' xs') (c : Series) :
    (xs'.filter fun x => x.isOf c).map Draft.unsited =
      (xs.filter fun x => x.isOf c).map Draft.unsited := by
  have hfiltered : ∀ {ns : Namespace} {is : List Introduction} {xs : List Draft},
      List.Forall₂ (PartOf ns file stage D) is xs →
        List.Forall₂ (PartOf ns file stage D)
          (is.filter fun i => i.declaration.product.series? = some c)
          (xs.filter fun x => x.isOf c) := by
    intro ns is xs hparts
    induction hparts with
    | nil => exact .nil
    | cons hx _ ih =>
      rw [List.filter_cons, List.filter_cons, hx.isOf_eq c]
      split
      · exact .cons hx ih
      · exact ih
  have hbrought := hr.series c
  rw [filter_brought, filter_brought, ← List.forall₂_eq_eq_eq, List.forall₂_map_left_iff,
    List.forall₂_map_right_iff] at hbrought
  have halike := forall₂_trans hbrought (hfiltered hparts) fun i' i x hi hx => hx.alike h hi
  have hsame : List.Forall₂ (fun x' x => x'.unsited = x.unsited) (xs'.filter fun x => x.isOf c)
      (xs.filter fun x => x.isOf c) := by
    refine forall₂_trans (hfiltered hparts').flip halike fun x' i' x hx' hx => ?_
    obtain ⟨x'', hx'', heq⟩ := hx
    rw [← heq, hx''.visited.eq hx'.visited]
  exact (map_eq_of_forall₂ hsame fun _ _ heq => heq.symm).symm

end Parts

end AnnotatedShader.Model
