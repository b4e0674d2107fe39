import AnnotatedShader.Proofs.Model.Visits
import AnnotatedShader.Proofs.Model.WellFormed
import Mathlib.Data.List.Flatten

set_option autoImplicit false

/-!
# Models of rearranged files

A file whose statements stand in another order has the same model, up to the order of structs and
samplers and to the statements that its entities belong to, as long as the statements of each series
keep their order.

The introductions of both files are the same in each series, so both drafts are gathered from parts
that agree series by series (`Draft.Rearranged`).  What the build does with a draft is then
compared: the root buffer goes to the place of its first constant among the buffers, and since
buffers and constants are one series, this place is the same (`unsited_eq_of_buffers`).  The structs
are the same up to their order (`structs_perm`).

That the second file can be built at all is the larger half.  Its visits can be made, because each
of them is the visit of a part (`Reordered.visits`), and its names and samplers are those of the
first file.
-/

namespace AnnotatedShader

namespace Model

/-! ## Drafts of the same parts -/

section Gathered

variable {file : String} {stage : Stage} {S S' : List StructDef} {xs xs' : List Draft}

/-- What drafts hold of a series is held by those that are of it. -/
theorem flatMap_series {α : Type} {c : Series} {g : Draft → List α}
    (hg : ∀ x, x.isOf c = false → g x = []) (xs : List Draft) :
    (xs.filter fun x => x.isOf c).flatMap g = xs.flatMap g := by
  induction xs with
  | nil => rfl
  | cons x rest ih =>
    rw [List.filter_cons, List.flatMap_cons]
    split
    · rw [List.flatMap_cons, ih]
    · rename_i hx
      rw [ih, hg x (Bool.eq_false_iff.mpr hx), List.nil_append]

theorem map_flatMap_of_unsited {α β : Type} {g : Draft → List α} {e : α → β}
    (he : ∀ x x' : Draft, x'.unsited = x.unsited → (g x').map e = (g x).map e)
    (h : xs'.map Draft.unsited = xs.map Draft.unsited) :
    (xs'.flatMap g).map e = (xs.flatMap g).map e := by
  rw [← List.forall₂_eq_eq_eq, List.forall₂_map_left_iff, List.forall₂_map_right_iff] at h
  rw [List.map_flatMap, List.map_flatMap, List.flatMap_def, List.flatMap_def,
    map_eq_of_forall₂ h fun x' x heq => (he x x' heq).symm]

variable (h : ReorderedParts xs xs')

include h

theorem ReorderedParts.map_flatMap {α β : Type} (c : Series) {g : Draft → List α} {e : α → β}
    (hg : ∀ x, x.isOf c = false → g x = [])
    (he : ∀ x x' : Draft, x'.unsited = x.unsited → (g x').map e = (g x).map e) :
    (xs'.flatMap g).map e = (xs.flatMap g).map e := by
  rw [← flatMap_series hg xs, ← flatMap_series hg xs']
  exact map_flatMap_of_unsited he (h.series c)

/-- One vertex format at most is the same in every order. -/
theorem ReorderedParts.vertexFormat
    (hformats : (xs.flatMap fun x => x.model.vertexFormat.toList).length ≤ 1) :
    (xs'.findSome? fun x => x.model.vertexFormat).map VertexFormat.unsited =
      (xs.findSome? fun x => x.model.vertexFormat).map VertexFormat.unsited := by
  have hfirst : ∀ xs : List Draft,
      (xs.findSome? fun x => x.model.vertexFormat).map VertexFormat.unsited =
        ((xs.map Draft.unsited).flatMap fun x => x.model.vertexFormat.toList).head? := by
    intro xs
    rw [List.head?_flatMap, List.findSome?_map]
    simp only [Option.head?_toList, Function.comp_def, Draft.unsited, unsited]
    exact List.map_findSome? ..
  have hperm := h.perm.flatMap_right fun x => x.model.vertexFormat.toList
  have hlength : ((xs.map Draft.unsited).flatMap fun x => x.model.vertexFormat.toList).length =
      (xs.flatMap fun x => x.model.vertexFormat.toList).length := by
    rw [List.flatMap_map, List.length_flatMap, List.length_flatMap]
    refine congrArg List.sum (List.map_congr_left fun x _ => ?_)
    simp only [Draft.unsited, unsited]
    cases x.model.vertexFormat <;> rfl
  rw [hfirst, hfirst]
  generalize (xs.map Draft.unsited).flatMap _ = vfs at hperm hlength
  rw [← hlength] at hformats
  cases vfs with
  | nil => rw [hperm.eq_nil]
  | cons vf rest =>
    obtain rfl : rest = [] := List.length_eq_zero_iff.mp (by simpa using hformats)
    rw [hperm.eq_singleton]

/-- The same parts make the same draft, but for the order of structs and samplers. -/
theorem ReorderedParts.unsited_gathered
    (hformats : (xs.flatMap fun x => x.model.vertexFormat.toList).length ≤ 1) :
    (gathered file stage S' xs').unsited = (gathered file stage S xs).unsited := by
  have hbuffers := h.map_flatMap .buffers (g := fun x => x.model.buffers) (e := Buffer.unsited)
    (fun x hx => by simp_all [Draft.isOf])
    fun x x' heq => congrArg (fun d : Draft => d.model.buffers) heq
  have htextures := h.map_flatMap .textures (g := fun x => x.model.textures) (e := Texture.unsited)
    (fun x hx => by simp_all [Draft.isOf])
    fun x x' heq => congrArg (fun d : Draft => d.model.textures) heq
  have houtputs := h.map_flatMap .outputs (g := fun x => x.model.outputs) (e := Output.unsited)
    (fun x hx => by simp_all [Draft.isOf])
    fun x x' heq => congrArg (fun d : Draft => d.model.outputs) heq
  have hpipelines := h.map_flatMap .pipelines (g := fun x => x.model.pipelines)
    (e := StateBlock.unsited) (fun x hx => by simp_all [Draft.isOf])
    fun x x' heq => congrArg (fun d : Draft => d.model.pipelines) heq
  have hblendFuncs := h.map_flatMap .blendFuncs (g := fun x => x.model.blendFuncs)
    (e := StateBlock.unsited) (fun x hx => by simp_all [Draft.isOf])
    fun x x' heq => congrArg (fun d : Draft => d.model.blendFuncs) heq
  have hroots := h.map_flatMap .buffers (g := Draft.roots) (e := RootConstant.unsited)
    (fun x hx => by simp_all [Draft.isOf]) fun x x' heq => congrArg Draft.roots heq
  have hrefs := h.map_flatMap .textures (g := Draft.samplerRefs) (e := SamplerRef.unsited)
    (fun x hx => by simp_all [Draft.isOf]) fun x x' heq => congrArg Draft.samplerRefs heq
  simp only [gathered, Draft.unsited, unsited, hbuffers, htextures, houtputs, hpipelines,
    hblendFuncs, hroots, hrefs, h.vertexFormat hformats]

end Gathered

/-! ## The place of the root buffer -/

/-- The indices of the buffers and of the constants for the root buffer that a draft holds. -/
def Draft.indices (x : Draft) : List Nat :=
  x.model.buffers.map Buffer.index ++ x.roots.map RootConstant.index

/-- The buffers that drafts hold, and the root buffer in the place of the first constant for it. -/
def withRoot (root : Buffer) : List Draft → List Buffer
  | [] => [root]
  | x :: rest =>
    x.model.buffers ++
      if x.roots.isEmpty then withRoot root rest else root :: rest.flatMap fun x => x.model.buffers

theorem withRoot_perm (root : Buffer) (xs : List Draft) :
    (withRoot root xs).Perm ((xs.flatMap fun x => x.model.buffers) ++ [root]) := by
  induction xs with
  | nil => exact .refl _
  | cons x rest ih =>
    rw [withRoot, List.flatMap_cons, List.append_assoc]
    refine List.Perm.append_left _ ?_
    split
    · exact ih
    · exact (List.perm_append_singleton _ _).symm

theorem map_unsited_withRoot {root root' : Buffer} (hroot : root'.unsited = root.unsited)
    {xs xs' : List Draft} (h : xs'.map Draft.unsited = xs.map Draft.unsited) :
    (withRoot root' xs').map Buffer.unsited = (withRoot root xs).map Buffer.unsited := by
  rw [← List.forall₂_eq_eq_eq, List.forall₂_map_left_iff, List.forall₂_map_right_iff] at h
  induction h with
  | nil => rw [withRoot, withRoot, List.map_singleton, List.map_singleton, hroot]
  | @cons x' x rest' rest hx hrest ih =>
    have hbuffers : x'.model.buffers.map Buffer.unsited = x.model.buffers.map Buffer.unsited :=
      congrArg (fun d : Draft => d.model.buffers) hx
    have hroots : x'.roots.map RootConstant.unsited = x.roots.map RootConstant.unsited :=
      congrArg Draft.roots hx
    have hempty : x'.roots.isEmpty = x.roots.isEmpty := by
      rw [← List.isEmpty_map (f := RootConstant.unsited), hroots, List.isEmpty_map]
    have hothers : (rest'.flatMap fun x => x.model.buffers).map Buffer.unsited =
        (rest.flatMap fun x => x.model.buffers).map Buffer.unsited := by
      refine map_flatMap_of_unsited
        (fun x x' heq => congrArg (fun d : Draft => d.model.buffers) heq) ?_
      rw [← List.forall₂_eq_eq_eq, List.forall₂_map_left_iff, List.forall₂_map_right_iff]
      exact hrest
    rw [withRoot, withRoot, List.map_append, List.map_append, hbuffers, hempty]
    split
    · rw [ih]
    · rw [List.map_cons, List.map_cons, hroot, hothers]

/-- The root buffer with the index of the first constant for it stands at that index. -/
theorem indices_withRoot {root : Buffer} {xs : List Draft}
    (hroot : ((xs.flatMap Draft.roots).map RootConstant.index).head? = some root.index) :
    ((withRoot root xs).map Buffer.index).Sublist (xs.flatMap Draft.indices) := by
  induction xs with
  | nil => simp at hroot
  | cons x rest ih =>
    rw [withRoot, List.flatMap_cons, List.map_append, Draft.indices, List.append_assoc]
    refine (List.Sublist.refl _).append ?_
    cases hroots : x.roots with
    | nil =>
      rw [List.flatMap_cons, hroots, List.nil_append] at hroot
      exact ih hroot
    | cons r others =>
      rw [List.flatMap_cons, hroots, List.cons_append, List.map_cons, List.head?_cons] at hroot
      rw [List.isEmpty_cons, if_neg Bool.false_ne_true, List.map_cons, List.map_cons,
        List.cons_append, ← Option.some.inj hroot]
      refine List.Sublist.cons_cons _ (.trans ?_ (List.sublist_append_right _ _))
      rw [List.map_flatMap]
      exact List.Sublist.flatMap_right rest fun x _ => List.sublist_append_left _ _

/-! ## Rearranged drafts -/

/-- A draft whose buffers and constants for the root buffer are those of some parts, in the order of
their statements. -/
structure Draft.GatheredFrom (d : Draft) (ys : List Draft) : Prop where
  buffers : d.model.buffers = ys.flatMap fun x => x.model.buffers
  roots : d.roots = ys.flatMap Draft.roots
  indices : (ys.flatMap Draft.indices).Pairwise (· < ·)

/-- The same draft up to the sites of its entities, the order of its structs and its samplers. -/
structure Draft.Rearranged (d d' : Draft) : Prop where
  unsited : d'.unsited = d.unsited
  structs : d'.model.structs.Perm d.model.structs
  parts : ∃ ys ys', d.GatheredFrom ys ∧ d'.GatheredFrom ys' ∧
    ys'.map Draft.unsited = ys.map Draft.unsited

section Parts

variable {ns : Namespace} {file : String} {stage : Stage} {D S : List StructDef}
  {i : Introduction} {is : List Introduction} {x : Draft} {xs : List Draft}

theorem PartOf.indices (h : PartOf ns file stage D i x) : x.indices.Sublist [i.index] := by
  obtain ⟨hvisited, _⟩ := h
  cases hvisited <;> simp [Draft.indices, gathered]

theorem length_vertexFormats (h : List.Forall₂ (PartOf ns file stage D) is xs) :
    (xs.flatMap fun x => x.model.vertexFormat.toList).length = formats is := by
  induction h with
  | nil => rfl
  | @cons i x is xs hx _ ih =>
    have hsome := hx.isSome_vertexFormat
    rw [List.flatMap_cons, List.length_append, ih, formats, formats, List.countP_cons, ← hsome]
    cases x.model.vertexFormat <;> simp [Nat.add_comm]

theorem gatheredFrom_filter (h : List.Forall₂ (PartOf ns file stage D) is xs)
    (hsorted : is.Pairwise fun i j => i.index < j.index) :
    (gathered file stage S xs).GatheredFrom (xs.filter fun x => x.isOf .buffers) where
  buffers := (flatMap_series (fun x hx => by simp_all [Draft.isOf]) xs).symm
  roots := (flatMap_series (fun x hx => by simp_all [Draft.isOf]) xs).symm
  indices := by
    have hsub : (xs.flatMap Draft.indices).Sublist (is.map Introduction.index) := by
      clear hsorted
      induction h with
      | nil => exact .slnil
      | cons hx _ ih => exact hx.indices.append ih
    exact (List.pairwise_map.mpr hsorted).sublist ((List.filter_sublist.flatMap _).trans hsub)

end Parts

/-! ## Rearranged models with a root buffer -/

section Root

variable {file : String} {names names' : List String} {d d' : Draft} {b : Buffer} {m : Model}

theorem RootBuffer.head?_index {roots : List RootConstant} (h : RootBuffer file roots b) :
    (roots.map RootConstant.index).head? = some b.index := by
  obtain ⟨first, rest, rfl, hb⟩ := h.eq
  rw [hb]
  rfl

/-- The root buffer of the same constants at other statements. -/
theorem RootBuffer.rearranged {roots roots' : List RootConstant} (h : RootBuffer file roots b)
    (hroots : roots'.map RootConstant.unsited = roots.map RootConstant.unsited) :
    ∃ b', RootBuffer file roots' b' ∧ b'.unsited = b.unsited := by
  have horder : ∀ roots : List RootConstant,
      roots.filterMap RootConstant.order = (roots.map RootConstant.unsited).filterMap
        RootConstant.order := fun roots => by rw [List.filterMap_map]; rfl
  have hmember : ∀ roots : List RootConstant,
      roots.map RootConstant.member = (roots.map RootConstant.unsited).map RootConstant.member :=
    fun roots => by rw [List.map_map]; rfl
  have horders : rootOrders roots' = rootOrders roots := by
    rw [rootOrders, rootOrders, horder, horder roots, hroots]
  have hmembers : roots'.map RootConstant.member = roots.map RootConstant.member := by
    rw [hmember, hmember roots, hroots]
  obtain ⟨first, rest, rfl, hb⟩ := h.eq
  cases roots' with
  | nil => simp at hroots
  | cons first' rest' =>
    refine ⟨{ b with index := first'.index, position := first'.position }, ⟨?_, ?_, ?_⟩, rfl⟩
    · rw [horders]
      exact h.orders
    · rw [hmembers]
      exact h.layout
    · refine ⟨first', rest', rfl, ?_⟩
      rw [horders, hmembers]
      conv_lhs => rw [hb]

theorem sortBuffers_eq_withRoot {ys : List Draft} (hd : d.GatheredFrom ys)
    (hb : (d.roots.map RootConstant.index).head? = some b.index) :
    sortBuffers (d.model.buffers ++ [b]) = withRoot b ys := by
  rw [hd.roots] at hb
  have hsorted : ((withRoot b ys).map Buffer.index).Pairwise (· < ·) :=
    hd.indices.sublist (indices_withRoot hb)
  have hperm := withRoot_perm b ys
  rw [← hd.buffers] at hperm
  have hnodup : ((d.model.buffers ++ [b]).map Buffer.index).Nodup :=
    (hperm.map Buffer.index).nodup_iff.mp (hsorted.imp Nat.ne_of_lt)
  refine ((List.mergeSort_perm ..).trans hperm.symm).eq_of_pairwise ?_
    (pairwise_sortBuffers hnodup) (List.pairwise_map.mp hsorted)
  exact fun _ _ _ _ hlt hgt => absurd hgt (Nat.lt_asymm hlt)

theorem buildRoot_of_rooted (h : Rooted file names d m) : buildRoot file names d = .ok m := by
  unfold buildRoot
  cases h with
  | plain hroots => rw [hroots]
  | root b hname hb =>
    obtain ⟨first, rest, hroots, heq⟩ := hb.eq
    have hlayout := fitting_eq_ok_iff.mpr hb.layout
    have horders := Nat.not_lt.mpr hb.orders
    rw [hroots] at hlayout horders ⊢
    simp only [List.contains_iff_mem, if_neg hname, if_neg horders, hlayout, bind, Except.bind]
    rw [hroots] at heq
    rw [← heq]

theorem unsited_eq_of_buffers {m' : Model} (h : m'.unsited = m.unsited) {bs bs' : List Buffer}
    (hbs : bs'.map Buffer.unsited = bs.map Buffer.unsited) :
    unsited { m' with buffers := bs' } = unsited { m with buffers := bs } := by
  show { m'.unsited with buffers := bs'.map Buffer.unsited } = _
  rw [h, hbs]
  rfl

/-- A rearranged draft makes a rearranged model. -/
theorem Rooted.rearranged (h : Rooted file names d m) (hd : d.Rearranged d')
    (hnames : names' ⊆ names) : ∃ m', Rooted file names' d' m' ∧ m.Rearranged m' := by
  obtain ⟨hunsited, hstructs, ys, ys', hys, hys', hsame⟩ := hd
  have hmodel : d'.model.unsited = d.model.unsited := congrArg Draft.model hunsited
  have hroots : d'.roots.map RootConstant.unsited = d.roots.map RootConstant.unsited :=
    congrArg Draft.roots hunsited
  cases h with
  | plain hnone =>
    rw [hnone, List.map_nil, List.map_eq_nil_iff] at hroots
    exact ⟨_, .plain hroots, hmodel, hstructs⟩
  | root b hname hb =>
    obtain ⟨b', hb', hb'b⟩ := hb.rearranged hroots
    refine ⟨_, .root b' (fun hmem => hname (hnames hmem)) hb', ?_, hstructs⟩
    rw [sortBuffers_eq_withRoot hys hb.head?_index, sortBuffers_eq_withRoot hys' hb'.head?_index]
    exact unsited_eq_of_buffers hmodel (map_unsited_withRoot hb'b hsame)

end Root

/-! ## Models of rearranged files -/

/-- Names that differ pass the check of names. -/
theorem distinctNames_of_nodup {file : String} {seen : List String} {statements : List Statement}
    (h : (statements.filterMap Statement.name?).Nodup)
    (hseen : ∀ name ∈ statements.filterMap Statement.name?, name ∉ seen) :
    distinctNames file seen statements = .ok () := by
  induction statements generalizing seen with
  | nil => rfl
  | cons s rest ih =>
    rw [distinctNames]
    cases hname : s.name? with
    | none =>
      rw [List.filterMap_cons_none hname] at h hseen
      exact ih h hseen
    | some name =>
      rw [List.filterMap_cons_some hname] at h hseen
      obtain ⟨hfirst, hrest⟩ := List.nodup_cons.mp h
      have hnew : seen.contains name = false := by simpa using hseen name List.mem_cons_self
      simp only [hnew, Bool.false_eq_true, if_false]
      refine ih hrest fun other hother hmem => ?_
      rcases List.mem_cons.mp hmem with rfl | hmem
      · exact hfirst hother
      · exact hseen other (List.mem_cons_of_mem _ hother) hmem

/-- Definitions of the same structs are the same, whatever their order. -/
theorem structs_perm {ns : Namespace} {D S : List StructDef} (hD : Derived ns (Exported ns) D)
    (hS : Derived ns (Exported ns) S) (hDS : D.map StructDef.id ⊆ S.map StructDef.id)
    (hSD : S.map StructDef.id ⊆ D.map StructDef.id) : S.Perm D := by
  have hmem : ∀ {D S : List StructDef}, Derived ns (Exported ns) D → Derived ns (Exported ns) S →
      S.map StructDef.id ⊆ D.map StructDef.id → ∀ def_ ∈ S, def_ ∈ D := by
    intro D S hD hS hSD def_ hdef
    obtain ⟨def', hdef', hid⟩ := List.mem_map.mp (hSD (List.mem_map_of_mem hdef))
    obtain ⟨hmembers, hlayout⟩ := hS.sameDefs hD def_ hdef def' hdef' hid.symm
    have hdependencies : def_.dependencies = def'.dependencies := by
      rw [hS.dependencies def_ hdef, hD.dependencies def' hdef', hmembers]
    obtain ⟨id, members, layout, dependencies⟩ := def_
    obtain ⟨id', members', layout', dependencies'⟩ := def'
    cases hid
    cases hmembers
    cases hlayout
    cases hdependencies
    exact hdef'
  exact (List.perm_ext_iff_of_nodup hS.nodup.of_map hD.nodup.of_map).mpr fun def_ =>
    ⟨hmem hD hS hSD def_, hmem hS hD hDS def_⟩

section Visits

variable {ns ns' : Namespace} {file : String} {stage : Stage} {Source Source' : Introduction → Prop}
  {is is' : List Introduction} {d : Draft} (h : ns.Moved ns') (hr : Reordered is is')
  (hcovers : CoversNames ns (Exported ns)) (hcovers' : CoversNames ns' (Exported ns'))
  (hstructs : CoversStructs (Exported ns) Source) (hstructs' : CoversStructs (Exported ns') Source')
  (hsource : ∀ i ∈ is, Source i) (hsource' : ∀ i ∈ is', Source' i)
  (hd : is.foldlM (visit ns file) (gathered file stage [] []) = .ok d)

include h hr hcovers hcovers' hstructs hstructs' hsource hsource' hd

/-- What can be visited in one order can be visited in another, and defines no other structs. -/
theorem Reordered.exists_visits :
    ∃ d' xs xs', is'.foldlM (visit ns' file) (gathered file stage [] []) = .ok d' ∧
      List.Forall₂ (PartOf ns file stage d.model.structs) is xs ∧
      List.Forall₂ (PartOf ns' file stage d.model.structs) is' xs' ∧
      d = gathered file stage d.model.structs xs ∧ d' = gathered file stage d'.model.structs xs' ∧
      ReorderedParts xs xs' ∧ formats is ≤ 1 ∧ Derived ns (Exported ns) d.model.structs ∧
      Derived ns' (Exported ns') d'.model.structs ∧
      d'.model.structs.map StructDef.id ⊆ d.model.structs.map StructDef.id := by
  have hD := (visits_grow hcovers hstructs hsource .nil hd).1
  obtain ⟨xs, hparts, hgathered, hformats⟩ :=
    parts_of_foldlM hcovers hstructs hD hsource .nil hd (List.Subset.refl _)
  obtain ⟨xs', hparts', hperm⟩ := hr.exists_parts h hparts
  have hcount : formats is' = formats is := by
    have hproduct : ∀ is : List Introduction, formats is =
        (is.map Introduction.brought).countP fun b =>
          b.2.declaration.product = .vertexFormat := fun is => by
      rw [List.countP_map]
      simp [formats, Function.comp_def, Introduction.brought, Introduction.symbol, Symbol.unsited]
    rw [hproduct, hproduct is, hr.perm.countP_eq]
  have hformats : formats is ≤ 1 := by simpa [formatsWith] using hformats
  have hformats' : formatsWith [] is' ≤ 1 := by simpa [formatsWith, hcount] using hformats
  obtain ⟨S', hvisits, hS', hwithin⟩ := foldlM_of_parts hcovers' hstructs' (hD.moved h)
    hsource' .nil hparts' hformats'
  refine ⟨_, xs, xs', hvisits, hparts, hparts', hgathered, rfl, ⟨hperm, ?_⟩, hformats, hD, hS', ?_⟩
  · exact hr.series_parts h hparts hparts'
  · exact fun id hid => by simpa using hwithin hid

/-- The draft of the same introductions in another order. -/
theorem Reordered.visits (hsorted : is.Pairwise fun i j => i.index < j.index)
    (hsorted' : is'.Pairwise fun i j => i.index < j.index) :
    ∃ d', is'.foldlM (visit ns' file) (gathered file stage [] []) = .ok d' ∧ d.Rearranged d' := by
  obtain ⟨d', xs, xs', hd', hparts, hparts', hgathered, hgathered', hreordered, hformats, hD, hD',
    hsubset⟩ := hr.exists_visits h hcovers hcovers' hstructs hstructs' hsource hsource' hd
  obtain ⟨d'', _, _, hd'', _, _, _, _, _, _, _, _, hsuperset⟩ :=
    hr.symm.exists_visits h.symm hcovers' hcovers hstructs' hstructs hsource' hsource hd'
  obtain rfl : d'' = d := Except.ok.inj (hd''.symm.trans hd)
  refine ⟨d', hd', ?_, ?_, ?_⟩
  · rw [hgathered, hgathered']
    exact hreordered.unsited_gathered (by rwa [length_vertexFormats hparts])
  · exact structs_perm (hD.moved h) hD' hsuperset hsubset
  · refine ⟨_, _, ?_, ?_, hreordered.series .buffers⟩
    · rw [hgathered]
      exact gatheredFrom_filter hparts hsorted
    · rw [hgathered']
      exact gatheredFrom_filter hparts' hsorted'

end Visits

/-- What a rearranged file introduces. -/
theorem reordered_introductions {ns ns' : Namespace} (h : ns.Moved ns') {m m' : Module}
    (hm : m.Rearranged ns m') {imports imports' : List ResolvedImport}
    (himports : List.Forall₂ (Resolves ns) m.uses imports)
    (himports' : List.Forall₂ (Resolves ns') m'.uses imports') :
    Reordered (introductions m.file imports 0 m.statements)
      (introductions m'.file imports' 0 m'.statements) := by
  have hmoved := StatementBody.brought?_moved h m.file
  constructor
  · rw [map_brought_introductions himports, map_brought_introductions himports', hm.file, hmoved]
    exact hm.contents.filterMap _
  · intro c
    have hfilter' : (m'.contents.filterMap (StatementBody.brought? ns m.file)).filter
        (fun b => broughtSeries? b = some c) = _ := hm.file ▸ m'.filter_brought ns c
    rw [map_brought_introductions himports, map_brought_introductions himports', hm.file, hmoved,
      m.filter_brought, hfilter', hm.series]

theorem SamplerRef.moved_of_unsited {refs refs' : List SamplerRef}
    (h : refs'.map SamplerRef.unsited = refs.map SamplerRef.unsited) :
    List.Forall₂ SamplerRef.Moved refs refs' := by
  rw [← List.forall₂_eq_eq_eq, List.forall₂_map_left_iff, List.forall₂_map_right_iff] at h
  refine h.flip.imp fun r r' heq => ?_
  obtain ⟨texture, sampler, origin, position⟩ := r
  obtain ⟨texture', sampler', origin', position'⟩ := r'
  obtain ⟨rfl, rfl, rfl, _⟩ := SamplerRef.mk.inj heq
  exact ⟨position', rfl⟩

/-- A rearranged file has a rearranged model. -/
theorem build_rearranged {ns ns' : Namespace} (h : ns.Moved ns') {m m' : Module}
    (hm : m.Rearranged ns m') {imports imports' : List ResolvedImport}
    (himports : List.Forall₂ (Resolves ns) m.uses imports)
    (himports' : List.Forall₂ (Resolves ns') m'.uses imports')
    (hcovers : CoversNames ns (Exported ns)) (hcovers' : CoversNames ns' (Exported ns'))
    (hstructs : CoversStructs (Exported ns) (Introduces m.file imports 0 m.statements))
    (hstructs' : CoversStructs (Exported ns') (Introduces m'.file imports' 0 m'.statements))
    {stage : Stage} {model : Model} (hbuild : build m stage ns imports = .ok model) :
    ∃ model', build m' stage ns' imports' = .ok model' ∧ model.Rearranged model' := by
  obtain ⟨hnames, d, hvisit, hroot, hsamplers⟩ := build_eq_ok hbuild
  rw [visitAll_eq_foldlM (resolved_of_resolves himports)] at hvisit
  obtain ⟨d', hvisit', hd⟩ := (reordered_introductions h hm himports himports').visits h hcovers
    hcovers' hstructs hstructs' (fun _ => mem_introductions.mp) (fun _ => mem_introductions.mp)
    hvisit (pairwise_introductions 0 _) (pairwise_introductions 0 _)
  obtain ⟨model', hroot', hmodel⟩ := hroot.rearranged hd hm.namesOf.subset
  refine ⟨model', ?_, hmodel⟩
  have hrefs := SamplerRef.moved_of_unsited (congrArg Draft.samplerRefs hd.unsited)
  obtain ⟨_, hsamplers', rfl⟩ := (checkSamplers_moved h hrefs).exists_ok hsamplers
  rw [hm.file, ← visitAll_eq_foldlM (resolved_of_resolves himports')] at hvisit'
  simp only [build, bind_eq_ok_iff]
  rw [hm.file]
  exact ⟨(), distinctNames_of_nodup (hm.namesOf.nodup_iff.mpr hnames) (by simp), d', hvisit',
    model', buildRoot_of_rooted hroot', (), hsamplers', rfl⟩

end Model

namespace Module

theorem exists_lookupUses {file : String} {ns : Namespace} {uses : List (Use × Position)}
    (h : ∀ entry ∈ uses, ∃ s, ns.lookup entry.1.file entry.1.member = some s) :
    ∃ imports, lookupUses file ns uses = .ok imports := by
  induction uses with
  | nil => exact ⟨[], rfl⟩
  | cons entry rest ih =>
    obtain ⟨u, position⟩ := entry
    obtain ⟨⟨s, hs⟩, hrest⟩ := List.forall_mem_cons.mp h
    obtain ⟨imports, himports⟩ := ih hrest
    exact ⟨⟨u, position, s⟩ :: imports, by simp only [lookupUses, hs, himports]; rfl⟩

/-- The imports of a rearranged file are resolved. -/
theorem Rearranged.resolveImports {ns ns' : Namespace} (h : ns.Moved ns') {m m' : Module}
    (hm : m.Rearranged ns m') {imports : List ResolvedImport}
    (himports : m.resolveImports ns = .ok imports) :
    ∃ imports', m'.resolveImports ns' = .ok imports' := by
  obtain ⟨hcycle, hresolves⟩ := resolveImports_eq_ok himports
  rw [Module.resolveImports, h.dependencyCycle?, hm.file, hcycle]
  refine exists_lookupUses fun entry hentry => ?_
  have huse := hm.uses.subset (List.mem_map_of_mem hentry)
  obtain ⟨⟨u, position⟩, hmem, heq⟩ := List.mem_map.mp huse
  obtain ⟨r, _, hr⟩ := exists_right_of_forall₂ hresolves hmem
  have hfound := h.lookup u.file u.member
  rw [hr.lookup, Option.map_some] at hfound
  obtain ⟨s, hs, _⟩ := Option.map_eq_some_iff.mp hfound
  exact ⟨s, by rw [← heq]; exact hs⟩

end Module

end AnnotatedShader
