import AnnotatedShader.Proofs.Model.Build

set_option autoImplicit false

/-!
# Members in their places

The members of every buffer and every struct of an accepted model lie in order inside its size, each
at a multiple of its alignment.  For a member that is packed behind another one this is what the
check of alignments has found.

`InPlace` is this for one member and `Arranged` for a list of them with its size.  The layout of the
fields gives the order (`arranged_of_filled`), the check the alignment (`aligned_of_checkAligned`),
and the types of members have extents because their structs are defined (`Derived.sound`).  The root
buffer has a layout of its own but no packed members, so it is arranged as well
(`RootBuffer.arranged`).
-/

namespace AnnotatedShader.Model

open AnnotatedShader.Layout

/-- How a member lies in a layout. -/
structure InPlace (structs : StructId → Option Layout) (l : Layout) (m : Member)
    (e : Std140.Extent) : Prop where
  extent : Std140.extent structs m.type = .ok e
  fit : e.Fit
  size : m.size = e.size
  offset_nonneg : 0 ≤ m.offset
  le_size : m.offset + m.size ≤ l.size
  aligned : e.alignment ∣ m.offset
  dvd_alignment : e.alignment ∣ l.alignment

/-- Members that lie in order in a layout. -/
structure Arranged (structs : StructId → Option Layout) (ms : List Member) (l : Layout) : Prop where
  sound : Std140.Sound l
  inPlace : ∀ m ∈ ms, ∃ e, InPlace structs l m e
  ordered : ms.Pairwise fun a b => a.offset + a.size ≤ b.offset

theorem InPlace.extends {structs structs' : StructId → Option Layout} {l : Layout} {m : Member}
    {e : Std140.Extent} (h : InPlace structs l m e) (hs : Std140.Extends structs structs') :
    InPlace structs' l m e :=
  { h with extent := Std140.extent_extends hs h.extent }

theorem Arranged.extends {structs structs' : StructId → Option Layout} {ms : List Member}
    {l : Layout} (h : Arranged structs ms l) (hs : Std140.Extends structs structs') :
    Arranged structs' ms l where
  sound := h.sound
  inPlace m hm := by
    obtain ⟨e, he⟩ := h.inPlace m hm
    exact ⟨e, he.extends hs⟩
  ordered := h.ordered

/-- Placed members lie where their places are. -/
theorem map_room_placeMembers {raw : List Member} {l : Layout}
    (h : raw.length = l.places.length) :
    (placeMembers raw l).map (fun m => (m.offset, m.size)) =
      l.places.map fun p => (p.offset, p.size) := by
  rw [placeMembers, List.map_zipWith]
  generalize l.places = places at h
  induction raw generalizing places with
  | nil =>
    obtain rfl := List.length_eq_zero_iff.mp h.symm
    rfl
  | cons m rest ih =>
    cases places with
    | nil => simp at h
    | cons p places => simpa using ih places (by simpa using h)

/-- Members become arranged by a layout of their fields, if the packed ones are aligned. -/
theorem arranged_of_filled {structs : StructId → Option Layout} {raw : List Member} {l : Layout}
    {field : Member → Field} (htype : ∀ m, (field m).type = m.type)
    (h : Std140.Filled structs (raw.map field) l)
    (hpacked : ∀ m ∈ placeMembers raw l, ∀ e, Std140.extent structs m.type = .ok e →
      (∃ r ∈ raw, (field r).packed = true ∧ m.attr = r.attr) → e.alignment ∣ m.offset) :
    Arranged structs (placeMembers raw l) l where
  sound := h.sound
  inPlace m hm := by
    obtain ⟨r, hr, p, ⟨e, hp⟩, rfl⟩ :=
      exists_of_mem_zipWith (List.forall₂_map_left_iff.mp h.placed) hm
    have hextent : Std140.extent structs r.type = .ok e := htype r ▸ hp.extent
    refine ⟨e, hextent, hp.fit, hp.size, hp.start_le, hp.le_ending, ?_, ?_⟩
    · cases hpack : (field r).packed with
      | false => exact hp.aligned hpack
      | true => exact hpacked _ hm e hextent ⟨r, hr, hpack, rfl⟩
    · exact hp.fit.alignment.dvd_of_le h.sound.alignment.isAlignment hp.alignment_le
  ordered := by
    have hlength : raw.length = l.places.length := by
      simpa using h.placed.length_eq
    have hmap := map_room_placeMembers hlength
    have hplaces : (l.places.map fun p => (p.offset, p.size)).Pairwise
        fun a b => a.1 + a.2 ≤ b.1 := List.pairwise_map.mpr h.ordered
    rw [← hmap] at hplaces
    exact List.pairwise_map.mp hplaces

/-- What the check of alignments has found. -/
theorem aligned_of_checkAligned {structs : StructId → Option Layout} {origin : String}
    {ms : List (Member × Property)} (h : checkAligned structs origin ms = .ok ()) {m : Member}
    {p : Property} (hm : (m, p) ∈ ms) (hpack : m.attr = some .pack) {e : Std140.Extent}
    (he : Std140.extent structs m.type = .ok e) : e.alignment ∣ m.offset := by
  induction ms with
  | nil => simp at hm
  | cons entry rest ih =>
    obtain ⟨m', p'⟩ := entry
    unfold checkAligned at h
    split at h
    · rw [bind_eq_ok_iff] at h
      obtain ⟨e', he', h⟩ := h
      split at h
      · rename_i hmod
        rcases List.mem_cons.mp hm with heq | hm
        · obtain ⟨rfl, rfl⟩ := Prod.mk.inj heq
          obtain rfl := Except.ok.inj (he.symm.trans (fitting_eq_ok_iff.mp he'))
          exact Int.dvd_of_emod_eq_zero hmod
        · exact ih h hm
      · simp at h
    · rename_i hattr
      rcases List.mem_cons.mp hm with heq | hm
      · obtain ⟨rfl, rfl⟩ := Prod.mk.inj heq
        exact absurd hpack hattr
      · exact ih h hm

theorem length_placeMembers {raw : List Member} {l : Layout} (h : raw.length = l.places.length) :
    (placeMembers raw l).length = raw.length := by
  rw [placeMembers, List.length_zipWith, ← h, Nat.min_self]

theorem sized_fields_of_typed {ns : Namespace} {origin : String} {fields : List Property}
    {raw : List Member} (h : List.Forall₂ (MemberOf ns origin) fields raw) :
    ∀ f ∈ raw.map fieldOf, Std140.Sized f.type := by
  intro f hf
  obtain ⟨m, hm, rfl⟩ := List.mem_map.mp hf
  obtain ⟨p, _, hp⟩ := exists_left_of_forall₂ h hm
  exact sized_of_writtenType? hp.type

/-- The layout of a body is filled by its members. -/
theorem Body.filled {ns : Namespace} {origin : String} {defs : List StructDef}
    {fields : List Property} {raw : List Member} {l : Layout}
    (hs : Std140.SoundStructs (layoutsOf defs)) (hb : Body ns origin defs fields raw l) :
    Std140.Filled (layoutsOf defs) (raw.map fieldOf) l :=
  Std140.ofFields_filled hs (sized_fields_of_typed hb.typed) hb.layout

/-- The members of a body are arranged. -/
theorem Body.arranged {ns : Namespace} {origin : String} {defs : List StructDef}
    {fields : List Property} {raw : List Member} {l : Layout}
    (hs : Std140.SoundStructs (layoutsOf defs)) (hb : Body ns origin defs fields raw l) :
    Arranged (layoutsOf defs) (placeMembers raw l) l := by
  have hfilled := hb.filled hs
  apply arranged_of_filled (fun _ => rfl) hfilled
  intro m hm e he hpacked
  obtain ⟨r, _, hpack, hattr⟩ := hpacked
  have hpack : m.attr = some .pack := by
    rw [hattr]
    simpa [fieldOf] using hpack
  have hlength : (placeMembers raw l).length = fields.length := by
    rw [length_placeMembers (by simpa using hfilled.placed.length_eq), hb.typed.length_eq]
  obtain ⟨k, hk, rfl⟩ := List.getElem_of_mem hm
  have hzip : (((placeMembers raw l)[k], fields[k]) : Member × Property) ∈
      (placeMembers raw l).zip fields := by
    rw [List.mem_iff_getElem]
    exact ⟨k, by simp [hlength, hlength ▸ hk], by simp⟩
  exact aligned_of_checkAligned hb.aligned hzip hpack he

/-! ## Structs -/

variable {ns : Namespace} {Known : DeclaredStruct → Prop}

/-- All structs of a list of definitions have sound layouts. -/
theorem Derived.sound {defs : List StructDef} (h : Derived ns Known defs) :
    Std140.SoundStructs (layoutsOf defs) := by
  induction h with
  | nil => intro id l hl; simp [layoutsOf] at hl
  | @snoc defs d _ hd ih =>
    obtain ⟨decl, raw, _, _, hbody, _⟩ := hd.body
    have hlast : Std140.Sound d.layout := (hbody.filled ih).sound
    intro id l hl
    rw [layoutsOf, List.find?_append, Option.map_eq_some_iff] at hl
    obtain ⟨d', hd', rfl⟩ := hl
    rcases Option.or_eq_some_iff.mp hd' with hold | ⟨_, hnew⟩
    · exact ih id _ (Option.map_eq_some_iff.mpr ⟨d', hold, rfl⟩)
    · have := List.mem_of_find?_eq_some hnew
      rwa [List.mem_singleton.mp this]

/-- The members of every defined struct are arranged. -/
theorem Derived.arranged {defs : List StructDef} (h : Derived ns Known defs) {d : StructDef}
    (hd : d ∈ defs) : Arranged (layoutsOf defs) d.members d.layout := by
  obtain ⟨decl, raw, _, _, hbody, hmembers⟩ := h.body hd
  rw [hmembers]
  exact hbody.arranged h.sound

/-! ## Buffers -/

theorem sized_of_rootOf {i : Introduction} {r : RootConstant} (h : RootOf i r) :
    Std140.Sized r.member.type := by
  obtain ⟨p, t, order, _, _, _, htype, hnumeric, _, _, rfl⟩ := h.source
  have hsized : Std140.Sized t := by
    cases ShaderType.named_of_ofName? htype <;> trivial
  dsimp only
  split
  · exact ⟨Int.natCast_nonneg _, hsized⟩
  · exact hsized

/-- The layout of the root buffer is filled by its constants. -/
theorem RootBuffer.filled {file : String} {roots : List RootConstant} {b : Buffer}
    (h : RootBuffer file roots b) (hroots : ∀ r ∈ roots, ∃ i, RootOf i r) :
    Std140.Filled (fun _ => none)
      ((roots.map RootConstant.member).map fun m => ⟨m.name, m.type, false⟩) b.layout := by
  refine Std140.ofFields_filled (fun _ _ h => by simp at h) ?_ h.layout
  simp only [List.mem_map, forall_exists_index, and_imp, forall_apply_eq_imp_iff₂]
  intro r hr
  obtain ⟨i, hi⟩ := hroots r hr
  exact sized_of_rootOf hi

/-- The members of the root buffer are arranged. -/
theorem RootBuffer.arranged {file : String} {roots : List RootConstant} {b : Buffer}
    (h : RootBuffer file roots b) (hroots : ∀ r ∈ roots, ∃ i, RootOf i r) :
    Arranged (fun _ => none) b.members b.layout := by
  obtain ⟨first, rest, _, heq⟩ := h.eq
  have hmembers : b.members = placeMembers (roots.map RootConstant.member) b.layout := by
    rw [heq]
  rw [hmembers]
  refine arranged_of_filled (fun _ => rfl) (h.filled hroots) ?_
  rintro m _ e _ ⟨r, _, hpack, _⟩
  simp at hpack

/-- The members of every buffer of an accepted model are arranged. -/
theorem Accepted.arranged {m : Module} {imports : List ResolvedImport} {model : Model}
    (h : Accepted ns Known m imports model) {b : Buffer} (hb : b ∈ model.buffers) :
    Arranged (layoutsOf model.structs) b.members b.layout := by
  rcases h.buffers b hb with ⟨i, _, hi⟩ | ⟨roots, hroot, _, hroots⟩
  · obtain ⟨name, attr, fields, order, raw, _, _, _, hbody, heq⟩ := hi.source
    have harranged := hbody.arranged h.structs.sound
    have hmembers : b.members = placeMembers raw b.layout := by rw [heq]
    rwa [hmembers]
  · refine (hroot.arranged ?_).extends fun _ _ hl => by simp at hl
    intro r hr
    obtain ⟨i, _, hi⟩ := hroots r hr
    exact ⟨i, hi⟩

end AnnotatedShader.Model
