import AnnotatedShader.Proofs.Layout.Extent
import AnnotatedShader.Proofs.Lists

set_option autoImplicit false

/-!
# Placed fields

The fields of a layout lie one behind the other inside its size.  A field that is not packed lies at
a multiple of its alignment; of a packed one that has to be checked apart.

`Lined` says it of fields that are placed from some offset on, and is proved by induction on the
fields, each of which starts no earlier than the end of the one before it (`placeFrom_lined`).
`Filled` says it of a whole layout: the fields in order, the size that they end in, and an alignment
that all of theirs divide (`ofFields_filled`).  Nothing else is known of a layout in the theory of
models.

As with extents, a placement is the same under more structs, and under other structs with the same
layouts.
-/

namespace AnnotatedShader.Layout.Std140

open AnnotatedShader.Layout

/-- How a field lies between an offset and an end: where it is, how large it is, and that the
alignment of the whole is no smaller than its own. -/
structure Placed (structs : StructId → Option Layout) (start ending alignment : Int) (f : Field)
    (p : Place) (e : Extent) : Prop where
  extent : extent structs f.type = .ok e
  fit : e.Fit
  name : p.name = f.name
  size : p.size = e.size
  start_le : start ≤ p.offset
  le_ending : p.offset + p.size ≤ ending
  alignment_le : e.alignment ≤ alignment
  aligned : f.packed = false → e.alignment ∣ p.offset

/-- A field that is placed in a part is placed in the whole. -/
theorem Placed.widen {structs : StructId → Option Layout} {start ending alignment : Int}
    {f : Field} {p : Place} {e : Extent} (h : Placed structs start ending alignment f p e)
    {start' : Int} (hle : start' ≤ start) : Placed structs start' ending alignment f p e :=
  { h with start_le := Int.le_trans hle h.start_le }

/-- Fields placed from an offset on, which is where the first of them can start. -/
structure Lined (structs : StructId → Option Layout) (offset alignment : Int)
    (fields : List Field) (run : Run) : Prop where
  placed : List.Forall₂ (fun f p => ∃ e, Placed structs offset run.ending run.alignment f p e)
    fields run.places
  ordered : run.places.Pairwise fun p q => p.offset + p.size ≤ q.offset
  le_ending : offset ≤ run.ending
  le_alignment : alignment ≤ run.alignment
  isAlignment : alignment = 0 ∨ IsAlignment alignment → fields ≠ [] ∨ IsAlignment alignment →
    IsAlignment run.alignment

/-- Where a field starts that comes behind an offset. -/
theorem le_start (offset : Int) {alignment : Int} (ha : 0 < alignment) (keep : Bool) :
    offset ≤ if keep then offset else alignUp offset alignment := by
  split
  · exact Int.le_refl offset
  · exact le_alignUp ha

/-- Placing fields lines them up. -/
theorem placeFrom_lined {structs : StructId → Option Layout} (hs : SoundStructs structs)
    {fields : List Field} (hsized : ∀ f ∈ fields, Sized f.type) {offset alignment : Int}
    {afterPacked : Bool} {run : Run}
    (h : placeFrom structs offset alignment afterPacked fields = .ok run) :
    Lined structs offset alignment fields run := by
  induction fields generalizing offset alignment afterPacked run with
  | nil =>
    obtain rfl := Except.ok.inj h
    exact ⟨.nil, .nil, Int.le_refl _, Int.le_refl _, fun _ h => h.resolve_left (by simp)⟩
  | cons f rest ih =>
    unfold placeFrom at h
    rw [bind_eq_ok_iff] at h
    obtain ⟨e, he, h⟩ := h
    rw [bind_eq_ok_iff] at h
    obtain ⟨tail, htail, h⟩ := h
    obtain rfl := Except.ok.inj h
    have hfit := extent_fit hs (hsized f List.mem_cons_self) he
    have hlined := ih (fun g hg => hsized g (List.mem_cons_of_mem f hg)) htail
    have hstart := le_start offset hfit.alignment.pos (f.packed && afterPacked)
    have hsize := hfit.size_nonneg
    have hending := hlined.le_ending
    have hbound : offset ≤ tail.ending := by omega
    have hmax := hlined.le_alignment
    refine ⟨.cons ⟨e, he, hfit, rfl, rfl, hstart, hending, ?_, ?_⟩ ?_, .cons ?_ hlined.ordered,
      hbound, ?_, ?_⟩
    · exact Int.le_trans (Int.le_max_right ..) hmax
    · intro hpacked
      rw [hpacked, Bool.false_and]
      exact alignUp_dvd ..
    · apply hlined.placed.imp
      intro g q hq
      obtain ⟨e', hq⟩ := hq
      exact ⟨e', hq.widen (by omega)⟩
    · intro q hq
      obtain ⟨g, _, e', hplaced⟩ := exists_left_of_forall₂ hlined.placed hq
      exact hplaced.start_le
    · exact Int.le_trans (Int.le_max_left ..) hmax
    · intro halign _
      have := IsAlignment.max halign hfit.alignment
      exact hlined.isAlignment (Or.inr this) (Or.inr this)

/-! ## Whole layouts -/

/-- A layout whose fields lie in order inside it. -/
structure Filled (structs : StructId → Option Layout) (fields : List Field) (l : Layout) : Prop
    where
  sound : Sound l
  placed : List.Forall₂ (fun f p => ∃ e, Placed structs 0 l.size l.alignment f p e) fields l.places
  ordered : l.places.Pairwise fun p q => p.offset + p.size ≤ q.offset

theorem ofFields_filled {structs : StructId → Option Layout} (hs : SoundStructs structs)
    {fields : List Field} (hsized : ∀ f ∈ fields, Sized f.type) {l : Layout}
    (h : ofFields structs fields = .ok l) : Filled structs fields l := by
  unfold ofFields at h
  rw [bind_eq_ok_iff] at h
  obtain ⟨run, hrun, h⟩ := h
  have hlined := placeFrom_lined hs hsized hrun
  split at h
  · rename_i hempty
    obtain rfl := List.isEmpty_iff.mp hempty
    obtain rfl := Except.ok.inj h
    exact ⟨⟨Int.le_refl 0, Or.inl rfl, Int.dvd_zero _⟩, .nil, .nil⟩
  · rename_i hempty
    obtain rfl := Except.ok.inj h
    have hne : fields ≠ [] := fun heq => hempty (List.isEmpty_iff.mpr heq)
    have halign := hlined.isAlignment (Or.inl rfl) (Or.inl hne)
    obtain ⟨hwide, hdvd⟩ := halign.alignUp_vec4
    have hpos := hwide.isAlignment.pos
    have hle : run.ending ≤ alignUp run.ending (alignUp run.alignment vec4Alignment) :=
      le_alignUp hpos
    have hle' : run.alignment ≤ alignUp run.alignment vec4Alignment := le_alignUp (by decide)
    refine ⟨⟨Int.le_trans hlined.le_ending hle, hwide, alignUp_dvd ..⟩, ?_, hlined.ordered⟩
    apply hlined.placed.imp
    intro f p hp
    obtain ⟨e, hp⟩ := hp
    exact ⟨e, { hp with
      le_ending := Int.le_trans hp.le_ending hle
      alignment_le := Int.le_trans hp.alignment_le hle' }⟩

/-! ## Placement under more or other structs -/

theorem placeFrom_extends {structs structs' : StructId → Option Layout}
    (hs : Extends structs structs') {fields : List Field} {offset alignment : Int}
    {afterPacked : Bool} {run : Run}
    (h : placeFrom structs offset alignment afterPacked fields = .ok run) :
    placeFrom structs' offset alignment afterPacked fields = .ok run := by
  induction fields generalizing offset alignment afterPacked run with
  | nil => exact h
  | cons f rest ih =>
    unfold placeFrom at h ⊢
    rw [bind_eq_ok_iff] at h ⊢
    obtain ⟨e, he, h⟩ := h
    rw [bind_eq_ok_iff] at h
    obtain ⟨tail, htail, h⟩ := h
    refine ⟨e, extent_extends hs he, ?_⟩
    rw [bind_eq_ok_iff]
    exact ⟨tail, ih htail, h⟩

theorem placeFrom_agree {structs structs' : StructId → Option Layout} (hs : Agree structs structs')
    {fields : List Field} {offset alignment : Int} {afterPacked : Bool} {run run' : Run}
    (h : placeFrom structs offset alignment afterPacked fields = .ok run)
    (h' : placeFrom structs' offset alignment afterPacked fields = .ok run') : run = run' := by
  induction fields generalizing offset alignment afterPacked run run' with
  | nil => exact Except.ok.inj (h.symm.trans h')
  | cons f rest ih =>
    unfold placeFrom at h h'
    rw [bind_eq_ok_iff] at h h'
    obtain ⟨e, he, h⟩ := h
    obtain ⟨e', he', h'⟩ := h'
    obtain rfl := extent_agree hs he he'
    rw [bind_eq_ok_iff] at h h'
    obtain ⟨tail, htail, h⟩ := h
    obtain ⟨tail', htail', h'⟩ := h'
    obtain rfl := ih htail htail'
    exact Except.ok.inj (h.symm.trans h')

theorem ofFields_extends {structs structs' : StructId → Option Layout}
    (hs : Extends structs structs') {fields : List Field} {l : Layout}
    (h : ofFields structs fields = .ok l) : ofFields structs' fields = .ok l := by
  unfold ofFields at h ⊢
  rw [bind_eq_ok_iff] at h ⊢
  obtain ⟨run, hrun, h⟩ := h
  exact ⟨run, placeFrom_extends hs hrun, h⟩

theorem ofFields_agree {structs structs' : StructId → Option Layout} (hs : Agree structs structs')
    {fields : List Field} {l l' : Layout} (h : ofFields structs fields = .ok l)
    (h' : ofFields structs' fields = .ok l') : l = l' := by
  unfold ofFields at h h'
  rw [bind_eq_ok_iff] at h h'
  obtain ⟨run, hrun, h⟩ := h
  obtain ⟨run', hrun', h'⟩ := h'
  obtain rfl := placeFrom_agree hs hrun hrun'
  exact Except.ok.inj (h.symm.trans h')

end AnnotatedShader.Layout.Std140
