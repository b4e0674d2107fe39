import AnnotatedShader.Proofs.Glsl.Origin
import AnnotatedShader.Proofs.Model.Failures
import AnnotatedShader.Proofs.Model.Members
import Mathlib

set_option autoImplicit false

/-!
# Layouts without packing

A packed field is placed without alignment behind another one.  Where it has to lie at a multiple of
its alignment all the same, it lies where alignment puts it, so packing has moved nothing; and the
first field that is off its alignment is the first that packing has moved (`placeFrom_unpacked`).
Structs with such a field are rejected.  All layouts of accepted models are therefore the plain
ones, which a shader gives to members that state no offsets.

`unpacked` is the same field without packing, and `OnAlignment` says that a field lies at a multiple
of its alignment.  The check of a struct looks at its members in order (`checkAligned_cases`), so
whether it passes is whether the plain layout is the same, member by member.  Along the order in
which structs are defined this gives all of them plain layouts (`Derived.plain`), and then the
buffers of a model (`Accepted.plain`).

Declarations without offsets are those that are made for versions that know none
(`MadeOf.offsetless`).
-/

namespace AnnotatedShader

namespace Layout

/-- The offsets of the fields of a layout. -/
def offsets (l : Layout) : List Int := l.places.map Place.offset

/-- What is aligned already is not moved. -/
theorem alignUp_of_dvd {offset alignment : Int} (ha : 0 < alignment) (h : alignment ∣ offset) :
    alignUp offset alignment = offset := by
  have hdvd : alignment ∣ alignUp offset alignment - offset :=
    Int.dvd_sub (alignUp_dvd offset alignment) h
  have hle : offset ≤ alignUp offset alignment := le_alignUp ha
  have hlt : alignUp offset alignment < offset + alignment := alignUp_lt ha
  have hzero := Int.eq_zero_of_dvd_of_nonneg_of_lt (by omega) (by omega) hdvd
  omega

namespace Std140

/-- The same field, which is not packed. -/
def unpacked (f : Field) : Field := { f with packed := false }

/-- A field lies at a multiple of its alignment, if it is packed. -/
def OnAlignment (structs : StructId → Option Layout) (f : Field) (p : Place) : Prop :=
  f.packed = true → ∀ e, extent structs f.type = .ok e → e.alignment ∣ p.offset

section Placement

variable {structs : StructId → Option Layout} (hs : SoundStructs structs) {fields : List Field}
  (hsized : ∀ f ∈ fields, Sized f.type)

include hs hsized

/-- Packing moves no field, or it moves one off its alignment. -/
theorem placeFrom_unpacked {offset alignment : Int} {afterPacked afterPacked' : Bool}
    {run plain : Run}
    (h : placeFrom structs offset alignment afterPacked fields = .ok run)
    (hplain : placeFrom structs offset alignment afterPacked' (fields.map unpacked) = .ok plain) :
    (plain = run ∧ List.Forall₂ (OnAlignment structs) fields run.places) ∨
      (run.places.map Place.offset ≠ plain.places.map Place.offset ∧
        ¬ List.Forall₂ (OnAlignment structs) fields run.places) := by
  induction fields generalizing offset alignment afterPacked afterPacked' run plain with
  | nil =>
    obtain rfl := Except.ok.inj h
    obtain rfl := Except.ok.inj hplain
    exact .inl ⟨rfl, .nil⟩
  | cons f rest ih =>
    rw [List.map_cons] at hplain
    simp only [placeFrom, bind_eq_ok_iff] at h hplain
    obtain ⟨e, he, tail, htail, h⟩ := h
    obtain ⟨e', he', tail', htail', hplain⟩ := hplain
    obtain rfl : e = e' := Except.ok.inj (he.symm.trans he')
    obtain rfl := Except.ok.inj h
    obtain rfl := Except.ok.inj hplain
    have hpos := (extent_fit hs (hsized f List.mem_cons_self) he).alignment.pos
    have hrest : ∀ g ∈ rest, Sized g.type := fun g hg => hsized g (List.mem_cons_of_mem f hg)
    have hunpacked : (unpacked f).packed = false := rfl
    simp only [hunpacked, Bool.false_and] at htail' ⊢
    by_cases haligned : (if f.packed && afterPacked then offset else alignUp offset e.alignment) =
        alignUp offset e.alignment
    -- The field is where alignment puts it, so the others start at the same offset.
    · rw [haligned] at htail
      simp only [haligned]
      have hfirst : OnAlignment structs f ⟨f.name, alignUp offset e.alignment, e.size⟩ := by
        intro _ e' he'
        obtain rfl : e = e' := Except.ok.inj (he.symm.trans he')
        exact alignUp_dvd offset e.alignment
      rcases ih hrest htail htail' with ⟨rfl, hothers⟩ | ⟨hmoved, hothers⟩
      · exact .inl ⟨rfl, .cons hfirst hothers⟩
      · refine .inr ⟨fun heq => hmoved (List.cons.inj heq).2, fun hall => ?_⟩
        cases hall with
        | cons _ hall => exact hothers hall
    · have hkept : (f.packed && afterPacked) = true := by
        by_contra hnot
        exact haligned (by rw [if_neg hnot])
      simp only [hkept, if_true] at haligned ⊢
      refine .inr ⟨fun heq => haligned (List.cons.inj heq).1, fun hall => ?_⟩
      cases hall with
      | cons hfirst _ =>
        have hpacked : f.packed = true := (Bool.and_eq_true_iff.mp hkept).1
        exact haligned (alignUp_of_dvd hpos (hfirst hpacked e he)).symm

/-- The layout of fields is their plain one, or it has a packed field off its alignment and other
offsets. -/
theorem ofFields_unpacked {l plain : Layout} (h : ofFields structs fields = .ok l)
    (hplain : ofFields structs (fields.map unpacked) = .ok plain) :
    (plain = l ∧ List.Forall₂ (OnAlignment structs) fields l.places) ∨
      (l.offsets ≠ plain.offsets ∧ ¬ List.Forall₂ (OnAlignment structs) fields l.places) := by
  rw [ofFields, bind_eq_ok_iff] at h hplain
  obtain ⟨run, hrun, h⟩ := h
  obtain ⟨run', hrun', hplain⟩ := hplain
  cases fields with
  | nil =>
    obtain rfl := Except.ok.inj h
    obtain rfl := Except.ok.inj hplain
    exact .inl ⟨rfl, .nil⟩
  | cons f rest =>
    obtain rfl := Except.ok.inj h
    obtain rfl := Except.ok.inj hplain
    rcases placeFrom_unpacked hs hsized hrun hrun' with ⟨rfl, haligned⟩ | hmoved
    · exact .inl ⟨rfl, haligned⟩
    · exact .inr hmoved

end Placement

end Std140

end Layout

namespace Model

open Layout

/-! ## Checked members -/

/-- The check of alignments ends at the first packed member that is off its alignment, if there is
one. -/
theorem checkAligned_cases {structs : StructId → Option Layout} {origin : String}
    {entries : List (Member × Property)}
    (hextents : ∀ entry ∈ entries, ∃ e, Std140.extent structs entry.1.type = .ok e) :
    (checkAligned structs origin entries = .ok () ∧ ∀ entry ∈ entries, entry.1.attr = some .pack →
      ∀ e, Std140.extent structs entry.1.type = .ok e → e.alignment ∣ entry.1.offset) ∨
    ∃ entry ∈ entries, ∃ e, entry.1.attr = some .pack ∧
      Std140.extent structs entry.1.type = .ok e ∧ ¬ e.alignment ∣ entry.1.offset ∧
      checkAligned structs origin entries =
        .error (misaligned origin entry.2 entry.1.offset e.alignment) := by
  induction entries with
  | nil => exact .inl ⟨rfl, by simp⟩
  | cons first rest ih =>
    obtain ⟨m, p⟩ := first
    have hrest := ih fun entry hentry => hextents entry (List.mem_cons_of_mem _ hentry)
    obtain ⟨e, he⟩ := hextents (m, p) List.mem_cons_self
    by_cases hpack : m.attr = some .pack
    · by_cases hdvd : e.alignment ∣ m.offset
      · have hskip : checkAligned structs origin ((m, p) :: rest) =
            checkAligned structs origin rest := by
          rw [checkAligned, if_pos hpack, he]
          exact if_pos (Int.emod_eq_zero_of_dvd hdvd)
        rw [hskip]
        rcases hrest with ⟨hok, haligned⟩ | ⟨entry, hentry, hwrong⟩
        · refine .inl ⟨hok, List.forall_mem_cons.mpr ⟨fun _ e' he' => ?_, haligned⟩⟩
          obtain rfl : e = e' := Except.ok.inj (he.symm.trans he')
          exact hdvd
        · exact .inr ⟨entry, List.mem_cons_of_mem _ hentry, hwrong⟩
      · refine .inr ⟨(m, p), List.mem_cons_self, e, hpack, he, hdvd, ?_⟩
        rw [checkAligned, if_pos hpack, he]
        exact if_neg fun hmod => hdvd (Int.dvd_of_emod_eq_zero hmod)
    · rw [checkAligned, if_neg hpack]
      rcases hrest with ⟨hok, haligned⟩ | ⟨entry, hentry, hwrong⟩
      · exact .inl ⟨hok, List.forall_mem_cons.mpr ⟨fun h => absurd h hpack, haligned⟩⟩
      · exact .inr ⟨entry, List.mem_cons_of_mem _ hentry, hwrong⟩

/-- The fields of members, none of them packed. -/
def plainFields (ms : List Member) : List Field := ms.map fun m => ⟨m.name, m.type, false⟩

theorem map_unpacked_fieldOf (ms : List Member) :
    (ms.map fieldOf).map Std140.unpacked = plainFields ms := by
  rw [List.map_map]
  rfl

/-- The place of a member. -/
def placeOf (m : Member) : Place := ⟨m.name, m.offset, m.size⟩

/-- Members at the places of a plain layout. -/
structure Plain (structs : StructId → Option Layout) (ms : List Member) (l : Layout) : Prop where
  layout : Std140.ofFields structs (plainFields ms) = .ok l
  places : ms.map placeOf = l.places

section Places

variable {raw : List Member} {l : Layout}
  (h : List.Forall₂ (fun m place => place.name = m.name) raw l.places)

include h

theorem plainFields_placeMembers : plainFields (placeMembers raw l) = plainFields raw := by
  rw [placeMembers]
  generalize l.places = places at h
  induction h with
  | nil => rfl
  | cons _ _ ih =>
    rw [List.zipWith_cons_cons, plainFields, List.map_cons]
    exact congrArg _ ih

theorem map_placeOf_placeMembers : (placeMembers raw l).map placeOf = l.places := by
  rw [placeMembers]
  generalize l.places = places at h
  induction h with
  | nil => rfl
  | cons hname _ ih =>
    rw [List.zipWith_cons_cons, List.map_cons, ih, placeOf, ← hname]

/-- Packed fields are on their alignments if the placed members are. -/
theorem forall₂_onAlignment_iff (structs : StructId → Option Layout) :
    List.Forall₂ (Std140.OnAlignment structs) (raw.map fieldOf) l.places ↔
      ∀ m ∈ placeMembers raw l, m.attr = some .pack → ∀ e, Std140.extent structs m.type = .ok e →
        e.alignment ∣ m.offset := by
  rw [placeMembers, ← List.forall_iff_forall_mem, List.forall_zipWith h.length_eq,
    List.forall₂_map_left_iff]
  simp only [Std140.OnAlignment, fieldOf, beq_iff_eq]

theorem Plain.of_raw {structs : StructId → Option Layout}
    (hlayout : Std140.ofFields structs (plainFields raw) = .ok l) :
    Plain structs (placeMembers raw l) l :=
  ⟨(plainFields_placeMembers h).symm ▸ hlayout, map_placeOf_placeMembers h⟩

end Places

theorem names_of_filled {structs : StructId → Option Layout} {raw : List Member} {l : Layout}
    {field : Member → Field} (hname : ∀ m, (field m).name = m.name)
    (h : Std140.Filled structs (raw.map field) l) :
    List.Forall₂ (fun m place => place.name = m.name) raw l.places := by
  refine (List.forall₂_map_left_iff.mp h.placed).imp fun m place hplaced => ?_
  obtain ⟨e, hplaced⟩ := hplaced
  rw [hplaced.name, hname]

/-! ## Struct declarations -/

section Declarations

variable {ns : Namespace} {Known : DeclaredStruct → Prop} {origin owner : String}
  {fields : List Property} {raw : List Member} {defs : List StructDef}

/-- Typed members are on the alignments of their packed fields, and at the places of their plain
layout, or neither. -/
theorem exists_plain (hs : Std140.SoundStructs (layoutsOf defs))
    (htyped : List.Forall₂ (MemberOf ns origin) fields raw)
    (hknown : ∀ m ∈ raw, ∀ id, m.type.structId? = some id → id ∈ defs.map StructDef.id) :
    ∃ l plain, Std140.ofFields (layoutsOf defs) (raw.map fieldOf) = .ok l ∧
      Std140.ofFields (layoutsOf defs) (plainFields raw) = .ok plain ∧
      List.Forall₂ (fun m place => place.name = m.name) raw l.places ∧
      ((plain = l ∧ List.Forall₂ (Std140.OnAlignment (layoutsOf defs)) (raw.map fieldOf) l.places) ∨
        (l.offsets ≠ plain.offsets ∧
          ¬ List.Forall₂ (Std140.OnAlignment (layoutsOf defs)) (raw.map fieldOf) l.places)) := by
  have hextents := exists_extent_of_typed htyped hknown
  obtain ⟨l, hl⟩ : ∃ l, Std140.ofFields (layoutsOf defs) (raw.map fieldOf) = .ok l :=
    Std140.exists_ofFields (List.forall_mem_map.mpr hextents)
  obtain ⟨plain, hplain⟩ :
      ∃ plain, Std140.ofFields (layoutsOf defs) (plainFields raw) = .ok plain :=
    Std140.exists_ofFields (List.forall_mem_map.mpr hextents)
  have hsized := sized_fields_of_typed htyped
  refine ⟨l, plain, hl, hplain, ?_, ?_⟩
  · exact names_of_filled (fun _ => rfl) (Std140.ofFields_filled hs hsized hl)
  · rw [← map_unpacked_fieldOf] at hplain
    exact Std140.ofFields_unpacked hs hsized hl hplain

/-- The layout of a body is the plain one. -/
theorem Body.plain {l : Layout} (hs : Std140.SoundStructs (layoutsOf defs))
    (hb : Body ns origin defs fields raw l) : Plain (layoutsOf defs) (placeMembers raw l) l := by
  obtain ⟨l', plain, hl, hplain, hnames, hcases⟩ := exists_plain hs hb.typed hb.known
  obtain rfl := Except.ok.inj (hl.symm.trans hb.layout)
  have haligned :
      List.Forall₂ (Std140.OnAlignment (layoutsOf defs)) (raw.map fieldOf) l'.places := by
    rw [forall₂_onAlignment_iff hnames]
    intro m hm _ e he
    obtain ⟨e', hplace⟩ := (hb.arranged hs).inPlace m hm
    obtain rfl := Except.ok.inj (he.symm.trans hplace.extent)
    exact hplace.aligned
  rcases hcases with ⟨rfl, _⟩ | ⟨_, hwrong⟩
  · exact .of_raw hnames hplain
  · exact absurd haligned hwrong

/-- A struct whose members pass the other checks is rejected for a packed member off its alignment
exactly if packing has moved a member. -/
theorem structBody_unpacked {define : Definer} {underDefinition : List StructId}
    {defs' : List StructDef} (hcovers : CoversNames ns Known)
    (hdefines : Defines ns Known underDefinition define) (hdefs : Derived ns Known defs)
    (h : members ns define origin owner [] defs fields = .ok (raw, defs')) :
    ∃ l plain, Std140.ofFields (layoutsOf defs') (raw.map fieldOf) = .ok l ∧
      Std140.ofFields (layoutsOf defs') (plainFields raw) = .ok plain ∧
      (l.offsets = plain.offsets → plain = l ∧
        structBody ns define origin owner defs fields = .ok (placeMembers raw l, l, defs')) ∧
      (l.offsets ≠ plain.offsets → ∃ entry ∈ (placeMembers raw l).zip fields, ∃ e,
        entry.1.attr = some .pack ∧ Std140.extent (layoutsOf defs') entry.1.type = .ok e ∧
        ¬ e.alignment ∣ entry.1.offset ∧ structBody ns define origin owner defs fields =
          .error (misaligned origin entry.2 entry.1.offset e.alignment)) := by
  obtain ⟨htyped, _, _, hgrown, hknown⟩ := members_spec hcovers hdefines hdefs h
  obtain ⟨l, plain, hl, hplain, hnames, hcases⟩ := exists_plain hgrown.derived.sound htyped hknown
  have hextents : ∀ entry ∈ (placeMembers raw l).zip fields,
      ∃ e, Std140.extent (layoutsOf defs') entry.1.type = .ok e := fun entry hentry =>
    forall_placeMembers (P := fun t => ∃ e, Std140.extent (layoutsOf defs') t = .ok e)
      (exists_extent_of_typed htyped hknown) entry.1 (List.of_mem_zip hentry).1
  have hbody : structBody ns define origin owner defs fields =
      (checkAligned (layoutsOf defs') origin ((placeMembers raw l).zip fields)).map
        fun _ => (placeMembers raw l, l, defs') := by
    simp only [structBody, h, hl, fitting, bind, Except.bind]
    cases checkAligned (layoutsOf defs') origin ((placeMembers raw l).zip fields) <;> rfl
  have hlength : (placeMembers raw l).length ≤ fields.length := by
    rw [length_placeMembers hnames.length_eq, htyped.length_eq]
  have haligned := forall₂_onAlignment_iff hnames (layoutsOf defs')
  refine ⟨l, plain, hl, hplain, ?_⟩
  rw [hbody]
  rcases checkAligned_cases hextents with ⟨hok, hall⟩ | ⟨entry, hentry, e, hpack, he, hoff, herror⟩
  · have hplaced :
        List.Forall₂ (Std140.OnAlignment (layoutsOf defs')) (raw.map fieldOf) l.places := by
      rw [haligned, ← List.map_fst_zip hlength]
      exact List.forall_mem_map.mpr hall
    rcases hcases with ⟨rfl, _⟩ | ⟨_, hwrong⟩
    · exact ⟨fun _ => ⟨rfl, by rw [hok]; rfl⟩, fun hmoved => absurd rfl hmoved⟩
    · exact absurd hplaced hwrong
  · rcases hcases with ⟨_, hplaced⟩ | ⟨hmoved, _⟩
    · exact absurd (haligned.mp hplaced entry.1 (List.of_mem_zip hentry).1 hpack e he) hoff
    · exact ⟨fun heq => absurd heq hmoved,
        fun _ => ⟨entry, hentry, e, hpack, he, hoff, by rw [herror]; rfl⟩⟩

end Declarations

/-! ## Accepted models -/

/-- The layout of a struct from those in front of it, where no member is packed. -/
def addPlain (known : StructId → Option Layout) (d : StructDef) (id : StructId) : Option Layout :=
  if id = d.id then (Std140.ofFields known (plainFields d.members)).toOption else known id

/-- The layouts of structs, each from those in front of it, where no member is packed. -/
def plainLayouts (defs : List StructDef) : StructId → Option Layout :=
  defs.foldl addPlain fun _ => none

theorem layoutsOf_snoc {defs : List StructDef} {d : StructDef}
    (hfresh : d.id ∉ defs.map StructDef.id)
    (id : StructId) :
    layoutsOf (defs ++ [d]) id = if id = d.id then some d.layout else layoutsOf defs id := by
  rw [layoutsOf, List.find?_append]
  split
  · rename_i heq
    have hnone : defs.find? (·.id == id) = none := List.find?_eq_none.mpr fun d' hd' hid =>
      hfresh (List.mem_map.mpr ⟨d', hd', (eq_of_beq hid).trans heq⟩)
    rw [hnone, Option.none_or, heq]
    simp
  · rename_i hne
    have hnone : [d].find? (·.id == id) = none := by simpa using fun heq => hne heq.symm
    rw [hnone, Option.or_none, layoutsOf]

section Models

variable {ns : Namespace} {Known : DeclaredStruct → Prop}

theorem Defined.plain {defs : List StructDef} {d : StructDef}
    (hs : Std140.SoundStructs (layoutsOf defs)) (h : Defined ns Known defs d) :
    Plain (layoutsOf defs) d.members d.layout := by
  obtain ⟨decl, raw, _, _, hbody, hmembers⟩ := h.body
  rw [hmembers]
  exact hbody.plain hs

/-- Packing does not change the layouts of structs. -/
theorem Derived.layoutsOf_eq {defs : List StructDef} (h : Derived ns Known defs) :
    layoutsOf defs = plainLayouts defs := by
  induction h with
  | nil => rfl
  | @snoc defs d hdefs hd ih =>
    funext id
    rw [plainLayouts, List.foldl_append, List.foldl_cons, List.foldl_nil, ← plainLayouts, ← ih,
      layoutsOf_snoc hd.fresh, addPlain, (hd.plain hdefs.sound).layout]
    rfl

/-- The members of every defined struct are at their plain places. -/
theorem Derived.plain {defs : List StructDef} (h : Derived ns Known defs) {d : StructDef}
    (hd : d ∈ defs) : Plain (plainLayouts defs) d.members d.layout := by
  obtain ⟨decl, raw, _, _, hbody, hmembers⟩ := h.body hd
  rw [hmembers, ← h.layoutsOf_eq]
  exact hbody.plain h.sound

theorem Plain.extends {structs structs' : StructId → Option Layout} {ms : List Member} {l : Layout}
    (h : Plain structs ms l) (hs : Std140.Extends structs structs') : Plain structs' ms l :=
  ⟨Std140.ofFields_extends hs h.layout, h.places⟩

/-- The members of every buffer of an accepted model are at their plain places. -/
theorem Accepted.plain {m : Module} {imports : List ResolvedImport} {model : Model}
    (h : Accepted ns Known m imports model) {b : Buffer} (hb : b ∈ model.buffers) :
    Plain (plainLayouts model.structs) b.members b.layout := by
  rw [← h.structs.layoutsOf_eq]
  rcases h.buffers b hb with ⟨i, _, hi⟩ | ⟨roots, hroot, _, hroots⟩
  · obtain ⟨name, attr, fields, order, raw, _, _, _, hbody, heq⟩ := hi.source
    have hmembers : b.members = placeMembers raw b.layout := by rw [heq]
    rw [hmembers]
    exact hbody.plain h.structs.sound
  · obtain ⟨first, rest, _, heq⟩ := hroot.eq
    have hmembers : b.members = placeMembers (roots.map RootConstant.member) b.layout := by rw [heq]
    have hfilled := hroot.filled fun r hr => by
      obtain ⟨i, _, hi⟩ := hroots r hr
      exact ⟨i, hi⟩
    rw [hmembers]
    exact (Plain.of_raw (names_of_filled (fun _ => rfl) hfilled) hroot.layout).extends
      fun _ _ hl => by simp at hl

/-- A model all of whose layouts are plain. -/
structure PlainModel (m : Model) : Prop where
  layouts : layoutsOf m.structs = plainLayouts m.structs
  structs : ∀ d ∈ m.structs, Plain (plainLayouts m.structs) d.members d.layout
  buffers : ∀ b ∈ m.buffers, Plain (plainLayouts m.structs) b.members b.layout

/-- Slots have no part in layouts. -/
theorem PlainModel.of_unslotted_eq {m placed : Model} (h : PlainModel m)
    (hplaced : placed.unslotted = m.unslotted) : PlainModel placed := by
  have hstructs := structs_eq_of_unslotted hplaced
  have hbuffers : placed.unslotted.buffers = m.unslotted.buffers := by rw [hplaced]
  refine ⟨hstructs ▸ h.layouts, hstructs ▸ h.structs, fun b hb => ?_⟩
  have hb' : { b with binding := unassigned } ∈ m.unslotted.buffers :=
    hbuffers ▸ List.mem_map_of_mem hb
  obtain ⟨b', hb', heq⟩ := List.mem_map.mp hb'
  obtain ⟨_, hmembers, _, _, _, _, hlayout, _⟩ := Buffer.mk.inj heq
  rw [hstructs, ← hmembers, ← hlayout]
  exact h.buffers b' hb'

end Models

end Model

/-! ## Declarations -/

namespace Glsl

/-- A struct is declared without offsets, and so is a buffer for versions that do not know them. -/
def Offsetless (o : Options) (m : Model) : Declaration → Prop
  | .struct id ms => ∃ d ∈ m.structs, d.id = id ∧ ms = structMembers d.members
  | .block _ name ms _ =>
    o.memberOffsets? = some false → ∃ b ∈ m.buffers, b.name = name ∧ ms = structMembers b.members
  | _ => True

theorem MadeOf.offsetless {o : Options} {m : Model} {d : Declaration} (h : MadeOf o m d) :
    Offsetless o m d := by
  cases h with
  | struct d hd => exact ⟨d, hd, rfl, rfl⟩
  | block b members hb hmembers =>
    intro hversion
    refine ⟨b, hb, rfl, ?_⟩
    have hstated : List.Forall₂ (fun mem d => d = (⟨none, mem.type, mem.name⟩ : MemberDeclaration))
        b.members members := hmembers.imp fun mem d hd => by
      rw [blockMember, hversion] at hd
      exact (Except.ok.inj hd).symm
    rw [structMembers]
    exact (List.map_id members).symm.trans (map_eq_of_forall₂ hstated fun _ _ h => h)
  | _ => trivial

end Glsl

/-! ## All of it -/

namespace Model

open Layout

/-- Packing is allowed only where it moves nothing.  A struct whose members pass the other checks
has its plain layout, or it is reported for a packed member off its alignment because packing has
moved a member.  So all layouts of a model are plain, and a shader computes the same ones for the
structs and buffers that are declared without offsets. -/
theorem layouts_unpacked (ns : Namespace) :
    (∀ (fuel : Nat) (underDefinition : List StructId) (defs defs' : List StructDef)
      (origin owner : String) (fields : List Property) (raw : List Member),
      Derived ns (fun _ => True) defs →
      members ns (define ns fuel underDefinition) origin owner [] defs fields = .ok (raw, defs') →
      ∃ l plain, Std140.ofFields (layoutsOf defs') (raw.map fieldOf) = .ok l ∧
        Std140.ofFields (layoutsOf defs') (plainFields raw) = .ok plain ∧
        (l.offsets = plain.offsets → plain = l ∧
          structBody ns (define ns fuel underDefinition) origin owner defs fields =
            .ok (placeMembers raw l, l, defs')) ∧
        (l.offsets ≠ plain.offsets → ∃ entry ∈ (placeMembers raw l).zip fields, ∃ e,
          entry.1.attr = some .pack ∧ Std140.extent (layoutsOf defs') entry.1.type = .ok e ∧
          ¬ e.alignment ∣ entry.1.offset ∧
          structBody ns (define ns fuel underDefinition) origin owner defs fields =
            .error (misaligned origin entry.2 entry.1.offset e.alignment))) ∧
    ∀ (m : Module) (stage : Stage) (imports : List ResolvedImport) (model placed : Model),
      build m stage ns imports = .ok model → placed.unslotted = model.unslotted →
      PlainModel placed ∧ ∀ (o : Options) (a : Source.Annotated) (is : List Glsl.Item),
        Glsl.items a placed o = .ok is →
        ∀ item ∈ is, ∀ d ∈ item.declarations, Glsl.Offsetless o placed d := by
  have hcovers : CoversNames ns fun _ => True := fun _ _ _ _ => trivial
  constructor
  · intro fuel underDefinition defs defs' origin owner fields raw hdefs hraw
    exact structBody_unpacked hcovers (define_spec hcovers fuel underDefinition) hdefs hraw
  · intro m stage imports model placed hbuild hplaced
    have haccepted := accepted_of_build hbuild
    have hplain : PlainModel model :=
      ⟨haccepted.structs.layoutsOf_eq, fun _ hd => haccepted.structs.plain hd,
        fun _ hb => haccepted.plain hb⟩
    have hemittable := (build_emittable hbuild).of_unslotted_eq hplaced
    exact ⟨hplain.of_unslotted_eq hplaced,
      fun o a is his item hitem d hd =>
        (Glsl.items_madeOf hemittable his item hitem d hd).offsetless⟩

/-- A packed field. -/
def packedField (type name : String) (index : Nat) : Property :=
  ⟨⟨type, none, none⟩, name, some .pack, index, .start⟩

/-- A buffer with a struct of two packed fields. -/
def rig : Module :=
  ⟨"rig", [⟨.start, .declare (.buffer "Blade" (some .pack)
      [packedField "float" "Edge" 0, packedField "float" "Width" 1])⟩,
    ⟨.start, .declare (.buffer "Rig" none
      [⟨⟨"Blade", none, none⟩, "Tip", none, 0, .start⟩, packedField "vec2f" "Reach" 1])⟩]⟩

/-- A packed vector behind a packed number. -/
def torn : List Property := [packedField "float" "P" 0, packedField "vec2f" "Y" 1]

/-- The vector is off its alignment, and the rig is accepted. -/
theorem layouts_unpacked_rig :
    structBody (.ofModules [rig]) (define (.ofModules [rig]) 1 []) "rig" "Torn" [] torn =
      .error (.at_ "rig" .start (.misuse (.packMisaligned "Y" 4 8))) ∧
    ∃ model, build rig .pixel (.ofModules [rig]) [] = .ok model ∧
      (model.structs.map fun d => (d.members.map Member.offset, d.layout.size)) = [([0, 4], 16)] ∧
      (model.buffers.map fun b => (b.members.map Member.offset, b.layout.size)) =
        [([0, 16], 32)] ∧
      PlainModel model := by
  obtain ⟨hdeclared, hbuilt⟩ := layouts_unpacked (.ofModules [rig])
  constructor
  · have hmembers :
        members (.ofModules [rig]) (define (.ofModules [rig]) 1 []) "rig" "Torn" [] [] torn =
        .ok ([⟨"P", .scalar .float, "float", some .pack, 0, 0, 0⟩,
          ⟨"Y", .vector "vec2f" .float 2, "vec2f", some .pack, 1, 0, 0⟩], []) := by decide +kernel
    obtain ⟨l, plain, hl, hplain, -, hmoved⟩ := hdeclared _ _ _ _ _ _ _ _ .nil hmembers
    obtain rfl : ⟨[⟨"P", 0, 4⟩, ⟨"Y", 4, 8⟩], 16, 16⟩ = l :=
      Except.ok.inj (Eq.trans (by decide +kernel) hl)
    obtain rfl : ⟨[⟨"P", 0, 4⟩, ⟨"Y", 8, 8⟩], 16, 16⟩ = plain :=
      Except.ok.inj (Eq.trans (by decide +kernel) hplain)
    obtain ⟨entry, hentry, e, -, he, hoff, herror⟩ := hmoved (by decide)
    rcases List.mem_cons.mp hentry with rfl | hentry
    · exact absurd (Int.dvd_zero e.alignment) hoff
    · obtain rfl := List.mem_singleton.mp hentry
      obtain rfl : ⟨8, 8⟩ = e := Except.ok.inj he
      rw [herror]
      decide +kernel
  · obtain ⟨model, hmodel, hoffsets⟩ := exists_eq_ok_of_any
      (show ((build rig .pixel (.ofModules [rig]) []).toOption.any fun model =>
        (model.structs.map fun d => (d.members.map Member.offset, d.layout.size)) = [([0, 4], 16)] ∧
        (model.buffers.map fun b => (b.members.map Member.offset, b.layout.size)) =
          [([0, 16], 32)]) = true by decide +kernel)
    obtain ⟨hstructs, hbuffers⟩ := of_decide_eq_true hoffsets
    exact ⟨model, hmodel, hstructs, hbuffers, (hbuilt _ _ _ _ model hmodel rfl).1⟩

end Model

end AnnotatedShader
