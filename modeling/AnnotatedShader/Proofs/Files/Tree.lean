import AnnotatedShader.Files.Tree
import AnnotatedShader.Proofs.Except

set_option autoImplicit false

/-!
# What file trees keep

Where a path leads is a matter of its names alone, as far as it leads anywhere.  A directory is made
in an empty place, and writing a file changes one place.

Paths are located by a walk over their names.  `walk_append` puts walks together, so the place of a
file below a directory is known from that of the directory (`exists_name_of_locate`).  `Rooted` is
the invariant of a walk, by which the root of a tree is never the place of a file.

`Keeps` relates two trees when all files of the first are in the second with their texts.  Making
directories keeps a tree (`makeDirectory_keeps`); writing a text is a change at one place
(`writeText_eq_ok`).  The theorem about what the command line leaves alone needs no more than these.
-/

namespace AnnotatedShader

namespace Location

/-- Where the names of a path lead, if the directories that it goes through are there. -/
def ofPath (p : Path) : Location := p.names.foldl step (startOf p)

theorem ofPath_child (p : Path) (name : String) : ofPath (p.child name) = (ofPath p).step name := by
  have hstart : startOf (p.child name) = startOf p := rfl
  rw [ofPath, hstart, Path.child, List.foldl_append, ofPath]
  rfl

theorem getLast?_step {l : Location} {name : String} (h : name ≠ "..") :
    (l.step name).names.getLast? = some name := by
  rw [step, if_neg h, List.getLast?_concat]

/-- One directory up, the names are those but the last. -/
theorem up_names (l : Location) : l.up.names = l.names.dropLast := by
  obtain ⟨anchor, names⟩ := l
  cases names <;> cases anchor <;> rfl

theorem up_eq_of_names_ne_nil {l : Location} (h : l.names ≠ []) :
    l.up = { l with names := l.names.dropLast } := by
  obtain ⟨anchor, names⟩ := l
  cases names with
  | nil => exact absurd rfl h
  | cons name rest => cases anchor <;> rfl

end Location

namespace FileTree

variable {t t' : FileTree} {l l' : Location} {p : Path}

/-! ## Walks -/

theorem walk_cons_eq_ok {name : String} {names : List String}
    (h : t.walk l (name :: names) = .ok l') :
    t.node? l = some .directory ∧ t.walk (l.step name) names = .ok l' := by
  rw [walk] at h
  split at h
  · contradiction
  · contradiction
  · rename_i hnode
    split at h
    · contradiction
    · exact ⟨hnode, h⟩

theorem walk_eq_ok {names : List String} (h : t.walk l names = .ok l') :
    l' = names.foldl Location.step l := by
  induction names generalizing l with
  | nil => exact (Except.ok.inj h).symm
  | cons name rest ih => exact ih (walk_cons_eq_ok h).2

theorem locate_eq_walk (h : t.locate p = .ok l) : t.walk (.startOf p) p.names = .ok l := by
  unfold locate locateSpelled at h
  split at h
  · contradiction
  · exact h

theorem locate_eq_ok (h : t.locate p = .ok l) : l = .ofPath p := walk_eq_ok (locate_eq_walk h)

/-- Everything above a location is a directory. -/
def Rooted (t : FileTree) (l : Location) : Prop :=
  ∀ k < l.names.length, t.node? { l with names := l.names.take k } = some .directory

theorem node?_of_names_eq_nil (h : l.names = []) : t.node? l = some .directory := by
  rw [node?, h]
  rfl

/-- In a walk there are directories above, and one where it leads up to. -/
theorem Rooted.up (h : t.Rooted l) : t.Rooted l.up ∧ t.node? l.up = some .directory := by
  by_cases hnames : l.names = []
  · have hup : l.up.names = [] := by rw [Location.up_names, hnames, List.dropLast_nil]
    refine ⟨fun k hk => ?_, node?_of_names_eq_nil hup⟩
    rw [hup] at hk
    contradiction
  · have hlength : l.names.length - 1 < l.names.length :=
      Nat.sub_lt (List.length_pos_iff.mpr hnames) Nat.one_pos
    rw [Location.up_eq_of_names_ne_nil hnames]
    refine ⟨fun k hk => ?_, ?_⟩
    · simp only [List.length_dropLast] at hk
      have htake : l.names.dropLast.take k = l.names.take k := by
        rw [List.dropLast_eq_take, List.take_take, Nat.min_eq_left (Nat.le_of_lt hk)]
      simp only [htake]
      exact h k (Nat.lt_trans hk hlength)
    · rw [List.dropLast_eq_take]
      exact h _ hlength

theorem Rooted.step (h : t.Rooted l) (hnode : t.node? l = some .directory) (name : String) :
    t.Rooted (l.step name) := by
  rw [Location.step]
  split
  · exact h.up.1
  · intro k hk
    rw [List.length_append, List.length_singleton] at hk
    rcases Nat.lt_succ_iff_lt_or_eq.mp hk with hlt | rfl
    · simp only [List.take_append_of_le_length (Nat.le_of_lt hlt)]
      exact h k hlt
    · simp only [List.take_left]
      exact hnode

theorem walk_rooted {names : List String} (hl : t.Rooted l) (h : t.walk l names = .ok l') :
    t.Rooted l' := by
  induction names generalizing l with
  | nil => exact Except.ok.inj h ▸ hl
  | cons name rest ih =>
    obtain ⟨hnode, hrest⟩ := walk_cons_eq_ok h
    exact ih (hl.step hnode name) hrest

theorem walk_append (names more : List String) (l : Location) :
    t.walk l (names ++ more) = t.walk l names >>= (t.walk · more) := by
  induction names generalizing l with
  | nil => rfl
  | cons name rest ih =>
    simp only [List.cons_append, walk, ih]
    split
    · rfl
    · rfl
    · split <;> rfl

theorem startOf_names (p : Path) : (Location.startOf p).names = [] := by
  rw [Location.startOf]
  split <;> rfl

theorem rooted_startOf (p : Path) : t.Rooted (.startOf p) := by
  intro k hk
  rw [startOf_names] at hk
  contradiction

/-- A path that leads to a file ends with the name of the file. -/
theorem exists_name_of_locate {text : String} (h : t.locate p = .ok l)
    (hfile : t.node? l = some (.file text)) :
    ∃ name, p.names.getLast? = some name ∧ l.names.getLast? = some name := by
  have hwalk := locate_eq_walk h
  rcases List.eq_nil_or_concat p.names with hnil | ⟨names, name, hnames⟩
  · rw [hnil] at hwalk
    obtain rfl := Except.ok.inj hwalk
    rw [node?_of_names_eq_nil (startOf_names p)] at hfile
    cases hfile
  · rw [hnames, List.concat_eq_append] at hwalk
    rw [walk_append, bind_eq_ok_iff] at hwalk
    obtain ⟨mid, hmid, hlast⟩ := hwalk
    have hrooted := walk_rooted (rooted_startOf p) hmid
    obtain ⟨hnode, hlast⟩ := walk_cons_eq_ok hlast
    obtain rfl := Except.ok.inj hlast
    have hname : name ≠ ".." := by
      rintro rfl
      rw [Location.step, if_pos rfl, hrooted.up.2] at hfile
      cases hfile
    exact ⟨name, by rw [hnames, List.concat_eq_append, List.getLast?_concat],
      Location.getLast?_step hname⟩

/-! ## Changes -/

/-- What stands in a tree stands in another one as well. -/
def Keeps (t t' : FileTree) : Prop := ∀ l n, t.node? l = some n → t'.node? l = some n

theorem Keeps.refl (t : FileTree) : t.Keeps t := fun _ _ h => h

theorem Keeps.trans {t'' : FileTree} (h : t.Keeps t') (h' : t'.Keeps t'') : t.Keeps t'' :=
  fun l n hn => h' l n (h l n hn)

theorem makeOne_keeps (h : t.makeOne p = .ok t') : t.Keeps t' := by
  unfold makeOne at h
  rw [bind_eq_ok_iff] at h
  obtain ⟨l, _, h⟩ := h
  split at h
  · rename_i hempty
    obtain rfl := Except.ok.inj h
    intro l' n hn
    have hne : l' ≠ l := by
      rintro rfl
      rw [hempty] at hn
      contradiction
    rw [node?_put_of_ne _ hne, hn]
  · exact Except.ok.inj h ▸ Keeps.refl t
  · contradiction

theorem makeFrom_keeps {root : String} {names : List String} (h : t.makeFrom root names = .ok t') :
    t.Keeps t' := by
  induction names generalizing t' with
  | nil => exact Except.ok.inj h ▸ Keeps.refl t
  | cons name before ih =>
    simp only [makeFrom] at h
    split at h
    · rw [bind_eq_ok_iff] at h
      obtain ⟨mid, hmid, h⟩ := h
      exact (ih hmid).trans (makeOne_keeps h)
    · exact makeOne_keeps h

theorem makeDirectory_keeps (h : t.makeDirectory p = .ok t') : t.Keeps t' := makeFrom_keeps h

/-- Writing a file changes the place that its path leads to, and no other. -/
theorem writeText_eq_ok {text : String} (h : t.writeText p text = .ok t') :
    t'.node? (.ofPath p) = some (.file text) ∧ ∀ l ≠ .ofPath p, t'.node? l = t.node? l := by
  unfold writeText at h
  rw [bind_eq_ok_iff] at h
  obtain ⟨l, hl, h⟩ := h
  obtain rfl := locate_eq_ok hl
  split at h
  · contradiction
  · rename_i hnode
    obtain rfl := Except.ok.inj h
    have hnames : (Location.ofPath p).names ≠ [] := fun hnil => hnode (node?_of_names_eq_nil hnil)
    exact ⟨node?_put_self _ hnames, fun l hne => node?_put_of_ne _ hne⟩

end FileTree

end AnnotatedShader
