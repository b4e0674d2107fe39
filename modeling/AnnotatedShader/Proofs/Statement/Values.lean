import AnnotatedShader.Proofs.Number.Rounding
import AnnotatedShader.Proofs.Statement.Parsing

set_option autoImplicit false

/-!
# Values of state entries

The floating numbers in the state entries of a text are in their one form.

A floating literal is read as a binary64 value, and reading gives canonical values only;
`Module.Canonical` says it of all entries of a module.  Values of documents are compared as such, so
without it two forms of one value would be told apart.
-/

namespace AnnotatedShader

/-- The state entries of a declaration. -/
def Declaration.entries : Declaration → List StateEntry
  | .pipeline _ entries | .blendFunc _ entries => entries
  | .buffer _ _ _ | .constant _ | .output _ | .vertexFormat _ _ _ => []

/-- The state entries of a statement. -/
def StatementBody.entries : StatementBody → List StateEntry
  | .declare d => d.entries
  | .use _ | .comment _ => []

/-- A value that is no floating number, or one in its one form. -/
def StateValue.Canonical (v : StateValue) : Prop := ∀ x, v = .float x → x.Canonical

/-- All floating numbers of a file are in their one form. -/
def Module.Canonical (m : Module) : Prop :=
  ∀ s ∈ m.statements, ∀ e ∈ s.body.entries, e.value.Canonical

namespace Statement

open Grammar

theorem valueOfToken_canonical {t : Token} {v : StateValue} (h : valueOfToken t = .ok v) :
    v.Canonical := by
  unfold valueOfToken at h
  intro x hx
  subst hx
  split at h
  · obtain rfl := StateValue.float.inj (Except.ok.inj h)
    exact Number.Binary64.ofText_canonical _
  · split at h <;> simp at h
  · simp at h
  · simp at h
  · simp at h

theorem entriesOfTrees_canonical {ts : List EntryTree} {es : List StateEntry}
    (h : entriesOfTrees ts = .ok es) : ∀ e ∈ es, e.value.Canonical := by
  induction ts generalizing es with
  | nil =>
    obtain rfl := Except.ok.inj h
    simp
  | cons t rest ih =>
    simp only [entriesOfTrees, bind_eq_ok_iff] at h
    obtain ⟨v, hv, others, hothers, h⟩ := h
    obtain rfl := Except.ok.inj h
    exact List.forall_mem_cons.mpr ⟨valueOfToken_canonical hv, ih hothers⟩

variable {file : String}

theorem bodyOfTree_canonical {t : StatementTree} {b : StatementBody}
    (h : bodyOfTree file t = .ok b) :
    ∀ e ∈ b.entries, e.value.Canonical := by
  cases t with
  | use =>
    obtain rfl := Except.ok.inj h
    simp [StatementBody.entries]
  | buffer | vertexFormat =>
    simp only [bodyOfTree, bind_eq_ok_iff] at h
    obtain ⟨_, _, _, _, h⟩ := h
    obtain rfl := Except.ok.inj h
    simp [StatementBody.entries, Declaration.entries]
  | constant | output =>
    simp only [bodyOfTree, bind_eq_ok_iff] at h
    obtain ⟨_, _, h⟩ := h
    obtain rfl := Except.ok.inj h
    simp [StatementBody.entries, Declaration.entries]
  | pipeline | blendFunc =>
    simp only [bodyOfTree, bind_eq_ok_iff] at h
    obtain ⟨_, hentries, h⟩ := h
    obtain rfl := Except.ok.inj h
    exact entriesOfTrees_canonical hentries

theorem ofPhrases_canonical {ps : List Phrase} {ss : List Statement}
    (h : ofPhrases file ps = .ok ss) : Module.Canonical ⟨file, ss⟩ := by
  induction ps generalizing ss with
  | nil =>
    obtain rfl := Except.ok.inj h
    simp [Module.Canonical]
  | cons p rest ih =>
    simp only [ofPhrases, bind_eq_ok_iff] at h
    obtain ⟨body, hbody, others, hothers, h⟩ := h
    obtain rfl := Except.ok.inj h
    exact List.forall_mem_cons.mpr ⟨bodyOfTree_canonical hbody, ih hothers⟩

/-- Every floating number in the state entries of a text is in its one form. -/
theorem parse_canonical {text : String} {ss : List Statement} (h : parse file text = .ok ss) :
    Module.Canonical ⟨file, ss⟩ := by
  obtain ⟨ps, _, found, hfound, rfl⟩ := parse_eq_ok_iff.mp h
  intro s hs
  rw [inOrder, List.mem_mergeSort, List.mem_append] at hs
  rcases hs with hs | hs
  · exact ofPhrases_canonical hfound s hs
  · obtain ⟨t, _, rfl⟩ := List.mem_map.mp hs
    simp [StatementBody.entries]

end Statement

end AnnotatedShader
