import AnnotatedShader.Proofs.Model.Build
import AnnotatedShader.Proofs.Namespace.Imports

set_option autoImplicit false

/-!
# Introductions

A file introduces a symbol by declaring it or by importing it (`Module.Brings`).  In a file whose
names are distinct one statement at most introduces a name, and every symbol that is introduced is
one that its file exports.

Visits are given introductions, with the index and position of a statement and the declaration that
it stands for.  `IntroducedBy` relates the two without a visit, so that what is known of a
declaration by its statement is known of what the visit is given.  Theorems that compare two files
of a batch use that both may introduce one symbol.
-/

namespace AnnotatedShader

/-- A file declares or imports a symbol, under a local name. -/
inductive Module.Brings (m : Module) (sym : Symbol) : String → Prop
  | declares (hfile : m.file = sym.file)
    (hstatement : ⟨sym.position, .declare sym.declaration⟩ ∈ m.statements) : Brings m sym sym.name
  | imports (position : Position) (u : Use) (hfile : u.file = sym.file)
    (hmember : u.member = sym.name) (hstatement : ⟨position, .use u⟩ ∈ m.statements) :
    Brings m sym u.name

namespace Model

/-- The symbol that is introduced. -/
def Introduction.symbol (i : Introduction) : Symbol := ⟨i.origin, i.declared, i.declaration⟩

variable {file : String} {imports : List ResolvedImport}

/-- How a statement introduces something. -/
inductive IntroducedBy (file : String) (imports : List ResolvedImport) (index : Nat)
    (s : Statement) : Introduction → Prop
  | declare (d : Declaration) (hbody : s.body = .declare d) :
    IntroducedBy file imports index s ⟨d.name, file, s.position, index, s.position, d⟩
  | use (r : ResolvedImport) (hbody : s.body = .use r.use) (hmem : r ∈ imports) :
    IntroducedBy file imports index s ⟨r.use.name, r.target.file, r.target.position, index,
      s.position, r.target.declaration⟩

theorem introducedBy_of_introduction? {index : Nat} {s : Statement} {i : Introduction}
    (h : introduction? file imports index s = .ok (some i)) :
    IntroducedBy file imports index s i := by
  unfold introduction? at h
  split at h
  · simp at h
  · rename_i d hbody
    obtain rfl := Option.some.inj (Except.ok.inj h)
    exact .declare d hbody
  · rename_i u hbody
    split at h
    · simp at h
    · rename_i r hfind
      obtain rfl := Option.some.inj (Except.ok.inj h)
      have hmatch := List.find?_some hfind
      simp only [Bool.and_eq_true, beq_iff_eq] at hmatch
      obtain ⟨rfl, _⟩ := hmatch
      exact .use r hbody (List.mem_of_find?_eq_some hfind)

theorem IntroducedBy.name? {index : Nat} {s : Statement} {i : Introduction}
    (h : IntroducedBy file imports index s i) : s.name? = some i.name := by
  cases h with
  | declare d hbody => simp [Statement.name?, hbody]
  | use r hbody => simp [Statement.name?, hbody]

theorem Introduces.introducedBy {index : Nat} {statements : List Statement} {i : Introduction}
    (h : Introduces file imports index statements i) :
    ∃ k, ∃ s ∈ statements, IntroducedBy file imports k s i := by
  obtain ⟨k, s, hs, hi⟩ := h
  exact ⟨index + k, s, List.mem_of_getElem? hs, introducedBy_of_introduction? hi⟩

theorem Introduces.name_mem {index : Nat} {statements : List Statement} {i : Introduction}
    (h : Introduces file imports index statements i) :
    i.name ∈ statements.filterMap Statement.name? := by
  obtain ⟨_, s, hs, hi⟩ := h.introducedBy
  exact List.mem_filterMap.mpr ⟨s, hs, hi.name?⟩

/-- One statement at most introduces a name. -/
theorem Introduces.eq_of_name {index : Nat} {statements : List Statement}
    (hnames : (statements.filterMap Statement.name?).Nodup) {i j : Introduction}
    (hi : Introduces file imports index statements i)
    (hj : Introduces file imports index statements j) (hname : i.name = j.name) : i = j := by
  induction statements generalizing index with
  | nil =>
    obtain ⟨k, s, hs, _⟩ := hi
    simp at hs
  | cons s rest ih =>
    -- a name that the first statement introduces is not introduced again
    have hfresh : ∀ {a b : Introduction}, introduction? file imports index s = .ok (some a) →
        Introduces file imports (index + 1) rest b → a.name ≠ b.name := by
      intro a b ha hb heq
      rw [List.filterMap_cons_some (introducedBy_of_introduction? ha).name?] at hnames
      exact (List.nodup_cons.mp hnames).1 (heq ▸ hb.name_mem)
    have hrest : (rest.filterMap Statement.name?).Nodup :=
      hnames.sublist ((List.sublist_cons_self s rest).filterMap _)
    rcases introduces_cons_iff.mp hi with hi | hi <;> rcases introduces_cons_iff.mp hj with hj | hj
    · exact Option.some.inj (Except.ok.inj (hi.symm.trans hj))
    · exact absurd hname (hfresh hi hj)
    · exact absurd hname.symm (hfresh hj hi)
    · exact ih hrest hi hj

/-- What a file brings is introduced by one of its statements. -/
theorem introduces_of_brings {ns : Namespace} {m : Module} {sym : Symbol} {name : String}
    (himports : List.Forall₂ (Resolves ns) m.uses imports)
    (hlookup : ns.lookup sym.file sym.name = some sym) (h : m.Brings sym name) :
    ∃ i, Introduces m.file imports 0 m.statements i ∧ i.name = name ∧ i.symbol = sym := by
  cases h with
  | declares hfile hstatement =>
    obtain ⟨k, hk, hget⟩ := List.getElem_of_mem hstatement
    refine ⟨⟨sym.name, m.file, sym.position, 0 + k, sym.position, sym.declaration⟩,
      ⟨k, _, List.getElem?_eq_some_iff.mpr ⟨hk, hget⟩, rfl⟩, rfl, ?_⟩
    rw [Introduction.symbol, hfile]
  | imports position u hfile hmember hstatement =>
    obtain ⟨k, hk, hget⟩ := List.getElem_of_mem hstatement
    have huse := Module.mem_uses hstatement rfl
    obtain ⟨r, hr, hresolves⟩ := exists_right_of_forall₂ himports huse
    have hfound : (imports.find? fun r => r.use == u && r.position == position).isSome := by
      rw [List.find?_isSome]
      exact ⟨r, hr, by simp [hresolves.use, hresolves.position]⟩
    obtain ⟨r, hfind⟩ := Option.isSome_iff_exists.mp hfound
    obtain ⟨entry, _, hresolves⟩ :=
      exists_left_of_forall₂ himports (List.mem_of_find?_eq_some hfind)
    have hmatch := List.find?_some hfind
    simp only [Bool.and_eq_true, beq_iff_eq] at hmatch
    have htarget : r.target = sym := by
      have hlookup' := hresolves.lookup
      rw [← hresolves.use, hmatch.1, hfile, hmember, hlookup] at hlookup'
      exact (Option.some.inj hlookup').symm
    refine ⟨⟨u.name, r.target.file, r.target.position, 0 + k, position, r.target.declaration⟩,
      ⟨k, _, List.getElem?_eq_some_iff.mpr ⟨hk, hget⟩, ?_⟩, rfl, htarget⟩
    simp [introduction?, hfind]

/-- What a statement introduces is exported by the file that declares it. -/
theorem lookup_of_introduces {ms : List Module} {m : Module} (hm : m ∈ ms)
    (honly : ∀ m' ∈ ms, m'.file = m.file → m' = m) (hnames : (namesOf m).Nodup)
    (himports : List.Forall₂ (Resolves (Namespace.ofModules ms)) m.uses imports) {i : Introduction}
    (h : Introduces m.file imports 0 m.statements i) :
    (Namespace.ofModules ms).lookup i.symbol.file i.symbol.name = some i.symbol := by
  obtain ⟨k, s, hs, hi⟩ := h.introducedBy
  cases hi with
  | declare d hbody =>
    exact Namespace.lookup_ofModules_declared hm honly
      (hnames.sublist m.declarations_names_sublist) (Module.mem_declarations hs hbody)
  | use r hbody hmem =>
    obtain ⟨entry, _, hresolves⟩ := exists_left_of_forall₂ himports hmem
    obtain ⟨hfile, hname, _⟩ := Namespace.lookup_ofModules_eq_some hresolves.lookup
    show (Namespace.ofModules ms).lookup r.target.file r.target.name = some r.target
    rw [hfile, hname]
    exact hresolves.lookup

end Model

end AnnotatedShader
