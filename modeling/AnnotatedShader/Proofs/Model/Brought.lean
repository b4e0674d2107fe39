import AnnotatedShader.Proofs.Model.Agreement
import AnnotatedShader.Proofs.Model.Entity
import AnnotatedShader.Proofs.Model.Failures
import AnnotatedShader.Proofs.Model.Provenance
import AnnotatedShader.Proofs.Namespace.Rearranged
import AnnotatedShader.Proofs.Statement.Rearranged

set_option autoImplicit false

/-!
# What a file brings

The statements of a file introduce declarations one after the other, its own ones and those that it
imports.  Without positions, what they introduce can be read off the contents of the file.

`introductions` lists them, with the index and position of each, and a build is a fold of visits
over this list (`visitAll_eq_foldlM`).  A statement brings one declaration at most
(`StatementBody.brought?`), and the series that it belongs to is that of the declaration, also for
an import.  So when statements are rearranged, what the file introduces in each series is the same
list, up to indices and positions (`map_brought_introductions`).
-/

namespace AnnotatedShader

namespace Model

/-! ## Introductions in order -/

/-- What the statements of a list introduce, in order. -/
def introductions (file : String) (imports : List ResolvedImport) :
    (index : Nat) → List Statement → List Introduction
  | _, [] => []
  | index, s :: rest =>
    (introduction? file imports index s).toOption.join.toList ++
      introductions file imports (index + 1) rest

variable {ns : Namespace} {file : String} {imports : List ResolvedImport}

theorem introduction?_eq_ok (file : String) (index : Nat) {s : Statement}
    (h : ∀ u, s.body = .use u → ∃ r ∈ imports, r.use = u ∧ r.position = s.position) :
    ∃ i?, introduction? file imports index s = .ok i? := by
  unfold introduction?
  split
  · exact ⟨_, rfl⟩
  · exact ⟨_, rfl⟩
  · rename_i u hbody
    obtain ⟨r, hr, huse, hposition⟩ := h u hbody
    split
    · rename_i hnone
      exact absurd (by simp [huse, hposition]) (List.find?_eq_none.mp hnone r hr)
    · exact ⟨_, rfl⟩

/-- Statements whose imports are resolved are visited by what they introduce. -/
theorem visitAll_eq_foldlM {statements : List Statement} (h : Resolved imports statements)
    (index : Nat) (d : Draft) : visitAll ns file imports index d statements =
      (introductions file imports index statements).foldlM (visit ns file) d := by
  induction statements generalizing index d with
  | nil => rfl
  | cons s rest ih =>
    have hrest := ih fun t ht => h t (List.mem_cons_of_mem _ ht)
    obtain ⟨i?, hi⟩ := introduction?_eq_ok file index (h s List.mem_cons_self)
    rw [visitAll, introductions, hi]
    cases i? with
    | none => exact hrest _ _
    | some i =>
      show (visit ns file d i >>= fun d => visitAll ns file imports (index + 1) d rest) = _
      exact congrArg _ (funext fun d => hrest _ d)

theorem mem_introductions {index : Nat} {statements : List Statement} {i : Introduction} :
    i ∈ introductions file imports index statements ↔
      Introduces file imports index statements i := by
  induction statements generalizing index with
  | nil => simp [introductions, Introduces]
  | cons s rest ih =>
    rw [introductions, List.mem_append, ih, introduces_cons_iff, Option.mem_toList]
    refine or_congr_left ?_
    cases introduction? file imports index s with
    | error e => simp [Except.toOption]
    | ok i? => cases i? <;> simp [Except.toOption]

/-- What is introduced later has a greater index. -/
theorem pairwise_introductions (index : Nat) (statements : List Statement) :
    (introductions file imports index statements).Pairwise fun i j => i.index < j.index := by
  induction statements generalizing index with
  | nil => exact .nil
  | cons s rest ih =>
    rw [introductions]
    cases hi : introduction? file imports index s with
    | error e => exact ih _
    | ok i? =>
      cases i? with
      | none => exact ih _
      | some i =>
        refine List.pairwise_cons.mpr ⟨fun j hj => ?_, ih _⟩
        rw [(introducedBy_of_introduction? hi).index_eq]
        exact (mem_introductions.mp hj).le_index

end Model

/-! ## What statements bring -/

/-- What a statement brings into its file, without positions: a name there and a symbol. -/
def StatementBody.brought? (ns : Namespace) (file : String) :
    StatementBody → Option (String × Symbol)
  | .use u => (ns.lookup u.file u.member).map fun s => (u.name, s.unsited)
  | .declare d => some (d.name, ⟨file, .nowhere, d⟩)
  | .comment _ => none

/-- The series of what is brought. -/
def broughtSeries? (b : String × Symbol) : Option Series := b.2.declaration.product.series?

theorem StatementBody.series?_eq (ns : Namespace) (file : String) (b : StatementBody) :
    b.series? ns = (b.brought? ns file).bind broughtSeries? := by
  cases b with
  | use u =>
    rw [series?, brought?]
    cases ns.lookup u.file u.member with
    | none => rfl
    | some s => simp [broughtSeries?, Symbol.unsited]
  | declare d => rfl
  | comment text => rfl

/-- Statements bring the same at other positions. -/
theorem StatementBody.brought?_moved {ns ns' : Namespace} (h : ns.Moved ns') (file : String) :
    brought? ns' file = brought? ns file := by
  funext b
  cases b with
  | use u =>
    have hlookup := congrArg (Option.map fun s => (u.name, s)) (h.lookup u.file u.member)
    simpa [brought?, Function.comp_def] using hlookup
  | _ => rfl

/-- What a file brings of one series. -/
theorem Module.filter_brought (ns : Namespace) (m : Module) (c : Series) :
    (m.contents.filterMap (StatementBody.brought? ns m.file)).filter
        (fun b => broughtSeries? b = some c) =
      (m.contents.filter fun b => b.series? ns = some c).filterMap
        (StatementBody.brought? ns m.file) := by
  induction m.contents with
  | nil => rfl
  | cons b rest ih =>
    rw [List.filter_cons, StatementBody.series?_eq ns m.file b, List.filterMap_cons]
    cases hb : b.brought? ns m.file with
    | none => simpa using ih
    | some x =>
      simp only [Option.bind_some, List.filter_cons]
      split
      · rw [List.filterMap_cons, hb]
        exact congrArg _ ih
      · exact ih

namespace Model

/-- What is introduced, without positions. -/
def Introduction.brought (i : Introduction) : String × Symbol := (i.name, i.symbol.unsited)

/-- What the statements of a file introduce is what they bring. -/
theorem map_brought_introductions {ns : Namespace} {m : Module} {imports : List ResolvedImport}
    (himports : List.Forall₂ (Resolves ns) m.uses imports) :
    (introductions m.file imports 0 m.statements).map Introduction.brought =
      m.contents.filterMap (StatementBody.brought? ns m.file) := by
  rw [m.filterMap_contents (g := fun s => s.body.unsited.brought? ns m.file) (fun _ => rfl)
    fun _ => rfl]
  have hresolved := resolved_of_resolves himports
  have hlookup : ∀ r ∈ imports, ns.lookup r.use.file r.use.member = some r.target := by
    intro r hr
    obtain ⟨entry, _, hresolves⟩ := exists_left_of_forall₂ himports hr
    rw [hresolves.use]
    exact hresolves.lookup
  generalize 0 = index
  generalize m.statements = statements at hresolved
  induction statements generalizing index with
  | nil => rfl
  | cons s rest ih =>
    have hrest := ih (index + 1) fun t ht => hresolved t (List.mem_cons_of_mem _ ht)
    obtain ⟨i?, hi⟩ := introduction?_eq_ok m.file index (hresolved s List.mem_cons_self)
    have hfirst : i?.map Introduction.brought = s.body.unsited.brought? ns m.file := by
      cases i? with
      | none =>
        unfold introduction? at hi
        split at hi
        · rename_i hbody
          rw [hbody]
          rfl
        · simp at hi
        · split at hi <;> simp at hi
      | some i =>
        cases introducedBy_of_introduction? hi with
        | declare d hbody =>
          rw [hbody]
          simp [StatementBody.unsited, StatementBody.brought?, Introduction.brought,
            Introduction.symbol, Symbol.unsited]
        | use r hbody hmem =>
          rw [hbody]
          simp [StatementBody.unsited, StatementBody.brought?, hlookup r hmem, Introduction.brought,
            Introduction.symbol]
    rw [introductions, hi, List.map_append, hrest, List.filterMap_cons, ← hfirst]
    cases i? <;> rfl

end Model

end AnnotatedShader
