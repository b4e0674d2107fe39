import AnnotatedShader.Proofs.Except
import AnnotatedShader.Proofs.Grammar.Reading

set_option autoImplicit false

/-!
# Where a reader stops

A reader never goes back and never skips a token, so what it leaves is a part of what it was given.
That is so where it goes on as well as where it is stuck, and so the token that a report shows is
one of the text.

`Inside` says it of both outcomes at once, and is kept by a chain of readers (`Inside.bind`), so
each reader has one lemma, in the order of its steps.  The place in a report on a text that is no
text of the grammar is that of one of its tokens, or the end (`phrases_stuck`).
-/

namespace AnnotatedShader.Grammar

variable {α β : Type} {ts us : List Token}

/-- What a step leaves is among some tokens, whether it goes on or is stuck. -/
structure Inside (ts : List Token) (x : Except Stuck (α × List Token)) : Prop where
  stuck : ∀ s, x = .error s → s.rest ⊆ ts
  rest : ∀ a us, x = .ok (a, us) → us ⊆ ts

theorem inside_ok (a : α) (h : us ⊆ ts) : Inside ts (.ok (a, us) : Except Stuck _) := by
  refine ⟨fun s hs => by contradiction, fun b vs hok => ?_⟩
  obtain ⟨_, rfl⟩ := Prod.mk.inj (Except.ok.inj hok)
  exact h

theorem inside_error (expected : List Terminal) (h : us ⊆ ts) :
    Inside ts (.error ⟨expected, us⟩ : Except Stuck (α × List Token)) := by
  refine ⟨fun s hs => ?_, fun b vs hok => by contradiction⟩
  rw [← Except.error.inj hs]
  exact h

theorem Inside.bind {x : Except Stuck (α × List Token)}
    {f : α × List Token → Except Stuck (β × List Token)} (hx : Inside ts x)
    (hf : ∀ a us, us ⊆ ts → Inside ts (f (a, us))) : Inside ts (x >>= f) := by
  constructor
  · intro s hs
    rcases bind_eq_error_iff.mp hs with hs | ⟨⟨a, us⟩, ha, hs⟩
    · exact hx.stuck s hs
    · exact (hf a us (hx.rest a us ha)).stuck s hs
  · intro b vs hok
    obtain ⟨⟨a, us⟩, ha, hok⟩ := bind_eq_ok_iff.mp hok
    exact (hf a us (hx.rest a us ha)).rest b vs hok

/-! ## Tokens and questions -/

theorem inside_need (terminal : Terminal) (h : us ⊆ ts) : Inside ts (need terminal us) := by
  unfold need
  split
  · split
    · exact inside_ok _ (List.Subset.trans (List.subset_cons_self _ _) h)
    · exact inside_error _ h
  · exact inside_error _ h

theorem inside_ask (expected : List Terminal) (h : us ⊆ ts) {x : Except Stuck (α × List Token)}
    (hx : Inside ts x) : Inside ts (ask expected us >>= fun _ => x) := by
  unfold ask
  split
  · exact hx
  · exact inside_error _ h

/-! ## Types and properties -/

theorem inside_elementPart (h : us ⊆ ts) : Inside ts (elementPart us) := by
  unfold elementPart
  split
  · refine (inside_need _ h).bind fun _ us h => (inside_need _ h).bind fun _ us h => ?_
    exact inside_ask _ h (inside_ok _ h)
  · exact inside_ok _ h

theorem inside_sizePart (h : us ⊆ ts) : Inside ts (sizePart us) := by
  unfold sizePart
  split
  · refine (inside_need _ h).bind fun _ us h => (inside_need _ h).bind fun _ us h => ?_
    exact (inside_need _ h).bind fun _ us h => inside_ok _ h
  · exact inside_ok _ h

theorem inside_typeTree (h : us ⊆ ts) : Inside ts (typeTree us) := by
  refine (inside_need _ h).bind fun _ us h => inside_ask _ h ?_
  refine (inside_elementPart h).bind fun _ us h => (inside_sizePart h).bind fun _ us h => ?_
  exact inside_ok _ h

theorem inside_attributePart (h : us ⊆ ts) : Inside ts (attributePart us) := by
  unfold attributePart
  split
  · refine (inside_need _ h).bind fun _ us h => (inside_need _ h).bind fun _ us h => ?_
    refine inside_ask _ h ?_
    simp only
    split
    · refine (inside_need _ h).bind fun _ us h => (inside_need _ h).bind fun _ us h => ?_
      exact (inside_need _ h).bind fun _ us h => inside_ask _ h (inside_ok _ h)
    · exact inside_ok _ h
  · exact inside_ok _ h

theorem inside_property (h : us ⊆ ts) : Inside ts (property us) := by
  refine (inside_typeTree h).bind fun _ us h => (inside_need _ h).bind fun _ us h => ?_
  refine inside_ask _ h ((inside_attributePart h).bind fun _ us h => ?_)
  exact (inside_need _ h).bind fun _ us h => inside_ask _ h (inside_ok _ h)

/-- What is so of one tree is so of all up to a closing brace. -/
theorem Repeats.inside {reader : Reader α} {more : Nat → Reader (List α)}
    (hrepeats : Repeats reader more) (hreader : ∀ us, us ⊆ ts → Inside ts (reader us)) (fuel : Nat)
    (h : us ⊆ ts) : Inside ts (more fuel us) := by
  induction fuel generalizing us with
  | zero =>
    rw [hrepeats.zero]
    exact inside_ok _ h
  | succ fuel ih =>
    rw [hrepeats.succ]
    refine inside_ask _ h ?_
    split
    · exact (hreader us h).bind fun _ us h => (ih h).bind fun _ us h => inside_ok _ h
    · exact inside_ok _ h

/-! ## Blocks -/

theorem inside_optionalSemicolon (h : us ⊆ ts) {f : List Token → Except Stuck (α × List Token)}
    (hf : ∀ us, us ⊆ ts → Inside ts (f us)) : Inside ts (optionalSemicolon us >>= f) := by
  simp only [optionalSemicolon, bind_assoc]
  refine inside_ask _ h ?_
  split
  · rw [bind_assoc]
    exact (inside_need _ h).bind fun _ us h => hf us h
  · exact hf us h

theorem inside_structPart (h : us ⊆ ts) : Inside ts (structPart us) := by
  refine (inside_need _ h).bind fun _ us h => (inside_need _ h).bind fun _ us h => ?_
  refine inside_ask _ h ((inside_attributePart h).bind fun _ us h => ?_)
  refine (inside_need _ h).bind fun _ us h => inside_ask _ h ?_
  refine (moreProperties_repeats.inside (fun _ => inside_property) _ h).bind fun _ us h => ?_
  refine (inside_need _ h).bind fun _ us h => ?_
  exact inside_optionalSemicolon h fun us h => inside_ok _ h

theorem inside_subkeyPart (h : us ⊆ ts) : Inside ts (subkeyPart us) := by
  unfold subkeyPart
  split
  · exact (inside_need _ h).bind fun _ us h => (inside_need _ h).bind fun _ us h => inside_ok _ h
  · exact inside_ok _ h

theorem inside_value (h : us ⊆ ts) : Inside ts (value us) := by
  unfold value
  split
  · split
    · exact inside_ok _ (List.Subset.trans (List.subset_cons_self _ _) h)
    · exact inside_error _ h
  · exact inside_error _ h

theorem inside_entry (h : us ⊆ ts) : Inside ts (entry us) := by
  refine (inside_need _ h).bind fun _ us h => inside_ask _ h ?_
  refine (inside_subkeyPart h).bind fun _ us h => (inside_need _ h).bind fun _ us h => ?_
  exact (inside_value h).bind fun _ us h => (inside_need _ h).bind fun _ us h => inside_ok _ h

theorem inside_stateBlock (h : us ⊆ ts) : Inside ts (stateBlock us) := by
  refine (inside_need _ h).bind fun _ us h => ?_
  refine (moreEntries_repeats.inside (fun _ => inside_entry) _ h).bind fun _ us h => ?_
  refine (inside_need _ h).bind fun _ us h => ?_
  exact inside_optionalSemicolon h fun us h => inside_ok _ h

/-! ## Statements -/

theorem inside_renamePart (h : us ⊆ ts) : Inside ts (renamePart us) := by
  unfold renamePart
  split
  · exact (inside_need _ h).bind fun _ us h => (inside_need _ h).bind fun _ us h => inside_ok _ h
  · exact inside_ok _ h

theorem inside_useStatement (h : us ⊆ ts) : Inside ts (useStatement us) := by
  refine (inside_need _ h).bind fun _ us h => (inside_need _ h).bind fun _ us h => ?_
  refine (inside_need _ h).bind fun _ us h => inside_ask _ h ?_
  exact (inside_renamePart h).bind fun _ us h => (inside_need _ h).bind fun _ us h => inside_ok _ h

theorem inside_constStatement (h : us ⊆ ts) : Inside ts (constStatement us) := by
  refine inside_ask _ h ?_
  split
  · exact (inside_structPart h).bind fun _ us h => inside_ok _ h
  · exact (inside_property h).bind fun _ us h => inside_ok _ h

theorem inside_blendFuncStatement (h : us ⊆ ts) : Inside ts (blendFuncStatement us) := by
  refine (inside_need _ h).bind fun _ us h => inside_ask _ h ?_
  simp only
  split
  · exact (inside_need _ h).bind fun _ us h => inside_ok _ h
  · exact (inside_stateBlock h).bind fun _ us h => inside_ok _ h

theorem inside_statement (h : us ⊆ ts) : Inside ts (statement us) := by
  unfold statement
  split
  · exact inside_error _ h
  · rename_i t rest
    have hrest : rest ⊆ ts := List.Subset.trans (List.subset_cons_self t rest) h
    split
    · exact inside_useStatement hrest
    · exact inside_constStatement hrest
    · exact (inside_property hrest).bind fun _ us h => inside_ok _ h
    · exact (inside_structPart hrest).bind fun _ us h => inside_ok _ h
    · exact (inside_need _ hrest).bind fun _ us h => (inside_stateBlock h).bind fun _ us h =>
        inside_ok _ h
    · exact inside_blendFuncStatement hrest
    · exact inside_error _ h

/-- The reader of a text is stuck somewhere in the text. -/
theorem phrasesFrom_stuck (fuel : Nat) (h : us ⊆ ts) :
    FailsOnly (fun s : Stuck => s.rest ⊆ ts) (phrasesFrom fuel us) := by
  induction fuel generalizing us with
  | zero => exact failsOnly_ok _ _
  | succ fuel ih =>
    cases us with
    | nil => exact failsOnly_ok _ _
    | cons t rest =>
      have hread := inside_statement h
      refine FailsOnly.bind ⟨hread.stuck⟩ fun read hok => ?_
      obtain ⟨tree, left⟩ := read
      exact (ih (hread.rest tree left hok)).bind fun _ _ => failsOnly_ok _ _

theorem phrases_stuck (ts : List Token) :
    FailsOnly (fun s : Stuck => s.rest ⊆ ts) (phrases ts) :=
      phrasesFrom_stuck _ (List.Subset.refl ts)

end AnnotatedShader.Grammar
