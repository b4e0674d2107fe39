import AnnotatedShader.Failure
import AnnotatedShader.Proofs.Except
import Mathlib.Data.List.Forall2

set_option autoImplicit false

/-!
# Runs that end alike

Two runs of a chain of steps that are compared step by step: they end together when they also fail
in the same way, and alike when their diagnostics may differ.

`EndTogether` relates two results by a relation between their values and asks for the same failure
otherwise; `EndAlike` asks for that too, but takes any two diagnostics for the same.  Both are
carried through a chain by a lemma on `bind`, and the former through `mapM`.  The theorems on files
with rearranged statements, renamed imports or rewritten comments use them: they follow two
compilations side by side, one lemma for each phase, and no proof opens a phase twice.
-/

/-!
## Steps that end together

Two runs end together if they fail in the same way or both succeed, with related results.  Chains
of steps that end together do.
-/

namespace AnnotatedShader

variable {ε α β γ δ : Type} {R : α → β → Prop} {S : γ → δ → Prop}

/-- Two steps fail in the same way or both succeed with related results. -/
inductive EndTogether (R : α → β → Prop) : Except ε α → Except ε β → Prop
  | error (e : ε) : EndTogether R (.error e) (.error e)
  | ok {a : α} {b : β} (h : R a b) : EndTogether R (.ok a) (.ok b)

theorem EndTogether.imp {R' : α → β → Prop} {x : Except ε α} {y : Except ε β}
    (h : EndTogether R x y) (himp : ∀ a b, R a b → R' a b) : EndTogether R' x y := by
  cases h with
  | error e => exact .error e
  | ok hr => exact .ok (himp _ _ hr)

theorem EndTogether.bind {x : Except ε α} {y : Except ε β} {f : α → Except ε γ} {g : β → Except ε δ}
    (h : EndTogether R x y) (hstep : ∀ a b, R a b → EndTogether S (f a) (g b)) :
    EndTogether S (x >>= f) (y >>= g) := by
  cases h with
  | error e => exact .error e
  | ok hr => exact hstep _ _ hr

theorem EndTogether.mapM {f : α → Except ε γ} {g : β → Except ε δ} {as : List α} {bs : List β}
    (h : List.Forall₂ R as bs) (hstep : ∀ a b, R a b → EndTogether S (f a) (g b)) :
    EndTogether (List.Forall₂ S) (as.mapM f) (bs.mapM g) := by
  induction h with
  | nil => exact .ok .nil
  | cons hr _ ih =>
    rw [List.mapM_cons, List.mapM_cons]
    exact (hstep _ _ hr).bind fun c d hs => ih.bind fun cs ds hrest => .ok (.cons hs hrest)

/-- Two runs that end together with the same results are the same. -/
theorem endTogether_eq_iff {x y : Except ε α} : EndTogether (· = ·) x y ↔ x = y := by
  constructor
  · intro h
    cases h with
    | error e => rfl
    | ok hr => rw [hr]
  · rintro rfl
    cases x with
    | error e => exact .error e
    | ok a => exact .ok rfl

end AnnotatedShader

/-!
## Steps that end alike

Two runs end alike if both succeed, with related results, or both fail; where they fail with
diagnostics these may be different ones.  Chains of steps that end alike do.
-/

namespace AnnotatedShader

variable {α β γ δ : Type} {R : α → β → Prop} {S : γ → δ → Prop}

/-- Two steps succeed with related results, fail with a diagnostic each, or fail in the same way. -/
inductive EndAlike (R : α → β → Prop) : Except Failure α → Except Failure β → Prop
  | ok {a : α} {b : β} (h : R a b) : EndAlike R (.ok a) (.ok b)
  | diagnosed (d d' : Diagnostic) : EndAlike R (.error (.diagnosed d)) (.error (.diagnosed d'))
  | failed (e : Failure) : EndAlike R (.error e) (.error e)

theorem EndAlike.rfl {x : Except Failure α} : EndAlike (· = ·) x x := by
  cases x with
  | ok a => exact .ok (Eq.refl a)
  | error e => exact .failed e

theorem EndAlike.bind {x : Except Failure α} {y : Except Failure β} {f : α → Except Failure γ}
    {g : β → Except Failure δ} (h : EndAlike R x y)
    (hstep : ∀ a b, R a b → EndAlike S (f a) (g b)) : EndAlike S (x >>= f) (y >>= g) := by
  cases h with
  | ok hr => exact hstep _ _ hr
  | diagnosed d d' => exact .diagnosed d d'
  | failed e => exact .failed e

/-- Steps that end alike are followed by others that do from the same result. -/
theorem EndAlike.bind_eq {x y : Except Failure α} {f : α → Except Failure γ}
    {g : α → Except Failure δ} (h : EndAlike (· = ·) x y) (hstep : ∀ a, EndAlike S (f a) (g a)) :
    EndAlike S (x >>= f) (y >>= g) :=
  h.bind fun a _ hab => hab ▸ hstep a

/-- A step and the same step with its result changed. -/
theorem EndAlike.map_right (x : Except Failure α) (f : α → β) :
    EndAlike (fun a b => b = f a) x (x.map f) := by
  cases x with
  | ok a => exact .ok (Eq.refl _)
  | error e => exact .failed e

theorem EndAlike.exists_ok {x : Except Failure α} {y : Except Failure β} (h : EndAlike R x y)
    {a : α} (ha : x = .ok a) : ∃ b, y = .ok b ∧ R a b := by
  subst ha
  cases h with
  | ok hr => exact ⟨_, Eq.refl _, hr⟩

theorem EndAlike.exists_ok_left {x : Except Failure α} {y : Except Failure β} (h : EndAlike R x y)
    {b : β} (hb : y = .ok b) : ∃ a, x = .ok a ∧ R a b := by
  subst hb
  cases h with
  | ok hr => exact ⟨_, Eq.refl _, hr⟩

end AnnotatedShader
