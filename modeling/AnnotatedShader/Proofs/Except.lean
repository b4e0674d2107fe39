import AnnotatedShader.Failure

set_option autoImplicit false

/-!
# Steps that may fail

What it takes for a chain of steps to succeed, and what it can fail with.  Every function that may
fail is opened through these lemmas.

`bind_eq_ok_iff` and `bind_eq_error_iff` take a chain apart at its first step, and `foldlM_cases` is
the induction for a run that carries a state.  The second section is about failures: `FailsOnly`
says which failures a step may have, and combines along chains in the same way.  `Diagnosed` is the
case in which a step fails with diagnostics of one file alone, and `Reports` the case in which each
of them satisfies a property.
-/

namespace AnnotatedShader

variable {ε α β γ : Type}

/-- A chain succeeds when its first step does and the rest does from there. -/
theorem bind_eq_ok_iff {x : Except ε α} {f : α → Except ε β} {b : β} :
    x >>= f = .ok b ↔ ∃ a, x = .ok a ∧ f a = .ok b := by
  cases x <;> simp [bind, Except.bind]

/-- A chain fails when its first step does, or the rest does from where the first step leads. -/
theorem bind_eq_error_iff {x : Except ε α} {f : α → Except ε β} {e : ε} :
    x >>= f = .error e ↔ x = .error e ∨ ∃ a, x = .ok a ∧ f a = .error e := by
  cases x <;> simp [bind, Except.bind]

theorem map_eq_ok_iff {x : Except ε α} {f : α → β} {b : β} :
    x.map f = .ok b ↔ ∃ a, x = .ok a ∧ f a = b := by
  cases x <;> simp [Except.map]

theorem map_bind (x : Except ε α) (f : α → Except ε β) (g : β → γ) :
    (x >>= f).map g = x >>= fun a => (f a).map g := by
  cases x <;> rfl

theorem bind_map (x : Except ε α) (g : α → β) (f : β → Except ε γ) :
    x.map g >>= f = x >>= fun a => f (g a) := by
  cases x <;> rfl

/-- A step on each element of a list after a change that the step does not notice. -/
theorem mapM_map {f : α → Except ε α} {g : α → α} (h : ∀ a, f (g a) = (f a).map g) (as : List α) :
    (as.map g).mapM f = (as.mapM f).map (List.map g) := by
  induction as with
  | nil => rfl
  | cons a rest ih =>
    rw [List.map_cons, List.mapM_cons, List.mapM_cons, h, ih, bind_map, map_bind]
    refine congrArg _ (funext fun b => ?_)
    rw [bind_map, map_bind]
    rfl

theorem exists_eq_ok_of_any {x : Except ε α} {p : α → Bool} (h : x.toOption.any p = true) :
    ∃ a, x = .ok a ∧ p a = true := by
  cases x with
  | error => simp [Except.toOption] at h
  | ok a => exact ⟨a, rfl, h⟩

/-- What each step of a fold keeps holds when the fold is through, or where it fails. -/
theorem foldlM_cases {f : β → α → Except ε β} {P : β → Prop} {as : List α} {b : β} (h0 : P b)
    (hstep : ∀ b, ∀ a ∈ as, ∀ b', P b → f b a = .ok b' → P b') :
    (∀ b', as.foldlM f b = .ok b' → P b') ∧
      ∀ e, as.foldlM f b = .error e → ∃ mid, P mid ∧ ∃ a ∈ as, f mid a = .error e := by
  induction as generalizing b with
  | nil =>
    refine ⟨?_, ?_⟩
    · intro b' h
      obtain rfl : b = b' := Except.ok.inj h
      exact h0
    · intro e h
      simp [pure, Except.pure] at h
  | cons a rest ih =>
    have hrest : ∀ b, ∀ a ∈ rest, ∀ b', P b → f b a = .ok b' → P b' :=
      fun b a ha => hstep b a (List.mem_cons_of_mem _ ha)
    refine ⟨?_, ?_⟩
    · intro b' h
      rw [List.foldlM_cons, bind_eq_ok_iff] at h
      obtain ⟨mid, hmid, h⟩ := h
      exact (ih (hstep b a List.mem_cons_self mid h0 hmid) hrest).1 b' h
    · intro e h
      rw [List.foldlM_cons, bind_eq_error_iff] at h
      rcases h with h | ⟨mid, hmid, h⟩
      · exact ⟨b, h0, a, List.mem_cons_self, h⟩
      · obtain ⟨last, hlast, a', ha', h⟩ :=
          (ih (hstep b a List.mem_cons_self mid h0 hmid) hrest).2 e h
        exact ⟨last, hlast, a', List.mem_cons_of_mem _ ha', h⟩

/-- A fold that fails does so at one of its steps. -/
theorem exists_of_foldlM_eq_error {f : β → α → Except ε β} {as : List α} {b : β} {e : ε}
    (h : as.foldlM f b = .error e) : ∃ mid, ∃ a ∈ as, f mid a = .error e := by
  obtain ⟨mid, _, hstep⟩ :=
    (foldlM_cases (P := fun _ => True) trivial fun _ _ _ _ _ _ => trivial).2 e h
  exact ⟨mid, hstep⟩

end AnnotatedShader

/-!
## Ways to fail

A step may fail for reasons of a class only.  The class of a chain of steps is that of its steps, so
what a whole phase can fail with is found by going through it once.
-/

namespace AnnotatedShader

variable {ε α β : Type} {P Q : ε → Prop}

/-- A step fails in no other ways than those of a class. -/
structure FailsOnly (P : ε → Prop) (x : Except ε α) : Prop where
  of_eq : ∀ e, x = .error e → P e

theorem failsOnly_ok (P : ε → Prop) (a : α) : FailsOnly P (.ok a) :=
  ⟨fun e h => by contradiction⟩

theorem failsOnly_error {e : ε} (h : P e) : FailsOnly P (.error e : Except ε α) := by
  refine ⟨fun e' h' => ?_⟩
  rwa [← Except.error.inj h']

theorem FailsOnly.imp {x : Except ε α} (h : FailsOnly P x) (hPQ : ∀ e, P e → Q e) :
    FailsOnly Q x := ⟨fun e he => hPQ e (h.of_eq e he)⟩

/-- The second step counts where the first one leads to. -/
theorem FailsOnly.bind {x : Except ε α} {f : α → Except ε β} (hx : FailsOnly P x)
    (hf : ∀ a, x = .ok a → FailsOnly P (f a)) : FailsOnly P (x >>= f) := by
  refine ⟨fun e h => ?_⟩
  rcases bind_eq_error_iff.mp h with h | ⟨a, ha, h⟩
  · exact hx.of_eq e h
  · exact (hf a ha).of_eq e h

theorem FailsOnly.map {x : Except ε α} (f : α → β) (hx : FailsOnly P x) :
    FailsOnly P (x.map f) := by
  cases x with
  | error e => exact failsOnly_error (hx.of_eq e rfl)
  | ok a => exact failsOnly_ok P _

theorem failsOnly_mapM {f : α → Except ε β} {as : List α} (h : ∀ a ∈ as, FailsOnly P (f a)) :
    FailsOnly P (as.mapM f) := by
  induction as with
  | nil => exact failsOnly_ok P _
  | cons a rest ih =>
    rw [List.mapM_cons]
    refine (h a List.mem_cons_self).bind fun b _ => ?_
    exact (ih fun a' ha' => h a' (List.mem_cons_of_mem _ ha')).bind fun bs _ => failsOnly_ok P _

namespace Failure

/-- A failure is a diagnostic of one file, which spares the other files. -/
def Diagnosed (e : Failure) : Prop := ∃ d, e = .diagnosed d

theorem diagnosed_at (file : String) (position : Position) (fault : Fault) :
    Diagnosed (.at_ file position fault) := ⟨_, rfl⟩

/-- The diagnostic that a failure is, if it is one, is of a class. -/
def Reports (Q : Diagnostic → Prop) (e : Failure) : Prop := ∀ d, e = .diagnosed d → Q d

theorem reports_diagnosed {Q : Diagnostic → Prop} {d : Diagnostic} (h : Q d) :
    Reports Q (.diagnosed d) := by
  intro d' hd
  obtain rfl := Failure.diagnosed.inj hd
  exact h

theorem Reports.imp {Q Q' : Diagnostic → Prop} {e : Failure} (h : Reports Q e)
    (hQ : ∀ d, Q d → Q' d) : Reports Q' e := fun d hd => hQ d (h d hd)

end Failure

end AnnotatedShader
