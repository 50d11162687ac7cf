import Mathlib.Logic.Relation
import Mathlib.Data.List.Infix

/-! @lib Transition | scheme:invariant | layer:library

    Labelled transition systems given by a partial step function, and the histories they write. A
    run is a sequence of steps that all meet a condition; what holds at first and is kept by every
    such step holds in every state the run reaches. A history is grounded when every entry is
    justified by the entries before it. -/

namespace Transition

/-- A first state and what each label does; `none` where the label is not enabled. -/
structure System (σ α : Type) where
  first : σ
  step : α → σ → Option σ

section runs
variable {σ α : Type} {M : System σ α} {ok : α → σ → Prop} {s s' : σ}

/-- `s'` follows from `s` by steps that all meet `ok`. -/
def System.Run (M : System σ α) (ok : α → σ → Prop) : σ → σ → Prop :=
  Relation.ReflTransGen fun s s' => ∃ a, ok a s ∧ M.step a s = some s'

/-- `s` is reached from the first state by steps that all meet `ok`. -/
def System.ReachedBy (M : System σ α) (ok : α → σ → Prop) (s : σ) : Prop := M.Run ok M.first s

/-- `s'` follows from `s` in some run. -/
def System.Leads (M : System σ α) : σ → σ → Prop := M.Run fun _ _ => True

/-- `s` is reached in some run. -/
def System.Reached (M : System σ α) (s : σ) : Prop := M.Leads M.first s

/-- A run under a condition is one under any weaker condition. -/
theorem System.Run.mono {ok' : α → σ → Prop} (hr : M.Run ok s s')
    (hok : ∀ {a s}, ok a s → ok' a s) : M.Run ok' s s' := by
  induction hr with
  | refl => exact .refl
  | tail _ hs ih =>
    obtain ⟨a, ha, hs⟩ := hs
    exact ih.tail ⟨a, hok ha, hs⟩

/-- What every step of a run keeps holds at its end. -/
theorem System.Run.keeps {I : σ → Prop} (hr : M.Run ok s s')
    (hstep : ∀ {a s s'}, ok a s → M.step a s = some s' → I s → I s') (h : I s) : I s' := by
  induction hr with
  | refl => exact h
  | tail _ hs ih =>
    obtain ⟨a, hok, hs⟩ := hs
    exact hstep hok hs ih

/-- Where some step lowers a rank as long as a goal is not reached, the goal can be reached. -/
theorem System.exists_run {I goal : σ → Prop} (rank : σ → ℕ)
    (hstep : ∀ s, I s → ¬goal s →
      ∃ a s', ok a s ∧ M.step a s = some s' ∧ I s' ∧ rank s' < rank s) (h : I s) :
    ∃ s', M.Run ok s s' ∧ goal s' := by
  induction hn : rank s using Nat.strong_induction_on generalizing s with
  | _ n ih =>
    by_cases hgoal : goal s
    · exact ⟨s, .refl, hgoal⟩
    obtain ⟨a, s₁, hok, hs, hi, hless⟩ := hstep s h hgoal
    obtain ⟨s', hrun, hend⟩ := ih (rank s₁) (hn ▸ hless) hi rfl
    exact ⟨s', .head ⟨a, hok, hs⟩ hrun, hend⟩

/-- The invariant rule. -/
theorem System.ReachedBy.invariant {I : σ → Prop} (hr : M.ReachedBy ok s) (hfirst : I M.first)
    (hstep : ∀ {a s s'}, ok a s → M.step a s = some s' → I s → I s') : I s :=
  System.Run.keeps hr hstep hfirst

theorem System.Reached.invariant {I : σ → Prop} (hr : M.Reached s) (hfirst : I M.first)
    (hstep : ∀ {a s s'}, M.step a s = some s' → I s → I s') : I s :=
  System.Run.keeps hr (fun _ hs => hstep hs) hfirst

/-- A system that moves one of its parts as the part itself moves, or leaves it, reaches no other
    states of the part. -/
theorem System.Reached.project {τ β : Type} {N : System τ β} {f : σ → τ} (hr : M.Reached s)
    (hfirst : f M.first = N.first)
    (hstep : ∀ {a s s'}, M.step a s = some s' → N.Leads (f s) (f s')) : N.Reached (f s) :=
  hr.invariant (I := fun s => N.Reached (f s)) (hfirst ▸ .refl) fun hs hi => hi.trans (hstep hs)

/-- The state after a list of labels whose steps all meet `ok`. -/
def System.exec (M : System σ α) (ok : α → σ → Prop) [∀ a s, Decidable (ok a s)] :
    List α → σ → Option σ
  | [], s => some s
  | a :: as, s => if ok a s then (M.step a s).bind (M.exec ok as) else none

theorem System.run_of_exec [∀ a s, Decidable (ok a s)] {as : List α} {s : σ}
    (h : M.exec ok as s = some s') : M.Run ok s s' := by
  induction as generalizing s with
  | nil =>
    obtain rfl : s = s' := by simpa [System.exec] using h
    exact .refl
  | cons a as ih =>
    simp only [System.exec, Option.ite_none_right_eq_some] at h
    obtain ⟨hok, h⟩ := h
    obtain ⟨s₁, hs, h⟩ := Option.bind_eq_some_iff.1 h
    exact .head ⟨a, hok, hs⟩ (ih h)

/-- A list of labels whose last state passes a test shows that such a state is reached. -/
theorem System.reachedBy_of_exec (M : System σ α) (ok : α → σ → Prop) [∀ a s, Decidable (ok a s)]
    (as : List α) (p : σ → Bool) (h : (M.exec ok as M.first).any p = true) :
    ∃ s, M.ReachedBy ok s ∧ p s = true := by
  obtain ⟨s, hs, hp⟩ := (Option.any_eq_true _ _).1 h
  exact ⟨s, System.run_of_exec hs, hp⟩

theorem System.reached_of_exec (M : System σ α) (as : List α) (p : σ → Bool)
    (h : (M.exec (fun _ _ => True) as M.first).any p = true) : ∃ s, M.Reached s ∧ p s = true :=
  M.reachedBy_of_exec _ as p h

end runs

section histories
variable {ε : Type} {J J' : List ε → ε → Prop} {log : List ε} {e : ε}

/-- Every entry is justified by the entries before it. -/
def Grounded (J : List ε → ε → Prop) (log : List ε) : Prop :=
  ∀ before e after, log = before ++ e :: after → J before e

theorem grounded_nil : Grounded J [] := by
  intro before e after h
  simp at h

/-- One more entry. -/
theorem Grounded.concat (h : Grounded J log) (he : J log e) : Grounded J (log ++ [e]) := by
  intro before e' after heq
  rcases List.eq_nil_or_concat after with rfl | ⟨after', x, rfl⟩
  · obtain ⟨rfl, heq⟩ := List.append_inj' heq rfl
    obtain rfl : e = e' := by simpa using heq
    exact he
  · have heq' : log ++ [e] = (before ++ e' :: after') ++ [x] := by simpa using heq
    obtain ⟨rfl, _⟩ := List.append_inj' heq' rfl
    exact h before e' after' rfl

/-- Several more entries, each justified by those before it. -/
theorem Grounded.append {es : List ε} {log : List ε} (h : Grounded J log)
    (hes : ∀ before e after, es = before ++ e :: after → J (log ++ before) e) :
    Grounded J (log ++ es) := by
  induction es generalizing log with
  | nil => simpa using h
  | cons e es ih =>
    have h₁ : Grounded J (log ++ [e]) := h.concat (by simpa using hes [] e es rfl)
    rw [List.append_cons]
    refine ih h₁ fun before e' after heq => ?_
    have hlater := hes (e :: before) e' after (by rw [heq]; rfl)
    simpa using hlater

end histories

end Transition
