import CinemaLoyalty.Lib.Program

/-! @lib Attempts | scheme:bounded-retry | layer:library

    A callback under a bounded retry loop, next to any other writers. Each statement of an attempt
    reads some store of `env`, the stores the others commit meanwhile. A statement, the commit or the
    callback itself may fail, and then the attempt publishes nothing; a commit publishes the row
    versions of the whole attempt at once. What a loop publishes is what its last attempt publishes
    (`retry_returned`, `retry_raised`), and on a store nobody else writes an attempt is a run
    (`attempt_alone`, `attempt_of_run`). -/

namespace Txn

/-- How an attempt or a loop ends. A `conflict` is an error the loop may answer with a new attempt. -/
inductive Ended (ε α : Type)
  | returned (a : α)
  | raised (conflict : Bool) (e : ε)

section attempts
variable {S : Type → Type} {ε σ ω ρ α β : Type} (E : Engine S ε σ ω ρ) (env : σ → Prop)

/-- What is left of an attempt over the uncommitted row versions `ws`: how it ends and the row
    versions it publishes. -/
inductive Attempt : Prog S ε α → List ω → Ended ε α → List ω → Prop
  | commit (a : α) (ws : List ω) : Attempt (.pure a) ws (.returned a) ws
  | throw (e : ε) (ws : List ω) : Attempt (.throw e) ws (.raised false e) []
  | fail (p : Prog S ε α) (ws : List ω) (conflict : Bool) (e : ε) :
      Attempt p ws (.raised conflict e) []
  | stmt {γ : Type} {s : S γ} {k : γ → Prog S ε α} {ws : List ω} {db : σ} {b : γ} {ws' : List ω}
      {ended : Ended ε α} {pub : List ω} (henv : env db)
      (he : E.eval s (E.view db ws) = .ok (b, ws')) (ht : Attempt (k b) (ws ++ ws') ended pub) :
      Attempt (.stmt s k) ws ended pub

/-- The loop from attempt `n` on: a conflict before attempt `max` starts the callback again. -/
inductive Retry (P : ℕ → Prog S ε α) (max : ℕ) : ℕ → Ended ε α → List ω → Prop
  | returns {n : ℕ} {a : α} {pub : List ω} (h : Attempt E env (P n) [] (.returned a) pub) :
      Retry P max n (.returned a) pub
  | throws {n : ℕ} {conflict : Bool} {e : ε} {pub : List ω}
      (h : Attempt E env (P n) [] (.raised conflict e) pub) (hlast : conflict = false ∨ max ≤ n) :
      Retry P max n (.raised conflict e) pub
  | again {n : ℕ} {e : ε} {pub pub' : List ω} {ended : Ended ε α}
      (h : Attempt E env (P n) [] (.raised true e) pub) (hn : n < max)
      (ht : Retry P max (n + 1) ended pub') : Retry P max n ended (pub ++ pub')

variable {E env}

/-- A failed attempt publishes nothing. -/
theorem attempt_raised {p : Prog S ε α} {ws pub : List ω} {ended : Ended ε α}
    (h : Attempt E env p ws ended pub) :
    ∀ {conflict : Bool} {e : ε}, ended = .raised conflict e → pub = [] := by
  induction h with
  | commit a ws => intro c e he; cases he
  | throw e ws => intros; rfl
  | fail p ws c e => intros; rfl
  | stmt henv he ht ih => exact fun hended => ih hended

/-! ### Attempts that commit -/

theorem attempt_pure {a a' : α} {ws pub : List ω}
    (h : Attempt E env (.pure a) ws (.returned a') pub) : a' = a ∧ pub = ws := by
  cases h
  exact ⟨rfl, rfl⟩

theorem attempt_throw {e : ε} {a : α} {ws pub : List ω} :
    ¬Attempt E env (.throw e) ws (.returned a) pub := nofun

/-- A committed attempt has an answer to its next statement. -/
theorem attempt_stmt {γ : Type} {s : S γ} {k : γ → Prog S ε α} {ws pub : List ω} {a : α}
    (h : Attempt E env (.stmt s k) ws (.returned a) pub) :
    ∃ db b ws', env db ∧ E.eval s (E.view db ws) = .ok (b, ws') ∧
      Attempt E env (k b) (ws ++ ws') (.returned a) pub := by
  cases h with
  | stmt henv he ht => exact ⟨_, _, _, henv, he, ht⟩

/-- A committed sequence is a committed first part and the rest over its row versions. -/
theorem attempt_bind {p : Prog S ε α} {f : α → Prog S ε β} {ws pub : List ω} {b : β}
    (h : Attempt E env (p >>= f) ws (.returned b) pub) : ∃ a mid,
      Attempt E env p ws (.returned a) mid ∧ Attempt E env (f a) mid (.returned b) pub := by
  induction p generalizing ws with
  | pure a => exact ⟨a, ws, .commit a ws, h⟩
  | throw e => cases h
  | stmt s k ih =>
    obtain ⟨db, c, ws', henv, he, h⟩ := attempt_stmt h
    obtain ⟨a, mid, hp, hf⟩ := ih c h
    exact ⟨a, mid, .stmt henv he hp, hf⟩

/-- The row versions of a committed attempt begin with those written so far. -/
theorem attempt_grows {p : Prog S ε α} {ws pub : List ω} {a : α}
    (h : Attempt E env p ws (.returned a) pub) : ws <+: pub := by
  induction p generalizing ws with
  | pure a' =>
    obtain ⟨-, rfl⟩ := attempt_pure h
    exact List.prefix_refl _
  | throw e => exact absurd h attempt_throw
  | stmt s k ih =>
    obtain ⟨_, b, ws', _, _, h⟩ := attempt_stmt h
    exact (List.prefix_append ws ws').trans (ih b h)

/-! ### Attempts next to nobody -/

/-- Alone, a committed attempt is a run of the callback. -/
theorem attempt_alone {p : Prog S ε α} {db : σ} {ws pub : List ω} {a : α}
    (h : Attempt E (· = db) p ws (.returned a) pub) :
    E.run p (E.view db ws) = .ok (a, E.view db pub) := by
  induction p generalizing ws with
  | pure a' =>
    obtain ⟨rfl, rfl⟩ := attempt_pure h
    rfl
  | throw e => cases h
  | stmt s k ih =>
    obtain ⟨db', b, ws', rfl, he, h⟩ := attempt_stmt h
    rw [E.run_stmt_ok he, ← E.view_append]
    exact ih b h

/-- Alone, a run of the callback is a committed attempt. -/
theorem attempt_of_run {p : Prog S ε α} {db db' : σ} {ws : List ω} {a : α}
    (h : E.run p (E.view db ws) = .ok (a, db')) :
    ∃ pub, db' = E.view db pub ∧ Attempt E (· = db) p ws (.returned a) pub := by
  induction p generalizing ws with
  | pure a' =>
    cases h
    exact ⟨ws, rfl, .commit a ws⟩
  | throw e => cases h
  | stmt s k ih =>
    obtain ⟨b, ws', he, h⟩ := E.run_stmt_inv h
    rw [← E.view_append] at h
    obtain ⟨pub, hpub, hp⟩ := ih b h
    exact ⟨pub, hpub, .stmt rfl he hp⟩

/-! ### Loops -/

variable {P : ℕ → Prog S ε α} {max n : ℕ} {pub : List ω} {ended : Ended ε α}

/-- A loop that throws published nothing in any of its attempts. -/
theorem retry_raised (h : Retry E env P max n ended pub) :
    ∀ {conflict : Bool} {e : ε}, ended = .raised conflict e → pub = [] := by
  induction h with
  | returns h => intro c e he; cases he
  | throws h _ => exact fun _ => attempt_raised h rfl
  | again h _ _ ih =>
    intro c e hended
    rw [attempt_raised h rfl, ih hended]
    rfl

/-- A loop that answers published what the attempt that answered published. -/
theorem retry_returned (h : Retry E env P max n ended pub) :
    ∀ {a : α}, ended = .returned a → ∃ m, Attempt E env (P m) [] (.returned a) pub := by
  induction h with
  | returns h => intro a' ha; cases ha; exact ⟨_, h⟩
  | throws h _ => intro a' ha; cases ha
  | again h _ _ ih =>
    intro a' ha
    rw [attempt_raised h rfl]
    exact ih ha

end attempts

end Txn
