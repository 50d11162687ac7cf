import Mathlib.Data.List.Basic
import Mathlib.Logic.Basic

/-! @lib Program | scheme:free-monad | layer:library

    A transaction callback is a tree of database statements: `stmt s k` issues the statement `s`
    and continues with its answer. An `Engine` says what one statement answers and which row
    versions it writes; `run` executes a program alone on a store, `atomically` adds the rollback.
    Writes are data, so the same program can also be run with its writes still uncommitted
    (`ReadCommitted`). -/

namespace Txn

/-- A program over statements `S`, failing with `ε`, answering `α`. -/
inductive Prog (S : Type → Type) (ε α : Type) : Type 1
  | pure (a : α)
  | throw (e : ε)
  | stmt {β : Type} (s : S β) (k : β → Prog S ε α)

namespace Prog
variable {S : Type → Type} {ε α β γ : Type}

/-- Sequencing: graft `f` at every answer of the first program. -/
def bind : Prog S ε α → (α → Prog S ε β) → Prog S ε β
  | .pure a, f => f a
  | .throw e, _ => .throw e
  | .stmt s k, f => .stmt s fun b => bind (k b) f

instance : Monad (Prog S ε) where
  pure := .pure
  bind := bind

/-- Issue one statement and answer what it answers. -/
def call (s : S β) : Prog S ε β := .stmt s .pure

@[simp] theorem pure_eq (a : α) : (Pure.pure a : Prog S ε α) = .pure a := rfl

@[simp] theorem pure_bind (a : α) (f : α → Prog S ε β) : ((Prog.pure a : Prog S ε α) >>= f) = f a :=
  rfl

@[simp] theorem throw_bind (e : ε) (f : α → Prog S ε β) :
    ((Prog.throw e : Prog S ε α) >>= f) = .throw e := rfl

@[simp] theorem stmt_bind (s : S γ) (k : γ → Prog S ε α) (f : α → Prog S ε β) :
    (Prog.stmt s k >>= f) = .stmt s fun b => k b >>= f := rfl

@[simp] theorem call_bind (s : S α) (f : α → Prog S ε β) :
    ((call s : Prog S ε α) >>= f) = .stmt s f := rfl

/-- Answering what a program answered changes nothing. -/
@[simp] theorem bind_pure (p : Prog S ε α) : (p >>= fun a => .pure a) = p := by
  induction p with
  | pure a => rfl
  | throw e => rfl
  | stmt s k ih =>
    simp only [stmt_bind]
    congr 1; funext b
    exact ih b

/-- Sequencing is associative, so helpers can be inlined into their callers. -/
@[simp] theorem bind_assoc (p : Prog S ε α) (f : α → Prog S ε β) (g : β → Prog S ε γ) :
    (p >>= f >>= g) = (p >>= fun a => f a >>= g) := by
  induction p with
  | pure a => rfl
  | throw e => rfl
  | stmt s k ih =>
    simp only [stmt_bind]
    congr 1; funext b
    exact ih b

end Prog

/-- What a statement does: its answer and the row versions it writes (`eval`), how a row version
    changes the store (`apply`), the rows it locks without writing them (`locks`), and the rows and
    unique keys a row version occupies until its transaction ends (`holds`). -/
structure Engine (S : Type → Type) (ε σ ω ρ : Type) where
  eval : {β : Type} → S β → σ → Except ε (β × List ω)
  apply : σ → ω → σ
  locks : {β : Type} → S β → σ → List ρ
  holds : ω → List ρ

namespace Engine
variable {S : Type → Type} {ε σ ω ρ α β : Type} (E : Engine S ε σ ω ρ)

/-- The store as a transaction with uncommitted row versions `ws` reads it. -/
def view (db : σ) (ws : List ω) : σ := ws.foldl E.apply db

/-- Run a program alone, with no other writer in between. -/
def run : Prog S ε α → σ → Except ε (α × σ)
  | .pure a, db => .ok (a, db)
  | .throw e, _ => .error e
  | .stmt s k, db =>
    match E.eval s db with
    | .error e => .error e
    | .ok (b, ws) => run (k b) (E.view db ws)

/-- One transaction: a failed program leaves the store as it was. -/
def atomically (p : Prog S ε α) (db : σ) : Except ε α × σ :=
  match E.run p db with
  | .ok (a, db') => (.ok a, db')
  | .error e => (.error e, db)

/-- Everything a statement would occupy: explicit row locks and what its row versions hold. -/
def footprint (s : S β) (db : σ) : List ρ :=
  E.locks s db ++
    match E.eval s db with
    | .ok (_, ws) => ws.flatMap E.holds
    | .error _ => []

@[simp] theorem view_nil (db : σ) : E.view db [] = db := rfl

theorem view_cons (db : σ) (w : ω) (ws : List ω) :
    E.view db (w :: ws) = E.view (E.apply db w) ws := rfl

theorem view_append (db : σ) (ws ws' : List ω) :
    E.view db (ws ++ ws') = E.view (E.view db ws) ws' := by
  simp only [view, List.foldl_append]

@[simp] theorem run_pure (a : α) (db : σ) : E.run (.pure a) db = .ok (a, db) := rfl

@[simp] theorem run_throw (e : ε) (db : σ) :
    E.run (.throw e : Prog S ε α) db = .error e := rfl

theorem run_stmt_ok {s : S β} {k : β → Prog S ε α} {db : σ} {b : β} {ws : List ω}
    (h : E.eval s db = .ok (b, ws)) : E.run (.stmt s k) db = E.run (k b) (E.view db ws) := by
  simp only [run, h]

theorem run_stmt_error {s : S β} {k : β → Prog S ε α} {db : σ} {e : ε}
    (h : E.eval s db = .error e) : E.run (.stmt s k) db = .error e := by
  simp only [run, h]

/-- A program that answers has answered its first statement. -/
theorem run_stmt_inv {s : S β} {k : β → Prog S ε α} {db db' : σ} {a : α}
    (h : E.run (.stmt s k) db = .ok (a, db')) :
    ∃ b ws, E.eval s db = .ok (b, ws) ∧ E.run (k b) (E.view db ws) = .ok (a, db') := by
  cases he : E.eval s db with
  | error e => rw [E.run_stmt_error he] at h; cases h
  | ok r =>
    obtain ⟨b, ws⟩ := r
    exact ⟨b, ws, rfl, by rwa [E.run_stmt_ok he] at h⟩

/-- A statement program fails at its statement or after it. -/
theorem run_stmt_error_inv {s : S β} {k : β → Prog S ε α} {db : σ} {e : ε}
    (h : E.run (.stmt s k) db = .error e) : E.eval s db = .error e ∨
      ∃ b ws, E.eval s db = .ok (b, ws) ∧ E.run (k b) (E.view db ws) = .error e := by
  cases he : E.eval s db with
  | error e' =>
    rw [E.run_stmt_error he] at h
    cases h
    exact .inl rfl
  | ok x =>
    rw [E.run_stmt_ok he] at h
    exact .inr ⟨x.1, x.2, rfl, h⟩

/-- A sequence runs its parts one after the other. -/
theorem run_bind (p : Prog S ε α) (f : α → Prog S ε β) (db : σ) :
    E.run (p >>= f) db =
      match E.run p db with
      | .error e => .error e
      | .ok (a, db') => E.run (f a) db' := by
  induction p generalizing db with
  | pure a => rfl
  | throw e => rfl
  | stmt s k ih =>
    rw [Prog.stmt_bind]
    cases he : E.eval s db with
    | error e => rw [E.run_stmt_error he, E.run_stmt_error he]
    | ok r => rw [E.run_stmt_ok he, E.run_stmt_ok he, ih]

/-- What the row versions of every statement keep, a whole run keeps. -/
theorem run_keeps {I : σ → Prop}
    (hstep : ∀ {β : Type} (s : S β) {x : σ} {b : β} {ws : List ω}, I x → E.eval s x = .ok (b, ws) →
      I (E.view x ws)) {p : Prog S ε α} {db db' : σ} {a : α} (hI : I db)
    (h : E.run p db = .ok (a, db')) : I db' := by
  induction p generalizing db with
  | pure a => cases h; exact hI
  | throw e => cases h
  | stmt s k ih =>
    obtain ⟨b, ws, he, h⟩ := E.run_stmt_inv h
    exact ih b (hstep s hI he) h

/-- What every row version keeps, any number of them keep. -/
theorem view_keeps {I : σ → Prop} (hstep : ∀ {x : σ} {w : ω}, I x → I (E.apply x w))
    (ws : List ω) {db : σ} (hI : I db) : I (E.view db ws) := by
  induction ws generalizing db with
  | nil => exact hI
  | cons w ws ih => exact ih (hstep hI)

/-- What a transaction leaves behind: either nothing, or what its program answered with. -/
theorem atomically_cases (p : Prog S ε α) (db : σ) :
    (∃ e, E.run p db = .error e ∧ E.atomically p db = (.error e, db)) ∨
    ∃ a db', E.run p db = .ok (a, db') ∧ E.atomically p db = (.ok a, db') := by
  unfold atomically
  cases E.run p db with
  | error e => exact .inl ⟨e, rfl, rfl⟩
  | ok r => exact .inr ⟨r.1, r.2, rfl, rfl⟩

end Engine

end Txn
