import CinemaLoyalty.Lib.Program
import Mathlib.Logic.Relation
import Mathlib.Logic.Function.Basic

/-! @lib ReadCommitted | scheme:interleaving | layer:library

    Any number of transactions run statement by statement over one committed store. A statement
    reads the latest committed rows overlaid with its own uncommitted row versions, and it waits
    (has no step) while another open transaction occupies a row or a unique key it needs. A commit
    publishes the row versions, an abort forgets them, and a retried callback starts again from
    scratch. `Serializable` says that the finished transactions and their answers are those of a
    one-at-a-time run in some order. -/

namespace Txn

/-- A transaction: still open (rest of the program, uncommitted row versions, what it occupies),
    committed with its answer, or rolled back for good. -/
inductive Status (S : Type → Type) (ε ω ρ α : Type) : Type 1
  | running (prog : Prog S ε α) (ws : List ω) (held : List ρ)
  | done (a : α)
  | aborted

/-- What a transaction occupies; commit and rollback release it. -/
def Status.held {S : Type → Type} {ε ω ρ α : Type} : Status S ε ω ρ α → List ρ
  | .running _ _ held => held
  | _ => []

/-- The committed store and every transaction, named by `ι`. -/
structure Machine (ι : Type) (S : Type → Type) (ε σ ω ρ α : Type) where
  db : σ
  txs : ι → Status S ε ω ρ α

section machine
variable {ι : Type} {S : Type → Type} {ε σ ω ρ α : Type} (E : Engine S ε σ ω ρ)
  (P : ι → Prog S ε α)

/-- Every call is about to issue its first statement. -/
def Machine.start (db : σ) : Machine ι S ε σ ω ρ α := ⟨db, fun i => .running (P i) [] []⟩

variable [DecidableEq ι]

/-- The machine after transaction `i` moved to status `st`. -/
def Machine.set (M : Machine ι S ε σ ω ρ α) (i : ι) (st : Status S ε ω ρ α) :
    Machine ι S ε σ ω ρ α :=
  { M with txs := Function.update M.txs i st }

/-- One step of one transaction. `retry` is a new attempt of the same callback, `abort` any failure:
    an error answer, a thrown exception, a lost connection. -/
inductive Step : Machine ι S ε σ ω ρ α → Machine ι S ε σ ω ρ α → Prop
  | exec {M : Machine ι S ε σ ω ρ α} {i : ι} {β : Type} {s : S β} {k : β → Prog S ε α}
      {ws : List ω} {held : List ρ} {b : β} {ws' : List ω}
      (hi : M.txs i = .running (.stmt s k) ws held)
      (he : E.eval s (E.view M.db ws) = .ok (b, ws'))
      (hfree : ∀ j, j ≠ i → ∀ r ∈ E.footprint s (E.view M.db ws), r ∉ (M.txs j).held) :
      Step M (M.set i (.running (k b) (ws ++ ws') (held ++ E.footprint s (E.view M.db ws))))
  | commit {M : Machine ι S ε σ ω ρ α} {i : ι} {a : α} {ws : List ω} {held : List ρ}
      (hi : M.txs i = .running (.pure a) ws held) :
      Step M { M.set i (.done a) with db := E.view M.db ws }
  | abort {M : Machine ι S ε σ ω ρ α} {i : ι} {p : Prog S ε α} {ws : List ω} {held : List ρ}
      (hi : M.txs i = .running p ws held) : Step M (M.set i .aborted)
  | retry {M : Machine ι S ε σ ω ρ α} {i : ι} {p : Prog S ε α} {ws : List ω} {held : List ρ}
      (hi : M.txs i = .running p ws held) : Step M (M.set i (.running (P i) [] []))

/-- The machines reached from `db` by any interleaving. -/
def Reach (db : σ) (M : Machine ι S ε σ ω ρ α) : Prop :=
  Relation.ReflTransGen (Step E P) (.start P db) M

omit [DecidableEq ι] in
@[simp] theorem held_running (p : Prog S ε α) (ws : List ω) (held : List ρ) :
    (Status.running p ws held : Status S ε ω ρ α).held = held := rfl

@[simp] theorem set_self (M : Machine ι S ε σ ω ρ α) (i : ι) (st : Status S ε ω ρ α) :
    (M.set i st).txs i = st := Function.update_self ..

theorem set_other (M : Machine ι S ε σ ω ρ α) {i j : ι} (st : Status S ε ω ρ α) (h : j ≠ i) :
    (M.set i st).txs j = M.txs j := Function.update_of_ne h ..

@[simp] theorem set_db (M : Machine ι S ε σ ω ρ α) (i : ι) (st : Status S ε ω ρ α) :
    (M.set i st).db = M.db := rfl

end machine

/-! ### One-at-a-time histories -/

section serial
variable {ι : Type} {S : Type → Type} {ε σ ω ρ α : Type} (E : Engine S ε σ ω ρ)
  (P : ι → Prog S ε α)

/-- Running the calls of `h` one at a time from `db` gives their answers and ends in the last store. -/
inductive Serial : σ → List (ι × α) → σ → Prop
  | nil (db : σ) : Serial db [] db
  | cons {db db' db'' : σ} {i : ι} {a : α} {h : List (ι × α)}
      (hr : E.run (P i) db = .ok (a, db')) (ht : Serial db' h db'') : Serial db ((i, a) :: h) db''

variable {E P}

theorem serial_append {h₁ h₂ : List (ι × α)} {db db'' : σ} :
    Serial E P db (h₁ ++ h₂) db'' ↔ ∃ db', Serial E P db h₁ db' ∧ Serial E P db' h₂ db'' := by
  induction h₁ generalizing db with
  | nil =>
    constructor
    · intro h
      exact ⟨db, .nil db, h⟩
    · rintro ⟨_, h₁, h₂⟩
      cases h₁
      exact h₂
  | cons x h₁ ih =>
    constructor
    · intro h
      cases h with
      | cons hr ht =>
        obtain ⟨db', h₁', h₂'⟩ := ih.1 ht
        exact ⟨db', .cons hr h₁', h₂'⟩
    · rintro ⟨db', h₁', h₂'⟩
      cases h₁' with
      | cons hr ht => exact .cons hr (ih.2 ⟨db', ht, h₂'⟩)

/-- A history has one outcome. -/
theorem serial_det {h : List (ι × α)} {db db₁ db₂ : σ} (h₁ : Serial E P db h db₁)
    (h₂ : Serial E P db h db₂) : db₁ = db₂ := by
  induction h₁ with
  | nil db =>
    cases h₂
    rfl
  | cons hr₁ _ ih =>
    cases h₂ with
    | cons hr₂ ht₂ =>
      rw [hr₁] at hr₂; cases hr₂
      exact ih ht₂

/-- The store `S` stood after some prefix of the history. -/
def Visited (E : Engine S ε σ ω ρ) (P : ι → Prog S ε α) (db : σ) (h : List (ι × α)) (S : σ) : Prop :=
  ∃ h₁ h₂, h = h₁ ++ h₂ ∧ Serial E P db h₁ S

theorem visited_last {db db' : σ} {h : List (ι × α)} (hs : Serial E P db h db') :
    Visited E P db h db' := ⟨h, [], by simp, hs⟩

theorem visited_append {db S : σ} {h : List (ι × α)} (x : ι × α) (hv : Visited E P db h S) :
    Visited E P db (h ++ [x]) S := by
  obtain ⟨h₁, h₂, rfl, hs⟩ := hv
  exact ⟨h₁, h₂ ++ [x], by simp, hs⟩

/-- A call that changed nothing at a visited store can be put there: the history still ends in the
    same store, and every store visited before is visited still. -/
theorem serial_insert {db db' S : σ} {h : List (ι × α)} {i : ι} {a : α}
    (hs : Serial E P db h db') (hv : Visited E P db h S) (hr : E.run (P i) S = .ok (a, S)) :
    ∃ h', h'.Perm ((i, a) :: h) ∧ Serial E P db h' db' ∧
      ∀ T, Visited E P db h T → Visited E P db h' T := by
  obtain ⟨h₁, h₂, rfl, hS⟩ := hv
  obtain ⟨S', hS', hrest⟩ := serial_append.1 hs
  obtain rfl := serial_det hS hS'
  refine ⟨h₁ ++ (i, a) :: h₂, List.perm_middle, serial_append.2 ⟨S, hS, .cons hr hrest⟩, ?_⟩
  rintro T ⟨g₁, g₂, hg, hT⟩
  rcases List.append_eq_append_iff.1 hg with ⟨m, rfl, rfl⟩ | ⟨m, rfl, rfl⟩
  · -- the prefix of `T` runs through the insertion point
    obtain ⟨S', hS'', hm⟩ := serial_append.1 hT
    obtain rfl := serial_det hS hS''
    exact ⟨h₁ ++ (i, a) :: m, g₂, by simp, serial_append.2 ⟨S, hS, .cons hr hm⟩⟩
  · exact ⟨g₁, m ++ (i, a) :: h₂, by simp, hT⟩

/-- The committed store and the answers of the committed calls are those of a one-at-a-time run of
    exactly these calls, each once, in the order `h`. -/
def Serializable (E : Engine S ε σ ω ρ) (P : ι → Prog S ε α) (db : σ)
    (M : Machine ι S ε σ ω ρ α) : Prop :=
  ∃ h : List (ι × α), Serial E P db h M.db ∧ (h.map Prod.fst).Nodup ∧
    ∀ i a, (i, a) ∈ h ↔ M.txs i = .done a

end serial

end Txn
