import CinemaLoyalty.Lib.Program
import Mathlib.Logic.Relation
import Mathlib.Logic.Function.Basic

/-! @lib Autocommit | scheme:linearization | layer:library

    Any number of callers whose statements commit one by one: nothing spans two statements of a
    program, so a caller can read rows that others change before it writes. A connection can be lost
    at any statement, before or after the statement took effect. `Linearizes` says what is to be shown
    of a family of programs: each is atomic at the statement that decides its answer. From it the
    calls of every run, in the order of these statements, are a run of the atomic operations, with
    the same answers (`linearizes_run`). -/

namespace Txn

/-- A caller: about to start, at what is left of its program, or cut off. -/
inductive Caller (S : Type → Type) (ε α : Type) : Type 1
  | idle
  | running (p : Prog S ε α)
  | gone

/-- What a program that has come to its end answers. -/
def Prog.result? {S : Type → Type} {ε α : Type} : Prog S ε α → Option (Except ε α)
  | .pure a => some (.ok a)
  | .throw e => some (.error e)
  | .stmt _ _ => none

/-- What a caller has been answered. -/
def Caller.answer? {S : Type → Type} {ε α : Type} : Caller S ε α → Option (Except ε α)
  | .running p => p.result?
  | _ => none

/-- The store and every caller, named by `ι`. -/
structure Shared (ι : Type) (S : Type → Type) (ε σ α : Type) where
  db : σ
  callers : ι → Caller S ε α

section shared
variable {ι : Type} {S : Type → Type} {ε σ ω ρ α : Type} (E : Engine S ε σ ω ρ)
  (P : ι → Prog S ε α)

/-- Nobody has called yet. -/
def Shared.start (db : σ) : Shared ι S ε σ α := ⟨db, fun _ => .idle⟩

variable [DecidableEq ι]

/-- The callers after caller `i` went on to `c`, over the store `db`. -/
def Shared.set (M : Shared ι S ε σ α) (db : σ) (i : ι) (c : Caller S ε α) : Shared ι S ε σ α :=
  ⟨db, Function.update M.callers i c⟩

/-- One step of one caller. -/
inductive Move : Shared ι S ε σ α → Shared ι S ε σ α → Prop
  | begins {M : Shared ι S ε σ α} {i : ι} (hi : M.callers i = .idle) :
      Move M (M.set M.db i (.running (P i)))
  | answers {M : Shared ι S ε σ α} {i : ι} {β : Type} {s : S β} {k : β → Prog S ε α} {b : β}
      {ws : List ω} (hi : M.callers i = .running (.stmt s k)) (he : E.eval s M.db = .ok (b, ws)) :
      Move M (M.set (E.view M.db ws) i (.running (k b)))
  | refuses {M : Shared ι S ε σ α} {i : ι} {β : Type} {s : S β} {k : β → Prog S ε α} {e : ε}
      (hi : M.callers i = .running (.stmt s k)) (he : E.eval s M.db = .error e) :
      Move M (M.set M.db i (.running (.throw e)))
  | drops {M : Shared ι S ε σ α} {i : ι} {β : Type} {s : S β} {k : β → Prog S ε α}
      (hi : M.callers i = .running (.stmt s k)) : Move M (M.set M.db i .gone)
  | loses {M : Shared ι S ε σ α} {i : ι} {β : Type} {s : S β} {k : β → Prog S ε α} {b : β}
      {ws : List ω} (hi : M.callers i = .running (.stmt s k)) (he : E.eval s M.db = .ok (b, ws)) :
      Move M (M.set (E.view M.db ws) i .gone)

/-- What follows by any steps of any callers. -/
abbrev Moves : Shared ι S ε σ α → Shared ι S ε σ α → Prop := Relation.ReflTransGen (Move E P)

variable {E P} {M M' : Shared ι S ε σ α}

omit [DecidableEq ι] in
@[simp] theorem start_db (db : σ) : (Shared.start db : Shared ι S ε σ α).db = db := rfl

@[simp] theorem setCaller_db (db : σ) (i : ι) (c : Caller S ε α) : (M.set db i c).db = db := rfl

@[simp] theorem setCaller_self (db : σ) (i : ι) (c : Caller S ε α) : (M.set db i c).callers i = c :=
  Function.update_self ..

theorem setCaller_other (db : σ) {i j : ι} (c : Caller S ε α) (h : j ≠ i) :
    (M.set db i c).callers j = M.callers j := Function.update_of_ne h ..

/-- The store stays, or a statement has written to it. -/
theorem move_store (h : Move E P M M') : M'.db = M.db ∨
    ∃ (β : Type) (s : S β) (b : β) (ws : List ω), E.eval s M.db = .ok (b, ws) ∧
      M'.db = E.view M.db ws := by
  cases h with
  | begins _ => exact .inl rfl
  | answers _ he => exact .inr ⟨_, _, _, _, he, rfl⟩
  | refuses _ _ => exact .inl rfl
  | drops _ => exact .inl rfl
  | loses _ he => exact .inr ⟨_, _, _, _, he, rfl⟩

/-- What every statement keeps, a run keeps. -/
theorem moves_keep {I : σ → Prop}
    (hstep : ∀ {β : Type} (s : S β) {x : σ} {b : β} {ws : List ω}, I x → E.eval s x = .ok (b, ws) →
      I (E.view x ws)) (h : Moves E P M M') (hI : I M.db) : I M'.db := by
  induction h with
  | refl => exact hI
  | tail _ hs ih =>
    rcases move_store hs with hsame | ⟨β, s, b, ws, he, hdb⟩
    · exact hsame ▸ ih
    · exact hdb ▸ hstep s ih he

end shared

/-! ### Atomic operations -/

section atomic
variable {ι A R : Type} (spec : ι → A → R → A → Prop)

/-- Operations done one at a time, with what each answered. -/
inductive Sequential (a : A) : List (ι × R) → A → Prop
  | nil : Sequential a [] a
  | concat {order : List (ι × R)} {b b' : A} {i : ι} {r : R} (h : Sequential a order b)
      (hs : spec i b r b') : Sequential a (order ++ [(i, r)]) b'

variable {S : Type → Type} {ε σ ω ρ α : Type}

/-- Programs that are atomic at the statement that decides their answer: `abs` is what the atomic
    operations see of the store, `Inv` holds of every store, and `At i p` says what caller `i` knows
    of the store when `p` is left of its program, whatever the others do. -/
structure Linearizes (E : Engine S ε σ ω ρ) (P : ι → Prog S ε α) (abs : σ → A)
    (spec : ι → A → Except ε α → A → Prop) (Inv : σ → Prop) (At : ι → Prog S ε α → σ → Prop) :
    Prop where
  begins (i : ι) {db : σ} (hI : Inv db) :
    (∀ r, (P i).result? = some r → spec i (abs db) r (abs db)) ∧
      ((P i).result? = none → At i (P i) db)
  answers {i : ι} {β : Type} {s : S β} {k : β → Prog S ε α} {db : σ} {b : β} {ws : List ω}
    (hI : Inv db) (h : At i (.stmt s k) db) (he : E.eval s db = .ok (b, ws)) :
    Inv (E.view db ws) ∧ (∀ j p, At j p db → At j p (E.view db ws)) ∧
      (∀ r, (k b).result? = some r → spec i (abs db) r (abs (E.view db ws))) ∧
      ((k b).result? = none → abs (E.view db ws) = abs db ∧ At i (k b) (E.view db ws))
  refuses {i : ι} {β : Type} {s : S β} {k : β → Prog S ε α} {db : σ} {e : ε} (hI : Inv db)
    (h : At i (.stmt s k) db) (he : E.eval s db = .error e) : spec i (abs db) (.error e) (abs db)

variable [DecidableEq ι] {E : Engine S ε σ ω ρ} {P : ι → Prog S ε α} {abs : σ → A}
  {spec : ι → A → Except ε α → A → Prop} {Inv : σ → Prop} {At : ι → Prog S ε α → σ → Prop}

/-- The calls that have been decided, in the order in which they were: done one at a time they give
    the same store and the same answers. -/
structure Ordered (abs : σ → A) (spec : ι → A → Except ε α → A → Prop) (a : A)
    (order : List (ι × Except ε α)) (M : Shared ι S ε σ α) : Prop where
  nodup : (order.map (·.1)).Nodup
  sequential : Sequential spec a order (abs M.db)
  answered (i : ι) (r : Except ε α) : (M.callers i).answer? = some r → (i, r) ∈ order
  decided (i : ι) (r : Except ε α) : (i, r) ∈ order →
    (M.callers i).answer? = some r ∨ M.callers i = .gone

/-- The decided calls, and what the others know. -/
structure Linearized (abs : σ → A) (spec : ι → A → Except ε α → A → Prop) (Inv : σ → Prop)
    (At : ι → Prog S ε α → σ → Prop) (a : A) (order : List (ι × Except ε α))
    (M : Shared ι S ε σ α) : Prop extends Ordered abs spec a order M where
  inv : Inv M.db
  knows (i : ι) (p : Prog S ε α) : M.callers i = .running p → p.result? = none → At i p M.db

variable {a : A} {order : List (ι × Except ε α)} {M M' : Shared ι S ε σ α}

omit [DecidableEq ι] in
theorem linearized_start {db : σ} (hI : Inv db) :
    Linearized abs spec Inv At (abs db) [] (.start db : Shared ι S ε σ α) where
  inv := hI
  nodup := List.nodup_nil
  sequential := .nil
  answered _ _ h := by cases h
  decided _ _ h := by cases h
  knows _ _ h := by cases h

omit [DecidableEq ι] in
/-- A caller that has been neither answered nor cut off is not decided. -/
theorem Linearized.undecided (hL : Linearized abs spec Inv At a order M) {i : ι}
    (ha : (M.callers i).answer? = none) (hg : M.callers i ≠ .gone) : i ∉ order.map (·.1) := by
  intro hmem
  obtain ⟨⟨j, r⟩, hin, rfl⟩ := List.mem_map.1 hmem
  rcases hL.decided j r hin with h | h
  · rw [ha] at h
    cases h
  · exact hg h

/-- A caller goes on without being decided, over a store that looks the same. -/
theorem Linearized.goes (hL : Linearized abs spec Inv At a order M) {i : ι} {db : σ}
    {c : Caller S ε α} (hnew : i ∉ order.map (·.1)) (hI : Inv db) (habs : abs db = abs M.db)
    (hc : c.answer? = none) (hi : ∀ p, c = .running p → p.result? = none → At i p db)
    (hkeep : ∀ j p, At j p M.db → At j p db) :
    Linearized abs spec Inv At a order (M.set db i c) where
  inv := hI
  nodup := hL.nodup
  sequential := habs.symm ▸ hL.sequential
  answered j r h := by
    by_cases hj : j = i
    · rw [hj, setCaller_self, hc] at h
      cases h
    · rw [setCaller_other _ _ hj] at h
      exact hL.answered j r h
  decided j r h := by
    have hj : j ≠ i := by
      rintro rfl
      exact hnew (List.mem_map_of_mem h)
    rw [setCaller_other _ _ hj]
    exact hL.decided j r h
  knows j p h hr := by
    by_cases hj : j = i
    · subst hj
      rw [setCaller_self] at h
      exact hi p h hr
    · rw [setCaller_other _ _ hj] at h
      exact hkeep j p (hL.knows j p h hr)

/-- A caller is decided: its operation comes next. -/
theorem Linearized.decides (hL : Linearized abs spec Inv At a order M) {i : ι} {db : σ}
    {c : Caller S ε α} {r : Except ε α} (hnew : i ∉ order.map (·.1)) (hI : Inv db)
    (hspec : spec i (abs M.db) r (abs db)) (hc : c.answer? = some r ∨ c = .gone)
    (hkeep : ∀ j p, At j p M.db → At j p db) :
    Linearized abs spec Inv At a (order ++ [(i, r)]) (M.set db i c) where
  inv := hI
  nodup := by
    rw [List.map_append, List.map_cons, List.map_nil]
    refine List.nodup_append.2 ⟨hL.nodup, by simp, ?_⟩
    rintro x hx y hy rfl
    obtain rfl := List.mem_singleton.1 hy
    exact hnew hx
  sequential := .concat hL.sequential hspec
  answered j r' h := by
    by_cases hj : j = i
    · rw [hj, setCaller_self] at h
      rcases hc with hc | hc
      · rw [hc, Option.some.injEq] at h
        simp [hj, h]
      · rw [hc] at h
        cases h
    · rw [setCaller_other _ _ hj] at h
      exact List.mem_append_left _ (hL.answered j r' h)
  decided j r' h := by
    rcases List.mem_append.1 h with hin | hlast
    · have hj : j ≠ i := by
        rintro rfl
        exact hnew (List.mem_map.2 ⟨_, hin, rfl⟩)
      rw [setCaller_other _ _ hj]
      exact hL.decided j r' hin
    · obtain ⟨rfl, rfl⟩ := Prod.mk.inj (List.mem_singleton.1 hlast)
      rwa [setCaller_self]
  knows j p h hr := by
    by_cases hj : j = i
    · subst hj
      rw [setCaller_self] at h
      rcases hc with hc | hc
      · rw [h, Caller.answer?, hr] at hc
        cases hc
      · rw [h] at hc
        cases hc
    · rw [setCaller_other _ _ hj] at h
      exact hkeep j p (hL.knows j p h hr)

/-- A step decides at most one more caller. -/
theorem linearizes_step (H : Linearizes E P abs spec Inv At)
    (hL : Linearized abs spec Inv At a order M) (h : Move E P M M') :
    ∃ more, Linearized abs spec Inv At a (order ++ more) M' := by
  cases h with
  | @begins i hi =>
    have hnew := hL.undecided (i := i) (by rw [hi]; rfl) (by rw [hi]; nofun)
    obtain ⟨hdecides, hknows⟩ := H.begins i hL.inv
    cases hr : (P i).result? with
    | none =>
      refine ⟨[], ?_⟩
      rw [List.append_nil]
      refine hL.goes hnew hL.inv rfl hr ?_ fun _ _ => id
      rintro p ⟨⟩ hp
      exact hknows hp
    | some r => exact ⟨_, hL.decides hnew hL.inv (hdecides r hr) (.inl hr) fun _ _ => id⟩
  | @answers i β s k b ws hi he =>
    have hnew := hL.undecided (i := i) (by rw [hi]; rfl) (by rw [hi]; nofun)
    obtain ⟨hI, hkeep, hdecides, hknows⟩ := H.answers hL.inv (hL.knows i _ hi rfl) he
    cases hr : (k b).result? with
    | none =>
      obtain ⟨habs, hat⟩ := hknows hr
      refine ⟨[], ?_⟩
      rw [List.append_nil]
      refine hL.goes hnew hI habs hr ?_ hkeep
      rintro p ⟨⟩ _
      exact hat
    | some r => exact ⟨_, hL.decides hnew hI (hdecides r hr) (.inl hr) hkeep⟩
  | @refuses i β s k e hi he =>
    have hnew := hL.undecided (i := i) (by rw [hi]; rfl) (by rw [hi]; nofun)
    exact ⟨_, hL.decides hnew hL.inv (H.refuses hL.inv (hL.knows i _ hi rfl) he) (.inl rfl)
      fun _ _ => id⟩
  | @drops i β s k hi =>
    have hnew := hL.undecided (i := i) (by rw [hi]; rfl) (by rw [hi]; nofun)
    refine ⟨[], ?_⟩
    rw [List.append_nil]
    exact hL.goes hnew hL.inv rfl rfl (fun _ h => by cases h) fun _ _ => id
  | @loses i β s k b ws hi he =>
    have hnew := hL.undecided (i := i) (by rw [hi]; rfl) (by rw [hi]; nofun)
    obtain ⟨hI, hkeep, hdecides, hknows⟩ := H.answers hL.inv (hL.knows i _ hi rfl) he
    cases hr : (k b).result? with
    | none =>
      refine ⟨[], ?_⟩
      rw [List.append_nil]
      exact hL.goes hnew hI (hknows hr).1 rfl (fun _ h => by cases h) hkeep
    | some r => exact ⟨_, hL.decides hnew hI (hdecides r hr) (.inr rfl) hkeep⟩

/-- The order only grows: a call that begins after another has been answered comes after it. -/
theorem linearizes_moves (H : Linearizes E P abs spec Inv At)
    (hL : Linearized abs spec Inv At a order M) (h : Moves E P M M') :
    ∃ more, Linearized abs spec Inv At a (order ++ more) M' := by
  induction h with
  | refl => exact ⟨[], by rwa [List.append_nil]⟩
  | tail _ hs ih =>
    obtain ⟨more, hL'⟩ := ih
    obtain ⟨last, hL'⟩ := linearizes_step H hL' hs
    exact ⟨more ++ last, by rwa [← List.append_assoc]⟩

theorem linearizes_run (H : Linearizes E P abs spec Inv At) {db : σ} (hI : Inv db)
    (h : Moves E P (.start db) M) : ∃ order, Linearized abs spec Inv At (abs db) order M := by
  obtain ⟨order, hL⟩ := linearizes_moves H (linearized_start hI) h
  exact ⟨order, hL⟩

end atomic

end Txn
