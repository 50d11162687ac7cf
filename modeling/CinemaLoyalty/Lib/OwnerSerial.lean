import CinemaLoyalty.Lib.OwnerLocking

/-! @lib OwnerSerial | scheme:replay-invariant | layer:library

    Disciplined programs are serializable: the invariant of one open transaction (`Mode`), the lock
    bookkeeping (`Locks`), how each step keeps them (`exec_mode`, `commit_mode`), and from these the
    theorem over whole interleavings (`serializable`). -/

namespace Txn.OwnerStore
open Txn

variable {ι : Type} {S : Type → Type} {ε σ ω ρ α U K μ : Type} [DecidableEq K]
  {E : Engine S ε σ ω ρ} (L : OwnerStore E U K μ) (Ps : ι → Prog S ε α)

/-- On every store related to `x`, the program `P` does what `p` does over the row versions `ws`. -/
def Replays (E : Engine S ε σ ω ρ) (R : σ → σ → Prop) (x : σ) (P p : Prog S ε α) (ws : List ω) :
    Prop :=
  ∀ y, R x y → E.run P y = E.run p (E.view y ws)

/-- Agreement on all that has been read: the owner's rows, and the entry once it was looked at. -/
def agreeOn (u : U) (k : K) (seen : Seen) (x y : σ) : Prop :=
  L.agree u x y ∧ (seen ≠ .unread → L.entry k x = L.entry k y)

/-- What is known of the entry at the replayed store `x` and at the committed store `c`. -/
def SeenAt (k : K) (seen : Seen) (x c : σ) (held : List ρ) : Prop :=
  match seen with
  | .unread => True
  | .absent => L.entry k x = none
  | .owned => L.entry k x = none ∧ L.entry k c = none ∧ L.keyLock k ∈ held
  | .present => ∃ m, L.entry k x = some m ∧ L.entry k c = some m

/-- The writes so far: of the owner's rows, and of the entry only when the transaction inserted it. -/
def Wrote (u : U) (k : K) (seen : Seen) (ws : List ω) : Prop :=
  ∀ w ∈ ws, L.ownW u w ∨ (seen = .owned ∧ ∃ m, w = L.putW m ∧ L.key m = k)

/-- The state of an open transaction `P` of owner `u` over the committed store `c`, `h` being the
    history so far. -/
inductive Mode (db : σ) (h : List (ι × α)) (c : σ) (P : Prog S ε α) (u : U) (k : K) :
    Prog S ε α → List ω → List ρ → Prop
  | init (hd : L.Disciplined u k P) : Mode db h c P u k P [] []
  | opened {body ws held} {ans : μ → Prog S ε α}
      (hP : P = .stmt (L.openS u) fun _ => .stmt (L.lockS u) body)
      (hd : L.Disc P u k ans .unread true (body true))
      (hws : ws = [] ∧ L.present u c = true ∨ ws = [L.openW u] ∧ L.openLock u ∈ held) :
      Mode db h c P u k (.stmt (L.lockS u) body) ws held
  | locked {p ws held} {ans : μ → Prog S ε α} (x : σ) (seen : Seen) (wrote : Bool)
      (hlock : L.rowLock u ∈ held) (hpres : L.present u c = true ∨ L.openLock u ∈ held)
      (hv : Visited E Ps db h x) (ha : L.agree u x c)
      (hr : Replays E (L.agreeOn u k seen) x P p ws) (hs : L.SeenAt k seen x c held)
      (hw : wrote = false → ws = []) (hws : L.Wrote u k seen ws)
      (hd : L.Disc P u k ans seen wrote p) : Mode db h c P u k p ws held
  | missing {p held} {ans : μ → Prog S ε α} (x : σ) (hv : Visited E Ps db h x)
      (hmono : ∀ m, L.entry k x = some m → L.entry k c = some m)
      (hr : Replays E (L.agreeOn u k .present) x P p []) (hd : L.Idle P k ans p) :
      Mode db h c P u k p [] held
  | late {held} {n : Option μ → Prog S ε α} {ans : μ → Prog S ε α} (m : μ)
      (hk : L.legible k = true) (hm : L.entry k c = some m) (hn : ∀ m, n (some m) = ans m)
      (ha : L.Answers P k ans) :
      Mode db h c P u k (.stmt (L.findS k) n) [] held
  | answered {p held} {ans : μ → Prog S ε α} (m : μ) (hk : L.legible k = true) (hp : p = ans m)
      (hm : L.entry k c = some m) (ha : L.Answers P k ans) : Mode db h c P u k p [] held

/-- The lock bookkeeping of an open transaction: it holds what its writes occupy, and a create lock
    only while the row is missing. -/
structure Locks (c : σ) (ws : List ω) (held : List ρ) : Prop where
  writes : ∀ w ∈ ws, ∀ r ∈ E.holds w, r ∈ held
  opens : ∀ v, L.openLock v ∈ held → L.present v c = false

variable {L Ps} {db c : σ} {h : List (ι × α)} {P p : Prog S ε α} {u : U} {k : K} {ws : List ω}
  {held : List ρ}

theorem Wrote.weaken {seen : Seen} (hw : L.Wrote u k seen ws) :
    ∀ w ∈ ws, L.ownW u w ∨ ∃ m, w = L.putW m ∧ L.key m = k := fun w hm =>
  (hw w hm).imp id fun ⟨_, hp⟩ => hp

theorem Wrote.own {seen : Seen} (hw : L.Wrote u k seen ws) (hs : seen ≠ .owned) :
    ∀ w ∈ ws, L.ownW u w := fun w hm => by
  rcases hw w hm with ho | ⟨he, _⟩
  · exact ho
  · exact absurd he hs

/-- Every write of an open transaction is of its owner's rows or of its key. -/
theorem Mode.writes (hm : L.Mode Ps db h c P u k p ws held) :
    ∀ w ∈ ws, L.ownW u w ∨ ∃ m, w = L.putW m ∧ L.key m = k := by
  cases hm with
  | opened _ _ hws =>
    rcases hws with ⟨rfl, _⟩ | ⟨rfl, _⟩
    · simp
    · intro w hw
      rw [List.mem_singleton] at hw; subst hw
      exact .inl (L.ownW_openW u)
  | locked x seen wrote _ _ _ _ _ _ _ hws _ => exact hws.weaken
  | _ => simp

/-- Whoever has written holds the owner's row or its create lock. -/
theorem Mode.owns (hm : L.Mode Ps db h c P u k p ws held) (hne : ws ≠ []) :
    (L.rowLock u ∈ held ∧ (L.present u c = true ∨ L.openLock u ∈ held)) ∨ L.openLock u ∈ held := by
  cases hm with
  | opened _ _ hws =>
    rcases hws with ⟨rfl, _⟩ | ⟨_, ho⟩
    · exact absurd rfl hne
    · exact .inr ho
  | locked x seen wrote hlock hpres _ _ _ _ _ _ _ => exact .inl ⟨hlock, hpres⟩
  | _ => exact absurd rfl hne

/-! ### One statement of the transaction itself -/

theorem replays_step {R : σ → σ → Prop} {x : σ} {β : Type} {s : S β} {n : β → Prog S ε α} {b : β}
    {ws' : List ω} (hr : Replays E R x P (.stmt s n) ws)
    (he : ∀ y, R x y → E.eval s (E.view y ws) = .ok (b, ws')) :
    Replays E R x P (n b) (ws ++ ws') := fun y hy => by
  rw [hr y hy, E.run_stmt_ok (he y hy), E.view_append]

theorem replays_find {R : σ → σ → Prop} {x : σ} {n : Option μ → Prog S ε α} {o : Option μ}
    (hr : Replays E R x P (.stmt (L.findS k) n) ws) (hk : L.legible k = true)
    (he : ∀ y, R x y → L.entry k (E.view y ws) = o) : Replays E R x P (n o) ws := by
  intro y hy
  rw [hr y hy, E.run_stmt_ok (L.eval_find k _ hk), he y hy, E.view_nil]

/-- Whoever looked at the entry knows it, whatever became of it. -/
theorem replays_seen {x : σ} {seen : Seen} (seen' : Seen)
    (hr : Replays E (L.agreeOn u k seen) x P p ws) (hs : seen' ≠ .unread) :
    Replays E (L.agreeOn u k seen') x P p ws := fun y hy =>
  hr y ⟨hy.1, fun _ => hy.2 hs⟩

/-- The replayed store may be moved to the committed one while the entry was not looked at. -/
theorem replays_here {x : σ} (seen : Seen) (hr : Replays E (L.agreeOn u k .unread) x P p ws)
    (ha : L.agree u x c) : Replays E (L.agreeOn u k seen) c P p ws := fun y hy =>
  hr y ⟨L.agree_trans ha hy.1, fun hne => absurd rfl hne⟩

theorem not_final_stmt {β : Type} {s : S β} {n : β → Prog S ε α} :
    ¬ Final (.stmt s n : Prog S ε α) := by
  rintro (⟨a, ha⟩ | ⟨e, he⟩)
  · cases ha
  · cases he

theorem mem_footprint {β : Type} {s : S β} {x : σ} {b : β} {ws' : List ω} {w : ω} {r : ρ}
    (he : E.eval s x = .ok (b, ws')) (hw : w ∈ ws') (hr : r ∈ E.holds w) : r ∈ E.footprint s x := by
  unfold Engine.footprint
  rw [he]
  exact List.mem_append_right _ (List.mem_flatMap.2 ⟨w, hw, hr⟩)

/-- An insert that wins its key occupies it. -/
theorem claim_footprint {m : μ} {x : σ} (hf : L.fits m = true)
    (hn : L.entry (L.key m) x = none) : L.keyLock (L.key m) ∈ E.footprint (L.claimS m) x := by
  have he : E.eval (L.claimS m) x = .ok (1, [L.putW m]) := by rw [L.eval_claim m x hf, hn]; rfl
  exact mem_footprint he (List.mem_singleton_self _) (L.holds_putW m)

theorem fits_of_claim {m : μ} {x : σ} {r : ℕ × List ω} (he : E.eval (L.claimS m) x = .ok r) :
    L.fits m = true := by
  by_contra hf
  obtain ⟨e, hee⟩ := L.misfit_claim m x (by simpa using hf)
  rw [hee] at he; cases he

theorem fits_of_create {m : μ} {x : σ} {r : Unit × List ω} (he : E.eval (L.createS m) x = .ok r) :
    L.fits m = true := by
  by_contra hf
  obtain ⟨e, hee⟩ := L.misfit_create m x (by simpa using hf)
  rw [hee] at he; cases he

/-- The first statement of a transaction. -/
theorem init_exec {β : Type} {s : S β} {n : β → Prog S ε α} {b : β} {ws' : List ω}
    (hser : Serial E Ps db h c) (hd : L.Disciplined u k (.stmt s n))
    (he : E.eval s (E.view c []) = .ok (b, ws')) :
    L.Mode Ps db h c (.stmt s n) u k (n b) ([] ++ ws') ([] ++ E.footprint s (E.view c [])) := by
  rw [E.view_nil] at *
  rw [List.nil_append, List.nil_append]
  cases hd with
  | final hf => exact absurd hf not_final_stmt
  | locked ans hlocked hmissing =>
    rw [L.eval_lock] at he; cases he
    cases hp : L.present u c with
    | true =>
      refine .locked c .unread false ?_ (.inl hp) (visited_last hser) (L.agree_refl u c) ?_ trivial
        (fun _ => rfl) (by simp [Wrote]) hlocked
      · exact List.mem_append_left _ (L.locks_lock u c hp)
      · intro y hy
        rw [E.run_stmt_ok (L.eval_lock u y), ← L.present_congr hy.1, hp]
    | false =>
      refine .missing c (visited_last hser) (fun _ hm => hm) ?_ hmissing
      intro y hy
      rw [E.run_stmt_ok (L.eval_lock u y), ← L.present_congr hy.1, hp]
  | opened ans hlocked =>
    rw [L.eval_open] at he
    simp only [Except.ok.injEq, Prod.mk.injEq] at he
    obtain ⟨-, rfl⟩ := he
    refine .opened rfl hlocked ?_
    cases hp : L.present u c with
    | true => exact .inl ⟨by simp, rfl⟩
    | false =>
      refine .inr ⟨by simp, ?_⟩
      exact mem_footprint (L.eval_open u c) (by simp [hp]) (L.holds_openW u)

/-- The lock statement after the owner's row was created or found. -/
theorem opened_exec {body : Bool → Prog S ε α} {ans : μ → Prog S ε α} {b : Bool} {ws' : List ω}
    (hser : Serial E Ps db h c) (hlk : L.Locks c ws held)
    (hP : P = .stmt (L.openS u) fun _ => .stmt (L.lockS u) body)
    (hd : L.Disc P u k ans .unread true (body true))
    (hws : ws = [] ∧ L.present u c = true ∨ ws = [L.openW u] ∧ L.openLock u ∈ held)
    (he : E.eval (L.lockS u) (E.view c ws) = .ok (b, ws')) :
    L.Mode Ps db h c P u k (body b) (ws ++ ws')
      (held ++ E.footprint (L.lockS u) (E.view c ws)) := by
  rw [L.eval_lock] at he; cases he
  have hpres : L.present u (E.view c ws) = true := by
    rcases hws with ⟨rfl, hp⟩ | ⟨rfl, -⟩
    · exact hp
    · exact L.present_openW u c
  rw [hpres, List.append_nil]
  refine .locked c .unread true (List.mem_append_right _ ?_) ?_ (visited_last hser)
    (L.agree_refl u c) ?_ trivial (fun hw => absurd hw (by simp)) ?_ hd
  · exact List.mem_append_left _ (L.locks_lock u _ hpres)
  · exact hws.imp (·.2) fun hw => List.mem_append_left _ hw.2
  · intro y hy
    have hy' := hy.1
    subst hP
    rcases hws with ⟨rfl, hp⟩ | ⟨rfl, ho⟩
    · rw [L.present_congr hy'] at hp
      rw [E.run_stmt_ok (L.eval_open u y), hp, if_pos rfl, E.view_nil, E.run_stmt_ok (L.eval_lock u y),
        hp, E.view_nil]
    · have hp := hlk.opens u ho
      rw [L.present_congr hy'] at hp
      rw [E.run_stmt_ok (L.eval_open u y), hp, if_neg (by simp), E.run_stmt_ok (L.eval_lock u _)]
      rw [show E.view y [L.openW u] = E.apply y (L.openW u) from rfl, L.present_openW]
      rfl
  · rcases hws with ⟨rfl, -⟩ | ⟨rfl, -⟩
    · simp [Wrote]
    · intro w hw
      rw [List.mem_singleton] at hw; subst hw
      exact .inl (L.ownW_openW u)

/-! ### A statement under the lock -/

variable (L Ps) in
/-- An open transaction that holds its owner's row and replays what it has done at the store `x`. -/
structure Locked (db : σ) (h : List (ι × α)) (c : σ) (P : Prog S ε α) (u : U) (k : K) (x : σ)
    (seen : Seen) (wrote : Bool) (p : Prog S ε α) (ws : List ω) (held : List ρ) : Prop where
  lock : L.rowLock u ∈ held
  present : L.present u c = true ∨ L.openLock u ∈ held
  visited : Visited E Ps db h x
  agree : L.agree u x c
  replays : Replays E (L.agreeOn u k seen) x P p ws
  seenAt : L.SeenAt k seen x c held
  unwritten : wrote = false → ws = []
  writes : L.Wrote u k seen ws

section locked
variable {x : σ} {seen : Seen} {wrote : Bool} {ans : μ → Prog S ε α}

theorem Locked.mode (hl : L.Locked Ps db h c P u k x seen wrote p ws held)
    (hd : L.Disc P u k ans seen wrote p) : L.Mode Ps db h c P u k p ws held :=
  .locked x seen wrote hl.lock hl.present hl.visited hl.agree hl.replays hl.seenAt hl.unwritten
    hl.writes hd

/-- More locks do no harm. -/
theorem Locked.grow (hl : L.Locked Ps db h c P u k x seen wrote p ws held) (more : List ρ) :
    L.Locked Ps db h c P u k x seen wrote p ws (held ++ more) where
  lock := List.mem_append_left more hl.lock
  present := hl.present.imp id fun ho => List.mem_append_left more ho
  visited := hl.visited
  agree := hl.agree
  replays := hl.replays
  seenAt := by
    have hs := hl.seenAt
    cases seen <;> simp only [SeenAt] at hs ⊢
    · exact hs
    · exact ⟨hs.1, hs.2.1, List.mem_append_left _ hs.2.2⟩
    · exact hs
  unwritten := hl.unwritten
  writes := hl.writes

/-- Before it looks at its entry, a transaction can as well be replayed at the committed store. -/
theorem Locked.here (hser : Serial E Ps db h c)
    (hl : L.Locked Ps db h c P u k x .unread wrote p ws held) :
    L.Locked Ps db h c P u k c .unread wrote p ws held where
  lock := hl.lock
  present := hl.present
  visited := visited_last hser
  agree := L.agree_refl u c
  replays := replays_here .unread hl.replays hl.agree
  seenAt := trivial
  unwritten := hl.unwritten
  writes := hl.writes

/-- The transaction goes on knowing its entry, absent or present at both stores. -/
theorem Locked.looked {p' : Prog S ε α} {seen' : Seen}
    (hl : L.Locked Ps db h c P u k x seen wrote p ws held) (hseen : seen ≠ .owned)
    (hr : Replays E (L.agreeOn u k seen') x P p' ws) (hs : L.SeenAt k seen' x c held)
    (hd : L.Disc P u k ans seen' wrote p') : L.Mode Ps db h c P u k p' ws held :=
  .locked x seen' wrote hl.lock hl.present hl.visited hl.agree hr hs hl.unwritten
    (fun w hm => .inl (hl.writes.own hseen w hm)) hd

/-- The transaction goes on owning its entry: its insert has won the key. -/
theorem Locked.won {p' : Prog S ε α} {m : μ} (hl : L.Locked Ps db h c P u k x seen wrote p ws held)
    (hseen : seen ≠ .owned) (hk : L.key m = k) (hx : L.entry k x = none) (hc : L.entry k c = none)
    (hput : L.keyLock k ∈ held)
    (hr : Replays E (L.agreeOn u k .owned) x P p' (ws ++ [L.putW m]))
    (hd : L.Disc P u k ans .owned true p') :
    L.Mode Ps db h c P u k p' (ws ++ [L.putW m]) held := by
  refine .locked x .owned true hl.lock hl.present hl.visited hl.agree hr ⟨hx, hc, hput⟩
    (fun hf => absurd hf (by simp)) (fun w hm => ?_) hd
  rcases List.mem_append.1 hm with hm | hm
  · exact .inl (hl.writes.own hseen w hm)
  · exact .inr ⟨rfl, m, List.mem_singleton.1 hm, hk⟩

/-- Related stores answer an owner statement as the committed one did. -/
theorem Locked.same {β : Type} {s : S β} {b : β} {ws' : List ω}
    (hl : L.Locked Ps db h c P u k x seen wrote p ws held) (hown : L.own u s)
    (he : E.eval s (E.view c ws) = .ok (b, ws')) :
    ∀ y, L.agreeOn u k seen x y → E.eval s (E.view y ws) = .ok (b, ws') := by
  intro y hy
  rw [← he]
  exact L.own_congr hown (L.agree_view (L.agree_trans (L.agree_symm hy.1) hl.agree) hl.writes.weaken)

/-- Inserts on every related store answer as on `x`. -/
theorem claim_related {m : μ} {seen' : Seen} (hws : ∀ w ∈ ws, L.ownW u w) (hk : L.key m = k)
    (hfit : L.fits m = true) (hseen : seen' ≠ .unread) :
    ∀ y, L.agreeOn u k seen' x y → E.eval (L.claimS m) (E.view y ws) =
      .ok (if (L.entry k x).isNone then (1, [L.putW m]) else (0, [])) := by
  intro y hy
  rw [L.eval_claim m _ hfit, hk, L.entry_view_own k hws, ← hy.2 hseen]

/-- The first look at the entry. -/
theorem find_exec {n : Option μ → Prog S ε α} (hser : Serial E Ps db h c)
    (hl : L.Locked Ps db h c P u k x .unread wrote (.stmt (L.findS k) n) ws held)
    (hk : L.legible k = true) (hn : L.Disc P u k ans .absent wrote (n none))
    (hs : ∀ m, L.Disc P u k ans .present wrote (n (some m))) :
    L.Mode Ps db h c P u k (n (L.entry k c)) ws held := by
  have hown := hl.writes.own (by simp)
  have hfind : ∀ seen' : Seen, seen' ≠ .unread → ∀ y, L.agreeOn u k seen' c y →
      L.entry k (E.view y ws) = L.entry k c := fun seen' hne y hy => by
    rw [L.entry_view_own k hown, ← hy.2 hne]
  have hr : ∀ seen' : Seen, seen' ≠ .unread →
      Replays E (L.agreeOn u k seen') c P (n (L.entry k c)) ws := fun seen' hne =>
    replays_find (replays_here seen' hl.replays hl.agree) hk (hfind seen' hne)
  cases ho : L.entry k c with
  | none =>
    have hseen : L.SeenAt k .absent c c held := ho
    exact (hl.here hser).looked (by simp) (ho ▸ hr .absent (by simp)) hseen hn
  | some m =>
    have hseen : L.SeenAt k .present c c held := ⟨m, ho, ho⟩
    exact (hl.here hser).looked (by simp) (ho ▸ hr .present (by simp)) hseen (hs m)

/-- Another look at an entry that was there. -/
theorem refind_exec {n : Option μ → Prog S ε α}
    (hl : L.Locked Ps db h c P u k x .present wrote (.stmt (L.findS k) n) ws held)
    (hk : L.legible k = true) (hs : ∀ m, L.Disc P u k ans .present wrote (n (some m))) :
    L.Mode Ps db h c P u k (n (L.entry k c)) ws held := by
  obtain ⟨m, hx, hc⟩ := hl.seenAt
  rw [hc]
  refine hl.looked (by simp) (replays_find hl.replays hk fun y hy => ?_) ⟨m, hx, hc⟩ (hs m)
  rw [L.entry_view_own k (hl.writes.own (by simp)), ← hy.2 (by simp), hx]

/-- An insert after the entry was seen to be missing: it can only succeed while the key is still
    absent, and then nobody else gets it. -/
theorem create_exec {m : μ} {n : Unit → Prog S ε α}
    (hl : L.Locked Ps db h c P u k x .absent wrote (.stmt (L.createS m) n) ws held)
    (hk : L.key m = k) (hfit : L.fits m = true) (hc : L.entry k c = none)
    (hput : L.keyLock k ∈ held) (hd : L.Disc P u k ans .owned true (n ())) :
    L.Mode Ps db h c P u k (n ()) (ws ++ [L.putW m]) held := by
  have hx : L.entry k x = none := hl.seenAt
  refine hl.won (by simp) hk hx hc hput ?_ hd
  refine replays_step (replays_seen .owned hl.replays (by simp)) fun y hy => L.eval_create m _ hfit ?_
  rw [hk, L.entry_view_own k (hl.writes.own (by simp)), ← hy.2 (by simp), hx]

/-- An insert as the first look at the entry. -/
theorem claimFirst_exec {m : μ} {n : ℕ → Prog S ε α} (hser : Serial E Ps db h c)
    (hl : L.Locked Ps db h c P u k x .unread wrote (.stmt (L.claimS m) n) ws held)
    (hk : L.key m = k) (hfit : L.fits m = true) (hput : L.entry k c = none → L.keyLock k ∈ held)
    (hone : L.Disc P u k ans .owned true (n 1)) (hzero : L.Disc P u k ans .present wrote (n 0)) :
    if (L.entry k c).isNone then L.Mode Ps db h c P u k (n 1) (ws ++ [L.putW m]) held
    else L.Mode Ps db h c P u k (n 0) ws held := by
  have hown := hl.writes.own (by simp)
  cases ho : L.entry k c with
  | none =>
    refine (hl.here hser).won (by simp) hk ho ho (hput ho) ?_ hone
    refine replays_step (replays_here .owned hl.replays hl.agree) fun y hy => ?_
    rw [claim_related hown hk hfit (by simp) y hy, ho]
    rfl
  | some m' =>
    have hseen : L.SeenAt k .present c c held := ⟨m', ho, ho⟩
    have hlost : ∀ y, L.agreeOn u k .present c y →
        E.eval (L.claimS m) (E.view y ws) = .ok (0, []) := fun y hy => by
      rw [claim_related hown hk hfit (by simp) y hy, ho]
      rfl
    have hr := replays_step (replays_here .present hl.replays hl.agree) hlost
    rw [List.append_nil] at hr
    exact (hl.here hser).looked (by simp) hr hseen hzero

/-- An insert after the entry was seen to be missing, by a transaction that has written nothing: it
    wins the key, or another owner has committed it since. -/
theorem claim_exec {m : μ} {n : ℕ → Prog S ε α} {n' : Option μ → Prog S ε α}
    (hl : L.Locked Ps db h c P u k x .absent false (.stmt (L.claimS m) n) [] held)
    (hk : L.key m = k) (hfit : L.fits m = true) (hput : L.entry k c = none → L.keyLock k ∈ held)
    (hone : L.Disc P u k ans .owned true (n 1)) (hzero : n 0 = .stmt (L.findS k) n')
    (hn : ∀ m, n' (some m) = ans m) (ha : L.Answers P k ans) :
    if (L.entry k c).isNone then L.Mode Ps db h c P u k (n 1) [L.putW m] held
    else L.Mode Ps db h c P u k (n 0) [] held := by
  have hx : L.entry k x = none := hl.seenAt
  cases ho : L.entry k c with
  | none =>
    refine hl.won (by simp) hk hx ho (hput ho) ?_ hone
    refine replays_step (replays_seen .owned hl.replays (by simp)) fun y hy => ?_
    rw [claim_related (by simp) hk hfit (by simp) y hy, hx]
    rfl
  | some m' =>
    rw [hzero]
    exact .late m' (hk ▸ L.fits_legible m hfit) ho hn ha

/-- The case split is on the discipline of the rest of the program. -/
theorem locked_exec {β : Type} {s : S β} {n : β → Prog S ε α} {b : β} {ws' : List ω}
    (hser : Serial E Ps db h c) (hl : L.Locked Ps db h c P u k x seen wrote (.stmt s n) ws held)
    (hd : L.Disc P u k ans seen wrote (.stmt s n))
    (he : E.eval s (E.view c ws) = .ok (b, ws')) :
    L.Mode Ps db h c P u k (n b) (ws ++ ws') (held ++ E.footprint s (E.view c ws)) := by
  have hl' := hl.grow (E.footprint s (E.view c ws))
  cases hd with
  | read hown hsil hc =>
    obtain rfl := hsil _ _ _ he
    have hr := replays_step hl.replays (hl.same hown he)
    rw [List.append_nil] at hr ⊢
    exact .locked x seen wrote hl'.lock hl'.present hl'.visited hl'.agree hr hl'.seenAt hl'.unwritten
      hl'.writes (hc b ⟨_, _, he⟩)
  | write hown hc =>
    refine .locked x seen true hl'.lock hl'.present hl'.visited hl'.agree
      (replays_step hl.replays (hl.same hown he)) hl'.seenAt (fun hf => absurd hf (by simp))
      (fun w hm => ?_) (hc b ⟨_, _, he⟩)
    rcases List.mem_append.1 hm with hm | hm
    · exact hl.writes w hm
    · exact .inl (L.own_writes hown he w hm)
  | find hn hs =>
    have hk := L.legible_of_find he
    rw [L.eval_find _ _ hk] at he; cases he
    rw [List.append_nil, L.entry_view_own k (hl.writes.own (by simp))]
    exact find_exec hser hl' hk hn hs
  | refind hs =>
    have hk := L.legible_of_find he
    rw [L.eval_find _ _ hk] at he; cases he
    rw [List.append_nil, L.entry_view_own k (hl.writes.own (by simp))]
    exact refind_exec hl' hk hs
  | @create _ m _ hk hc =>
    have hnone : L.entry (L.key m) (E.view c ws) = none := by
      by_contra hne
      obtain ⟨e, hee⟩ := L.eval_create_taken m _ hne
      rw [hee] at he; cases he
    have hfit := fits_of_create he
    have hput : L.keyLock k ∈ E.footprint (L.createS m) (E.view c ws) := by
      rw [← hk]
      exact mem_footprint (L.eval_create m _ hfit hnone) (List.mem_singleton_self _) (L.holds_putW m)
    rw [L.eval_create m _ hfit hnone] at he; cases he
    rw [hk, L.entry_view_own k (hl.writes.own (by simp))] at hnone
    exact create_exec hl' hk hfit hnone (List.mem_append_right _ hput) hc
  | @claimFirst _ m _ hk hone hzero =>
    have hkey : L.entry (L.key m) (E.view c ws) = L.entry k c := by
      rw [hk, L.entry_view_own k (hl.writes.own (by simp))]
    have hfit := fits_of_claim he
    have hput : L.entry k c = none → L.keyLock k ∈ held ++ E.footprint (L.claimS m) (E.view c ws) :=
      fun hc => List.mem_append_right _ (hk ▸ claim_footprint hfit (by rw [hkey, hc]))
    have hmode := claimFirst_exec hser hl' hk hfit hput hone hzero
    rw [L.eval_claim m _ hfit, hkey] at he
    split at hmode <;> rename_i hentry <;> simp only [hentry] at he <;> cases he
    · exact hmode
    · rwa [List.append_nil]
  | @claim m _ n' hk hone hzero hn ha =>
    obtain rfl := hl.unwritten rfl
    have hkey : L.entry (L.key m) (E.view c []) = L.entry k c := by rw [hk, E.view_nil]
    have hfit := fits_of_claim he
    have hput : L.entry k c = none → L.keyLock k ∈ held ++ E.footprint (L.claimS m) (E.view c []) :=
      fun hc => List.mem_append_right _ (hk ▸ claim_footprint hfit (by rw [hkey, hc]))
    have hmode := claim_exec hl' hk hfit hput hone hzero hn ha
    rw [L.eval_claim m _ hfit, hkey] at he
    split at hmode <;> rename_i hentry <;> simp only [hentry] at he <;> cases he
    · exact hmode
    · exact hmode

end locked

/-- One statement keeps the state of its own transaction. -/
theorem exec_mode {β : Type} {s : S β} {n : β → Prog S ε α} {b : β} {ws' : List ω}
    (hser : Serial E Ps db h c) (hlk : L.Locks c ws held)
    (hm : L.Mode Ps db h c P u k (.stmt s n) ws held)
    (he : E.eval s (E.view c ws) = .ok (b, ws')) :
    L.Mode Ps db h c P u k (n b) (ws ++ ws') (held ++ E.footprint s (E.view c ws)) := by
  cases hm with
  | init hd => exact init_exec hser hd he
  | opened hP hd hws => exact opened_exec hser hlk hP hd hws he
  | locked x seen wrote hlock hpres hv ha hr hs hw hws hd =>
    exact locked_exec hser ⟨hlock, hpres, hv, ha, hr, hs, hw, hws⟩ hd he
  | @missing _ _ ans x hv hmono hr hd =>
    rw [E.view_nil] at he ⊢
    cases hd with
    | final hf => exact absurd hf not_final_stmt
    | find hn hs ha =>
      have hk := L.legible_of_find he
      rw [L.eval_find _ _ hk] at he; cases he
      cases ho : L.entry k c with
      | none =>
        -- nothing was there at the earlier store either
        have hx : L.entry k x = none := by
          cases hx : L.entry k x with
          | none => rfl
          | some m => rw [hmono m hx] at ho; cases ho
        have hid : L.Idle P k ans _ := .final hn
        refine .missing x hv (by simp [hx]) (replays_find hr hk fun y hy => ?_) hid
        rw [E.view_nil, ← hy.2 (by simp), hx]
      | some m =>
        exact .answered m hk (hs m) ho ha
  | @late _ _ _ m hk hm hn ha =>
    rw [E.view_nil] at he ⊢
    rw [L.eval_find _ _ hk] at he; cases he
    rw [hm]
    exact .answered m hk (hn _) hm ha
  | answered m _ hp hm ha => exact absurd (hp ▸ ha.final m) not_final_stmt

/-- A statement occupies what it writes, and a create lock only on a missing row. -/
theorem exec_locks {β : Type} {s : S β} {b : β} {ws' : List ω} (hlk : L.Locks c ws held)
    (he : E.eval s (E.view c ws) = .ok (b, ws')) :
    L.Locks c (ws ++ ws') (held ++ E.footprint s (E.view c ws)) where
  writes w hw r hr := by
    rcases List.mem_append.1 hw with hw | hw
    · exact List.mem_append_left _ (hlk.writes w hw r hr)
    · exact List.mem_append_right _ (mem_footprint he hw hr)
  opens v hv := by
    rcases List.mem_append.1 hv with hv | hv
    · exact hlk.opens v hv
    · have habs := L.openLock_taken hv
      by_contra hp
      rw [Bool.not_eq_false] at hp
      rw [present_view L ws hp] at habs
      cases habs

/-! ### Commits of the others -/

/-- What transaction `j` of owner `v` publishes, seen from another open transaction. -/
structure Published (c : σ) (v : U) (k' : K) (wsj : List ω) (heldj : List ρ) : Prop where
  writes : ∀ w ∈ wsj, L.ownW v w ∨ ∃ m, w = L.putW m ∧ L.key m = k'
  owns : wsj ≠ [] → L.rowLock v ∈ heldj ∨ L.openLock v ∈ heldj
  locks : L.Locks c wsj heldj

theorem Mode.published (hm : L.Mode Ps db h c P u k p ws held) (hlk : L.Locks c ws held) :
    L.Published c u k ws held :=
  ⟨hm.writes, fun hne => (hm.owns hne).imp And.left id, hlk⟩

variable {v : U} {k' : K} {wsj : List ω} {heldj : List ρ} {h' : List (ι × α)}

/-- While a transaction holds its owner's row, nobody else publishes rows of that owner. -/
theorem Published.agree (hj : L.Published c v k' wsj heldj) (hex : ∀ r ∈ held, r ∉ heldj)
    (hlock : L.rowLock u ∈ held) (hpres : L.present u c = true ∨ L.openLock u ∈ held) :
    L.agree u c (E.view c wsj) := by
  by_cases hne : wsj = []
  · subst hne; exact L.agree_refl u c
  by_cases hv : u = v
  · subst hv
    rcases hj.owns hne with hr | ho
    · exact absurd hr (hex _ hlock)
    · rcases hpres with hp | hp
      · rw [hj.locks.opens _ ho] at hp; cases hp
      · exact absurd ho (hex _ hp)
  · exact L.agree_view_other hv hj.writes

/-- A key held by one transaction is published by no other. -/
theorem Published.absent (hj : L.Published c v k' wsj heldj) (hex : ∀ r ∈ held, r ∉ heldj)
    (hk : L.keyLock k ∈ held) (hn : L.entry k c = none) : L.entry k (E.view c wsj) = none := by
  by_contra hne
  obtain ⟨m, hm, rfl⟩ := L.entry_view_new hj.writes hn hne
  exact hex _ hk (hj.locks.writes _ hm _ (L.holds_putW m))

/-- A commit of another transaction keeps the state of this one. -/
theorem commit_mode (hm : L.Mode Ps db h c P u k p ws held) (hj : L.Published c v k' wsj heldj)
    (hex : ∀ r ∈ held, r ∉ heldj) (hvis : ∀ T, Visited E Ps db h T → Visited E Ps db h' T) :
    L.Mode Ps db h' (E.view c wsj) P u k p ws held := by
  cases hm with
  | init hd => exact .init hd
  | opened hP hd hws =>
    exact .opened hP hd (hws.imp (fun hw => ⟨hw.1, present_view L wsj hw.2⟩) id)
  | locked x seen wrote hlock hpres hv ha hr hs hw hws hd =>
    refine .locked x seen wrote hlock (hpres.imp (present_view L wsj) id) (hvis x hv)
      (L.agree_trans ha (hj.agree hex hlock hpres)) hr ?_ hw hws hd
    cases seen with
    | unread => trivial
    | absent => exact hs
    | owned => exact ⟨hs.1, hj.absent hex hs.2.2 hs.2.1, hs.2.2⟩
    | present =>
      obtain ⟨m, hx, hc⟩ := hs
      exact ⟨m, hx, L.entry_view_some hj.writes hc⟩
  | missing x hv hmono hr hd =>
    exact .missing x (hvis x hv) (fun m hx => L.entry_view_some hj.writes (hmono m hx)) hr hd
  | late m hk hm hn ha => exact .late m hk (L.entry_view_some hj.writes hm) hn ha
  | answered m hk hp hm ha => exact .answered m hk hp (L.entry_view_some hj.writes hm) ha

theorem commit_locks (hlk : L.Locks c ws held) (hj : L.Published c v k' wsj heldj)
    (hex : ∀ r ∈ held, r ∉ heldj) : L.Locks (E.view c wsj) ws held where
  writes := hlk.writes
  opens w hw := by
    by_contra hp
    rw [Bool.not_eq_false] at hp
    rcases L.present_view_new hp with hp | hp
    · rw [hlk.opens w hw] at hp; cases hp
    · exact hex _ hw (hj.locks.writes _ hp _ (L.holds_openW w))

/-! ### The commit itself -/

/-- The histories a commit of call `i` with answer `a` may lead to. -/
def Extends (Ps : ι → Prog S ε α) (db : σ) (h : List (ι × α)) (i : ι) (a : α) (c' : σ) : Prop :=
  ∃ h' : List (ι × α), h'.Perm ((i, a) :: h) ∧ Serial E Ps db h' c' ∧
    ∀ T, Visited E Ps db h T → Visited E Ps db h' T

theorem extends_last {i : ι} {a : α} {c' : σ} (hser : Serial E Ps db h c)
    (hr : E.run (Ps i) c = .ok (a, c')) : Extends (E := E) Ps db h i a c' :=
  ⟨h ++ [(i, a)], List.perm_append_singleton .., serial_append.2 ⟨c, hser, .cons hr (.nil c')⟩,
    fun _ => visited_append (i, a)⟩

/-- A commit is a call at the end of the history, or one that wrote nothing and is put where it
    looked. -/
theorem commit_extends {i : ι} {a : α} (hser : Serial E Ps db h c)
    (hm : L.Mode Ps db h c (Ps i) u k (.pure a) ws held) :
    Extends (E := E) Ps db h i a (E.view c ws) := by
  generalize hp : (Prog.pure a : Prog S ε α) = p at hm
  cases hm with
  | init hd =>
    refine extends_last hser ?_
    rw [← hp]; rfl
  | opened hP hd hws => cases hp
  | locked x seen wrote hlock hpres hv ha hr hs hw hws hd =>
    subst hp
    have here (he : seen ≠ .unread → L.entry k x = L.entry k c) :
        E.run (Ps i) c = .ok (a, E.view c ws) := hr c ⟨ha, he⟩
    cases seen with
    | unread => exact extends_last hser (here (absurd rfl))
    | owned => exact extends_last hser (here fun _ => by rw [hs.1, hs.2.1])
    | present =>
      obtain ⟨m, hx, hc⟩ := hs
      exact extends_last hser (here fun _ => by rw [hx, hc])
    | absent =>
      cases hd with
      | pure _ hsilent =>
        obtain rfl := hw (hsilent rfl)
        exact serial_insert hser hv (hr x ⟨L.agree_refl u x, fun _ => rfl⟩)
  | missing x hv hmono hr hd =>
    subst hp
    exact serial_insert hser hv (hr x ⟨L.agree_refl u x, fun _ => rfl⟩)
  | late m hk hm hn ha => cases hp
  | answered m hk hpm hm ha =>
    refine extends_last hser ?_
    rw [ha.run hk c m hm, ← hpm, ← hp]; rfl

/-- A commit publishes what the call run alone on the committed store would, or nothing. -/
theorem commit_store {i : ι} {a : α} (hm : L.Mode Ps db h c (Ps i) u k (.pure a) ws held) :
    E.run (Ps i) c = .ok (a, E.view c ws) ∨ ws = [] := by
  generalize hp : (Prog.pure a : Prog S ε α) = p at hm
  cases hm with
  | init _ => exact .inr rfl
  | opened _ _ _ => cases hp
  | locked x seen wrote _ _ _ ha hr hs hw _ hd =>
    subst hp
    have here (he : seen ≠ .unread → L.entry k x = L.entry k c) :
        E.run (Ps i) c = .ok (a, E.view c ws) := hr c ⟨ha, he⟩
    cases seen with
    | unread => exact .inl (here (absurd rfl))
    | owned => exact .inl (here fun _ => by rw [hs.1, hs.2.1])
    | present =>
      obtain ⟨m, hx, hc⟩ := hs
      exact .inl (here fun _ => by rw [hx, hc])
    | absent =>
      cases hd with
      | pure _ hsilent => exact .inr (hw (hsilent rfl))
  | missing _ _ _ _ _ => exact .inr rfl
  | late _ _ _ _ _ => cases hp
  | answered _ _ _ _ _ => exact .inr rfl

/-! ### Whole interleavings -/

section runs
variable [DecidableEq ι] (own : ι → U) (key : ι → K)

/-- The invariant of the machine: a serial history of the committed calls, the state of every open
    transaction over it, and mutual exclusion on what they hold. -/
structure Ordered (L : OwnerStore E U K μ) (Ps : ι → Prog S ε α) (own : ι → U) (key : ι → K)
    (db : σ) (M : Machine ι S ε σ ω ρ α) (h : List (ι × α)) : Prop where
  serial : Serial E Ps db h M.db
  once : (h.map Prod.fst).Nodup
  done : ∀ i a, (i, a) ∈ h ↔ M.txs i = .done a
  mode : ∀ i p ws held, M.txs i = .running p ws held →
    L.Mode Ps db h M.db (Ps i) (own i) (key i) p ws held
  locks : ∀ i p ws held, M.txs i = .running p ws held → L.Locks M.db ws held
  excl : ∀ i j, i ≠ j → ∀ r ∈ (M.txs i).held, r ∉ (M.txs j).held

variable {own key} {M M' : Machine ι S ε σ ω ρ α}

/-- A call that stays open or ends without a commit: the history is unchanged. -/
theorem Ordered.set (ho : L.Ordered Ps own key db M h) {i : ι} {st : Status S ε ω ρ α}
    (hopen : ∀ a, M.txs i ≠ .done a) (hst : ∀ a, st ≠ .done a)
    (hmode : ∀ p ws held, st = .running p ws held →
      L.Mode Ps db h M.db (Ps i) (own i) (key i) p ws held ∧ L.Locks M.db ws held)
    (hex : ∀ j, j ≠ i → ∀ r ∈ st.held, r ∉ (M.txs j).held) :
    L.Ordered Ps own key db (M.set i st) h where
  serial := ho.serial
  once := ho.once
  done j a := by
    by_cases hj : j = i
    · subst hj
      rw [set_self, ho.done]
      exact ⟨fun hd => absurd hd (hopen a), fun hd => absurd hd (hst a)⟩
    · rw [set_other M st hj, ho.done]
  mode j p ws held hj := by
    by_cases hji : j = i
    · subst hji; rw [set_self] at hj; exact (hmode p ws held hj).1
    · rw [set_other M st hji] at hj; exact ho.mode j p ws held hj
  locks j p ws held hj := by
    by_cases hji : j = i
    · subst hji; rw [set_self] at hj; exact (hmode p ws held hj).2
    · rw [set_other M st hji] at hj; exact ho.locks j p ws held hj
  excl j l hjl r hr := by
    by_cases hj : j = i
    · subst hj
      rw [set_self] at hr
      rw [set_other M st (Ne.symm hjl)]
      exact hex l (Ne.symm hjl) r hr
    · rw [set_other M st hj] at hr
      by_cases hl : l = i
      · subst hl; rw [set_self]; exact fun hr' => hex j hj r hr' hr
      · rw [set_other M st hl]; exact ho.excl j l hjl r hr

/-- A commit extends the history by the committed call. -/
theorem Ordered.commit (ho : L.Ordered Ps own key db M h) {i : ι} {a : α}
    (hi : M.txs i = .running (.pure a) ws held) :
    ∃ h', L.Ordered Ps own key db { M.set i (.done a) with db := E.view M.db ws } h' := by
  have hmode := ho.mode i _ _ _ hi
  obtain ⟨h', hperm, hser, hvis⟩ := commit_extends ho.serial hmode
  have hj := hmode.published (ho.locks i _ _ _ hi)
  have hother : ∀ {j : ι} {st}, ({ M.set i (.done a) with db := E.view M.db ws } :
      Machine ι S ε σ ω ρ α).txs j = st → j ≠ i → M.txs j = st := fun ht hne => by
    rwa [← set_other M (.done a) hne]
  have hex : ∀ j p ws held', M.txs j = .running p ws held' → j ≠ i → ∀ r ∈ held', r ∉ held :=
    fun j p ws held' ht hne r hr => by
      have := ho.excl j i hne r (by rw [ht]; exact hr)
      rwa [hi] at this
  refine ⟨h', hser, ?_, ?_, ?_, ?_, ?_⟩
  · rw [(hperm.map Prod.fst).nodup_iff, List.map_cons, List.nodup_cons]
    refine ⟨fun hm => ?_, ho.once⟩
    obtain ⟨⟨j, a'⟩, hm, hji⟩ := List.mem_map.1 hm
    cases hji
    have hd := (ho.done i a').1 hm
    rw [hi] at hd; cases hd
  · intro j b
    rw [hperm.mem_iff, List.mem_cons]
    by_cases hji : j = i
    · subst hji
      have hnot : (j, b) ∉ h := fun hm => by rw [ho.done, hi] at hm; cases hm
      simp [hnot, Machine.set, eq_comm]
    · rw [ho.done, show (Machine.mk (E.view M.db ws) (M.set i (.done a)).txs).txs j = M.txs j from
        set_other M _ hji]
      simp [hji]
  · intro j p ws' held' ht
    by_cases hji : j = i
    · subst hji; simp [Machine.set] at ht
    · have ht := hother ht hji
      exact commit_mode (ho.mode j _ _ _ ht) hj (hex j _ _ _ ht hji) hvis
  · intro j p ws' held' ht
    by_cases hji : j = i
    · subst hji; simp [Machine.set] at ht
    · have ht := hother ht hji
      exact commit_locks (ho.locks j _ _ _ ht) hj (hex j _ _ _ ht hji)
  · intro j l hjl r hr
    by_cases hji : j = i
    · subst hji; simp [Machine.set, Status.held] at hr
    · by_cases hli : l = i
      · subst hli; simp [Machine.set, Status.held]
      · rw [show (Machine.mk (E.view M.db ws) (M.set i (.done a)).txs).txs j = M.txs j from
          set_other M _ hji] at hr
        rw [show (Machine.mk (E.view M.db ws) (M.set i (.done a)).txs).txs l = M.txs l from
          set_other M _ hli]
        exact ho.excl j l hjl r hr

/-- Every step keeps the machine ordered. -/
theorem step_ordered (hD : ∀ i, L.Disciplined (own i) (key i) (Ps i))
    (ho : L.Ordered Ps own key db M h) (hs : Step E Ps M M') :
    ∃ h', L.Ordered Ps own key db M' h' := by
  cases hs with
  | exec hi he hfree =>
    rename_i i _ _ _ _ held _ _
    have hlk := ho.locks i _ _ _ hi
    refine ⟨h, ho.set (by simp [hi]) (by simp) ?_ ?_⟩
    · rintro p ws'' held' hst
      cases hst
      exact ⟨exec_mode ho.serial hlk (ho.mode i _ _ _ hi) he, exec_locks hlk he⟩
    · intro j hj r hr
      rcases List.mem_append.1 hr with hr | hr
      · exact ho.excl i j (Ne.symm hj) r (by rw [hi]; exact hr)
      · exact hfree j hj r hr
  | commit hi => exact ho.commit hi
  | abort hi => exact ⟨h, ho.set (by simp [hi]) (by simp) (by simp) (by simp [Status.held])⟩
  | retry hi =>
    rename_i i _ _ _
    refine ⟨h, ho.set (by simp [hi]) (by simp) ?_ (by simp)⟩
    rintro p ws held hst
    cases hst
    exact ⟨.init (hD i), by simp, by simp⟩

theorem reach_ordered (hD : ∀ i, L.Disciplined (own i) (key i) (Ps i)) (hr : Reach E Ps db M) :
    ∃ h, L.Ordered Ps own key db M h := by
  induction hr with
  | refl =>
    refine ⟨[], .nil db, List.nodup_nil, by simp [Machine.start], ?_, ?_, by simp [Machine.start]⟩
    · rintro i p ws held hi
      cases hi
      exact .init (hD i)
    · rintro i p ws held hi
      cases hi
      exact ⟨by simp, by simp⟩
  | tail _ hs ih =>
    obtain ⟨h, ho⟩ := ih
    exact step_ordered hD ho hs

/-- Disciplined transactions are serializable under read committed, however their statements
    interleave. -/
theorem serializable (hD : ∀ i, L.Disciplined (own i) (key i) (Ps i))
    (hr : Reach E Ps db M) : Serializable E Ps db M := by
  obtain ⟨h, ho⟩ := reach_ordered hD hr
  exact ⟨h, ho.serial, ho.once, ho.done⟩

/-- A step leaves the committed store alone or is the commit of a call that, run alone on that store,
    answers the same and leaves the same store. -/
theorem step_store (hD : ∀ i, L.Disciplined (own i) (key i) (Ps i)) (hr : Reach E Ps db M)
    (hs : Step E Ps M M') :
    M'.db = M.db ∨ ∃ i a, M'.txs i = .done a ∧ E.run (Ps i) M.db = .ok (a, M'.db) := by
  cases hs with
  | exec _ _ _ => exact .inl rfl
  | abort _ => exact .inl rfl
  | retry _ => exact .inl rfl
  | commit hi =>
    obtain ⟨h, ho⟩ := reach_ordered hD hr
    rcases commit_store (ho.mode _ _ _ _ hi) with hrun | rfl
    · exact .inr ⟨_, _, set_self .., hrun⟩
    · exact .inl rfl

/-- What every call run alone keeps holds of the committed store in every interleaving. -/
theorem reach_invariant (hD : ∀ i, L.Disciplined (own i) (key i) (Ps i)) {I : σ → Prop} (hI : I db)
    (hstep : ∀ i a x x', I x → E.run (Ps i) x = .ok (a, x') → I x') (hr : Reach E Ps db M) :
    I M.db := by
  induction hr with
  | refl => exact hI
  | tail hr hs ih =>
    rcases step_store hD hr hs with heq | ⟨i, a, -, hrun⟩
    · rw [heq]; exact ih
    · exact hstep i a _ _ ih hrun

end runs

end Txn.OwnerStore
