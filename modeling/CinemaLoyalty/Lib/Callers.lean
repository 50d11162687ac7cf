import CinemaLoyalty.Lib.Attempts
import CinemaLoyalty.Lib.OwnerSerial

/-! @lib Callers | scheme:ghost-history | layer:library

    The machine of `ReadCommitted` with what the caller of each transaction is told: the answer and
    the store its commit left, or the error it failed with. Errors come from a statement, from the
    callback, or from outside (a lost connection, a timeout), the latter also after a commit. Whoever
    is told an answer has committed it, and a disciplined transaction that inserts no shared entry is
    told only errors it would meet alone (`fate_explained`). -/

namespace Txn
open OwnerStore

/-- How a transaction ends for its caller. -/
inductive Fate (ε σ α : Type)
  | committed (a : α) (db : σ)
  | failed (e : ε)

/-- The machine and what the callers were told so far. -/
structure Watched (ι : Type) (S : Type → Type) (ε σ ω ρ α : Type) where
  machine : Machine ι S ε σ ω ρ α
  fate : ι → Option (Fate ε σ α)

section watched
variable {ι : Type} {S : Type → Type} {ε σ ω ρ α : Type} (E : Engine S ε σ ω ρ)
  (P : ι → Prog S ε α) (external : ε → Prop)

/-- Every call is about to issue its first statement and has been told nothing. -/
def Watched.start (db : σ) : Watched ι S ε σ ω ρ α := ⟨.start P db, fun _ => none⟩

variable [DecidableEq ι]

/-- Call `i` commits `a` over the row versions `ws`. -/
def Watched.commit (W : Watched ι S ε σ ω ρ α) (i : ι) (a : α) (ws : List ω) (f : Fate ε σ α) :
    Watched ι S ε σ ω ρ α where
  machine := { W.machine.set i (.done a) with db := E.view W.machine.db ws }
  fate := Function.update W.fate i (some f)

/-- Call `i` is rolled back with the error `e`. -/
def Watched.fail (W : Watched ι S ε σ ω ρ α) (i : ι) (e : ε) : Watched ι S ε σ ω ρ α where
  machine := W.machine.set i .aborted
  fate := Function.update W.fate i (some (.failed e))

/-- One step. `moves` tells nobody: a statement, a new attempt, or the end of a call whose caller is
    gone. -/
inductive Watch : Watched ι S ε σ ω ρ α → Watched ι S ε σ ω ρ α → Prop
  | moves {W : Watched ι S ε σ ω ρ α} {M' : Machine ι S ε σ ω ρ α} (hs : Step E P W.machine M') :
      Watch W { W with machine := M' }
  | commits {W : Watched ι S ε σ ω ρ α} {i : ι} {a : α} {ws : List ω} {held : List ρ}
      (hi : W.machine.txs i = .running (.pure a) ws held) :
      Watch W (W.commit E i a ws (.committed a (E.view W.machine.db ws)))
  | unanswered {W : Watched ι S ε σ ω ρ α} {i : ι} {a : α} {ws : List ω} {held : List ρ} {e : ε}
      (hi : W.machine.txs i = .running (.pure a) ws held) (he : external e) :
      Watch W (W.commit E i a ws (.failed e))
  | throws {W : Watched ι S ε σ ω ρ α} {i : ι} {ws : List ω} {held : List ρ} {e : ε}
      (hi : W.machine.txs i = .running (.throw e) ws held) : Watch W (W.fail i e)
  | refused {W : Watched ι S ε σ ω ρ α} {i : ι} {β : Type} {s : S β} {k : β → Prog S ε α}
      {ws : List ω} {held : List ρ} {e : ε} (hi : W.machine.txs i = .running (.stmt s k) ws held)
      (he : E.eval s (E.view W.machine.db ws) = .error e) : Watch W (W.fail i e)
  | lost {W : Watched ι S ε σ ω ρ α} {i : ι} {p : Prog S ε α} {ws : List ω} {held : List ρ} {e : ε}
      (hi : W.machine.txs i = .running p ws held) (he : external e) : Watch W (W.fail i e)

/-- The watched machines reached from `db` by any interleaving. -/
def WatchReach (db : σ) (W : Watched ι S ε σ ω ρ α) : Prop :=
  Relation.ReflTransGen (Watch E P external) (.start P db) W

variable {E P external} {W W' : Watched ι S ε σ ω ρ α} {M M' : Machine ι S ε σ ω ρ α} {db : σ} {i : ι}

/-- Watching changes nothing. -/
theorem watch_step (h : Watch E P external W W') : Step E P W.machine W'.machine := by
  cases h with
  | moves hs => exact hs
  | commits hi => exact .commit hi
  | unanswered hi _ => exact .commit hi
  | throws hi => exact .abort hi
  | refused hi _ => exact .abort hi
  | lost hi _ => exact .abort hi

theorem watch_reach (h : WatchReach E P external db W) : Reach E P db W.machine := by
  induction h with
  | refl => exact .refl
  | tail _ hs ih => exact ih.tail (watch_step hs)

/-- Only the call that ends is told something. -/
theorem update_told {β : Type} {F : ι → Option β} {j : ι} {g b : β}
    (h : Function.update F j (some g) i = some b) : i = j ∧ g = b ∨ F i = some b := by
  by_cases hij : i = j
  · subst hij
    rw [Function.update_self, Option.some.injEq] at h
    exact .inl ⟨rfl, h⟩
  · rw [Function.update_of_ne hij] at h
    exact .inr h

/-- A committed transaction stays committed. -/
theorem step_done {a : α} (hs : Step E P M M') (h : M.txs i = .done a) : M'.txs i = .done a := by
  have other : ∀ {j : ι} {st : Status S ε ω ρ α} {p : Prog S ε α} {ws : List ω} {held : List ρ},
      M.txs j = .running p ws held → (M.set j st).txs i = .done a := by
    intro j st p ws held hj
    have hne : i ≠ j := by
      rintro rfl
      rw [h] at hj
      cases hj
    rwa [set_other M st hne]
  cases hs with
  | exec hi _ _ => exact other hi
  | commit hi => exact other hi
  | abort hi => exact other hi
  | retry hi => exact other hi

/-- Whoever is told an answer has committed it. -/
theorem fate_done {a : α} {x : σ} (hr : WatchReach E P external db W)
    (hf : W.fate i = some (.committed a x)) : W.machine.txs i = .done a := by
  induction hr with
  | refl => cases hf
  | @tail W W' _ hs ih =>
    have kept (hf : W.fate i = some (.committed a x)) : W'.machine.txs i = .done a :=
      step_done (watch_step hs) (ih hf)
    cases hs with
    | moves _ => exact kept hf
    | commits hi =>
      rcases update_told hf with ⟨rfl, hg⟩ | hf
      · cases hg
        exact set_self ..
      · exact kept hf
    | unanswered _ _ => exact kept ((update_told hf).resolve_left nofun)
    | throws _ => exact kept ((update_told hf).resolve_left nofun)
    | refused _ _ => exact kept ((update_told hf).resolve_left nofun)
    | lost _ _ => exact kept ((update_told hf).resolve_left nofun)

/-! ### What is left of a transaction -/

/-- What every call has at its start and every answered statement keeps, every open call has. -/
theorem reach_left {J : ι → Prog S ε α → List ω → Prop} (hstart : ∀ i, J i (P i) [])
    (hstep : ∀ i {β : Type} {s : S β} {k : β → Prog S ε α} {ws ws' : List ω} {x : σ} {b : β},
      J i (.stmt s k) ws → E.eval s (E.view x ws) = .ok (b, ws') → J i (k b) (ws ++ ws'))
    (hr : Reach E P db M) :
    ∀ i p ws held, M.txs i = .running p ws held → J i p ws := by
  induction hr with
  | refl =>
    intro i p ws held hi
    cases hi
    exact hstart i
  | @tail M M' _ hs ih =>
    -- the transaction that moved, and the others
    have moved : ∀ (j : ι) (st : Status S ε ω ρ α),
        (∀ p ws held, st = .running p ws held → J j p ws) →
          ∀ i p ws held, (M.set j st).txs i = .running p ws held → J i p ws := by
      intro j st hst i p ws held hi
      by_cases hij : i = j
      · subst hij
        rw [set_self] at hi
        exact hst p ws held hi
      · rw [set_other M st hij] at hi
        exact ih i p ws held hi
    cases hs with
    | exec hi he _ =>
      refine moved _ _ ?_
      intro p ws held hst
      cases hst
      exact hstep _ (ih _ _ _ _ hi) he
    | @commit i a _ _ _ => exact moved i (.done a) (by simp)
    | @abort i _ _ _ _ => exact moved i .aborted (by simp)
    | retry _ =>
      refine moved _ _ ?_
      intro p ws held hst
      cases hst
      exact hstart _

/-- However an open call goes on, it is an attempt of its callback. -/
theorem reach_attempt (hr : Reach E P db M) {p : Prog S ε α} {ws : List ω} {held : List ρ}
    (hi : M.txs i = .running p ws held) {ended : Ended ε α} {pub : List ω}
    (h : Attempt E (fun _ => True) p ws ended pub) : Attempt E (fun _ => True) (P i) [] ended pub := by
  let J (i : ι) (p : Prog S ε α) (ws : List ω) : Prop := ∀ ended pub,
    Attempt E (fun _ => True) p ws ended pub → Attempt E (fun _ => True) (P i) [] ended pub
  have hJ : J i p ws := by
    refine reach_left (fun _ _ _ h => h) ?_ hr i p ws held hi
    intro i β s k ws ws' x b hj he ended pub h
    exact hj ended pub (.stmt trivial he h)
  exact hJ ended pub h

/-- Every statement of the program satisfies `Q`. -/
inductive Issues (E : Engine S ε σ ω ρ) (Q : (β : Type) → S β → Prop) : Prog S ε α → Prop
  | pure (a : α) : Issues E Q (.pure a)
  | throw (e : ε) : Issues E Q (.throw e)
  | stmt {β : Type} {s : S β} {k : β → Prog S ε α} (hs : Q β s)
      (hk : ∀ b, Yields E s b → Issues E Q (k b)) : Issues E Q (.stmt s k)

theorem reach_issues {Q : (β : Type) → S β → Prop} (hQ : Issues E Q (P i)) (hr : Reach E P db M)
    {p : Prog S ε α} {ws : List ω} {held : List ρ} (hi : M.txs i = .running p ws held) :
    Issues E Q p := by
  let J (i : ι) (p : Prog S ε α) (_ : List ω) : Prop := Issues E Q (P i) → Issues E Q p
  have hJ : J i p ws := by
    refine reach_left (fun _ h => h) ?_ hr i p ws held hi
    intro j β s k ws ws' x b hj he hP
    cases hj hP with
    | stmt _ hk => exact hk b ⟨_, _, he⟩
  exact hJ hQ

end watched

/-! ### Failures of disciplined transactions -/

namespace OwnerStore
variable {ι : Type} {S : Type → Type} {ε σ ω ρ α U K μ : Type} [DecidableEq K]
  {E : Engine S ε σ ω ρ} (L : OwnerStore E U K μ) {Ps : ι → Prog S ε α}

/-- An insert of a shared entry. -/
inductive Shared : ∀ {β : Type}, S β → Prop
  | claim (m : μ) : Shared (L.claimS m)
  | create (m : μ) : Shared (L.createS m)

variable {L} {db c : σ} {h : List (ι × α)} {P : Prog S ε α} {u : U} {k : K} {ws : List ω}
  {held : List ρ} {e : ε}

/-- A confined program issues statements on its owner's rows. -/
theorem Confined.issues {Q : (β : Type) → S β → Prop}
    (hQ : ∀ (β : Type) (s : S β), L.own u s → Q β s) {p : Prog S ε α} (hp : L.Confined u p) :
    Issues E Q p := by
  induction hp with
  | pure a => exact .pure a
  | throw e => exact .throw e
  | stmt hs _ ih => exact .stmt (hQ _ _ hs) ih

/-- An error thrown by the rest of a transaction is thrown by the transaction alone. -/
theorem thrown_alone (hm : L.Mode Ps db h c P u k (.throw e) ws held) :
    ∃ y, E.run P y = .error e := by
  generalize hp : (Prog.throw e : Prog S ε α) = p at hm
  cases hm with
  | init _ => exact ⟨c, by rw [← hp]; rfl⟩
  | opened _ _ _ => cases hp
  | locked x _ _ _ _ _ _ hr _ _ _ _ =>
    subst hp
    exact ⟨x, hr x ⟨L.agree_refl u x, fun _ => rfl⟩⟩
  | missing x _ _ hr _ =>
    subst hp
    exact ⟨x, hr x ⟨L.agree_refl u x, fun _ => rfl⟩⟩
  | late _ _ _ _ _ => cases hp
  | answered m hk hpm hm ha =>
    refine ⟨c, ?_⟩
    rw [ha.run hk c m hm, ← hpm, ← hp]
    rfl

/-- A statement that fails while others run fails in the transaction alone, unless it inserts a
    shared entry, which somebody else may have committed since. -/
theorem refused_alone {β : Type} {s : S β} {n : β → Prog S ε α}
    (hm : L.Mode Ps db h c P u k (.stmt s n) ws held) (hs : ¬L.Shared s)
    (he : E.eval s (E.view c ws) = .error e) : ∃ y, E.run P y = .error e := by
  cases hm with
  | init _ => exact ⟨c, E.run_stmt_error he⟩
  | opened _ _ _ =>
    rw [L.eval_lock] at he
    cases he
  | locked x seen wrote _ _ _ ha hr _ _ hws hd =>
    have own : L.own u s → ∃ y, E.run P y = .error e := by
      intro hown
      refine ⟨x, ?_⟩
      rw [hr x ⟨L.agree_refl u x, fun _ => rfl⟩]
      refine E.run_stmt_error ?_
      rw [L.own_congr hown (L.agree_view ha hws.weaken), he]
    have found {n' : Option μ → Prog S ε α} (hr : Replays E (L.agreeOn u k seen) x P
        (.stmt (L.findS k) n') ws) (he : E.eval (L.findS k) (E.view c ws) = .error e) :
        ∃ y, E.run P y = .error e := by
      refine ⟨x, ?_⟩
      rw [hr x ⟨L.agree_refl u x, fun _ => rfl⟩]
      exact E.run_stmt_error (L.find_refused he _)
    cases hd with
    | read hown _ _ => exact own hown
    | write hown _ => exact own hown
    | find _ _ => exact found hr he
    | refind _ => exact found hr he
    | create _ _ => exact absurd (.create _) hs
    | claimFirst _ _ _ => exact absurd (.claim _) hs
    | claim _ _ _ _ _ => exact absurd (.claim _) hs
  | missing x _ _ hr hd =>
    cases hd with
    | final hf => exact absurd hf not_final_stmt
    | find _ _ _ =>
      refine ⟨x, ?_⟩
      rw [hr x ⟨L.agree_refl u x, fun _ => rfl⟩]
      exact E.run_stmt_error (L.find_refused he _)
  | late _ hk _ _ _ =>
    rw [L.eval_find _ _ hk] at he
    cases he
  | answered m _ hp _ ha => exact absurd (hp ▸ ha.final m) not_final_stmt

/-! ### What callers are told -/

/-- What a fate says of the transaction: it committed the row versions of one attempt, as it would
    have alone unless there are none, or it met an error it meets alone or one from outside. -/
inductive Explained (E : Engine S ε σ ω ρ) (P : Prog S ε α) (external : ε → Prop) :
    Fate ε σ α → Prop
  | committed {a : α} {c : σ} {ws : List ω} (hrun : E.run P c = .ok (a, E.view c ws) ∨ ws = [])
      (ha : Attempt E (fun _ => True) P [] (.returned a) ws) :
      Explained E P external (.committed a (E.view c ws))
  | failed {e : ε} (h : external e ∨ ∃ y, E.run P y = .error e) : Explained E P external (.failed e)

variable [DecidableEq ι] {own : ι → U} {key : ι → K} {external : ε → Prop}
  {W W' : Watched ι S ε σ ω ρ α} {i : ι} {f : Fate ε σ α}

/-- A step keeps what callers were told, or tells one of them something explained. -/
theorem watch_explained (hD : ∀ i, L.Disciplined (own i) (key i) (Ps i))
    (hQ : Issues E (fun _ s => ¬L.Shared s) (Ps i)) (hr : WatchReach E Ps external db W)
    (hs : Watch E Ps external W W') (hf : W'.fate i = some f) :
    W.fate i = some f ∨ Explained E (Ps i) external f := by
  have hreach := watch_reach hr
  obtain ⟨h, ho⟩ := reach_ordered hD hreach
  cases hs with
  | moves _ => exact .inl hf
  | commits hi =>
    rcases update_told hf with ⟨rfl, rfl⟩ | hf
    · exact .inr (.committed (commit_store (ho.mode _ _ _ _ hi))
        (reach_attempt hreach hi (.commit _ _)))
    · exact .inl hf
  | unanswered _ he =>
    rcases update_told hf with ⟨rfl, rfl⟩ | hf
    · exact .inr (.failed (.inl he))
    · exact .inl hf
  | throws hi =>
    rcases update_told hf with ⟨rfl, rfl⟩ | hf
    · exact .inr (.failed (.inr (thrown_alone (ho.mode _ _ _ _ hi))))
    · exact .inl hf
  | refused hi he =>
    rcases update_told hf with ⟨rfl, rfl⟩ | hf
    · cases reach_issues hQ hreach hi with
      | stmt hs _ => exact .inr (.failed (.inr (refused_alone (ho.mode _ _ _ _ hi) hs he)))
    · exact .inl hf
  | lost _ he =>
    rcases update_told hf with ⟨rfl, rfl⟩ | hf
    · exact .inr (.failed (.inl he))
    · exact .inl hf

/-- What a caller is told is explained by its transaction alone, whatever the others do. -/
theorem fate_explained (hD : ∀ i, L.Disciplined (own i) (key i) (Ps i))
    (hQ : Issues E (fun _ s => ¬L.Shared s) (Ps i)) (hr : WatchReach E Ps external db W)
    (hf : W.fate i = some f) : Explained E (Ps i) external f := by
  induction hr with
  | refl => cases hf
  | tail hr hs ih =>
    rcases watch_explained hD hQ hr hs hf with hf | hexp
    · exact ih hf
    · exact hexp

end OwnerStore

end Txn
