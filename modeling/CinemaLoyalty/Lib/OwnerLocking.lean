import CinemaLoyalty.Lib.ReadCommitted

/-! @lib OwnerLocking | scheme:two-phase-locking | layer:library

    The locking discipline under which read committed is serializable. Every transaction belongs to
    one owner: it may create the owner's row if it is missing, locks that row first, and only then
    reads and writes rows of that owner. Besides them it may look at one entry of a shared,
    insert-only table of unique keys. Two kinds of transaction escape the lock: one whose owner row
    was missing, and one whose key was claimed by another owner after it looked. Both are shown to
    answer as they would have at an earlier or at the current point of the commit order.

    The proof is a replay invariant. `Replays` says that the whole program, run alone on any store
    which agrees with `x`, does what the rest of it does over its row versions; each open
    transaction replays on some store of the history, and at its commit on the latest one. -/

namespace Txn

/-- What the discipline needs of a store: the rows of an owner (`agree`: two stores have the same
    ones), whether the owner's row is there (`present`), the insert-only entries (`entry`; one that
    does not fit its columns is refused, and so is a look at a key that is not `legible`), the
    statements on them, and which statements are confined to one owner's rows (`own`). -/
structure OwnerStore {S : Type → Type} {ε σ ω ρ : Type} (E : Engine S ε σ ω ρ) (U K μ : Type)
    [DecidableEq K] where
  agree : U → σ → σ → Prop
  present : U → σ → Bool
  entry : K → σ → Option μ
  key : μ → K
  legible : K → Bool
  fits : μ → Bool
  openS : U → S Unit
  lockS : U → S Bool
  findS : K → S (Option μ)
  claimS : μ → S ℕ
  createS : μ → S Unit
  openW : U → ω
  putW : μ → ω
  own : U → ∀ {β : Type}, S β → Prop
  ownW : U → ω → Prop
  rowLock : U → ρ
  openLock : U → ρ
  keyLock : K → ρ
  agree_refl : ∀ u x, agree u x x
  agree_symm : ∀ {u x y}, agree u x y → agree u y x
  agree_trans : ∀ {u x y z}, agree u x y → agree u y z → agree u x z
  eval_open : ∀ u x, E.eval (openS u) x = .ok ((), if present u x then [] else [openW u])
  eval_lock : ∀ u x, E.eval (lockS u) x = .ok (present u x, [])
  locks_lock : ∀ u x, present u x = true → rowLock u ∈ E.locks (lockS u) x
  eval_find : ∀ k x, legible k = true → E.eval (findS k) x = .ok (entry k x, [])
  illegible_find : ∀ k, legible k = false → ∃ e, ∀ x, E.eval (findS k) x = .error e
  fits_legible : ∀ m, fits m = true → legible (key m) = true
  eval_claim : ∀ m x, fits m = true → E.eval (claimS m) x =
    .ok (if (entry (key m) x).isNone then (1, [putW m]) else (0, []))
  eval_create : ∀ m x, fits m = true → entry (key m) x = none →
    E.eval (createS m) x = .ok ((), [putW m])
  misfit_claim : ∀ m x, fits m = false → ∃ e, E.eval (claimS m) x = .error e
  misfit_create : ∀ m x, fits m = false → ∃ e, E.eval (createS m) x = .error e
  eval_create_taken : ∀ m x, entry (key m) x ≠ none → ∃ e, E.eval (createS m) x = .error e
  own_congr : ∀ {u x y} {β : Type} {s : S β}, own u s → agree u x y → E.eval s x = E.eval s y
  own_writes : ∀ {u x} {β : Type} {s : S β} {b ws}, own u s → E.eval s x = .ok (b, ws) →
    ∀ w ∈ ws, ownW u w
  ownW_openW : ∀ u, ownW u (openW u)
  agree_ownW : ∀ {u w x y}, ownW u w → agree u x y → agree u (E.apply x w) (E.apply y w)
  agree_other : ∀ {u v w} x, ownW u w → v ≠ u → agree v x (E.apply x w)
  agree_putW : ∀ v m x, agree v x (E.apply x (putW m))
  present_congr : ∀ {u x y}, agree u x y → present u x = present u y
  present_apply : ∀ {v x} w, present v x = true → present v (E.apply x w) = true
  present_new : ∀ {v x w}, present v (E.apply x w) = true → present v x = true ∨ w = openW v
  present_openW : ∀ u x, present u (E.apply x (openW u)) = true
  entry_ownW : ∀ {u w} k x, ownW u w → entry k (E.apply x w) = entry k x
  entry_putW : ∀ k m x, entry k (E.apply x (putW m)) =
    (entry k x).or (if key m = k then some m else none)
  openLock_taken : ∀ {v x} {β : Type} {s : S β}, openLock v ∈ E.footprint s x → present v x = false
  holds_openW : ∀ u, openLock u ∈ E.holds (openW u)
  holds_putW : ∀ m, keyLock (key m) ∈ E.holds (putW m)

/-- What a transaction knows of its shared entry: not looked yet, saw it absent, inserted it itself,
    or saw it committed. -/
inductive Seen | unread | absent | owned | present
  deriving DecidableEq

namespace OwnerStore
variable {S : Type → Type} {ε σ ω ρ α U K μ : Type} [DecidableEq K] {E : Engine S ε σ ω ρ}
  (L : OwnerStore E U K μ)

/-- The program neither issues nor needs another statement. -/
def Final (p : Prog S ε α) : Prop := (∃ a, p = .pure a) ∨ ∃ e, p = .throw e

/-- `b` is an answer the statement can give. -/
def Yields (E : Engine S ε σ ω ρ) {β : Type} (s : S β) (b : β) : Prop :=
  ∃ x ws, E.eval s x = .ok (b, ws)

/-- The statement never writes. -/
def Silent (E : Engine S ε σ ω ρ) {β : Type} (s : S β) : Prop :=
  ∀ x b ws, E.eval s x = .ok (b, ws) → ws = []

/-- Once its entry is committed as `m`, the whole program only answers `ans m`. -/
structure Answers (P : Prog S ε α) (k : K) (ans : μ → Prog S ε α) : Prop where
  run : L.legible k = true → ∀ x m, L.entry k x = some m → E.run P x = E.run (ans m) x
  final : ∀ m, Final (ans m)

/-- The discipline of a program that holds its owner's lock; `wrote` records whether it may have
    written. It may answer after seeing its entry absent only if it wrote nothing, and a claim lost
    after that leads to the answer for the committed entry. -/
inductive Disc (P : Prog S ε α) (u : U) (k : K) (ans : μ → Prog S ε α) :
    Seen → Bool → Prog S ε α → Prop
  | pure {seen wrote} (a : α) (h : seen = .absent → wrote = false) :
      Disc P u k ans seen wrote (.pure a)
  | throw {seen wrote} (e : ε) : Disc P u k ans seen wrote (.throw e)
  | read {seen wrote} {β : Type} {s : S β} {c : β → Prog S ε α} (hs : L.own u s) (hw : Silent E s)
      (hc : ∀ b, Yields E s b → Disc P u k ans seen wrote (c b)) :
      Disc P u k ans seen wrote (.stmt s c)
  | write {seen wrote} {β : Type} {s : S β} {c : β → Prog S ε α} (hs : L.own u s)
      (hc : ∀ b, Yields E s b → Disc P u k ans seen true (c b)) :
      Disc P u k ans seen wrote (.stmt s c)
  | find {wrote} {c : Option μ → Prog S ε α} (hn : Disc P u k ans .absent wrote (c none))
      (hs : ∀ m, Disc P u k ans .present wrote (c (some m))) :
      Disc P u k ans .unread wrote (.stmt (L.findS k) c)
  | refind {wrote} {c : Option μ → Prog S ε α}
      (hs : ∀ m, Disc P u k ans .present wrote (c (some m))) :
      Disc P u k ans .present wrote (.stmt (L.findS k) c)
  | create {wrote} {m : μ} {c : Unit → Prog S ε α} (hk : L.key m = k)
      (hc : Disc P u k ans .owned true (c ())) :
      Disc P u k ans .absent wrote (.stmt (L.createS m) c)
  | claimFirst {wrote} {m : μ} {c : ℕ → Prog S ε α} (hk : L.key m = k)
      (hone : Disc P u k ans .owned true (c 1)) (hzero : Disc P u k ans .present wrote (c 0)) :
      Disc P u k ans .unread wrote (.stmt (L.claimS m) c)
  | claim {m : μ} {c : ℕ → Prog S ε α} {c' : Option μ → Prog S ε α} (hk : L.key m = k)
      (hone : Disc P u k ans .owned true (c 1)) (hzero : c 0 = .stmt (L.findS k) c')
      (hc' : ∀ m, c' (some m) = ans m) (ha : L.Answers P k ans) :
      Disc P u k ans .absent false (.stmt (L.claimS m) c)

/-- The discipline of a program whose owner row was missing: at most one look at its entry. -/
inductive Idle (P : Prog S ε α) (k : K) (ans : μ → Prog S ε α) : Prog S ε α → Prop
  | final {p : Prog S ε α} (h : Final p) : Idle P k ans p
  | find {c : Option μ → Prog S ε α} (hn : Final (c none)) (hs : ∀ m, c (some m) = ans m)
      (ha : L.Answers P k ans) : Idle P k ans (.stmt (L.findS k) c)

/-- The shape of every transaction: no statement at all; or lock the owner, having first created its
    row if it was missing (`opened`). -/
inductive Disciplined (u : U) (k : K) : Prog S ε α → Prop
  | final {p : Prog S ε α} (h : Final p) : Disciplined u k p
  | locked {body : Bool → Prog S ε α} (ans : μ → Prog S ε α)
      (hlocked : L.Disc (.stmt (L.lockS u) body) u k ans .unread false (body true))
      (hmissing : L.Idle (.stmt (L.lockS u) body) k ans (body false)) :
      Disciplined u k (.stmt (L.lockS u) body)
  | opened {body : Bool → Prog S ε α} (ans : μ → Prog S ε α)
      (hlocked : L.Disc (.stmt (L.openS u) fun _ => .stmt (L.lockS u) body) u k ans .unread true
        (body true)) :
      Disciplined u k (.stmt (L.openS u) fun _ => .stmt (L.lockS u) body)

/-- A look that is answered is at a legible key. -/
theorem legible_of_find {k : K} {x : σ} {r : Option μ × List ω}
    (he : E.eval (L.findS k) x = .ok r) : L.legible k = true := by
  by_contra hk
  obtain ⟨e, hee⟩ := L.illegible_find k (by simpa using hk)
  rw [hee] at he; cases he

/-- A look that is refused is refused on every store. -/
theorem find_refused {k : K} {x : σ} {e : ε} (he : E.eval (L.findS k) x = .error e) (y : σ) :
    E.eval (L.findS k) y = .error e := by
  cases hk : L.legible k with
  | true => rw [L.eval_find k x hk] at he; cases he
  | false =>
    obtain ⟨e', hee⟩ := L.illegible_find k hk
    rw [hee x] at he
    rw [hee y, he]

/-- A command that looks at its entry before anything else and answers at once when it is committed. -/
theorem answers_of_lookup {u : U} {k : K} {body : Bool → Prog S ε α}
    {next : Bool → Option μ → Prog S ε α} {ans : μ → Prog S ε α}
    (hb : ∀ b, body b = .stmt (L.findS k) (next b)) (hn : ∀ b m, next b (some m) = ans m)
    (hf : ∀ m, Final (ans m)) : L.Answers (.stmt (L.lockS u) body) k ans where
  run hk x m hm := by
    rw [E.run_stmt_ok (L.eval_lock u x), hb, E.view_nil, E.run_stmt_ok (L.eval_find k x hk), hm, hn,
      E.view_nil]
  final := hf

/-! ### Composing disciplined programs -/

/-- Every statement is on rows of the owner `u`. -/
inductive Confined (u : U) : Prog S ε α → Prop
  | pure (a : α) : Confined u (.pure a)
  | throw (e : ε) : Confined u (.throw e)
  | stmt {β : Type} {s : S β} {c : β → Prog S ε α} (hs : L.own u s)
      (hc : ∀ b, Yields E s b → Confined u (c b)) : Confined u (.stmt s c)

section compose
variable {L} {β : Type} {u : U} {k : K} {P : Prog S ε α} {ans : μ → Prog S ε α} {seen : Seen}
  {wrote : Bool}

theorem Confined.bind {p : Prog S ε α} {f : α → Prog S ε β} (hp : L.Confined u p)
    (hf : ∀ a, L.Confined u (f a)) : L.Confined u (p >>= f) := by
  induction hp with
  | pure a => exact hf a
  | throw e => exact .throw e
  | stmt hs _ ih => exact .stmt hs ih

/-- A confined prefix leaves open what is known of the entry. -/
theorem Confined.disc_bind {p : Prog S ε β} {f : β → Prog S ε α} (hp : L.Confined u p)
    (hf : ∀ a, L.Disc P u k ans seen true (f a)) : L.Disc P u k ans seen true (p >>= f) := by
  induction hp with
  | pure a => exact hf a
  | throw e => exact .throw e
  | stmt hs _ ih => exact .write hs ih

/-- Unless its entry was seen absent, a transaction may go on with any confined program. -/
theorem Confined.disc {p : Prog S ε α} (hp : L.Confined u p) (hs : seen ≠ .absent) :
    L.Disc P u k ans seen wrote p := by
  induction hp generalizing wrote with
  | pure a => exact .pure a fun h => absurd h hs
  | throw e => exact .throw e
  | stmt hown _ ih => exact .write hown fun b hb => ih b hb

theorem Final.map {p : Prog S ε α} (f : α → β) (h : Final p) :
    Final (p >>= fun a => .pure (f a) : Prog S ε β) := by
  rcases h with ⟨a, rfl⟩ | ⟨e, rfl⟩
  · exact .inl ⟨f a, rfl⟩
  · exact .inr ⟨e, rfl⟩

theorem Answers.map (f : α → β) (h : L.Answers P k ans) :
    L.Answers (P >>= fun a => .pure (f a)) k fun m => ans m >>= fun a => .pure (f a) where
  run hk x m hm := by rw [E.run_bind, E.run_bind, h.run hk x m hm]
  final m := (h.final m).map f

theorem Disc.map {p : Prog S ε α} (f : α → β) (h : L.Disc P u k ans seen wrote p) :
    L.Disc (P >>= fun a => .pure (f a)) u k (fun m => ans m >>= fun a => .pure (f a)) seen wrote
      (p >>= fun a => .pure (f a)) := by
  induction h with
  | pure a hs => exact .pure (f a) hs
  | throw e => exact .throw e
  | read hs hw _ ih => exact .read hs hw ih
  | write hs _ ih => exact .write hs ih
  | find _ _ ihn ihs => exact .find ihn ihs
  | refind _ ihs => exact .refind ihs
  | create hk _ ih => exact .create hk ih
  | claimFirst hk _ _ ihone ihzero => exact .claimFirst hk ihone ihzero
  | claim hk _ hzero hc' ha ihone =>
    exact .claim hk ihone (by rw [hzero]; rfl) (fun m => by rw [hc' m]; rfl) (ha.map f)

theorem Idle.map {p : Prog S ε α} (f : α → β) (h : L.Idle P k ans p) :
    L.Idle (P >>= fun a => .pure (f a)) k (fun m => ans m >>= fun a => .pure (f a))
      (p >>= fun a => .pure (f a)) := by
  cases h with
  | final hf => exact .final (hf.map f)
  | find hn hs ha => exact .find (hn.map f) (fun m => by rw [hs m]; rfl) (ha.map f)

/-- Wrapping the answer of a disciplined program keeps it disciplined. -/
theorem Disciplined.map {p : Prog S ε α} (f : α → β) (h : L.Disciplined u k p) :
    L.Disciplined u k (p >>= fun a => .pure (f a)) := by
  cases h with
  | final hf => exact .final (hf.map f)
  | locked ans hlocked hmissing => exact .locked _ (hlocked.map f) (hmissing.map f)
  | opened ans hlocked => exact .opened _ (hlocked.map f)

end compose

/-! ### Rows of one owner through uncommitted writes -/

theorem agree_view {u : U} {k : K} {ws : List ω} {x y : σ} (h : L.agree u x y)
    (hw : ∀ w ∈ ws, L.ownW u w ∨ ∃ m, w = L.putW m ∧ L.key m = k) :
    L.agree u (E.view x ws) (E.view y ws) := by
  induction ws generalizing x y with
  | nil => exact h
  | cons w ws ih =>
    rw [E.view_cons, E.view_cons]
    refine ih ?_ fun w' hw' => hw w' (List.mem_cons_of_mem _ hw')
    rcases hw w (List.mem_cons_self ..) with ho | ⟨m, rfl, _⟩
    · exact L.agree_ownW ho h
    · exact L.agree_trans (L.agree_symm (L.agree_putW u m x)) (L.agree_trans h (L.agree_putW u m y))

/-- Committing the writes of owner `u` leaves the rows of every other owner alone. -/
theorem agree_view_other {u v : U} {k : K} (hv : v ≠ u) {ws : List ω} {x : σ}
    (hw : ∀ w ∈ ws, L.ownW u w ∨ ∃ m, w = L.putW m ∧ L.key m = k) :
    L.agree v x (E.view x ws) := by
  induction ws generalizing x with
  | nil => exact L.agree_refl v x
  | cons w ws ih =>
    rw [E.view_cons]
    refine L.agree_trans ?_ (ih fun w' hw' => hw w' (List.mem_cons_of_mem _ hw'))
    rcases hw w (List.mem_cons_self ..) with ho | ⟨m, rfl, _⟩
    · exact L.agree_other x ho hv
    · exact L.agree_putW v m x

theorem entry_view_own {u : U} (k : K) {ws : List ω} {x : σ} (hw : ∀ w ∈ ws, L.ownW u w) :
    L.entry k (E.view x ws) = L.entry k x := by
  induction ws generalizing x with
  | nil => rfl
  | cons w ws ih =>
    rw [E.view_cons, ih fun w' hw' => hw w' (List.mem_cons_of_mem _ hw'),
      L.entry_ownW k x (hw w (List.mem_cons_self ..))]

/-- A committed entry stays what it is. -/
theorem entry_view_some {u : U} {k k' : K} {m : μ} {ws : List ω} {x : σ}
    (hw : ∀ w ∈ ws, L.ownW u w ∨ ∃ m, w = L.putW m ∧ L.key m = k')
    (h : L.entry k x = some m) : L.entry k (E.view x ws) = some m := by
  induction ws generalizing x with
  | nil => exact h
  | cons w ws ih =>
    rw [E.view_cons]
    refine ih (fun w' hw' => hw w' (List.mem_cons_of_mem _ hw')) ?_
    rcases hw w (List.mem_cons_self ..) with ho | ⟨m', rfl, _⟩
    · rw [L.entry_ownW k x ho, h]
    · rw [L.entry_putW, h, Option.some_or]

/-- An absent entry that appears was put by one of the writes. -/
theorem entry_view_new {u : U} {k k' : K} {ws : List ω} {x : σ}
    (hw : ∀ w ∈ ws, L.ownW u w ∨ ∃ m, w = L.putW m ∧ L.key m = k')
    (h : L.entry k x = none) (hne : L.entry k (E.view x ws) ≠ none) :
    ∃ m, L.putW m ∈ ws ∧ L.key m = k := by
  induction ws generalizing x with
  | nil => exact absurd h hne
  | cons w ws ih =>
    have hrest := fun w' hw' => hw w' (List.mem_cons_of_mem _ hw')
    rw [E.view_cons] at hne
    rcases hw w (List.mem_cons_self ..) with ho | ⟨m, rfl, _⟩
    · obtain ⟨m, hm, hk⟩ := ih hrest (by rw [L.entry_ownW k x ho, h]) hne
      exact ⟨m, List.mem_cons_of_mem _ hm, hk⟩
    · by_cases hk : L.key m = k
      · exact ⟨m, List.mem_cons_self .., hk⟩
      · obtain ⟨m', hm', hk'⟩ := ih hrest (by rw [L.entry_putW, h]; simp [hk]) hne
        exact ⟨m', List.mem_cons_of_mem _ hm', hk'⟩

theorem present_view {v : U} (ws : List ω) {x : σ} (h : L.present v x = true) :
    L.present v (E.view x ws) = true := by
  induction ws generalizing x with
  | nil => exact h
  | cons w ws ih =>
    rw [E.view_cons]
    exact ih (L.present_apply w h)

theorem present_view_new {v : U} {ws : List ω} {x : σ} (h : L.present v (E.view x ws) = true) :
    L.present v x = true ∨ L.openW v ∈ ws := by
  induction ws generalizing x with
  | nil => exact .inl h
  | cons w ws ih =>
    rw [E.view_cons] at h
    rcases ih h with h | h
    · rcases L.present_new h with h | rfl
      · exact .inl h
      · exact .inr (List.mem_cons_self ..)
    · exact .inr (List.mem_cons_of_mem _ h)

end OwnerStore

end Txn
