import CinemaLoyalty.Effects
import CinemaLoyalty.Unlocks
import CinemaLoyalty.Lib.Tally
import Mathlib.Data.List.Nodup

/-! @svc AchievementRuns | layer:system | source:src/achievements/processors, src/achievements/achievements.service.ts

    The worker over many deliveries. A delivery tries the transaction of every matching achievement,
    and a run is any sequence of such tries, each committed or failed (`process_tried`). Seen from
    outside a run only consumes markers, moves one meter for each user and achievement, and pays
    the reward of a meter that unlocks (`TryEffect`); which tries count is a matter of who wrote the
    marker first (`Tallied`). -/

namespace CinemaLoyalty
open Txn Tally

/-- A dispatch intent: an event as the schema returns it, and the user it names. -/
structure Intent where
  event : ActionEvent
  userId : Uuid
  valid : event.parse = some event
  named : Uuid.ofText event.userId = some userId

/-- The unique key of `achievement_dispatch_intents`. -/
def Intent.key (i : Intent) : Uuid × String × AchievementAction :=
  (i.userId, i.event.eventId, i.event.actionType)

/-- What an event adds to an achievement; `none` where the criteria do not parse or the event is not
    to be processed. -/
def Achievement.increment? (a : Achievement) (event : ActionEvent) : Option JsNumber :=
  (parseAchievementCriteria a.criteria).bind fun criteria =>
    let increment := calculateAchievementProgressIncrement criteria event
    if increment.shouldProcess then some increment.incrementBy else none

/-- The target of the criteria. -/
def Achievement.target (a : Achievement) : ℤ :=
  (parseAchievementCriteria a.criteria).elim 0 (·.target)

/-- The integer an event adds. -/
def Achievement.amount? (a : Achievement) (event : ActionEvent) : Option ℤ :=
  (a.increment? event).bind (·.toInt?)

/-! ### Deliveries -/

/-- What a delivery answers. -/
inductive JobResult
  | done
  | invalid
  | failed (failures : List (String × TxError)) (matching : ℕ)

/-- One transaction of a delivery. `aborts` gives the error of one that fails from outside. -/
def processOne (event : ActionEvent) (now : Instant) (aborts : Achievement → Option TxError)
    (achievement : Achievement) (db : DB) : Except TxError Unit × DB :=
  match aborts achievement with
  | some e => (.error e, db)
  | none => db.transaction (processAchievementJob event achievement now)

/-- The loop of `process`. -/
def processEach (event : ActionEvent) (now : Instant) (aborts : Achievement → Option TxError) :
    List Achievement → DB → List (String × TxError) × DB
  | [], db => ([], db)
  | achievement :: rest, db =>
    match processOne event now aborts achievement db with
    | (.ok (), db') => processEach event now aborts rest db'
    | (.error e, db') =>
      let (failures, db'') := processEach event now aborts rest db'
      ((achievement.code, e) :: failures, db'')

/-- `process`: a failed achievement does not stop the others, and fails the job. -/
def process (event : ActionEvent) (now : Instant) (aborts : Achievement → Option TxError)
    (db : DB) : JobResult × DB :=
  match event.parse with
  | none => (.invalid, db)
  | some event =>
    let matchingAchievements := db.matchingAchievements event.actionType
    match processEach event now aborts matchingAchievements db with
    | ([], db') => (.done, db')
    | (failures, db') => (.failed failures matchingAchievements.length, db')

/-! ### Tries -/

/-- One achievement of one delivery: its transaction commits or fails. -/
structure Try where
  intent : Intent
  achievement : Achievement
  now : Instant
  commits : Bool

def Try.tx (t : Try) : Tx Unit := processAchievementJob t.intent.event t.achievement t.now

/-- The marker of a try. -/
def Try.marker (t : Try) : String := uniqueProcessId t.intent.event.eventId t.achievement

/-- The try reaches its marker. -/
def Try.processes (t : Try) : Bool :=
  t.commits && (t.achievement.increment? t.intent.event).isSome

/-- What the try counts. -/
def Try.amount? (t : Try) : Option ℤ := t.achievement.amount? t.intent.event

/-- The database after a sequence of tries. -/
inductive Tried (db : DB) : List Try → DB → Prop
  | start : Tried db [] db
  | failed {ts : List Try} {x : DB} {t : Try} (h : Tried db ts x) (hf : t.commits = false) :
      Tried db (ts ++ [t]) x
  | committed {ts : List Try} {x y : DB} {t : Try} (h : Tried db ts x) (hc : t.commits = true)
      (ht : x.transaction t.tx = (.ok (), y)) : Tried db (ts ++ [t]) y

/-- The tries one after the other, as long as those that are to commit succeed. -/
def DB.runTries (db : DB) : List Try → Option DB
  | [] => some db
  | t :: ts =>
    if t.commits then
      match db.transaction t.tx with
      | (.ok _, db') => db'.runTries ts
      | (.error _, _) => none
    else db.runTries ts

section tried
variable {db x y : DB} {ts ts' : List Try} {t : Try}

theorem Tried.append (h : Tried db ts x) (h' : Tried x ts' y) : Tried db (ts ++ ts') y := by
  induction h' with
  | start => rwa [List.append_nil]
  | failed _ hf ih => rw [← List.append_assoc]; exact .failed ih hf
  | committed _ hc ht ih => rw [← List.append_assoc]; exact .committed ih hc ht

theorem processOne_tried (i : Intent) (now : Instant) (aborts : Achievement → Option TxError)
    (a : Achievement) (db : DB) :
    ∃ commits, Tried db [⟨i, a, now, commits⟩] (processOne i.event now aborts a db).2 := by
  unfold processOne
  cases aborts a with
  | some e => exact ⟨false, .failed .start rfl⟩
  | none =>
    rcases transaction_cases (processAchievementJob i.event a now) db with
      ⟨e, -, he⟩ | ⟨r, db', -, he⟩
    · rw [he]; exact ⟨false, .failed .start rfl⟩
    · rw [he]; exact ⟨true, .committed .start rfl he⟩

/-- The loop of a delivery is a sequence of tries, one for each achievement. -/
theorem processEach_tried (i : Intent) (now : Instant) (aborts : Achievement → Option TxError)
    (achievements : List Achievement) (db : DB) : ∃ ts,
      Tried db ts (processEach i.event now aborts achievements db).2 ∧
        ts.map (·.achievement) = achievements ∧ ∀ t ∈ ts, t.intent = i := by
  induction achievements generalizing db with
  | nil => exact ⟨[], .start, rfl, List.forall_mem_nil _⟩
  | cons a rest ih =>
    obtain ⟨commits, hone⟩ := processOne_tried i now aborts a db
    unfold processEach
    generalize processOne i.event now aborts a db = answer at hone
    obtain ⟨r, db'⟩ := answer
    obtain ⟨ts, hts, hmap, hall⟩ := ih db'
    refine ⟨⟨i, a, now, commits⟩ :: ts, ?_, by rw [List.map_cons, hmap],
      List.forall_mem_cons.2 ⟨rfl, hall⟩⟩
    have hrun := hone.append hts
    cases r with
    | ok r => exact hrun
    | error e => exact hrun

/-- A delivery tries the matching achievements, each once. -/
theorem process_tried (i : Intent) (now : Instant) (aborts : Achievement → Option TxError)
    (db : DB) : ∃ ts, Tried db ts (process i.event now aborts db).2 ∧
      ts.map (·.achievement) = db.matchingAchievements i.event.actionType ∧
        ∀ t ∈ ts, t.intent = i := by
  obtain ⟨ts, hts, hmap, hall⟩ :=
    processEach_tried i now aborts (db.matchingAchievements i.event.actionType) db
  refine ⟨ts, ?_, hmap, hall⟩
  unfold process
  simp only [i.valid]
  split <;> rename_i heq <;> rw [heq] at hts <;> exact hts

theorem transaction_run {α : Type} {p : Tx α} {r : α} (h : x.transaction p = (.ok r, y)) :
    x.run p = .ok (r, y) := by
  rcases transaction_cases p x with ⟨e, -, he⟩ | ⟨r', db', hr, he⟩
  · rw [he] at h; cases h
  · rw [he] at h; cases h; exact hr

/-- What runs has been tried. -/
theorem runTries_tried (h : db.runTries ts = some x) : Tried db ts x := by
  induction ts generalizing db with
  | nil => cases h; exact .start
  | cons t ts ih =>
    unfold DB.runTries at h
    split at h
    · rename_i hc
      split at h
      · rename_i r db' ht
        exact (Tried.committed .start hc ht).append (ih h)
      · cases h
    · rename_i hf
      exact (Tried.failed .start (Bool.not_eq_true _ ▸ hf)).append (ih h)

end tried

/-! ### What a try does -/

instance (db : DB) (u a : Uuid) : Decidable (db.Unlocked u a) :=
  inferInstanceAs (Decidable (_ = true))

/-- The marker is recorded. -/
def DB.seen (db : DB) (marker : String) : Bool := (db.processedEvents marker).isSome

/-- The progress of a user in an achievement. -/
def DB.meter (db : DB) (u a : Uuid) : Meter :=
  match db.userAchievements (u, a) with
  | none => .locked 0
  | some row => if row.isUnlocked then .unlocked else .locked row.current

/-- What rewards add to: the reward rows of a user and two totals of the profile. -/
structure Purse where
  rows : List (String × ℤ)
  balance : ℤ
  lifetimePoints : ℤ

/-- The reward rows of a user, as description and points, and the totals. -/
def DB.purse (db : DB) (u : Uuid) : Purse where
  rows := (db.earnedOf u).map fun t => (t.description, t.points)
  balance := (db.profileOrDefault u).balance
  lifetimePoints := (db.profileOrDefault u).lifetimePoints

/-- The purse after the reward of an achievement. -/
def Purse.pay (p : Purse) (a : Achievement) : Purse where
  rows := p.rows ++ [("Unlocked achievement: " ++ a.name, a.rewardPoints)]
  balance := p.balance + a.rewardPoints
  lifetimePoints := p.lifetimePoints + a.rewardPoints

/-- A processed try: it records its marker, adds to one meter if the marker was new, and pays if the
    meter unlocks. -/
structure TryEffect (x y : DB) (marker : String) (u : Uuid) (a : Achievement) (n : Option ℤ) :
    Prop where
  seen : ∀ k, y.seen k = (x.seen k || decide (k = marker))
  meter : y.meter u a.id =
    if x.seen marker = true then x.meter u a.id else (x.meter u a.id).run a.target n.toList
  frame : ∀ k, k ≠ (u, a.id) → y.userAchievements k = x.userAchievements k
  purse : ∀ v, y.purse v =
    if v = u ∧ 0 < a.rewardPoints ∧ ¬x.Unlocked u a.id ∧ y.Unlocked u a.id then (x.purse v).pay a
    else x.purse v

section steps
variable {x y : DB} {u v : Uuid} {a : Achievement} {eventId : String} {n t : ℤ} {now : Instant}

theorem meter_unlocked {a : Uuid} : x.meter u a = .unlocked ↔ x.Unlocked u a := by
  unfold DB.meter DB.Unlocked
  cases x.userAchievements (u, a) with
  | none => simp
  | some row => by_cases h : row.isUnlocked <;> simp [h]

theorem meter_congr {b : Uuid} (h : y.userAchievements (u, b) = x.userAchievements (u, b)) :
    y.meter u b = x.meter u b := by
  unfold DB.meter; rw [h]

theorem purse_congr (he : y.earnedOf v = x.earnedOf v)
    (hp : y.profileOrDefault v = x.profileOrDefault v) : y.purse v = x.purse v := by
  unfold DB.purse; rw [he, hp]

theorem marked_seen (marker k : String) :
    (x.marked u marker).seen k = (x.seen k || decide (k = marker)) := by
  unfold DB.seen DB.marked
  rw [processedEvents_event, ensureProfile_processedEvents]
  by_cases hk : k = marker
  · cases x.processedEvents k <;> simp [hk]
  · simp [hk]

theorem counted_progress (k : Uuid × Uuid) :
    (x.counted eventId u a t n now).userAchievements k =
      if k = (u, a.id) then
        let row := advancedRow (x.userAchievements (u, a.id)) t n
        some (if row.current < t then row else row.unlock now)
      else x.userAchievements k := by
  unfold DB.counted
  simp only
  by_cases hlt : (advancedRow (x.userAchievements (u, a.id)) t n).current < t
  · simp [hlt, DB.marked]
  · by_cases hk : k = (u, a.id) <;> by_cases hr : a.rewardPoints ≤ 0 <;>
      simp [hlt, hk, hr, DB.marked, DB.unlocked, DB.rewarded, DB.post]

theorem counted_events : (x.counted eventId u a t n now).processedEvents =
    (x.marked u (uniqueProcessId eventId a)).processedEvents := by
  unfold DB.counted
  simp only
  split
  · simp
  · split <;> simp [DB.unlocked, DB.rewarded, DB.post]

/-- The progress row after a count is the meter after it. -/
theorem counted_meter (hl : ¬x.Unlocked u a.id) :
    (x.counted eventId u a t n now).meter u a.id = (x.meter u a.id).add t n := by
  unfold DB.Unlocked at hl
  unfold DB.meter
  rw [counted_progress, if_pos rfl]
  cases hrow : x.userAchievements (u, a.id) with
  | none =>
    by_cases hlt : n < t <;> simp [advancedRow, Meter.add, hlt, UserAchievement.unlock]
  | some row =>
    have hopen : row.isUnlocked = false := by simpa [hrow] using hl
    by_cases hlt : row.current + n < t <;>
      simp [advancedRow, Meter.add, hlt, hopen, UserAchievement.unlock]

theorem counted_unlocked (hl : ¬x.Unlocked u a.id) :
    (x.counted eventId u a t n now).Unlocked u a.id ↔
      ¬(advancedRow (x.userAchievements (u, a.id)) t n).current < t := by
  unfold DB.Unlocked
  rw [counted_progress, if_pos rfl]
  have hopen : (advancedRow (x.userAchievements (u, a.id)) t n).isUnlocked = false :=
    advancedRow_locked n ((Bool.not_eq_true _).mp hl)
  by_cases hlt : (advancedRow (x.userAchievements (u, a.id)) t n).current < t
  · simp [hlt, hopen]
  · simp [hlt, UserAchievement.unlock]

theorem rewarded_purse {p : LoyaltyProfile} (hp : x.profiles u = some p) :
    (x.rewarded u a p now).purse v = if v = u then (x.purse v).pay a else x.purse v := by
  unfold DB.rewarded DB.post DB.purse Purse.pay
  have hprofile := profileOrDefault_of hp
  by_cases hv : v = u
  · subst hv
    simp [profileOrDefault_update _ hp, hprofile, DB.numbered, rewardRow]
  · simp [profileOrDefault_update _ hp, hv, Ne.symm hv, DB.numbered, rewardRow]

theorem counted_purse (hl : ¬x.Unlocked u a.id) :
    (x.counted eventId u a t n now).purse v =
      if v = u ∧ 0 < a.rewardPoints ∧ ¬x.Unlocked u a.id ∧
        (x.counted eventId u a t n now).Unlocked u a.id then (x.purse v).pay a else x.purse v := by
  have hreached := @counted_unlocked x u a eventId n t now hl
  generalize hy : x.counted eventId u a t n now = y at hreached ⊢
  unfold DB.counted at hy
  simp only at hy
  by_cases hlt : (advancedRow (x.userAchievements (u, a.id)) t n).current < t
  · rw [if_neg fun h => hreached.1 h.2.2.2 hlt]
    rw [if_pos hlt] at hy
    subst hy
    exact purse_congr (by simp [DB.marked]) (by simp [DB.marked])
  rw [if_neg hlt] at hy
  by_cases hr : a.rewardPoints ≤ 0
  · rw [if_neg fun h => by omega]
    rw [if_pos hr] at hy
    subst hy
    exact purse_congr (by simp [DB.marked, DB.unlocked]) (by simp [DB.marked, DB.unlocked])
  rw [if_neg hr] at hy
  subst hy
  have hp : ((x.marked u (uniqueProcessId eventId a)).unlocked u a.id
      (advancedRow (x.userAchievements (u, a.id)) t n) now).profiles u =
        some (x.profileOrDefault u) := by
    simp [DB.marked, DB.unlocked]
  have hsame : ((x.marked u (uniqueProcessId eventId a)).unlocked u a.id
      (advancedRow (x.userAchievements (u, a.id)) t n) now).purse v = x.purse v :=
    purse_congr (by simp [DB.marked, DB.unlocked]) (by simp [DB.marked, DB.unlocked])
  rw [rewarded_purse hp, hsame]
  exact if_congr ⟨fun hv => ⟨hv, by omega, hl, hreached.2 hlt⟩, fun h => h.1⟩ rfl rfl

/-- A step that succeeds consumes its marker, moves its meter and pays. -/
theorem outcome_tryEffect {incrementBy : JsNumber}
    (h : StepOutcome x eventId u a a.target incrementBy now y) :
    TryEffect x y (uniqueProcessId eventId a) u a incrementBy.toInt? := by
  cases h with
  | duplicate hb ho =>
    have hseen : x.seen (uniqueProcessId eventId a) = true := by simp [DB.seen, hb]
    have hsame : (x.ensureProfile u).userAchievements = x.userAchievements :=
      ensureProfile_userAchievements u
    refine ⟨fun k => ?_, ?_, fun k _ => congrFun hsame k, fun v => ?_⟩
    · unfold DB.seen at hseen ⊢
      rw [ensureProfile_processedEvents]
      by_cases hk : k = uniqueProcessId eventId a <;> simp [hk, hseen]
    · rw [if_pos hseen]
      exact meter_congr (congrFun hsame _)
    · have hlocked : (x.ensureProfile u).Unlocked u a.id ↔ x.Unlocked u a.id := by
        unfold DB.Unlocked; rw [hsame]
      rw [if_neg fun h => h.2.2.1 (hlocked.1 h.2.2.2)]
      exact purse_congr (earnedOf_ensure u v) (profileOrDefault_ensure u)
  | swallowed hn hrow hu =>
    have hseen : ¬x.seen (uniqueProcessId eventId a) = true := by simp [DB.seen, hn]
    have hunlocked : x.Unlocked u a.id := unlocked_iff.2 ⟨_, hrow, hu⟩
    have hsame : (x.marked u (uniqueProcessId eventId a)).userAchievements =
        x.userAchievements := by simp [DB.marked]
    refine ⟨marked_seen _, ?_, fun k _ => congrFun hsame k, fun v => ?_⟩
    · rw [if_neg hseen, meter_congr (congrFun hsame _), meter_unlocked.2 hunlocked, run_unlocked]
    · rw [if_neg fun h => h.2.2.1 hunlocked]
      exact purse_congr (by simp [DB.marked]) (by simp [DB.marked])
  | @counted n hint hn hl =>
    have hseen : ¬x.seen (uniqueProcessId eventId a) = true := by simp [DB.seen, hn]
    have hlocked : ¬x.Unlocked u a.id := by simp [DB.Unlocked, hl]
    refine ⟨fun k => ?_, ?_, fun k hk => ?_, fun v => counted_purse hlocked⟩
    · rw [← marked_seen]
      unfold DB.seen
      rw [counted_events]
    · rw [if_neg hseen, counted_meter hlocked, hint]
      rfl
    · rw [counted_progress, if_neg hk]

/-- A committed try does nothing, or is a step. -/
theorem try_effect {s : Try} (h : x.transaction s.tx = (.ok (), y)) :
    s.achievement.increment? s.intent.event = none ∧ y = x ∨
      (s.achievement.increment? s.intent.event).isSome = true ∧
        TryEffect x y s.marker s.intent.userId s.achievement s.amount? := by
  have hrun := transaction_run h
  unfold Try.tx processAchievementJob at hrun
  simp only [s.intent.valid, s.intent.named, Option.bind_some, Option.map_some] at hrun
  unfold processAchievement at hrun
  unfold Try.amount? Achievement.amount? Achievement.increment?
  cases hc : parseAchievementCriteria s.achievement.criteria with
  | none =>
    simp only [hc] at hrun
    cases hrun
    exact .inl ⟨rfl, rfl⟩
  | some criteria =>
    simp only [hc] at hrun
    simp only [Option.bind_some]
    cases hs : (calculateAchievementProgressIncrement criteria s.intent.event).shouldProcess with
    | false =>
      simp only [hs] at hrun
      cases hrun
      exact .inl ⟨rfl, rfl⟩
    | true =>
      simp only [hs] at hrun
      have htarget : s.achievement.target = criteria.target := by simp [Achievement.target, hc]
      have hstep := processAchievementTx_step hrun
      rw [← htarget] at hstep
      exact .inr ⟨rfl, outcome_tryEffect hstep⟩

end steps

/-! ### What a run does -/

/-- The tries that count: the first to reach each marker that was not recorded before. -/
def DB.winners (db : DB) (ts : List Try) : List Try :=
  Tally.winners Try.marker db.seen (ts.filter (·.processes))

/-- The try is one of the user and achievement. -/
def Try.on (u a : Uuid) (t : Try) : Bool := t.intent.userId = u && t.achievement.id = a

/-- The amounts that count for a user and achievement, in their order. -/
def DB.counts (db : DB) (ts : List Try) (u a : Uuid) : List ℤ :=
  ((db.winners ts).filter (Try.on u a)).filterMap (·.amount?)

/-- The achievements paid to a user between two databases, in the order of their payment. -/
structure Paid (db x : DB) (u : Uuid) (paid : List Achievement) : Prop where
  nodup : paid.Nodup
  mem : ∀ a, a ∈ paid ↔
    a ∈ db.achievements ∧ 0 < a.rewardPoints ∧ ¬db.Unlocked u a.id ∧ x.Unlocked u a.id
  purse : x.purse u = paid.foldl Purse.pay (db.purse u)

/-- Where a run from `db` stands: which markers are recorded, what the meters say, and what was
    paid. -/
structure Tallied (db : DB) (ts : List Try) (x : DB) : Prop where
  seen : ∀ k, x.seen k = true ↔ db.seen k = true ∨ ∃ w ∈ db.winners ts, w.marker = k
  meter : ∀ u, ∀ a ∈ db.achievements,
    x.meter u a.id = (db.meter u a.id).run a.target (db.counts ts u a.id)
  others : ∀ u a, (∀ b ∈ db.achievements, b.id ≠ a) →
    x.userAchievements (u, a) = db.userAchievements (u, a)
  paid : ∀ u, ∃ paid, Paid db x u paid

section runs
variable {db x y : DB} {ts : List Try} {t : Try} {u : Uuid}

theorem winners_skip (hp : t.processes = false) : db.winners (ts ++ [t]) = db.winners ts := by
  unfold DB.winners
  rw [List.filter_append, List.filter_singleton, hp]
  simp

/-- A try that reaches its marker counts if the marker is new. -/
theorem winners_next (hp : t.processes = true)
    (hseen : ∀ k, x.seen k = true ↔ db.seen k = true ∨ ∃ w ∈ db.winners ts, w.marker = k) :
    db.winners (ts ++ [t]) =
      if x.seen t.marker = true then db.winners ts else db.winners ts ++ [t] := by
  have hiff : (db.seen t.marker || (db.winners ts).any fun w => w.marker = t.marker) = true ↔
      x.seen t.marker = true := by
    rw [hseen, Bool.or_eq_true, List.any_eq_true]
    simp
  unfold DB.winners at hiff ⊢
  rw [List.filter_append, List.filter_singleton, hp, cond_true, winners_concat]
  exact if_congr hiff rfl rfl

theorem counts_congr {ts' : List Try} {a : Uuid} (h : db.winners ts' = db.winners ts) :
    db.counts ts' u a = db.counts ts u a := by
  unfold DB.counts; rw [h]

theorem counts_next {ts' : List Try} {a : Uuid} (h : db.winners ts' = db.winners ts ++ [t]) :
    db.counts ts' u a = db.counts ts u a ++ if t.on u a then t.amount?.toList else [] := by
  unfold DB.counts
  rw [h, List.filter_append, List.filterMap_append, List.filter_singleton]
  cases t.on u a with
  | false => rfl
  | true =>
    simp only [cond_true, if_true, List.filterMap_cons, List.filterMap_nil]
    cases t.amount? <;> rfl

theorem tallied_start : Tallied db [] db where
  seen k := by simp [DB.winners, Tally.winners]
  meter u a _ := by simp [DB.counts, DB.winners, Tally.winners]
  others _ _ _ := rfl
  paid u := ⟨[], .nil, fun a => by simp, rfl⟩

/-- What is unlocked stays unlocked. -/
theorem tryEffect_unlocked {marker : String} {v b : Uuid} {a : Achievement} {n : Option ℤ}
    (hs : TryEffect x y marker u a n) (h : x.Unlocked v b) : y.Unlocked v b := by
  by_cases hk : (v, b) = (u, a.id)
  · obtain ⟨rfl, rfl⟩ := Prod.mk.inj hk
    rw [← meter_unlocked] at h ⊢
    rw [hs.meter, h, run_unlocked, ite_self]
  · unfold DB.Unlocked at h ⊢
    rwa [hs.frame _ hk]

/-- Only the achievement of the step may unlock, and only for its user. -/
theorem tryEffect_other {marker : String} {v b : Uuid} {a : Achievement} {n : Option ℤ}
    (hs : TryEffect x y marker u a n) (hk : (v, b) ≠ (u, a.id)) :
    y.Unlocked v b ↔ x.Unlocked v b := by
  unfold DB.Unlocked
  rw [hs.frame _ hk]

/-- A user is paid the achievement that a step unlocks, if it has a reward. -/
theorem paid_step {paid : List Achievement} (hids : (db.achievements.map (·.id)).Nodup)
    (hpaid : Paid db x u paid) (ht : t.achievement ∈ db.achievements)
    (hkeep : db.Unlocked u t.achievement.id → x.Unlocked u t.achievement.id)
    (hs : TryEffect x y t.marker t.intent.userId t.achievement t.amount?) :
    ∃ paid', Paid db y u paid' := by
  have hsame : ∀ b ∈ db.achievements, b.id = t.achievement.id → b = t.achievement :=
    fun b hb hid => List.inj_on_of_nodup_map hids hb ht hid
  by_cases hpay : u = t.intent.userId ∧ 0 < t.achievement.rewardPoints ∧
      ¬x.Unlocked t.intent.userId t.achievement.id ∧ y.Unlocked t.intent.userId t.achievement.id
  · obtain ⟨rfl, hpos, hlocked, hunlocked⟩ := hpay
    have hnew : t.achievement ∉ paid := fun h => hlocked ((hpaid.mem _).1 h).2.2.2
    refine ⟨paid ++ [t.achievement], ?_, fun b => ?_, ?_⟩
    · rw [List.nodup_append]
      refine ⟨hpaid.nodup, List.nodup_singleton _, fun b hb c hc => ?_⟩
      rw [List.mem_singleton.1 hc]
      rintro rfl
      exact hnew hb
    · rw [List.mem_append, List.mem_singleton, hpaid.mem]
      by_cases hb : b = t.achievement
      · subst hb
        exact ⟨fun _ => ⟨ht, hpos, fun h => hlocked (hkeep h), hunlocked⟩, fun _ => .inr rfl⟩
      · have hiff : b ∈ db.achievements →
            (y.Unlocked t.intent.userId b.id ↔ x.Unlocked t.intent.userId b.id) := fun hmem =>
          tryEffect_other hs fun hk => hb (hsame b hmem (Prod.mk.inj hk).2)
        constructor
        · rintro (⟨hmem, hrest⟩ | rfl)
          · exact ⟨hmem, hrest.1, hrest.2.1, (hiff hmem).2 hrest.2.2⟩
          · exact (hb rfl).elim
        · rintro ⟨hmem, hrest⟩
          exact .inl ⟨hmem, hrest.1, hrest.2.1, (hiff hmem).1 hrest.2.2⟩
    · rw [hs.purse, if_pos ⟨rfl, hpos, hlocked, hunlocked⟩, hpaid.purse, List.foldl_append]
      rfl
  · refine ⟨paid, hpaid.nodup, fun b => ?_, by rw [hs.purse, if_neg hpay, hpaid.purse]⟩
    rw [hpaid.mem]
    refine and_congr_right fun hmem => and_congr_right fun hpos => and_congr_right fun _ => ?_
    refine ⟨tryEffect_unlocked hs, fun hy => ?_⟩
    by_cases hk : (u, b.id) = (t.intent.userId, t.achievement.id)
    · obtain ⟨rfl, hid⟩ := Prod.mk.inj hk
      obtain rfl := hsame b hmem hid
      by_contra hx
      exact hpay ⟨rfl, hpos, hx, hy⟩
    · exact (tryEffect_other hs hk).1 hy

/-- One more try: a failed one leaves everything, a committed one takes its step. -/
theorem tallied_step (hids : (db.achievements.map (·.id)).Nodup) (h : Tallied db ts x)
    (ht : t.achievement ∈ db.achievements) (hp : t.processes = true)
    (hs : TryEffect x y t.marker t.intent.userId t.achievement t.amount?) :
    Tallied db (ts ++ [t]) y where
  seen k := by
    have hwin := winners_next hp h.seen
    rw [hs.seen, Bool.or_eq_true, decide_eq_true_iff]
    split at hwin
    · rename_i hold
      rw [hwin, ← h.seen]
      exact ⟨fun hk => hk.elim id fun hk => hk ▸ hold, .inl⟩
    · rw [hwin, h.seen, or_assoc]
      refine or_congr_right ?_
      simp only [List.mem_append, List.mem_singleton, or_and_right, exists_or, exists_eq_left]
      exact or_congr_right eq_comm
  meter u a ha := by
    have hwin := winners_next hp h.seen
    by_cases hk : (u, a.id) = (t.intent.userId, t.achievement.id)
    · obtain ⟨rfl, hid⟩ := Prod.mk.inj hk
      obtain rfl := List.inj_on_of_nodup_map hids ha ht hid
      rw [hs.meter, h.meter _ _ ha]
      split at hwin
      · rename_i hold
        rw [if_pos hold, counts_congr hwin]
      · rename_i hnew
        rw [if_neg hnew, counts_next hwin, run_append]
        simp [Try.on]
    · rw [meter_congr (hs.frame _ hk), h.meter _ _ ha]
      have hoff : t.on u a.id = false := by
        unfold Try.on
        by_contra hon
        simp at hon
        exact hk (by rw [hon.1, hon.2])
      split at hwin
      · rw [counts_congr hwin]
      · rw [counts_next hwin, hoff]
        simp
  others u a ha := by
    rw [hs.frame _ fun hk => ha _ ht (Prod.mk.inj hk).2.symm, h.others u a ha]
  paid u := by
    obtain ⟨paid, hpaid⟩ := h.paid u
    refine paid_step hids hpaid ht (fun hu => ?_) hs
    rw [← meter_unlocked] at hu ⊢
    rw [h.meter u _ ht, hu, run_unlocked]

/-- A try that does not reach its marker leaves everything. -/
theorem tallied_skip (h : Tallied db ts x) (hp : t.processes = false) :
    Tallied db (ts ++ [t]) x where
  seen := by rw [winners_skip hp]; exact h.seen
  meter u a ha := by rw [counts_congr (winners_skip hp)]; exact h.meter u a ha
  others := h.others
  paid := h.paid

/-- Where every run stands. -/
theorem tried_tallied (hids : (db.achievements.map (·.id)).Nodup) (h : Tried db ts x)
    (hts : ∀ t ∈ ts, t.achievement ∈ db.achievements) : Tallied db ts x := by
  induction h with
  | start => exact tallied_start
  | @failed ts x t _ hf ih =>
    have hx := ih fun s hs => hts s (List.mem_append_left _ hs)
    exact tallied_skip hx (by simp [Try.processes, hf])
  | @committed ts x y t _ hc ht ih =>
    have hx := ih fun s hs => hts s (List.mem_append_left _ hs)
    rcases try_effect ht with ⟨hnone, rfl⟩ | ⟨hsome, hs⟩
    · exact tallied_skip hx (by simp [Try.processes, hnone])
    · exact tallied_step hids hx (hts t (by simp)) (by simp [Try.processes, hc, hsome]) hs

end runs

end CinemaLoyalty
