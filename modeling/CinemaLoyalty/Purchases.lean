import CinemaLoyalty.Idempotency
import CinemaLoyalty.Lib.Strip
import CinemaLoyalty.Tiers

/-! @svc Purchases | layer:property | source:src/loyalty/loyalty.service.ts (processTicketPurchase), src/achievements/achievements.service.ts (saveDispatchIntents), src/loyalty/loyalty-expiration.service.ts (resetAnnualStats)

    A purchase counts once. `History` keeps, beside the database, the purchases committed so far and
    the event ids a user's visits stand for. A delivery whose event is among them changes nothing, so
    a run without such deliveries ends in the same database (`run_withoutRepeats`), and the visits and
    the achievement intents of a user are those of the committed purchases (`Recorded`). -/

namespace CinemaLoyalty
open Txn

/-- The purchase an operation commits: its marker was free and its transaction did not fail. -/
def DB.commits (db : DB) : Op → Option TicketPurchasedDto
  | .call (.processTicketPurchase msg) now =>
    if (db.processedEvents msg.eventId.text).isNone &&
        ((Call.processTicketPurchase msg).exec now db).1.isOk then some msg
    else none
  | _ => none

/-- The operation is an annual reset of the user that did not fail. -/
def DB.resets (db : DB) (u : Uuid) : Op → Bool
  | .call (.resetAnnualStats v) now => v = u && ((Call.resetAnnualStats v).exec now db).1.isOk
  | _ => false

/-- A run so far: the database, the purchases committed, and for each user the event ids of those
    committed since the last annual reset of the profile. -/
structure History where
  db : DB
  purchases : List TicketPurchasedDto
  visits : Uuid → List String

/-- Before the first operation. -/
def History.start : History := ⟨DB.empty, [], fun _ => []⟩

/-- One operation. -/
def History.step (h : History) (op : Op) : History where
  db := op.exec h.db
  purchases := h.purchases ++ (h.db.commits op).toList
  visits u :=
    if h.db.resets u op then []
    else h.visits u ++ ((h.db.commits op).toList.filter (·.userId.value = u)).map (·.eventId.text)

/-- A whole run. -/
def History.run (h : History) (ops : List Op) : History := ops.foldl History.step h

/-- The operation delivers an event again that was committed before: same event id, same user. -/
def History.repeats (h : History) : Op → Bool
  | .call (.processTicketPurchase msg) _ =>
    h.purchases.any fun m => m.eventId.text = msg.eventId.text && m.userId.value = msg.userId.value
  | _ => false

/-- The operations of a run without the repeated deliveries. -/
def withoutRepeats : History → List Op → List Op
  | _, [] => []
  | h, op :: ops =>
    if h.repeats op then withoutRepeats (h.step op) ops else op :: withoutRepeats (h.step op) ops

theorem history_db (ops : List Op) (h : History) : (h.run ops).db = h.db.runOps ops := by
  induction ops generalizing h with
  | nil => rfl
  | cons op ops ih => exact ih (h.step op)

/-! ### The achievement events of a purchase -/

/-- The keys of a purchase's intents. -/
def purchaseKeys (msg : TicketPurchasedDto) : List (String × AchievementAction) :=
  (msg.orderId.text, .TICKET_PURCHASED) ::
    if msg.seatClass.get? = some "VIP" then [(msg.orderId.text ++ "_vip", .VIP_SEAT_BOUGHT)] else []

theorem intentRows_cons {event : ActionEvent} {events : List ActionEvent}
    {rows : List (String × AchievementAction × Json)} (h : intentRows (event :: events) = .pure rows) :
    ∃ rest json, intentRows events = .pure rest ∧
      rows = (jsTrim event.eventId, event.actionType, json) :: rest := by
  unfold intentRows at h
  cases hparse : event.parse with
  | none => rw [hparse] at h; cases h
  | some validated =>
    rw [hparse] at h
    rcases intentRows_final events with ⟨rest, hr⟩ | ⟨e, hr⟩
    · simp only [hr, Prog.pure_bind] at h
      cases h
      unfold ActionEvent.parse at hparse
      simp only at hparse
      split at hparse
      · cases hparse
        exact ⟨rest, _, hr, rfl⟩
      · cases hparse
    · simp only [hr, Prog.throw_bind] at h
      cases h

/-- The intents are stored under the order's own text. -/
theorem intentRows_keys {msg : TicketPurchasedDto} {used : ℤ}
    {rows : List (String × AchievementAction × Json)}
    (h : intentRows (purchaseEvents msg used) = .pure rows) :
    rows.map (fun r => (r.1, r.2.1)) = purchaseKeys msg := by
  have horder : jsTrim msg.orderId.text = msg.orderId.text := jsTrim_self (uuidText_chars _)
  have hvip : jsTrim (msg.orderId.text ++ "_vip") = msg.orderId.text ++ "_vip" :=
    jsTrim_uuid _ (by decide)
  unfold purchaseEvents at h
  obtain ⟨rest, json, hrest, rfl⟩ := intentRows_cons h
  unfold purchaseKeys
  rw [List.map_cons, horder]
  by_cases hseat : msg.seatClass.get? = some "VIP"
  · rw [if_pos hseat] at hrest ⊢
    obtain ⟨rest', json', hrest', rfl⟩ := intentRows_cons hrest
    cases hrest'
    rw [List.map_cons, hvip]
    rfl
  · rw [if_neg hseat] at hrest ⊢
    cases hrest
    rfl

/-- The intents after a `createMany`: those that were there and the new ones. -/
theorem intents_created {u : Uuid} {rows : List (String × AchievementAction × Json)} {db : DB} (v : Uuid)
    (e : String) (ty : AchievementAction) :
    ((db.withIntents u rows).achievementDispatchIntents (v, e, ty)).isSome = true ↔
      (db.achievementDispatchIntents (v, e, ty)).isSome = true ∨
        v = u ∧ (e, ty) ∈ rows.map fun r => (r.1, r.2.1) := by
  have hview : ∀ (new : List (String × AchievementAction × Json)) (x : DB),
      ((pg.view x (new.map fun r => .intent u r.1 r.2.1 ⟨r.2.2⟩)).achievementDispatchIntents
        (v, e, ty)).isSome = true ↔ (x.achievementDispatchIntents (v, e, ty)).isSome = true ∨
          v = u ∧ (e, ty) ∈ new.map fun r => (r.1, r.2.1) := by
    intro new
    induction new with
    | nil => intro x; simp
    | cons r new ih =>
      intro x
      rw [List.map_cons, pg.view_cons, ih]
      by_cases hkey : (v, e, ty) = (u, r.1, r.2.1)
      · cases hkey
        simp [pg, DB.apply]
      · have hne : ¬(v = u ∧ (e, ty) = (r.1, r.2.1)) := by
          rintro ⟨rfl, h⟩
          cases h
          exact hkey rfl
        have hsame : (pg.apply x (.intent u r.1 r.2.1 ⟨r.2.2⟩)).achievementDispatchIntents (v, e, ty) =
            x.achievementDispatchIntents (v, e, ty) := Function.update_of_ne hkey ..
        rw [hsame, List.map_cons, List.mem_cons]
        tauto
  unfold DB.withIntents
  rw [hview]
  constructor
  · rintro (h | ⟨hv, h⟩)
    · exact .inl h
    · obtain ⟨r, hr, hkey⟩ := List.mem_map.1 h
      exact .inr ⟨hv, List.mem_map.2 ⟨r, List.mem_of_mem_filter hr, hkey⟩⟩
  · rintro (h | ⟨rfl, h⟩)
    · exact .inl h
    · obtain ⟨r, hr, hkey⟩ := List.mem_map.1 h
      cases hkey
      by_cases hnew : (db.achievementDispatchIntents (v, r.1, r.2.1)).isSome = true
      · exact .inl hnew
      · refine .inr ⟨rfl, List.mem_map.2 ⟨r, List.mem_filter.2 ⟨hr, ?_⟩, rfl⟩⟩
        simpa using hnew

/-! ### One operation -/

/-- The visits of a user this year, 0 without a profile. -/
def DB.visitsOf (db : DB) (u : Uuid) : ℤ := (db.profileOrDefault u).yearVisits

/-- What an operation does to visits and intents: it commits a purchase, or leaves the intents alone
    and at most resets visits. -/
inductive PurchaseStep (db : DB) (op : Op) : Prop
  | committed {msg : TicketPurchasedDto} {now : Instant} {n : ℤ}
      {rows : List (String × AchievementAction × Json)}
      (hop : op = .call (.processTicketPurchase msg) now) (hc : db.commits op = some msg)
      (hn : db.processedEvents msg.eventId.text = none)
      (hrows : intentRows (purchaseEvents msg (db.pointsUsedFor msg)) = .pure rows)
      (he : op.exec db = (db.purchased msg n now).withIntents msg.userId.value rows)
  | other (hc : db.commits op = none)
      (hi : (op.exec db).achievementDispatchIntents = db.achievementDispatchIntents)
      (hv : ∀ u, (op.exec db).visitsOf u = if db.resets u op then 0 else db.visitsOf u)

section step
variable {db db' : DB} {now : Instant}

theorem intents_kept {c : Call} (h : Effect now db c db') (hc : ∀ msg, c ≠ .processTicketPurchase msg) :
    db'.achievementDispatchIntents = db.achievementDispatchIntents := by
  cases h with
  | still _ => rfl
  | deducted _ _ _ => simp [DB.deducted]
  | refunded _ _ _ => simp [DB.refunded]
  | purchaseSeen _ _ => exact absurd rfl (hc _)
  | purchased _ _ _ => exact absurd rfl (hc _)
  | birthdaySet h => cases h <;> simp [DB.birthdaySet, DB.birthdayGranted]
  | birthdayGranted h => cases h <;> simp [DB.birthdayGranted]
  | adjusted => simp [DB.adjusted, DB.post]
  | vipGranted => simp [DB.vipGranted, DB.post]
  | progressed h => cases h <;> simp [DB.marked, DB.unlocked, DB.rewarded, DB.post]
  | expired _ => simp [DB.post]
  | annualReset _ => simp
  | goldReset _ _ => simp
  | reserved _ _ _ _ _ => simp [DB.reserved]
  | rolledBack _ _ _ =>
    unfold DB.rolledBack
    simp only
    split <;> simp

/-- A reset that does not fail leaves no visits. -/
theorem resetAnnualStats_visits {u : Uuid} {r : Unit}
    (h : db.run (resetAnnualStatsStep u) = .ok (r, db')) : db'.visitsOf u = 0 := by
  unfold resetAnnualStatsStep at h
  rw [run_lock] at h
  split at h
  · rename_i hmissing
    cases h
    have hnone : db.profiles u = none := by simpa using hmissing
    simp [DB.visitsOf, DB.profileOrDefault, hnone]
  · rename_i hlocked
    obtain ⟨p, hp⟩ : ∃ p, db.profiles u = some p :=
      Option.ne_none_iff_exists'.1 (by simpa using hlocked)
    rcases updateManyProfile_ok h with ⟨hkeep, -⟩ | ⟨q, hq, -, -, h⟩
    · exact absurd (hkeep p hp) (by simp)
    · cases h
      unfold DB.visitsOf
      rw [profileOrDefault_update _ hq, if_pos rfl]

/-- Only a purchase and a reset write the visits. -/
theorem version_visits {c : Call} {u : Uuid} {p q : LoyaltyProfile} (h : Version now p c u q)
    (hpurchase : ∀ msg, c ≠ .processTicketPurchase msg) (hreset : c ≠ .resetAnnualStats u) :
    q.yearVisits = p.yearVisits := by
  cases h with
  | purchased msg _ _ => exact absurd rfl (hpurchase msg)
  | annualReset _ => exact absurd rfl hreset
  | adjusted _ =>
    unfold LoyaltyProfile.adjust
    simp only
    split <;> rfl
  | _ => rfl

theorem call_purchase (c : Call) : PurchaseStep db (.call c now) := by
  have heff := exec_effect c now db
  cases c with
  | processTicketPurchase msg =>
    rcases exec_cases (.processTicketPurchase msg) now db with ⟨e, -, he⟩ | ⟨a, x, hr, he⟩
    · have hfail : ((Call.processTicketPurchase msg).exec now db).1.isOk = false := by rw [he]; rfl
      refine .other ?_ ?_ fun u => ?_
      · simp [DB.commits, hfail]
      · simp only [Op.exec, he]
      · simp only [Op.exec, he, DB.resets]; rfl
    · obtain ⟨r, hrun, -⟩ := run_wrap hr
      have hok : ((Call.processTicketPurchase msg).exec now db).1.isOk = true := by rw [he]; rfl
      cases processTicketPurchase_ok hrun with
      | duplicate hb _ =>
        refine .other ?_ ?_ fun u => ?_
        · simp [DB.commits, hb]
        · simp only [Op.exec, he, ensureProfile_intents]
        · simp [Op.exec, he, DB.resets, DB.visitsOf]
      | @processed n rows hn _ _ hrows =>
        refine .committed (n := n) rfl ?_ hn hrows ?_
        · simp [DB.commits, hn, hok]
        · simp only [Op.exec, he]
  | resetAnnualStats v =>
    refine .other rfl (intents_kept heff (by simp)) fun u => ?_
    rcases exec_cases (.resetAnnualStats v) now db with ⟨e, -, he⟩ | ⟨a, x, hr, he⟩
    · have hfail : db.resets u (.call (.resetAnnualStats v) now) = false := by
        simp only [DB.resets, he]
        exact Bool.and_false _
      rw [hfail]
      simp only [Op.exec, he]
      rfl
    · obtain ⟨r, hrun, -⟩ := run_wrap hr
      have hreset : db.resets u (.call (.resetAnnualStats v) now) = decide (v = u) := by
        simp only [DB.resets, he]
        exact Bool.and_true _
      rw [hreset]
      by_cases huv : v = u
      · subst huv
        simp only [Op.exec, he, decide_true, if_true]
        exact resetAnnualStats_visits hrun
      · rw [decide_eq_false huv]
        exact version_visits (effect_version heff u) (by simp) (by simpa using huv)
  | _ =>
    refine .other rfl (intents_kept heff (by simp)) fun u => ?_
    exact version_visits (effect_version heff u) (by simp) (by simp)

theorem op_purchase (op : Op) : PurchaseStep db op := by
  cases op with
  | call c now => exact call_purchase c
  | _ =>
    refine .other rfl ?_ fun u => ?_
    · exact op_aside (f := DB.achievementDispatchIntents) (by simp) (by simp) fun _ => rfl
    · exact op_aside (f := fun x => x.visitsOf u) (by simp) (by simp [DB.visitsOf]) fun _ => rfl

/-- The visits after a purchase. -/
theorem purchased_visits {msg : TicketPurchasedDto} {n : ℤ}
    {rows : List (String × AchievementAction × Json)} (u : Uuid) :
    ((db.purchased msg n now).withIntents msg.userId.value rows).visitsOf u =
      db.visitsOf u + if msg.userId.value = u then 1 else 0 := by
  generalize hp : db.profileOrDefault msg.userId.value = p
  have hprofile : ((db.purchased msg n now).withIntents msg.userId.value rows).profileOrDefault u =
      if u = msg.userId.value then p.purchase n (p.purchaseTier n) now p else db.profileOrDefault u :=
    profileOrDefault_version (x := db.ensureProfile msg.userId.value) (fun _ => by simp)
      (ensureProfile_self _) (by
        by_cases hn : n > 0 <;> simp [DB.purchased, DB.credited, hn, hp, DB.post])
  unfold DB.visitsOf
  rw [hprofile]
  by_cases hu : u = msg.userId.value
  · rw [if_pos hu, if_pos hu.symm, hu, hp]
    unfold LoyaltyProfile.purchase
    simp only
    split <;> rfl
  · rw [if_neg hu, if_neg (Ne.symm hu), add_zero]

end step

/-! ### Over runs -/

/-- The committed purchases stand for the markers, the visits and the intents. -/
structure Recorded (h : History) : Prop where
  marked : ∀ m ∈ h.purchases, ∃ e, h.db.processedEvents m.eventId.text = some e
  profiled : ∀ m ∈ h.purchases, (h.db.profiles m.userId.value).isSome = true
  visits : ∀ u, h.db.visitsOf u = (h.visits u).length
  distinct : ∀ u, (h.visits u).Nodup
  visited : ∀ u, ∀ id ∈ h.visits u, ∃ m ∈ h.purchases, m.userId.value = u ∧ m.eventId.text = id
  intents : ∀ u e ty, (h.db.achievementDispatchIntents (u, e, ty)).isSome = true ↔
    ∃ m ∈ h.purchases, m.userId.value = u ∧ (e, ty) ∈ purchaseKeys m

theorem recorded_start : Recorded .start where
  marked _ hm := (List.not_mem_nil hm).elim
  profiled _ hm := (List.not_mem_nil hm).elim
  visits _ := rfl
  distinct _ := List.nodup_nil
  visited _ _ hid := (List.not_mem_nil hid).elim
  intents u e ty := by
    simp only [History.start, DB.empty, Option.isSome_none, Bool.false_eq_true, false_iff]
    rintro ⟨m, hm, -⟩
    exact List.not_mem_nil hm

section recorded
variable {h : History} {op : Op}

/-- Markers and profiles stay. -/
theorem Recorded.marked_exec (hr : Recorded h) (op : Op) : ∀ m ∈ h.purchases,
    ∃ e, (op.exec h.db).processedEvents m.eventId.text = some e := by
  intro m hm
  obtain ⟨e, he⟩ := hr.marked m hm
  exact ⟨e, act_keeps he (.operate op)⟩

theorem Recorded.profiled_exec (hr : Recorded h) (op : Op) : ∀ m ∈ h.purchases,
    ((op.exec h.db).profiles m.userId.value).isSome = true :=
  fun m hm => profiles_persist op (hr.profiled m hm)

/-- An operation that commits no purchase. -/
theorem recorded_other (hr : Recorded h) (hc : h.db.commits op = none)
    (hi : (op.exec h.db).achievementDispatchIntents = h.db.achievementDispatchIntents)
    (hv : ∀ u, (op.exec h.db).visitsOf u = if h.db.resets u op then 0 else h.db.visitsOf u) :
    Recorded (h.step op) := by
  have hlist : (h.step op).purchases = h.purchases := by simp [History.step, hc]
  have hvisits : ∀ u, (h.step op).visits u = if h.db.resets u op then [] else h.visits u := by
    intro u
    simp [History.step, hc]
  exact
    { marked := hlist ▸ hr.marked_exec op
      profiled := hlist ▸ hr.profiled_exec op
      visits := by
        intro u
        rw [hvisits]
        refine (hv u).trans ?_
        split
        · rfl
        · exact hr.visits u
      distinct := by
        intro u
        rw [hvisits]
        split
        · exact List.nodup_nil
        · exact hr.distinct u
      visited := by
        intro u id hid
        rw [hvisits] at hid
        rw [hlist]
        split at hid
        · exact (List.not_mem_nil hid).elim
        · exact hr.visited u id hid
      intents := by
        intro u e ty
        rw [hlist]
        refine Iff.trans ?_ (hr.intents u e ty)
        rw [← hi]
        rfl }

/-- A purchase that commits. -/
theorem recorded_committed (hr : Recorded h) {msg : TicketPurchasedDto} {now : Instant} {n : ℤ}
    {rows : List (String × AchievementAction × Json)}
    (hop : op = .call (.processTicketPurchase msg) now) (hc : h.db.commits op = some msg)
    (hn : h.db.processedEvents msg.eventId.text = none)
    (hrows : intentRows (purchaseEvents msg (h.db.pointsUsedFor msg)) = .pure rows)
    (he : op.exec h.db = (h.db.purchased msg n now).withIntents msg.userId.value rows) :
    Recorded (h.step op) := by
  have hlist : (h.step op).purchases = h.purchases ++ [msg] := by simp [History.step, hc]
  have hnew : (h.step op).db = (h.db.purchased msg n now).withIntents msg.userId.value rows := he
  have hvisits : ∀ u, (h.step op).visits u =
      h.visits u ++ if msg.userId.value = u then [msg.eventId.text] else [] := by
    intro u
    subst hop
    by_cases hu : msg.userId.value = u <;> simp [History.step, hc, DB.resets, hu]
  exact
    { marked := by
        intro m hm
        rw [hlist] at hm
        rcases List.mem_append.1 hm with hm | hm
        · exact hr.marked_exec op m hm
        · rw [List.mem_singleton.1 hm, hnew]
          simp [DB.purchased]
      profiled := by
        intro m hm
        rw [hlist] at hm
        rcases List.mem_append.1 hm with hm | hm
        · exact hr.profiled_exec op m hm
        · rw [List.mem_singleton.1 hm, hnew]
          by_cases hpos : n > 0 <;> simp [DB.purchased, DB.credited, hpos, DB.post]
      visits := by
        intro u
        rw [hnew, purchased_visits, hr.visits, hvisits, List.length_append]
        split <;> simp
      distinct := by
        intro u
        rw [hvisits]
        refine List.nodup_append.2 ⟨hr.distinct u, by split <;> simp, ?_⟩
        rintro id hid id' hid' rfl
        -- an id counted before has its marker, and this one had none
        obtain ⟨m, hm, -, hid₀⟩ := hr.visited u id hid
        obtain ⟨e, hmark⟩ := hr.marked m hm
        split at hid'
        · rw [hid₀, List.mem_singleton.1 hid', hn] at hmark
          cases hmark
        · exact List.not_mem_nil hid'
      visited := by
        intro u id hid
        rw [hvisits] at hid
        rw [hlist]
        rcases List.mem_append.1 hid with hid | hid
        · obtain ⟨m, hm, hrest⟩ := hr.visited u id hid
          exact ⟨m, List.mem_append_left _ hm, hrest⟩
        · split at hid
          · rename_i hu
            exact ⟨msg, by simp, hu, (List.mem_singleton.1 hid).symm⟩
          · exact (List.not_mem_nil hid).elim
      intents := by
        intro u e ty
        rw [hnew, intents_created, intentRows_keys hrows, hlist]
        have hold : ((h.db.purchased msg n now).achievementDispatchIntents (u, e, ty)).isSome = true ↔
            ∃ m ∈ h.purchases, m.userId.value = u ∧ (e, ty) ∈ purchaseKeys m := by
          rw [← hr.intents]
          by_cases hpos : n > 0 <;> simp [DB.purchased, DB.credited, hpos, DB.post]
        rw [hold]
        constructor
        · rintro (⟨m, hm, hrest⟩ | ⟨hu, hkey⟩)
          · exact ⟨m, List.mem_append_left _ hm, hrest⟩
          · exact ⟨msg, by simp, hu.symm, hkey⟩
        · rintro ⟨m, hm, hu, hkey⟩
          rcases List.mem_append.1 hm with hm | hm
          · exact .inl ⟨m, hm, hu, hkey⟩
          · rw [List.mem_singleton.1 hm] at hu hkey
            exact .inr ⟨hu.symm, hkey⟩ }

theorem recorded_step (hr : Recorded h) (op : Op) : Recorded (h.step op) := by
  have hop : PurchaseStep h.db op := op_purchase op
  cases hop with
  | other hc hi hv => exact recorded_other hr hc hi hv
  | committed hop hc hn hrows he => exact recorded_committed hr hop hc hn hrows he

end recorded

theorem run_recorded (ops : List Op) : ∀ {h : History}, Recorded h → Recorded (h.run ops) := by
  induction ops with
  | nil => exact id
  | cons op ops ih => exact fun hr => ih (recorded_step hr op)

/-- A repeated delivery leaves the database as it is. -/
theorem repeated_still {h : History} (hr : Recorded h) {op : Op} (hrep : h.repeats op = true) :
    op.exec h.db = h.db := by
  cases op with
  | call c now =>
    cases c with
    | processTicketPurchase msg =>
      simp only [History.repeats, List.any_eq_true, Bool.and_eq_true, decide_eq_true_eq] at hrep
      obtain ⟨m, hm, hid, hu⟩ := hrep
      obtain ⟨e, hmark⟩ := hr.marked m hm
      have hprofile := hr.profiled m hm
      rw [hid] at hmark
      rw [hu] at hprofile
      have heff := exec_effect (.processTicketPurchase msg) now h.db
      simp only [Op.exec]
      generalize ((Call.processTicketPurchase msg).exec now h.db).2 = x at heff ⊢
      cases heff with
      | still _ => rfl
      | purchaseSeen _ _ => unfold DB.ensureProfile; rw [if_pos hprofile]
      | purchased hn _ _ => rw [hmark] at hn; cases hn
    | _ => cases hrep
  | _ => cases hrep

/-- Without the repeated deliveries the run ends in the same database. -/
theorem run_withoutRepeats (ops : List Op) : ∀ {h : History}, Recorded h →
    h.db.runOps (withoutRepeats h ops) = h.db.runOps ops := by
  induction ops with
  | nil => intro h _; rfl
  | cons op ops ih =>
    intro h hr
    have hrest := ih (recorded_step hr op)
    unfold withoutRepeats
    split
    · rename_i hrep
      have hstill : (h.step op).db = h.db := repeated_still hr hrep
      rw [hstill] at hrest
      rw [hrest]
      show h.db.runOps ops = (op.exec h.db).runOps ops
      rw [repeated_still hr hrep]
    · exact hrest

/-- In every run, whatever is delivered how often and in between: the run without the deliveries of
    events already committed for their user ends in the same database; a user's visits are as many as
    the distinct event ids committed for the user since the last annual reset; and the intents of an
    order are those of its committed purchases. -/
theorem purchases_count_once (ops : List Op) :
    let h := History.start.run ops
    h.db = DB.empty.runOps ops ∧
    DB.empty.runOps (withoutRepeats .start ops) = DB.empty.runOps ops ∧
    (∀ u, h.db.visitsOf u = (h.visits u).length ∧ (h.visits u).Nodup) ∧
    (∀ u orderId, (h.db.achievementDispatchIntents (u, orderId, .TICKET_PURCHASED)).isSome = true ↔
      ∃ m ∈ h.purchases, m.userId.value = u ∧ m.orderId.text = orderId) ∧
    ∀ u orderId, (h.db.achievementDispatchIntents
        (u, orderId ++ "_vip", .VIP_SEAT_BOUGHT)).isSome = true ↔
      ∃ m ∈ h.purchases, m.userId.value = u ∧ m.orderId.text = orderId ∧
        m.seatClass.get? = some "VIP" := by
  have hr := run_recorded ops recorded_start
  refine ⟨history_db ops .start, run_withoutRepeats ops recorded_start,
    fun u => ⟨hr.visits u, hr.distinct u⟩, fun u orderId => ?ticket, fun u orderId => ?vip⟩
  case ticket =>
    rw [hr.intents]
    refine exists_congr fun m => and_congr_right fun _ => and_congr_right fun _ => ?_
    unfold purchaseKeys
    split <;> simp [eq_comm]
  case vip =>
    rw [hr.intents]
    refine exists_congr fun m => and_congr_right fun _ => and_congr_right fun _ => ?_
    unfold purchaseKeys
    by_cases hseat : m.seatClass.get? = some "VIP"
    · simp [hseat, eq_comm]
    · simp [hseat]

end CinemaLoyalty
