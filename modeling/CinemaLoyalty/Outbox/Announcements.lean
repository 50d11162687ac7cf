import CinemaLoyalty.Outbox.Fencing
import CinemaLoyalty.Tiers

/-! @svc OutboxAnnouncements | layer:system | source:src/loyalty/notifications/tier-upgrade.listener.ts, src/loyalty/outbox-publisher.service.ts, src/loyalty/loyalty.service.ts, src/loyalty/admin-loyalty.service.ts

    From the rise of a tier to its message. The operations of the service write `TIER_UPGRADED` rows in
    their own transactions, and any number of publishers work on the rows meanwhile, whose listener may
    fail, answer late or not at all. A message is sent for nothing but a rise that was committed, never
    more than five times, and all messages about one rise are the same; once a user's rows are
    completed, the messages that were confirmed tell every rise up to the current tier. -/

namespace CinemaLoyalty
open Transition UpgradeChain

/-! ### Messages -/

/-- The record that `TierUpgradeListener.handle` emits. -/
structure TierUpgradeMessage where
  messageId : RowId
  persistent : Bool := true
  userId : String
  oldTier : Tier
  newTier : Tier
  upgradedAt : String
  deriving DecidableEq

/-- The record of a publication. -/
def Publication.message (publication : Publication) : TierUpgradeMessage where
  messageId := publication.eventId
  userId := publication.payload.userId
  oldTier := publication.payload.oldTier
  newTier := publication.payload.newTier
  upgradedAt := toISOString publication.occurredAt

/-- The message of a row. -/
def OutboxEvent.message (row : OutboxEvent) : TierUpgradeMessage := row.publication.message

/-- The messages the listener was called for: each may have reached the broker. -/
def sentMessages (log : List OutboxLog) : List TierUpgradeMessage :=
  log.filterMap fun
    | .published _ publication => some publication.message
    | _ => none

/-- The messages whose emission a listener has confirmed. -/
def confirmedMessages (log : List OutboxLog) : List TierUpgradeMessage :=
  log.filterMap fun
    | .accepted _ publication listeners => if 1 ≤ listeners then some publication.message else none
    | _ => none

section messages
variable {log : List OutboxLog} {m : TierUpgradeMessage} {publication : Publication}

theorem mem_sentMessages :
    m ∈ sentMessages log ↔ ∃ token publication, .published token publication ∈ log ∧
      publication.message = m := by
  unfold sentMessages
  rw [List.mem_filterMap]
  constructor
  · rintro ⟨e, he, hm⟩
    cases e with
    | published token publication => exact ⟨token, publication, he, Option.some.inj hm⟩
    | _ => cases hm
  · rintro ⟨token, publication, he, rfl⟩
    exact ⟨_, he, rfl⟩

theorem confirmed_of_accepted (h : Accepted log publication) :
    publication.message ∈ confirmedMessages log := by
  obtain ⟨token, listeners, hpos, hin⟩ := h
  exact List.mem_filterMap.2 ⟨_, hin, if_pos hpos⟩

/-- The messages of a row are counted by its publications. -/
theorem sentMessages_count (log : List OutboxLog) (id : RowId) :
    ((sentMessages log).filter (·.messageId = id)).length = (publicationsOf id log).length := by
  induction log with
  | nil => rfl
  | cons e log ih =>
    unfold sentMessages publicationsOf at ih ⊢
    cases e with
    | published token publication =>
      by_cases hid : publication.eventId = id
      · have hmessage : publication.message.messageId = id := hid
        simp [OutboxLog.publicationOf, hid, hmessage, ih]
      · have hmessage : publication.message.messageId ≠ id := hid
        simp [OutboxLog.publicationOf, hid, hmessage, ih]
    | _ => exact ih

end messages

/-! ### Rows of the service -/

/-- The rows the service has written: upgrades of users, under ids of their own. -/
structure Written (rows : List OutboxEvent) : Prop where
  made : ∀ row ∈ rows, ∃ userId oldTier newTier now seq,
    row = { tierUpgraded userId oldTier newTier now with seq }
  below : ∀ row ∈ rows, row.seq < (rows.filter (·.aggregateId = row.aggregateId)).length
  ids : (rows.map (·.id)).Nodup

/-- More rows at the end. -/
def Grows (rows rows' : List OutboxEvent) : Prop := rows <+: rows' ∧ (Written rows → Written rows')

section rows
variable {rows rows' : List OutboxEvent} {row : OutboxEvent} {db db' x : DB} {u : Uuid}

theorem Grows.refl : Grows rows rows := ⟨List.prefix_refl _, id⟩

theorem Grows.of_eq (h : rows' = rows) : Grows rows rows' := h ▸ .refl

theorem Grows.trans {rows'' : List OutboxEvent} (h : Grows rows rows') (h' : Grows rows' rows'') :
    Grows rows rows'' :=
  ⟨h.1.trans h'.1, h'.2 ∘ h.2⟩

theorem Written.inserted (h : Written rows) (hrow : row ∈ rows) : row.Inserted := by
  obtain ⟨userId, oldTier, newTier, now, seq, rfl⟩ := h.made row hrow
  exact tierUpgraded_inserted userId oldTier newTier now seq

/-- The next row of a user. -/
theorem written_concat (h : Written rows)
    (hmade : ∃ userId oldTier newTier now seq,
      row = { tierUpgraded userId oldTier newTier now with seq })
    (hseq : row.seq = (rows.filter (·.aggregateId = row.aggregateId)).length) :
    Written (rows ++ [row]) where
  made := by
    intro row' hrow
    rcases List.mem_append.1 hrow with hrow | hrow
    · exact h.made row' hrow
    · exact List.mem_singleton.1 hrow ▸ hmade
  below := by
    intro row' hrow
    rw [List.filter_append, List.length_append]
    rcases List.mem_append.1 hrow with hrow | hrow
    · have hold := h.below row' hrow
      omega
    · rw [List.mem_singleton.1 hrow]
      simp [hseq]
  ids := by
    rw [List.map_append, List.nodup_append]
    refine ⟨h.ids, List.nodup_singleton _, ?_⟩
    rintro _ hid _ hid' rfl
    obtain ⟨old, hold, heq⟩ := List.mem_map.1 hid
    rw [List.map_singleton, List.mem_singleton] at hid'
    obtain ⟨huser, hsame⟩ := RowId.mk.inj (heq.trans hid')
    -- an older row of the user has a smaller number
    have hbelow := h.below old hold
    rw [huser, hsame, hseq] at hbelow
    exact lt_irrefl _ hbelow

theorem announced_grows {userId : UuidText} {oldTier newTier : Tier} {now : Instant}
    (hx : x.outboxEvents = db.outboxEvents) :
    Grows db.outboxEvents (x.announced userId oldTier newTier now).outboxEvents := by
  unfold DB.announced
  rw [← hx]
  split
  · refine ⟨List.prefix_append _ _, fun h => ?_⟩
    exact written_concat h ⟨userId, oldTier, newTier, now, _, rfl⟩ rfl
  · exact .refl

theorem ensureProfile_outboxEvents (v : Uuid) :
    (db.ensureProfile v).outboxEvents = db.outboxEvents :=
  ensureProfile_eq (f := DB.outboxEvents) v rfl

theorem credited_outboxEvents {msg : TicketPurchasedDto} {n : ℤ} {t : Tier} {now : Instant} :
    (db.credited msg n t now).outboxEvents = db.outboxEvents := by
  unfold DB.credited
  simp only
  split <;> exact ensureProfile_outboxEvents _

theorem withIntents_outboxEvents (v : Uuid) (intents : List (String × AchievementAction × Json)) :
    (db.withIntents v intents).outboxEvents = db.outboxEvents :=
  withIntents_unchanged (f := DB.outboxEvents) v intents fun _ _ _ _ => rfl

/-- Every change leaves the rows or writes the next one of a user. -/
theorem change_grows {allowed : Call → Prop} (h : Change allowed db db') :
    Grows db.outboxEvents db'.outboxEvents := by
  cases h with
  | ensured v => exact .of_eq (ensureProfile_outboxEvents v)
  | deducted _ _ _ _ _ _ => exact .of_eq rfl
  | refunded _ _ _ _ _ _ _ _ => exact .of_eq rfl
  | purchased _ _ _ _ =>
    rw [withIntents_outboxEvents]
    exact announced_grows credited_outboxEvents
  | birthdaySet userId d => exact .of_eq (ensureProfile_outboxEvents _)
  | birthdayGranted _ _ _ => exact announced_grows rfl
  | adjusted _ _ => exact announced_grows (ensureProfile_outboxEvents _)
  | vipGranted _ => exact announced_grows (ensureProfile_outboxEvents _)
  | expired _ _ => exact .of_eq rfl
  | annualReset _ => exact .of_eq rfl
  | mirrored _ _ => exact .of_eq rfl
  | reserved _ => exact .of_eq rfl
  | released _ _ _ => exact .of_eq rfl
  | progressed _ h =>
    cases h with
    | duplicate _ _ => exact .of_eq (ensureProfile_outboxEvents _)
    | swallowed _ _ _ => exact .of_eq (ensureProfile_outboxEvents _)
    | advanced _ _ _ => exact .of_eq (ensureProfile_outboxEvents _)
    | unlocked _ _ _ _ => exact .of_eq (ensureProfile_outboxEvents _)
    | rewarded _ _ _ _ => exact .of_eq (ensureProfile_outboxEvents _)
  | defined _ => exact .of_eq rfl

theorem op_grows (op : Op) (db : DB) : Grows db.outboxEvents (op.exec db).outboxEvents :=
  changes_invariant (I := fun x => Grows db.outboxEvents x.outboxEvents)
    (fun _ _ hI hc => hI.trans (change_grows hc))
    (show Changes (fun _ => True) db (op.exec db) from op_changes op db fun _ _ _ => trivial) .refl

theorem op_ranked (op : Op) (h : Ranked db .BRONZE u) : Ranked (op.exec db) .BRONZE u :=
  run_invariant (I := fun db => Ranked db .BRONZE u)
    (fun _ _ hI hc => ranked_step hI (change_promotes hc)) [op] h

end rows

/-! ### Service and publishers -/

/-- The database of the service, and the publishers over its outbox. -/
structure Announcing (Publisher : Type) where
  db : DB
  outbox : OutboxState Publisher

/-- An operation of the service, or a step of the publishers, their listener and the clock. -/
inductive AnnouncingAction (Publisher : Type)
  | operate (op : Op)
  | publisher (a : OutboxAction Publisher)

/-- The service alone inserts rows. -/
def OutboxAction.isInsert {Publisher : Type} : OutboxAction Publisher → Bool
  | .insert _ => true
  | _ => false

section machine
variable {Publisher : Type} [DecidableEq Publisher] (config : Publisher → OutboxConfig)

/-- The rows of a transaction that has committed. -/
def OutboxState.commit (rows : List OutboxEvent) (s : OutboxState Publisher) :
    Option (OutboxState Publisher) :=
  rows.foldlM (fun s row => outboxStep config (.insert row) s) s

def Announcing.step : AnnouncingAction Publisher → Announcing Publisher →
    Option (Announcing Publisher)
  | .operate op, s =>
    (s.outbox.commit config ((op.exec s.db).outboxEvents.drop s.db.outboxEvents.length)).map
      (⟨op.exec s.db, ·⟩)
  | .publisher a, s =>
    if a.isInsert then none else (outboxStep config a s.outbox).map (⟨s.db, ·⟩)

/-- An empty database. -/
def announcing : System (Announcing Publisher) (AnnouncingAction Publisher) where
  first := ⟨.empty, (outboxMachine config).first⟩
  step := Announcing.step config

/-- A step, by what it changes. -/
inductive Announcing.Stepped (s : Announcing Publisher) : Announcing Publisher → Prop
  | operates {op : Op} {o : OutboxState Publisher}
      (h : s.outbox.commit config
        ((op.exec s.db).outboxEvents.drop s.db.outboxEvents.length) = some o) :
      Stepped s ⟨op.exec s.db, o⟩
  | publishes {a : OutboxAction Publisher} {o : OutboxState Publisher} (ha : a.isInsert = false)
      (h : outboxStep config a s.outbox = some o) : Stepped s ⟨s.db, o⟩

variable {config} {s s' : Announcing Publisher} {o o' : OutboxState Publisher} {id : RowId}

theorem announcing_cases {a : AnnouncingAction Publisher} (h : s.step config a = some s') :
    s.Stepped config s' := by
  cases a with
  | operate op =>
    obtain ⟨o, ho, rfl⟩ := Option.map_eq_some_iff.1 h
    exact .operates ho
  | publisher a =>
    simp only [Announcing.step] at h
    split at h
    · cases h
    · rename_i ha
      obtain ⟨o, ho, rfl⟩ := Option.map_eq_some_iff.1 h
      exact .publishes (Bool.eq_false_iff.2 ha) ho

/-- A publisher moves beside a service at rest. -/
theorem announcing_publisher {db : DB} {a : OutboxAction Publisher} (ha : a.isInsert = false)
    (h : outboxStep config a o = some o') :
    (announcing config).step (.publisher a) ⟨db, o⟩ = some ⟨db, o'⟩ := by
  have hmapped : (outboxStep config a o).map (Announcing.mk db) = some ⟨db, o'⟩ :=
    Option.map_eq_some_iff.2 ⟨o', h, rfl⟩
  show Announcing.step config (.publisher a) ⟨db, o⟩ = _
  simp only [Announcing.step, ha, Bool.false_eq_true, if_false]
  exact hmapped

/-- Rows under new ids can be inserted, and nothing else changes. -/
theorem commit_rows (config : Publisher → OutboxConfig) {rows : List OutboxEvent}
    (hi : ∀ row ∈ rows, row.Inserted)
    (hids : (rows.map (·.id)).Nodup) (hn : ∀ row ∈ rows, o.rows row.id = none) :
    ∃ o', o.commit config rows = some o' ∧ (outboxMachine config).Leads o o' ∧
      (∀ row ∈ rows, o'.rows row.id = some row) ∧
      ∀ id, id ∉ rows.map (·.id) → o'.rows id = o.rows id := by
  induction rows generalizing o with
  | nil => exact ⟨o, rfl, .refl, by simp, fun _ _ => rfl⟩
  | cons row rows ih =>
    obtain ⟨hnew, hids⟩ := List.nodup_cons.1 hids
    have hstep : outboxStep config (.insert row) o = some
        { o with
          rows := Function.update o.rows row.id (some row)
          log := o.log ++ [.inserted row] } := by
      simp only [outboxStep]
      rw [if_pos ⟨hi row (List.mem_cons_self ..), by simp [hn row (List.mem_cons_self ..)]⟩]
    have hother : ∀ row' ∈ rows, row'.id ≠ row.id :=
      fun row' hrow heq => hnew (List.mem_map.2 ⟨row', hrow, heq⟩)
    obtain ⟨o', ho', hleads, hstored, hkept⟩ := ih
      (o := { o with
        rows := Function.update o.rows row.id (some row)
        log := o.log ++ [.inserted row] })
      (fun row' hrow => hi row' (List.mem_cons_of_mem _ hrow)) hids (fun row' hrow =>
        (Function.update_of_ne (hother row' hrow) ..).trans (hn row' (List.mem_cons_of_mem _ hrow)))
    refine ⟨o', ?_, .head ⟨.insert row, trivial, hstep⟩ hleads, fun row' hrow => ?_, fun id hid => ?_⟩
    · unfold OutboxState.commit at ho' ⊢
      rw [List.foldlM_cons, hstep]
      exact ho'
    · rcases List.mem_cons.1 hrow with rfl | hrow
      · rw [hkept _ hnew]
        exact Function.update_self ..
      · exact hstored row' hrow
    · rw [List.map_cons, List.mem_cons, not_or] at hid
      rw [hkept id hid.2]
      exact Function.update_of_ne hid.1 ..

omit [DecidableEq Publisher] in
theorem absent_execute {q : OutboxStatement} {received : Instant} (id' : RowId)
    (hn : o.rows id = none) : (o.execute id' q received).rows id = none := by
  rcases o.execute_cases id' q received with heq | ⟨row, row', hrow, -, heq⟩ <;> rw [heq]
  · exact hn
  · have hid : id ≠ id' := by
      rintro rfl
      rw [hn] at hrow
      cases hrow
    exact (Function.update_of_ne hid ..).trans hn

/-- Publishers make no rows. -/
theorem absent_step {a : OutboxAction Publisher} (ha : a.isInsert = false)
    (h : outboxStep config a o = some o') (hn : o.rows id = none) : o'.rows id = none := by
  have hall : ∀ {ids : List RowId} {q : OutboxStatement} {received : Instant}, received ≤ o.now →
      (o.executeAll ids q received).rows id = none := fun hr =>
    OutboxState.executeAll_keeps (I := fun o => o.rows id = none)
      (fun {_ id'} _ hn => absent_execute id' hn) _ hr hn
  cases a with
  | insert row => cases ha
  | run p ids received =>
    simp only [outboxStep, Option.ite_none_right_eq_some] at h
    obtain ⟨hr, h⟩ := h
    unfold OutboxState.runPublisher at h
    split at h
    · obtain ⟨-, rfl⟩ := by simpa only [Option.ite_none_right_eq_some, Option.some.injEq] using h
      exact hall hr
    · obtain ⟨-, rfl⟩ := by simpa only [Option.ite_none_right_eq_some, Option.some.injEq] using h
      exact hall hr
    · obtain ⟨-, rfl⟩ := by simpa only [Option.ite_none_right_eq_some, Option.some.injEq] using h
      exact hall hr
    · cases h
  | stray ids q received =>
    simp only [outboxStep, Option.ite_none_right_eq_some, Option.some.injEq] at h
    obtain ⟨⟨hr, -⟩, rfl⟩ := h
    exact hall hr
  | record token =>
    simp only [outboxStep] at h
    split at h <;> cases h
    exact absent_execute _ hn
  | tick now =>
    simp only [outboxStep, Option.ite_none_right_eq_some, Option.some.injEq] at h
    obtain ⟨-, rfl⟩ := h
    exact hn
  | lose p =>
    cases h
    exact hn
  | next p =>
    simp only [outboxStep] at h
    split at h
    · obtain ⟨-, rfl⟩ := by simpa only [Option.ite_none_right_eq_some, Option.some.injEq] using h
      exact hn
    · cases h
  | _ =>
    simp only [outboxStep] at h
    split at h <;> cases h
    exact hn

end machine

/-! ### Over runs -/

section runs
variable {Publisher : Type} [DecidableEq Publisher] {config : Publisher → OutboxConfig}
  {s s' : Announcing Publisher} {o o' : OutboxState Publisher}

omit [DecidableEq Publisher] in
theorem published_execute {q : OutboxStatement} {received : Instant} {id : RowId} {token : ℕ}
    {p : Publication} (h : .published token p ∈ (o.execute id q received).log) :
    .published token p ∈ o.log := by
  rcases o.execute_cases id q received with heq | ⟨row, row', -, -, heq⟩ <;> rw [heq] at h
  · exact h
  · simpa using h

/-- What is published is the publication of its row. -/
theorem publications_stored (hr : (outboxMachine config).Reached o) {token : ℕ} {p : Publication}
    (h : .published token p ∈ o.log) : ∃ row, o.rows p.eventId = some row ∧ row.publication = p := by
  have hboth : OutboxInvariant o ∧ ∀ token p, .published token p ∈ o.log →
      ∃ row, o.rows p.eventId = some row ∧ row.publication = p := by
    refine hr.invariant (I := fun o => OutboxInvariant o ∧ ∀ token p, .published token p ∈ o.log →
      ∃ row, o.rows p.eventId = some row ∧ row.publication = p)
      ⟨outboxInvariant_first, fun _ _ h => absurd h List.not_mem_nil⟩ ?_
    rintro a o o' hstep ⟨hi, hstored⟩
    have hst := outboxStep_cases hstep
    refine ⟨⟨outboxJournal_step hst hi.journal, outboxClaims_step hst hi.journal hi.claims,
      outboxEvidence_step hst hi.claims hi.evidence⟩, fun token p hin => ?_⟩
    have hold : .published token p ∈ o.log → ∃ row, o'.rows p.eventId = some row ∧
        row.publication = p := by
      intro hin
      obtain ⟨row, hrow, rfl⟩ := hstored token p hin
      obtain ⟨row', hrow', hpub, -⟩ := persists_step hst _ row hrow
      exact ⟨row', hrow', hpub⟩
    have hall : ∀ {ids : List RowId} {q : OutboxStatement} {received : Instant}, received ≤ o.now →
        .published token p ∈ (o.executeAll ids q received).log → .published token p ∈ o.log :=
      fun {ids q received} hr => OutboxState.executeAll_keeps
        (I := fun o₁ => .published token p ∈ o₁.log → .published token p ∈ o.log)
        (fun {_ _} _ h hin => h (published_execute hin)) ids hr id
    cases hst with
    | tick _ => exact hold hin
    | insert _ _ => exact hold (by simpa using hin)
    | move _ _ => exact hold hin
    | run _ _ _ hr => exact hold (hall hr hin)
    | stray _ hr => exact hold (hall hr hin)
    | @publish token' event ht =>
      rcases List.mem_append.1 hin with hin | hin
      · exact hold hin
      · obtain ⟨rfl, rfl⟩ : token = token' ∧ p = event.publication := by simpa using hin
        exact (hi.claims.granted token event (by rw [ht]; rfl)).2
    | @settle _ _ emission _ _ =>
      refine hold ?_
      rcases List.mem_append.1 hin with hin | hin
      · exact hin
      · cases emission <;> simp [Emission.answer] at hin
    | record _ => exact hold (published_execute (by simpa [OutboxState.advance] using hin))
    | drop _ => exact hold (by simpa [OutboxState.advance] using hin)
  exact hboth.2 token p h

/-- The outbox of the publishers holds the rows of the service. -/
structure Announced (config : Publisher → OutboxConfig) (s : Announcing Publisher) : Prop where
  outbox : (outboxMachine config).Reached s.outbox
  written : Written s.db.outboxEvents
  ranked : ∀ u, Ranked s.db .BRONZE u
  stored : ∀ row ∈ s.db.outboxEvents, ∃ row', s.outbox.rows row.id = some row' ∧
    row'.publication = row.publication ∧ row'.maxAttempts = row.maxAttempts
  known : ∀ id, id ∉ s.db.outboxEvents.map (·.id) → s.outbox.rows id = none

theorem announced_first : Announced config (announcing config).first where
  outbox := .refl
  written := ⟨fun _ h => absurd h List.not_mem_nil, fun _ h => absurd h List.not_mem_nil,
    List.nodup_nil⟩
  ranked u := run_ranked [] u
  stored _ h := absurd h List.not_mem_nil
  known _ _ := rfl

/-- An operation is never held up by the outbox. -/
theorem Announced.operates (ha : Announced config s) (op : Op) : ∃ o,
    s.outbox.commit config ((op.exec s.db).outboxEvents.drop s.db.outboxEvents.length) = some o ∧
      Announced config ⟨op.exec s.db, o⟩ := by
  obtain ⟨⟨more, hmore⟩, hgrows⟩ := op_grows op s.db
  have hwritten := hgrows ha.written
  have hids := hwritten.ids
  rw [← hmore, List.map_append, List.nodup_append] at hids
  obtain ⟨-, hnodup, hdisjoint⟩ := hids
  have hmem : ∀ {row}, row ∈ (op.exec s.db).outboxEvents ↔ row ∈ s.db.outboxEvents ∨ row ∈ more := by
    intro row
    rw [← hmore, List.mem_append]
  obtain ⟨o, ho, hleads, hstored, hkept⟩ := commit_rows config (o := s.outbox)
    (fun row hrow => hwritten.inserted (hmem.2 (.inr hrow))) hnodup (fun row hrow =>
      ha.known _ fun hold => hdisjoint _ hold _ (List.mem_map_of_mem hrow) rfl)
  refine ⟨o, ?_, ha.outbox.trans hleads, hwritten, fun u => op_ranked op (ha.ranked u),
    fun row hrow => ?_, fun id hid => ?_⟩
  · rw [← hmore, List.drop_left]
    exact ho
  · rcases hmem.1 hrow with hrow | hrow
    · obtain ⟨row', hrow', hpub, hmax⟩ := ha.stored row hrow
      obtain ⟨row'', hrow'', hpub', hmax'⟩ := persists_leads hleads _ row' hrow'
      exact ⟨row'', hrow'', hpub'.trans hpub, hmax'.trans hmax⟩
    · exact ⟨row, hstored row hrow, rfl, rfl⟩
  · have hid' : id ∉ (op.exec s.db).outboxEvents.map (·.id) := hid
    rw [← hmore, List.map_append, List.mem_append, not_or] at hid'
    exact (hkept id hid'.2).trans (ha.known id hid'.1)

theorem Announced.publishes (ha : Announced config s) {a : OutboxAction Publisher}
    (hinsert : a.isInsert = false) (h : outboxStep config a s.outbox = some o) :
    Announced config ⟨s.db, o⟩ where
  outbox := ha.outbox.tail ⟨a, trivial, h⟩
  written := ha.written
  ranked := ha.ranked
  stored row hrow := by
    obtain ⟨row', hrow', hpub, hmax⟩ := ha.stored row hrow
    obtain ⟨row'', hrow'', hpub', hmax'⟩ := persists_step (outboxStep_cases h) _ row' hrow'
    exact ⟨row'', hrow'', hpub'.trans hpub, hmax'.trans hmax⟩
  known id hid := absent_step hinsert h (ha.known id hid)

theorem announced_step (h : s.Stepped config s') (ha : Announced config s) : Announced config s' := by
  cases h with
  | @operates op o h =>
    obtain ⟨o', ho', ha'⟩ := ha.operates op
    obtain rfl : o' = o := Option.some.inj (ho'.symm.trans h)
    exact ha'
  | publishes hinsert h => exact ha.publishes hinsert h

theorem announced_reached (h : (announcing config).Reached s) : Announced config s :=
  h.invariant announced_first fun hstep ha => announced_step (announcing_cases hstep) ha

/-- The user a message names is the user of its row. -/
theorem Written.user {rows : List OutboxEvent} {row : OutboxEvent} (h : Written rows)
    (hrow : row ∈ rows) : Uuid.ofText row.message.userId = some row.aggregateId := by
  obtain ⟨userId, _, _, _, _, rfl⟩ := h.made row hrow
  exact userId.named

theorem Written.budget {rows : List OutboxEvent} {row : OutboxEvent} (h : Written rows)
    (hrow : row ∈ rows) : row.maxAttempts = 5 := by
  obtain ⟨_, _, _, _, _, rfl⟩ := h.made row hrow
  rfl

/-- Only rows of the service are sent. -/
theorem Announced.sent (ha : Announced config s) {m : TierUpgradeMessage}
    (hm : m ∈ sentMessages s.outbox.log) : ∃ row ∈ s.db.outboxEvents, row.message = m := by
  obtain ⟨token, p, hin, rfl⟩ := mem_sentMessages.1 hm
  obtain ⟨row, hrow, rfl⟩ := publications_stored ha.outbox hin
  by_cases hid : row.publication.eventId ∈ s.db.outboxEvents.map (·.id)
  · obtain ⟨row₀, hmem, hid⟩ := List.mem_map.1 hid
    obtain ⟨row', hrow', hpub, -⟩ := ha.stored row₀ hmem
    rw [hid, hrow] at hrow'
    obtain rfl := Option.some.inj hrow'
    exact ⟨row₀, hmem, congrArg Publication.message hpub.symm⟩
  · rw [ha.known _ hid] at hrow
    cases hrow

/-- A row of the service has been confirmed, or is not completed yet, or no attempt is left. -/
theorem Announced.confirmed (ha : Announced config s) {row : OutboxEvent}
    (hmem : row ∈ s.db.outboxEvents) : row.message ∈ confirmedMessages s.outbox.log ∨
      ∃ row', s.outbox.rows row.id = some row' ∧ row'.status ≠ .COMPLETED ∧
        (row'.status = .FAILED → row'.attempts = 5) := by
  obtain ⟨row', hrow', hpub, hmax⟩ := ha.stored row hmem
  have hguarded := outbox_reached ha.outbox
  by_cases hstatus : row'.status = .COMPLETED
  · have haccepted := hguarded.evidence.completed row.id row' hrow' hstatus
    rw [hpub] at haccepted
    exact .inl (confirmed_of_accepted haccepted)
  · refine .inr ⟨row', hrow', hstatus, fun hfailed => ?_⟩
    rw [(hguarded.journal.sound row.id row' hrow').exhausted hfailed, hmax]
    exact ha.written.budget hmem

/-- No message is sent more than five times. -/
theorem Announced.bounded (ha : Announced config s) {row : OutboxEvent}
    (hmem : row ∈ s.db.outboxEvents) :
    ((sentMessages s.outbox.log).filter (·.messageId = row.message.messageId)).length ≤ 5 := by
  obtain ⟨row', hrow', -, hmax⟩ := ha.stored row hmem
  have hguarded := outbox_guarded ha.outbox hrow'
  have hbudget := ha.written.budget hmem
  have hpublished := hguarded.published
  have hbounds := hguarded.bounds
  have hcount : ((sentMessages s.outbox.log).filter (·.messageId = row.message.messageId)).length =
      (publicationsOf row.id s.outbox.log).length := sentMessages_count _ _
  omega

/-- In every run of the service and its publishers, whatever is lost, late or dies: the rises of a
    user's tier lead from BRONZE to the tier of the profile, each with a message of its own. No other
    message about the user is sent, none more than five times, and each is confirmed unless its row is
    not completed, which is given up only after five attempts. -/
theorem upgrades_announced (h : (announcing config).Reached s) (u : Uuid) :
    ∃ upgrades : List TierUpgradeMessage,
      Chain TierUpgradeMessage.oldTier TierUpgradeMessage.newTier .BRONZE upgrades (s.db.tierOf u) ∧
      (upgrades.map (·.messageId)).Nodup ∧
      (∀ m ∈ sentMessages s.outbox.log, Uuid.ofText m.userId = some u → m ∈ upgrades) ∧
      ∀ m ∈ upgrades,
        ((sentMessages s.outbox.log).filter (·.messageId = m.messageId)).length ≤ 5 ∧
        (m ∈ confirmedMessages s.outbox.log ∨
          ∃ row, s.outbox.rows m.messageId = some row ∧ row.status ≠ .COMPLETED ∧
            (row.status = .FAILED → row.attempts = 5)) := by
  have ha := announced_reached h
  refine ⟨(s.db.outboxOf u).map OutboxEvent.message, chain_map.2 (ha.ranked u).chain, ?_,
    fun m hm huser => ?_, fun m hm => ?_⟩
  · rw [List.map_map]
    exact ha.written.ids.sublist (List.filter_sublist.map _)
  · obtain ⟨row, hrow, rfl⟩ := ha.sent hm
    rw [ha.written.user hrow, Option.some.injEq] at huser
    exact List.mem_map_of_mem (List.mem_filter.2 ⟨hrow, decide_eq_true huser⟩)
  · obtain ⟨row, hrow, rfl⟩ := List.mem_map.1 hm
    have hmem := List.mem_of_mem_filter hrow
    exact ⟨ha.bounded hmem, ha.confirmed hmem⟩

/-- A user becomes a VIP, and one of two publishers announces it. -/
def vipAnnounced : List (AnnouncingAction Bool) :=
  .operate (.call (.grantVipStatusGrpc ⟨_, _, nilText_named⟩ "admin" "") 1000) ::
    [.tick 1000, .begin true, .run true [] 1000, .run true [] 1000,
      .run true [⟨Uuid.nil, 0⟩] 1000, .publish 0, .settle true 0 (.resolved 1), .record 0].map
        AnnouncingAction.publisher

/-- The rise to GOLD is confirmed. -/
theorem upgrades_announced_vip : ∃ s : Announcing Bool, ∃ upgrades : List TierUpgradeMessage,
    Chain TierUpgradeMessage.oldTier TierUpgradeMessage.newTier .BRONZE upgrades .GOLD ∧
      s.db.tierOf Uuid.nil = .GOLD ∧ ∃ m ∈ upgrades, m ∈ confirmedMessages s.outbox.log := by
  obtain ⟨s, hs, hp⟩ := (announcing fun _ : Bool => {}).reached_of_exec vipAnnounced
    (fun s => decide (s.db.tierOf Uuid.nil = .GOLD) && (sentMessages s.outbox.log).any fun m =>
      decide (m ∈ confirmedMessages s.outbox.log) && decide (m.userId = Uuid.nil.text))
    (by decide +kernel)
  rw [Bool.and_eq_true, decide_eq_true_iff, List.any_eq_true] at hp
  obtain ⟨hgold, m, hsent, hm⟩ := hp
  rw [Bool.and_eq_true, decide_eq_true_iff, decide_eq_true_iff] at hm
  obtain ⟨upgrades, hchain, -, hall, -⟩ := upgrades_announced hs Uuid.nil
  have huser : Uuid.ofText m.userId = some Uuid.nil := hm.2 ▸ nilText_named
  exact ⟨s, upgrades, hgold ▸ hchain, hgold, m, hall m hsent huser, hm.1⟩

end runs

end CinemaLoyalty
