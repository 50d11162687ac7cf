import CinemaLoyalty.Service

/-! @svc Idempotency | layer:property | source:src/loyalty/point-command-idempotency.ts, src/loyalty/loyalty.service.ts, src/achievements/processors/achievements.processor.ts

    What an idempotency key means over a whole run. A success binds its key to the command and the
    response; nothing unbinds it (`act_keeps`), so from then on the same command answers the same
    response, every other command and event under the key fails, and none of them changes anything
    (`key_binds`). A refused command changes nothing, so it binds nothing (`refusal_frees`). -/

namespace CinemaLoyalty
open Txn

/-! ### Recorded keys stay -/

section keeps
variable {db db' : DB} {k : String} {e : ProcessedEvent} {allowed : Call → Prop}

theorem ensure_keeps (u : Uuid) (h : db.processedEvents k = some e) :
    (db.ensureProfile u).processedEvents k = some e := by
  rwa [ensureProfile_processedEvents]

theorem marked_keeps (u : Uuid) (marker : String) (h : db.processedEvents k = some e) :
    (db.marked u marker).processedEvents k = some e :=
  processedEvents_apply _ (ensure_keeps u h)

/-- No change forgets a recorded key or alters its record. -/
theorem change_keeps (hc : Change allowed db db') (h : db.processedEvents k = some e) :
    db'.processedEvents k = some e := by
  cases hc with
  | ensured u => exact ensure_keeps u h
  | deducted _ _ _ _ _ _ =>
    unfold DB.deducted
    exact processedEvents_apply _ (processedEvents_apply _ (processedEvents_apply _
      (processedEvents_apply _ h)))
  | refunded _ _ _ _ _ _ _ _ =>
    unfold DB.refunded
    exact processedEvents_apply _ (processedEvents_apply _ (processedEvents_apply _
      (processedEvents_apply _ h)))
  | @purchased msg n now rows _ _ _ _ =>
    rw [withIntents_processedEvents]
    unfold DB.purchased DB.credited
    rw [announced_processedEvents]
    refine processedEvents_apply _ ?_
    split
    · exact processedEvents_apply _ (processedEvents_apply _ (ensure_keeps _ h))
    · exact processedEvents_apply _ (ensure_keeps _ h)
  | birthdaySet u d => exact processedEvents_apply _ (ensure_keeps _ h)
  | birthdayGranted _ _ _ =>
    unfold DB.birthdayGranted
    rw [announced_processedEvents]
    exact processedEvents_apply _ (processedEvents_apply _ (processedEvents_apply _ h))
  | adjusted _ _ =>
    unfold DB.adjusted
    rw [announced_processedEvents]
    exact processedEvents_apply _ (processedEvents_apply _ (ensure_keeps _ h))
  | vipGranted _ =>
    unfold DB.vipGranted
    rw [announced_processedEvents]
    exact processedEvents_apply _ (processedEvents_apply _ (ensure_keeps _ h))
  | expired _ _ => exact processedEvents_apply _ (processedEvents_apply _ h)
  | annualReset _ => exact processedEvents_apply _ h
  | mirrored _ _ => exact processedEvents_apply _ h
  | reserved _ => exact processedEvents_apply _ h
  | released _ _ _ => exact processedEvents_apply _ h
  | progressed _ h' =>
    cases h' with
    | duplicate _ _ => exact ensure_keeps _ h
    | swallowed _ _ _ => exact marked_keeps _ _ h
    | advanced _ _ _ => exact processedEvents_apply _ (marked_keeps _ _ h)
    | unlocked _ _ _ _ =>
      unfold DB.unlocked
      exact processedEvents_apply _ (processedEvents_apply _ (marked_keeps _ _ h))
    | rewarded _ _ _ _ =>
      unfold DB.rewarded DB.post DB.unlocked
      exact processedEvents_apply _ (processedEvents_apply _ (processedEvents_apply _
        (processedEvents_apply _ (marked_keeps _ _ h))))
  | defined _ => exact h

end keeps

/-- What happens to the database over time: operations, and the removal of a profile by hand. -/
inductive Act
  | operate (o : Op)
  | removeProfile (userId : Uuid)

/-- The database after an act. -/
def Act.exec (db : DB) : Act → DB
  | .operate o => o.exec db
  | .removeProfile userId => { db with profiles := Function.update db.profiles userId none }

/-- The database after a history. -/
def DB.runActs (db : DB) (acts : List Act) : DB := acts.foldl Act.exec db

theorem act_keeps {db : DB} {k : String} {e : ProcessedEvent} (h : db.processedEvents k = some e)
    (act : Act) : (act.exec db).processedEvents k = some e := by
  cases act with
  | operate o =>
    have hc : Changes (fun _ => True) db (o.exec db) := op_changes o db fun _ _ _ => trivial
    exact changes_invariant (I := fun x => x.processedEvents k = some e)
      (fun _ _ hI hc => change_keeps hc hI) hc h
  | removeProfile u => exact h

theorem acts_keep {k : String} {e : ProcessedEvent} (acts : List Act) {db : DB}
    (h : db.processedEvents k = some e) : (db.runActs acts).processedEvents k = some e := by
  induction acts generalizing db with
  | nil => exact h
  | cons act acts ih => exact ih (act_keeps h act)

/-! ### Bound keys -/

/-- The key of a command is recorded for exactly this command, with the response `balanceAfter`. -/
def DB.Binds (db : DB) (command : PointCommand) (balanceAfter : ℤ) : Prop :=
  ∃ e, db.processedEvents command.idempotencyKey = some e ∧ e.operation = some command.operation ∧
    e.userId = some command.userId ∧ e.orderId = some command.orderId ∧
    e.amount = some command.amount ∧ e.balanceAfter = some balanceAfter

section binds
variable {db db' : DB} {command other : PointCommand} {b : ℤ} {res : PointCommandResult}

theorem binds_keeps (h : db.Binds command b) (acts : List Act) :
    (db.runActs acts).Binds command b := by
  obtain ⟨e, he, hrest⟩ := h
  exact ⟨e, acts_keep acts he, hrest⟩

/-- A success leaves its key bound to its response. -/
theorem outcome_binds {effect : ℤ → DB → Prop} (h : Outcome db command effect res db')
    (hs : res.success = true)
    (heff : ∀ b db', db.processedEvents command.idempotencyKey = none → effect b db' →
      db'.Binds command b) :
    ∃ b, res = .succeeded b ∧ db'.Binds command b := by
  cases h with
  | refused _ => cases hs
  | effective hn he => exact ⟨_, rfl, heff _ _ hn he⟩
  | @replayed e _ hb hr =>
    unfold replayOf at hr
    split at hr
    · cases hr; cases hs
    split at hr
    · cases hr; cases hs
    rename_i hsame
    simp only [ne_eq, not_or, not_not] at hsame
    split at hr
    · cases hr
    · rename_i b hbal
      cases hr
      exact ⟨b, rfl, e, hb, hsame.1, hsame.2.1, hsame.2.2.1, hsame.2.2.2, hbal⟩

theorem binds_record {x : DB} (hx : x.processedEvents command.idempotencyKey =
    some (command.record b)) : x.Binds command b :=
  ⟨command.record b, hx, rfl, rfl, rfl, rfl, rfl⟩

theorem deducts_binds {orderId : String} {now : Instant}
    (hn : db.processedEvents command.idempotencyKey = none)
    (h : Deducts db command orderId now b db') : db'.Binds command b := by
  obtain ⟨p, -, -, -, rfl, rfl⟩ := h
  exact binds_record (by simp [DB.deducted, PointCommand.record, hn])

theorem refunds_binds {orderId : String} {now : Instant}
    (hn : db.processedEvents command.idempotencyKey = none)
    (h : Refunds db command orderId now b db') : db'.Binds command b := by
  obtain ⟨p, debit, -, -, -, -, -, rfl, rfl⟩ := h
  exact binds_record (by simp [DB.refunded, PointCommand.record, hn])

/-- A bound key answers its own command with its response. -/
theorem replay_same (h : db.Binds command b) :
    ∃ e, db.processedEvents command.idempotencyKey = some e ∧
      replayOf command e = .pure (.succeeded b) := by
  obtain ⟨e, he, hop, hu, ho, ha, hb⟩ := h
  refine ⟨e, he, ?_⟩
  simp [replayOf, hop, hu, ho, ha, hb]

/-- A bound key refuses any other command. -/
theorem replay_other (h : db.Binds command b) (hk : other.idempotencyKey = command.idempotencyKey)
    (hne : other ≠ command) :
    ∃ e, db.processedEvents other.idempotencyKey = some e ∧
      replayOf other e = .pure (.refused 0 ERROR_MESSAGES.IDEMPOTENCY_CONFLICT) := by
  obtain ⟨e, he, hop, hu, ho, ha, hb⟩ := h
  refine ⟨e, by rw [hk, he], ?_⟩
  have hdiff : ¬(command.operation = other.operation ∧ command.userId = other.userId ∧
      command.orderId = other.orderId ∧ command.amount = other.amount) := by
    rintro ⟨h₁, h₂, h₃, h₄⟩
    refine hne ?_
    cases other; cases command
    simp_all
  have hconflict : e.operation ≠ some other.operation ∨ e.userId ≠ some other.userId ∨
      e.orderId ≠ some other.orderId ∨ e.amount ≠ some other.amount := by
    rw [hop, hu, ho, ha]
    simp only [ne_eq, Option.some.injEq]
    tauto
  unfold replayOf
  rw [if_neg (by simp [hop]), if_pos hconflict]

end binds

/-! ### Calls on a recorded key -/

section calls
variable {db : DB} {c : Call} {now : Instant} {command : PointCommand} {e : ProcessedEvent}

theorem deductPointsTx_replayed {userId orderId : String} {res : PointCommandResult}
    (hk : isTextColumn command.idempotencyKey = true)
    (he : db.processedEvents command.idempotencyKey = some e)
    (hr : replayOf command e = .pure res) :
    db.run (deductPointsTx command userId orderId now) = .ok (res, db) := by
  unfold deductPointsTx
  rw [run_lock, run_replay _ hk, he]
  simp only [hr, Prog.pure_bind, Prog.pure_eq, run_pure]

theorem refundPointsTx_replayed {orderId : String} {res : PointCommandResult}
    (hk : isTextColumn command.idempotencyKey = true)
    (he : db.processedEvents command.idempotencyKey = some e)
    (hr : replayOf command e = .pure res) :
    db.run (refundPointsTx command orderId now) = .ok (res, db) := by
  unfold refundPointsTx
  rw [run_lock, run_replay _ hk, he]
  simp only [hr, Prog.pure_bind, Prog.pure_eq, run_pure]

/-- A point command whose key is recorded answers from the record, before any other check, and
    changes nothing. -/
theorem exec_replayed {res : PointCommandResult} (hc : c.Issues command)
    (hk : isTextColumn command.idempotencyKey = true)
    (he : db.processedEvents command.idempotencyKey = some e)
    (hr : replayOf command e = .pure res) : c.exec now db = (.ok (.pointCommand res), db) := by
  refine exec_ok ?_
  cases c with
  | deductPoints userId amount orderId key =>
    simp only [Call.Issues] at hc
    simp only [Call.tx, Prog.pure_eq, run_wrap_eq, deductPoints, hc]
    rw [deductPointsTx_replayed hk he hr]
    rfl
  | refundPoints userId amount orderId key =>
    simp only [Call.Issues] at hc
    simp only [Call.tx, Prog.pure_eq, run_wrap_eq, refundPoints, hc]
    rw [refundPointsTx_replayed hk he hr]
    rfl
  | _ => exact hc.elim

/-- A purchase event under a key bound to a command fails. -/
theorem exec_purchase_bound {msg : TicketPurchasedDto}
    (he : db.processedEvents msg.eventId.text = some e) (ho : e.operation ≠ none) :
    ∃ err, (Call.processTicketPurchase msg).exec now db = (.error err, db) := by
  refine ⟨_, exec_error (e := .permanent .PURCHASE_IDEMPOTENCY_CONFLICT
    ERROR_MESSAGES.IDEMPOTENCY_CONFLICT) ?_⟩
  simp only [Call.tx, Prog.pure_eq, run_wrap_eq, processTicketPurchase, run_lock_create,
    Prog.call_bind]
  rw [run_findEvent (uuidText_column _), ensureProfile_processedEvents, he]
  simp only [if_pos ho]
  rfl

/-- A job step that gets as far as the marker `k`: its event and its criteria are accepted and the
    event advances the achievement. -/
def ReachesMarker (event : ActionEvent) (achievement : Achievement) (k : String) : Prop :=
  ∃ parsed userId criteria, event.parse = some parsed ∧ Uuid.ofText parsed.userId = some userId ∧
    parseAchievementCriteria achievement.criteria = some criteria ∧
    (calculateAchievementProgressIncrement criteria parsed).shouldProcess = true ∧
    uniqueProcessId parsed.eventId achievement = k

/-- A step of an achievement job under a key bound to a command fails. -/
theorem exec_achievement_bound {event : ActionEvent} {achievement : Achievement} {k : String}
    (hreach : ReachesMarker event achievement k) (hk : isTextColumn k = true)
    (he : db.processedEvents k = some e) (ho : e.operation ≠ none) :
    ∃ err, (Call.processAchievement event achievement).exec now db = (.error err, db) := by
  obtain ⟨parsed, userId, criteria, hparse, huser, hcriteria, hshould, rfl⟩ := hreach
  refine ⟨_, exec_error (e := .error "Idempotency key is already used for a point command") ?_⟩
  have hjob : processAchievementJob event achievement now =
      processAchievementTx parsed.eventId userId achievement criteria.target
        (calculateAchievementProgressIncrement criteria parsed).incrementBy now := by
    simp [processAchievementJob, hparse, huser, processAchievement, hcriteria, hshould]
  simp only [Call.tx, Prog.pure_eq, run_wrap_eq, hjob, processAchievementTx, run_lock_create,
    Prog.call_bind]
  have hmarker : (db.ensureProfile userId).processedEvents
      (uniqueProcessId parsed.eventId achievement) = some e := by
    rw [ensureProfile_processedEvents, he]
  generalize uniqueProcessId parsed.eventId achievement = k at hk hmarker
  have hrow : ({ eventId := k } : ProcessedEvent).inRange = true := rfl
  rw [run_createManyEvent_taken hmarker hrow hk]
  simp only [if_true]
  rw [run_findEvent hk, hmarker]
  simp only [Option.bind_some]
  rw [if_pos (Option.isSome_iff_ne_none.2 ho)]
  rfl

/-- `deductPoints` or `refundPoints`, valid or not. -/
def Call.isCommand : Call → Bool
  | .deductPoints .. => true
  | .refundPoints .. => true
  | _ => false

/-- An answer that reports a success. -/
def Succeeds (answer : Except TxError Answer) (res : PointCommandResult) : Prop :=
  answer = .ok (.pointCommand res) ∧ res.success = true

/-- A failed transaction of a point command is never reported as a success. -/
theorem recover_fails (hc : c.isCommand = true) (err : TxError) (res : PointCommandResult) :
    ¬Succeeds (c.recover err) res := by
  rintro ⟨h, hs⟩
  cases c with
  | deductPoints userId amount orderId key =>
    cases err <;> cases h <;> cases hs
  | refundPoints userId amount orderId key =>
    cases h; cases hs
  | _ => cases hc

theorem outcome_mono {effect effect' : ℤ → DB → Prop} {res : PointCommandResult} {db' : DB}
    (h : Outcome db command effect res db')
    (he : ∀ b x, db.processedEvents command.idempotencyKey = none → effect b x → effect' b x) :
    Outcome db command effect' res db' := by
  cases h with
  | replayed hb hr => exact .replayed hb hr
  | refused hn => exact .refused hn
  | effective hn h => exact .effective hn (he _ _ hn h)

/-- A valid command fails without a change, or answers in one of the three ways, its effect binding
    the key. -/
theorem exec_outcome (now : Instant) (db : DB) (hc : c.Issues command) :
    (∃ err, c.exec now db = (c.recover err, db)) ∨
      ∃ res db', c.exec now db = (.ok (.pointCommand res), db') ∧
        Outcome db command (fun b x => x.Binds command b) res db' := by
  rcases exec_cases c now db with ⟨err, -, hx⟩ | ⟨a, db', hrun, hx⟩
  · exact .inl ⟨err, hx⟩
  refine .inr ?_
  cases c with
  | deductPoints userId amount orderId key =>
    obtain ⟨res, h, rfl⟩ := run_wrap hrun
    simp only [Call.Issues] at hc
    simp only [deductPoints, hc] at h
    exact ⟨res, db', hx, outcome_mono (deductPointsTx_ok h) fun _ _ hn he => deducts_binds hn he⟩
  | refundPoints userId amount orderId key =>
    obtain ⟨res, h, rfl⟩ := run_wrap hrun
    simp only [Call.Issues] at hc
    simp only [refundPoints, hc] at h
    exact ⟨res, db', hx, outcome_mono (refundPointsTx_ok h) fun _ _ hn he => refunds_binds hn he⟩
  | _ => exact hc.elim

theorem issues_isCommand (hc : c.Issues command) : c.isCommand = true := by
  cases c <;> first | rfl | exact hc.elim

/-- An invalid command changes nothing. -/
theorem exec_invalid (now : Instant) (db : DB) (hc : c.isCommand = true)
    (hi : ∀ command, ¬c.Issues command) : (c.exec now db).2 = db := by
  cases c with
  | deductPoints userId amount orderId key =>
    have hn := Option.eq_none_iff_forall_not_mem.2 hi
    have hrun : db.run (Call.tx now (.deductPoints userId amount orderId key)) =
        .ok (.pointCommand (.refused 0 ERROR_MESSAGES.INVALID_POINT_COMMAND), db) := by
      simp only [Call.tx, deductPoints, hn]
      rfl
    rw [exec_ok hrun]
  | refundPoints userId amount orderId key =>
    have hn := Option.eq_none_iff_forall_not_mem.2 hi
    have hrun : db.run (Call.tx now (.refundPoints userId amount orderId key)) =
        .ok (.pointCommand (.refused 0 ERROR_MESSAGES.INVALID_POINT_COMMAND), db) := by
      simp only [Call.tx, refundPoints, hn]
      rfl
    rw [exec_ok hrun]
  | _ => cases hc

/-- The key of a command that succeeds is one that the column holds. -/
theorem exec_key {r : PointCommandResult} (hc : c.Issues command)
    (hs : Succeeds (c.exec now db).1 r) : isTextColumn command.idempotencyKey = true := by
  rcases exec_cases c now db with ⟨err, -, hx⟩ | ⟨a, db', hrun, -⟩
  · rw [hx] at hs
    exact (recover_fails (issues_isCommand hc) err r hs).elim
  cases c with
  | deductPoints userId amount orderId key =>
    obtain ⟨res, h, -⟩ := run_wrap hrun
    simp only [Call.Issues] at hc
    simp only [deductPoints, hc] at h
    exact deductPointsTx_key h
  | refundPoints userId amount orderId key =>
    obtain ⟨res, h, -⟩ := run_wrap hrun
    simp only [Call.Issues] at hc
    simp only [refundPoints, hc] at h
    exact refundPointsTx_key h
  | _ => exact hc.elim

/-- A success leaves its key bound to its response, whether it took effect or was a replay. -/
theorem exec_binds {r : PointCommandResult} (hc : c.Issues command)
    (hs : Succeeds (c.exec now db).1 r) :
    ∃ b, r = .succeeded b ∧ (c.exec now db).2.Binds command b := by
  rcases exec_outcome now db hc with ⟨err, hx⟩ | ⟨res, db', hx, ho⟩
  · rw [hx] at hs
    exact (recover_fails (issues_isCommand hc) err r hs).elim
  · rw [hx] at hs ⊢
    obtain ⟨heq, hsuccess⟩ := hs
    cases heq
    exact outcome_binds ho hsuccess fun _ _ _ h => h

/-- A call of one of the commands that does not succeed changes nothing, so it binds no key. -/
theorem exec_refused (hc : c.isCommand = true)
    (hs : ∀ res, ¬Succeeds (c.exec now db).1 res) : (c.exec now db).2 = db := by
  by_cases hv : ∃ command, c.Issues command
  · obtain ⟨command, hv⟩ := hv
    rcases exec_outcome now db hv with ⟨err, hx⟩ | ⟨res, db', hx, ho⟩
    · rw [hx]
    · rw [hx] at hs ⊢
      cases ho with
      | replayed _ _ => rfl
      | refused _ => rfl
      | effective _ _ => exact (hs _ ⟨rfl, rfl⟩).elim
  · exact exec_invalid now db hc fun command h => hv ⟨command, h⟩

end calls

/-- Once a command succeeded with response `r`, then after any acts its key answers the same command
    with `r`, refuses every other command, and fails every purchase event and achievement step that
    reaches it, without a change. A command that does not succeed binds nothing, in any state. -/
theorem key_binds (db : DB) (c : Call) (now : Instant) (command : PointCommand)
    (r : PointCommandResult) (acts : List Act) (hc : c.Issues command)
    (hs : Succeeds (c.exec now db).1 r) :
    let later := (c.exec now db).2.runActs acts
    (∀ again at₂, again.Issues command →
      Call.exec again at₂ later = (.ok (.pointCommand r), later)) ∧
    (∀ different at₂ other, Call.Issues other different →
      other.idempotencyKey = command.idempotencyKey → other ≠ command →
      ∃ res, Call.exec different at₂ later = (.ok (.pointCommand res), later) ∧
        res.success = false) ∧
    (∀ msg at₂, msg.eventId.text = command.idempotencyKey →
      ∃ err, (Call.processTicketPurchase msg).exec at₂ later = (.error err, later)) ∧
    (∀ event achievement at₂, ReachesMarker event achievement command.idempotencyKey →
      ∃ err, (Call.processAchievement event achievement).exec at₂ later = (.error err, later)) ∧
    ∀ refused at₂ x, Call.isCommand refused = true →
      (∀ res, ¬Succeeds (refused.exec at₂ x).1 res) → (refused.exec at₂ x).2 = x := by
  have hkey := exec_key hc hs
  obtain ⟨b, rfl, hbound⟩ := exec_binds hc hs
  have hlater := binds_keeps hbound acts
  obtain ⟨e, he, hop, -⟩ := hlater
  have ho : e.operation ≠ none := by rw [hop]; exact Option.some_ne_none _
  refine ⟨?same, ?other, ?purchase, ?achievement, fun refused at₂ x => exec_refused⟩
  case same =>
    intro again at₂ ha
    obtain ⟨e', he', hr⟩ := replay_same (binds_keeps hbound acts)
    exact exec_replayed ha hkey he' hr
  case other =>
    intro different at₂ other hd hk hne
    obtain ⟨e', he', hr⟩ := replay_other (binds_keeps hbound acts) hk hne
    exact ⟨_, exec_replayed hd (hk ▸ hkey) he' hr, rfl⟩
  case purchase =>
    intro msg at₂ hk
    exact exec_purchase_bound (by rw [hk, he]) ho
  case achievement =>
    intro event achievement at₂ hreach
    exact exec_achievement_bound hreach hkey he ho

/-- A database whose profiles all hold 200 points. -/
def DB.funded : DB := { DB.empty with profiles := fun _ => some { balance := 200 } }

/-- A deduction of 100 points. -/
def deductHundred : Call := .deductPoints Uuid.nil.text 100 Uuid.nil.text "k"

theorem key_binds_after_removal :
    let later := (deductHundred.exec 0 DB.funded).2.runActs [.removeProfile Uuid.nil]
    deductHundred.exec 1 later = (.ok (.pointCommand (.succeeded 100)), later) :=
  (key_binds DB.funded deductHundred 0 ⟨.DEDUCT, Uuid.nil, Uuid.nil, 100, "k"⟩ (.succeeded 100)
    [.removeProfile Uuid.nil] rfl ⟨rfl, rfl⟩).1 deductHundred 1 rfl

end CinemaLoyalty
