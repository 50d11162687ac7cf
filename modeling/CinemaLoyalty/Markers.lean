import CinemaLoyalty.AchievementOrder
import CinemaLoyalty.Effects
import CinemaLoyalty.PurchaseAwards

/-! @svc Markers | layer:property | source:src/loyalty/loyalty.service.ts (processTicketPurchase), src/achievements/processors/achievements.processor.ts (processAchievement)

    Who writes which row of `processed_events`. Point commands write theirs with an operation; the
    rows without one are markers, of a purchase under the id of its event and of the worker under the
    ids of an event and an achievement. The two kinds of keys never meet. -/

namespace CinemaLoyalty
open Txn

section markers
variable {db db' x : DB} {now : Instant} {e : ProcessedEvent} {k : String}

/-- The markers a call can write. -/
def Call.Marks (k : String) : Call → Prop
  | .processTicketPurchase msg => k = msg.eventId.text
  | .processAchievement _ achievement => ∃ eventId, k = uniqueProcessId eventId achievement
  | _ => False

/-- An entry with an operation or under another key is not the marker of `k`. -/
theorem event_marks {r : ProcessedEvent} (h : (x.apply (.event r)).processedEvents k = some e)
    (ho : e.operation = none) :
    x.processedEvents k = some e ∨ r.operation = none ∧ k = r.eventId := by
  rw [processedEvents_event] at h
  split at h
  · rename_i hk
    cases hx : x.processedEvents k with
    | some e' => exact .inl (by rwa [hx, Option.some_or] at h)
    | none =>
      rw [hx, Option.none_or, Option.some.injEq] at h
      subst h
      exact .inr ⟨ho, hk⟩
  · exact .inl h

/-- The worker's transaction writes no marker but its own. -/
theorem progress_marks {eventId : String} {userId : Uuid} {achievement : Achievement} {target : ℤ}
    (h : ProgressOutcome db eventId userId achievement target now db')
    (he : db'.processedEvents k = some e) (ho : e.operation = none) :
    db.processedEvents k = some e ∨ k = uniqueProcessId eventId achievement := by
  have hmarked : ∀ {y : DB},
      y.processedEvents = (db.marked userId (uniqueProcessId eventId achievement)).processedEvents →
      y.processedEvents k = some e → db.processedEvents k = some e ∨
        k = uniqueProcessId eventId achievement := by
    intro y hy hmark
    rw [hy] at hmark
    rcases event_marks hmark ho with hold | ⟨-, hk⟩
    · exact .inl (by rwa [ensureProfile_processedEvents] at hold)
    · exact .inr hk
  cases h with
  | duplicate _ _ => exact .inl (by rwa [ensureProfile_processedEvents] at he)
  | swallowed _ _ _ => exact hmarked rfl he
  | advanced _ _ _ => exact hmarked (by simp) he
  | unlocked _ _ _ _ => exact hmarked (by simp [DB.unlocked]) he
  | rewarded _ _ _ _ => exact hmarked (by simp [DB.unlocked, DB.rewarded, DB.post]) he

/-- A marker after a call was there before, or is one of the call's. -/
theorem effect_marks {c : Call} (h : Effect now db c db') (he : db'.processedEvents k = some e)
    (ho : e.operation = none) : db.processedEvents k = some e ∨ c.Marks k := by
  cases h with
  | still _ => exact .inl he
  | @deducted userId orderId key amount command p _ _ _ =>
    rcases event_marks (x := db) (r := command.record (p.balance - command.amount))
      (by simpa [DB.deducted] using he) ho with hold | ⟨hcommand, -⟩
    · exact .inl hold
    · simp [PointCommand.record] at hcommand
  | @refunded userId orderId key amount command p debit _ _ _ =>
    rcases event_marks (x := db) (r := command.record (p.balance - debit.points))
      (by simpa [DB.refunded] using he) ho with hold | ⟨hcommand, -⟩
    · exact .inl hold
    · simp [PointCommand.record] at hcommand
  | purchaseSeen _ _ => exact .inl (by rwa [ensureProfile_processedEvents] at he)
  | @purchased msg n rows _ _ _ =>
    have hcredited : ∀ t, (db.credited msg n t now).processedEvents = db.processedEvents := by
      intro t
      unfold DB.credited
      simp only
      split <;> simp [DB.post]
    rw [withIntents_processedEvents] at he
    unfold DB.purchased at he
    simp only [announced_processedEvents] at he
    rcases event_marks he ho with hold | ⟨-, hk⟩
    · exact .inl (by rwa [hcredited] at hold)
    · exact .inr hk
  | birthdaySet h => cases h <;> exact .inl (by simpa [DB.birthdaySet, DB.birthdayGranted] using he)
  | birthdayGranted h => cases h <;> exact .inl (by simpa [DB.birthdayGranted] using he)
  | adjusted => exact .inl (by simpa [DB.adjusted, DB.post] using he)
  | vipGranted => exact .inl (by simpa [DB.vipGranted, DB.post] using he)
  | progressed h =>
    rcases progress_marks h he ho with hold | hk
    · exact .inl hold
    · exact .inr ⟨_, hk⟩
  | expired _ => exact .inl (by simpa [DB.post] using he)
  | annualReset _ => exact .inl (by simpa using he)
  | goldReset _ _ => exact .inl (by simpa using he)
  | reserved _ _ _ _ _ => exact .inl (by simpa [DB.reserved] using he)
  | rolledBack _ _ _ =>
    unfold DB.rolledBack at he
    simp only at he
    split at he <;> exact .inl (by simpa using he)

theorem op_marks {op : Op} (he : (op.exec db).processedEvents k = some e) (ho : e.operation = none) :
    db.processedEvents k = some e ∨ ∃ c now, op = .call c now ∧ c.Marks k := by
  have heff := op_effect op db
  generalize op.exec db = x at he heff
  cases heff with
  | @call c now db' h =>
    rcases effect_marks h he ho with hold | hmarks
    · exact .inl hold
    · exact .inr ⟨c, now, rfl, hmarks⟩
  | ensured u => exact .inl (by rwa [ensureProfile_processedEvents] at he)
  | defined => exact .inl he

/-- No marker of the worker is the text of a uuid. -/
theorem processId_not_uuid (t : UuidText) (eventId : String) (a : Achievement) :
    t.text ≠ uniqueProcessId eventId a := by
  intro heq
  have hlength := congrArg (fun s => s.toList.length) heq
  simp only [uniqueProcessId, String.toList_append, List.length_append, uuidText_length, uuid_length]
    at hlength
  have hdash : "_".toList.length = 1 := rfl
  omega

end markers

end CinemaLoyalty
