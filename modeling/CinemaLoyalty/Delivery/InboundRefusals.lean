import CinemaLoyalty.Delivery.InboundPurchases

/-! @svc InboundRefusals | layer:property | source:src/loyalty/consumers

    A message whose payload is refused. Its `work` throws before it calls the service, so nothing of
    it is committed and no copy of it is acknowledged as done. The failure is permanent: the first
    one recorded asks for quarantine, under the code of the payload, and from then on the row is not
    claimed again unless an operator resets it. -/

namespace CinemaLoyalty
open Transition

/-! ### Labels -/

/-- The failure a call is about to record. -/
def Phase.failure? : Phase → Option Failure
  | .recording _ failure _ | .backingOff _ failure => failure
  | _ => none

/-- A failure that is recorded under the label asks for quarantine. -/
def Statement.Labelled (label : String) : Statement → Prop
  | .recordFailure _ code terminal _ => code = label ∧ terminal = true
  | _ => True

/-- A row with an error has the label, or ran out of attempts before one was recorded; it is to be
    quarantined. -/
structure InboundDelivery.Labelled (label : String) (row : InboundDelivery) : Prop where
  code : ∀ code ∈ row.errorCode, code = label ∨ code = "DELIVERY_ATTEMPTS_EXHAUSTED"
  required : row.errorCode.isSome = true → row.quarantineRequired = true

section labels
variable {label : String} {row row' : InboundDelivery} {q : Statement} {token : ℕ}
  {received now : Timestamp}

theorem labelled_clean (h : row.errorCode = none) : row.Labelled label where
  code _ hcode := by
    rw [h] at hcode
    cases hcode
  required hcode := by
    rw [h] at hcode
    cases hcode

/-- Labelled statements leave labelled rows. -/
theorem write_labelled {before : Option InboundDelivery} (hq : q.Labelled label)
    (hrow : ∀ r ∈ before, r.Labelled label) (hw : q.write token received now before = some row') :
    row'.Labelled label := by
  cases before with
  | none =>
    cases q <;> cases hw
    exact labelled_clean rfl
  | some row =>
    obtain ⟨hcode, hrequired⟩ := hrow row rfl
    cases q with
    | insert operation maxAttempts =>
      simp only [Statement.write, InboundDelivery.restart, Option.ite_none_right_eq_some,
        Option.some.injEq] at hw
      obtain ⟨-, rfl⟩ := hw
      exact ⟨hcode, hrequired⟩
    | claim leaseMs =>
      simp only [Statement.write, Option.bind_some, InboundDelivery.claim,
        Option.ite_none_right_eq_some, Option.some.injEq] at hw
      obtain ⟨-, rfl⟩ := hw
      exact ⟨hcode, hrequired⟩
    | recordFailure owner code terminal waitMs =>
      simp only [Statement.write, Option.bind_some, InboundDelivery.recordFailure,
        Option.ite_none_right_eq_some, Option.some.injEq] at hw
      obtain ⟨-, rfl⟩ := hw
      obtain ⟨rfl, rfl⟩ := hq
      refine ⟨?_, fun _ => rfl⟩
      rintro _ ⟨⟩
      exact .inl rfl
    | recordCompletion owner =>
      simp only [Statement.write, Option.bind_some, InboundDelivery.recordCompletion,
        Option.ite_none_right_eq_some, Option.some.injEq] at hw
      obtain ⟨-, rfl⟩ := hw
      exact ⟨hcode, hrequired⟩
    | quarantine body =>
      simp only [Statement.write, Option.bind_some, InboundDelivery.quarantine,
        Option.ite_none_right_eq_some, Option.some.injEq] at hw
      obtain ⟨-, rfl⟩ := hw
      refine ⟨?_, fun _ => rfl⟩
      rintro _ ⟨⟩
      cases herror : row.errorCode with
      | none => exact .inr rfl
      | some code => exact hcode code herror
    | replay replayId =>
      simp only [Statement.write, Option.bind_some, InboundDelivery.replay,
        Option.ite_none_right_eq_some, Option.some.injEq] at hw
      obtain ⟨-, rfl⟩ := hw
      exact labelled_clean rfl

/-- A row with an error is not claimed. -/
theorem InboundDelivery.Labelled.unclaimed (h : row.Labelled label)
    (herror : row.errorCode.isSome = true) (leaseMs : ℤ) :
    row.claim leaseMs token received now = none := by
  unfold InboundDelivery.claim
  rw [if_neg]
  rintro ⟨-, hrequired, -⟩
  rw [h.required herror] at hrequired
  cases hrequired

end labels

/-! ### Turns -/

section turns
variable {Copy : Type} {operation : Operation} {c : Copy} {h : Handle}

theorem loop_failure : (h.loop c).1.phase.failure? = none := by
  unfold Handle.loop Handle.leave
  split
  · rfl
  · split <;> rfl

theorem caught_failure : (h.caught c).1.phase.failure? = none := by
  unfold Handle.caught Handle.leave
  split <;> rfl

theorem ack_failure {quarantined : Bool} : (h.ack c quarantined).1.phase.failure? = none := rfl

theorem record_failure {claimed : Claimed} {failure : Option Failure} {f : Failure}
    (hf : (h.record c claimed failure).1.phase.failure? = some f) : failure = some f := by
  unfold Handle.record Handle.leave at hf
  split at hf
  · cases hf
  · exact hf

theorem inspect_failure {state : DeliveryState} :
    (h.inspect c state).1.phase.failure? = none := by
  unfold Handle.inspect
  split
  · exact ack_failure
  split
  · rfl
  split <;> rfl

/-- A call records the failure it was about to record, or what its `work` has just thrown. -/
theorem turn_failure {t : Turn} {r : Handle × List (Event Copy)} {f : Failure}
    (hr : h.turn operation c t = some r) (hf : r.1.phase.failure? = some f) :
    h.phase.failure? = some f ∨
      ∃ thrown, t = .finish (some thrown) ∧ classifyMessageFailure thrown = f := by
  cases t with
  | hand =>
    simp only [Handle.turn, Handle.hand] at hr
    split at hr <;> cases hr
    rw [Prod.map_fst, id, loop_failure] at hf
    cases hf
  | signal =>
    cases hr
    exact .inl hf
  | resume =>
    simp only [Handle.turn, Handle.resume] at hr
    split at hr <;> cases hr
    · cases hf
    · rw [caught_failure] at hf
      cases hf
    · rw [inspect_failure] at hf
      cases hf
    · rename_i saved _
      cases saved
      · rw [if_neg Bool.false_ne_true, loop_failure] at hf
        cases hf
      · cases hf
    · rw [loop_failure] at hf
      cases hf
    · rw [loop_failure] at hf
      cases hf
    · cases hf
    · rw [loop_failure] at hf
      cases hf
    · cases hf
    · rename_i hp
      rw [hp]
      exact .inl (record_failure hf)
  | lose =>
    simp only [Handle.turn, Handle.lose] at hr
    split at hr <;> cases hr
    iterate 4
      rw [caught_failure] at hf
      cases hf
    rename_i hp
    rw [hp]
    exact .inl hf
  | crash =>
    simp only [Handle.turn, Handle.crash] at hr
    split at hr <;> cases hr <;> cases hf
  | commit =>
    simp only [Handle.turn, Handle.commit] at hr
    split at hr <;> cases hr
    cases hf
  | commitLate =>
    simp only [Handle.turn, Handle.commitLate, Option.ite_none_right_eq_some, Option.some.injEq] at hr
    obtain ⟨-, rfl⟩ := hr
    exact .inl hf
  | finish thrown =>
    simp only [Handle.turn, Handle.finish] at hr
    split at hr
    · split at hr
      · cases hr
      · cases hr
        cases record_failure hf
    · rename_i error _
      cases hr
      exact .inr ⟨error, rfl, Option.some.inj (record_failure hf)⟩
    · cases hr

end turns

/-! ### Runs -/

section states
variable {Copy : Type} {D : Deployment Copy} {d d' : State Copy} {id label : String} {c : Copy}

/-- Whatever is recorded or about to be recorded of a row is the label. -/
structure Labelled (D : Deployment Copy) (id label : String) (d : State Copy) : Prop where
  calls : ∀ c, D.deliveryId c = id → ∀ f, (d.handles c).phase.failure? = some f →
    f = ⟨.permanent, label⟩
  orphans : ∀ o ∈ d.orphans, o.1 = id → o.2.Labelled label
  rows : ∀ row ∈ d.rows id, row.Labelled label

/-- A statement that a call waits for is labelled. -/
theorem pending_labelled {p : Phase} {q : Statement} (hq : D.pending c p = some q)
    (hp : ∀ f, p.failure? = some f → f = ⟨.permanent, label⟩) : q.Labelled label := by
  unfold Deployment.pending at hq
  split at hq <;> cases hq
  · trivial
  · trivial
  · trivial
  · rw [hp _ rfl]
    exact ⟨rfl, rfl⟩
  · trivial

theorem State.InFlight.labelled {q : Statement} (hq : d.InFlight D id q) (h : Labelled D id label d) :
    q.Labelled label := by
  rcases hq with ⟨c, hq, hid⟩ | hq | ⟨_, rfl⟩
  · exact pending_labelled hq (h.calls c hid.symm)
  · exact h.orphans _ hq rfl
  · trivial

theorem labelled_execute {id' : String} {q : Statement} (received : Timestamp)
    (h : Labelled D id label d) (hq : d.InFlight D id' q) :
    Labelled D id label (d.execute id' q received) := by
  rcases execute_cases d id' q received with ⟨_, heq⟩ | ⟨row', hw, heq⟩ <;> rw [heq]
  · exact h
  refine ⟨h.calls, h.orphans, fun row hrow => ?_⟩
  by_cases hid : id = id'
  · subst hid
    obtain rfl : row' = row := by simpa using hrow
    exact write_labelled (hq.labelled h) h.rows hw
  · exact h.rows row (by simpa [Function.update_of_ne hid] using hrow)

theorem answer_failure {p : Phase} {token : ℕ} {row : Option InboundDelivery} :
    (p.answer token row).failure? = p.failure? := by
  cases p <;> rfl

variable [DecidableEq Copy]

/-- A step keeps the label if what `work` throws for the row is the label. -/
theorem labelled_step {a : Action Copy} (h : step D a d = some d') (hl : Labelled D id label d)
    (ha : ∀ c thrown, a = .turn c (.finish (some thrown)) → D.deliveryId c = id →
      classifyMessageFailure thrown = ⟨.permanent, label⟩) : Labelled D id label d' := by
  cases a with
  | tick now =>
    simp only [step, Option.ite_none_right_eq_some, Option.some.injEq] at h
    obtain ⟨-, rfl⟩ := h
    exact ⟨hl.calls, hl.orphans, hl.rows⟩
  | turn c t =>
    simp only [step, Option.map_eq_some_iff] at h
    obtain ⟨r, ht, rfl⟩ := h
    refine ⟨fun c' hid f hf => ?_, fun o ho hid => ?_, hl.rows⟩
    · by_cases hc : c' = c
      · subst hc
        rw [put_self] at hf
        rcases turn_failure ht hf with hold | ⟨thrown, rfl, rfl⟩
        · exact hl.calls c' hid f hold
        · exact ha c' thrown rfl hid
      · rw [put_other hc] at hf
        exact hl.calls c' hid f hf
    · subst hid
      exact (turn_orphans ho).labelled hl
  | read c received =>
    simp only [step] at h
    split at h
    · simp only [Option.ite_none_right_eq_some, Option.some.injEq] at h
      obtain ⟨-, rfl⟩ := h
      refine ⟨fun c' hid f hf => ?_, hl.orphans, hl.rows⟩
      by_cases hc : c' = c
      · subst hc
        rw [put_self] at hf
        cases hf
      · rw [put_other hc] at hf
        exact hl.calls c' hid f hf
    · cases h
  | run c received =>
    simp only [step] at h
    split at h
    · rename_i q hq
      simp only [Option.ite_none_right_eq_some, Option.some.injEq] at h
      obtain ⟨-, rfl⟩ := h
      have hl' := labelled_execute received hl (.inl ⟨c, hq, rfl⟩)
      refine ⟨fun c' hid f hf => ?_, hl'.orphans, hl'.rows⟩
      by_cases hc : c' = c
      · subst hc
        rw [put_self, Handle.answered, answer_failure] at hf
        exact hl.calls c' hid f hf
      · rw [put_other hc] at hf
        exact hl'.calls c' hid f hf
    · cases h
  | orphan i received =>
    simp only [step] at h
    split at h
    · rename_i id' q ho
      simp only [Option.ite_none_right_eq_some, Option.some.injEq] at h
      obtain ⟨-, rfl⟩ := h
      have hl' := labelled_execute received hl (.inr (.inl (List.mem_of_getElem? ho)))
      exact ⟨hl'.calls, fun o hin => hl.orphans o (List.mem_of_mem_eraseIdx hin), hl'.rows⟩
    · cases h
  | replay id' replayId =>
    simp only [step, Option.some.injEq] at h
    subst h
    exact labelled_execute d.now hl (.inr (.inr ⟨replayId, rfl⟩))

theorem labelled_first : Labelled D id label D.machine.first where
  calls _ _ f hf := by
    have hnone : none = some f := hf
    cases hnone
  orphans _ ho _ := absurd ho List.not_mem_nil
  rows row hrow := by
    have hnone : row ∈ (none : Option InboundDelivery) := hrow
    cases hnone

/-- A refused payload throws its refusal. -/
theorem possible_refusal {code : PermanentMessageCode} {message : String} {thrown : Thrown}
    (h : thrown.possible (.error (.permanent code message)) = true) :
    classifyMessageFailure thrown = ⟨.permanent, code.text⟩ := by
  cases thrown with
  | permanentMessage code' =>
    obtain rfl : code' = code := of_decide_eq_true h
    rfl
  | coded _ => cases h
  | other => cases h

variable {K : Consumers Copy} {s s' : Inbound Copy}

theorem labelled_reached {code : PermanentMessageCode} {message : String}
    (hrefused : ∀ c, K.deliveryId c = id → K.work c = .error (.permanent code message))
    (h : K.system.Reached s) : Labelled K.toDeployment id code.text s.delivery := by
  refine h.invariant (I := fun s => Labelled K.toDeployment id code.text s.delivery) labelled_first ?_
  rintro a s s' hstep ih
  cases inbound_cases hstep with
  | goes ha h => exact labelled_step h ih fun c thrown heq => absurd heq ((ha c).2.2 (some thrown))
  | commits ht h _ _ =>
    refine labelled_step h ih fun c thrown heq => ?_
    cases heq
    rcases ht with ht | ht <;> cases ht
  | returns _ h => exact labelled_step h ih fun c thrown heq => nomatch heq
  | @throws c' thrown' d hr h =>
    refine labelled_step h ih fun c thrown heq hid => ?_
    obtain ⟨rfl, ht⟩ := Action.turn.inj heq
    obtain rfl := Option.some.inj (Turn.finish.inj ht)
    rw [hrefused c' hid] at hr
    exact possible_refusal hr
  | operates _ => exact ih

/-- A message whose payload is refused, in every run: nothing of it is committed; a copy of it is
    acknowledged only as quarantined, with its bytes stored; its row bears the code of the refusal or
    none that the consumer gave, and a row with a code is not claimed again before a reset. -/
theorem refused_messages (hfree : K.CollisionFree) (h : K.system.Reached s)
    {code : PermanentMessageCode} {message : String}
    (hwork : K.work c = .error (.permanent code message)) :
    .committed c ∉ s.delivery.log ∧
      (∀ quarantined, .acked c quarantined ∈ s.delivery.log → quarantined = true ∧
        .row (K.deliveryId c) (.quarantined (some (K.content c))) ∈ s.delivery.log) ∧
      ∀ row ∈ s.delivery.rows (K.deliveryId c), row.Labelled code.text ∧
        (row.errorCode.isSome = true → ∀ leaseMs token received now,
          row.claim leaseMs token received now = none) := by
  have hb := booked_reached h
  have hsame : ∀ c', K.deliveryId c' = K.deliveryId c →
      K.work c' = .error (.permanent code message) := by
    intro c' hid
    rw [Consumers.work, hfree c' c hid]
    exact hwork
  have huncommitted : ∀ c', K.deliveryId c' = K.deliveryId c → .committed c' ∉ s.delivery.log := by
    intro c' hid hc
    obtain ⟨call, hcall⟩ := hb.called c' hc
    rw [hsame c' hid] at hcall
    cases hcall
  have hfailed : ¬Succeeded K.toDeployment s.delivery.log (K.deliveryId c) := by
    rintro ⟨c', hid, hdone⟩
    exact huncommitted c' hid (hb.succeeded c' hdone)
  have hl : Labelled K.toDeployment (K.deliveryId c) code.text s.delivery := labelled_reached hsame h
  refine ⟨huncommitted c rfl, fun quarantined hack => ?_, fun row hrow =>
    ⟨hl.rows row hrow, fun herror leaseMs token received now =>
      (hl.rows row hrow).unclaimed herror leaseMs⟩⟩
  have hreached := delivery_reached h
  cases quarantined with
  | false => exact absurd (plain_acks hreached hack) hfailed
  | true =>
    obtain ⟨before, after, heq⟩ := List.append_of_mem hack
    have hrule := ((accounted_reached hreached).grounded before _ after heq).1 c true rfl
    have hmono : ∀ {e : Event Copy}, e ∈ before → e ∈ s.delivery.log := by
      intro e he
      rw [heq]
      exact List.mem_append_left _ he
    rcases hrule.2 with ⟨c', hid, hdone⟩ | ⟨c', hid, hstored⟩
    · exact absurd ⟨c', hid, hmono hdone⟩ hfailed
    · rw [hfree c' c hid] at hstored
      exact ⟨rfl, hmono hstored⟩

/-- A ticket below zero, beside one that is booked. -/
theorem negative_refused : ∃ s : Inbound (Fin 3), s.history.purchases.length = 1 ∧
    .acked 2 true ∈ s.delivery.log ∧ .committed 2 ∉ s.delivery.log ∧
    .row (threeTickets.deliveryId 2) (.quarantined (some refusedBody)) ∈ s.delivery.log := by
  obtain ⟨s, hs, hone, -, hack⟩ := threeTickets_run
  obtain ⟨hno, hstored, -⟩ := refused_messages threeTickets_collisionFree hs threeTickets_refuses
  have hrow := (hstored true hack).2
  rw [threeTickets_content, if_pos rfl] at hrow
  exact ⟨s, hone, hack, hno, hrow⟩

end states

end CinemaLoyalty
