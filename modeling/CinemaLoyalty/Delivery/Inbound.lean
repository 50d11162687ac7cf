import CinemaLoyalty.Delivery.Consumers
import CinemaLoyalty.Purchases

/-! @svc DeliveryInbound | layer:system | source:src/loyalty/consumers, src/loyalty/loyalty.service.ts (processTicketPurchase, processUserDateOfBirthSet)

    From the queue to the books: the calls of `handle` and the database their `work` writes to, beside
    everything else that writes to it. Copies are redelivered, processes die, answers are lost and
    commits come late; still a purchase is committed at most once, and a copy that is acknowledged
    without quarantine has its purchase among the committed ones. -/

namespace CinemaLoyalty
open Transition Txn

/-- The deliveries, and the database with the purchases committed so far. -/
structure Inbound (Copy : Type) where
  delivery : State Copy
  history : History

/-- The call of a message. -/
def Call.delivered : Call → Bool
  | .processTicketPurchase _ | .processUserDateOfBirthSet _ _ _ => true
  | _ => false

/-- An operation that no message brings. -/
def Op.direct : Op → Bool
  | .call c _ => !c.delivered
  | _ => true

/-- What `work` can throw: the refusal of the payload if there is one, anything otherwise. -/
def Thrown.possible (work : Except TxError Call) : Thrown → Bool
  | .permanentMessage code =>
    match work with
    | .error (.permanent code' _) => code = code'
    | _ => true
  | _ =>
    match work with
    | .error (.permanent _ _) => false
    | _ => true

section
variable {Copy : Type} [DecidableEq Copy] (K : Consumers Copy)

/-- What happens: a delivery goes on, a transaction that commits then reading its clock, or an
    operation comes from elsewhere. -/
inductive InboundAction (Copy : Type)
  | deliver (a : Action Copy) (now : Instant)
  | operate (op : Op)

/-- The commit of a delivery, with the transaction of its call. -/
def Inbound.commit (s : Inbound Copy) (c : Copy) (t : Turn) (now : Instant) : Option (Inbound Copy) :=
  match K.work c with
  | .ok call =>
    if (call.exec now s.history.db).1.isOk then
      (step K.toDeployment (.turn c t) s.delivery).map (⟨·, s.history.step (.call call now)⟩)
    else none
  | .error _ => none

/-- A step; `work` returns only after its commit. -/
def Inbound.step : InboundAction Copy → Inbound Copy → Option (Inbound Copy)
  | .deliver (.turn c .commit) now, s => s.commit K c .commit now
  | .deliver (.turn c .commitLate) now, s => s.commit K c .commitLate now
  | .deliver (.turn c (.finish none)) _, s =>
    match (s.delivery.handles c).phase with
    | .working _ true =>
      (CinemaLoyalty.step K.toDeployment (.turn c (.finish none)) s.delivery).map (⟨·, s.history⟩)
    | _ => none
  | .deliver (.turn c (.finish (some thrown))) _, s =>
    if thrown.possible (K.work c) then
      (CinemaLoyalty.step K.toDeployment (.turn c (.finish (some thrown))) s.delivery).map
        (⟨·, s.history⟩)
    else none
  | .deliver a _, s => (CinemaLoyalty.step K.toDeployment a s.delivery).map (⟨·, s.history⟩)
  | .operate op, s => if op.direct then some ⟨s.delivery, s.history.step op⟩ else none

/-- Nothing has been handed over, and the database is empty. -/
def Consumers.system : System (Inbound Copy) (InboundAction Copy) where
  first := ⟨K.toDeployment.machine.first, .start⟩
  step := Inbound.step K

/-- An action in which no business transaction commits and no `work` ends. -/
def Action.Neutral (a : Action Copy) : Prop :=
  ∀ c, a ≠ .turn c .commit ∧ a ≠ .turn c .commitLate ∧ ∀ thrown, a ≠ .turn c (.finish thrown)

/-- A step, by what it changes. -/
inductive Inbound.Stepped (s : Inbound Copy) : Inbound Copy → Prop
  | goes {a : Action Copy} {d : State Copy} (ha : a.Neutral)
      (h : CinemaLoyalty.step K.toDeployment a s.delivery = some d) : Stepped s ⟨d, s.history⟩
  | commits {c : Copy} {t : Turn} {d : State Copy} {call : Call} {now : Instant}
      (ht : t = .commit ∨ t = .commitLate)
      (h : CinemaLoyalty.step K.toDeployment (.turn c t) s.delivery = some d)
      (hcall : K.work c = .ok call) (hok : (call.exec now s.history.db).1.isOk = true) :
      Stepped s ⟨d, s.history.step (.call call now)⟩
  | returns {c : Copy} {claimed : Claimed} {d : State Copy}
      (hp : (s.delivery.handles c).phase = .working claimed true)
      (h : CinemaLoyalty.step K.toDeployment (.turn c (.finish none)) s.delivery = some d) :
      Stepped s ⟨d, s.history⟩
  | throws {c : Copy} {thrown : Thrown} {d : State Copy}
      (hr : thrown.possible (K.work c) = true)
      (h : CinemaLoyalty.step K.toDeployment (.turn c (.finish (some thrown))) s.delivery = some d) :
      Stepped s ⟨d, s.history⟩
  | operates {op : Op} (hop : op.direct = true) : Stepped s ⟨s.delivery, s.history.step op⟩

variable {K} {s s' : Inbound Copy} {c : Copy}

theorem commit_cases {t : Turn} {now : Instant} (ht : t = .commit ∨ t = .commitLate)
    (h : s.commit K c t now = some s') : s.Stepped K s' := by
  unfold Inbound.commit at h
  split at h
  · rename_i call hcall
    simp only [Option.ite_none_right_eq_some, Option.map_eq_some_iff] at h
    obtain ⟨hok, d, hd, rfl⟩ := h
    exact .commits ht hd hcall hok
  · cases h

theorem inbound_cases {a : InboundAction Copy} (h : Inbound.step K a s = some s') :
    s.Stepped K s' := by
  unfold Inbound.step at h
  split at h
  · exact commit_cases (.inl rfl) h
  · exact commit_cases (.inr rfl) h
  · split at h
    · rename_i hp
      obtain ⟨d, hd, rfl⟩ := Option.map_eq_some_iff.1 h
      exact .returns hp hd
    · cases h
  · simp only [Option.ite_none_right_eq_some, Option.map_eq_some_iff] at h
    obtain ⟨hr, d, hd, rfl⟩ := h
    exact .throws hr hd
  · rename_i a now h₁ h₂ h₃ h₄
    obtain ⟨d, hd, rfl⟩ := Option.map_eq_some_iff.1 h
    refine .goes (fun c => ⟨h₁ c, h₂ c, fun thrown => ?_⟩) hd
    cases thrown with
    | none => exact h₃ c
    | some thrown => exact h₄ c thrown
  · simp only [Option.ite_none_right_eq_some, Option.some.injEq] at h
    obtain ⟨hop, rfl⟩ := h
    exact .operates hop

theorem reached_step {D : Deployment Copy} {a : Action Copy} {d d' : State Copy}
    (hr : D.machine.Reached d) (h : step D a d = some d') : D.machine.Reached d' :=
  hr.tail ⟨a, trivial, h⟩

/-- The deliveries are those of the machine. -/
theorem delivery_reached (h : K.system.Reached s) : K.toDeployment.machine.Reached s.delivery := by
  have hfirst : K.toDeployment.machine.Reached K.toDeployment.machine.first := .refl
  refine h.invariant (I := fun s => K.toDeployment.machine.Reached s.delivery) hfirst ?_
  rintro a s s' hstep ih
  cases inbound_cases hstep with
  | goes _ h => exact reached_step ih h
  | commits _ h _ _ => exact reached_step ih h
  | returns _ h => exact reached_step ih h
  | throws _ h => exact reached_step ih h
  | operates _ => exact ih

end

section turns
variable {Copy : Type} {c : Copy} {h h' : Handle} {events : List (Event Copy)}

/-- The events by which a delivery speaks of its business transaction. -/
def Event.Business : Event Copy → Prop
  | .committed _ | .succeeded _ => True
  | _ => False

/-- Nothing is said of a business transaction, and no phase says that one has committed which did
    not say so before. -/
def Silent (h h' : Handle) (events : List (Event Copy)) : Prop :=
  (∀ e ∈ events, ¬e.Business) ∧
    ∀ claimed, h'.phase = .working claimed true → h.phase = .working claimed true

theorem silent_loop {f : Handle} : (∀ e ∈ (f.loop c).2, ¬e.Business) ∧
    ∀ claimed, (f.loop c).1.phase ≠ .working claimed true := by
  unfold Handle.loop Handle.leave
  split
  · simp [Event.Business]
  · split <;> simp

theorem silent_caught {f : Handle} : (∀ e ∈ (f.caught c).2, ¬e.Business) ∧
    ∀ claimed, (f.caught c).1.phase ≠ .working claimed true := by
  unfold Handle.caught Handle.leave
  split <;> simp [Event.Business]

theorem silent_ack {f : Handle} {quarantined : Bool} :
    (∀ e ∈ (f.ack c quarantined).2, ¬e.Business) ∧
      ∀ claimed, (f.ack c quarantined).1.phase ≠ .working claimed true := by
  unfold Handle.ack Handle.leave
  split <;> simp [Event.Business]

theorem silent_record {f : Handle} {claimed : Claimed} {failure : Option Failure} :
    (∀ e ∈ (f.record c claimed failure).2, ¬e.Business) ∧
      ∀ claimed', (f.record c claimed failure).1.phase ≠ .working claimed' true := by
  unfold Handle.record Handle.leave
  split <;> simp [Event.Business]

theorem silent_inspect {f : Handle} {state : DeliveryState} :
    (∀ e ∈ (f.inspect c state).2, ¬e.Business) ∧
      ∀ claimed, (f.inspect c state).1.phase ≠ .working claimed true := by
  unfold Handle.inspect
  split
  · exact silent_ack
  split
  · simp
  split <;> simp

theorem silent_resume {r : Handle × List (Event Copy)} (hr : h.resume c = some r) :
    Silent h r.1 r.2 := by
  unfold Handle.resume at hr
  split at hr <;> cases hr
  · simp [Silent]
  · exact ⟨silent_caught.1, fun claimed hp => absurd hp (silent_caught.2 claimed)⟩
  · exact ⟨silent_inspect.1, fun claimed hp => absurd hp (silent_inspect.2 claimed)⟩
  · rename_i saved _
    cases saved
    · exact ⟨silent_loop.1, fun claimed hp => absurd hp (silent_loop.2 claimed)⟩
    · exact ⟨silent_ack.1, fun claimed hp => absurd hp (silent_ack.2 claimed)⟩
  · exact ⟨silent_loop.1, fun claimed hp => absurd hp (silent_loop.2 claimed)⟩
  · exact ⟨silent_loop.1, fun claimed hp => absurd hp (silent_loop.2 claimed)⟩
  · simp [Silent, Event.Business]
  · exact ⟨silent_loop.1, fun claimed hp => absurd hp (silent_loop.2 claimed)⟩
  · exact ⟨silent_ack.1, fun claimed hp => absurd hp (silent_ack.2 claimed)⟩
  · exact ⟨silent_record.1, fun claimed hp => absurd hp (silent_record.2 claimed)⟩

theorem silent_lose {r : Handle × List (Event Copy)} (hr : h.lose c = some r) :
    Silent h r.1 r.2 := by
  unfold Handle.lose at hr
  split at hr <;> cases hr
  iterate 4 exact ⟨silent_caught.1, fun claimed hp => absurd hp (silent_caught.2 claimed)⟩
  simp [Silent]

theorem silent_crash {r : Handle × List (Event Copy)} (hr : h.crash = some r) :
    Silent h r.1 r.2 := by
  unfold Handle.crash at hr
  split at hr <;> cases hr <;> simp [Silent]

theorem silent_hand {r : Handle × List (Event Copy)} (hr : h.hand c = some r) :
    Silent h r.1 r.2 := by
  unfold Handle.hand at hr
  split at hr <;> cases hr
  refine ⟨fun e he => ?_, fun claimed hp => absurd hp (silent_loop.2 claimed)⟩
  rcases List.mem_append.1 he with he | he
  · rw [List.mem_singleton.1 he]
    exact id
  · exact silent_loop.1 e he

/-- A turn that is no commit and no end of `work` says nothing of business. -/
theorem silent_turn {operation : Operation} {t : Turn} {r : Handle × List (Event Copy)}
    (ht : t ≠ .commit ∧ t ≠ .commitLate ∧ ∀ thrown, t ≠ .finish thrown)
    (hr : h.turn operation c t = some r) : Silent h r.1 r.2 := by
  cases t with
  | hand => exact silent_hand hr
  | signal =>
    cases hr
    exact ⟨by simp [Handle.signal, Event.Business], fun _ => id⟩
  | resume => exact silent_resume hr
  | lose => exact silent_lose hr
  | crash => exact silent_crash hr
  | commit => exact absurd rfl ht.1
  | commitLate => exact absurd rfl ht.2.1
  | finish thrown => exact absurd rfl (ht.2.2 thrown)

end turns

section steps
variable {Copy : Type} {D : Deployment Copy} {s d : State Copy} {c : Copy}

theorem answer_working {p : Phase} {token : ℕ} {row : Option InboundDelivery} {claimed : Claimed}
    (h : p.answer token row = .working claimed true) : p = .working claimed true := by
  cases p <;> simp_all [Phase.answer]

theorem execute_silent (s : State Copy) (id : String) (q : Statement) (received : Timestamp) :
    ∃ events, (s.execute id q received).log = s.log ++ events ∧ ∀ e ∈ events, ¬e.Business := by
  rcases execute_cases s id q received with ⟨_, heq⟩ | ⟨row, _, heq⟩ <;> rw [heq]
  · exact ⟨[], (List.append_nil _).symm, fun _ he => absurd he List.not_mem_nil⟩
  · exact ⟨_, rfl, by simp [Event.Business]⟩

variable [DecidableEq Copy]

theorem step_turn {t : Turn} (h : step D (.turn c t) s = some d) : ∃ r,
    (s.handles c).turn (D.operation c) c t = some r ∧ d.log = s.log ++ r.2 ∧ d.handles c = r.1 ∧
      ∀ c', c' ≠ c → d.handles c' = s.handles c' := by
  simp only [step, Option.map_eq_some_iff] at h
  obtain ⟨r, ht, rfl⟩ := h
  exact ⟨r, ht, rfl, put_self, fun c' hc => put_other hc⟩

/-- A neutral action says nothing of business. -/
theorem step_silent {a : Action Copy} (ha : a.Neutral) (h : step D a s = some d) :
    (∃ events, d.log = s.log ++ events ∧ ∀ e ∈ events, ¬e.Business) ∧
      ∀ c claimed, (d.handles c).phase = .working claimed true →
        (s.handles c).phase = .working claimed true := by
  cases a with
  | tick now =>
    simp only [step, Option.ite_none_right_eq_some, Option.some.injEq] at h
    obtain ⟨-, rfl⟩ := h
    exact ⟨⟨[], (List.append_nil _).symm, fun _ he => absurd he List.not_mem_nil⟩, fun _ _ => id⟩
  | turn c t =>
    obtain ⟨r, ht, hlog, hown, hothers⟩ := step_turn h
    have hturn : t ≠ .commit ∧ t ≠ .commitLate ∧ ∀ thrown, t ≠ .finish thrown := by
      obtain ⟨h₁, h₂, h₃⟩ := ha c
      exact ⟨fun heq => h₁ (heq ▸ rfl), fun heq => h₂ (heq ▸ rfl), fun x heq => h₃ x (heq ▸ rfl)⟩
    obtain ⟨hsilent, hphase⟩ := silent_turn hturn ht
    refine ⟨⟨r.2, hlog, hsilent⟩, fun c' claimed hp => ?_⟩
    by_cases hc : c' = c
    · subst hc
      exact hphase claimed (hown ▸ hp)
    · rwa [hothers c' hc] at hp
  | read c received =>
    simp only [step] at h
    split at h
    · simp only [Option.ite_none_right_eq_some, Option.some.injEq] at h
      obtain ⟨-, rfl⟩ := h
      refine ⟨⟨[], (List.append_nil _).symm, fun _ he => absurd he List.not_mem_nil⟩,
        fun c' claimed hp => ?_⟩
      by_cases hc : c' = c
      · subst hc
        rw [put_self] at hp
        cases hp
      · rwa [put_other hc] at hp
    · cases h
  | run c received =>
    simp only [step] at h
    split at h
    · rename_i q _
      simp only [Option.ite_none_right_eq_some, Option.some.injEq] at h
      obtain ⟨-, rfl⟩ := h
      refine ⟨execute_silent s (D.deliveryId c) q received, fun c' claimed hp => ?_⟩
      by_cases hc : c' = c
      · subst hc
        rw [put_self] at hp
        exact answer_working hp
      · rwa [put_other hc, execute_handles] at hp
    · cases h
  | orphan i received =>
    simp only [step] at h
    split at h
    · rename_i id q _
      simp only [Option.ite_none_right_eq_some, Option.some.injEq] at h
      obtain ⟨-, rfl⟩ := h
      refine ⟨execute_silent s id q received, fun c' claimed hp => ?_⟩
      simpa using hp
    · cases h
  | replay id replayId =>
    simp only [step, Option.some.injEq] at h
    subst h
    refine ⟨execute_silent s id (.replay replayId) s.now, fun c' claimed hp => ?_⟩
    rwa [execute_handles] at hp

/-- A commit says so; a call whose `work` goes on is its own or was there before. -/
theorem step_commit {t : Turn} (ht : t = .commit ∨ t = .commitLate)
    (h : step D (.turn c t) s = some d) : d.log = s.log ++ [.committed c] ∧
      ∀ c' claimed, (d.handles c').phase = .working claimed true →
        c' = c ∨ (s.handles c').phase = .working claimed true := by
  obtain ⟨r, hr, hlog, -, hothers⟩ := step_turn h
  have hsaid : r.2 = [.committed c] := by
    rcases ht with rfl | rfl
    · simp only [Handle.turn, Handle.commit] at hr
      split at hr
      · cases hr
        rfl
      · cases hr
    · simp only [Handle.turn, Handle.commitLate, Option.ite_none_right_eq_some, Option.some.injEq] at hr
      obtain ⟨-, rfl⟩ := hr
      rfl
  refine ⟨hsaid ▸ hlog, fun c' claimed hp => ?_⟩
  by_cases hc : c' = c
  · exact .inl hc
  · exact .inr (hothers c' hc ▸ hp)

/-- The end of `work` says at most that it succeeded, and no call whose `work` goes on is new. -/
theorem step_finish {thrown : Option Thrown} (h : step D (.turn c (.finish thrown)) s = some d) :
    ∃ events, d.log = s.log ++ events ∧ (∀ e ∈ events, e.Business → thrown = none ∧ e = .succeeded c) ∧
      ∀ c' claimed, (d.handles c').phase = .working claimed true →
        (s.handles c').phase = .working claimed true := by
  obtain ⟨r, hr, hlog, hown, hothers⟩ := step_turn h
  have hfinish : (∀ e ∈ r.2, e.Business → thrown = none ∧ e = .succeeded c) ∧
      ∀ claimed, r.1.phase ≠ .working claimed true := by
    simp only [Handle.turn, Handle.finish] at hr
    split at hr
    · split at hr
      · cases hr
      · cases hr
        refine ⟨fun e he hb => ?_, silent_record.2⟩
        rcases List.mem_append.1 he with he | he
        · exact ⟨rfl, List.mem_singleton.1 he⟩
        · exact absurd hb (silent_record.1 e he)
    · cases hr
      exact ⟨fun e he hb => absurd hb (silent_record.1 e he), silent_record.2⟩
    · cases hr
  refine ⟨r.2, hlog, hfinish.1, fun c' claimed hp => ?_⟩
  by_cases hc : c' = c
  · subst hc
    exact absurd (hown ▸ hp) (hfinish.2 claimed)
  · rwa [hothers c' hc] at hp

end steps

end CinemaLoyalty
