import CinemaLoyalty.Delivery.Acknowledge
import CinemaLoyalty.Service
import Mathlib.Data.Fintype.Basic

/-! @svc DeliverySetter | layer:property | source:src/loyalty/consumers/rmq-delivery.service.ts (handle), src/loyalty/loyalty.service.ts (processUserDateOfBirthSet)

    The date-of-birth setter under redelivery: A, then B, then A again should end with A's date. Both
    copies of A share a row. The second copy reopens the row when it is admitted after the first has
    recorded its completion; when it is admitted before, the record that follows closes the row under
    it, and it is acknowledged without running. The sequence is preserved in every run in which no
    record does that (`setter_order`), and lost in a run in which one does
    (`setter_order_fails`). -/

namespace CinemaLoyalty
open Transition

/-! ### The work of a setter -/

/-- A setter that returns has committed its date; its catch clause never answers for a transaction
    that was rolled back. -/
theorem setter_returns_committed {newDate : String → Option Instant} {userId : UuidText}
    {dateOfBirth : String} {now : Instant} {db db' : DB} {a : Answer}
    (h : (Call.processUserDateOfBirthSet newDate userId dateOfBirth).exec now db = (.ok a, db')) :
    ∃ d, parseUtcLocalDate newDate dateOfBirth = some d ∧
      (db'.profiles userId.value).bind (·.birthdayDate) = some d := by
  rcases exec_cases (Call.processUserDateOfBirthSet newDate userId dateOfBirth) now db with
    ⟨e, hr, he⟩ | ⟨a', db₁, hr, he⟩ <;> rw [h] at he
  · have hwrap : db.run (processUserDateOfBirthSet newDate userId dateOfBirth now) = .error e :=
      run_wrap_error hr
    have hrecover : (Call.processUserDateOfBirthSet newDate userId dateOfBirth).recover e = .ok a :=
      (congrArg Prod.fst he).symm
    exact absurd (setter_recovers hrecover ▸ hwrap) processUserDateOfBirthSet_no_conflict
  · cases he
    obtain ⟨r, hrun, _⟩ := run_wrap hr
    exact setter_birthdayDate hrun

section
variable {Copy : Type} {D : Deployment Copy} {log events : List (Event Copy)} {c : Copy}

/-! ### What a copy is owed -/

/-- Two setter messages with different bytes for one user. -/
def Deployment.Rival (D : Deployment Copy) (b c : Copy) : Prop :=
  D.operation b = .UserDateOfBirthSet ∧ D.operation c = .UserDateOfBirthSet ∧
    D.content b ≠ D.content c ∧
    ∃ u, D.userId (D.content b) = some u ∧ D.userId (D.content c) = some u

/-- The copy was handed over after a rival had committed, and no setter with its bytes has committed
    since then. -/
def Owed (D : Deployment Copy) (log : List (Event Copy)) (c : Copy) : Prop :=
  ∃ before b after, log = before ++ .committed b :: after ∧ D.Rival b c ∧ .handed c ∈ after ∧
    ∀ a, D.content a = D.content c → .committed a ∉ after

theorem Owed.operation (h : Owed D log c) : D.operation c = .UserDateOfBirthSet := by
  obtain ⟨_, _, _, _, hr, _⟩ := h
  exact hr.2.1

/-- Events that commit nothing, or a commit alone, make no copy owed but one they hand over. -/
theorem Owed.of_append (h : Owed D (log ++ events) c)
    (hcommit : ∀ b, .committed b ∈ events → events = [.committed b]) (hc : .handed c ∉ events) :
    Owed D log c := by
  obtain ⟨before, b, after, hsplit, hr, hh, hn⟩ := h
  -- nothing follows a commit among the events
  have alone : ∀ mid, events = mid ++ .committed b :: after → False := by
    rintro mid hev
    have hb := hcommit b (by simp [hev])
    have hnil : after = [] := by
      have hlen := congrArg List.length (hb.symm.trans hev)
      simp only [List.length_append, List.length_cons, List.length_nil] at hlen
      exact List.eq_nil_of_length_eq_zero (by omega)
    simp [hnil] at hh
  rcases List.append_eq_append_iff.1 hsplit with ⟨mid, rfl, hev⟩ | ⟨mid, rfl, hev⟩
  · exact (alone mid hev).elim
  · rcases List.cons_eq_append_iff.1 hev with ⟨rfl, hev'⟩ | ⟨mid', rfl, rfl⟩
    · exact (alone [] hev').elim
    · refine ⟨before, b, mid', rfl, hr, (List.mem_append.1 hh).resolve_right hc, fun a ha hin => ?_⟩
      exact hn a ha (List.mem_append_left _ hin)

/-- Rows are not setters. -/
theorem Owed.of_row {id : String} {e : RowEvent} (h : Owed D (log ++ [.row id e]) c) :
    Owed D log c := h.of_append (by simp) (by simp)

/-! ### Computing what a copy is owed -/

instance (b c : Copy) : Decidable (D.Rival b c) :=
  decidable_of_iff (D.operation b = .UserDateOfBirthSet ∧ D.operation c = .UserDateOfBirthSet ∧
      D.content b ≠ D.content c ∧ (D.userId (D.content b)).isSome ∧
        D.userId (D.content b) = D.userId (D.content c)) <| by
    unfold Deployment.Rival
    cases D.userId (D.content b) <;> simp [eq_comm]

/-- A setter with the bytes of `c` commits. -/
def Event.commits (D : Deployment Copy) (c : Copy) : Event Copy → Bool
  | .committed a => decide (D.content a = D.content c)
  | _ => false

theorem commits_none : (∀ a, D.content a = D.content c → .committed a ∉ events) ↔
    ∀ e ∈ events, e.commits D c = false := by
  refine ⟨fun h e he => ?_, fun h a ha hin => ?_⟩
  · cases e with
    | committed a =>
      have hne : D.content a ≠ D.content c := fun ha => h a ha he
      simp [Event.commits, hne]
    | _ => rfl
  · simpa [Event.commits, ha] using h _ hin

theorem owed_cons {e : Event Copy} : Owed D (e :: log) c ↔
    (∃ b, e = .committed b ∧ D.Rival b c ∧ .handed c ∈ log ∧ ∀ e ∈ log, e.commits D c = false) ∨
      Owed D log c := by
  constructor
  · rintro ⟨before, b, after, heq, hr, hh, hn⟩
    cases before with
    | nil =>
      obtain ⟨rfl, rfl⟩ : e = .committed b ∧ log = after := by simpa using heq
      exact .inl ⟨b, rfl, hr, hh, commits_none.1 hn⟩
    | cons x before =>
      obtain ⟨rfl, rfl⟩ : e = x ∧ log = before ++ .committed b :: after := by simpa using heq
      exact .inr ⟨before, b, after, rfl, hr, hh, hn⟩
  · rintro (⟨b, rfl, hr, hh, hn⟩ | ⟨before, b, after, rfl, hr, hh, hn⟩)
    · exact ⟨[], b, log, rfl, hr, hh, commits_none.2 hn⟩
    · exact ⟨e :: before, b, after, rfl, hr, hh, hn⟩

section
variable [DecidableEq Copy]

/-- Whether the event is a rival's commit after which `c` was handed over and nothing paid. -/
def Event.indebts (D : Deployment Copy) (c : Copy) (after : List (Event Copy)) : Event Copy → Bool
  | .committed b => decide (D.Rival b c) && decide (.handed c ∈ after) && !after.any (·.commits D c)
  | _ => false

/-- `Owed`, computed. -/
def owes (D : Deployment Copy) (c : Copy) : List (Event Copy) → Bool
  | [] => false
  | e :: after => e.indebts D c after || owes D c after

theorem owes_iff {log : List (Event Copy)} : owes D c log = true ↔ Owed D log c := by
  induction log with
  | nil => simp [owes, Owed]
  | cons e log ih =>
    rw [owed_cons, owes, Bool.or_eq_true, ih]
    cases e <;> simp [Event.indebts, and_assoc]

instance : Decidable (Owed D log c) := decidable_of_iff _ owes_iff

end

/-! ### Handing over comes before committing -/

/-- A copy is handed over before its own setter commits. -/
def HandRule (before : List (Event Copy)) (e : Event Copy) : Prop :=
  ∀ c : Copy, e = .handed c → .committed c ∉ before

/-- A copy whose own setter has committed is not owed. -/
theorem not_owed_of_committed (hl : Grounded HandRule log) (hc : .committed c ∈ log) :
    ¬Owed D log c := by
  rintro ⟨before, b, after, rfl, _, hh, hn⟩
  obtain ⟨mid, rest, rfl⟩ := List.append_of_mem hh
  have hfirst := hl (before ++ .committed b :: mid) (.handed c) rest (by simp) c rfl
  have hlast : .committed c ∈ rest := by
    simp only [List.mem_append, List.mem_cons, not_or] at hc hfirst
    rcases hc with hc | hc | hc | hc | hc
    · exact absurd hc hfirst.1
    · exact absurd hc hfirst.2.1
    · exact absurd hc hfirst.2.2
    · cases hc
    · exact hc
  exact hn c rfl (by simp [hlast])

/-! ### Calls -/

/-- The phases after the own setter has committed. -/
def Phase.Committed : Phase → Prop
  | .working _ true | .recording _ none _ | .backingOff _ none => True
  | _ => False

/-- A call against the log: nothing commits before the copy is handed over, what comes after the
    admission is admitted, and a setter that returned has committed. -/
structure Handle.Ordered (operation : Operation) (log : List (Event Copy)) (c : Copy) (h : Handle) :
    Prop where
  idle : h.phase = .idle → .committed c ∉ log ∧ h.late = 0 ∧ h.admitted = false
  beyond : h.phase.Beyond → h.admitted = true
  committed : operation = .UserDateOfBirthSet → h.phase.Committed → .committed c ∈ log

variable {operation : Operation} {h h' : Handle}

theorem Handle.Ordered.extend (ho : h.Ordered operation log c) (hno : .committed c ∉ events) :
    h.Ordered operation (log ++ events) c := by
  refine ⟨fun hp => ?_, ho.beyond, fun hop hp => List.mem_append_left _ (ho.committed hop hp)⟩
  obtain ⟨hn, hl, ha⟩ := ho.idle hp
  exact ⟨by simp [hn, hno], hl, ha⟩

/-- A call that has ended. -/
theorem ordered_ended (hp : h.phase = .returned ∨ h.phase = .crashed) :
    h.Ordered operation log c := by
  rcases hp with hp | hp <;>
    exact ⟨by simp [hp], by simp [hp, Phase.Beyond], by simp [hp, Phase.Committed]⟩

theorem Goes.ordered (hg : Goes c h h' events)
    (hb : h.phase.Beyond → h.admitted = true) : h'.Ordered operation (log ++ events) c := by
  cases hg with
  | leave _ => exact ordered_ended (.inl rfl)
  | on hp ha =>
    refine ⟨fun hi => ?_, fun hp' => (ha hp').elim id hb, fun _ hc => ?_⟩
    · cases hp <;> cases hi
    · cases hp <;> cases hc

theorem Records.ordered {claimed : Claimed} {failure : Option Failure}
    (hr : Records c h claimed failure h' events) (hb : h.admitted = true)
    (hc : operation = .UserDateOfBirthSet → failure = none → .committed c ∈ log) :
    h'.Ordered operation (log ++ events) c := by
  cases hr with
  | leave _ => exact ordered_ended (.inl rfl)
  | on =>
    refine ⟨by simp, fun _ => hb, fun hop hp => List.mem_append_left _ (hc hop ?_)⟩
    cases failure with
    | none => rfl
    | some _ => cases hp

/-- A turn keeps a call ordered. -/
theorem turned_ordered (ht : Turned operation c h h' events) (ho : h.Ordered operation log c) :
    h'.Ordered operation (log ++ events) c := by
  cases ht with
  | signal =>
    have ho' : h.Ordered operation (log ++ [.signalled c]) c := ho.extend (by simp)
    exact ⟨ho'.idle, ho'.beyond, ho'.committed⟩
  | hand hp hg =>
    rw [List.append_cons]
    exact hg.ordered (by simp [hp, Phase.Beyond])
  | @go h' events hp admitted hadm hg =>
    refine hg.ordered fun hb => ?_
    rcases hadm with rfl | ⟨_, rfl⟩
    · exact ho.beyond hb
    · rfl
  | ack _ _ => exact ordered_ended (.inl rfl)
  | start hp => exact ⟨by simp, fun _ => ho.beyond (hp ▸ trivial), fun _ hc => by cases hc⟩
  | commit hp => exact ⟨by simp, fun _ => ho.beyond (hp ▸ trivial), fun _ _ => by simp⟩
  | commitLate hl =>
    refine ⟨fun hp => ?_, ho.beyond, fun _ _ => by simp⟩
    have := (ho.idle hp).2.1
    omega
  | @succeed h' events claimed committed hp hc hr =>
    rw [List.append_cons]
    refine hr.ordered (ho.beyond (hp ▸ trivial)) fun hop _ => List.mem_append_left _ ?_
    obtain rfl := hc hop
    exact ho.committed hop (hp ▸ trivial)
  | @fail h' events claimed committed failure late hp hr =>
    exact hr.ordered (ho.beyond (hp ▸ trivial)) (by simp)
  | @retry h' events claimed failure hp hr =>
    refine hr.ordered (ho.beyond (hp ▸ trivial)) fun hop hf => ?_
    subst hf
    exact ho.committed hop (hp ▸ trivial)
  | @backOff claimed failure answered hp =>
    rw [List.append_nil]
    refine ⟨by simp, fun _ => ho.beyond (hp ▸ trivial), fun hop hc => ho.committed hop ?_⟩
    cases failure with
    | none => exact hp ▸ trivial
    | some _ => cases hc
  | crash _ _ => exact ordered_ended (.inr rfl)

/-- What a turn commits and hands over: alone, and of its own copy. -/
theorem turned_commits (ht : Turned operation c h h' events) :
    (∀ b, .committed b ∈ events → b = c ∧ events = [.committed b]) ∧
      ∀ b, .handed b ∈ events → b = c ∧ h.phase = .idle ∧ ∃ rest, events = .handed b :: rest := by
  cases ht with
  | hand hp hg =>
    refine ⟨fun b hb => ?_, fun b hb => ?_⟩
    · exact absurd (by simpa using hb) (hg.quiet (e := .committed b) nofun)
    · obtain rfl : b = c := by simpa [hg.quiet (e := .handed b) nofun] using hb
      exact ⟨rfl, hp, _, rfl⟩
  | go _ _ hg =>
    exact ⟨fun b hb => absurd hb (hg.quiet nofun), fun b hb => absurd hb (hg.quiet nofun)⟩
  | succeed _ _ hr =>
    exact ⟨fun b hb => absurd (by simpa using hb) (hr.quiet (e := .committed b) nofun),
      fun b hb => absurd (by simpa using hb) (hr.quiet (e := .handed b) nofun)⟩
  | fail _ hr =>
    exact ⟨fun b hb => absurd hb (hr.quiet nofun), fun b hb => absurd hb (hr.quiet nofun)⟩
  | retry _ hr =>
    exact ⟨fun b hb => absurd hb (hr.quiet nofun), fun b hb => absurd hb (hr.quiet nofun)⟩
  | commit _ => simp
  | commitLate _ => simp
  | _ => simp

/-! ### Waiting on a row -/

/-- The phases of a call that has begun and not ended. -/
def Phase.Live : Phase → Prop
  | .idle | .returned | .crashed => False
  | _ => True

theorem Phase.Polling.live {p : Phase} (hp : p.Polling) : p.Live := by
  cases hp <;> trivial

/-- A call whose admission has been answered, that has not ended and was not told to stop. -/
def Handle.Waiting (h : Handle) : Prop :=
  (h.admitted = true ∨ h.phase = .admitting true) ∧ h.aborted = false ∧ h.phase.Live

instance : DecidablePred Phase.Live
  | .idle | .returned | .crashed => .isFalse id
  | .admitting _ | .reading _ | .quarantining _ | .delaying | .claiming _ | .working _ _
  | .recording _ _ _ | .backingOff _ _ => .isTrue trivial

/-- The admission has been answered. -/
def Phase.admissionAnswered : Phase → Bool
  | .admitting answered => answered
  | _ => false

instance (h : Handle) : Decidable h.Waiting :=
  decidable_of_iff ((h.admitted = true ∨ h.phase.admissionAnswered = true) ∧ h.aborted = false ∧
      h.phase.Live) <| by
    unfold Handle.Waiting
    cases h.phase <;> simp [Phase.admissionAnswered]

/-- The answer of a read, if any, shows a row that is not completed. -/
def Phase.ReadsOpen : Phase → Prop
  | .reading (some (some state)) => state.completedAt = none
  | _ => True

/-- A call waits only if it waited before the turn, and then no new answer is there. -/
theorem turned_waiting (ht : Turned operation c h h' events) (ho : h.Ordered operation log c)
    (hw : h'.Waiting) : h.Waiting ∧ (h.phase.ReadsOpen → h'.phase.ReadsOpen) := by
  obtain ⟨hadm, hab, hlive⟩ := hw
  cases ht with
  | signal => cases hab
  | hand hp hg =>
    have hno := (ho.idle hp).2.2
    cases hg with
    | leave _ => cases hlive
    | on hf _ =>
      rcases hadm with hadm | hadm
      · simp [hno] at hadm
      · cases hf <;> cases hadm
  | @go h' events hp admitted hadm' hg =>
    have hlive' : h.phase.Live := by
      rcases hp with hp | ⟨_, _, hp⟩
      · exact hp.live
      · exact hp ▸ trivial
    cases hg with
    | leave _ => cases hlive
    | on hf _ =>
      refine ⟨⟨?_, hab, hlive'⟩, fun _ => by cases hf <;> trivial⟩
      rcases hadm with hadm | hadm
      · rcases hadm' with rfl | ⟨hp', _⟩
        · exact .inl hadm
        · exact .inr hp'
      · cases hf <;> cases hadm
  | ack _ _ => cases hlive
  | start hp => exact ⟨⟨.inl (ho.beyond (hp ▸ trivial)), hab, hp ▸ trivial⟩, fun _ => trivial⟩
  | commit hp => exact ⟨⟨.inl (ho.beyond (hp ▸ trivial)), hab, hp ▸ trivial⟩, fun _ => trivial⟩
  | commitLate _ => exact ⟨⟨hadm, hab, hlive⟩, id⟩
  | succeed hp _ hr =>
    cases hr with
    | leave _ => cases hlive
    | on => exact ⟨⟨.inl (ho.beyond (hp ▸ trivial)), hab, hp ▸ trivial⟩, fun _ => trivial⟩
  | fail hp hr =>
    cases hr with
    | leave _ => cases hlive
    | on => exact ⟨⟨.inl (ho.beyond (hp ▸ trivial)), hab, hp ▸ trivial⟩, fun _ => trivial⟩
  | retry hp hr =>
    cases hr with
    | leave _ => cases hlive
    | on => exact ⟨⟨.inl (ho.beyond (hp ▸ trivial)), hab, hp ▸ trivial⟩, fun _ => trivial⟩
  | backOff hp => exact ⟨⟨.inl (ho.beyond (hp ▸ trivial)), hab, hp ▸ trivial⟩, fun _ => trivial⟩
  | crash _ _ => cases hlive

/-- An answer to a statement makes a call wait only if it is the admission. -/
theorem answered_waiting {q : Statement} {token : ℕ} {row : Option InboundDelivery}
    (hq : D.pending c h.phase = some q) (hw : (h.answered token row).Waiting) :
    (h.Waiting ∨ ∃ operation maxAttempts, q = .insert operation maxAttempts) ∧
      (h.answered token row).phase.ReadsOpen := by
  obtain ⟨hadm, hab, _⟩ := hw
  have hpend := pending_cases hq
  unfold Handle.answered at hadm hab ⊢
  generalize hp : h.phase = p at hpend hadm ⊢
  have hwait : p.Live → h.admitted = true → h.Waiting := fun hl ha => ⟨.inl ha, hab, hp ▸ hl⟩
  cases hpend with
  | insert => exact ⟨.inr ⟨_, _, rfl⟩, trivial⟩
  | _ => exact ⟨.inl (hwait trivial (by simpa [Phase.answer] using hadm)), trivial⟩

/-- An answer changes nothing about the order. -/
theorem answered_ordered {q : Statement} {token : ℕ} {row : Option InboundDelivery}
    (hq : D.pending c h.phase = some q) (ho : h.Ordered operation log c) :
    (h.answered token row).Ordered operation log c := by
  have hpend := pending_cases hq
  have hbeyond := ho.beyond
  have hdone := ho.committed
  unfold Handle.answered
  generalize h.phase = p at hpend hbeyond hdone ⊢
  cases hpend with
  | insert => exact ⟨by simp [Phase.answer], by simp [Phase.answer, Phase.Beyond],
      by simp [Phase.answer, Phase.Committed]⟩
  | recordCompletion => exact ⟨by simp [Phase.answer], fun _ => hbeyond trivial,
      fun hop _ => hdone hop trivial⟩
  | _ => exact ⟨by simp [Phase.answer], fun _ => hbeyond trivial,
      by simp [Phase.answer, Phase.Committed]⟩

/-- An acknowledgement without quarantine comes when no setter is owed. -/
def SetterRule (D : Deployment Copy) (before : List (Event Copy)) (e : Event Copy) : Prop :=
  ∀ c, e = .acked c false → ¬Owed D before c

/-- A call that acknowledges without quarantine has read a completed row or has committed. -/
theorem acks_not_owed (hw : Acks h.phase false) (ha : h.aborted = false)
    (ho : h.Ordered (D.operation c) log c) (hl : Grounded HandRule log)
    (hopen : h.Waiting → Owed D log c → h.phase.ReadsOpen) : ¬Owed D log c := by
  intro howed
  generalize hp : h.phase = p at hw hopen
  generalize hf : false = quarantined at hw
  cases hw with
  | @settled state hs =>
    have hwait : h.Waiting := ⟨.inl (ho.beyond (hp ▸ trivial)), ha, hp ▸ trivial⟩
    have hnone : state.completedAt = none := hopen hwait howed
    rcases hs with hs | hs
    · simp [hnone] at hs
    · simp [hs] at hf
  | saved => cases hf
  | recorded =>
    have hin := ho.committed howed.operation (hp ▸ trivial)
    exact not_owed_of_committed hl hin howed

/-- The events of a turn obey the rules. -/
theorem turned_rules (ht : Turned (D.operation c) c h h' events)
    (ho : h.Ordered (D.operation c) log c) (hl : Grounded HandRule log)
    (hs : Grounded (SetterRule D) log) (hopen : h.Waiting → Owed D log c → h.phase.ReadsOpen) :
    Grounded HandRule (log ++ events) ∧ Grounded (SetterRule D) (log ++ events) := by
  have unacked : (∀ c', .acked c' false ∉ events) → Grounded (SetterRule D) (log ++ events) := by
    intro hno
    refine hs.append fun before e after heq c' he => absurd ?_ (hno c')
    rw [heq, he]
    simp
  refine ⟨hl.append fun before e after heq c' he => ?_, ?_⟩
  · -- the copy is handed over first, out of an idle call
    obtain ⟨rfl, hidle, rest, hev⟩ := (turned_commits ht).2 c' (by rw [heq, he]; simp)
    have hn := (ho.idle hidle).1
    have hbefore : before = [] ∨ .handed c' ∈ before := by
      rw [hev] at heq
      cases before with
      | nil => exact .inl rfl
      | cons x before =>
        simp only [List.cons_append, List.cons.injEq] at heq
        exact .inr (by simp [← heq.1])
    intro hin
    rcases List.mem_append.1 hin with hin | hin
    · exact hn hin
    · have := ((turned_commits ht).1 c' (by rw [heq]; simp [hin])).2
      rw [hev] at this
      cases this
  · cases ht with
    | hand _ hg => exact unacked fun c' => by simpa using hg.quiet (e := .acked c' false) nofun
    | go _ _ hg => exact unacked fun _ => hg.quiet nofun
    | @ack quarantined ha hw =>
      cases quarantined with
      | true => exact unacked (by simp)
      | false =>
        rw [List.append_cons]
        refine (hs.concat fun c' he => ?_).concat fun c' he => by cases he
        cases he
        exact acks_not_owed hw ha ho hl hopen
    | succeed _ _ hr => exact unacked fun c' => by simpa using hr.quiet (e := .acked c' false) nofun
    | fail _ hr => exact unacked fun _ => hr.quiet nofun
    | retry _ hr => exact unacked fun _ => hr.quiet nofun
    | _ => exact unacked (by simp)

/-! ### Rows under a waiting call -/

/-- A statement leaves an open row, or it is a completion record of the row's owner. -/
theorem write_open {q : Statement} {token : ℕ} {received now : Timestamp}
    {row : Option InboundDelivery} {row' : InboundDelivery}
    (hw : q.write token received now row = some row') :
    row'.completedAt = none ∨ ∃ owner, q = .recordCompletion owner ∧
      ∃ r, row = some r ∧ r.OwnedBy owner now := by
  cases row with
  | none =>
    cases q <;> cases hw
    exact .inl rfl
  | some row =>
    cases q with
    | insert operation maxAttempts =>
      simp only [Statement.write, InboundDelivery.restart, Option.ite_none_right_eq_some,
        Option.some.injEq] at hw
      obtain ⟨_, rfl⟩ := hw
      exact .inl rfl
    | claim leaseMs =>
      simp only [Statement.write, Option.bind_some, InboundDelivery.claim,
        Option.ite_none_right_eq_some, Option.some.injEq] at hw
      obtain ⟨⟨_, _, hc, _⟩, rfl⟩ := hw
      exact .inl hc
    | recordFailure owner code terminal waitMs =>
      simp only [Statement.write, Option.bind_some, InboundDelivery.recordFailure,
        Option.ite_none_right_eq_some, Option.some.injEq] at hw
      obtain ⟨⟨_, hc, _⟩, rfl⟩ := hw
      exact .inl hc
    | recordCompletion owner =>
      simp only [Statement.write, Option.bind_some, InboundDelivery.recordCompletion,
        Option.ite_none_right_eq_some, Option.some.injEq] at hw
      exact .inr ⟨owner, rfl, row, rfl, hw.1.1⟩
    | quarantine body =>
      simp only [Statement.write, Option.bind_some, InboundDelivery.quarantine,
        Option.ite_none_right_eq_some, Option.some.injEq] at hw
      obtain ⟨⟨hc, _⟩, rfl⟩ := hw
      exact .inl hc
    | replay replayId =>
      simp only [Statement.write, Option.bind_some, InboundDelivery.replay,
        Option.ite_none_right_eq_some, Option.some.injEq] at hw
      obtain ⟨_, rfl⟩ := hw
      exact .inl rfl

/-- An admission that leaves a setter's row alone found it open. -/
theorem restart_open {row : InboundDelivery} {maxAttempts : ℤ} {now : Timestamp}
    (hop : row.operation = .UserDateOfBirthSet) (hw : row.restart maxAttempts now = none) :
    row.completedAt = none := by
  unfold InboundDelivery.restart at hw
  by_contra hc
  have hsome : row.completedAt.isSome = true := Option.isSome_iff_ne_none.2 hc
  simp [hop, hsome] at hw

/-- A completion record that takes effect does not close the row under a call that waits on it and
    is owed a setter. The argument is the statement about to run. -/
def Timely (D : Deployment Copy) (s : State Copy) : Option (String × Statement × Timestamp) → Prop
  | some (id, .recordCompletion token, _) => ∀ row ∈ s.rows id, row.OwnedBy token s.now →
      ∀ c, D.deliveryId c = id → (s.handles c).Waiting → ¬Owed D s.log c
  | _ => True

/-- A waiting call that is owed a setter finds its row open. -/
def Opened (D : Deployment Copy) (s : State Copy) : Prop :=
  ∀ c, (s.handles c).Waiting → Owed D s.log c →
    (∀ row ∈ s.rows (D.deliveryId c), row.completedAt = none) ∧ (s.handles c).phase.ReadsOpen

variable {s s' : State Copy} {id : String} {q : Statement} {received : Timestamp}

theorem owed_execute (h : Owed D (s.execute id q received).log c) : Owed D s.log c := by
  rcases execute_cases s id q received with ⟨_, heq⟩ | ⟨row, _, heq⟩ <;> rw [heq] at h
  · exact h
  · exact h.of_row

/-- After a statement the row of a waiting call, and of the call that just admitted it, is open. -/
theorem opened_execute (hid : D.CollisionFree) (ha : Accounted D s) (ho : Opened D s)
    (he : Timely D s (some (id, q, received))) (howed : Owed D s.log c)
    (hw : (s.handles c).Waiting ∨
      (∃ operation maxAttempts, q = .insert operation maxAttempts) ∧ id = D.deliveryId c) :
    ∀ row ∈ (s.execute id q received).rows (D.deliveryId c), row.completedAt = none := by
  intro row hrow
  rcases execute_cases s id q received with ⟨hnone, heq⟩ | ⟨row', hsome, heq⟩ <;> rw [heq] at hrow
  · rcases hw with hw | ⟨⟨operation, maxAttempts, rfl⟩, rfl⟩
    · exact (ho c hw howed).1 row hrow
    · obtain ⟨c', hc', hop⟩ := (ha.rows _ row hrow).routed
      have hsame : D.operation c' = D.operation c := congrArg D.pattern (hid c' c hc')
      rw [State.written, Option.mem_def.1 hrow] at hnone
      exact restart_open (by rw [← hop, hsame, howed.operation]) hnone
  · by_cases heq' : D.deliveryId c = id
    · subst heq'
      obtain rfl : row' = row := by simpa using hrow
      rcases write_open hsome with hopen | ⟨owner, rfl, r, hr, hown⟩
      · exact hopen
      · rcases hw with hw | ⟨⟨_, _, hq⟩, _⟩
        · exact absurd howed (he r hr hown c rfl hw)
        · cases hq
    · have hold : s.rows (D.deliveryId c) = some row := by
        simpa [Function.update_of_ne heq'] using hrow
      rcases hw with hw | ⟨_, rfl⟩
      · exact (ho c hw howed).1 row hold
      · exact absurd rfl heq'

/-! ### Runs -/

/-- The invariant of the runs whose records are timely. -/
structure Timed (D : Deployment Copy) (s : State Copy) : Prop where
  calls : ∀ c, (s.handles c).Ordered (D.operation c) s.log c
  opened : Opened D s
  hands : Grounded HandRule s.log
  setters : Grounded (SetterRule D) s.log

theorem timed_execute (id : String) (q : Statement) (received : Timestamp) (ht : Timed D s) :
    (∀ c, (s.handles c).Ordered (D.operation c) (s.execute id q received).log c) ∧
      Grounded HandRule (s.execute id q received).log ∧
      Grounded (SetterRule D) (s.execute id q received).log := by
  rcases execute_cases s id q received with ⟨_, heq⟩ | ⟨row, _, heq⟩ <;> rw [heq]
  · exact ⟨ht.calls, ht.hands, ht.setters⟩
  · refine ⟨fun c => (ht.calls c).extend (by simp), ht.hands.concat ?_, ht.setters.concat ?_⟩
    · intro c he
      cases he
    · intro c he
      cases he

variable [DecidableEq Copy] {e : Option (String × Statement × Timestamp)}

theorem timed_turn {h' : Handle} {orphans : List (String × Statement)}
    (hturn : Turned (D.operation c) c (s.handles c) h' events) (ht : Timed D s) :
    Timed D { s.put c h' with log := s.log ++ events, orphans } := by
  have hrules := turned_rules hturn (ht.calls c) ht.hands ht.setters
    fun hw ho => (ht.opened c hw ho).2
  have hcommits := turned_commits hturn
  refine ⟨fun c' => ?_, fun c' hw howed => ?_, hrules.1, hrules.2⟩
  · by_cases hc : c' = c
    · subst hc
      simpa using turned_ordered hturn (ht.calls c')
    · have hno : .committed c' ∉ events := fun hin => hc (hcommits.1 c' hin).1
      simpa [put_other hc] using (ht.calls c').extend hno
  · have hold : .handed c' ∉ events → Owed D s.log c' :=
      fun hno => Owed.of_append howed (fun b hb => (hcommits.1 b hb).2) hno
    by_cases hc : c' = c
    · subst hc
      have hw' : h'.Waiting := by simpa using hw
      obtain ⟨hwait, hopen⟩ := turned_waiting hturn (ht.calls c') hw'
      have hno : .handed c' ∉ events := by
        intro hin
        have hidle := (hcommits.2 c' hin).2.1
        have hlive := hwait.2.2
        rw [hidle] at hlive
        exact hlive
      obtain ⟨hrows, hreads⟩ := ht.opened c' hwait (hold hno)
      exact ⟨hrows, by simpa using hopen hreads⟩
    · have hw' : (s.handles c').Waiting := by simpa [put_other hc] using hw
      have hno : .handed c' ∉ events := fun hin => hc (hcommits.2 c' hin).1
      obtain ⟨hrows, hreads⟩ := ht.opened c' hw' (hold hno)
      exact ⟨hrows, by simpa [put_other hc] using hreads⟩

theorem timed_read (hp : (s.handles c).phase = .reading none) (received : Timestamp)
    (ht : Timed D s) : Timed D (s.put c ((s.handles c).hasRead
      ((s.rows (D.deliveryId c)).map (·.read (D.options c) received)))) := by
  refine ⟨fun c' => ?_, fun c' hw howed => ?_, ht.hands, ht.setters⟩
  · by_cases hc : c' = c
    · subst hc
      rw [put_self]
      have ho := ht.calls c'
      exact ⟨by simp [Handle.hasRead], fun _ => ho.beyond (hp ▸ trivial), fun _ hd => by cases hd⟩
    · simpa [put_other hc] using ht.calls c'
  · by_cases hc : c' = c
    · subst hc
      rw [put_self] at hw ⊢
      have hw' : (s.handles c').Waiting := by
        refine ⟨.inl ?_, hw.2.1, hp ▸ trivial⟩
        exact (ht.calls c').beyond (hp ▸ trivial)
      have hrows := (ht.opened c' hw' howed).1
      refine ⟨hrows, ?_⟩
      cases hrow : s.rows (D.deliveryId c') with
      | none => trivial
      | some row => exact hrows row hrow
    · rw [put_other hc] at hw ⊢
      exact ht.opened c' hw howed

theorem timed_run (hid : D.CollisionFree) (hq : D.pending c (s.handles c).phase = some q)
    (ha : Accounted D s) (he : Timely D s (some (D.deliveryId c, q, received))) (ht : Timed D s) :
    Timed D ((s.execute (D.deliveryId c) q received).put c
      ((s.handles c).answered s.nextToken (s.written (D.deliveryId c) q received))) := by
  obtain ⟨hcalls, hhands, hsetters⟩ := timed_execute (D.deliveryId c) q received ht
  refine ⟨fun c' => ?_, fun c' hw howed => ?_, hhands, hsetters⟩
  · by_cases hc : c' = c
    · subst hc
      rw [put_self]
      exact answered_ordered hq (hcalls c')
    · simpa [put_other hc] using hcalls c'
  · have howed' : Owed D s.log c' := owed_execute howed
    by_cases hc : c' = c
    · subst hc
      rw [put_self] at hw ⊢
      obtain ⟨hwait, hreads⟩ := answered_waiting hq hw
      exact ⟨opened_execute hid ha ht.opened he howed' (hwait.imp id fun h => ⟨h, rfl⟩), hreads⟩
    · rw [put_other hc, execute_handles] at hw ⊢
      exact ⟨opened_execute hid ha ht.opened he howed' (.inl hw), (ht.opened c' hw howed').2⟩

theorem timed_step (hid : D.CollisionFree) (hst : Stepped D s e s') (he : Timely D s e)
    (ha : Accounted D s) (ht : Timed D s) : Timed D s' := by
  cases hst with
  | tick _ => exact ⟨ht.calls, ht.opened, ht.hands, ht.setters⟩
  | turn hturn _ => exact timed_turn hturn ht
  | read hp _ => exact timed_read hp _ ht
  | run hq _ => exact timed_run hid hq ha he ht
  | @server id q received orphans hq _ _ =>
    obtain ⟨hcalls, hhands, hsetters⟩ := timed_execute id q received ht
    refine ⟨by simpa using hcalls, fun c hw howed => ?_, hhands, hsetters⟩
    have howed' : Owed D s.log c := owed_execute howed
    rw [execute_handles] at hw
    have hreads := (ht.opened c hw howed').2
    exact ⟨opened_execute hid ha ht.opened he howed' (.inl hw), by simpa using hreads⟩

/-- The steps of a run that keep the setter's order. -/
def Deployment.OnTime (D : Deployment Copy) (a : Action Copy) (s : State Copy) : Prop :=
  Timely D s (D.statement s a)

theorem timed_reached (hid : D.CollisionFree) (hs : D.machine.ReachedBy D.OnTime s) :
    Timed D s := by
  have h : Accounted D s ∧ Timed D s := by
    refine hs.invariant (I := fun s => Accounted D s ∧ Timed D s) ?_ fun hok hstep ⟨ha, ht⟩ => ?_
    · refine ⟨accounted_reached .refl, ⟨fun c => ⟨?_, ?_, ?_⟩, ?_, grounded_nil, grounded_nil⟩⟩
      · simp [Deployment.machine]
      · simp [Deployment.machine, Phase.Beyond]
      · simp [Deployment.machine, Phase.Committed]
      · intro c hw
        exact hw.2.2.elim
    · exact ⟨accounted_step (step_cases hstep) ha, timed_step hid (step_cases hstep) hok ha ht⟩
  exact h.2

/-- A setter copy handed over after a rival's commit and acknowledged without quarantine: a setter
    with its bytes has committed after the rival. -/
def SetterOrder (D : Deployment Copy) (log : List (Event Copy)) : Prop :=
  ∀ before c after, log = before ++ .acked c false :: after →
    ∀ earlier b later, before = earlier ++ .committed b :: later → D.Rival b c →
      .handed c ∈ later → ∃ a, D.content a = D.content c ∧ .committed a ∈ later

/-- In every run in which no completion record closes a row under a waiting call that is owed a
    setter. -/
theorem setter_order (hid : D.CollisionFree) (hs : D.machine.ReachedBy D.OnTime s) :
    SetterOrder D s.log := by
  intro before c after heq earlier b later hbefore hr hh
  have hrule := (timed_reached hid hs).setters before _ after heq c rfl
  by_contra hno
  refine hrule ⟨earlier, b, later, hbefore, hr, hh, fun a ha hin => hno ⟨a, ha, hin⟩⟩

/-! ### The three setters -/

instance [Fintype Copy] : DecidablePred (Timely D s)
  | some (id, .recordCompletion token, _) =>
    inferInstanceAs (Decidable (∀ row ∈ s.rows id, row.OwnedBy token s.now →
      ∀ c, D.deliveryId c = id → (s.handles c).Waiting → ¬Owed D s.log c))
  | some (_, .insert _ _, _) | some (_, .claim _, _) | some (_, .recordFailure _ _ _ _, _)
  | some (_, .quarantine _, _) | some (_, .replay _, _) | none => .isTrue trivial

instance [Fintype Copy] (a : Action Copy) (s : State Copy) : Decidable (D.OnTime a s) :=
  inferInstanceAs (Decidable (Timely D s (D.statement s a)))

/-- One setter after the other keeps the order. -/
theorem setter_order_in_turn : ∃ s : State (Fin 3),
    .acked 2 false ∈ s.log ∧ SetterOrder threeSetters s.log := by
  obtain ⟨s, hs, hp⟩ := threeSetters.machine.reachedBy_of_exec threeSetters.OnTime
    (claims 0 ++ completes 0 ++ [.turn 0 .resume] ++ claims 1 ++ completes 1 ++ [.turn 1 .resume] ++
      claims 2 ++ completes 2 ++ [.turn 2 .resume])
    (fun s => decide (.acked 2 false ∈ s.log)) (by decide +kernel)
  exact ⟨s, of_decide_eq_true hp, setter_order threeSetters_collisionFree hs⟩

/-- The second copy of the first date is admitted while the first copy still has to record its
    completion, and acknowledged once it has. -/
def overtaken : List (Action (Fin 3)) :=
  claims 0 ++ [.turn 0 .commit, .turn 0 (.finish none)] ++ claims 1 ++ completes 1 ++
    [.turn 2 .hand, .run 2 0, .turn 2 .resume, .run 0 0, .read 2 0, .turn 2 .resume]

/-- The second copy of the first date never runs, so the other date stays. -/
theorem setter_order_fails : threeSetters.CollisionFree ∧ ∃ s : State (Fin 3),
    threeSetters.machine.Reached s ∧ ¬SetterOrder threeSetters s.log := by
  refine ⟨threeSetters_collisionFree, ?_⟩
  obtain ⟨s, hs, hp⟩ := threeSetters.machine.reached_of_exec overtaken
    (fun s => decide (s.log = s.log.take 15 ++ .acked 2 false :: s.log.drop 16) &&
      owes threeSetters 2 (s.log.take 15)) (by decide +kernel)
  obtain ⟨hlog, howes⟩ := Bool.and_eq_true_iff.1 hp
  obtain ⟨earlier, b, later, hbefore, hr, hh, hn⟩ := owes_iff.1 howes
  refine ⟨s, hs, fun horder => ?_⟩
  obtain ⟨a, ha, hin⟩ := horder _ 2 _ (of_decide_eq_true hlog) earlier b later hbefore hr hh
  exact hn a ha hin

end

end CinemaLoyalty
