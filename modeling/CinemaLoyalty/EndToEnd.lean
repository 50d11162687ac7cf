import CinemaLoyalty.Delivery.InboundPurchases
import CinemaLoyalty.Intents.Pipeline
import CinemaLoyalty.Outbox.Announcements

/-! @svc EndToEnd | layer:system | source:src/app.module.ts, src/loyalty/loyalty.module.ts, src/achievements/achievements.module.ts

    The service with all that runs in it: the consumers of the queue, the workers of the achievement
    queue, the publishers of the outbox and all other callers, over one database. Each part moves as
    it does beside anything else (`world_inbound`, `world_pipeline`, `world_announcing`), so what was
    shown of the parts holds of the whole, and what one part writes is what another one finds. -/

namespace CinemaLoyalty
open Transition UpgradeChain Utf16

/-! ### Machine -/

/-- Deliveries, database, worker jobs and outbox. -/
structure World (Copy Publisher : Type) where
  delivery : State Copy
  history : History
  versions : List Achievement
  jobs : List WorkerJob
  outbox : OutboxState Publisher

section parts
variable {Copy Publisher : Type} (s : World Copy Publisher)

/-- The consumers and the database. -/
def World.inbound : Inbound Copy := ⟨s.delivery, s.history⟩

/-- The workers and the database. -/
def World.pipeline : Pipeline := ⟨s.history, s.versions, s.jobs⟩

/-- The publishers and the database. -/
def World.announcing : Announcing Publisher := ⟨s.history.db, s.outbox⟩

end parts

/-- A consumer goes on, a transaction that commits then reading its clock; a worker goes on or an
    operation comes from elsewhere; a publisher goes on. -/
inductive WorldAction (Copy Publisher : Type)
  | deliver (a : Action Copy) (now : Instant)
  | work (a : PipelineAction)
  | publish (a : OutboxAction Publisher)

/-- An action of the workers, or an operation that no message brings. -/
def PipelineAction.direct : PipelineAction → Bool
  | .operate op => op.direct
  | _ => true

section machine
variable {Copy Publisher : Type} [DecidableEq Copy] [DecidableEq Publisher] (K : Consumers Copy)
  (config : Publisher → OutboxConfig)

/-- The operation that a delivery commits. -/
def Action.commits (now : Instant) : Action Copy → Option Op
  | .turn c .commit | .turn c .commitLate => (K.work c).toOption.map (.call · now)
  | _ => none

/-- A new state of deliveries and workers, with the outbox rows that were written on the way. -/
def World.settle (s : World Copy Publisher) (delivery : State Copy) (p : Pipeline) :
    Option (World Copy Publisher) :=
  (s.outbox.commit config
    (p.history.db.outboxEvents.drop s.history.db.outboxEvents.length)).map fun outbox =>
      { delivery, history := p.history, versions := p.versions, jobs := p.jobs, outbox }

def World.step : WorldAction Copy Publisher → World Copy Publisher → Option (World Copy Publisher)
  | .deliver a now, s =>
    (Inbound.step K (.deliver a now) s.inbound).bind fun i =>
      match a.commits K now with
      | some op => (Pipeline.step (.operate op) s.pipeline).bind (s.settle config i.delivery)
      | none => s.settle config i.delivery s.pipeline
  | .work a, s =>
    if a.direct then (Pipeline.step a s.pipeline).bind (s.settle config s.delivery) else none
  | .publish a, s =>
    if a.isInsert then none else (outboxStep config a s.outbox).map ({ s with outbox := · })

/-- Nothing has been handed over, the database is empty, and nothing runs. -/
def world : System (World Copy Publisher) (WorldAction Copy Publisher) where
  first :=
    { delivery := K.toDeployment.machine.first
      history := .start
      versions := []
      jobs := []
      outbox := (outboxMachine config).first }
  step := World.step K config

/-! ### Parts -/

variable {K config} {s s' : World Copy Publisher} {p p' : Pipeline}

/-- A step of the workers leaves the database or performs one operation. -/
theorem pipeline_performs {a : PipelineAction} (h : p.step a = some p') :
    p'.history = p.history ∨ ∃ op, p'.history = p.history.step op ∧
      (a.direct = true → op.direct = true) := by
  cases a with
  | operate op =>
    simp only [Pipeline.step, Option.ite_none_right_eq_some, Option.some.injEq] at h
    obtain ⟨-, rfl⟩ := h
    exact .inr ⟨op, rfl, id⟩
  | begin key =>
    obtain ⟨job, -, rfl⟩ := Option.map_eq_some_iff.1 h
    exact .inl rfl
  | run i now =>
    simp only [Pipeline.step] at h
    split at h
    · obtain rfl := Option.some.inj h
      exact .inr ⟨_, rfl, fun _ => rfl⟩
    · exact absurd h (Option.some_ne_none _).symm
  | fail i =>
    simp only [Pipeline.step] at h
    split at h
    · obtain rfl := Option.some.inj h
      exact .inl rfl
    · exact absurd h (Option.some_ne_none _).symm
  | gone i =>
    obtain rfl := Option.some.inj h
    exact .inl rfl

omit [DecidableEq Copy] in
/-- What `settle` makes of the parts: the outbox gets the rows of the new history. -/
theorem settle_parts {delivery : State Copy} (h : s.settle config delivery p = some s') :
    s'.inbound = ⟨delivery, p.history⟩ ∧ s'.pipeline = p ∧
      s.outbox.commit config
        (p.history.db.outboxEvents.drop s.history.db.outboxEvents.length) = some s'.outbox := by
  obtain ⟨outbox, houtbox, rfl⟩ := Option.map_eq_some_iff.1 h
  exact ⟨rfl, rfl, houtbox⟩

omit [DecidableEq Copy] in
/-- The publishers see an operation of the service, or nothing. -/
theorem settle_announcing {delivery : State Copy} (h : s.settle config delivery p = some s')
    (hp : p.history = s.history ∨ ∃ op, p.history = s.history.step op) :
    (announcing config).Leads s.announcing s'.announcing := by
  obtain ⟨-, hpipeline, houtbox⟩ := settle_parts h
  have hhistory : s'.history = p.history := congrArg Pipeline.history hpipeline
  rcases hp with hsame | ⟨op, hop⟩
  · rw [hsame, List.drop_length] at houtbox
    have hunchanged : s'.announcing = s.announcing := by
      unfold World.announcing
      rw [hhistory, hsame, ← Option.some.inj houtbox]
    rw [hunchanged]
    exact .refl
  · rw [hop] at houtbox
    refine .single ⟨.operate op, trivial, ?_⟩
    have hstep : (s.outbox.commit config ((op.exec s.history.db).outboxEvents.drop
        s.history.db.outboxEvents.length)).map (Announcing.mk (op.exec s.history.db)) =
          some s'.announcing := by
      rw [show s.outbox.commit config ((op.exec s.history.db).outboxEvents.drop
        s.history.db.outboxEvents.length) = some s'.outbox from houtbox, Option.map_some]
      unfold World.announcing
      rw [hhistory, hop]
      rfl
    exact hstep

/-- A delivery performs the operation it commits, and no other. -/
theorem inbound_history {i i' : Inbound Copy} {a : Action Copy} {now : Instant}
    (h : Inbound.step K (.deliver a now) i = some i') :
    i'.history = (a.commits K now).elim i.history i.history.step := by
  have hcommit : ∀ {c : Copy} {t : Turn}, i.commit K c t now = some i' →
      i'.history = ((K.work c).toOption.map (Op.call · now)).elim i.history i.history.step := by
    intro c t h
    unfold Inbound.commit at h
    split at h
    · rename_i call hcall
      simp only [Option.ite_none_right_eq_some, Option.map_eq_some_iff] at h
      obtain ⟨-, d, -, rfl⟩ := h
      rw [hcall]
      rfl
    · cases h
  have hmap : ∀ {o : Option (State Copy)},
      o.map (Inbound.mk · i.history) = some i' → i'.history = i.history := by
    intro o h
    obtain ⟨d, -, rfl⟩ := Option.map_eq_some_iff.1 h
    rfl
  cases a with
  | turn c t =>
    cases t with
    | commit => exact hcommit h
    | commitLate => exact hcommit h
    | finish thrown =>
      cases thrown with
      | none =>
        simp only [Inbound.step] at h
        split at h
        · exact hmap h
        · cases h
      | some thrown =>
        simp only [Inbound.step, Option.ite_none_right_eq_some] at h
        exact hmap h.2
    | _ =>
      simp only [Inbound.step] at h
      exact hmap h
  | _ =>
    simp only [Inbound.step] at h
    exact hmap h

/-- A step, by the parts that move. -/
inductive World.Stepped (K : Consumers Copy) (config : Publisher → OutboxConfig)
    (s : World Copy Publisher) : World Copy Publisher → Prop
  | delivers {a : Action Copy} {now : Instant} {i : Inbound Copy} {s' : World Copy Publisher}
      (hi : Inbound.step K (.deliver a now) s.inbound = some i) (ha : a.commits K now = none)
      (h : s.settle config i.delivery s.pipeline = some s') : Stepped K config s s'
  | commits {a : Action Copy} {now : Instant} {i : Inbound Copy} {op : Op} {p : Pipeline}
      {s' : World Copy Publisher} (hi : Inbound.step K (.deliver a now) s.inbound = some i)
      (ha : a.commits K now = some op) (hp : Pipeline.step (.operate op) s.pipeline = some p)
      (h : s.settle config i.delivery p = some s') : Stepped K config s s'
  | works {a : PipelineAction} {p : Pipeline} {s' : World Copy Publisher} (ha : a.direct = true)
      (hp : Pipeline.step a s.pipeline = some p) (h : s.settle config s.delivery p = some s') :
      Stepped K config s s'
  | publishes {a : OutboxAction Publisher} {outbox : OutboxState Publisher} (ha : a.isInsert = false)
      (h : outboxStep config a s.outbox = some outbox) : Stepped K config s { s with outbox }

theorem world_cases {a : WorldAction Copy Publisher} (h : s.step K config a = some s') :
    s.Stepped K config s' := by
  cases a with
  | deliver a now =>
    obtain ⟨i, hi, h⟩ := Option.bind_eq_some_iff.1 h
    split at h
    · rename_i op ha
      obtain ⟨p, hp, h⟩ := Option.bind_eq_some_iff.1 h
      exact .commits hi ha hp h
    · exact .delivers hi ‹_› h
  | work a =>
    simp only [World.step, Option.ite_none_right_eq_some] at h
    obtain ⟨ha, h⟩ := h
    obtain ⟨p, hp, h⟩ := Option.bind_eq_some_iff.1 h
    exact .works ha hp h
  | publish a =>
    simp only [World.step] at h
    split at h
    · cases h
    · obtain ⟨outbox, ho, rfl⟩ := Option.map_eq_some_iff.1 h
      exact .publishes (Bool.eq_false_iff.2 ‹_›) ho

theorem operate_history {op : Op} (h : p.step (.operate op) = some p') :
    p'.history = p.history.step op := by
  simp only [Pipeline.step, Option.ite_none_right_eq_some, Option.some.injEq] at h
  obtain ⟨-, rfl⟩ := h
  rfl

/-- The consumers in the whole. -/
theorem world_inbound (h : (world K config).Reached s) : K.system.Reached s.inbound := by
  refine h.project (f := World.inbound) rfl ?_
  intro a s s' hstep
  cases world_cases hstep with
  | @delivers a now i _ hi ha h =>
    have hhistory : i.history = s.history := by rw [inbound_history hi, ha]; rfl
    have hparts : s'.inbound = i := by
      rw [(settle_parts h).1]
      exact congrArg (Inbound.mk i.delivery) hhistory.symm
    rw [hparts]
    exact .single ⟨.deliver a now, trivial, hi⟩
  | @commits a now i op p _ hi ha hp h =>
    have hhistory : i.history = s.history.step op := by rw [inbound_history hi, ha]; rfl
    have hparts : s'.inbound = i := by
      rw [(settle_parts h).1, operate_history hp]
      exact congrArg (Inbound.mk i.delivery) hhistory.symm
    rw [hparts]
    exact .single ⟨.deliver a now, trivial, hi⟩
  | @works a p _ ha hp h =>
    rw [(settle_parts h).1]
    rcases pipeline_performs hp with hsame | ⟨op, hop, hdirect⟩
    · rw [hsame]
      exact .refl
    · rw [hop]
      exact .single ⟨.operate op, trivial, if_pos (hdirect ha)⟩
  | publishes _ _ => exact .refl

/-- The workers in the whole. -/
theorem world_pipeline (h : (world K config).Reached s) : pipeline.Reached s.pipeline := by
  refine h.project (f := World.pipeline) rfl ?_
  intro a s s' hstep
  cases world_cases hstep with
  | delivers _ _ h =>
    rw [(settle_parts h).2.1]
    exact .refl
  | @commits a now i op p _ _ _ hp h =>
    rw [(settle_parts h).2.1]
    exact .single ⟨.operate op, trivial, hp⟩
  | @works a p _ _ hp h =>
    rw [(settle_parts h).2.1]
    exact .single ⟨a, trivial, hp⟩
  | publishes _ _ => exact .refl

/-- The publishers in the whole. -/
theorem world_announcing (h : (world K config).Reached s) :
    (announcing config).Reached s.announcing := by
  refine h.project (f := World.announcing) rfl ?_
  intro a s s' hstep
  cases world_cases hstep with
  | delivers _ _ h => exact settle_announcing h (.inl rfl)
  | commits _ _ hp h => exact settle_announcing h (.inr ⟨_, operate_history hp⟩)
  | works _ hp h =>
    refine settle_announcing h ?_
    rcases pipeline_performs hp with hsame | ⟨op, hop, -⟩
    · exact .inl hsame
    · exact .inr ⟨op, hop⟩
  | @publishes a outbox ha h =>
    exact .single ⟨.publisher a, trivial, announcing_publisher ha h⟩

omit [DecidableEq Copy] in
/-- What a message calls is no step of a job. -/
theorem work_quiet {c : Copy} {call : Call} (h : K.work c = .ok call) (now : Instant) :
    (Op.call call now).isQuiet = true := by
  unfold Consumers.work Consumers.callOf at h
  split at h
  · obtain ⟨msg, rfl⟩ := ticketPurchased_calls h
    rfl
  · obtain ⟨userId, dateOfBirth, rfl⟩ := dateOfBirth_calls h
    rfl

omit [DecidableEq Copy] in
theorem commits_quiet {a : Action Copy} {now : Instant} {op : Op} (h : a.commits K now = some op) :
    op.isQuiet = true := by
  have hwork : ∀ {c : Copy},
      (K.work c).toOption.map (Op.call · now) = some op → op.isQuiet = true := by
    intro c h
    cases hcall : K.work c with
    | error e =>
      rw [hcall] at h
      cases h
    | ok call =>
      rw [hcall] at h
      cases h
      exact work_quiet hcall now
  unfold Action.commits at h
  split at h
  · exact hwork h
  · exact hwork h
  · cases h

/-- No part holds up the consumers: what they can do beside a database they can do in the whole. -/
theorem world_delivers (h : (world K config).Reached s) {a : Action Copy} {now : Instant}
    {i : Inbound Copy} (hi : Inbound.step K (.deliver a now) s.inbound = some i) :
    ∃ s', s.step K config (.deliver a now) = some s' ∧ s'.inbound = i := by
  have hhistory := inbound_history hi
  cases ha : a.commits K now with
  | none =>
    rw [ha] at hhistory
    have hsettled : s.settle config i.delivery s.pipeline =
        some { s with delivery := i.delivery } := by
      unfold World.settle
      rw [show s.pipeline.history = s.history from rfl, List.drop_length]
      rfl
    refine ⟨{ s with delivery := i.delivery }, ?_, congrArg (Inbound.mk i.delivery) hhistory.symm⟩
    simp only [World.step, hi, Option.bind_some, ha]
    exact hsettled
  | some op =>
    rw [ha] at hhistory
    obtain ⟨outbox, houtbox, -⟩ := (announced_reached (world_announcing h)).operates op
    have hperformed : Pipeline.step (.operate op) s.pipeline = some (s.pipeline.perform op) :=
      if_pos (commits_quiet ha)
    have hsettled : s.settle config i.delivery (s.pipeline.perform op) =
        some ⟨i.delivery, s.history.step op, s.versions ++ (op.exec s.history.db).achievements, s.jobs,
          outbox⟩ := Option.map_eq_some_iff.2 ⟨outbox, houtbox, rfl⟩
    refine ⟨_, ?_, (settle_parts hsettled).1.trans (congrArg (Inbound.mk i.delivery) hhistory.symm)⟩
    simp only [World.step, hi, Option.bind_some, ha, hperformed]
    exact hsettled

end machine

/-! ### From message to user -/

section runs
variable {Copy Publisher : Type} [DecidableEq Copy] [DecidableEq Publisher] {K : Consumers Copy}
  {config : Publisher → OutboxConfig} {s : World Copy Publisher}

/-- Whatever is redelivered, lost, late or dies, in the queue, the workers or the publishers, and
    whoever else writes to the database: a ticket message that is acknowledged without quarantine has
    its purchase committed, once. The progress of a user's achievement is the sum of what events of
    committed ticket messages of the user count, each once. A message about a tier goes out only for a
    tier the user has reached. -/
theorem messages_reach_users (hfree : K.CollisionFree) (h : (world K config).Reached s) :
    (∀ c m, K.work c = .ok (.processTicketPurchase m) → .acked c false ∈ s.delivery.log →
      s.history.Committed m.eventId.text) ∧
    (s.history.purchases.map (·.eventId.text)).Nodup ∧
    (∀ u a row, s.history.db.userAchievements (u, a) = some row → ∃ cs : List Contribution,
      cs ≠ [] ∧ (cs.map (·.event.eventId)).Nodup ∧ row.current = (cs.map (·.n)).sum ∧
      ∀ c ∈ cs, c.Of s.history s.versions u a ∧ ∃ copy,
        K.work copy = .ok (.processTicketPurchase c.purchase) ∧ .committed copy ∈ s.delivery.log) ∧
    ∀ m ∈ sentMessages s.outbox.log, ∃ u, Uuid.ofText m.userId = some u ∧
      m.newTier ≤ s.history.db.tierOf u := by
  have hbooked := booked_reached (world_inbound h)
  have hsourced := sourced_reached (world_pipeline h)
  have hannounced := announced_reached (world_announcing h)
  refine ⟨fun c m hwork hack => ?_, hbooked.marked.once, fun u a row hrow => ?_, fun m hm => ?_⟩
  · exact acked_booked hfree (world_inbound h) hwork hack
  · obtain ⟨ledger, hl⟩ := hsourced.progress
    have hcounts := hl.counts u a
    rw [show s.pipeline.history.db.userAchievements (u, a) = some row from hrow,
      Option.elim_some] at hcounts
    refine ⟨ledger u a, hl.started u a row hrow, hl.once u a, hcounts, fun c hc => ?_⟩
    have hof := hl.of u a c hc
    exact ⟨hof, hbooked.sent c.purchase hof.committed⟩
  · obtain ⟨row, hrow, rfl⟩ := hannounced.sent hm
    refine ⟨row.aggregateId, hannounced.written.user hrow, ?_⟩
    have hchain := (hannounced.ranked row.aggregateId).chain
    exact (chain_below hchain).2 row (List.mem_filter.2 ⟨hrow, decide_eq_true rfl⟩)

/-- What the consumers do, as a part of the whole. -/
def InboundAction.inWorld : InboundAction Copy → WorldAction Copy Publisher
  | .deliver a now => .deliver a now
  | .operate op => .work (.operate op)

/-- A ticket is redelivered after its consumer died, another is refused, and a worker counts the visit
    of the first. -/
def ticketVisits : List (WorldAction (Fin 3) Bool) :=
  [.work (.operate (.createAchievement Uuid.nil firstVisit))] ++
    (redelivered ++ refused 40000000).map InboundAction.inWorld ++
    [.work (.begin (Uuid.nil, Uuid.nil.text, .TICKET_PURCHASED)), .work (.run 0 0),
      .work (.begin (Uuid.nil, Uuid.nil.text, .TICKET_PURCHASED)), .work (.run 1 0)]

/-- The ticket counts once, and it is a message that was committed. -/
theorem messages_reach_users_visit : ∃ s : World (Fin 3) Bool, ∃ m : TicketPurchasedDto,
    s.history.Committed m.eventId.text ∧ ∃ cs : List Contribution, (cs.map (·.n)).sum = 1 ∧
      ∀ c ∈ cs, ∃ copy, .committed copy ∈ s.delivery.log ∧
        threeTickets.work copy = .ok (.processTicketPurchase c.purchase) := by
  obtain ⟨s, hs, hp⟩ := (world threeTickets fun _ : Bool => {}).reached_of_exec ticketVisits
    (fun s => decide (.acked 1 false ∈ s.delivery.log) &&
      (s.history.db.userAchievements (Uuid.nil, Uuid.nil)).any fun row =>
        decide (row.current = (1 : ℤ)))
    (by decide +kernel)
  rw [Bool.and_eq_true, decide_eq_true_iff] at hp
  obtain ⟨hack, hone⟩ := hp
  obtain ⟨row, hrow, hcurrent⟩ := (Option.any_eq_true _ _).1 hone
  rw [decide_eq_true_iff] at hcurrent
  obtain ⟨hbooked, -, hprogress, -⟩ := messages_reach_users threeTickets_collisionFree hs
  obtain ⟨cs, hne, -, hsum, hcs⟩ := hprogress _ _ row hrow
  obtain ⟨c, hc⟩ := List.exists_mem_of_ne_nil cs hne
  obtain ⟨-, copy, hwork, -⟩ := hcs c hc
  refine ⟨s, c.purchase, hbooked 1 c.purchase (threeTickets_calls hwork) hack, cs, hsum.symm.trans hcurrent, ?_⟩
  intro c hc
  obtain ⟨-, copy, hwork, hcommitted⟩ := hcs c hc
  exact ⟨copy, hcommitted, hwork⟩

end runs

end CinemaLoyalty
