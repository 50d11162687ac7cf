import CinemaLoyalty.Delivery.Budget
import CinemaLoyalty.Delivery.Inbound
import CinemaLoyalty.Markers

/-! @svc InboundPurchases | layer:property | source:src/loyalty/consumers, src/loyalty/loyalty.service.ts (processTicketPurchase)

    What the queue and the books say of each other. The marker of a purchase event is written by its
    purchase alone, and a call that returned has committed; so whatever happens on the way, an event
    is committed at most once, and no acknowledged purchase is missing. A message whose payload is
    refused commits nothing and is acknowledged only once it is stored in quarantine. -/

namespace CinemaLoyalty
open Transition Txn Utf16

/-! ### Markers -/

section markers
variable {db : DB} {e : ProcessedEvent}

/-- No operation but a purchase writes the marker of a purchase. -/
theorem purchase_marks {op : Op} {t : UuidText}
    (hop : ∀ msg now, op ≠ .call (.processTicketPurchase msg) now)
    (he : (op.exec db).processedEvents t.text = some e) (ho : e.operation = none) :
    db.processedEvents t.text = some e := by
  rcases op_marks he ho with hold | ⟨c, now, rfl, hmarks⟩
  · exact hold
  cases c with
  | processTicketPurchase msg => exact absurd rfl (hop msg now)
  | processAchievement event achievement =>
    obtain ⟨eventId, hk⟩ := hmarks
    exact absurd hk (processId_not_uuid t eventId achievement)
  | _ => exact hmarks.elim

theorem commits_other {op : Op} (hop : ∀ msg now, op ≠ .call (.processTicketPurchase msg) now) :
    db.commits op = none := by
  cases op with
  | call c now =>
    cases c with
    | processTicketPurchase msg => exact absurd rfl (hop msg now)
    | _ => rfl
  | _ => rfl

/-- A purchase fails, or finds its marker, or commits and writes it. -/
inductive PurchaseMark (db : DB) (msg : TicketPurchasedDto) (now : Instant) : Prop
  | failed (hx : (Op.call (.processTicketPurchase msg) now).exec db = db)
      (hok : ((Call.processTicketPurchase msg).exec now db).1.isOk = false)
  | found {e : ProcessedEvent} (hmark : db.processedEvents msg.eventId.text = some e)
      (ho : e.operation = none)
      (hx : ((Op.call (.processTicketPurchase msg) now).exec db).processedEvents = db.processedEvents)
  | written (hnew : db.processedEvents msg.eventId.text = none)
      (hc : db.commits (.call (.processTicketPurchase msg) now) = some msg)
      (hx : ((Op.call (.processTicketPurchase msg) now).exec db).processedEvents =
        Function.update db.processedEvents msg.eventId.text (some { eventId := msg.eventId.text }))

theorem purchase_mark (db : DB) (msg : TicketPurchasedDto) (now : Instant) :
    PurchaseMark db msg now := by
  rcases exec_cases (.processTicketPurchase msg) now db with ⟨e, -, he⟩ | ⟨a, x, hr, he⟩
  · refine .failed ?_ ?_
    · simp only [Op.exec, he]
    · rw [he]
      rfl
  · have hok : ((Call.processTicketPurchase msg).exec now db).1.isOk = true := by
      rw [he]
      rfl
    have hx : (Op.call (.processTicketPurchase msg) now).exec db = x := by simp only [Op.exec, he]
    obtain ⟨r, hrun, -⟩ := run_wrap hr
    cases processTicketPurchase_ok hrun with
    | duplicate hmark ho =>
      exact .found hmark ho (by rw [hx, ensureProfile_processedEvents])
    | @processed n rows hn _ _ _ =>
      refine .written hn (by simp [DB.commits, hn, hok]) ?_
      rw [hx, withIntents_processedEvents]
      funext k
      have hcredited : ∀ t, (db.credited msg n t now).processedEvents = db.processedEvents := by
        intro t
        unfold DB.credited
        simp only
        split <;> simp [DB.post]
      unfold DB.purchased
      simp only [announced_processedEvents, processedEvents_event, hcredited, Function.update_apply]
      split
      · rename_i hk
        rw [hk, hn, Option.none_or]
      · rfl

end markers

/-! ### Books -/

/-- The purchase of an event is among the committed ones. -/
def History.Committed (h : History) (eventId : String) : Prop :=
  ∃ m ∈ h.purchases, m.eventId.text = eventId

/-- The committed purchases have distinct events, and the markers are theirs. -/
structure Marked (h : History) : Prop where
  once : (h.purchases.map (·.eventId.text)).Nodup
  written : ∀ m ∈ h.purchases, (h.db.processedEvents m.eventId.text).isSome = true
  known : ∀ (t : UuidText) e, h.db.processedEvents t.text = some e → e.operation = none →
    h.Committed t.text

section books
variable {h : History} {op : Op}

theorem History.Committed.step {eventId : String} (hc : h.Committed eventId) (op : Op) :
    (h.step op).Committed eventId := by
  obtain ⟨m, hm, hid⟩ := hc
  exact ⟨m, List.mem_append_left _ hm, hid⟩

theorem marked_start : Marked .start where
  once := List.nodup_nil
  written _ hm := absurd hm List.not_mem_nil
  known _ _ he := by cases he

/-- An operation that commits no purchase and writes no marker of one. -/
theorem Marked.other (hm : Marked h) (hc : h.db.commits op = none)
    (hx : ∀ (t : UuidText) e, (op.exec h.db).processedEvents t.text = some e → e.operation = none →
      h.db.processedEvents t.text = some e) : Marked (h.step op) := by
  have hlist : (h.step op).purchases = h.purchases := by simp [History.step, hc]
  refine ⟨hlist ▸ hm.once, fun m hin => ?_, fun t e he ho => ?_⟩
  · rw [hlist] at hin
    obtain ⟨e, he⟩ := Option.isSome_iff_exists.1 (hm.written m hin)
    have hkept : (op.exec h.db).processedEvents m.eventId.text = some e := act_keeps he (.operate op)
    exact Option.isSome_iff_exists.2 ⟨e, hkept⟩
  · obtain ⟨m, hin, hid⟩ := hm.known t e (hx t e he ho) ho
    exact ⟨m, hlist.symm ▸ hin, hid⟩

/-- A purchase, whether it fails, finds its marker or commits. -/
theorem Marked.purchase (hm : Marked h) (msg : TicketPurchasedDto) (now : Instant) :
    Marked (h.step (.call (.processTicketPurchase msg) now)) ∧
      (((Call.processTicketPurchase msg).exec now h.db).1.isOk = true →
        (h.step (.call (.processTicketPurchase msg) now)).Committed msg.eventId.text) := by
  cases purchase_mark h.db msg now with
  | failed hx hok =>
    refine ⟨hm.other (by simp [DB.commits, hok]) fun t e he _ => ?_, fun h' => ?_⟩
    · rwa [hx] at he
    · rw [hok] at h'
      cases h'
  | found hmark ho hx =>
    have hold := hm.known msg.eventId _ hmark ho
    refine ⟨hm.other (by simp [DB.commits, hmark]) fun t e he _ => ?_, fun _ => hold.step _⟩
    rwa [hx] at he
  | written hnew hc hx =>
    have hlist : (h.step (.call (.processTicketPurchase msg) now)).purchases =
        h.purchases ++ [msg] := by simp [History.step, hc]
    have hdb : (h.step (.call (.processTicketPurchase msg) now)).db.processedEvents =
        Function.update h.db.processedEvents msg.eventId.text
          (some { eventId := msg.eventId.text }) := hx
    have hself : (h.step (.call (.processTicketPurchase msg) now)).Committed msg.eventId.text :=
      ⟨msg, by simp [hlist], rfl⟩
    refine ⟨⟨?_, fun m hin => ?_, fun t e he ho => ?_⟩, fun _ => hself⟩
    · rw [hlist, List.map_append, List.map_singleton]
      refine List.nodup_append.2 ⟨hm.once, List.nodup_singleton _, ?_⟩
      -- an event committed before has its marker, and this one had none
      rintro id hid id' hid' rfl
      obtain ⟨m, hin, rfl⟩ := List.mem_map.1 hid
      have hmark := hm.written m hin
      rw [List.mem_singleton.1 hid', hnew] at hmark
      cases hmark
    · rw [hdb, Function.update_apply]
      split
      · rfl
      · rename_i hne
        rw [hlist] at hin
        rcases List.mem_append.1 hin with hin | hin
        · exact hm.written m hin
        · exact absurd (congrArg (fun m => m.eventId.text) (List.mem_singleton.1 hin)) hne
    · rw [hdb, Function.update_apply] at he
      split at he
      · rename_i heq
        rw [heq]
        exact hself
      · exact (hm.known t e he ho).step _

/-- Every operation keeps the books. -/
theorem marked_step (hm : Marked h) (op : Op) : Marked (h.step op) := by
  by_cases hop : ∃ msg now, op = .call (.processTicketPurchase msg) now
  · obtain ⟨msg, now, rfl⟩ := hop
    exact (hm.purchase msg now).1
  · have hother : ∀ msg now, op ≠ .call (.processTicketPurchase msg) now :=
      fun msg now heq => hop ⟨msg, now, heq⟩
    exact hm.other (commits_other hother) fun t e => purchase_marks hother

end books

/-! ### Plain acknowledgements -/

section plain
variable {Copy : Type} {D : Deployment Copy} {d d' : State Copy} {log : List (Event Copy)} {c : Copy}

/-- An acknowledgement that is no quarantine rests on a `work` that returned. -/
theorem Acks.plain {p : Phase} (hw : Acks p false) (hb : p.Backed D log c) :
    Succeeded D log (D.deliveryId c) := by
  generalize hq : false = quarantined at hw
  cases hw with
  | settled hs =>
    rw [← hq, Bool.false_eq_true, or_false] at hs
    exact hb.1 hs
  | saved => cases hq
  | recorded => exact ⟨c, rfl, hb⟩

/-- A turn that acknowledges stands at one of the three sites, for its own copy. -/
theorem turned_plain {operation : Operation} {h h' : Handle} {events : List (Event Copy)} {c' : Copy}
    (ht : Turned operation c h h' events) (hin : .acked c' false ∈ events) :
    c' = c ∧ Acks h.phase false := by
  cases ht with
  | hand _ hg =>
    have hno := hg.quiet (e := .acked c' false) nofun
    exact absurd (by simpa using hin) hno
  | go _ _ hg => exact absurd hin (hg.quiet nofun)
  | ack _ hw =>
    simp only [List.mem_cons, Event.acked.injEq, reduceCtorEq, List.not_mem_nil, or_false] at hin
    obtain ⟨rfl, rfl⟩ := hin
    exact ⟨rfl, hw⟩
  | succeed _ _ hr =>
    have hno := hr.quiet (e := .acked c' false) nofun
    exact absurd (by simpa using hin) hno
  | fail _ hr => exact absurd hin (hr.quiet nofun)
  | retry _ hr => exact absurd hin (hr.quiet nofun)
  | _ => simp at hin

variable [DecidableEq Copy]

theorem plain_step {e : Option (String × Statement × Timestamp)} (hst : Stepped D d e d')
    (ha : Accounted D d)
    (hplain : ∀ c, .acked c false ∈ d.log → Succeeded D d.log (D.deliveryId c)) :
    ∀ c, .acked c false ∈ d'.log → Succeeded D d'.log (D.deliveryId c) := by
  intro c hc
  have hexecute : ∀ {id : String} {q : Statement} {received : Timestamp},
      .acked c false ∈ (d.execute id q received).log →
        Succeeded D (d.execute id q received).log (D.deliveryId c) := by
    intro id q received hin
    rcases execute_cases d id q received with ⟨_, heq⟩ | ⟨row, _, heq⟩ <;> rw [heq] at hin ⊢
    · exact hplain c hin
    · exact (hplain c (by simpa using hin)).mono _
  cases hst with
  | tick _ => exact hplain c hc
  | @turn c' h' events orphans ht _ =>
    rcases List.mem_append.1 hc with hc | hc
    · exact (hplain c hc).mono events
    · obtain ⟨rfl, hw⟩ := turned_plain ht hc
      exact (hw.plain (ha.calls c).phase).mono events
  | read _ _ => exact hplain c hc
  | run _ _ => exact hexecute hc
  | server _ _ _ => exact hexecute hc

/-- A copy acknowledged without quarantine has had its `work` done, by some copy of its row. -/
theorem plain_acks (hd : D.machine.Reached d) (hc : .acked c false ∈ d.log) :
    Succeeded D d.log (D.deliveryId c) := by
  have hboth : Accounted D d ∧
      ∀ c, .acked c false ∈ d.log → Succeeded D d.log (D.deliveryId c) := by
    refine hd.invariant (I := fun d => Accounted D d ∧
      ∀ c, .acked c false ∈ d.log → Succeeded D d.log (D.deliveryId c))
      ⟨accounted_reached .refl, fun _ h => absurd h List.not_mem_nil⟩ ?_
    rintro a s s' hstep ⟨ha, hplain⟩
    exact ⟨accounted_step (step_cases hstep) ha, plain_step (step_cases hstep) ha hplain⟩
  exact hboth.2 c hc

end plain

/-! ### Queue and books -/

section runs
variable {Copy : Type} [DecidableEq Copy] {K : Consumers Copy} {s s' : Inbound Copy}

/-- The books against the log: every committed purchase was sent, and every commit is in the books. -/
structure Booked (K : Consumers Copy) (s : Inbound Copy) : Prop where
  marked : Marked s.history
  recorded : Recorded s.history
  sent : ∀ m ∈ s.history.purchases, ∃ c, K.work c = .ok (.processTicketPurchase m) ∧
    .committed c ∈ s.delivery.log
  called : ∀ c, .committed c ∈ s.delivery.log → ∃ call, K.work c = .ok call
  booked : ∀ c m, .committed c ∈ s.delivery.log → K.work c = .ok (.processTicketPurchase m) →
    s.history.Committed m.eventId.text
  working : ∀ c claimed, (s.delivery.handles c).phase = .working claimed true →
    .committed c ∈ s.delivery.log
  succeeded : ∀ c, .succeeded c ∈ s.delivery.log → .committed c ∈ s.delivery.log

theorem booked_start : Booked K K.system.first where
  marked := marked_start
  recorded := recorded_start
  sent _ hm := absurd hm List.not_mem_nil
  called _ h := absurd h List.not_mem_nil
  booked _ _ h := absurd h List.not_mem_nil
  working _ _ h := by cases h
  succeeded _ h := absurd h List.not_mem_nil

omit [DecidableEq Copy] in
/-- A delivery goes on without a commit. -/
theorem Booked.goes (hb : Booked K s) {d : State Copy} {events : List (Event Copy)}
    (hlog : d.log = s.delivery.log ++ events)
    (hsaid : ∀ e ∈ events, e.Business → ∃ c, e = .succeeded c ∧ .committed c ∈ s.delivery.log)
    (hphase : ∀ c claimed, (d.handles c).phase = .working claimed true →
      (s.delivery.handles c).phase = .working claimed true) : Booked K ⟨d, s.history⟩ := by
  have hcommitted : ∀ c, .committed c ∈ d.log ↔ .committed c ∈ s.delivery.log := by
    intro c
    rw [hlog, List.mem_append, or_iff_left]
    intro hin
    obtain ⟨c', heq, -⟩ := hsaid _ hin trivial
    cases heq
  refine ⟨hb.marked, hb.recorded, fun m hm => ?_, fun c hc => hb.called c ((hcommitted c).1 hc),
    fun c m hc => hb.booked c m ((hcommitted c).1 hc),
    fun c claimed hp => (hcommitted c).2 (hb.working c claimed (hphase c claimed hp)), fun c hc => ?_⟩
  · obtain ⟨c, hwork, hc⟩ := hb.sent m hm
    exact ⟨c, hwork, (hcommitted c).2 hc⟩
  · refine (hcommitted c).2 ?_
    simp only [hlog, List.mem_append] at hc
    rcases hc with hc | hc
    · exact hb.succeeded c hc
    · obtain ⟨c', heq, hin⟩ := hsaid _ hc trivial
      cases heq
      exact hin

omit [DecidableEq Copy] in
/-- A commit of a delivery, and its entry in the books. -/
theorem Booked.commits (hb : Booked K s) {d : State Copy} {c : Copy} {call : Call} {now : Instant}
    (hlog : d.log = s.delivery.log ++ [.committed c])
    (hphase : ∀ c' claimed, (d.handles c').phase = .working claimed true →
      c' = c ∨ (s.delivery.handles c').phase = .working claimed true)
    (hcall : K.work c = .ok call) (hok : (call.exec now s.history.db).1.isOk = true) :
    Booked K ⟨d, s.history.step (.call call now)⟩ := by
  have hold : ∀ {c'}, .committed c' ∈ s.delivery.log → .committed c' ∈ d.log :=
    fun hc => hlog ▸ List.mem_append_left _ hc
  have hself : .committed c ∈ d.log := by simp [hlog]
  have hnew : ∀ {c'}, .committed c' ∈ d.log → .committed c' ∈ s.delivery.log ∨ c' = c := by
    intro c' hc
    simpa [hlog] using hc
  refine ⟨marked_step hb.marked _, recorded_step hb.recorded _, fun m hm => ?_, fun c' hc => ?_,
    fun c' m hc hwork => ?_, fun c' claimed hp => ?_, fun c' hc => ?_⟩
  · rcases List.mem_append.1 hm with hm | hm
    · obtain ⟨c', hwork, hc⟩ := hb.sent m hm
      exact ⟨c', hwork, hold hc⟩
    · refine ⟨c, ?_, hself⟩
      rw [Option.mem_toList] at hm
      cases call with
      | processTicketPurchase msg =>
        simp only [DB.commits, Option.ite_none_right_eq_some, Option.some.injEq] at hm
        rw [hcall, hm.2]
      | _ => cases hm
  · rcases hnew hc with hc | rfl
    · exact hb.called c' hc
    · exact ⟨call, hcall⟩
  · rcases hnew hc with hc | rfl
    · exact (hb.booked c' m hc hwork).step _
    · obtain rfl : call = .processTicketPurchase m := Except.ok.inj (hcall.symm.trans hwork)
      exact (hb.marked.purchase m now).2 hok
  · rcases hphase c' claimed hp with rfl | hp
    · exact hself
    · exact hold (hb.working c' claimed hp)
  · refine hold (hb.succeeded c' ?_)
    simpa [hlog] using hc

theorem booked_step (h : s.Stepped K s') (hb : Booked K s) : Booked K s' := by
  cases h with
  | goes ha h =>
    obtain ⟨⟨events, hlog, hsilent⟩, hphase⟩ := step_silent ha h
    exact hb.goes hlog (fun e he hbusiness => absurd hbusiness (hsilent e he)) hphase
  | commits ht h hcall hok =>
    obtain ⟨hlog, hphase⟩ := step_commit ht h
    exact hb.commits hlog hphase hcall hok
  | @returns c claimed d hp h =>
    obtain ⟨events, hlog, hsaid, hphase⟩ := step_finish h
    exact hb.goes hlog (fun e he hbusiness => ⟨c, (hsaid e he hbusiness).2, hb.working c claimed hp⟩)
      hphase
  | throws _ h =>
    obtain ⟨events, hlog, hsaid, hphase⟩ := step_finish h
    exact hb.goes hlog (fun e he hbusiness => nomatch (hsaid e he hbusiness).1) hphase
  | @operates op hop =>
    refine ⟨marked_step hb.marked op, recorded_step hb.recorded op, fun m hm => ?_, hb.called,
      fun c m hc hwork => (hb.booked c m hc hwork).step op, hb.working, hb.succeeded⟩
    have hnone : s.history.db.commits op = none := by
      refine commits_other ?_
      rintro msg now rfl
      cases hop
    rcases List.mem_append.1 hm with hm | hm
    · exact hb.sent m hm
    · rw [hnone] at hm
      cases hm

theorem booked_reached (h : K.system.Reached s) : Booked K s :=
  h.invariant booked_start fun hstep hb => booked_step (inbound_cases hstep) hb

/-- A ticket whose copy is acknowledged without quarantine is committed. -/
theorem acked_booked (hfree : K.CollisionFree) (h : K.system.Reached s) {c : Copy}
    {m : TicketPurchasedDto} (hwork : K.work c = .ok (.processTicketPurchase m))
    (hack : .acked c false ∈ s.delivery.log) : s.history.Committed m.eventId.text := by
  have hb := booked_reached h
  obtain ⟨c', hid, hdone⟩ := plain_acks (delivery_reached h) hack
  have hsame : K.work c' = K.work c := by
    rw [Consumers.work, hfree c' c hid, Consumers.work]
  exact hb.booked c' m (hb.succeeded c' hdone) (hsame.trans hwork)

/-- Whatever is redelivered, dies, loses its answers, commits late or is replayed, and whatever else
    writes to the database: no purchase event is committed twice, every committed purchase was sent,
    the visits and achievement intents of the users are those of the committed purchases, and a copy
    that is acknowledged without quarantine has its purchase among them. -/
theorem purchases_booked_once (hfree : K.CollisionFree) (h : K.system.Reached s) :
    (s.history.purchases.map (·.eventId.text)).Nodup ∧
      (∀ m ∈ s.history.purchases, ∃ c, K.work c = .ok (.processTicketPurchase m) ∧
        .committed c ∈ s.delivery.log) ∧ Recorded s.history ∧
      ∀ c m, K.work c = .ok (.processTicketPurchase m) → .acked c false ∈ s.delivery.log →
        s.history.Committed m.eventId.text := by
  have hb := booked_reached h
  exact ⟨hb.marked.once, hb.sent, hb.recorded, fun c m hwork hack => acked_booked hfree h hwork hack⟩

/-- The data of a ticket of 100. -/
def ticketPayload : JsValue :=
  .obj [(ofString "eventId", .str (ofString "3f2504e0-4f89-41d3-9a0c-0305e82c3301")),
    (ofString "userId", .str (ofString Uuid.nil.text)),
    (ofString "orderId", .str (ofString Uuid.nil.text)),
    (ofString "totalAmount", .num (.fin 100)), (ofString "ticketAmount", .num (.fin 80)),
    (ofString "foodAmount", .num (.fin 20)), (ofString "eventType", .str (ofString "STANDARD")),
    (ofString "purchasedAt", .str (ofString "2026-01-05T18:00:00Z")), (ofString "pointsUsed", .null)]

/-- The message of that ticket. -/
def ticketBody : Buffer :=
  ascii ("\x7b\"pattern\":\"TicketPurchased\",\"data\":\x7b\"eventId\":" ++
    "\"3f2504e0-4f89-41d3-9a0c-0305e82c3301\",\"userId\":\"00000000-0000-0000-0000-000000000000\"," ++
    "\"orderId\":\"00000000-0000-0000-0000-000000000000\",\"totalAmount\":100,\"ticketAmount\":80," ++
    "\"foodAmount\":20,\"eventType\":\"STANDARD\",\"purchasedAt\":\"2026-01-05T18:00:00Z\"," ++
    "\"pointsUsed\":null\x7d\x7d")

/-- Data without an event, below zero. -/
def refusedPayload : JsValue := .obj [(ofString "totalAmount", .num (.fin (-1)))]

/-- The message of that data. -/
def refusedBody : Buffer :=
  ascii "\x7b\"pattern\":\"TicketPurchased\",\"data\":\x7b\"totalAmount\":-1\x7d\x7d"

/-- Copies 0 and 1 carry the ticket, copy 2 the one that is refused. -/
def threeTickets : Consumers (Fin 3) where
  sha256 := fun b =>
    if b = ascii "loyalty_ticket_purchased" ++ [0] ++ ticketBody then
      "f9b17c5c324077ad1c7744fa272be9b8977a2e38d44d2ea16cde899956d457a0"
    else "82fa6684d43656d0b50709b35803c27db1a6bb193797c3064015b664fff00cc2"
  queue := ascii "loyalty_ticket_purchased"
  content := fun c => if c = 2 then refusedBody else ticketBody
  pattern := fun _ => .TicketPurchased
  userId := fun b => if b = ticketBody then some Uuid.nil else none
  options := threeSetters.options
  payload := fun b => if b = ticketBody then some ticketPayload else some refusedPayload
  rules := ⟨fun _ => true, fun _ => true⟩
  newDate := fun _ => none

theorem threeTickets_collisionFree : threeTickets.CollisionFree := by
  unfold Deployment.CollisionFree
  decide +kernel

theorem threeTickets_content (c : Fin 3) :
    threeTickets.content c = if c = 2 then refusedBody else ticketBody := rfl

theorem threeTickets_payload (body : Buffer) : threeTickets.payload body =
    if body = ticketBody then some ticketPayload else some refusedPayload := rfl

theorem threeTickets_refuses :
    threeTickets.work 2 = .error (permanentMessage .INVALID_PURCHASE_PAYLOAD) := by
  have hne : refusedBody ≠ ticketBody := by decide +kernel
  change ticketPurchasedCall threeTickets.rules (threeTickets.payload (threeTickets.content 2)) = _
  rw [threeTickets_content, if_pos rfl, threeTickets_payload, if_neg hne]
  rfl

/-- Whatever a copy calls, copy 1 calls. -/
theorem threeTickets_calls {c : Fin 3} {call : Call} (h : threeTickets.work c = .ok call) :
    threeTickets.work 1 = .ok call := by
  have hticket : c ≠ 2 := by
    rintro rfl
    rw [threeTickets_refuses] at h
    cases h
  rw [← h, Consumers.work, Consumers.work, threeTickets_content, threeTickets_content,
    if_neg hticket, if_neg (by decide)]

/-- Copy `c` is handed over at `t` and starts `work`. -/
def starts (c : Fin 3) (t : Timestamp) : List (InboundAction (Fin 3)) :=
  [.turn c .hand, .run c t, .turn c .resume, .read c t, .turn c .resume, .run c t,
    .turn c .resume].map fun a => .deliver a 0

/-- The first copy commits and dies; the second commits again, returns and is acknowledged. -/
def redelivered : List (InboundAction (Fin 3)) :=
  starts 0 0 ++ [.deliver (.turn 0 .commit) 0, .deliver (.turn 0 .crash) 0,
    .deliver (.tick 40000000) 0] ++ starts 1 40000000 ++
    [.deliver (.turn 1 .commit) 5, .deliver (.turn 1 (.finish none)) 0,
      .deliver (.run 1 40000000) 0, .deliver (.turn 1 .resume) 0]

/-- The refused copy fails at `t`, is stored and acknowledged. -/
def refused (t : Timestamp) : List (InboundAction (Fin 3)) :=
  starts 2 t ++ [.turn 2 (.finish (some (.permanentMessage .INVALID_PURCHASE_PAYLOAD))), .run 2 t,
    .turn 2 .resume, .read 2 t, .turn 2 .resume, .run 2 t, .turn 2 .resume].map fun a => .deliver a 0

/-- A run in which the ticket is redelivered and the other one refused. -/
theorem threeTickets_run : ∃ s : Inbound (Fin 3), threeTickets.system.Reached s ∧
    s.history.purchases.length = 1 ∧ .acked 1 false ∈ s.delivery.log ∧
    .acked 2 true ∈ s.delivery.log := by
  obtain ⟨s, hs, hp⟩ := threeTickets.system.reached_of_exec (redelivered ++ refused 40000000)
    (fun s => decide (s.history.purchases.length = 1 ∧ .acked 1 false ∈ s.delivery.log ∧
      .acked 2 true ∈ s.delivery.log)) (by decide +kernel)
  exact ⟨s, hs, of_decide_eq_true hp⟩

/-- The redelivered ticket is in the books once, and the refused one is not. -/
theorem ticket_booked_once : ∃ s : Inbound (Fin 3), s.history.purchases.length = 1 ∧
    .acked 1 false ∈ s.delivery.log ∧ .acked 2 true ∈ s.delivery.log ∧
    (s.history.purchases.map (·.eventId.text)).Nodup ∧
    ∃ m : TicketPurchasedDto, s.history.Committed m.eventId.text := by
  obtain ⟨s, hs, hone, hack, hrefused⟩ := threeTickets_run
  obtain ⟨hnodup, hsent, -, hbooked⟩ := purchases_booked_once threeTickets_collisionFree hs
  obtain ⟨m, hm⟩ := List.exists_mem_of_length_pos (hone ▸ Nat.one_pos)
  obtain ⟨c, hwork, -⟩ := hsent m hm
  exact ⟨s, hone, hack, hrefused, hnodup, m, hbooked 1 m (threeTickets_calls hwork) hack⟩

end runs

end CinemaLoyalty
