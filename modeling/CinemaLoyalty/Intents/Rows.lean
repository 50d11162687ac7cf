import CinemaLoyalty.Lib.Paging
import CinemaLoyalty.Purchase

/-! @svc IntentRows | layer:model | source:src/achievements/achievement-intent-publisher.service.ts, src/achievements/achievements.service.ts, src/achievements/schemas/events.schemas.ts

    The intents with the columns of their delivery, the selection and the two statements of the
    publisher, and the schema through which a stored payload comes back as an event. -/

namespace CinemaLoyalty

def RETRY_DELAY_MS : ℤ := 5000

/-- `AchievementDispatchIntent` with the columns of its delivery. -/
structure DispatchIntent where
  id : Uuid
  key : Uuid × String × AchievementAction
  payload : Json
  createdAt : Instant
  nextAttemptAt : Instant := createdAt
  deliveredAt : Option Instant := none
  attempts : ℤ := 0
  error : Option String := none

/-! ### Events as payloads -/

/-- `z.record(z.string(), z.unknown()).optional()`; the outer option is the parse result. -/
def parseMetadata : Option Json → Option (Option (List (String × Json)))
  | none => some none
  | some (.obj fields) => some (some fields)
  | some _ => none

/-- `ActionEventSchema.parse` of a payload. -/
def ActionEvent.ofJson (payload : Json) : Option ActionEvent := do
  let .obj _ := payload | none
  let some (.str eventId) := payload.field "eventId" | none
  let some (.str userId) := payload.field "userId" | none
  let some (.str actionType) := payload.field "actionType" | none
  let actionType ← AchievementAction.ofText actionType
  let metadata ← parseMetadata (payload.field "metadata")
  ActionEvent.parse { eventId, userId, actionType, metadata }

/-- A job of the achievements queue. -/
structure AchievementJob where
  id : Uuid
  data : ActionEvent

/-- The job that `publish` hands to the queue through `dispatchEvent`, which validates the event
    again. -/
def DispatchIntent.job (intent : DispatchIntent) : Option AchievementJob :=
  (ActionEvent.ofJson intent.payload).bind fun event =>
    event.parse.map fun validEvent => { id := intent.id, data := validEvent }

/-- The row of an event of a purchase, as `saveDispatchIntents` makes it. -/
def purchaseIntent (id : Uuid) (msg : TicketPurchasedDto) (pointsUsed : ℤ) (i : ℕ)
    (createdAt : Instant) : Option DispatchIntent :=
  ((purchaseEvents msg pointsUsed)[i]?.bind ActionEvent.parse).map fun validated =>
    { id
      key := (msg.userId.value, validated.eventId, validated.actionType)
      payload := validated.toJson
      createdAt }

/-! ### Statements -/

/-- The filter of `publishPendingIntents`. -/
def DispatchIntent.isPending (now : Instant) (intent : DispatchIntent) : Bool :=
  intent.deliveredAt.isNone && decide (intent.nextAttemptAt ≤ now)

/-- `findMany`: the ids of the oldest pending intents, up to fifty. -/
def PendingBatch (rows : List DispatchIntent) (now : Instant) (ids : List Uuid) : Prop :=
  ids.Nodup ∧ ids.length ≤ 50 ∧
    (∀ id ∈ ids, ∃ x ∈ rows, x.id = id ∧ x.isPending now = true) ∧
    ∀ x ∈ rows, x.isPending now = true → x.id ∉ ids →
      ids.length = 50 ∧ ∀ y ∈ rows, y.id ∈ ids → y.createdAt ≤ x.createdAt

/-- From its `nextAttemptAt` on, the selection matches an intent and every batch takes it, or fifty
    that are no younger. -/
def Eligible (rows : List DispatchIntent) (x : DispatchIntent) : Prop :=
  ∀ now, x.nextAttemptAt ≤ now → x.isPending now = true ∧ (∃ ids, PendingBatch rows now ids) ∧
    ∀ ids, PendingBatch rows now ids → x.id ∈ ids ∨
      ids.length = 50 ∧ ∀ y ∈ rows, y.id ∈ ids → y.createdAt ≤ x.createdAt

instance (rows : List DispatchIntent) (now : Instant) (ids : List Uuid) :
    Decidable (PendingBatch rows now ids) :=
  inferInstanceAs (Decidable
    (_ ∧ _ ∧ (∀ id ∈ ids, ∃ x ∈ rows, _) ∧ ∀ x ∈ rows, _ → _ → _ ∧ ∀ y ∈ rows, _))

/-- What a call of `publish` records. -/
inductive PublishOutcome
  | delivered (deliveredAt : Instant)
  | failed (nextAttemptAt : Instant) (error : String)
  deriving DecidableEq

/-- The data of the update. -/
def PublishOutcome.data : PublishOutcome → DispatchIntent → DispatchIntent
  | .delivered deliveredAt, x =>
    { x with deliveredAt := some deliveredAt, attempts := x.attempts + 1, error := none }
  | .failed nextAttemptAt error, x =>
    { x with attempts := x.attempts + 1, nextAttemptAt, error := some error }

/-- `where: { id, deliveredAt: null }`. -/
def DispatchIntent.isOpen (id : Uuid) (x : DispatchIntent) : Bool :=
  decide (x.id = id) && x.deliveredAt.isNone

/-- `updateMany` with an outcome; fails when `attempts` leaves the range of its column. -/
def recordOutcome (rows : List DispatchIntent) (id : Uuid) (outcome : PublishOutcome) :
    Option (List DispatchIntent) :=
  if rows.all fun x => !x.isOpen id || isInt32 (x.attempts + 1) then
    some (rows.map fun x => if x.isOpen id then outcome.data x else x)
  else none

/-! ### The payload comes back -/

section events
variable {event validated : ActionEvent}

/-- What the schema has accepted it accepts again, unchanged. -/
theorem parse_parsed (h : event.parse = some validated) : validated.parse = some validated := by
  unfold ActionEvent.parse at h
  simp only [Option.ite_none_right_eq_some, Option.some.injEq] at h
  obtain ⟨⟨hmin, hmax, huser⟩, rfl⟩ := h
  have hmetadata : ∀ metadata : Option (List (String × Json)),
      (metadata.map fun fields => fields.filter fun f => decide (f.1 ≠ "__proto__")).map
        (fun fields => fields.filter fun f => decide (f.1 ≠ "__proto__")) =
      metadata.map fun fields => fields.filter fun f => decide (f.1 ≠ "__proto__") := by
    intro metadata
    cases metadata with
    | none => rfl
    | some fields => simp only [Option.map_some, List.filter_filter, Bool.and_self]
  unfold ActionEvent.parse
  simp only [jsTrim_idem, hmetadata]
  rw [if_pos ⟨hmin, hmax, huser⟩]

/-- The fields of a payload. -/
theorem toJson_field (event : ActionEvent) :
    event.toJson.field "eventId" = some (.str event.eventId) ∧
      event.toJson.field "userId" = some (.str event.userId) ∧
      event.toJson.field "actionType" = some (.str event.actionType.text) ∧
      event.toJson.field "metadata" = event.metadata.map .obj := by
  refine ⟨rfl, rfl, rfl, ?_⟩
  unfold ActionEvent.toJson Json.field
  cases event.metadata <;> rfl

/-- An accepted event comes back from its payload. -/
theorem ofJson_toJson (h : event.parse = some validated) :
    ActionEvent.ofJson validated.toJson = some validated := by
  obtain ⟨heventId, huserId, hactionType, hmetadata⟩ := toJson_field validated
  have hkept : parseMetadata (validated.metadata.map .obj) = some validated.metadata := by
    cases validated.metadata <;> rfl
  unfold ActionEvent.ofJson
  rw [heventId, huserId, hactionType, hmetadata]
  simp only [hkept, ofText_text, Option.bind_eq_bind, Option.bind_some]
  exact parse_parsed h

end events

section rows
variable {rows rows' : List DispatchIntent} {x x' : DispatchIntent} {id : Uuid} {now : Instant}
  {outcome : PublishOutcome}

/-- The job of an intent carries the stored event. -/
theorem purchaseIntent_job {msg : TicketPurchasedDto} {pointsUsed : ℤ} {i : ℕ}
    (h : purchaseIntent id msg pointsUsed i now = some x) :
    ∃ job, x.job = some job ∧ job.id = x.id ∧ job.data.toJson = x.payload := by
  obtain ⟨validated, hv, rfl⟩ := Option.map_eq_some_iff.1 h
  obtain ⟨event, hevent, hparse⟩ := Option.bind_eq_some_iff.1 hv
  refine ⟨⟨id, validated⟩, ?_, rfl, rfl⟩
  unfold DispatchIntent.job
  rw [ofJson_toJson hparse, Option.bind_some, parse_parsed hparse]
  rfl

theorem purchaseIntent_open {msg : TicketPurchasedDto} {pointsUsed : ℤ} {i : ℕ}
    (h : purchaseIntent id msg pointsUsed i now = some x) : x.deliveredAt = none := by
  obtain ⟨validated, -, rfl⟩ := Option.map_eq_some_iff.1 h
  rfl

/-- What becomes of a row: it keeps its key and its payload, and once delivered everything. -/
structure DispatchIntent.Keeps (x x' : DispatchIntent) : Prop where
  id : x'.id = x.id
  key : x'.key = x.key
  payload : x'.payload = x.payload
  createdAt : x'.createdAt = x.createdAt
  delivered : x.deliveredAt.isSome = true → x' = x

theorem DispatchIntent.Keeps.refl (x : DispatchIntent) : x.Keeps x :=
  ⟨rfl, rfl, rfl, rfl, fun _ => rfl⟩

theorem DispatchIntent.Keeps.trans {x'' : DispatchIntent} (h : x.Keeps x') (h' : x'.Keeps x'') :
    x.Keeps x'' where
  id := h'.id.trans h.id
  key := h'.key.trans h.key
  payload := h'.payload.trans h.payload
  createdAt := h'.createdAt.trans h.createdAt
  delivered := by
    intro hd
    rw [← h.delivered hd]
    exact h'.delivered ((h.delivered hd).symm ▸ hd)

/-- The update of one row. -/
def PublishOutcome.write (outcome : PublishOutcome) (id : Uuid) (x : DispatchIntent) :
    DispatchIntent :=
  if x.isOpen id then outcome.data x else x

theorem isOpen_iff : x.isOpen id = true ↔ x.id = id ∧ x.deliveredAt = none := by
  unfold DispatchIntent.isOpen
  simp

/-- Both updates pass over a delivered row. -/
theorem write_keeps (outcome : PublishOutcome) (id : Uuid) (x : DispatchIntent) :
    x.Keeps (outcome.write id x) := by
  unfold PublishOutcome.write
  split
  · rename_i hopen
    have hclosed : ∀ x' : DispatchIntent, x.deliveredAt.isSome = true → x' = x := by
      intro x' hd
      rw [(isOpen_iff.1 hopen).2] at hd
      cases hd
    cases outcome <;> exact ⟨rfl, rfl, rfl, rfl, hclosed _⟩
  · exact .refl x

theorem recordOutcome_eq (h : recordOutcome rows id outcome = some rows') :
    rows' = rows.map (outcome.write id) := by
  unfold recordOutcome at h
  simp only [Option.ite_none_right_eq_some, Option.some.injEq] at h
  exact h.2.symm

/-- A row that an update delivers is the one it names. -/
theorem write_delivered (hd : (outcome.write id x).deliveredAt.isSome = true) :
    x.deliveredAt.isSome = true ∨ x.id = id ∧ ∃ deliveredAt, outcome = .delivered deliveredAt := by
  unfold PublishOutcome.write at hd
  split at hd
  · rename_i hopen
    cases outcome with
    | delivered deliveredAt =>
      exact .inr ⟨(isOpen_iff.1 hopen).1, deliveredAt, rfl⟩
    | failed nextAttemptAt error => exact .inl hd
  · exact .inl hd

/-- Whatever is pending, there is a batch to read. -/
theorem exists_pendingBatch (hids : (rows.map (·.id)).Nodup) (now : Instant) :
    ∃ ids, PendingBatch rows now ids := by
  let older : DispatchIntent → DispatchIntent → Prop := fun a b => a.createdAt ≤ b.createdAt
  have : Std.Total older := ⟨fun a b => Int.le_total _ _⟩
  have : IsTrans DispatchIntent older := ⟨fun a b c hab hbc => Int.le_trans hab hbc⟩
  obtain ⟨batch, hnodup, hlength, hpending, hothers⟩ :=
    Paging.exists_first older ((List.Nodup.of_map _ hids).filter (·.isPending now)) 50
  have hinj : ∀ x ∈ rows, ∀ y ∈ rows, x.id = y.id → x = y :=
    fun x hx y hy => List.inj_on_of_nodup_map hids hx hy
  have hrow : ∀ x ∈ batch, x ∈ rows := fun x hx => List.mem_of_mem_filter (hpending x hx)
  refine ⟨batch.map (·.id), hnodup.map_on fun x hx y hy => hinj x (hrow x hx) y (hrow y hy),
    by simpa using hlength, fun id hid => ?_, fun x hx hpend hnot => ?_⟩
  · obtain ⟨x, hx, rfl⟩ := List.mem_map.1 hid
    exact ⟨x, hrow x hx, rfl, (List.mem_filter.1 (hpending x hx)).2⟩
  · obtain ⟨hfull, holder⟩ := hothers x (List.mem_filter.2 ⟨hx, hpend⟩) fun hin =>
      hnot (List.mem_map_of_mem hin)
    refine ⟨by simpa using hfull, fun y hy hin => ?_⟩
    obtain ⟨z, hz, hid⟩ := List.mem_map.1 hin
    exact hinj z (hrow z hz) y hy hid ▸ holder z hz

theorem eligible_of_open (hids : (rows.map (·.id)).Nodup) (hx : x ∈ rows) (hopen : x.deliveredAt = none) :
    Eligible rows x := by
  intro now hdue
  have hpending : x.isPending now = true := by
    unfold DispatchIntent.isPending
    rw [hopen, decide_eq_true hdue]
    rfl
  refine ⟨hpending, exists_pendingBatch hids now, fun ids hbatch => ?_⟩
  by_cases hin : x.id ∈ ids
  · exact .inl hin
  · exact .inr (hbatch.2.2.2 x hx hpending hin)

end rows

end CinemaLoyalty
