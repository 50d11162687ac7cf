import CinemaLoyalty.Delivery.Replay

/-! @svc DeliveryPublish | layer:system | source:src/loyalty/consumers/confirmed-rmq-publish.ts, src/loyalty/consumers/quarantine-replay.service.ts

    The confirmed publication of a replay. A positive confirm alone is no success: the broker confirms
    an unroutable message as well, after it has sent it back. Everything that can end the call competes
    to settle one promise, and whatever comes first takes the listeners and the timer away
    (`publishConfirmed_settles`). -/

namespace CinemaLoyalty
open Transition

/-! ### publishConfirmed -/

/-- What `publishConfirmed` rejects with. -/
inductive PublishError
  | REPLAY_CHANNEL_CLOSED | REPLAY_CHANNEL_ERROR | REPLAY_CONFIRM_TIMEOUT | REPLAY_NOT_CONFIRMED
  | REPLAY_UNROUTABLE | REPLAY_PUBLISH_FAILED
  deriving DecidableEq

/-- What happens to a call: the channel emits, the callback of `sendToQueue` is called with an error
    or without one, the timer expires, `sendToQueue` throws. -/
inductive ChannelEvent
  | basicReturn
  | confirm (failed : Bool)
  | close
  | error
  | timerExpiry
  | sendThrows
  deriving DecidableEq

/-- The variables of a call, its listeners and timer, and its calls of `resolve` and `reject`. -/
structure PublishCall where
  returned : Bool
  settled : Bool
  timer : Bool
  onReturn : Bool
  onClose : Bool
  onError : Bool
  promise : List (Except PublishError Unit)
  deriving DecidableEq

/-- A call that has set its timer and its listeners. -/
def PublishCall.start : PublishCall where
  returned := false
  settled := false
  timer := true
  onReturn := true
  onClose := true
  onError := true
  promise := []

/-- `finish`. -/
def PublishCall.finish (p : PublishCall) (error : Option PublishError) : PublishCall :=
  if p.settled then p
  else
    { p with
      settled := true, timer := false, onReturn := false, onClose := false, onError := false
      promise := p.promise ++ [match error with | some e => .error e | none => .ok ()] }

/-- The handler of an event, where it is still set. A timer fires once, and `once` takes a listener
    away before it calls it; the callback of `sendToQueue` stays. -/
def PublishCall.handle (p : PublishCall) : ChannelEvent → PublishCall
  | .basicReturn => if p.onReturn then { p with returned := true } else p
  | .confirm failed => p.finish (if failed then some .REPLAY_NOT_CONFIRMED
      else if p.returned then some .REPLAY_UNROUTABLE else none)
  | .close =>
    if p.onClose then PublishCall.finish { p with onClose := false } (some .REPLAY_CHANNEL_CLOSED) else p
  | .error =>
    if p.onError then PublishCall.finish { p with onError := false } (some .REPLAY_CHANNEL_ERROR) else p
  | .timerExpiry =>
    if p.timer then PublishCall.finish { p with timer := false } (some .REPLAY_CONFIRM_TIMEOUT) else p
  | .sendThrows => p.finish (some .REPLAY_PUBLISH_FAILED)

/-- `publishConfirmed` after a sequence of events. -/
def publishConfirmed (events : List ChannelEvent) : PublishCall :=
  events.foldl PublishCall.handle .start

/-! ### Settling once -/

/-- Everything settles the call but a returned message. -/
def ChannelEvent.settles (e : ChannelEvent) : Bool := e ≠ .basicReturn

/-- What an event settles the promise with, after a message came back or before. -/
def ChannelEvent.settlement (returned : Bool) : ChannelEvent → Option (Except PublishError Unit)
  | .basicReturn => none
  | .confirm failed => some (if failed then .error .REPLAY_NOT_CONFIRMED
      else if returned then .error .REPLAY_UNROUTABLE else .ok ())
  | .close => some (.error .REPLAY_CHANNEL_CLOSED)
  | .error => some (.error .REPLAY_CHANNEL_ERROR)
  | .timerExpiry => some (.error .REPLAY_CONFIRM_TIMEOUT)
  | .sendThrows => some (.error .REPLAY_PUBLISH_FAILED)

/-- A call that waits, with everything set. -/
def PublishCall.waiting (returned : Bool) : PublishCall := { PublishCall.start with returned }

/-- A call that is over, with nothing set. -/
def PublishCall.over (returned : Bool) (outcome : Except PublishError Unit) : PublishCall where
  returned := returned
  settled := true
  timer := false
  onReturn := false
  onClose := false
  onError := false
  promise := [outcome]

/-- No listener and no timer of the call remains. -/
structure PublishCall.Released (p : PublishCall) : Prop where
  timer : p.timer = false
  onReturn : p.onReturn = false
  onClose : p.onClose = false
  onError : p.onError = false

section publication
variable {p : PublishCall} {e : ChannelEvent} {returned : Bool}
  {outcome : Except PublishError Unit} {events before after : List ChannelEvent}

@[simp] theorem handle_return : (PublishCall.waiting returned).handle .basicReturn = .waiting true :=
  rfl

theorem settles_iff (returned : Bool) :
    e.settles = true ↔ ∃ outcome, e.settlement returned = some outcome := by
  cases e <;> simp [ChannelEvent.settles, ChannelEvent.settlement]

theorem eq_return (h : e.settles = false) : e = .basicReturn := by
  simpa [ChannelEvent.settles] using h

/-- The first settling event ends the call. -/
theorem handle_settling (h : e.settlement returned = some outcome) :
    (PublishCall.waiting returned).handle e = .over returned outcome := by
  cases e with
  | basicReturn => cases h
  | confirm failed => cases failed <;> cases returned <;> cases h <;> rfl
  | close | error | timerExpiry | sendThrows =>
    cases h
    rfl

/-- Nothing happens to a call that is over. -/
@[simp] theorem handle_over : (PublishCall.over returned outcome).handle e = .over returned outcome := by
  cases e <;> rfl

/-- A call waits or is settled. -/
inductive PublishCall.Shape : PublishCall → Prop
  | waiting (returned : Bool) : Shape (.waiting returned)
  | settled (returned : Bool) (outcome : Except PublishError Unit) : Shape (.over returned outcome)

theorem PublishCall.Shape.handle (h : p.Shape) (e : ChannelEvent) : (p.handle e).Shape := by
  cases h with
  | settled returned outcome =>
    rw [handle_over]
    exact .settled returned outcome
  | waiting returned =>
    cases hsettles : e.settles with
    | true =>
      obtain ⟨outcome, he⟩ := (settles_iff returned).1 hsettles
      rw [handle_settling he]
      exact .settled _ _
    | false =>
      obtain rfl := eq_return hsettles
      exact .waiting true

/-- Returned messages leave the call waiting. -/
theorem publishConfirmed_waiting (h : ∀ e ∈ events, e.settles = false) :
    publishConfirmed events = .waiting (decide (.basicReturn ∈ events)) := by
  induction events using List.reverseRecOn with
  | nil => rfl
  | append_singleton events e ih =>
    obtain rfl := eq_return (h e List.mem_concat_self)
    unfold publishConfirmed at ih ⊢
    rw [List.foldl_concat, ih fun x hx => h x (List.mem_append_left _ hx), handle_return]
    simp

/-- Nothing that follows the first settling event counts. -/
theorem publishConfirmed_over (hbefore : ∀ x ∈ before, x.settles = false)
    (h : e.settlement (decide (.basicReturn ∈ before)) = some outcome) :
    publishConfirmed (before ++ e :: after) =
      .over (decide (.basicReturn ∈ before)) outcome := by
  have hwaiting := publishConfirmed_waiting hbefore
  unfold publishConfirmed at hwaiting ⊢
  rw [List.foldl_append, hwaiting, List.foldl_cons, handle_settling h]
  induction after with
  | nil => rfl
  | cons x after ih => rwa [List.foldl_cons, handle_over]

/-- The first settling event, if there is one. -/
theorem first_settling (events : List ChannelEvent) : (∀ e ∈ events, e.settles = false) ∨
    ∃ before e after, events = before ++ e :: after ∧ (∀ x ∈ before, x.settles = false) ∧
      e.settles = true := by
  cases hfind : events.find? ChannelEvent.settles with
  | none => exact .inl fun e he => Bool.eq_false_iff.2 (List.find?_eq_none.1 hfind e he)
  | some e =>
    obtain ⟨he, before, after, hsplit, hbefore⟩ := List.find?_eq_some_iff_append.1 hfind
    exact .inr ⟨before, e, after, hsplit, fun x hx => by simpa using hbefore x hx, he⟩

end publication

/-- What a sequence of events makes of the promise. -/
structure SettlesOnce (events : List ChannelEvent) : Prop where
  pending : (∀ e ∈ events, e.settles = false) → (publishConfirmed events).promise = []
  first : ∀ before e after outcome, events = before ++ e :: after →
    (∀ x ∈ before, x.settles = false) →
    e.settlement (decide (.basicReturn ∈ before)) = some outcome →
    (publishConfirmed events).promise = [outcome]
  resolves : .ok () ∈ (publishConfirmed events).promise → ∃ before after,
    events = before ++ .confirm false :: after ∧ (∀ x ∈ before, x.settles = false) ∧
      .basicReturn ∉ before
  released : (publishConfirmed events).promise ≠ [] → (publishConfirmed events).Released

/-- Only a positive confirm without a returned message is a success. -/
theorem settlement_ok {e : ChannelEvent} {returned : Bool}
    (h : e.settlement returned = some (.ok ())) : e = .confirm false ∧ returned = false := by
  cases e with
  | confirm failed => cases failed <;> cases returned <;> simp_all [ChannelEvent.settlement]
  | basicReturn | close | error | timerExpiry | sendThrows => cases h

/-- The promise is settled by the first settling event and never again, with success only by a
    positive confirm that no returned message came before, and nothing of the call is left. -/
theorem publishConfirmed_settles (events : List ChannelEvent) : SettlesOnce events where
  pending h := by
    rw [publishConfirmed_waiting h]
    rfl
  first before e after outcome hsplit hbefore he := by
    rw [hsplit, publishConfirmed_over hbefore he]
    rfl
  resolves h := by
    rcases first_settling events with hnone | ⟨before, e, after, rfl, hbefore, hsettles⟩
    · rw [publishConfirmed_waiting hnone] at h
      cases h
    · obtain ⟨outcome, he⟩ := (settles_iff (decide (.basicReturn ∈ before))).1 hsettles
      rw [publishConfirmed_over hbefore he] at h
      obtain rfl := List.mem_singleton.1 h
      obtain ⟨rfl, hreturned⟩ := settlement_ok he
      exact ⟨before, after, rfl, hbefore, of_decide_eq_false hreturned⟩
  released h := by
    rcases first_settling events with hnone | ⟨before, e, after, rfl, hbefore, hsettles⟩
    · rw [publishConfirmed_waiting hnone] at h
      exact absurd rfl h
    · obtain ⟨outcome, he⟩ := (settles_iff (decide (.basicReturn ∈ before))).1 hsettles
      rw [publishConfirmed_over hbefore he]
      exact ⟨rfl, rfl, rfl, rfl⟩

/-! ### Replays over channels -/

/-- The channel of an operator: the publication on it with its body, whether `sendToQueue` took the
    message, the broker's routing and answer to it, and the frames that have not arrived. -/
structure ChannelState where
  body : Buffer
  publication : PublishCall
  sent : Bool
  answer : Option (Bool × List ChannelEvent) := none
  frames : List ChannelEvent := []
  deriving DecidableEq

/-- The operators' calls and their channels. -/
structure PublishState (Copy Operator : Type) where
  replays : ReplayState Copy Operator
  channels : Operator → Option ChannelState

/-- What happens beside the awaits before the publication: `publishConfirmed` is called, the broker
    takes the message and answers, its next frame arrives, something else happens on the channel or
    to the timer, and the call goes on with the settled promise. -/
inductive PublishAction (Copy Operator : Type)
  | replay (a : ReplayAction Copy Operator)
  | send (o : Operator) (throws : Bool)
  | answer (o : Operator) (routed : Bool) (frames : List ChannelEvent)
  | deliver (o : Operator)
  | disturb (o : Operator) (e : ChannelEvent)
  | settle (o : Operator)

/-- No positive confirm before the first returned message. -/
def returnedFirst (frames : List ChannelEvent) : Bool :=
  decide (.confirm false ∉ frames.takeWhile (· ≠ .basicReturn))

section machine
variable {Copy Operator : Type} [DecidableEq Copy] [DecidableEq Operator] (D : Deployment Copy)
  (R : Replays Operator)

/-- The state after a channel changed. -/
def PublishState.put (s : PublishState Copy Operator) (o : Operator) (channel : ChannelState) :
    PublishState Copy Operator :=
  { s with channels := Function.update s.channels o (some channel) }

/-- A step of the calls beside their channels. -/
def Replays.callStep (a : ReplayAction Copy Operator) (s : PublishState Copy Operator) :
    Option (PublishState Copy Operator) :=
  (R.step D a s.replays).map fun replays => { s with replays }

/-- The state after an action; `none` where it cannot happen. The broker answers a message as it
    likes, but sends an unroutable one back before it confirms it, and only it confirms positively.
    An operator waits for the promise alone while it publishes. -/
def Replays.publishStep : PublishAction Copy Operator → PublishState Copy Operator →
    Option (PublishState Copy Operator)
  | .replay (.publish _ _ _), _ => none
  | .replay (.lose o), s =>
    match s.replays.calls o with
    | .publishing _ => none
    | _ => R.callStep D (.lose o) s
  | .replay a, s => R.callStep D a s
  | .send o throws, s =>
    match s.replays.calls o, s.channels o with
    | .publishing body, none =>
      some (s.put o
        { body, sent := !throws,
          publication := if throws then PublishCall.start.handle .sendThrows else .start })
    | _, _ => none
  | .answer o routed frames, s =>
    (s.channels o).bind fun channel =>
      if channel.sent = true ∧ channel.answer = none ∧
          (routed = true ∨ returnedFirst frames = true) then
        some (s.put o { channel with answer := some (routed, frames), frames })
      else none
  | .deliver o, s =>
    (s.channels o).bind fun channel =>
      match channel.frames with
      | e :: frames =>
        some (s.put o { channel with publication := channel.publication.handle e, frames })
      | [] => none
  | .disturb o e, s =>
    (s.channels o).bind fun channel =>
      if e = .confirm false then none
      else some (s.put o { channel with publication := channel.publication.handle e })
  | .settle o, s =>
    (s.channels o).bind fun channel =>
      channel.publication.promise.head?.bind fun outcome =>
        R.callStep D (.publish o (channel.answer.any (·.1)) (decide (outcome = .ok ()))) s

/-- No call begun and no channel used. -/
def Replays.publishMachine : System (PublishState Copy Operator) (PublishAction Copy Operator) where
  first := { replays := (R.machine D).first, channels := fun _ => none }
  step := R.publishStep D

end machine

/-! ### What a channel knows -/

section channels
variable {channel : ChannelState} {e : ChannelEvent} {frames : List ChannelEvent}

/-- What holds of a channel: its call waits or is over, the frames under way are the rest of the
    answer, a message that is not routed comes back before a positive confirm does, and a resolved
    promise means that the message was routed and confirmed. -/
structure ChannelState.Sound (channel : ChannelState) : Prop where
  shape : channel.publication.Shape
  pending : channel.answer = none → channel.frames = []
  rest : ∀ {routed frames}, channel.answer = some (routed, frames) → channel.frames <:+ frames
  returned : ∀ {frames}, channel.answer = some (false, frames) → channel.publication.returned = true ∨
    channel.publication.settled = true ∨ returnedFirst channel.frames = true
  resolved : .ok () ∈ channel.publication.promise →
    ∃ frames, channel.answer = some (true, frames) ∧ .confirm false ∈ frames

/-- Only a positive confirm resolves, and only a call that waits with no message returned. -/
theorem handle_resolves {p : PublishCall} (h : p.Shape) (hok : .ok () ∈ (p.handle e).promise) :
    .ok () ∈ p.promise ∨ e = .confirm false ∧ p = .waiting false := by
  cases h with
  | settled returned outcome =>
    rw [handle_over] at hok
    exact .inl hok
  | waiting returned =>
    cases hsettles : e.settles with
    | false =>
      obtain rfl := eq_return hsettles
      cases hok
    | true =>
      obtain ⟨outcome, he⟩ := (settles_iff returned).1 hsettles
      rw [handle_settling he] at hok
      obtain rfl := List.mem_singleton.1 hok
      obtain ⟨rfl, rfl⟩ := settlement_ok he
      exact .inr ⟨rfl, rfl⟩

/-- An event other than a return settles a call that waits. -/
theorem handle_doubts {p : PublishCall} (h : p.Shape) (e : ChannelEvent) :
    (p.handle e).returned = true ∨ (p.handle e).settled = true := by
  cases h with
  | settled returned outcome =>
    rw [handle_over]
    exact .inr rfl
  | waiting returned =>
    cases hsettles : e.settles with
    | false =>
      obtain rfl := eq_return hsettles
      exact .inl rfl
    | true =>
      obtain ⟨outcome, he⟩ := (settles_iff returned).1 hsettles
      rw [handle_settling he]
      exact .inr rfl

/-- What the promise is settled with stays. -/
theorem handle_keeps {p : PublishCall} {outcome : Except PublishError Unit} (h : p.Shape)
    (hp : outcome ∈ p.promise) (e : ChannelEvent) : outcome ∈ (p.handle e).promise := by
  cases h with
  | waiting returned => cases hp
  | settled returned outcome' => rwa [handle_over]

theorem ChannelState.Sound.start (body : Buffer) (throws : Bool) :
    ChannelState.Sound
      { body, sent := !throws
        publication := if throws then PublishCall.start.handle .sendThrows else .start } := by
  cases throws with
  | true => exact ⟨.settled false _, fun _ => rfl, nofun, nofun, fun h => by cases List.mem_singleton.1 h⟩
  | false => exact ⟨.waiting false, fun _ => rfl, nofun, nofun, nofun⟩

theorem ChannelState.Sound.answer {routed : Bool} (h : channel.Sound) (hnone : channel.answer = none)
    (hanswer : routed = true ∨ returnedFirst frames = true) :
    ChannelState.Sound { channel with answer := some (routed, frames), frames } where
  shape := h.shape
  pending := nofun
  rest := by
    rintro _ _ ⟨⟩
    exact List.suffix_refl _
  returned := by
    rintro _ ⟨⟩
    exact .inr (.inr (hanswer.resolve_left Bool.false_ne_true))
  resolved hok := by
    obtain ⟨frames', hsome, -⟩ := h.resolved hok
    rw [hnone] at hsome
    cases hsome

/-- A positive confirm that is under way comes from the broker's answer, and is not of a message that
    was neither routed nor sent back. -/
theorem ChannelState.Sound.confirmed {rest : List ChannelEvent} (h : channel.Sound)
    (hwaiting : channel.publication = .waiting false)
    (hframes : channel.frames = .confirm false :: rest) :
    ∃ frames, channel.answer = some (true, frames) ∧ .confirm false ∈ frames := by
  obtain ⟨⟨routed, frames⟩, hanswer⟩ : ∃ answer, channel.answer = some answer := by
    rw [← Option.ne_none_iff_exists']
    intro hnone
    rw [h.pending hnone] at hframes
    cases hframes
  have hmem : .confirm false ∈ frames :=
    (h.rest hanswer).subset (by rw [hframes]; exact List.mem_cons_self)
  cases routed with
  | true => exact ⟨frames, hanswer, hmem⟩
  | false =>
    rcases h.returned hanswer with hreturned | hsettled | hfirst
    · rw [hwaiting] at hreturned
      cases hreturned
    · rw [hwaiting] at hsettled
      cases hsettled
    · rw [hframes] at hfirst
      simp [returnedFirst] at hfirst

/-- Handling an event keeps what a channel knows, if a positive confirm came from the broker. -/
theorem ChannelState.Sound.handle {frames' : List ChannelEvent} (h : channel.Sound)
    (he : e = .confirm false → ∃ rest, channel.frames = e :: rest)
    (hframes : frames' <:+ channel.frames) :
    ChannelState.Sound
      { channel with publication := channel.publication.handle e, frames := frames' } where
  shape := h.shape.handle e
  pending hnone := by
    rw [h.pending hnone] at hframes
    exact List.suffix_nil.1 hframes
  rest hanswer := hframes.trans (h.rest hanswer)
  returned _ := (handle_doubts h.shape e).imp_right .inl
  resolved hok := by
    rcases handle_resolves h.shape hok with hbefore | ⟨rfl, hwaiting⟩
    · exact h.resolved hbefore
    · obtain ⟨rest, hrest⟩ := he rfl
      exact h.confirmed hwaiting hrest

end channels

/-! ### Runs over channels -/

section calls
variable {Copy Operator : Type} {D : Deployment Copy} {R : Replays Operator}
  {s : PublishState Copy Operator} {r r' : ReplayState Copy Operator} {o : Operator}

/-- A body that a call carries has the delivery id of the call. -/
def Replays.Carries (D : Deployment Copy) (R : Replays Operator) (o : Operator) : ReplayPhase → Prop
  | .found body _ | .stopped body _ | .replayed body | .publishing body =>
    inboundDeliveryId D.sha256 D.queue body = R.deliveryId o
  | .idle | .published | .threw _ => True

theorem start_carries (D : Deployment Copy) (R : Replays Operator) (o : Operator) (s : State Copy) :
    R.Carries D o (R.start D o s) ∧ R.start D o s ≠ .published := by
  unfold Replays.start
  split
  · exact ⟨trivial, nofun⟩
  · split
    · exact ⟨trivial, nofun⟩
    · split
      · exact ⟨trivial, nofun⟩
      · split
        · exact ⟨trivial, nofun⟩
        · rename_i hid
          exact ⟨not_not.1 hid, nofun⟩

/-- A call moves on with the body it carries, and is published only by the end of its publication. -/
structure Replays.Moves (D : Deployment Copy) (R : Replays Operator) (a : ReplayAction Copy Operator)
    (r r' : ReplayState Copy Operator) : Prop where
  carries : ∀ o, R.Carries D o (r.calls o) → R.Carries D o (r'.calls o)
  published : ∀ o, r'.calls o = .published → r.calls o = .published ∨ ∃ enqueued, a = .publish o enqueued true

/-- What holds between calls and channels: bodies have the delivery ids of their calls, channels are
    sound, and a call that has published has a resolved promise. -/
structure Replays.Published (D : Deployment Copy) (R : Replays Operator)
    (s : PublishState Copy Operator) : Prop where
  carries : ∀ o, R.Carries D o (s.replays.calls o)
  sound : ∀ {o channel}, s.channels o = some channel → channel.Sound ∧
    inboundDeliveryId D.sha256 D.queue channel.body = R.deliveryId o
  resolved : ∀ {o}, s.replays.calls o = .published →
    ∃ channel, s.channels o = some channel ∧ .ok () ∈ channel.publication.promise

theorem Replays.Published.ok_mem {channel : ChannelState} (hs : R.Published D s)
    (hchannel : s.channels o = some channel) (hpublished : s.replays.calls o = .published) :
    .ok () ∈ channel.publication.promise := by
  obtain ⟨channel', hchannel', hok⟩ := hs.resolved hpublished
  obtain rfl := Option.some.inj (hchannel.symm.trans hchannel')
  exact hok

variable [DecidableEq Operator]

theorem moves_put {p : ReplayPhase} {a : ReplayAction Copy Operator} (o : Operator)
    (hcalls : r'.calls = Function.update r.calls o p)
    (hcarries : R.Carries D o (r.calls o) → R.Carries D o p)
    (hpublished : p = .published → ∃ enqueued, a = .publish o enqueued true) : R.Moves D a r r' := by
  constructor
  · intro o' h
    rw [hcalls]
    by_cases ho : o' = o
    · subst ho
      rw [Function.update_self]
      exact hcarries h
    · rwa [Function.update_of_ne ho]
  · intro o' h
    rw [hcalls] at h
    by_cases ho : o' = o
    · subst ho
      rw [Function.update_self] at h
      exact .inr (hpublished h)
    · rw [Function.update_of_ne ho] at h
      exact .inl h

theorem put_channels (s : PublishState Copy Operator) (o o' : Operator) (channel : ChannelState) :
    (s.put o channel).channels o' = if o' = o then some channel else s.channels o' :=
  Function.update_apply s.channels o (some channel) o'

/-- A channel that keeps its soundness and what its promise is settled with. -/
theorem Replays.Published.put {channel : ChannelState} (hs : R.Published D s)
    (hsound : channel.Sound)
    (hid : inboundDeliveryId D.sha256 D.queue channel.body = R.deliveryId o)
    (hresolved : s.replays.calls o = .published → .ok () ∈ channel.publication.promise) :
    R.Published D (s.put o channel) := by
  refine ⟨hs.carries, fun {o' channel'} hchannel => ?_, fun {o'} hpublished => ?_⟩
  · rw [put_channels] at hchannel
    split at hchannel
    · rename_i ho
      subst ho
      cases hchannel
      exact ⟨hsound, hid⟩
    · exact hs.sound hchannel
  · rw [put_channels]
    split
    · rename_i ho
      subst ho
      exact ⟨channel, rfl, hresolved hpublished⟩
    · exact hs.resolved hpublished

end calls

section runs
variable {Copy Operator : Type} [DecidableEq Copy] [DecidableEq Operator] {D : Deployment Copy}
  {R : Replays Operator} {s s' : PublishState Copy Operator} {r r' : ReplayState Copy Operator}
  {o : Operator}

theorem step_moves {a : ReplayAction Copy Operator} (h : R.step D a r = some r') : R.Moves D a r r' := by
  cases a with
  | consume b =>
    have hcalls : r'.calls = r.calls := by
      cases b with
      | replay id replayId => cases h
      | _ =>
        obtain ⟨delivery, -, rfl⟩ := Option.map_eq_some_iff.1 h
        rfl
    exact ⟨fun o => by rw [hcalls]; exact id, fun o => by rw [hcalls]; exact .inl⟩
  | read o =>
    simp only [Replays.step] at h
    split at h
    · cases h
      obtain ⟨hcarries, hne⟩ := start_carries D R o r.delivery
      exact moves_put o rfl (fun _ => hcarries) fun hp => absurd hp hne
    · cases h
  | checkBefore o consumerCount =>
    simp only [Replays.step] at h
    split at h
    · rename_i body usedId hfound
      cases h
      refine moves_put o rfl (fun hcarries => ?_) fun hp => ?_
      · rw [hfound] at hcarries
        split
        · trivial
        · exact hcarries
      · split at hp <;> cases hp
    · cases h
  | update o answered =>
    simp only [Replays.step] at h
    split at h
    · rename_i body usedId replayId hstopped hid
      cases h
      refine moves_put o rfl (fun hcarries => ?_) fun hp => ?_
      · rw [hstopped] at hcarries
        split
        · trivial
        · split
          · trivial
          · exact hcarries
      · split at hp
        · cases hp
        · split at hp <;> cases hp
    · cases h
  | checkAfter o consumerCount =>
    simp only [Replays.step] at h
    split at h
    · rename_i body hreplayed
      cases h
      refine moves_put o rfl (fun hcarries => ?_) fun hp => ?_
      · rw [hreplayed] at hcarries
        split
        · trivial
        · exact hcarries
      · split at hp <;> cases hp
    · cases h
  | publish o enqueued confirmed =>
    simp only [Replays.step] at h
    split at h
    · cases h
      refine moves_put o rfl (fun _ => ?_) fun hp => ?_
      · split <;> trivial
      · cases confirmed with
        | true => exact ⟨enqueued, rfl⟩
        | false => cases hp
    · cases h
  | lose o =>
    simp only [Replays.step] at h
    split at h
    · cases h
    · cases h
    · cases h
    · cases h
      exact moves_put o rfl (fun _ => trivial) fun hp => by cases hp

/-- A step of the calls that is no publication. -/
theorem Replays.Published.call {a : ReplayAction Copy Operator} (hs : R.Published D s)
    (ha : ∀ o enqueued, a = .publish o enqueued true →
      ∃ channel, s.channels o = some channel ∧ .ok () ∈ channel.publication.promise)
    (h : R.callStep D a s = some s') : R.Published D s' := by
  obtain ⟨r', hstep, rfl⟩ := Option.map_eq_some_iff.1 h
  have hmoves := step_moves hstep
  refine ⟨fun o => hmoves.carries o (hs.carries o), hs.sound, fun {o} hpublished => ?_⟩
  rcases hmoves.published o hpublished with hbefore | ⟨enqueued, rfl⟩
  · exact hs.resolved hbefore
  · exact ha o enqueued rfl

theorem published_step {a : PublishAction Copy Operator} (hs : R.Published D s)
    (h : R.publishStep D a s = some s') : R.Published D s' := by
  cases a with
  | replay a =>
    cases a with
    | publish o enqueued confirmed => cases h
    | lose o =>
      simp only [Replays.publishStep] at h
      split at h
      · cases h
      · exact hs.call (fun o' enqueued ha => by cases ha) h
    | consume | read | checkBefore | update | checkAfter =>
      exact hs.call (fun o' enqueued ha => by cases ha) h
  | send o throws =>
    simp only [Replays.publishStep] at h
    split at h
    · rename_i body hcall hchannel
      cases h
      have hid := hs.carries o
      rw [hcall] at hid
      exact hs.put (.start body throws) hid fun hpublished => by rw [hcall] at hpublished; cases hpublished
    · cases h
  | answer o routed frames =>
    obtain ⟨channel, hchannel, h⟩ := Option.bind_eq_some_iff.1 h
    split at h
    · rename_i hanswer
      cases h
      obtain ⟨hsound, hid⟩ := hs.sound hchannel
      refine hs.put (hsound.answer hanswer.2.1 hanswer.2.2) hid fun hpublished => ?_
      have hok := hs.ok_mem hchannel hpublished
      exact hok
    · cases h
  | deliver o =>
    obtain ⟨channel, hchannel, h⟩ := Option.bind_eq_some_iff.1 h
    obtain ⟨hsound, hid⟩ := hs.sound hchannel
    split at h
    · rename_i e frames hframes
      cases h
      refine hs.put (hsound.handle (fun _ => ⟨frames, hframes⟩) ?_) hid fun hpublished => ?_
      · rw [hframes]
        exact List.suffix_cons e frames
      · exact handle_keeps hsound.shape (hs.ok_mem hchannel hpublished) e
    · cases h
  | disturb o e =>
    obtain ⟨channel, hchannel, h⟩ := Option.bind_eq_some_iff.1 h
    obtain ⟨hsound, hid⟩ := hs.sound hchannel
    split at h
    · cases h
    · rename_i he
      cases h
      exact hs.put (hsound.handle (fun hconfirm => absurd hconfirm he) (List.suffix_refl _)) hid
        fun hpublished => handle_keeps hsound.shape (hs.ok_mem hchannel hpublished) e
  | settle o =>
    obtain ⟨channel, hchannel, h⟩ := Option.bind_eq_some_iff.1 h
    obtain ⟨outcome, houtcome, h⟩ := Option.bind_eq_some_iff.1 h
    refine hs.call (fun o' enqueued ha => ?_) h
    cases houtcome' : decide (outcome = .ok ()) with
    | false =>
      rw [houtcome'] at ha
      cases ha
    | true =>
      rw [houtcome'] at ha
      cases ha
      obtain rfl := of_decide_eq_true houtcome'
      exact ⟨channel, hchannel, List.mem_of_mem_head? houtcome⟩

theorem published_reached (hr : (R.publishMachine D).Reached s) : R.Published D s :=
  hr.invariant ⟨fun _ => trivial, nofun, nofun⟩ fun h hs => published_step hs h

/-- Every step is one of the calls, or leaves them alone. -/
theorem publishStep_calls {a : PublishAction Copy Operator} (h : R.publishStep D a s = some s') :
    s'.replays = s.replays ∨ ∃ b, R.step D b s.replays = some s'.replays := by
  have hcall : ∀ {b}, R.callStep D b s = some s' → ∃ b, R.step D b s.replays = some s'.replays := by
    intro b hb
    obtain ⟨r', hstep, rfl⟩ := Option.map_eq_some_iff.1 hb
    exact ⟨b, hstep⟩
  cases a with
  | replay a =>
    cases a with
    | publish o enqueued confirmed => cases h
    | lose o =>
      simp only [Replays.publishStep] at h
      split at h
      · cases h
      · exact .inr (hcall h)
    | consume | read | checkBefore | update | checkAfter => exact .inr (hcall h)
  | send o throws =>
    simp only [Replays.publishStep] at h
    split at h <;> cases h
    exact .inl rfl
  | answer o routed frames =>
    obtain ⟨channel, -, h⟩ := Option.bind_eq_some_iff.1 h
    split at h <;> cases h
    exact .inl rfl
  | deliver o =>
    obtain ⟨channel, -, h⟩ := Option.bind_eq_some_iff.1 h
    split at h <;> cases h
    exact .inl rfl
  | disturb o e =>
    obtain ⟨channel, -, h⟩ := Option.bind_eq_some_iff.1 h
    split at h <;> cases h
    exact .inl rfl
  | settle o =>
    obtain ⟨channel, -, h⟩ := Option.bind_eq_some_iff.1 h
    obtain ⟨outcome, -, h⟩ := Option.bind_eq_some_iff.1 h
    exact .inr (hcall h)

/-- The calls over channels are calls whose publications end in one step: what holds of every run of
    `Replays.machine` holds of them. -/
theorem publishMachine_refines (hr : (R.publishMachine D).Reached s) :
    (R.machine D).Reached s.replays := by
  have hfirst : (R.machine D).Reached (R.publishMachine D).first.replays := .refl
  refine hr.invariant (I := fun s => (R.machine D).Reached s.replays) hfirst fun h hs => ?_
  rcases publishStep_calls h with hsame | ⟨b, hstep⟩
  · rwa [hsame]
  · exact hs.tail ⟨b, trivial, hstep⟩

end runs

/-- Whatever happens during `publishConfirmed`, its promise is settled by the first settling event and
    never again, with success only by a positive confirm before which no message came back, and a
    settled call keeps no listener and no timer. A replay that has published has had its message
    routed to the queue and confirmed, and the delivery id of the message is the replayed id. -/
theorem replay_publishes {Copy Operator : Type} [DecidableEq Copy] [DecidableEq Operator]
    (D : Deployment Copy) (R : Replays Operator) :
    (∀ events, SettlesOnce events) ∧
    ∀ s, (R.publishMachine D).Reached s → ∀ o, s.replays.calls o = .published →
      ∃ channel frames, s.channels o = some channel ∧ channel.answer = some (true, frames) ∧
        .confirm false ∈ frames ∧
        inboundDeliveryId D.sha256 D.queue channel.body = R.deliveryId o := by
  refine ⟨publishConfirmed_settles, fun s hr o hpublished => ?_⟩
  have hs := published_reached hr
  obtain ⟨channel, hchannel, hok⟩ := hs.resolved hpublished
  obtain ⟨hsound, hid⟩ := hs.sound hchannel
  obtain ⟨frames, hanswer, hconfirm⟩ := hsound.resolved hok
  exact ⟨channel, frames, hchannel, hanswer, hconfirm, hid⟩

/-- An operator publishes, and the broker routes and confirms the message. -/
def publishes (o : Fin 3) : List (PublishAction (Fin 3) (Fin 3)) :=
  [.replay (.read o), .replay (.checkBefore o 0), .replay (.update o true), .replay (.checkAfter o 0),
    .send o false, .answer o true [.confirm false], .deliver o, .settle o]

/-- A quarantined delivery is replayed and its message published. -/
theorem replay_publishes_once : ∃ s, (firstIdAgain.publishMachine threeCopies).Reached s ∧
    s.replays.calls 0 = .published ∧
    ∃ channel frames, s.channels 0 = some channel ∧ channel.answer = some (true, frames) ∧
      .confirm false ∈ frames ∧
      inboundDeliveryId threeCopies.sha256 threeCopies.queue channel.body =
        firstIdAgain.deliveryId 0 := by
  obtain ⟨s, hs, hp⟩ := (firstIdAgain.publishMachine threeCopies).reached_of_exec
    ((quarantines 0).map .replay ++ publishes 0)
    (fun s => match s.replays.calls 0 with | .published => true | _ => false) (by decide +kernel)
  have hpublished : s.replays.calls 0 = .published := by
    split at hp
    · assumption
    · cases hp
  exact ⟨s, hs, hpublished, (replay_publishes threeCopies firstIdAgain).2 s hs 0 hpublished⟩

/-- The broker confirms a message that it could not route. -/
example : (publishConfirmed [.basicReturn, .confirm false]).promise = [.error .REPLAY_UNROUTABLE] := by
  decide

end CinemaLoyalty
