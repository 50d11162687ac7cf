import CinemaLoyalty.Delivery.Rows
import CinemaLoyalty.Environment
import CinemaLoyalty.Numbers
import CinemaLoyalty.Outbox.Publisher

/-! @svc EnvironmentRules | layer:property | source:src/config/env.schema.ts, src/config/rabbitmq.config.ts, src/bootstrap/register-transports.ts

    What an accepted environment promises. The lease outlasts the publish timeout and the retry delays
    are ordered, whether the numbers were given or derived. Nothing keeps the events the service
    emits out of the queue it consumes: `QueuesCollide` says which environments bind both to one. -/

namespace CinemaLoyalty
open Validation

/-- The rules between variables. -/
structure RuntimeFields.CrossFieldRules (env : RuntimeEnv) : Prop where
  timeout_lt : env.OUTBOX_PUBLISH_TIMEOUT_MS < env.OUTBOX_LEASE_MS
  lease_le : env.OUTBOX_LEASE_MS ≤ 2147483647
  retry_le : env.RMQ_RETRY_BASE_MS ≤ env.RMQ_RETRY_MAX_MS
  queues_ne : env.RMQ_LOYALTY_EVENTS_QUEUE ≠ env.RMQ_QUEUE

/-- One name is given for both queues, or one queue is given the name the other has by default. -/
def QueuesCollide (value : String → EnvValue) : Prop :=
  (∃ name, value "RMQ_QUEUE" = .string name ∧ value "RMQ_LOYALTY_EVENTS_QUEUE" = .string name) ∨
  (value "RMQ_QUEUE" = .undefined ∧
    value "RMQ_LOYALTY_EVENTS_QUEUE" = .string "loyalty_ticket_purchased") ∨
  (value "RMQ_QUEUE" = .string "loyalty.events" ∧ value "RMQ_LOYALTY_EVENTS_QUEUE" = .undefined)

/-- Only an object can name queues. -/
def EnvInput.QueuesCollide : EnvInput → Prop
  | .record value => CinemaLoyalty.QueuesCollide value
  | .other => False

/-- The keys that an error can name, in the order in which it names them. -/
def RUNTIME_KEYS : List String :=
  ["DATABASE_URL", "RMQ_URL", "RMQ_QUEUE", "PORT", "GRPC_URL", "FRONTEND_URL", "INTERNAL_API_KEY",
    "REDIS_HOST", "REDIS_PORT", "REDIS_PASSWORD", "RMQ_LOYALTY_EVENTS_QUEUE",
    "OUTBOX_PUBLISH_TIMEOUT_MS", "OUTBOX_LEASE_MS", "OUTBOX_PUBLISH_CONCURRENCY",
    "RMQ_MAX_ATTEMPTS", "RMQ_PREFETCH", "RMQ_RETRY_BASE_MS", "RMQ_RETRY_MAX_MS",
    "RMQ_DELIVERY_LEASE_MS"]

section schemas
variable {N : NodeRuntime} {value : String → EnvValue} {given : EnvValue} {min max n : ℤ}
  {s name : String} {env : RuntimeEnv}

/-- A text of digits within the bounds is accepted as the number it writes. -/
theorem integer_text (hmax : max < 2 ^ 53) (h : isDigits s = true)
    (hn : digitsValue s.toList = n) (h₁ : min ≤ n) (h₂ : n ≤ max) :
    integer min max (.string s) = some n := by
  have hshape := h
  unfold isDigits at hshape
  rw [Bool.and_eq_true, List.all_eq_true, Bool.not_eq_true', List.isEmpty_eq_false_iff] at hshape
  obtain ⟨m, hm, hval⟩ := digitsNat_digits hshape.2 hshape.1
  obtain rfl : n = (m : ℤ) := hn.symm.trans hval
  have habs : |(m : ℤ)| < 2 ^ 53 := by
    rw [abs_of_nonneg (Int.natCast_nonneg m)]
    exact h₂.trans_lt hmax
  have hsafe : |(m : ℤ)| ≤ 9007199254740991 := by
    have hpow : (2 : ℤ) ^ 53 = 9007199254740992 := by norm_num
    omega
  have hnumber : stringToNumber s = .fin ((m : ℤ) : ℚ) := by
    rw [stringToNumber_digits hshape.2 hshape.1 hm, ← ofRat_int habs, Int.cast_natCast]
  unfold integer zInt
  simp only [h, if_true, hnumber, zNumber, Option.bind_some, Rat.num_intCast, Rat.den_intCast]
  rw [if_pos ⟨trivial, hsafe, h₁, h₂⟩]

theorem default_ok {α : Type} {schema : EnvSchema α} {fallback a : α} :
    schema.default fallback given = some a ↔
      given = .undefined ∧ a = fallback ∨ given ≠ .undefined ∧ schema given = some a := by
  cases given <;> simp [EnvSchema.default, eq_comm]

/-- A queue name is a text that is not blank. -/
theorem nonBlank_ok : nonBlank given = some name → given = .string name := by
  intro h
  unfold nonBlank EnvSchema.refine at h
  rw [Option.filter_eq_some_iff] at h
  cases given with
  | string s => exact congrArg _ (Option.some.inj h.1)
  | undefined | number | other => cases h.1

theorem crossFieldIssues_nil : crossFieldIssues env = [] ↔
    env.OUTBOX_PUBLISH_TIMEOUT_MS < env.OUTBOX_LEASE_MS ∧ env.OUTBOX_LEASE_MS ≤ 2147483647 ∧
      env.RMQ_RETRY_BASE_MS ≤ env.RMQ_RETRY_MAX_MS := by
  unfold crossFieldIssues
  rw [List.append_eq_nil_iff]
  split <;> split <;> simp <;> omega

/-- An accepted environment is a record whose fields were accepted, with its lease derived, and
    without issues between them. -/
theorem runtimeEnvSchema_ok {input : EnvInput} (h : runtimeEnvSchema N input = .ok env) :
    ∃ value fields, input = .record value ∧ runtimeShape N value = .ok fields ∧
      env = deriveLease fields ∧ crossFieldIssues env = [] := by
  unfold runtimeEnvSchema at h
  obtain ⟨hfields, hissues⟩ := Checked.refine_ok.1 h
  obtain ⟨fields, hshape, rfl⟩ := Checked.map_ok.1 hfields
  cases input with
  | record value => exact ⟨value, fields, rfl, hshape, rfl, hissues⟩
  | other => cases hshape

/-- A variable with bounds, given or left to a default within them. -/
theorem integer_range {fallback : ℤ} (hfallback : min ≤ fallback ∧ fallback ≤ max)
    (h : (integer min max).default fallback given = some n) : min ≤ n ∧ n ≤ max := by
  rcases default_ok.1 h with ⟨-, rfl⟩ | ⟨-, hgiven⟩
  · exact hfallback
  · unfold integer zInt at hgiven
    obtain ⟨q, -, hq⟩ := Option.bind_eq_some_iff.1 hgiven
    simp only [Option.ite_none_right_eq_some, Option.some.injEq] at hq
    obtain ⟨⟨-, -, hmin, hmax⟩, rfl⟩ := hq
    exact ⟨hmin, hmax⟩

/-- The bounds of the numbers that leases, retries and waves are made of. -/
structure RuntimeFields.Ranges {lease : Type} (fields : RuntimeFields lease) : Prop where
  timeout : 1 ≤ fields.OUTBOX_PUBLISH_TIMEOUT_MS ∧ fields.OUTBOX_PUBLISH_TIMEOUT_MS ≤ 2147483647
  concurrency : 1 ≤ fields.OUTBOX_PUBLISH_CONCURRENCY ∧ fields.OUTBOX_PUBLISH_CONCURRENCY ≤ 50
  attempts : 1 ≤ fields.RMQ_MAX_ATTEMPTS ∧ fields.RMQ_MAX_ATTEMPTS ≤ 10
  retryBase : 50 ≤ fields.RMQ_RETRY_BASE_MS ∧ fields.RMQ_RETRY_BASE_MS ≤ 60000
  retryMax : 50 ≤ fields.RMQ_RETRY_MAX_MS ∧ fields.RMQ_RETRY_MAX_MS ≤ 300000
  deliveryLease : 10000 ≤ fields.RMQ_DELIVERY_LEASE_MS ∧ fields.RMQ_DELIVERY_LEASE_MS ≤ 300000

/-- The queues and the numbers of an accepted record. -/
theorem runtimeShape_ok {fields : RuntimeFields (Option ℤ)}
    (h : runtimeShape N value = .ok fields) :
    (nonBlank.default "loyalty_ticket_purchased" (value "RMQ_QUEUE") = some fields.RMQ_QUEUE ∧
      nonBlank.default "loyalty.events" (value "RMQ_LOYALTY_EVENTS_QUEUE") =
        some fields.RMQ_LOYALTY_EVENTS_QUEUE) ∧ fields.Ranges := by
  revert fields
  unfold runtimeShape replayShape key
  simp only [Checked.seq_forall, Checked.map_forall, Checked.field_ok]
  -- a value and its check for each field, from the first
  intro _ _ _ _ _ hqueue _ _ _ _ _ _ _ _ _ _ _ _ _ _ _ hevents _ htimeout _ _ _ hconcurrency
    _ hattempts _ _ _ hbase _ hmax _ hlease
  exact ⟨⟨hqueue, hevents⟩, integer_range (by decide) htimeout,
    integer_range (by decide) hconcurrency, integer_range (by decide) hattempts,
    integer_range (by decide) hbase, integer_range (by decide) hmax,
    integer_range (by decide) hlease⟩

/-- The keys reported are those of the schema. -/
theorem runtimeEnvSchema_within (N : NodeRuntime) (value : String → EnvValue) :
    (runtimeEnvSchema N (.record value)).Within RUNTIME_KEYS := by
  have hkey : ∀ {α : Type} {name : String} {schema : EnvSchema α}, name ∈ RUNTIME_KEYS →
      (key value name schema).Within RUNTIME_KEYS := fun hname => .field hname _
  have hreplay : (replayShape N value).Within RUNTIME_KEYS :=
    .seq (.seq (.map (hkey (by decide)) _) (hkey (by decide))) (hkey (by decide))
  refine .refine (.map ?_ deriveLease) fun env name hname => ?_
  · show (runtimeShape N value).Within RUNTIME_KEYS
    unfold runtimeShape
    iterate 16 refine .seq ?_ (hkey (by decide))
    exact .map hreplay _
  · unfold crossFieldIssues at hname
    rw [List.mem_append] at hname
    rcases hname with h | h
    · split at h
      · obtain rfl := List.mem_singleton.1 h
        decide
      · cases h
    · split at h
      · obtain rfl := List.mem_singleton.1 h
        decide
      · cases h

/-- A rejected record is reported by names of variables, whatever their values are. -/
theorem parseEnvironment_error {message : String}
    (h : parseEnvironment (runtimeEnvSchema N) (.record value) = .error message) :
    ∃ keys : List String, (∀ name ∈ keys, name ∈ RUNTIME_KEYS) ∧
      message = "Invalid runtime configuration: " ++ String.intercalate ", " keys ++
        ". Check configuration requirements in README." := by
  have hwithin := runtimeEnvSchema_within N value
  unfold parseEnvironment at h
  split at h
  · cases h
  · rename_i issues hissues
    rw [hissues] at hwithin
    cases h
    exact ⟨issues.eraseDups, fun name hname => hwithin name (List.mem_eraseDups.1 hname), rfl⟩

end schemas

/-! ### The rules between variables -/

section queues
variable {N : NodeRuntime} {value : String → EnvValue}

/-- The two queues of an accepted record have one name exactly when they collide. -/
theorem queues_eq_iff {fields : RuntimeFields (Option ℤ)} (h : runtimeShape N value = .ok fields) :
    fields.RMQ_LOYALTY_EVENTS_QUEUE = fields.RMQ_QUEUE ↔ QueuesCollide value := by
  obtain ⟨⟨hqueue, hevents⟩, -⟩ := runtimeShape_ok h
  have hdefaults : "loyalty.events" ≠ "loyalty_ticket_purchased" := by decide
  unfold QueuesCollide
  rcases default_ok.1 hqueue with ⟨hin, hname⟩ | ⟨-, hin⟩ <;>
    rcases default_ok.1 hevents with ⟨hout, hname'⟩ | ⟨-, hout⟩
  · simp [hin, hout, hname, hname', hdefaults]
  · simp [hin, nonBlank_ok hout, hname]
  · simp [nonBlank_ok hin, hout, hname', eq_comm]
  · simp [nonBlank_ok hin, nonBlank_ok hout, eq_comm]

end queues

section accepted
variable {N : NodeRuntime} {input : EnvInput} {env : RuntimeEnv}

theorem parseEnvironment_ok {α : Type} {schema : EnvInput → Checked String α} {a : α}
    (h : parseEnvironment schema input = .ok a) : schema input = .ok a := by
  unfold parseEnvironment at h
  split at h
  · rename_i a' hok
    cases h
    exact hok
  · cases h

theorem accepted_queues_eq_iff (h : parseEnvironment (runtimeEnvSchema N) input = .ok env) :
    env.RMQ_LOYALTY_EVENTS_QUEUE = env.RMQ_QUEUE ↔ input.QueuesCollide := by
  obtain ⟨value, fields, rfl, hshape, rfl, -⟩ := runtimeEnvSchema_ok (parseEnvironment_ok h)
  exact queues_eq_iff hshape

/-- The client that emits events and the server that consumes purchases share a queue exactly when the
    names collide. -/
theorem transports_queue_eq_iff {config : RuntimeConfiguration}
    (h : createRuntimeConfiguration N input = .ok config) :
    (getRabbitMqConfig config).queue = (registerTransports config.app config).queue ↔
      input.QueuesCollide := by
  unfold createRuntimeConfiguration at h
  cases hparse : parseEnvironment (runtimeEnvSchema N) input with
  | error message =>
    rw [hparse] at h
    cases h
  | ok env =>
    rw [hparse] at h
    cases h
    exact accepted_queues_eq_iff hparse

/-- The numbers of an accepted environment obey their bounds and the rules between them. -/
theorem accepted_numbers (h : parseEnvironment (runtimeEnvSchema N) input = .ok env) :
    env.Ranges ∧ env.OUTBOX_PUBLISH_TIMEOUT_MS < env.OUTBOX_LEASE_MS ∧
      env.OUTBOX_LEASE_MS ≤ 2147483647 ∧ env.RMQ_RETRY_BASE_MS ≤ env.RMQ_RETRY_MAX_MS := by
  obtain ⟨value, fields, rfl, hshape, rfl, hissues⟩ := runtimeEnvSchema_ok (parseEnvironment_ok h)
  obtain ⟨-, hranges⟩ := runtimeShape_ok hshape
  exact ⟨⟨hranges.timeout, hranges.concurrency, hranges.attempts, hranges.retryBase,
    hranges.retryMax, hranges.deliveryLease⟩, crossFieldIssues_nil.1 hissues⟩

/-- The options of the delivery service in an accepted environment. -/
def RuntimeFields.deliveryOptions (env : RuntimeEnv)
    (h : parseEnvironment (runtimeEnvSchema N) input = .ok env) : RmqDeliveryConfig where
  maxAttempts := (rmqDeliveryConfig env).maxAttempts
  retryBaseMs := (rmqDeliveryConfig env).retryBaseMs
  retryMaxMs := (rmqDeliveryConfig env).retryMaxMs
  leaseMs := (rmqDeliveryConfig env).leaseMs
  maxAttempts_range := (accepted_numbers h).1.attempts
  retryBaseMs_range := ⟨(accepted_numbers h).1.retryBase.1, (accepted_numbers h).2.2.2⟩
  leaseMs_range := (accepted_numbers h).1.deliveryLease

/-- The options of the outbox publisher in an accepted environment: its lease outlasts its timeout. -/
def RuntimeFields.outboxOptions (env : RuntimeEnv)
    (h : parseEnvironment (runtimeEnvSchema N) input = .ok env) : OutboxConfig where
  publishConcurrency := (createAppConfig env).outboxPublishConcurrency.toNat
  leaseMs := (createAppConfig env).outboxLeaseMs
  publishTimeoutMs := (createAppConfig env).outboxPublishTimeoutMs
  publishConcurrency_range := by
    have hrange : 1 ≤ (createAppConfig env).outboxPublishConcurrency ∧
        (createAppConfig env).outboxPublishConcurrency ≤ 50 := (accepted_numbers h).1.concurrency
    omega
  lease_range := ⟨(accepted_numbers h).1.timeout.1, (accepted_numbers h).2.1⟩

end accepted

/-- Node, as far as the database URL below goes. -/
def nodeOfDatabaseUrl : NodeRuntime where
  newUrl text :=
    if text = "postgresql://db/loyalty" then
      some
        { protocol := "postgresql:", hostname := "db", username := "", password := "",
          pathname := "/loyalty", search := "", hash := "", origin := "null", hostParam := none }
    else none
  isIP _ := 0

/-- The required variables, and a name for the queue of the events. -/
def requiredVariables (events : String) : EnvInput := .record fun name =>
  if name = "DATABASE_URL" then .string "postgresql://db/loyalty"
  else if name = "INTERNAL_API_KEY" then .string "key"
  else if name = "REDIS_HOST" then .string "redis"
  else if name = "REDIS_PORT" then .string "6379"
  else if name = "REDIS_PASSWORD" then .string ""
  else if name = "RMQ_LOYALTY_EVENTS_QUEUE" then .string events
  else .undefined

theorem default_absent {α : Type} (schema : EnvSchema α) (fallback : α) :
    schema.default fallback .undefined = some fallback := rfl

theorem default_text {α : Type} (schema : EnvSchema α) (fallback : α) (s : String) :
    schema.default fallback (.string s) = schema (.string s) := rfl

theorem optional_absent {α : Type} (schema : EnvSchema α) : schema.optional .undefined = some none :=
  rfl

/-- The environment they stand for. -/
def requiredFields (events : String) : RuntimeFields (Option ℤ) where
  DATABASE_URL := "postgresql://db/loyalty"
  RMQ_URL := "amqp://localhost:5672"
  RMQ_QUEUE := "loyalty_ticket_purchased"
  PORT := 3000
  GRPC_URL := "0.0.0.0:50051"
  FRONTEND_URL := "http://localhost:3000"
  INTERNAL_API_KEY := "key"
  REDIS_HOST := "redis"
  REDIS_PORT := 6379
  REDIS_PASSWORD := ""
  RMQ_LOYALTY_EVENTS_QUEUE := events
  OUTBOX_PUBLISH_TIMEOUT_MS := 10000
  OUTBOX_LEASE_MS := none
  OUTBOX_PUBLISH_CONCURRENCY := 5
  RMQ_MAX_ATTEMPTS := 3
  RMQ_PREFETCH := 5
  RMQ_RETRY_BASE_MS := 1000
  RMQ_RETRY_MAX_MS := 30000
  RMQ_DELIVERY_LEASE_MS := 30000

/-- The required variables are accepted, with the defaults of all others. -/
theorem requiredVariables_parse {events : String} (h : nonBlank (.string events) = some events) :
    parseEnvironment (runtimeEnvSchema nodeOfDatabaseUrl) (requiredVariables events) =
      .ok (deriveLease (requiredFields events)) := by
  have hport : integer 1 65535 (.string "6379") = some 6379 :=
    integer_text (by norm_num) (by decide) (by decide) (by decide) (by decide)
  have hdatabase : connectionUrl nodeOfDatabaseUrl ["postgres:", "postgresql:"]
      (.string "postgresql://db/loyalty") = some "postgresql://db/loyalty" := by decide
  have hapi : nonBlank (.string "key") = some "key" := by decide
  have hhost : nonBlank.refine (fun value => !value.toList.any fun c => jsWhitespace c || c = '/')
      (.string "redis") = some "redis" := by decide
  have hpassword : zString (.string "") = some "" := rfl
  have hshape : objectSchema (runtimeShape nodeOfDatabaseUrl) (requiredVariables events) =
      .ok (requiredFields events) := by
    unfold requiredVariables objectSchema runtimeShape replayShape key
    simp only [String.reduceEq, if_true, if_false, hport, hdatabase, hapi, hhost, hpassword, h,
      default_absent, default_text, optional_absent, Checked.field]
    rfl
  unfold parseEnvironment runtimeEnvSchema
  rw [hshape]
  rfl

/-- An accepted environment keeps the rules between its variables exactly when its two queues have
    different names: the numbers always obey them, and nothing compares the names. -/
theorem parseEnvironment_rules_iff (N : NodeRuntime) (input : EnvInput) (env : RuntimeEnv)
    (h : parseEnvironment (runtimeEnvSchema N) input = .ok env) :
    env.CrossFieldRules ↔ ¬input.QueuesCollide := by
  have hqueues := accepted_queues_eq_iff h
  obtain ⟨-, htimeout, hlease, hretry⟩ := accepted_numbers h
  constructor
  · intro hrules hcollide
    exact hrules.queues_ne (hqueues.2 hcollide)
  · intro hnot
    exact ⟨htimeout, hlease, hretry, fun heq => hnot (hqueues.1 heq)⟩

/-- Events in a queue of their own. -/
theorem parseEnvironment_rules_iff_loyalty_events :
    (deriveLease (requiredFields "loyalty")).CrossFieldRules ↔
      ¬(requiredVariables "loyalty").QueuesCollide :=
  parseEnvironment_rules_iff nodeOfDatabaseUrl _ _ (requiredVariables_parse (by decide))

/-- The events are emitted into the queue of the purchases. -/
theorem parseEnvironment_shared_queue :
    ∃ env, parseEnvironment (runtimeEnvSchema nodeOfDatabaseUrl)
      (requiredVariables "loyalty_ticket_purchased") = .ok env ∧ ¬env.CrossFieldRules :=
  ⟨_, requiredVariables_parse (by decide), fun hrules => hrules.queues_ne rfl⟩

end CinemaLoyalty
