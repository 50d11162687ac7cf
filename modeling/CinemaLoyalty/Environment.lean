import CinemaLoyalty.Achievements
import CinemaLoyalty.Lib.Validation

/-! @svc Environment | layer:model | source:src/config/env.schema.ts, src/config/app.config.ts, src/config/rmq-delivery.config.ts, src/config/rabbitmq.config.ts, src/bootstrap/register-transports.ts

    The settings of the process. Every variable has a schema, the fields of the environment are
    checked together, a missing lease is derived from the publish timeout, and the lease and the
    retry delays are compared in the end. `new URL` and `isIP` are Node's. -/

namespace CinemaLoyalty
open Validation

/-- A value of the environment; `other` is anything but a number and a text. -/
inductive EnvValue
  | undefined
  | number (n : JsNumber)
  | string (s : String)
  | other

/-- What is parsed: an object by its keys, or no object at all. -/
inductive EnvInput
  | record (value : String → EnvValue)
  | other

/-- The parts of a `URL` that are looked at; `hostParam` is `searchParams.get('host')`. -/
structure Url where
  protocol : String
  hostname : String
  username : String
  password : String
  pathname : String
  search : String
  hash : String
  origin : String
  hostParam : Option String

/-- Node's parsers: `new URL` (`none` where it throws) and `isIP`. -/
structure NodeRuntime where
  newUrl : String → Option Url
  isIP : String → ℕ

/-! ### Schemas of one variable -/

/-- The schema of a variable: the parsed value, or `none` for an issue. -/
abbrev EnvSchema (α : Type) := EnvValue → Option α

/-- `.default`: an absent variable takes the default as it is. -/
def EnvSchema.default {α : Type} (schema : EnvSchema α) (value : α) : EnvSchema α
  | .undefined => some value
  | given => schema given

/-- `.optional`. -/
def EnvSchema.optional {α : Type} (schema : EnvSchema α) : EnvSchema (Option α)
  | .undefined => some none
  | given => (schema given).map some

/-- `.refine`. -/
def EnvSchema.refine {α : Type} (schema : EnvSchema α) (check : α → Bool) : EnvSchema α :=
  fun given => (schema given).filter check

/-- `z.string()`. -/
def zString : EnvSchema String
  | .string s => some s
  | _ => none

/-- `z.number()`: a finite number. -/
def zNumber : JsNumber → Option ℚ
  | .fin q => some q
  | _ => none

/-- `.int().min(min).max(max)`; `.int()` takes safe integers. -/
def zInt (min max : ℤ) (q : ℚ) : Option ℤ :=
  if q.den = 1 ∧ |q.num| ≤ 9007199254740991 ∧ min ≤ q.num ∧ q.num ≤ max then some q.num else none

/-- `/^\d+$/`. -/
def isDigits (s : String) : Bool := s.toList.all Char.isDigit && !s.toList.isEmpty

/-- `integer`: a number, or a text of digits as a number, piped into the bounds. -/
def integer (min max : ℤ) : EnvSchema ℤ := fun given =>
  let number : Option JsNumber :=
    match given with
    | .number n => (zNumber n).map .fin
    | .string s => if isDigits s then some (stringToNumber s) else none
    | _ => none
  (number.bind zNumber).bind (zInt min max)

/-- `nonBlank`. -/
def nonBlank : EnvSchema String := EnvSchema.refine zString fun value => 0 < jsLength (jsTrim value)

/-- `connectionUrl`. -/
def connectionUrl (N : NodeRuntime) (protocols : List String) : EnvSchema String :=
  EnvSchema.refine zString fun value =>
    match N.newUrl value with
    | some url => protocols.contains url.protocol &&
        (url.hostname ≠ "" || (protocols.contains "postgresql:" && url.hostParam.any (· ≠ "")))
    | none => false

/-- `origin`: checked and replaced by the origin of the URL. -/
def origin (N : NodeRuntime) : EnvSchema String := fun given =>
  ((EnvSchema.refine zString fun value =>
    match N.newUrl value with
    | some url => ["http:", "https:"].contains url.protocol && url.username = "" &&
        url.password = "" && url.pathname = "/" && url.search = "" && url.hash = ""
    | none => false) given).bind fun value => (N.newUrl value).map Url.origin

/-- `/^(\[[0-9a-f:.]+\]|[^\s:/?#@]+):(\d+)$/i`: the port follows the last colon. -/
def bindingMatch (value : String) : Option (List Char × List Char) :=
  let port := (value.toList.reverse.takeWhile (· ≠ ':')).reverse
  match value.toList.reverse.dropWhile (· ≠ ':') with
  | ':' :: rest =>
    let host := rest.reverse
    let address := (host.drop 1).dropLast
    let bracketed := host.head? = some '[' && host.getLast? = some ']' && !address.isEmpty &&
      address.all fun c => c.isDigit || ('a' ≤ c.toLower && c.toLower ≤ 'f') || c = ':' || c = '.'
    let plain := !host.isEmpty && host.all fun c => !jsWhitespace c && c ∉ [':', '/', '?', '#', '@']
    if (bracketed || plain) && !port.isEmpty && port.all Char.isDigit then some (host, port) else none
  | _ => none

/-- `grpcBinding`. -/
def grpcBinding (N : NodeRuntime) : EnvSchema String :=
  EnvSchema.refine zString fun value =>
    match bindingMatch value with
    | some (host, port) =>
      (host.head? ≠ some '[' || N.isIP (String.ofList (host.drop 1).dropLast) = 6) &&
        1 ≤ digitsValue port && digitsValue port ≤ 65535
    | none => false

/-! ### Schemas of the environment -/

/-- `z.output<typeof replayEnvSchema>`. -/
structure ReplayEnv where
  DATABASE_URL : String
  RMQ_URL : String
  RMQ_QUEUE : String

/-- The fields of `runtimeEnvSchema`; the lease is optional before the derivation. -/
structure RuntimeFields (lease : Type) extends ReplayEnv where
  PORT : ℤ
  GRPC_URL : String
  FRONTEND_URL : String
  INTERNAL_API_KEY : String
  REDIS_HOST : String
  REDIS_PORT : ℤ
  REDIS_PASSWORD : String
  RMQ_LOYALTY_EVENTS_QUEUE : String
  OUTBOX_PUBLISH_TIMEOUT_MS : ℤ
  OUTBOX_LEASE_MS : lease
  OUTBOX_PUBLISH_CONCURRENCY : ℤ
  RMQ_MAX_ATTEMPTS : ℤ
  RMQ_PREFETCH : ℤ
  RMQ_RETRY_BASE_MS : ℤ
  RMQ_RETRY_MAX_MS : ℤ
  RMQ_DELIVERY_LEASE_MS : ℤ

/-- `RuntimeEnv`. -/
abbrev RuntimeEnv := RuntimeFields ℤ

/-- The schema of a key. -/
def key {α : Type} (value : String → EnvValue) (name : String) (schema : EnvSchema α) :
    Checked String α :=
  .field name (schema (value name))

/-- The fields of `replayEnvSchema`. -/
def replayShape (N : NodeRuntime) (value : String → EnvValue) : Checked String ReplayEnv :=
  ReplayEnv.mk <$>
    key value "DATABASE_URL" (connectionUrl N ["postgres:", "postgresql:"]) <*>
    key value "RMQ_URL" ((connectionUrl N ["amqp:", "amqps:"]).default "amqp://localhost:5672") <*>
    key value "RMQ_QUEUE" (nonBlank.default "loyalty_ticket_purchased")

/-- The fields of `runtimeEnvSchema`: those of `replayEnvSchema` and its own. -/
def runtimeShape (N : NodeRuntime) (value : String → EnvValue) :
    Checked String (RuntimeFields (Option ℤ)) :=
  RuntimeFields.mk <$>
    replayShape N value <*>
    key value "PORT" ((integer 1 65535).default 3000) <*>
    key value "GRPC_URL" ((grpcBinding N).default "0.0.0.0:50051") <*>
    key value "FRONTEND_URL" ((origin N).default "http://localhost:3000") <*>
    key value "INTERNAL_API_KEY" nonBlank <*>
    key value "REDIS_HOST" (nonBlank.refine fun value =>
      !value.toList.any fun c => jsWhitespace c || c = '/') <*>
    key value "REDIS_PORT" (integer 1 65535) <*>
    key value "REDIS_PASSWORD" zString <*>
    key value "RMQ_LOYALTY_EVENTS_QUEUE" (nonBlank.default "loyalty.events") <*>
    key value "OUTBOX_PUBLISH_TIMEOUT_MS" ((integer 1 2147483647).default 10000) <*>
    key value "OUTBOX_LEASE_MS" (integer 1 2147483647).optional <*>
    key value "OUTBOX_PUBLISH_CONCURRENCY" ((integer 1 50).default 5) <*>
    key value "RMQ_MAX_ATTEMPTS" ((integer 1 10).default 3) <*>
    key value "RMQ_PREFETCH" ((integer 1 50).default 5) <*>
    key value "RMQ_RETRY_BASE_MS" ((integer 50 60000).default 1000) <*>
    key value "RMQ_RETRY_MAX_MS" ((integer 50 300000).default 30000) <*>
    key value "RMQ_DELIVERY_LEASE_MS" ((integer 10000 300000).default 30000)

/-- `.transform`: a lease that is not given is derived from the publish timeout. -/
def deriveLease (env : RuntimeFields (Option ℤ)) : RuntimeEnv :=
  { env with
    OUTBOX_LEASE_MS := env.OUTBOX_LEASE_MS.getD (max 30000 (env.OUTBOX_PUBLISH_TIMEOUT_MS + 5000)) }

/-- `.superRefine`: the keys of its issues. -/
def crossFieldIssues (env : RuntimeEnv) : List String :=
  (if env.OUTBOX_LEASE_MS ≤ env.OUTBOX_PUBLISH_TIMEOUT_MS ∨ env.OUTBOX_LEASE_MS > 2147483647 then
    ["OUTBOX_LEASE_MS"] else []) ++
  (if env.RMQ_RETRY_MAX_MS < env.RMQ_RETRY_BASE_MS then ["RMQ_RETRY_MAX_MS"] else [])

/-- A schema of the whole input; what is no object has an issue at the empty path. -/
def objectSchema {α : Type} (shape : (String → EnvValue) → Checked String α) :
    EnvInput → Checked String α
  | .record value => shape value
  | .other => .error [""]

/-- `replayEnvSchema`. -/
def replayEnvSchema (N : NodeRuntime) : EnvInput → Checked String ReplayEnv :=
  objectSchema (replayShape N)

/-- `runtimeEnvSchema`. -/
def runtimeEnvSchema (N : NodeRuntime) (input : EnvInput) : Checked String RuntimeEnv :=
  (deriveLease <$> objectSchema (runtimeShape N) input).refine crossFieldIssues

/-- `parseEnvironment`: the error names the keys and nothing of their values. -/
def parseEnvironment {α : Type} (schema : EnvInput → Checked String α) (input : EnvInput) :
    Except String α :=
  match schema input with
  | .ok env => .ok env
  | .error issues =>
    let keys := issues.eraseDups
    .error ("Invalid runtime configuration: " ++ String.intercalate ", " keys ++
      ". Check configuration requirements in README.")

/-! ### The configuration of the process -/

/-- `AppConfig`. -/
structure AppConfig where
  port : ℤ
  grpcUrl : String
  rmqUrl : String
  rmqQueue : String
  outboxPublishTimeoutMs : ℤ
  outboxLeaseMs : ℤ
  outboxPublishConcurrency : ℤ

/-- `createAppConfig`. -/
def createAppConfig (env : RuntimeEnv) : AppConfig where
  port := env.PORT
  grpcUrl := env.GRPC_URL
  rmqUrl := env.RMQ_URL
  rmqQueue := env.RMQ_QUEUE
  outboxPublishTimeoutMs := env.OUTBOX_PUBLISH_TIMEOUT_MS
  outboxLeaseMs := env.OUTBOX_LEASE_MS
  outboxPublishConcurrency := env.OUTBOX_PUBLISH_CONCURRENCY

/-- The `rmqDelivery` namespace. -/
structure RmqDeliveryNamespace where
  maxAttempts : ℤ
  prefetch : ℤ
  retryBaseMs : ℤ
  retryMaxMs : ℤ
  leaseMs : ℤ

/-- `rmqDeliveryConfig`. -/
def rmqDeliveryConfig (env : RuntimeEnv) : RmqDeliveryNamespace where
  maxAttempts := env.RMQ_MAX_ATTEMPTS
  prefetch := env.RMQ_PREFETCH
  retryBaseMs := env.RMQ_RETRY_BASE_MS
  retryMaxMs := env.RMQ_RETRY_MAX_MS
  leaseMs := env.RMQ_DELIVERY_LEASE_MS

/-- `RuntimeConfiguration`: the parsed variables and two namespaces of them. -/
structure RuntimeConfiguration where
  env : RuntimeEnv
  app : AppConfig
  rmqDelivery : RmqDeliveryNamespace

/-- `createRuntimeConfiguration`. -/
def createRuntimeConfiguration (N : NodeRuntime) (input : EnvInput) :
    Except String RuntimeConfiguration :=
  (parseEnvironment (runtimeEnvSchema N) input).map fun env =>
    { env, app := createAppConfig env, rmqDelivery := rmqDeliveryConfig env }

/-- `RmqOptions`, as far as they are set. -/
structure RmqOptions where
  urls : List String
  queue : String
  durable : Bool
  noAck : Option Bool := none
  prefetchCount : Option ℤ := none

/-- `getRabbitMqConfig`: the client that emits the loyalty events. -/
def getRabbitMqConfig (config : RuntimeConfiguration) : RmqOptions where
  urls := [config.app.rmqUrl]
  queue := config.env.RMQ_LOYALTY_EVENTS_QUEUE
  durable := true

/-- `registerTransports`: the server that consumes purchases and dates of birth. -/
def registerTransports (appConfig : AppConfig) (config : RuntimeConfiguration) : RmqOptions where
  urls := [appConfig.rmqUrl]
  queue := appConfig.rmqQueue
  durable := true
  noAck := some false
  prefetchCount := some config.rmqDelivery.prefetch

end CinemaLoyalty
