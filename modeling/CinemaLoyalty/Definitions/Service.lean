import CinemaLoyalty.Definitions.RoundTrip
import CinemaLoyalty.Lib.Autocommit

/-! @svc DefinitionService | layer:system | source:src/achievements/admin-achievements.service.ts, prisma/schema.prisma (Achievement)

    Any number of admins creating, changing and deactivating achievement definitions at once. No
    transaction spans the statements of a call: a create or an update looks for its code first and
    writes later, and only the unique index decides. `AchievementTable.Does` is a call as one step:
    what it does alone, or what one of three races makes of it. -/

namespace CinemaLoyalty
open Utf16 Txn

/-! ### Statements -/

/-- The statements on `achievements`, indexed by what they answer. -/
inductive DefinitionStmt : Type → Type
  | findUniqueCode (code : String) : DefinitionStmt (Option Uuid)
  | findUnique (id : Uuid) : DefinitionStmt (Option AchievementRecord)
  | create (id : Uuid) (data : NormalizedAchievementInput) (now : Instant) :
      DefinitionStmt AchievementRecord
  | update (id : Uuid) (data : NormalizedAchievementInput) (now : Instant) :
      DefinitionStmt AchievementRecord
  | deactivate (id : Uuid) (now : Instant) : DefinitionStmt AchievementRecord

/-- A row version of `achievements`. -/
inductive DefinitionWrite
  | insert (row : AchievementRecord)
  | put (row : AchievementRecord)

/-- The rows of `achievements`. -/
abbrev AchievementTable := List AchievementRecord

namespace AchievementTable

/-- The row of an id. -/
def row? (t : AchievementTable) (id : Uuid) : Option AchievementRecord := t.find? (·.id = id)

/-- The table with one more row version. -/
def apply (t : AchievementTable) : DefinitionWrite → AchievementTable
  | .insert row => t ++ [row]
  | .put row => t.map fun a => if a.id = row.id then row else a

/-- What a statement answers and the row versions it writes; `validation` stands for every value a
    column refuses. -/
def eval (t : AchievementTable) : {β : Type} → DefinitionStmt β →
    Except TxError (β × List DefinitionWrite)
  | _, .findUniqueCode code => .ok ((t.find? (·.code = code)).map (·.id), [])
  | _, .findUnique id => .ok (t.row? id, [])
  | _, .create id data now =>
    match data.columns with
    | none => .error (.prisma .validation)
    | some columns =>
      if t.any (·.code = columns.code) || (t.row? id).isSome then .error (.prisma .P2002)
      else
        let row : AchievementRecord := { columns with id, createdAt := now, updatedAt := now }
        .ok (row, [.insert row])
  | _, .update id data now =>
    match t.row? id, data.columns with
    | none, _ => .error (.prisma .P2025)
    | some _, none => .error (.prisma .validation)
    | some found, some columns =>
      if t.any fun a => a.id ≠ id && a.code = columns.code then .error (.prisma .P2002)
      else
        let row : AchievementRecord :=
          { columns with id, createdAt := found.createdAt, updatedAt := now }
        .ok (row, [.put row])
  | _, .deactivate id now =>
    match t.row? id with
    | none => .error (.prisma .P2025)
    | some found =>
      let row : AchievementRecord := { found with isActive := false, updatedAt := now }
      .ok (row, [.put row])

end AchievementTable

/-- The achievement table under Prisma; every statement commits by itself, so none waits. -/
def definitions : Engine DefinitionStmt TxError AchievementTable DefinitionWrite Empty where
  eval s t := t.eval s
  apply := AchievementTable.apply
  locks _ _ := []
  holds _ := []

/-! ### Calls -/

/-- The error of a code that is taken. -/
def codeTaken (code : String) : TxError :=
  .rpc .ALREADY_EXISTS ("Achievement with code '" ++ code ++ "' already exists")

/-- The error of an id that is not there. -/
def achievementNotFound (id : UuidText) : TxError :=
  .rpc .NOT_FOUND ("Achievement '" ++ id.text ++ "' not found")

namespace AdminAchievementsService
variable (issues : JsValue → String) (other : ℚ → Text)

/-- `createAchievementGrpc` once the code has been looked for; `id` is the drawn uuid. -/
def insertUnlessTaken (id : Uuid) (now : Instant) (input : NormalizedAchievementInput) :
    Option Uuid → Prog DefinitionStmt TxError AchievementDto
  | some _ => .throw (codeTaken input.code)
  | none => .stmt (.create id input now) fun created => .pure (toGrpc other created)

/-- `createAchievementGrpc`. -/
def createAchievementGrpc (id : Uuid) (now : Instant) (req : AchievementMutationRequest) :
    Prog DefinitionStmt TxError AchievementDto :=
  match normalizeAchievementInput issues req with
  | .error e => .throw e
  | .ok input => .stmt (.findUniqueCode input.code) (insertUnlessTaken other id now input)

/-- The `update` of `updateAchievementGrpc`. -/
def save (id : Uuid) (now : Instant) (input : NormalizedAchievementInput) :
    Prog DefinitionStmt TxError AchievementDto :=
  .stmt (.update id input now) fun updated => .pure (toGrpc other updated)

/-- `updateAchievementGrpc` once its new code has been looked for. -/
def saveUnlessTaken (id : Uuid) (now : Instant) (input : NormalizedAchievementInput) :
    Option Uuid → Prog DefinitionStmt TxError AchievementDto
  | some _ => .throw (codeTaken input.code)
  | none => save other id now input

/-- `updateAchievementGrpc` once the row has been read. -/
def saveFound (id : UuidText) (now : Instant) (req : AchievementMutationRequest) :
    Option AchievementRecord → Prog DefinitionStmt TxError AchievementDto
  | none => .throw (achievementNotFound id)
  | some found =>
    match normalizeAchievementInput issues req with
    | .error e => .throw e
    | .ok input =>
      if input.code ≠ found.code then
        .stmt (.findUniqueCode input.code) (saveUnlessTaken other id.value now input)
      else save other id.value now input

/-- `updateAchievementGrpc`. -/
def updateAchievementGrpc (id : UuidText) (now : Instant) (req : AchievementMutationRequest) :
    Prog DefinitionStmt TxError AchievementDto :=
  .stmt (.findUnique id.value) (saveFound issues other id now req)

/-- `deleteAchievementGrpc` once the row has been read. -/
def deactivateFound (id : UuidText) (now : Instant) :
    Option AchievementRecord → Prog DefinitionStmt TxError AchievementDto
  | none => .throw (achievementNotFound id)
  | some found =>
    if !found.isActive then .pure (toGrpc other found)
    else .stmt (.deactivate id.value now) fun updated => .pure (toGrpc other updated)

/-- `deleteAchievementGrpc`. -/
def deleteAchievementGrpc (id : UuidText) (now : Instant) :
    Prog DefinitionStmt TxError AchievementDto :=
  .stmt (.findUnique id.value) (deactivateFound other id now)

end AdminAchievementsService

/-- A call of an admin, with its clock reading. -/
inductive DefinitionCall
  | create (id : Uuid) (now : Instant) (req : AchievementMutationRequest)
  | update (id : UuidText) (now : Instant) (req : AchievementMutationRequest)
  | delete (id : UuidText) (now : Instant)

/-- The program of a call. -/
def DefinitionCall.prog (issues : JsValue → String) (other : ℚ → Text) :
    DefinitionCall → Prog DefinitionStmt TxError AchievementDto
  | .create id now req => AdminAchievementsService.createAchievementGrpc issues other id now req
  | .update id now req => AdminAchievementsService.updateAchievementGrpc issues other id now req
  | .delete id now => AdminAchievementsService.deleteAchievementGrpc other id now

/-- The request of a call. -/
def DefinitionCall.request : DefinitionCall → Option AchievementMutationRequest
  | .create _ _ req => some req
  | .update _ _ req => some req
  | .delete _ _ => none

/-! ### Calls as one step -/

/-- What a call does as one step, and what it answers. Alone it answers or refuses; in a race the
    unique index refuses it first (`indexed`), another call has given its own row the code that it
    asks for (`renamed`), or another has deactivated its row (`again`). -/
inductive AchievementTable.Does (issues : JsValue → String) (other : ℚ → Text)
    (t : AchievementTable) : DefinitionCall → Except TxError AchievementDto → AchievementTable → Prop
  | answers {call : DefinitionCall} {dto : AchievementDto} {t' : AchievementTable}
      (h : definitions.run (call.prog issues other) t = .ok (dto, t')) :
      Does issues other t call (.ok dto) t'
  | refuses {call : DefinitionCall} {e : TxError}
      (h : definitions.run (call.prog issues other) t = .error e) :
      Does issues other t call (.error e) t
  | indexed {call : DefinitionCall} {req : AchievementMutationRequest}
      {input : NormalizedAchievementInput} {e : PrismaError} (hreq : call.request = some req)
      (hin : normalizeAchievementInput issues req = .ok input)
      (h : definitions.run (call.prog issues other) t = .error (codeTaken input.code))
      (he : e = if input.columns = none then .validation else .P2002) :
      Does issues other t call (.error (.prisma e)) t
  | renamed {id : UuidText} {now : Instant} {req : AchievementMutationRequest}
      {input : NormalizedAchievementInput} {found : AchievementRecord}
      (hin : normalizeAchievementInput issues req = .ok input)
      (hfound : t.row? id.value = some found) (hcode : found.code = input.code) :
      Does issues other t (.update id now req) (.error (codeTaken input.code)) t
  | again {id : UuidText} {now : Instant} {found : AchievementRecord}
      (hfound : t.row? id.value = some found) (hinactive : found.isActive = false) :
      Does issues other t (.delete id now)
        (.ok (toGrpc other { found with updatedAt := now }))
        (t.apply (.put { found with updatedAt := now }))

end CinemaLoyalty
