import RabbitJobQueue.Model.Json

/-! # Job dispatches

What a dispatcher publishes on the job queue, and what an executor makes of it.
-/

namespace RabbitJobQueue.Model

/-- `HashID` and `OffsetDateTime` are `ι` and `θ`. The default of `dispatched` is read from the clock by
the caller. -/
structure JobDispatch (ι θ : Type) where
  jobID : ι
  body : Option JsonNode := none
  type : String := ""
  attemptCount : Int32 := 0
  dispatched : θ

namespace JobDispatch

variable {ι θ : Type} [Textual ι] [Textual θ]

def toJson (dispatch : JobDispatch ι θ) : ObjectNode :=
  ((((({} : ObjectNode).putString JsonKey.jobID (some (Textual.string dispatch.jobID))).putString
    JsonKey.type (some dispatch.type)).putString
    JsonKey.dispatched (some (Textual.string dispatch.dispatched))).putInt
    JsonKey.attemptCount dispatch.attemptCount).putPOJO
    JsonKey.body dispatch.body

/-- What every message of an exception begins with. -/
def title : String := "Job dispatch"

def fromJson (json : ObjectNode) : Except Throwable (JobDispatch ι θ) := do
  -- fields must be present
  json.checkPresent title JsonKey.jobID
  json.checkPresent title JsonKey.type
  json.checkPresent title JsonKey.body
  json.checkPresent title JsonKey.dispatched
  json.checkPresent title JsonKey.attemptCount
  -- only the body field may be null
  json.checkNotNull title JsonKey.jobID
  json.checkNotNull title JsonKey.type
  json.checkNotNull title JsonKey.dispatched
  json.checkNotNull title JsonKey.attemptCount
  -- fields must be of the correct type
  json.checkKind JsonNode.isTextual "textual" title JsonKey.jobID
  json.checkKind JsonNode.isTextual "textual" title JsonKey.type
  json.checkKind JsonNode.isTextual "textual" title JsonKey.dispatched
  json.checkKind JsonNode.isInt "int" title JsonKey.attemptCount
  let jobID ← Textual.parse (← json.textValue JsonKey.jobID)
  let body := json.get JsonKey.body
  let type ← json.textValue JsonKey.type
  let dispatched ← Textual.parse (← json.textValue JsonKey.dispatched)
  let attemptCount ← JsonNode.intValue <$> json.deref JsonKey.attemptCount
  return { jobID, body, type, dispatched, attemptCount }

/-- The body `publish` sends. -/
def toBytes (mapper : ObjectMapper) (dispatch : JobDispatch ι θ) : ByteArray :=
  Json.toBytes mapper dispatch.toJson

/-- `JobDispatch.fromJson(Json.from(bytes))`. -/
def fromBytes (mapper : ObjectMapper) (bytes : ByteArray) : Except Throwable (JobDispatch ι θ) := do
  fromJson (← Json.fromBytes mapper bytes)

end JobDispatch

end RabbitJobQueue.Model
