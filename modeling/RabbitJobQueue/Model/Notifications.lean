import RabbitJobQueue.Model.Json

/-! # Notifications

What an executor publishes on the error and success queues, and what a dispatcher makes of it.
-/

namespace RabbitJobQueue.Model

/-- `HashID` is `ι`. -/
structure ErrorNotification (ι : Type) where
  jobID : ι
  code : Int32
  attemptCount : Int32 := 0
  message : Option String := none
  body : Option JsonNode := none

namespace ErrorNotification

variable {ι : Type} [Textual ι]

def toJson (notification : ErrorNotification ι) : ObjectNode :=
  ((((({} : ObjectNode).putString JsonKey.jobID (some (Textual.string notification.jobID))).putInt
    JsonKey.code notification.code).putString
    JsonKey.message notification.message).putInt
    JsonKey.attemptCount notification.attemptCount).putNode
    JsonKey.body notification.body

/-- What every message of an exception begins with. -/
def title : String := "Error notification"

/-- The message is read without a check that it is there. -/
def fromJson (json : ObjectNode) : Except Throwable (ErrorNotification ι) := do
  json.checkPresent title JsonKey.jobID
  json.checkPresent title JsonKey.code
  json.checkPresent title JsonKey.body
  json.checkPresent title JsonKey.attemptCount
  json.checkNotNull title JsonKey.jobID
  json.checkNotNull title JsonKey.code
  json.checkNotNull title JsonKey.attemptCount
  json.checkKind JsonNode.isTextual "textual" title JsonKey.jobID
  json.checkKind JsonNode.isIntegralNumber "integral" title JsonKey.code
  json.checkKind JsonNode.isIntegralNumber "integral" title JsonKey.attemptCount
  let jobID ← Textual.parse (← json.textValue JsonKey.jobID)
  let code ← JsonNode.intValue <$> json.deref JsonKey.code
  let message ← JsonNode.textValue <$> json.deref JsonKey.message
  let attemptCount ← JsonNode.intValue <$> json.deref JsonKey.attemptCount
  let body := json.get JsonKey.body
  return { jobID, code, message, attemptCount, body }

/-- The body `publish` sends. -/
def toBytes (mapper : ObjectMapper) (notification : ErrorNotification ι) : ByteArray :=
  Json.toBytes mapper notification.toJson

/-- `ErrorNotification.fromJson(Json.from(bytes))`. -/
def fromBytes (mapper : ObjectMapper) (bytes : ByteArray) : Except Throwable (ErrorNotification ι) := do
  fromJson (← Json.fromBytes mapper bytes)

end ErrorNotification

structure SuccessNotification (ι : Type) where
  jobID : ι

namespace SuccessNotification

variable {ι : Type} [Textual ι]

def toJson (notification : SuccessNotification ι) : ObjectNode :=
  ({} : ObjectNode).putString JsonKey.jobID (some (Textual.string notification.jobID))

/-- What every message of an exception begins with. -/
def title : String := "Success notification"

def fromJson (json : ObjectNode) : Except Throwable (SuccessNotification ι) := do
  json.checkPresent title JsonKey.jobID
  json.checkNotNull title JsonKey.jobID
  json.checkKind JsonNode.isTextual "textual" title JsonKey.jobID
  let jobID ← Textual.parse (← json.textValue JsonKey.jobID)
  return { jobID }

/-- The body `publish` sends. -/
def toBytes (mapper : ObjectMapper) (notification : SuccessNotification ι) : ByteArray :=
  Json.toBytes mapper notification.toJson

/-- `SuccessNotification.fromJson(Json.from(bytes))`. -/
def fromBytes (mapper : ObjectMapper) (bytes : ByteArray) : Except Throwable (SuccessNotification ι) := do
  fromJson (← Json.fromBytes mapper bytes)

end SuccessNotification

end RabbitJobQueue.Model
