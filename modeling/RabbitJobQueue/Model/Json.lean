import RabbitJobQueue.Model.FailureEnforcer
import RabbitJobQueue.Model.JsonNode

/-! # Reading and writing messages

The JSON library prints trees and parses bytes; `HashID` and `OffsetDateTime` print themselves and are
parsed from texts. None of them is part of this repository, so they are parameters here, and what is
relied on is stated next to them. The checks of `fromJson` are the same for all messages and fields.
-/

namespace RabbitJobQueue.Model

/-- A type with a `toString` and a parser that throws. -/
class Textual (α : Type) where
  string : α → String
  parse : String → Except Throwable α

/-- What a value prints is a text that is parsed back to it. -/
class LawfulTextual (α : Type) [Textual α] : Prop where
  parse_string : ∀ value : α, Textual.parse (Textual.string value) = .ok value

/-- `JsonNode.toString`, and `readValue` for trees. -/
structure ObjectMapper where
  print : JsonNode → String
  parse : ByteArray → Except Throwable JsonNode

/-- A POJO node prints as what it wraps; a tree in the form of the parser is parsed back from what it prints,
if it is within the limits of the mapper (on numbers, lengths and depth); and what is parsed is in the form
of the parser. -/
structure ObjectMapper.Lawful (mapper : ObjectMapper) (within : JsonNode → Prop) : Prop where
  print_printed : ∀ node : JsonNode, mapper.print node = mapper.print node.printed
  parse_print : ∀ node : JsonNode, node.isParsed = true → within node →
    mapper.parse (mapper.print node).toUTF8 = .ok node
  isParsed_of_parse : ∀ (bytes : ByteArray) (node : JsonNode), mapper.parse bytes = .ok node →
    node.isParsed = true

namespace JsonKey

def body : String := "body"
def code : String := "code"
def jobID : String := "jobID"
def message : String := "message"
def type : String := "type"
def dispatched : String := "dispatched"
def attemptCount : String := "attemptCount"

end JsonKey

namespace Json

/-- `Json.from<ObjectNode>(bytes)`. The text `null` is read as null, which no `fromJson` accepts. -/
def fromBytes (mapper : ObjectMapper) (bytes : ByteArray) : Except Throwable ObjectNode :=
  match mapper.parse bytes with
  | .ok (.object fields) => .ok ⟨fields⟩
  | .ok .null => .error .nullPointer
  | .ok _ => .error (.other "MismatchedInputException")
  | .error exception => .error exception

/-- `json.toString().toByteArray(UTF_8)`. -/
def toBytes (mapper : ObjectMapper) (json : ObjectNode) : ByteArray := (mapper.print json.node).toUTF8

end Json

namespace ObjectNode

variable (json : ObjectNode)

/-- What follows `json.get(key)` in an expression. -/
def deref (key : String) : Except Throwable JsonNode :=
  match json.get key with
  | some node => .ok node
  | none => .error .nullPointer

/-- `if (!json.has(key)) throw IllegalStateException(...)`. -/
def checkPresent (title key : String) : Except Throwable Unit :=
  if json.has key then .ok () else .error (.illegalState s!"{title} has no {key} field!")

/-- `if (json.get(key).isNull) throw IllegalStateException(...)`. -/
def checkNotNull (title key : String) : Except Throwable Unit := do
  let node ← json.deref key
  if node.isNull then .error (.illegalState s!"{title} has a null {key} field!") else .ok ()

/-- `if (!json.get(key).isTextual) throw IllegalStateException(...)`, and for other kinds alike. -/
def checkKind (isKind : JsonNode → Bool) (kind title key : String) : Except Throwable Unit := do
  let node ← json.deref key
  if isKind node then .ok () else .error (.illegalState s!"{title} has a non-{kind} {key} field!")

/-- `json.get(key).textValue()`, where it must not be null. -/
def textValue (key : String) : Except Throwable String := do
  match (← json.deref key).textValue with
  | some value => .ok value
  | none => .error .nullPointer

end ObjectNode

end RabbitJobQueue.Model
