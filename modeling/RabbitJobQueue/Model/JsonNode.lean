import Mathlib.Algebra.Group.Int.Defs
import Mathlib.Data.List.Basic
import Mathlib.Data.List.Nodup
import Mathlib.Data.Int.Notation

/-! # JSON trees

The nodes of the JSON library as far as messages are built from them and read back. A number that is an
integer literal becomes the narrowest of three nodes that holds it, any other the bits of a double. A POJO
node wraps a Java value, here another tree or null, and is a node of its own kind until it is printed.
Texts are sequences of Unicode characters.
-/

namespace RabbitJobQueue.Model

inductive JsonNode
  | null
  | boolean (value : Bool)
  | int (value : Int32)
  | long (value : Int64)
  | bigInteger (value : ℤ)
  | double (bits : UInt64)
  | text (value : String)
  | array (elements : List JsonNode)
  | object (fields : List (String × JsonNode))
  | pojo (value : Option JsonNode)

namespace JsonNode

def isNull : JsonNode → Bool
  | .null => true
  | _ => false

def isTextual : JsonNode → Bool
  | .text _ => true
  | _ => false

def isInt : JsonNode → Bool
  | .int _ => true
  | _ => false

def isIntegralNumber : JsonNode → Bool
  | .int _ | .long _ | .bigInteger _ => true
  | _ => false

/-- Null for every node that is not a text. -/
def textValue : JsonNode → Option String
  | .text value => some value
  | _ => none

/-- The lower 32 bits of an integer, and 0 for what is no number. -/
def intValue : JsonNode → Int32
  | .int value => value
  | .long value => value.toInt32
  | .bigInteger value => Int32.ofInt value
  | .double bits => (Float.ofBits bits).toInt32
  | _ => 0

/-- The number an integer literal stands for. -/
def integer : JsonNode → Option ℤ
  | .int value => some value.toInt
  | .long value => some value.toInt
  | .bigInteger value => some value
  | _ => none

mutual

/-- The trees the parser builds: every integer in its narrowest node, every key once in its object, and
no POJO node. -/
def isParsed : JsonNode → Bool
  | .null | .boolean _ | .int _ | .double _ | .text _ => true
  | .long value => value.toInt < -2 ^ 31 || 2 ^ 31 ≤ value.toInt
  | .bigInteger value => value < -2 ^ 63 || 2 ^ 63 ≤ value
  | .array elements => elementsParsed elements
  | .object fields => decide (fields.map (·.1)).Nodup && fieldsParsed fields
  | .pojo _ => false

def elementsParsed : List JsonNode → Bool
  | [] => true
  | element :: rest => element.isParsed && elementsParsed rest

def fieldsParsed : List (String × JsonNode) → Bool
  | [] => true
  | (_, node) :: rest => node.isParsed && fieldsParsed rest

end

mutual

/-- The tree that is printed: a POJO node prints as the value it wraps. -/
def printed : JsonNode → JsonNode
  | .array elements => .array (elementsPrinted elements)
  | .object fields => .object (fieldsPrinted fields)
  | .pojo value => valuePrinted value
  | .null => .null
  | .boolean value => .boolean value
  | .int value => .int value
  | .long value => .long value
  | .bigInteger value => .bigInteger value
  | .double bits => .double bits
  | .text value => .text value

def elementsPrinted : List JsonNode → List JsonNode
  | [] => []
  | element :: rest => element.printed :: elementsPrinted rest

def fieldsPrinted : List (String × JsonNode) → List (String × JsonNode)
  | [] => []
  | (key, node) :: rest => (key, node.printed) :: fieldsPrinted rest

def valuePrinted : Option JsonNode → JsonNode
  | none => .null
  | some node => node.printed

end

mutual

/-- What the parser has built prints as it is. -/
theorem printed_of_isParsed (node : JsonNode) (parsed : node.isParsed = true) : node.printed = node := by
  cases node with
  | array elements =>
    rw [isParsed] at parsed
    rw [printed, elementsPrinted_of_parsed elements parsed]
  | object fields =>
    rw [isParsed, Bool.and_eq_true] at parsed
    rw [printed, fieldsPrinted_of_parsed fields parsed.2]
  | pojo value => rw [isParsed] at parsed; contradiction
  | _ => rw [printed]

theorem elementsPrinted_of_parsed (elements : List JsonNode) (parsed : elementsParsed elements = true) :
    elementsPrinted elements = elements := by
  cases elements with
  | nil => rw [elementsPrinted]
  | cons element rest =>
    rw [elementsParsed, Bool.and_eq_true] at parsed
    rw [elementsPrinted, printed_of_isParsed element parsed.1, elementsPrinted_of_parsed rest parsed.2]

theorem fieldsPrinted_of_parsed (fields : List (String × JsonNode)) (parsed : fieldsParsed fields = true) :
    fieldsPrinted fields = fields := by
  match fields with
  | [] => rw [fieldsPrinted]
  | (key, node) :: rest =>
    rw [fieldsParsed, Bool.and_eq_true] at parsed
    rw [fieldsPrinted, printed_of_isParsed node parsed.1, fieldsPrinted_of_parsed rest parsed.2]

end

/-- The fields of a parsed object are parsed. -/
theorem fieldsParsed_iff {fields : List (String × JsonNode)} :
    fieldsParsed fields = true ↔ ∀ key node, (key, node) ∈ fields → node.isParsed = true := by
  induction fields with
  | nil => simp [fieldsParsed]
  | cons field rest ih =>
    obtain ⟨name, value⟩ := field
    rw [fieldsParsed, Bool.and_eq_true, ih]
    constructor
    · rintro ⟨first, later⟩ key node member
      rcases List.mem_cons.mp member with same | member
      · cases same; exact first
      · exact later key node member
    · intro each
      exact ⟨each name value List.mem_cons_self, fun key node member =>
        each key node (List.mem_cons_of_mem _ member)⟩

end JsonNode

/-- An `ObjectNode`: its fields in the order in which their keys were first put. -/
structure ObjectNode where
  fields : List (String × JsonNode) := []

namespace ObjectNode

variable (json : ObjectNode) (key : String)

def node : JsonNode := .object json.fields

/-- `get`, null for a key that is not there. -/
def get : Option JsonNode := json.fields.lookup key

def has : Bool := (json.get key).isSome

def keys : List String := json.fields.map (·.1)

/-- `put`: a key that is there keeps its place. -/
def put (value : JsonNode) : ObjectNode :=
  if json.has key then
    { fields := json.fields.map fun field => if field.1 = key then (key, value) else field }
  else { fields := json.fields ++ [(key, value)] }

def putString (value : Option String) : ObjectNode := json.put key ((value.map .text).getD .null)

def putInt (value : Int32) : ObjectNode := json.put key (.int value)

/-- `put` of a node: null becomes a null node. -/
def putNode (value : Option JsonNode) : ObjectNode := json.put key (value.getD .null)

def putPOJO (value : Option JsonNode) : ObjectNode := json.put key (.pojo value)

end ObjectNode

end RabbitJobQueue.Model
