import RabbitJobQueue.Model.JobDispatch
import RabbitJobQueue.Model.Notifications

/-! # What the checks of `fromJson` come to

Each check passes, or throws an `IllegalStateException` that names its field. Run one after the other
they accept exactly the objects whose fields are all there and of the right kind, and every other object
they refuse with the exception of the first check it fails.
-/

namespace RabbitJobQueue.Model

open Machine

variable {α β : Type} {ι θ : Type} [Textual ι] [Textual θ] {within : JsonNode → Prop}

/-- The code throws an `IllegalStateException`. -/
def ThrowsIllegalState (code : Except Throwable α) : Prop := ∃ message, code = .error (.illegalState message)

/-- A check that may throw stands in front of code that throws if it is reached. -/
theorem ThrowsIllegalState.bind {check : Except Throwable Unit} {rest : Unit → Except Throwable β}
    (checked : check = .ok () ∨ ThrowsIllegalState check)
    (later : check = .ok () → ThrowsIllegalState (rest ())) : ThrowsIllegalState (check >>= rest) := by
  rcases checked with passed | ⟨message, thrown⟩
  · obtain ⟨message, thrown⟩ := later passed
    exact ⟨message, by rw [passed]; exact thrown⟩
  · exact ⟨message, by rw [thrown]; rfl⟩

/-- The integers of 32 bits. -/
def FitsInt (value : ℤ) : Prop := -2 ^ 31 ≤ value ∧ value < 2 ^ 31

theorem fitsInt_toInt (value : Int32) : FitsInt value.toInt := ⟨value.le_toInt, value.toInt_lt⟩

private theorem bmod_eq_self_iff (value : ℤ) : value.bmod (2 ^ 32) = value ↔ FitsInt value := by
  constructor
  · intro same
    have below := Int.bmod_lt (x := value) (m := 2 ^ 32) (by decide)
    have above := Int.le_bmod (x := value) (m := 2 ^ 32) (by decide)
    rw [FitsInt]
    omega
  · rintro ⟨above, below⟩
    exact Int.bmod_eq_of_le (by omega) (by omega)

namespace JsonNode

theorem isIntegralNumber_iff {node : JsonNode} :
    node.isIntegralNumber = true ↔ ∃ value, node.integer = some value := by
  cases node <;> simp [isIntegralNumber, integer]

/-- `intValue` keeps an integer exactly if it fits. -/
theorem intValue_eq_iff {node : JsonNode} {value : ℤ} (integer : node.integer = some value) :
    node.intValue.toInt = value ↔ FitsInt value := by
  cases node with
  | int held => cases integer; exact iff_of_true rfl (fitsInt_toInt held)
  | long held =>
    cases integer
    rw [intValue, Int64.toInt_toInt32]
    exact bmod_eq_self_iff _
  | bigInteger held =>
    cases integer
    rw [intValue, Int32.toInt_ofInt]
    exact bmod_eq_self_iff _
  | _ => contradiction

/-- In the form of the parser, the integers that fit are the int nodes. -/
theorem fitsInt_iff_of_isParsed {node : JsonNode} (parsed : node.isParsed = true) {value : ℤ}
    (integer : node.integer = some value) : FitsInt value ↔ ∃ held, node = .int held := by
  cases node with
  | int held => cases integer; exact iff_of_true (fitsInt_toInt held) ⟨held, rfl⟩
  | long held =>
    cases integer
    rw [isParsed, Bool.or_eq_true, decide_eq_true_iff, decide_eq_true_iff] at parsed
    refine iff_of_false (fun fits => ?_) (by rintro ⟨_, same⟩; contradiction)
    rw [FitsInt] at fits
    omega
  | bigInteger held =>
    cases integer
    rw [isParsed, Bool.or_eq_true, decide_eq_true_iff, decide_eq_true_iff] at parsed
    refine iff_of_false (fun fits => ?_) (by rintro ⟨_, same⟩; contradiction)
    rw [FitsInt] at fits
    omega
  | _ => contradiction

end JsonNode

namespace ObjectNode

variable {json : ObjectNode} {title key kind : String} {isKind : JsonNode → Bool}

theorem has_iff : json.has key = true ↔ ∃ node, json.get key = some node := by
  rw [has, Option.isSome_iff_exists]

private theorem deref_eq_ok {node : JsonNode} : json.deref key = .ok node ↔ json.get key = some node := by
  rw [deref]
  cases json.get key <;> simp

private theorem textValue_eq_ok {value : String} :
    json.textValue key = .ok value ↔ json.get key = some (.text value) := by
  rw [textValue]
  rw [except_bind_eq_ok]
  constructor
  · rintro ⟨node, read, text⟩
    rw [deref_eq_ok] at read
    cases node with
    | text other => cases text; exact read
    | _ => contradiction
  · intro read
    exact ⟨.text value, deref_eq_ok.mpr read, rfl⟩

theorem checkPresent_eq_ok : json.checkPresent title key = .ok () ↔ json.has key = true := by
  rw [checkPresent]
  split <;> simp_all

private theorem checkNotNull_eq_ok : json.checkNotNull title key = .ok () ↔
    ∃ node, json.get key = some node ∧ node.isNull = false := by
  rw [checkNotNull]
  simp only [except_bind_eq_ok, deref_eq_ok]
  refine exists_congr fun node => and_congr_right fun _ => ?_
  cases node.isNull <;> simp

theorem checkKind_eq_ok : json.checkKind isKind kind title key = .ok () ↔
    ∃ node, json.get key = some node ∧ isKind node = true := by
  rw [checkKind]
  simp only [except_bind_eq_ok, deref_eq_ok]
  refine exists_congr fun node => and_congr_right fun _ => ?_
  cases isKind node <;> simp

theorem has_of_get {node : JsonNode} (read : json.get key = some node) : json.has key = true :=
  has_iff.mpr ⟨node, read⟩

/-- `checkPresent` passes or names its field. -/
theorem checkPresent_cases (json : ObjectNode) (title key : String) :
    json.checkPresent title key = .ok () ∨ ThrowsIllegalState (json.checkPresent title key) := by
  rw [checkPresent]
  split
  · exact .inl rfl
  · exact .inr ⟨_, rfl⟩

theorem checkNotNull_cases (title : String) (present : json.has key = true) :
    json.checkNotNull title key = .ok () ∨ ThrowsIllegalState (json.checkNotNull title key) := by
  obtain ⟨node, read⟩ := has_iff.mp present
  have found := deref_eq_ok.mpr read
  rw [checkNotNull]
  rw [found]
  change (if node.isNull then _ else _) = _ ∨ ThrowsIllegalState (if node.isNull then _ else _)
  split
  · exact .inr ⟨_, rfl⟩
  · exact .inl rfl

theorem checkKind_cases (isKind : JsonNode → Bool) (kind title : String) (present : json.has key = true) :
    json.checkKind isKind kind title key = .ok () ∨
      ThrowsIllegalState (json.checkKind isKind kind title key) := by
  obtain ⟨node, read⟩ := has_iff.mp present
  have found := deref_eq_ok.mpr read
  rw [checkKind]
  rw [found]
  change (if isKind node then _ else _) = _ ∨ ThrowsIllegalState (if isKind node then _ else _)
  split
  · exact .inl rfl
  · exact .inr ⟨_, rfl⟩

/-- A field of an object that was read is in the form of the parser. -/
theorem isParsed_of_get (parsed : json.node.isParsed = true) {node : JsonNode}
    (read : json.get key = some node) : node.isParsed = true := by
  rw [ObjectNode.node, JsonNode.isParsed, Bool.and_eq_true, JsonNode.fieldsParsed_iff] at parsed
  obtain ⟨before, after, fields, -⟩ := List.lookup_eq_some_iff.mp read
  exact parsed.2 key node (fields ▸ List.mem_append_right before List.mem_cons_self)

/-- The field holds an integer literal of this value. -/
def HoldsInteger (json : ObjectNode) (key : String) (value : ℤ) : Prop :=
  (json.get key).bind JsonNode.integer = some value

/-- The field holds a text the type accepts, and this is the value. -/
def Holds (json : ObjectNode) (key : String) (value : ι) : Prop :=
  ∃ text, json.get key = some (.text text) ∧ Textual.parse text = .ok value

end ObjectNode

/-- What is printed is read back as the tree that was printed. -/
theorem Json.fromBytes_toBytes {mapper : ObjectMapper} (lawful : mapper.Lawful within) {json : ObjectNode}
    (parsed : json.node.printed.isParsed = true) (fits : within json.node.printed) :
    Json.fromBytes mapper (Json.toBytes mapper json) = .ok ⟨JsonNode.fieldsPrinted json.fields⟩ := by
  unfold Json.fromBytes Json.toBytes
  rw [lawful.print_printed, lawful.parse_print _ parsed fits, ObjectNode.node, JsonNode.printed]

/-- A tree in the form of the parser is read back as it is. -/
theorem Json.fromBytes_toBytes_of_isParsed {mapper : ObjectMapper} (lawful : mapper.Lawful within)
    {json : ObjectNode} (parsed : json.node.isParsed = true) (fits : within json.node) :
    Json.fromBytes mapper (Json.toBytes mapper json) = .ok json := by
  have printed := JsonNode.printed_of_isParsed _ parsed
  rw [Json.fromBytes_toBytes lawful (printed.symm ▸ parsed) (printed.symm ▸ fits)]
  rw [ObjectNode.node, JsonNode.printed, JsonNode.object.injEq] at printed
  rw [printed]

/-- What is read is in the form of the parser. -/
theorem Json.isParsed_of_fromBytes {mapper : ObjectMapper} (lawful : mapper.Lawful within) {bytes : ByteArray}
    {json : ObjectNode} (read : Json.fromBytes mapper bytes = .ok json) : json.node.isParsed = true := by
  rw [Json.fromBytes] at read
  split at read
  · rename_i fields found
    cases read
    exact lawful.isParsed_of_parse bytes _ found
  all_goals contradiction

/-- A body is null or a tree in the form of the parser. -/
def ParsedBody (body : Option JsonNode) : Prop := ∀ tree ∈ body, tree.isParsed = true

private theorem isParsed_getD {body : Option JsonNode} (parsed : ParsedBody body) :
    (body.getD .null).isParsed = true := by
  cases body with
  | none => rfl
  | some tree => exact parsed tree rfl

/-- Texts that stand for themselves. -/
instance : Textual String where
  string := id
  parse := .ok

instance : LawfulTextual String := ⟨fun _ => rfl⟩

/-- The objects `ErrorNotification.fromJson` accepts, and what it makes of them. -/
theorem ErrorNotification.fromJson_eq_ok {json : ObjectNode} {notification : ErrorNotification ι} :
    fromJson json = .ok notification ↔
      json.Holds JsonKey.jobID notification.jobID ∧
      (∃ node, json.get JsonKey.code = some node ∧ node.isIntegralNumber = true ∧
        node.intValue = notification.code) ∧
      (∃ node, json.get JsonKey.attemptCount = some node ∧ node.isIntegralNumber = true ∧
        node.intValue = notification.attemptCount) ∧
      (∃ node, json.get JsonKey.message = some node ∧ node.textValue = notification.message) ∧
      json.has JsonKey.body = true ∧ json.get JsonKey.body = notification.body := by
  simp only [fromJson, check_bind_eq_ok, ObjectNode.checkPresent_eq_ok, ObjectNode.checkNotNull_eq_ok,
    ObjectNode.checkKind_eq_ok]
  simp only [except_bind_eq_ok, except_map_eq_ok, ObjectNode.textValue_eq_ok, ObjectNode.deref_eq_ok]
  constructor
  · rintro ⟨-, -, body, -, -, -, -, -, ⟨code, readCode, integral⟩, ⟨count, readCount, integral'⟩,
      text, readText, id, parsed, _, ⟨_, same, rfl⟩, _, ⟨message, readMessage, rfl⟩, _, ⟨_, same', rfl⟩,
      made⟩
    cases made
    cases readCode.symm.trans same
    cases readCount.symm.trans same'
    exact ⟨⟨text, readText, parsed⟩, ⟨code, readCode, integral, rfl⟩, ⟨count, readCount, integral', rfl⟩,
      ⟨message, readMessage, rfl⟩, body, rfl⟩
  · rintro ⟨⟨text, readText, parsed⟩, ⟨code, readCode, integral, sameCode⟩,
      ⟨count, readCount, integral', sameCount⟩, ⟨message, readMessage, sameMessage⟩, body, sameBody⟩
    have notNull {node : JsonNode} (integral : node.isIntegralNumber = true) : node.isNull = false := by
      cases node <;> first | rfl | contradiction
    refine ⟨ObjectNode.has_of_get readText, ObjectNode.has_of_get readCode, body,
      ObjectNode.has_of_get readCount, ⟨_, readText, rfl⟩,
      ⟨_, readCode, notNull integral⟩, ⟨_, readCount, notNull integral'⟩, ⟨_, readText, rfl⟩,
      ⟨_, readCode, integral⟩, ⟨_, readCount, integral'⟩, text, readText, _, parsed, _,
      ⟨_, readCode, rfl⟩, _, ⟨_, readMessage, rfl⟩, _, ⟨_, readCount, rfl⟩, ?_⟩
    rw [sameCode, sameCount, sameMessage, sameBody]
    rfl

/-- The fields of a notification, in the order in which they are put. -/
theorem ErrorNotification.toJson_eq (notification : ErrorNotification ι) : notification.toJson =
    ⟨[(JsonKey.jobID, .text (Textual.string notification.jobID)), (JsonKey.code, .int notification.code),
      (JsonKey.message, (notification.message.map .text).getD .null),
      (JsonKey.attemptCount, .int notification.attemptCount),
      (JsonKey.body, notification.body.getD .null)]⟩ := rfl

/-- Of a notification only the body is a tree. -/
theorem ErrorNotification.isParsed_toJson (notification : ErrorNotification ι)
    (parsed : ParsedBody notification.body) :
    notification.toJson.node.isParsed = true := by
  have body := isParsed_getD parsed
  have message : ((notification.message.map JsonNode.text).getD .null).isParsed = true := by
    cases notification.message <;> rfl
  rw [toJson_eq]
  simp [ObjectNode.node, JsonNode.isParsed, JsonNode.fieldsParsed, body, message, JsonKey.jobID, JsonKey.code,
    JsonKey.message, JsonKey.attemptCount, JsonKey.body]

/-- What `toJson` makes of a notification is decoded to it, but for a body that is null. -/
theorem ErrorNotification.fromJson_toJson [LawfulTextual ι] (notification : ErrorNotification ι) :
    fromJson notification.toJson =
      .ok { notification with body := some (notification.body.getD .null) } := by
  rw [toJson_eq]
  refine fromJson_eq_ok.mpr ⟨⟨_, rfl, LawfulTextual.parse_string _⟩, ⟨_, rfl, rfl, rfl⟩, ⟨_, rfl, rfl, rfl⟩,
    ⟨_, rfl, ?_⟩, rfl, rfl⟩
  cases notification.message <;> rfl

/-- The objects `JobDispatch.fromJson` accepts, and what it makes of them. -/
theorem JobDispatch.fromJson_eq_ok {json : ObjectNode} {dispatch : JobDispatch ι θ} :
    fromJson json = .ok dispatch ↔
      json.Holds JsonKey.jobID dispatch.jobID ∧
      json.get JsonKey.type = some (.text dispatch.type) ∧
      json.Holds JsonKey.dispatched dispatch.dispatched ∧
      json.get JsonKey.attemptCount = some (.int dispatch.attemptCount) ∧
      json.has JsonKey.body = true ∧ json.get JsonKey.body = dispatch.body := by
  simp only [fromJson, check_bind_eq_ok, ObjectNode.checkPresent_eq_ok, ObjectNode.checkNotNull_eq_ok,
    ObjectNode.checkKind_eq_ok]
  simp only [except_bind_eq_ok, except_map_eq_ok, ObjectNode.textValue_eq_ok, ObjectNode.deref_eq_ok]
  constructor
  · rintro ⟨-, -, body, -, -, -, -, -, -, -, -, -, ⟨count, readCount, isInt⟩, text, readText, id, parsed,
      type, readType, time, readTime, dispatched, parsedTime, _, ⟨_, same, rfl⟩, made⟩
    cases made
    cases readCount.symm.trans same
    cases count with
    | int value =>
      exact ⟨⟨text, readText, parsed⟩, readType, ⟨time, readTime, parsedTime⟩, readCount, body, rfl⟩
    | _ => contradiction
  · rintro ⟨⟨text, readText, parsed⟩, readType, ⟨time, readTime, parsedTime⟩, readCount, body, sameBody⟩
    refine ⟨ObjectNode.has_of_get readText, ObjectNode.has_of_get readType, body,
      ObjectNode.has_of_get readTime, ObjectNode.has_of_get readCount,
      ⟨_, readText, rfl⟩, ⟨_, readType, rfl⟩, ⟨_, readTime, rfl⟩, ⟨_, readCount, rfl⟩,
      ⟨_, readText, rfl⟩, ⟨_, readType, rfl⟩, ⟨_, readTime, rfl⟩, ⟨_, readCount, rfl⟩,
      text, readText, _, parsed, _, readType, time, readTime, _, parsedTime, _, ⟨_, readCount, rfl⟩, ?_⟩
    rw [sameBody]
    rfl

/-- The objects `SuccessNotification.fromJson` accepts, and what it makes of them. -/
theorem SuccessNotification.fromJson_eq_ok {json : ObjectNode} {notification : SuccessNotification ι} :
    fromJson json = .ok notification ↔ json.Holds JsonKey.jobID notification.jobID := by
  simp only [fromJson, check_bind_eq_ok, ObjectNode.checkPresent_eq_ok, ObjectNode.checkNotNull_eq_ok,
    ObjectNode.checkKind_eq_ok]
  simp only [except_bind_eq_ok, ObjectNode.textValue_eq_ok]
  constructor
  · rintro ⟨-, -, -, text, readText, id, parsed, made⟩
    cases made
    exact ⟨text, readText, parsed⟩
  · rintro ⟨text, readText, parsed⟩
    exact ⟨ObjectNode.has_of_get readText, ⟨_, readText, rfl⟩, ⟨_, readText, rfl⟩, text, readText, _, parsed,
      rfl⟩

/-- The fields of a dispatch, in the order in which they are put. -/
theorem JobDispatch.toJson_eq (dispatch : JobDispatch ι θ) : dispatch.toJson =
    ⟨[(JsonKey.jobID, .text (Textual.string dispatch.jobID)), (JsonKey.type, .text dispatch.type),
      (JsonKey.dispatched, .text (Textual.string dispatch.dispatched)),
      (JsonKey.attemptCount, .int dispatch.attemptCount), (JsonKey.body, .pojo dispatch.body)]⟩ := rfl

/-- The object of a dispatch as it is printed, with the body in place of the POJO node. -/
def JobDispatch.printed (dispatch : JobDispatch ι θ) : ObjectNode where
  fields := [(JsonKey.jobID, .text (Textual.string dispatch.jobID)), (JsonKey.type, .text dispatch.type),
    (JsonKey.dispatched, .text (Textual.string dispatch.dispatched)),
    (JsonKey.attemptCount, .int dispatch.attemptCount), (JsonKey.body, dispatch.body.getD .null)]

/-- A dispatch that was published is read back as the object that was printed. -/
theorem JobDispatch.fromBytes_toBytes {mapper : ObjectMapper} (lawful : mapper.Lawful within)
    (dispatch : JobDispatch ι θ) (parsed : ParsedBody dispatch.body) (fits : within dispatch.printed.node) :
    Json.fromBytes mapper (dispatch.toBytes mapper) = .ok dispatch.printed := by
  have body : JsonNode.valuePrinted dispatch.body = dispatch.body.getD .null := by
    cases given : dispatch.body with
    | none => rfl
    | some tree =>
      rw [JsonNode.valuePrinted, JsonNode.printed_of_isParsed tree (parsed tree given), Option.getD_some]
  have printed : dispatch.toJson.node.printed = dispatch.printed.node := by
    rw [toJson_eq]
    simp only [ObjectNode.node, JobDispatch.printed, JsonNode.printed, JsonNode.fieldsPrinted, body]
  have whole : dispatch.printed.node.isParsed = true := by
    have tree := isParsed_getD parsed
    simp [ObjectNode.node, JobDispatch.printed, JsonNode.isParsed, JsonNode.fieldsParsed, tree, JsonKey.jobID,
      JsonKey.type, JsonKey.dispatched, JsonKey.attemptCount, JsonKey.body]
  rw [JobDispatch.toBytes]
  rw [Json.fromBytes_toBytes lawful (printed.symm ▸ whole) (printed.symm ▸ fits)]
  rw [ObjectNode.node, JsonNode.printed, ObjectNode.node, JsonNode.object.injEq] at printed
  rw [printed]

end RabbitJobQueue.Model
