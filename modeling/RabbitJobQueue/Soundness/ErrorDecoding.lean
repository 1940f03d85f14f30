import RabbitJobQueue.Proofs.JsonFields

/-! # Decoding error notifications

`ErrorNotification.fromJson` checks the job ID, the two numbers and the presence of the body. It does not
check the size of the numbers, which `intValue` cuts down to 32 bits, nor the message: one that is no
text becomes null, and an object without one makes the decoding throw.
-/

namespace RabbitJobQueue.Soundness.ErrorDecoding

open Model ErrorNotification

variable {ι : Type} [Textual ι] {json : ObjectNode} {notification : ErrorNotification ι}

/-- The field is not there, or null, or a text. -/
def TextOrNull (json : ObjectNode) (key : String) : Prop :=
  ∀ node, json.get key = some node → node.isNull = true ∨ node.isTextual = true

/-- The notification holds the values of the object. -/
structure Faithful (json : ObjectNode) (notification : ErrorNotification ι) : Prop where
  code : json.HoldsInteger JsonKey.code notification.code.toInt
  attemptCount : json.HoldsInteger JsonKey.attemptCount notification.attemptCount.toInt
  message : ∀ text, json.get JsonKey.message = some (.text text) → notification.message = some text
  noMessage : notification.message = none →
    json.get JsonKey.message = none ∨ json.get JsonKey.message = some .null
  body : notification.body = json.get JsonKey.body

/-- The numbers fit into 32 bits, and the message is a text or null. -/
structure Representable (json : ObjectNode) : Prop where
  code : ∀ value, json.HoldsInteger JsonKey.code value → FitsInt value
  attemptCount : ∀ value, json.HoldsInteger JsonKey.attemptCount value → FitsInt value
  message : TextOrNull json JsonKey.message

/-- The decoded number is the one in the object if that one fits. -/
theorem holdsInteger_iff {key : String} {node : JsonNode} (read : json.get key = some node)
    (integral : node.isIntegralNumber = true) :
    json.HoldsInteger key node.intValue.toInt ↔ ∀ value, json.HoldsInteger key value → FitsInt value := by
  obtain ⟨value, integer⟩ := JsonNode.isIntegralNumber_iff.mp integral
  have held (other : ℤ) : json.HoldsInteger key other ↔ value = other := by
    rw [ObjectNode.HoldsInteger, read, Option.bind_some, integer, Option.some.injEq]
  simp only [held, forall_eq']
  rw [← JsonNode.intValue_eq_iff integer, eq_comm]

/-- An accepted object is decoded faithfully if and only if its values can be represented. -/
theorem faithful_iff_representable (accepted : fromJson json = .ok notification) :
    Faithful json notification ↔ Representable json := by
  obtain ⟨-, ⟨code, readCode, integral, sameCode⟩, ⟨count, readCount, integral', sameCount⟩,
    ⟨message, readMessage, sameMessage⟩, -, sameBody⟩ := fromJson_eq_ok.mp accepted
  have codes := holdsInteger_iff readCode integral
  have counts := holdsInteger_iff readCount integral'
  rw [sameCode] at codes
  rw [sameCount] at counts
  constructor
  · intro faithful
    refine ⟨codes.mp faithful.code, counts.mp faithful.attemptCount, fun node read => ?_⟩
    cases readMessage.symm.trans read
    cases message with
    | null => exact .inl rfl
    | text value => exact .inr rfl
    | _ =>
      have absent := faithful.noMessage sameMessage.symm
      rw [readMessage] at absent
      simp at absent
  · intro representable
    refine ⟨codes.mpr representable.code, counts.mpr representable.attemptCount, ?_, ?_, sameBody.symm⟩
    · intro text read
      cases readMessage.symm.trans read
      exact sameMessage.symm
    · intro absent
      rw [absent] at sameMessage
      rcases representable.message message readMessage with null | textual
      · cases message with
        | null => exact .inr readMessage
        | _ => contradiction
      · cases message with
        | text value => contradiction
        | _ => contradiction

/-- A complete object. -/
def complete : ObjectNode where
  fields := [("jobID", .text "0123456789ABCDEF0123456789ABCDEF"), ("code", .int 5),
    ("message", .text "disk full"), ("attemptCount", .int 1), ("body", .null)]

theorem faithful_iff_representable_complete :
    Faithful complete (⟨"0123456789ABCDEF0123456789ABCDEF", 5, 1, some "disk full", some .null⟩ :
      ErrorNotification String) ↔ Representable complete :=
  faithful_iff_representable rfl

/-- The code 2^32 + 5 is decoded as 5, and a message that is a number as null. -/
theorem code_cut_down : ∃ (json : ObjectNode) (notification : ErrorNotification String),
    json.node.isParsed = true ∧ fromJson json = .ok notification ∧
    json.HoldsInteger JsonKey.code 4294967301 ∧ notification.code = 5 ∧
    json.get JsonKey.message = some (.int 7) ∧ notification.message = none ∧
    ¬ Faithful json notification := by
  refine ⟨⟨[("jobID", .text "0123456789ABCDEF0123456789ABCDEF"), ("code", .long 4294967301),
    ("message", .int 7), ("attemptCount", .int 1), ("body", .null)]⟩, _, by decide, rfl, rfl, rfl, rfl, rfl, ?_⟩
  intro faithful
  have same : (4294967301 : ℤ) = 5 := Option.some.inj faithful.code
  contradiction

/-- What the declaration of the class allows: the job ID is one, the numbers are, the body is there, and
the message is optional. -/
structure Allowed (ι : Type) [Textual ι] (json : ObjectNode) : Prop where
  jobID : ∃ value : ι, json.Holds JsonKey.jobID value
  code : ∃ value, json.HoldsInteger JsonKey.code value ∧ FitsInt value
  attemptCount : ∃ value, json.HoldsInteger JsonKey.attemptCount value ∧ FitsInt value
  message : TextOrNull json JsonKey.message
  body : json.has JsonKey.body = true

/-- A required field is missing, or one of them is of the wrong kind, of which null is one. -/
inductive Malformed (json : ObjectNode) : Prop
  | missing (key : String) (required : key ∈ [JsonKey.jobID, JsonKey.code, JsonKey.attemptCount, JsonKey.body])
      (absent : json.has key = false)
  | jobID (node : JsonNode) (read : json.get JsonKey.jobID = some node) (kind : node.isTextual = false)
  | number (key : String) (required : key ∈ [JsonKey.code, JsonKey.attemptCount]) (node : JsonNode)
      (read : json.get key = some node) (kind : node.isIntegralNumber = false)

/-- What is allowed is accepted, and what is malformed is refused by an `IllegalStateException`. -/
structure Contract (ι : Type) [Textual ι] (json : ObjectNode) : Prop where
  accepts : Allowed ι json → ∃ notification : ErrorNotification ι, fromJson json = .ok notification
  refuses : Malformed json → ThrowsIllegalState (fromJson (ι := ι) json)

/-- The checks catch every malformed object. -/
theorem refused_of_malformed (malformed : Malformed json) : ThrowsIllegalState (fromJson (ι := ι) json) := by
  rw [fromJson]
  refine .bind (json.checkPresent_cases ..) fun hasJobID => ?_
  refine .bind (json.checkPresent_cases ..) fun hasCode => ?_
  refine .bind (json.checkPresent_cases ..) fun hasBody => ?_
  refine .bind (json.checkPresent_cases ..) fun hasCount => ?_
  rw [ObjectNode.checkPresent_eq_ok] at hasJobID hasCode hasBody hasCount
  refine .bind (ObjectNode.checkNotNull_cases _ hasJobID) fun _ => ?_
  refine .bind (ObjectNode.checkNotNull_cases _ hasCode) fun _ => ?_
  refine .bind (ObjectNode.checkNotNull_cases _ hasCount) fun _ => ?_
  refine .bind (ObjectNode.checkKind_cases _ _ _ hasJobID) fun textual => ?_
  refine .bind (ObjectNode.checkKind_cases _ _ _ hasCode) fun integral => ?_
  refine .bind (ObjectNode.checkKind_cases _ _ _ hasCount) fun integral' => ?_
  rw [ObjectNode.checkKind_eq_ok] at textual integral integral'
  obtain ⟨id, readID, textual⟩ := textual
  obtain ⟨code, readCode, integral⟩ := integral
  obtain ⟨count, readCount, integral'⟩ := integral'
  -- every check has passed, so nothing is malformed
  exfalso
  cases malformed with
  | missing key required absent =>
    simp only [List.mem_cons, List.not_mem_nil, or_false] at required
    rcases required with rfl | rfl | rfl | rfl <;> simp_all
  | jobID node read kind =>
    cases readID.symm.trans read
    rw [kind] at textual
    contradiction
  | number key required node read kind =>
    simp only [List.mem_cons, List.not_mem_nil, or_false] at required
    rcases required with rfl | rfl
    · cases readCode.symm.trans read
      rw [kind] at integral
      contradiction
    · cases readCount.symm.trans read
      rw [kind] at integral'
      contradiction

/-- An integer is found by the check for one. -/
theorem integral_of_holdsInteger {key : String} {value : ℤ} (held : json.HoldsInteger key value) :
    ∃ node, json.get key = some node ∧ node.isIntegralNumber = true := by
  obtain ⟨node, read, integer⟩ := Option.bind_eq_some_iff.mp held
  exact ⟨node, read, JsonNode.isIntegralNumber_iff.mpr ⟨value, integer⟩⟩

/-- The contract is kept if and only if an object that is allowed has a message field. -/
theorem contract_iff_message (ι : Type) [Textual ι] (json : ObjectNode) :
    Contract ι json ↔ (Allowed ι json → json.has JsonKey.message = true) := by
  constructor
  · intro contract allowed
    obtain ⟨notification, accepted⟩ := contract.accepts allowed
    obtain ⟨-, -, -, ⟨message, read, -⟩, -⟩ := fromJson_eq_ok.mp accepted
    exact ObjectNode.has_of_get read
  · intro complete
    refine ⟨fun allowed => ?_, refused_of_malformed⟩
    obtain ⟨id, holds⟩ := allowed.jobID
    obtain ⟨_, heldCode, -⟩ := allowed.code
    obtain ⟨_, heldCount, -⟩ := allowed.attemptCount
    obtain ⟨code, readCode, integral⟩ := integral_of_holdsInteger heldCode
    obtain ⟨count, readCount, integral'⟩ := integral_of_holdsInteger heldCount
    obtain ⟨message, readMessage⟩ := ObjectNode.has_iff.mp (complete allowed)
    exact ⟨⟨id, code.intValue, count.intValue, message.textValue, json.get JsonKey.body⟩,
      fromJson_eq_ok.mpr ⟨holds, ⟨code, readCode, integral, rfl⟩, ⟨count, readCount, integral', rfl⟩,
        ⟨message, readMessage, rfl⟩, allowed.body, rfl⟩⟩

/-- Without its optional message the object is allowed, and decoding it throws a
`NullPointerException`. -/
theorem absent_message_throws : ∃ json : ObjectNode, json.node.isParsed = true ∧ Allowed String json ∧
    fromJson (ι := String) json = .error .nullPointer ∧ ¬ Contract String json := by
  have threw : fromJson (ι := String) ⟨[("jobID", .text "0123456789ABCDEF0123456789ABCDEF"),
      ("code", .int 5), ("attemptCount", .int 1), ("body", .null)]⟩ = .error .nullPointer := rfl
  have allowed : Allowed String ⟨[("jobID", .text "0123456789ABCDEF0123456789ABCDEF"),
      ("code", .int 5), ("attemptCount", .int 1), ("body", .null)]⟩ :=
    ⟨⟨_, _, rfl, rfl⟩, ⟨5, rfl, fitsInt_toInt 5⟩, ⟨1, rfl, fitsInt_toInt 1⟩, by rintro _ ⟨⟩, rfl⟩
  refine ⟨_, by decide, allowed, threw, fun contract => ?_⟩
  obtain ⟨notification, accepted⟩ := contract.accepts allowed
  rw [threw] at accepted
  contradiction

end RabbitJobQueue.Soundness.ErrorDecoding
