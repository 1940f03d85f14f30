import RabbitJobQueue.Proofs.JsonText

/-! # Decoding job dispatches

`JobDispatch.fromJson` accepts exactly the objects that hold the five fields of a dispatch, each of its
kind. Other keys are passed over. What it accepts, it decodes without loss: encoded again and published,
the dispatch is read back as an object of these five fields alone, with the ID and the time in canonical
form and the other values unchanged.
-/

namespace RabbitJobQueue.Soundness.DispatchDecoding

open Model JobDispatch

variable (ι θ : Type) [Textual ι] [Textual θ] {mapper : ObjectMapper} {within : JsonNode → Prop}
  {json again : ObjectNode}

/-- All five fields are there, and those that are not the body are of their kinds. -/
structure Complete (json : ObjectNode) : Prop where
  jobID : ∃ value : ι, json.Holds JsonKey.jobID value
  type : ∃ text, json.get JsonKey.type = some (.text text)
  body : json.has JsonKey.body = true
  dispatched : ∃ value : θ, json.Holds JsonKey.dispatched value
  attemptCount : ∃ value, json.HoldsInteger JsonKey.attemptCount value ∧ FitsInt value

/-- The field of the second object is the canonical form of that of the first. -/
def Canonical (json again : ObjectNode) (key : String) : Prop :=
  ∃ value : ι, json.Holds key value ∧ again.get key = some (.text (Textual.string value))

/-- The second object has the five fields of the first and no other. -/
structure Preserved (json again : ObjectNode) : Prop where
  keys : again.keys = [JsonKey.jobID, JsonKey.type, JsonKey.dispatched, JsonKey.attemptCount, JsonKey.body]
  body : again.get JsonKey.body = json.get JsonKey.body
  type : again.get JsonKey.type = json.get JsonKey.type
  attemptCount : again.get JsonKey.attemptCount = json.get JsonKey.attemptCount
  jobID : Canonical ι json again JsonKey.jobID
  dispatched : Canonical θ json again JsonKey.dispatched

variable {ι θ}

/-- In a parsed object, the integers that fit are those that `isInt` finds. -/
theorem holdsInt_iff (parsed : json.node.isParsed = true) {key : String} :
    (∃ value, json.HoldsInteger key value ∧ FitsInt value) ↔
      ∃ held, json.get key = some (.int held) := by
  constructor
  · rintro ⟨value, holds, fits⟩
    obtain ⟨node, read, integer⟩ := Option.bind_eq_some_iff.mp holds
    obtain ⟨held, rfl⟩ :=
      (JsonNode.fitsInt_iff_of_isParsed (ObjectNode.isParsed_of_get parsed read) integer).mp fits
    exact ⟨held, read⟩
  · rintro ⟨held, read⟩
    refine ⟨held.toInt, ?_, fitsInt_toInt held⟩
    rw [ObjectNode.HoldsInteger, read]
    rfl

/-- The checks accept exactly the complete objects. -/
theorem accepted_iff (parsed : json.node.isParsed = true) :
    (∃ dispatch : JobDispatch ι θ, fromJson json = .ok dispatch) ↔ Complete ι θ json := by
  constructor
  · rintro ⟨dispatch, accepted⟩
    obtain ⟨jobID, type, dispatched, count, body, -⟩ := fromJson_eq_ok.mp accepted
    exact ⟨⟨_, jobID⟩, ⟨_, type⟩, body, ⟨_, dispatched⟩, (holdsInt_iff parsed).mpr ⟨_, count⟩⟩
  · rintro ⟨⟨jobID, holdsID⟩, ⟨type, readType⟩, body, ⟨dispatched, holdsTime⟩, count⟩
    obtain ⟨attemptCount, readCount⟩ := (holdsInt_iff parsed).mp count
    exact ⟨⟨jobID, json.get JsonKey.body, type, attemptCount, dispatched⟩,
      fromJson_eq_ok.mpr ⟨holdsID, readType, holdsTime, readCount, body, rfl⟩⟩

/-- An accepted object is kept by encoding what it was decoded to. -/
theorem preserved_of_accepted {dispatch : JobDispatch ι θ} (accepted : fromJson json = .ok dispatch) :
    Preserved ι θ json dispatch.printed := by
  obtain ⟨jobID, type, dispatched, count, body, sameBody⟩ := fromJson_eq_ok.mp accepted
  obtain ⟨tree, readBody⟩ := ObjectNode.has_iff.mp body
  refine ⟨rfl, ?_, type.symm, count.symm, ⟨_, jobID, rfl⟩, ⟨_, dispatched, rfl⟩⟩
  rw [readBody] at sameBody ⊢
  change some (dispatch.body.getD .null) = some tree
  rw [← sameBody, Option.getD_some]

/-- Decoding is exact and lossless. -/
theorem decoding_exact_lossless (lawful : mapper.Lawful within) {bytes : ByteArray}
    (read : Json.fromBytes mapper bytes = .ok json) :
    ((∃ dispatch : JobDispatch ι θ, fromJson json = .ok dispatch) ↔ Complete ι θ json) ∧
    ∀ dispatch : JobDispatch ι θ, fromJson json = .ok dispatch → within dispatch.printed.node →
      ∃ again, Json.fromBytes mapper (dispatch.toBytes mapper) = .ok again ∧ Preserved ι θ json again := by
  have parsed := Json.isParsed_of_fromBytes lawful read
  refine ⟨accepted_iff parsed, fun dispatch accepted fits => ?_⟩
  have body : ParsedBody dispatch.body := by
    obtain ⟨-, -, -, -, -, sameBody⟩ := fromJson_eq_ok.mp accepted
    exact fun tree given => ObjectNode.isParsed_of_get parsed (sameBody.trans given)
  exact ⟨dispatch.printed, JobDispatch.fromBytes_toBytes lawful dispatch body fits,
    preserved_of_accepted accepted⟩

/-- A dispatch with a key of its own. -/
def extended : ObjectNode where
  fields := [("jobID", .text "0123456789ABCDEF0123456789ABCDEF"), ("type", .text "blast"),
    ("dispatched", .text "2024-03-05T10:15:30Z"), ("origin", .array [.null]), ("attemptCount", .int 2),
    ("body", .null)]

theorem decoding_exact_lossless_extended :
    ((∃ dispatch : JobDispatch String String, fromJson extended = .ok dispatch) ↔
      Complete String String extended) ∧
    ∀ dispatch : JobDispatch String String, fromJson extended = .ok dispatch →
      ∃ again, Json.fromBytes JsonText.mapper (dispatch.toBytes JsonText.mapper) = .ok again ∧
        Preserved String String extended again := by
  have read : Json.fromBytes JsonText.mapper (Json.toBytes JsonText.mapper extended) = .ok extended :=
    Json.fromBytes_toBytes_of_isParsed JsonText.mapper_lawful (by decide) trivial
  obtain ⟨exactly, lossless⟩ := @decoding_exact_lossless String String _ _ _ _ _ JsonText.mapper_lawful _ read
  exact ⟨exactly, fun dispatch accepted => lossless dispatch accepted trivial⟩

end RabbitJobQueue.Soundness.DispatchDecoding
