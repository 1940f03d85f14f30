import RabbitJobQueue.Proofs.JsonText

/-! # Encoding and decoding messages

A message is decoded from the object it was encoded as, or from the bytes that object was published as.
`ErrorNotification` puts its body into the object as it is, so that only a null body comes back
differently, as a null node; a `SuccessNotification` has no body and always comes back. `JobDispatch`
wraps its body in a POJO node, which is there as long as the object has not been printed.
-/

namespace RabbitJobQueue.Soundness.MessageRoundTrip

open Machine Model

variable {ι θ : Type} [Textual ι] [LawfulTextual ι] [Textual θ] [LawfulTextual θ] {mapper : ObjectMapper}
  {within : JsonNode → Prop}

/-- Both ways make of a null body a null node, and keep everything else. -/
theorem notification_returned (lawful : mapper.Lawful within) (notification : ErrorNotification ι)
    (parsed : ParsedBody notification.body) (fits : within notification.toJson.node) :
    ErrorNotification.fromJson notification.toJson =
      .ok { notification with body := some (notification.body.getD .null) } ∧
    ErrorNotification.fromBytes mapper (notification.toBytes mapper) =
      .ok { notification with body := some (notification.body.getD .null) } := by
  have direct := ErrorNotification.fromJson_toJson notification
  refine ⟨direct, ?_⟩
  unfold ErrorNotification.fromBytes ErrorNotification.toBytes
  rw [Json.fromBytes_toBytes_of_isParsed lawful (notification.isParsed_toJson parsed) fits,
    except_ok_bind]
  exact direct

private theorem some_getD_eq_self_iff (body : Option JsonNode) :
    some (body.getD .null) = body ↔ body ≠ none := by
  cases body <;> simp

/-- A notification comes back, directly and from the bytes that were published, if and only if its body is
not null. -/
theorem notification_returns_iff_body (lawful : mapper.Lawful within) (notification : ErrorNotification ι)
    (parsed : ParsedBody notification.body) (fits : within notification.toJson.node) :
    (ErrorNotification.fromJson notification.toJson = .ok notification ∧
      ErrorNotification.fromBytes mapper (notification.toBytes mapper) = .ok notification) ↔
    notification.body ≠ none := by
  obtain ⟨direct, published⟩ := notification_returned lawful notification parsed fits
  rw [direct, published, and_self, Except.ok.injEq, ← some_getD_eq_self_iff]
  exact ⟨fun same => congrArg ErrorNotification.body same, fun same => by rw [same]⟩

theorem notification_returns_iff_body_report :
    (ErrorNotification.fromJson (⟨"0123456789ABCDEF0123456789ABCDEF", 5, 1, none, some (.array [.int 7])⟩ :
        ErrorNotification String).toJson =
        .ok ⟨"0123456789ABCDEF0123456789ABCDEF", 5, 1, none, some (.array [.int 7])⟩ ∧
      ErrorNotification.fromBytes JsonText.mapper
        ((⟨"0123456789ABCDEF0123456789ABCDEF", 5, 1, none, some (.array [.int 7])⟩ :
          ErrorNotification String).toBytes JsonText.mapper) =
        .ok ⟨"0123456789ABCDEF0123456789ABCDEF", 5, 1, none, some (.array [.int 7])⟩) ↔
    some (JsonNode.array [.int 7]) ≠ none :=
  notification_returns_iff_body JsonText.mapper_lawful _ (by rintro _ ⟨⟩; rfl) trivial

/-- A notification without a body comes back with a null node. -/
theorem null_body_not_returned : ∃ notification : ErrorNotification String,
    ParsedBody notification.body ∧
    ErrorNotification.fromJson notification.toJson = .ok { notification with body := some .null } ∧
    ¬ ErrorNotification.fromJson notification.toJson = .ok notification := by
  refine ⟨⟨"0123456789ABCDEF0123456789ABCDEF", 5, 1, none, none⟩, by rintro _ ⟨⟩, rfl, fun same => ?_⟩
  have body := congrArg ErrorNotification.body (Except.ok.inj same)
  contradiction

/-- A success notification always comes back. -/
theorem success_returns (lawful : mapper.Lawful within) (notification : SuccessNotification ι)
    (fits : within notification.toJson.node) :
    SuccessNotification.fromJson notification.toJson = .ok notification ∧
      SuccessNotification.fromBytes mapper (notification.toBytes mapper) = .ok notification := by
  have direct : SuccessNotification.fromJson notification.toJson = .ok notification :=
    SuccessNotification.fromJson_eq_ok.mpr ⟨_, rfl, LawfulTextual.parse_string _⟩
  have parsed : notification.toJson.node.isParsed = true := rfl
  refine ⟨direct, ?_⟩
  unfold SuccessNotification.fromBytes SuccessNotification.toBytes
  rw [Json.fromBytes_toBytes_of_isParsed lawful parsed fits, except_ok_bind]
  exact direct

/-- In the object a dispatch is encoded as, the body is wrapped. -/
theorem dispatch_direct (dispatch : JobDispatch ι θ) :
    JobDispatch.fromJson dispatch.toJson = .ok { dispatch with body := some (.pojo dispatch.body) } := by
  rw [JobDispatch.toJson_eq]
  exact JobDispatch.fromJson_eq_ok.mpr ⟨⟨_, rfl, LawfulTextual.parse_string _⟩, rfl,
    ⟨_, rfl, LawfulTextual.parse_string _⟩, rfl, rfl, rfl⟩

/-- In the object that is read from the bytes, it is a null node instead of null. -/
theorem dispatch_published (lawful : mapper.Lawful within) (dispatch : JobDispatch ι θ)
    (parsed : ParsedBody dispatch.body) (fits : within dispatch.printed.node) :
    JobDispatch.fromBytes mapper (dispatch.toBytes mapper) =
      .ok { dispatch with body := some (dispatch.body.getD .null) } := by
  rw [JobDispatch.fromBytes]
  rw [JobDispatch.fromBytes_toBytes lawful dispatch parsed fits, except_ok_bind]
  exact JobDispatch.fromJson_eq_ok.mpr ⟨⟨_, rfl, LawfulTextual.parse_string _⟩, rfl,
    ⟨_, rfl, LawfulTextual.parse_string _⟩, rfl, rfl, rfl⟩

/-- No dispatch comes back from the object it is encoded as. From the bytes it does, within the limits of the
mapper, if and only if its body is not null. -/
theorem dispatch_never_returns (lawful : mapper.Lawful within) (dispatch : JobDispatch ι θ)
    (parsed : ParsedBody dispatch.body) :
    JobDispatch.fromJson dispatch.toJson ≠ .ok dispatch ∧
    (within dispatch.printed.node →
      (JobDispatch.fromBytes mapper (dispatch.toBytes mapper) = .ok dispatch ↔ dispatch.body ≠ none)) := by
  constructor
  · rw [dispatch_direct]
    intro same
    -- a POJO node is not in the form of the parser
    have body : some (.pojo dispatch.body) = dispatch.body :=
      congrArg JobDispatch.body (Except.ok.inj same)
    have pojo := parsed _ body.symm
    rw [JsonNode.isParsed] at pojo
    contradiction
  · intro fits
    rw [dispatch_published lawful dispatch parsed fits, Except.ok.injEq, ← some_getD_eq_self_iff]
    exact ⟨fun same => congrArg JobDispatch.body same, fun same => by rw [same]⟩

/-- A dispatch with a body of its own kind. -/
def query : JobDispatch String String where
  jobID := "0123456789ABCDEF0123456789ABCDEF"
  body := some (.object [("sequence", .text "ACGT"), ("hits", .array [.int 3, .null])])
  type := "blast"
  dispatched := "2024-03-05T10:15:30Z"

theorem dispatch_never_returns_query :
    JobDispatch.fromJson query.toJson ≠ .ok query ∧
    (JobDispatch.fromBytes JsonText.mapper (query.toBytes JsonText.mapper) = .ok query ↔
      query.body ≠ none) := by
  obtain ⟨direct, published⟩ :=
    dispatch_never_returns JsonText.mapper_lawful query (by rintro _ ⟨⟩; decide)
  exact ⟨direct, published trivial⟩

/-- A dispatch without a body. -/
def empty : JobDispatch String String where
  jobID := "0123456789ABCDEF0123456789ABCDEF"
  dispatched := "2024-03-05T10:15:30Z"

/-- Its null body comes back as a node that wraps null. -/
theorem null_body_wrapped : ∃ dispatch : JobDispatch String String, ParsedBody dispatch.body ∧
    dispatch.body = none ∧
    JobDispatch.fromJson dispatch.toJson = .ok { dispatch with body := some (.pojo none) } ∧
    ¬ JobDispatch.fromJson dispatch.toJson = .ok dispatch := by
  refine ⟨empty, by rintro _ ⟨⟩, rfl, rfl, fun same => ?_⟩
  have body := congrArg JobDispatch.body (Except.ok.inj same)
  contradiction

end RabbitJobQueue.Soundness.MessageRoundTrip
