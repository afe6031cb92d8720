import Switchboard.Proofs.Json.RoundTrip
import Switchboard.Proofs.Wire.Shapes

/-!
As what a text that is no envelope is refused: as one of an unknown type if it is an object that
names such a type, and as malformed in every other case, the one of an array that names such a type
included.
-/

namespace Switchboard

variable {name : String} {value : Json} {why : Refusal} {fault : Fault}

theorem Fault.isFatal_of_protocol {code : Code} (coded : fault.code? = some code)
    (protocol : code.category = .protocol) : fault.isFatal = true := by
  have present : code ≠ .notInRoom := by
    intro same
    rw [same] at protocol
    cases protocol
  rw [isFatal_of_code coded]
  simp [protocol, present]

/-! ### Types by name -/

def MessageType.Unknown (name : String) : Prop := ∀ type : MessageType, type.name ≠ name

theorem MessageType.ofName_eq_error :
    ofName name = .error why ↔ Unknown name ∧ why = .unknownType name := by
  have known : Unknown name ↔ all.find? (·.name == name) = none := by
    rw [List.find?_eq_none]
    constructor
    · intro unknown type _ same
      exact unknown type (beq_iff_eq.mp same)
    · intro missing type same
      have listed : type ∈ all := by cases type <;> decide
      exact missing type listed (beq_iff_eq.mpr same)
  rw [known, ofName]
  cases all.find? (·.name == name) <;> simp [eq_comm]

namespace Envelope

/-- What stands where an envelope has its type: the member of that name, or the first item. -/
def typeField? : Json → Option Json
  | .object members => (Json.object members).member? "msg_type"
  | .array items => items[0]?
  | _ => none

/-- The type is given by a name that no type has. -/
def Misnamed (value : Json) : Prop :=
  ∃ name, typeField? value = some (.string name) ∧ MessageType.Unknown name

theorem typeField?_of_member? (named : value.member? "msg_type" = some (.string name)) :
    typeField? value = some (.string name) ∧ ∀ items, value ≠ .array items := by
  cases value with
  | object members => exact ⟨named, fun _ => Json.noConfusion⟩
  | _ => cases named

theorem member?_of_typeField? {field : Json} (named : typeField? value = some field) :
    value.member? "msg_type" = some field ∨ ∃ items, value = .array items := by
  cases value with
  | object members => exact Or.inl named
  | array items => exact Or.inr ⟨items, rfl⟩
  | _ => cases named

theorem checkType_eq_error : checkType value = .error why ↔
    (∃ name, value.member? "msg_type" = some (.string name) ∧ MessageType.Unknown name ∧
      why = .unknownType name) ∨
    (∃ other, value.member? "msg_type" = some other ∧ other ≠ .null ∧
      (∀ name, other ≠ .string name) ∧ why = .typeNotString) := by
  unfold checkType
  cases value.member? "msg_type" with
  | none => simp
  | some field =>
    cases field with
    | string name => simp [map_eq_error, MessageType.ofName_eq_error]
    | _ => simp [eq_comm]

theorem ofJson_eq_error : ofJson value = .error fault ↔
    (∃ why, checkType value = .error why ∧ fault = .refused why) ∨
    (checkType value = .ok () ∧
      ∃ m, record.read Json.format value = .error m ∧ fault = .unreadable (.shape m)) := by
  rw [ofJson]
  cases checkType value with
  | error why =>
    show Except.error (Fault.refused why) = .error fault ↔ _
    simp [eq_comm]
  | ok _ =>
    cases record.read Json.format value with
    | error m =>
      show Except.error (Fault.unreadable (.shape m)) = .error fault ↔ _
      simp [eq_comm]
    | ok e =>
      show Except.ok e = .error fault ↔ _
      simp

theorem parse_eq_error {text : String} : parse text = .error fault ↔
    (∃ e, Json.read text = .error e ∧ fault = .unreadable (.text e)) ∨
    ∃ value, Json.read text = .ok value ∧ ofJson value = .error fault := by
  rw [parse]
  cases Json.read text <;> simp [eq_comm]

/-! ### Refusals and their codes -/

theorem not_optionally_of_unknown {Is : Json → MessageType → Prop} {type? : Option MessageType}
    (named : ∀ type, Is (.string name) type → type.name = name)
    (unknown : MessageType.Unknown name) : ¬ Optionally Is (some (.string name)) type? := by
  intro given
  cases type? with
  | none => rcases given with none | null <;> simp_all
  | some type =>
    obtain ⟨value, same, is⟩ := given
    rw [← Option.some.inj same] at is
    exact unknown type (named type is)

theorem not_describes_of_misnamed {e : Envelope} (misnamed : Misnamed value) :
    ¬ Describes value e := by
  obtain ⟨name, named, unknown⟩ := misnamed
  intro describes
  cases describes with
  | @object members _ filled =>
    have field : (Json.object members).member? "msg_type" = some (.string name) := named
    apply not_optionally_of_unknown _ unknown (field ▸ filled.type)
    intro type same
    exact (Json.string.inj same).symm
  | @array items _ few filled =>
    have field : items[0]? = some (.string name) := named
    apply not_optionally_of_unknown _ unknown (field ▸ filled.type)
    intro type tag
    rcases tag with same | other
    · exact (Json.string.inj same).symm
    · cases other

theorem code_of_ofJson (failed : ofJson value = .error fault) :
    (∃ name, value.member? "msg_type" = some (.string name) ∧ MessageType.Unknown name ∧
      fault = .refused (.unknownType name)) ∨
    (∀ name, value.member? "msg_type" = some (.string name) → ¬ MessageType.Unknown name) ∧
      fault.code? = some .malformedFrame := by
  rcases ofJson_eq_error.mp failed with ⟨why, checked, rfl⟩ | ⟨checked, m, -, rfl⟩
  · rcases checkType_eq_error.mp checked with ⟨name, named, unknown, rfl⟩ |
      ⟨other, given, -, unnamed, rfl⟩
    · exact Or.inl ⟨name, named, unknown, rfl⟩
    · refine Or.inr ⟨fun name named => ?_, rfl⟩
      rw [given] at named
      exact absurd (Option.some.inj named) (unnamed name)
  · refine Or.inr ⟨fun name named unknown => ?_, rfl⟩
    have refused := checkType_eq_error.mpr (Or.inl ⟨name, named, unknown, rfl⟩)
    rw [checked] at refused
    cases refused

theorem code_of_parse {text : String} (failed : parse text = .error fault) :
    (fault.code? = some .unknownMessageType ∧
      ∃ value, Json.IsText text value ∧ Misnamed value ∧ ∀ items, value ≠ .array items) ∨
    (fault.code? = some .malformedFrame ∧
      ∀ value, Json.IsText text value → Misnamed value → ∃ items, value = .array items) := by
  rcases parse_eq_error.mp failed with ⟨e, unread, rfl⟩ | ⟨value, read, failed⟩
  · refine Or.inr ⟨rfl, fun value isText => ?_⟩
    rw [Json.read_iff.mpr isText] at unread
    cases unread
  · rcases code_of_ofJson failed with ⟨name, named, unknown, rfl⟩ | ⟨known, coded⟩
    · obtain ⟨field, unlisted⟩ := typeField?_of_member? named
      exact Or.inl ⟨rfl, value, Json.read_iff.mp read, ⟨name, field, unknown⟩, unlisted⟩
    · refine Or.inr ⟨coded, fun other isText misnamed => ?_⟩
      rw [Json.read_iff.mpr isText] at read
      cases read
      obtain ⟨name, field, unknown⟩ := misnamed
      rcases member?_of_typeField? field with named | listed
      · exact absurd unknown (known name named)
      · exact listed

/-- A text whose type has an unknown name is always refused, and every refusal is fatal. The client
is told of an unknown type exactly if such a text is no array, and of a malformed frame otherwise. -/
theorem refusals_classified (text : String) :
    (∀ value, Json.IsText text value → Misnamed value → ∃ fault, parse text = .error fault) ∧
    ∀ fault, parse text = .error fault →
      fault.isFatal = true ∧
      (fault.code? = some .unknownMessageType ↔ ∃ value, Json.IsText text value ∧
        Misnamed value ∧ ∀ items, value ≠ .array items) ∧
      (fault.code? ≠ some .unknownMessageType → fault.code? = some .malformedFrame) := by
  constructor
  · intro value isText misnamed
    cases parsed : parse text with
    | error fault => exact ⟨fault, rfl⟩
    | ok e => exact absurd (describes_of_parse parsed isText) (not_describes_of_misnamed misnamed)
  · intro fault failed
    rcases code_of_parse failed with ⟨coded, misnamed⟩ | ⟨coded, listed⟩
    · refine ⟨Fault.isFatal_of_protocol coded rfl, iff_of_true coded misnamed, ?_⟩
      intro other
      exact absurd coded other
    · refine ⟨Fault.isFatal_of_protocol coded rfl, ?_, fun _ => coded⟩
      apply iff_of_false
      · rw [coded]
        decide
      · intro ⟨value, isText, misnamed, unlisted⟩
        obtain ⟨items, shape⟩ := listed value isText misnamed
        exact unlisted items shape

/-- An array that names an unknown type is told to be malformed. -/
theorem refusals_classified_array :
    let text := "[\"DANCE\"]"
    ¬ ∀ fault, parse text = .error fault →
      (fault.code? = some .unknownMessageType ↔ ∃ value, Json.IsText text value ∧
        Misnamed value) := by
  intro text classified
  have written : (Json.array [.string "DANCE"]).write = text := by
    simp [text, Json.write, Json.text, Json.bracketed, Json.stringText, Json.escape]
  have plain : (Json.array [.string "DANCE"]).Plain (Json.maxDepth - 1) := by
    apply Json.Plain.array
    intro item member
    rw [List.mem_singleton.mp member]
    exact .string "DANCE"
  have read : Json.read text = .ok (.array [.string "DANCE"]) := by
    rw [← written, Json.read_write plain]
    simp [Json.sorted]
  have failed : parse text = .error (.unreadable (.shape (.unknownVariant "DANCE"
      (MessageType.all.map MessageType.name)))) := by
    rw [parse, read]
    rfl
  have unknown : MessageType.Unknown "DANCE" := by
    intro type
    cases type <;> decide
  have told := (classified _ failed).mpr ⟨_, Json.read_iff.mp read, "DANCE", rfl, unknown⟩
  cases told

end Envelope

end Switchboard
