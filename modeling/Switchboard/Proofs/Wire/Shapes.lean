import Switchboard.Proofs.Json.Sound
import Switchboard.Wire.Envelope

/-!
Which JSON values are envelopes, and so which texts: objects by the names of the fields, and arrays
by their positions.
-/

namespace Switchboard

open Shape

variable {α : Type} {value : Json}

/-! ### What a field may be -/

def IsString (value : Json) (s : String) : Prop := value = .string s

/-- Doubles are no words, whatever they amount to; so neither is a zero with a minus sign. -/
def IsWord (value : Json) (n : UInt64) : Prop := value = .number (.int n.toNat)

namespace MessageType

def IsName (value : Json) (t : MessageType) : Prop := value = .string t.name

def IsTag (value : Json) (t : MessageType) : Prop :=
  value = .string t.name ∨ value = .object [(t.name, .null)]

end MessageType

/-- A field that may be left out. Null says as little as its absence. -/
def Optionally (Is : Json → α → Prop) (value? : Option Json) : Option α → Prop
  | none => value? = none ∨ value? = some .null
  | some x => ∃ value, value? = some value ∧ Is value x

namespace Envelope

/-- Four fields that may be there, and the envelope that they make up. -/
structure Filled (IsType : Json → MessageType → Prop)
    (type? content? conversation? token? : Option Json) (e : Envelope) : Prop where
  type : Optionally IsType type? e.type?
  content : Optionally IsString content? e.content?
  conversation : Optionally IsWord conversation? e.conversation?
  token : Optionally IsString token? e.token?

/-- Members with other names do not matter, but an array has no room for more. -/
inductive Describes : Json → Envelope → Prop
  | object {members : List (String × Json)} {e : Envelope}
    (filled : Filled MessageType.IsName ((Json.object members).member? "msg_type")
      ((Json.object members).member? "content") ((Json.object members).member? "conversation_id")
      ((Json.object members).member? "token") e) : Describes (.object members) e
  | array {items : List Json} {e : Envelope} (few : items.length ≤ 4)
    (filled : Filled MessageType.IsTag items[0]? items[1]? items[2]? items[3]? e) :
    Describes (.array items) e

end Envelope

/-! ### Reading a field -/

theorem bind_eq_ok {ε β γ : Type} {x : Except ε β} {f : β → Except ε γ} {c : γ} :
    x >>= f = .ok c ↔ ∃ b, x = .ok b ∧ f b = .ok c := by
  cases x <;> simp [bind, Except.bind]

theorem map_eq_ok {ε β γ : Type} {x : Except ε β} {f : β → γ} {c : γ} :
    x.map f = .ok c ↔ ∃ b, x = .ok b ∧ f b = c := by
  cases x <;> simp [Except.map]

theorem map_eq_error {ε β γ : Type} {x : Except ε β} {f : β → γ} {e : ε} :
    x.map f = .error e ↔ x = .error e := by
  cases x <;> simp [Except.map]

theorem string_iff {s : String} : Json.format.string value = .ok s ↔ IsString value s := by
  unfold Format.string IsString
  cases value with
  | number x => cases x <;> simp [Json.format, Json.view, Format.mistyped]
  | _ => simp [Json.format, Json.view, Format.mistyped]

theorem word_iff {expected : String} {n : UInt64} :
    Json.format.word expected value = .ok n ↔ IsWord value n := by
  unfold Format.word IsWord
  cases value with
  | number x =>
    cases x with
    | int k =>
      show (if 0 ≤ k ∧ k.toNat < Nat.pow 2 64 then Except.ok k.toNat.toUInt64
        else .error (Mismatch.invalidValue (.int k) expected)) = .ok n ↔ _
      rw [Json.number.injEq, Number.int.injEq]
      constructor
      · intro read
        split at read
        · next fits =>
          cases read
          rw [show k.toNat.toUInt64.toNat = k.toNat from UInt64.toNat_ofNat_of_lt' fits.2]
          omega
        · cases read
      · rintro rfl
        rw [if_pos ⟨Int.natCast_nonneg _, n.toNat_lt⟩, Int.toNat_natCast]
        exact congrArg Except.ok UInt64.ofNat_toNat
    | float x => simp [Json.format, Json.view, Format.mistyped]
  | _ => simp [Json.format, Json.view, Format.mistyped]

theorem tag_iff {name : String} : Json.tag value = .ok (name, .ok ()) ↔
    value = .string name ∨ value = .object [(name, .null)] := by
  unfold Json.tag
  split <;> simp_all

theorem find?_name {name label : String} {t : MessageType} :
    (MessageType.all.map fun t => (t.name, t)).find? (·.1 == name) = some (label, t) ↔
      label = name ∧ t.name = name := by
  constructor
  · intro found
    obtain ⟨_, -, same⟩ := List.mem_map.mp (List.mem_of_find?_eq_some found)
    have named : label = name := by simpa using List.find?_some found
    cases same
    exact ⟨named, named⟩
  · rintro ⟨rfl, named⟩
    subst named
    cases t <;> rfl

theorem name_eq_name {t u : MessageType} : t.name = u.name ↔ t = u := by
  cases t <;> cases u <;> decide

theorem choice_iff {t : MessageType} :
    Json.format.choice (MessageType.all.map fun t => (t.name, t)) value = .ok t ↔
      MessageType.IsTag value t := by
  have tagged : MessageType.IsTag value t ↔ Json.tag value = .ok (t.name, .ok ()) := tag_iff.symm
  rw [tagged, Format.choice, show Json.format.tag value = Json.tag value from rfl]
  cases Json.tag value with
  | error e => simp
  | ok tag =>
    obtain ⟨name, alone⟩ := tag
    dsimp only
    cases known : (MessageType.all.map fun t => (t.name, t)).find? (·.1 == name) with
    | none =>
      have other : name ≠ t.name := by
        rintro rfl
        rw [find?_name.mpr ⟨rfl, rfl⟩] at known
        cases known
      simp [other]
    | some found =>
      obtain ⟨-, named⟩ := find?_name.mp known
      rw [map_eq_ok, Except.ok.injEq, Prod.mk.injEq, ← named, name_eq_name]
      constructor
      · rintro ⟨⟨⟩, rfl, same⟩
        exact ⟨same, rfl⟩
      · rintro ⟨same, rfl⟩
        exact ⟨(), rfl, same⟩

theorem optional_iff {read : Json → Except Mismatch α} {Is : Json → α → Prop} {x? : Option α}
    (reads : ∀ v x, read v = .ok x ↔ Is v x) (solid : ∀ x, ¬ Is .null x) :
    Json.format.optional read value = .ok x? ↔ Optionally Is (some value) x? := by
  have other : value ≠ .null →
      (Json.format.optional read value = .ok x? ↔ Optionally Is (some value) x?) := by
    intro solid
    have shape : Json.format.optional read value = (read value).map some := by
      cases value with
      | null => exact absurd rfl solid
      | number x => cases x <;> rfl
      | _ => rfl
    rw [shape, map_eq_ok]
    cases x? with
    | none => simp [Optionally, solid]
    | some x => simp [Optionally, reads]
  by_cases null : value = .null
  · subst null
    cases x? with
    | none => simp [Optionally, Format.optional, Json.format, Json.view]
    | some x => simp [Optionally, Format.optional, Json.format, Json.view, solid]
  · exact other null

namespace Envelope

/-! ### Entering the members -/

def Entered (read : Json → Except Mismatch α) (old : α) (value? : Option Json) (new : α) : Prop :=
  match value? with
  | none => new = old
  | some value => read value = .ok new

def readType : Json → Except Mismatch (Option MessageType) :=
  Json.format.optional (Json.format.choice (MessageType.all.map fun t => (t.name, t)))

def readString : Json → Except Mismatch (Option String) := Json.format.optional Json.format.string

def readConversation : Json → Except Mismatch (Option ConversationId) :=
  Json.format.optional (Json.format.word "u64")

structure Moves (draft : Envelope) (value? : String → Option Json) (e : Envelope) : Prop where
  type : Entered readType draft.type? (value? "msg_type") e.type?
  content : Entered readString draft.content? (value? "content") e.content?
  conversation : Entered readConversation draft.conversation? (value? "conversation_id")
    e.conversation?
  token : Entered readString draft.token? (value? "token") e.token?

variable {draft e : Envelope} {name : String}

theorem moves_iff {value? : String → Option Json} : draft.Moves value? e ↔
    Entered readType draft.type? (value? "msg_type") e.type? ∧
      Entered readString draft.content? (value? "content") e.content? ∧
      Entered readConversation draft.conversation? (value? "conversation_id") e.conversation? ∧
      Entered readString draft.token? (value? "token") e.token? :=
  ⟨fun ⟨type, content, conversation, token⟩ => ⟨type, content, conversation, token⟩,
    fun ⟨type, content, conversation, token⟩ => ⟨type, content, conversation, token⟩⟩

theorem enter_iff : enter draft name value = .ok e ↔
    draft.Moves (fun key => if name = key then some value else none) e := by
  obtain ⟨type?, content?, conversation?, token?⟩ := e
  rw [moves_iff]
  unfold enter
  dsimp only
  split
  · next type =>
    subst type
    simp only [bind_eq_ok, Entered, readType, pure, Except.pure]
    grind
  · split
    · next content =>
      subst content
      simp only [bind_eq_ok, Entered, readString, pure, Except.pure]
      grind
    · split
      · next conversation =>
        subst conversation
        simp only [bind_eq_ok, Entered, readConversation, pure, Except.pure]
        grind
      · split
        · next token =>
          subst token
          simp only [bind_eq_ok, Entered, readString, pure, Except.pure]
          grind
        · obtain ⟨_, _, _, _⟩ := draft
          simp only [Entered, pure, Except.pure]
          grind

theorem entered_or {read : Json → Except Mismatch α} {old new : α} {first later : Option Json}
    (apart : first = none ∨ later = none) :
    (∃ mid, Entered read old first mid ∧ Entered read mid later new) ↔
      Entered read old (first.or later) new := by
  rcases apart with rfl | rfl
  · simp [Entered]
  · cases first <;> simp [Entered]

theorem moves_or {first later : String → Option Json}
    (apart : ∀ key, first key = none ∨ later key = none) :
    (∃ mid, draft.Moves first mid ∧ mid.Moves later e) ↔
      draft.Moves (fun key => (first key).or (later key)) e := by
  simp only [moves_iff, ← entered_or (apart _)]
  constructor
  · rintro ⟨mid, ⟨type, content, conversation, token⟩, type', content', conversation', token'⟩
    exact ⟨⟨_, type, type'⟩, ⟨_, content, content'⟩, ⟨_, conversation, conversation'⟩,
      ⟨_, token, token'⟩⟩
  · rintro ⟨⟨_, type, type'⟩, ⟨_, content, content'⟩, ⟨_, conversation, conversation'⟩,
      ⟨_, token, token'⟩⟩
    exact ⟨⟨_, _, _, _⟩, ⟨type, content, conversation, token⟩, type', content', conversation',
      token'⟩

theorem enterAll_iff {members : List (String × Json)} (distinct : (members.map Prod.fst).Nodup) :
    members.foldlM (fun draft m => enter draft m.1 m.2) draft = .ok e ↔
      draft.Moves (Json.object members).member? e := by
  induction members generalizing draft with
  | nil =>
    obtain ⟨_, _, _, _⟩ := draft
    obtain ⟨_, _, _, _⟩ := e
    simp [moves_iff, Json.member?, Entered, pure, Except.pure, eq_comm]
  | cons m members ih =>
    obtain ⟨new, distinct⟩ := List.nodup_cons.mp distinct
    rw [List.foldlM_cons, bind_eq_ok]
    simp only [enter_iff, ih distinct]
    rw [moves_or]
    · have same : (Json.object (m :: members)).member? = fun key =>
          (if m.1 = key then some m.2 else none).or ((Json.object members).member? key) := by
        funext key
        by_cases here : m.1 = key <;> simp [Json.member?, here]
      rw [same]
    · intro key
      by_cases here : m.1 = key
      · have absent : ∀ n ∈ members, n.1 ≠ key := fun n member equal =>
          new (List.mem_map.mpr ⟨n, member, equal.trans here.symm⟩)
        exact Or.inr (by simpa [Json.member?] using absent)
      · exact Or.inl (if_neg here)

/-! ### Whole envelopes -/

theorem entered_none {read : Json → Except Mismatch α} {Is : Json → α → Prop}
    {value? : Option Json} {x? : Option α} (reads : ∀ v x, read v = .ok x ↔ Is v x)
    (solid : ∀ x, ¬ Is .null x) :
    Entered (Json.format.optional read) none value? x? ↔ Optionally Is value? x? := by
  cases value? with
  | none => cases x? <;> simp [Entered, Optionally]
  | some value => exact optional_iff reads solid

theorem moves_blank {value? : String → Option Json} : blank.Moves value? e ↔
    Filled MessageType.IsTag (value? "msg_type") (value? "content") (value? "conversation_id")
      (value? "token") e := by
  have type : Entered readType none (value? "msg_type") e.type? ↔
      Optionally MessageType.IsTag (value? "msg_type") e.type? :=
    entered_none (fun _ _ => choice_iff) (by simp [MessageType.IsTag])
  have string : ∀ key x?, Entered readString none (value? key) x? ↔
      Optionally IsString (value? key) x? :=
    fun key x? => entered_none (fun _ _ => string_iff) (by simp [IsString])
  have conversation : Entered readConversation none (value? "conversation_id") e.conversation? ↔
      Optionally IsWord (value? "conversation_id") e.conversation? :=
    entered_none (fun _ _ => word_iff) (by simp [IsWord])
  constructor
  · rintro ⟨t, c, k, o⟩
    exact ⟨type.mp t, (string _ _).mp c, conversation.mp k, (string _ _).mp o⟩
  · rintro ⟨t, c, k, o⟩
    exact ⟨type.mpr t, (string _ _).mpr c, conversation.mpr k, (string _ _).mpr o⟩

theorem read_object {members : List (String × Json)} (distinct : (members.map Prod.fst).Nodup) :
    record.read Json.format (.object members) = .ok e ↔
      Filled MessageType.IsTag ((Json.object members).member? "msg_type")
        ((Json.object members).member? "content") ((Json.object members).member? "conversation_id")
        ((Json.object members).member? "token") e := by
  rw [← moves_blank, ← enterAll_iff distinct]
  show record.ofMembers members = .ok e ↔ record.enterAll members = .ok e
  rw [Record.ofMembers]
  cases record.enterAll members with
  | error => simp
  | ok draft => rfl

theorem member?_zip (items : List Json) :
    ((record.fields.zip items).map Prod.fst).Nodup ∧
      (Json.object (record.fields.zip items)).member? "msg_type" = items[0]? ∧
      (Json.object (record.fields.zip items)).member? "content" = items[1]? ∧
      (Json.object (record.fields.zip items)).member? "conversation_id" = items[2]? ∧
      (Json.object (record.fields.zip items)).member? "token" = items[3]? := by
  rcases items with _ | ⟨_, _ | ⟨_, _ | ⟨_, _ | ⟨_, _⟩⟩⟩⟩ <;>
    exact ⟨by simp [record], rfl, rfl, rfl, rfl⟩

theorem read_array {items : List Json} : record.read Json.format (.array items) = .ok e ↔
    items.length ≤ 4 ∧ Filled MessageType.IsTag items[0]? items[1]? items[2]? items[3]? e := by
  obtain ⟨distinct, type, content, conversation, token⟩ := member?_zip items
  rw [← type, ← content, ← conversation, ← token, ← moves_blank, ← enterAll_iff distinct]
  show record.ofItems true items = .ok e ↔
    items.length ≤ 4 ∧ record.enterAll (record.fields.zip items) = .ok e
  rw [Record.ofItems]
  cases record.enterAll (record.fields.zip items) with
  | error => simp
  | ok draft =>
    show (if true = true ∧ 4 < items.length then _ else Except.ok draft) = .ok e ↔ _
    by_cases few : items.length ≤ 4
    · rw [if_neg fun more => absurd more.2 (Nat.not_lt.mpr few)]
      exact (and_iff_right few).symm
    · simp [few, Nat.not_le.mp few]

theorem checkType_object {members : List (String × Json)} {type? : Option MessageType} :
    checkType (.object members) = .ok () ∧
        Optionally MessageType.IsTag ((Json.object members).member? "msg_type") type? ↔
      Optionally MessageType.IsName ((Json.object members).member? "msg_type") type? := by
  unfold checkType
  generalize (Json.object members).member? "msg_type" = value?
  cases type? with
  | none =>
    constructor
    · exact And.right
    · rintro (rfl | rfl)
      · exact ⟨rfl, Or.inl rfl⟩
      · exact ⟨rfl, Or.inr rfl⟩
  | some t =>
    constructor
    · rintro ⟨checked, value, rfl, rfl | rfl⟩
      · exact ⟨_, rfl, rfl⟩
      · cases checked
    · rintro ⟨_, rfl, rfl⟩
      exact ⟨by cases t <;> rfl, _, rfl, Or.inl rfl⟩

theorem ofJson_eq_ok :
    ofJson value = .ok e ↔ checkType value = .ok () ∧ record.read Json.format value = .ok e := by
  unfold ofJson
  cases checkType value with
  | error =>
    constructor
    · rintro ⟨⟩
    · rintro ⟨⟨⟩, -⟩
  | ok =>
    cases record.read Json.format value with
    | error =>
      constructor
      · rintro ⟨⟩
      · rintro ⟨-, ⟨⟩⟩
    | ok draft =>
      show Except.ok draft = .ok e ↔ _
      simp

/-- The keys of `value`, if it is an object, have to differ. -/
theorem ofJson_iff (distinct : ∀ members, value = .object members → (members.map Prod.fst).Nodup) :
    ofJson value = .ok e ↔ Describes value e := by
  rw [ofJson_eq_ok]
  cases value with
  | object members =>
    rw [read_object (distinct members rfl)]
    constructor
    · rintro ⟨checked, filled⟩
      exact .object ⟨checkType_object.mp ⟨checked, filled.type⟩, filled.content,
        filled.conversation, filled.token⟩
    · rintro ⟨filled⟩
      obtain ⟨checked, type⟩ := checkType_object.mpr filled.type
      exact ⟨checked, type, filled.content, filled.conversation, filled.token⟩
  | array items =>
    rw [read_array]
    constructor
    · rintro ⟨-, few, filled⟩
      exact .array few filled
    · rintro (_ | ⟨few, filled⟩)
      exact ⟨rfl, few, filled⟩
  | number x =>
    constructor
    · rintro ⟨-, read⟩
      cases x <;> cases read
    · rintro ⟨⟩
  | _ =>
    constructor
    · rintro ⟨-, ⟨⟩⟩
    · rintro ⟨⟩

end Envelope

theorem Json.IsText.distinct {text : String} {members : List (String × Json)}
    (isText : Json.IsText text (.object members)) : (members.map Prod.fst).Nodup := by
  obtain ⟨⟨_, body, _, _⟩, -, -, denotes⟩ := isText
  have apart : members.Pairwise fun a b => a.1 ≠ b.1 := by
    cases (denotes : Json.Denotes 127 body (.object members)) with
    | emptyObject => exact List.Pairwise.nil
    | object _ _ settled => exact settled.ascending.imp String.ne_of_lt
  exact List.pairwise_map.mpr apart

theorem Envelope.parse_eq_ok {text : String} {e : Envelope} :
    parse text = .ok e ↔ ∃ value, Json.read text = .ok value ∧ Describes value e := by
  unfold parse
  constructor
  · intro parsed
    split at parsed
    · cases parsed
    · next value read =>
      refine ⟨value, read, (ofJson_iff fun members shape => ?_).mp parsed⟩
      exact (shape ▸ Json.read_iff.mp read).distinct
  · rintro ⟨value, read, describes⟩
    rw [read]
    refine (ofJson_iff fun members shape => ?_).mpr describes
    exact (shape ▸ Json.read_iff.mp read).distinct

theorem Envelope.parse_of_describes {text : String} {e : Envelope}
    (isText : Json.IsText text value) (describes : Describes value e) : parse text = .ok e :=
  parse_eq_ok.mpr ⟨value, Json.read_complete isText, describes⟩

theorem Envelope.describes_of_parse {text : String} {e : Envelope} (parsed : parse text = .ok e)
    (isText : Json.IsText text value) : Describes value e := by
  obtain ⟨other, read, describes⟩ := parse_eq_ok.mp parsed
  rw [Json.read_iff.mpr isText] at read
  cases read
  exact describes

/-- A text is accepted exactly if it is the text of a JSON value that describes an envelope, and
that envelope is what comes out. -/
theorem Envelope.parse_accepts (text : String) (e : Envelope) :
    parse text = .ok e ↔ ∃ value, Json.IsText text value ∧ Describes value e := by
  simp only [parse_eq_ok, Json.read_iff]

end Switchboard
