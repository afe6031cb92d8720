import Switchboard.Proofs.Json.Members
import Switchboard.Proofs.Json.RoundTrip
import Switchboard.Proofs.Wire.Shapes

/-!
An envelope is read as it was written.
-/

namespace Switchboard.Envelope

open Shape

def typeMember? (e : Envelope) : Option (String × Json) :=
  e.type?.map fun t => ("msg_type", .string t.name)

def contentMember? (e : Envelope) : Option (String × Json) :=
  e.content?.map fun c => ("content", .string c)

def conversationMember? (e : Envelope) : Option (String × Json) :=
  e.conversation?.map fun id => ("conversation_id", .number (.int id.toNat))

def tokenMember? (e : Envelope) : Option (String × Json) :=
  e.token?.map fun t => ("token", .string t)

def ordered (e : Envelope) : List (String × Json) :=
  e.contentMember?.toList ++ (e.conversationMember?.toList ++
    (e.typeMember?.toList ++ e.tokenMember?.toList))

theorem toJson_eq (e : Envelope) :
    e.toJson = .object (e.typeMember?.toList ++ (e.contentMember?.toList ++
      (e.conversationMember?.toList ++ e.tokenMember?.toList))) := by
  simp only [toJson, typeMember?, contentMember?, conversationMember?, tokenMember?]
  congr 1
  cases e.type? <;> cases e.content? <;> cases e.conversation? <;> cases e.token? <;> rfl

theorem ordered_perm (e : Envelope) : e.ordered.Perm
    (e.typeMember?.toList ++ (e.contentMember?.toList ++
      (e.conversationMember?.toList ++ e.tokenMember?.toList))) := by
  have front : (e.contentMember?.toList ++ e.conversationMember?.toList ++ e.typeMember?.toList).Perm
      (e.typeMember?.toList ++ (e.contentMember?.toList ++ e.conversationMember?.toList)) :=
    List.perm_append_comm
  simpa [ordered] using front.append_right e.tokenMember?.toList

theorem key_of_mem {α : Type} {x? : Option α} {f : α → Json} {key : String} {m : String × Json}
    (member : m ∈ (x?.map fun x => (key, f x)).toList) : m.1 = key := by
  simp at member
  obtain ⟨x, -, rfl⟩ := member
  rfl

theorem ordered_ascending (e : Envelope) : Json.Ascending e.ordered := by
  have single : ∀ x? : Option (String × Json), Json.Ascending x?.toList := by
    intro x?
    cases x? <;> simp [Json.Ascending]
  simp only [Json.Ascending, ordered, List.pairwise_append, List.mem_append]
  refine ⟨single _, ⟨single _, ⟨single _, single _, ?_⟩, ?_⟩, ?_⟩
  · intro a first b second
    rw [key_of_mem first, key_of_mem second]
    decide
  · intro a first b second
    rw [key_of_mem first]
    rcases second with second | second <;> rw [key_of_mem second] <;> decide
  · intro a first b second
    rw [key_of_mem first]
    rcases second with second | second | second <;> rw [key_of_mem second] <;> decide

theorem value_of_mem {e : Envelope} {m : String × Json} (member : m ∈ e.ordered) :
    (∃ s, m.2 = .string s) ∨ ∃ id : ConversationId, m.2 = .number (.int id.toNat) := by
  simp only [ordered, contentMember?, conversationMember?, typeMember?, tokenMember?,
    List.mem_append, Option.mem_toList, Option.map_eq_some_iff] at member
  rcases member with ⟨c, -, rfl⟩ | ⟨id, -, rfl⟩ | ⟨t, -, rfl⟩ | ⟨t, -, rfl⟩
  · exact Or.inl ⟨c, rfl⟩
  · exact Or.inr ⟨id, rfl⟩
  · exact Or.inl ⟨t.name, rfl⟩
  · exact Or.inl ⟨t, rfl⟩

theorem sorted_toJson (e : Envelope) : e.toJson.sorted = .object e.ordered := by
  rw [toJson_eq, Json.sorted]
  have same : ∀ m ∈ e.ordered, (m.1, m.2.sorted) = id m := by
    intro m member
    rcases value_of_mem member with ⟨s, shape⟩ | ⟨n, shape⟩ <;>
      rw [shape, Json.sorted, ← shape] <;> rfl
  refine Json.ofMembers_perm e.ordered_ascending ?_
  have perm := e.ordered_perm.map fun m => (m.1, m.2.sorted)
  rwa [List.map_congr_left same, List.map_id] at perm

theorem plain_toJson (e : Envelope) (depth : Nat) : e.toJson.Plain (depth + 1) := by
  rw [toJson_eq]
  refine .object fun m member => ?_
  rcases value_of_mem (e.ordered_perm.mem_iff.mpr member) with ⟨s, shape⟩ | ⟨id, shape⟩
  · rw [shape]
    exact .string s
  · rw [shape]
    have := id.toNat_lt
    exact .int ⟨by omega, by omega⟩

/-! ### What the members describe -/

theorem member?_ordered (e : Envelope) :
    (Json.object e.ordered).member? "msg_type" = e.type?.map (fun t => .string t.name) ∧
      (Json.object e.ordered).member? "content" = e.content?.map .string ∧
      (Json.object e.ordered).member? "conversation_id" =
        e.conversation?.map (fun id => .number (.int id.toNat)) ∧
      (Json.object e.ordered).member? "token" = e.token?.map .string := by
  simp only [Json.member?, ordered, contentMember?, conversationMember?, typeMember?, tokenMember?]
  cases e.content? <;> cases e.conversation? <;> cases e.type? <;> cases e.token? <;>
    exact ⟨rfl, rfl, rfl, rfl⟩

theorem optionally_map {α : Type} {Is : Json → α → Prop} {f : α → Json} (is : ∀ x, Is (f x) x)
    (x? : Option α) : Optionally Is (x?.map f) x? := by
  cases x? with
  | none => exact Or.inl rfl
  | some x => exact ⟨f x, rfl, is x⟩

theorem describes_ordered (e : Envelope) : Describes (.object e.ordered) e := by
  obtain ⟨type, content, conversation, token⟩ := e.member?_ordered
  have name : ∀ t : MessageType, MessageType.IsName (.string t.name) t := fun _ => rfl
  have string : ∀ s : String, IsString (.string s) s := fun _ => rfl
  have word : ∀ n : UInt64, IsWord (.number (.int n.toNat)) n := fun _ => rfl
  refine .object ⟨?_, ?_, ?_, ?_⟩
  · exact type ▸ optionally_map name e.type?
  · exact content ▸ optionally_map string e.content?
  · exact conversation ▸ optionally_map word e.conversation?
  · exact token ▸ optionally_map string e.token?

theorem isText_write (e : Envelope) : Json.IsText e.toJson.write (.object e.ordered) := by
  apply Json.read_iff.mp
  rw [← sorted_toJson]
  exact Json.read_write (e.plain_toJson _)

theorem parse_write (e : Envelope) : parse e.toJson.write = .ok e :=
  parse_of_describes e.isText_write e.describes_ordered

end Switchboard.Envelope
