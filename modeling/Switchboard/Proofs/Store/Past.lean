import Switchboard.Proofs.Store.Calls

/-!
A store that is up holds what its past says, neither more nor less: what it was asked and what it
answered tell everything that can be read from it and whatever it answers next.
-/

namespace Switchboard

namespace StoreCall

def given? : StoreCall → Store.Answer → Option ConversationId
  | createConversation, .ok room? => room?
  | _, _ => none

def closed? : StoreCall → Store.Answer → Option ConversationId
  | closeConversation room, .ok _ => some room
  | _, _ => none

def noted? : StoreCall → Store.Answer → Option (Audience × Notification)
  | createNotification audience n, .ok _ => some (audience, n)
  | _, _ => none

def posted? (room : ConversationId) : StoreCall → Store.Answer → Option StoredMessage
  | createMessage place sender content, .ok _ =>
    if place = room then some ⟨sender, content⟩ else none
  | _, _ => none

end StoreCall

abbrev Past := List (StoreCall × Store.Answer)

namespace Past

def given (past : Past) : List ConversationId :=
  past.filterMap fun (call, answer) => call.given? answer

def closed (past : Past) : List ConversationId :=
  past.filterMap fun (call, answer) => call.closed? answer

def noted (past : Past) : List (Audience × Notification) :=
  past.filterMap fun (call, answer) => call.noted? answer

def posted (past : Past) (room : ConversationId) : List StoredMessage :=
  past.filterMap fun (call, answer) => call.posted? room answer

def push (past : Past) (call : StoreCall) (answer : Store.Answer) : Past := past ++ [(call, answer)]

theorem filterMap_push {β : Type} (f : StoreCall → Store.Answer → Option β) (past : Past)
    (call : StoreCall) (answer : Store.Answer) :
    (past.push call answer).filterMap (fun (call, answer) => f call answer) =
      past.filterMap (fun (call, answer) => f call answer) ++ (f call answer).toList := by
  rw [push, List.filterMap_append]
  cases made : f call answer <;> simp [made]

variable (past : Past) (call : StoreCall) (answer : Store.Answer)

theorem given_push :
    (past.push call answer).given = past.given ++ (call.given? answer).toList :=
  filterMap_push StoreCall.given? past call answer

theorem closed_push :
    (past.push call answer).closed = past.closed ++ (call.closed? answer).toList :=
  filterMap_push StoreCall.closed? past call answer

theorem noted_push :
    (past.push call answer).noted = past.noted ++ (call.noted? answer).toList :=
  filterMap_push StoreCall.noted? past call answer

theorem posted_push (room : ConversationId) :
    (past.push call answer).posted room =
      past.posted room ++ (call.posted? room answer).toList :=
  filterMap_push (StoreCall.posted? room) past call answer

end Past

namespace Store

variable {s t u : Store} {past : Past} {room : ConversationId} {call : StoreCall} {answer : Answer}

def answers (s : Store) : List StoreCall → Past
  | [] => []
  | call :: calls => (call, s.answer call) :: (s.call call).answers calls

/-! ### One call -/

/-- How what can be read changes with a call: a conversation begins active and without messages, is
inactive once it has been closed, and takes a message only while it is active. -/
structure Changes (s : Store) (call : StoreCall) (answer : Answer) (t : Store) : Prop where
  outage : t.outage = s.outage
  numbers : (call.creates = false ∧ call.given? answer = none ∧ t.last = s.last) ∨
    call.creates = true ∧ call.given? answer = some (s.last + 1) ∧ t.last = s.last + 1
  status : ∀ room, t.isActive? room =
    if call.given? answer = some room then some true
    else if call.closed? answer = some room then some false
    else s.isActive? room
  messages : ∀ room, t.messages room =
    (if call.given? answer = some room then [] else s.messages room) ++
      (call.posted? room answer).toList
  notifications : t.notifications = s.notifications ++ (call.noted? answer).toList
  open_before : ∀ room message, call.posted? room answer = some message →
    s.isActive? room = some true
  known_before : ∀ room, call.closed? answer = some room → (s.isActive? room).isSome = true

theorem isActive?_of_find? {c : Conversation} (found : s.conversations.find? room = some c) :
    s.isActive? room = some c.active := by
  rw [isActive?, found, Option.map_some]

theorem messages_of_find? {c : Conversation} (found : s.conversations.find? room = some c) :
    s.messages room = c.messages := by
  rw [messages, found]

theorem changes_refused (s : Store) {call : StoreCall} (old : call.creates = false)
    (why : Refusal) : s.Changes call (.error why) s := by
  cases call with
  | createConversation => cases old
  | createNotification | createMessage | closeConversation =>
    exact ⟨rfl, Or.inl ⟨rfl, rfl, rfl⟩, fun _ => rfl, fun _ => (List.append_nil _).symm,
      (List.append_nil _).symm, nofun, nofun⟩

theorem changes (outcome : s.Outcome call answer t) : s.Changes call answer t := by
  cases outcome with
  | opened =>
    refine ⟨rfl, Or.inr ⟨rfl, rfl, rfl⟩, ?_, ?_, (List.append_nil _).symm, nofun, nofun⟩
    · intro room
      refine (isActive?_insert s (s.last + 1) room ⟨true, []⟩).trans ?_
      simp [StoreCall.given?, StoreCall.closed?]
    · intro room
      refine (messages_insert s (s.last + 1) room ⟨true, []⟩).trans ?_
      simp [StoreCall.given?, StoreCall.posted?]
  | noted audience n =>
    exact ⟨rfl, Or.inl ⟨rfl, rfl, rfl⟩, fun _ => rfl, fun _ => (List.append_nil _).symm, rfl,
      nofun, nofun⟩
  | @posted room c sender content found active =>
    refine ⟨rfl, Or.inl ⟨rfl, rfl, rfl⟩, ?_, ?_, (List.append_nil _).symm, ?_, nofun⟩
    · intro other
      refine (isActive?_insert s room other _).trans ?_
      by_cases same : room = other
      · subst same
        simp [StoreCall.given?, StoreCall.closed?, isActive?_of_find? found]
      · simp [same, StoreCall.given?, StoreCall.closed?]
    · intro other
      refine (messages_insert s room other _).trans ?_
      by_cases same : room = other
      · subst same
        simp [StoreCall.given?, StoreCall.posted?, messages_of_find? found]
      · simp [same, StoreCall.given?, StoreCall.posted?]
    · intro other message taken
      by_cases same : room = other
      · rw [← same, isActive?_of_find? found, active]
      · simp [StoreCall.posted?, same] at taken
  | @closed room c found =>
    refine ⟨rfl, Or.inl ⟨rfl, rfl, rfl⟩, ?_, ?_, (List.append_nil _).symm, nofun, ?_⟩
    · intro other
      refine (isActive?_insert s room other _).trans ?_
      simp [StoreCall.given?, StoreCall.closed?]
    · intro other
      refine (messages_insert s room other _).trans ?_
      by_cases same : room = other
      · subst same
        simp [StoreCall.given?, StoreCall.posted?, messages_of_find? found]
      · simp [same, StoreCall.given?, StoreCall.posted?]
    · intro other closes
      have same : room = other := Option.some_inj.mp closes
      simp [← same, isActive?_of_find? found]
  | missing named absent =>
    refine changes_refused s ?_ _
    cases call <;> first | rfl | cases named
  | inactive sender content found inactive => exact changes_refused s rfl _

/-! ### The past -/

/-- The store holds what the past says. -/
structure Reflects (s : Store) (past : Past) : Prop where
  up : s.outage = .none
  numbers : past.given.map UInt64.toNat = List.range' 1 s.last.toNat
  known : ∀ room, (s.isActive? room).isSome = true ↔ room ∈ past.given
  inactive : ∀ room, s.isActive? room = some false ↔ room ∈ past.closed
  messages : ∀ room, s.messages room = past.posted room
  notifications : s.notifications = past.noted

theorem empty_reflects : empty.Reflects [] where
  up := rfl
  numbers := rfl
  known := fun _ => iff_of_false Bool.false_ne_true List.not_mem_nil
  inactive := fun _ => iff_of_false (nomatch ·) List.not_mem_nil
  messages := fun _ => rfl
  notifications := rfl

theorem Changes.last (changes : s.Changes call answer t)
    (few : call.creates = true → s.last.toNat + 1 < 2 ^ 64) :
    t.last.toNat = s.last.toNat + if call.creates then 1 else 0 := by
  rcases changes.numbers with ⟨old, -, same⟩ | ⟨creates, -, next⟩
  · rw [old, same]
    rfl
  · rw [next, if_pos creates]
    exact toNat_next_of_lt (few creates)

namespace Reflects

theorem absent (h : s.Reflects past) (unknown : room ∉ past.given) :
    s.conversations.find? room = none := by
  rw [← h.known, isActive?, Option.isSome_map, Option.not_isSome_iff_eq_none] at unknown
  exact unknown

theorem fresh (h : s.Reflects past) (changes : s.Changes call answer t)
    (few : call.creates = true → s.last.toNat + 1 < 2 ^ 64)
    (given : call.given? answer = some room) : room ∉ past.given := by
  intro before
  have listed : room.toNat ∈ past.given.map UInt64.toNat := List.mem_map_of_mem before
  rw [h.numbers, List.mem_range'_1] at listed
  rcases changes.numbers with ⟨-, nothing, -⟩ | ⟨creates, number, -⟩
  · cases given.symm.trans nothing
  · cases given.symm.trans number
    have up := toNat_next_of_lt (few creates)
    omega

theorem after (h : s.Reflects past) (changes : s.Changes call answer t)
    (few : call.creates = true → s.last.toNat + 1 < 2 ^ 64) :
    t.Reflects (past.push call answer) := by
  have fresh : ∀ room, call.given? answer = some room → room ∉ past.given :=
    fun _ => h.fresh changes few
  refine ⟨changes.outage.trans h.up, ?_, ?_, ?_, ?_, ?_⟩
  · have last := changes.last few
    rw [Past.given_push, List.map_append, h.numbers]
    rcases changes.numbers with ⟨-, nothing, same⟩ | ⟨creates, number, next⟩
    · rw [nothing, same]
      exact List.append_nil _
    · have up : t.last.toNat = s.last.toNat + 1 := by rwa [if_pos creates] at last
      rw [number, ← next, up, List.range'_1_concat, Nat.add_comm 1, ← up]
      rfl
  · intro room
    rw [changes.status, Past.given_push, List.mem_append, ← h.known, Option.mem_toList]
    split
    · next given => simp [given]
    · split
      · next other closes => simp [other, changes.known_before room closes]
      · next other _ => simp [other]
  · intro room
    rw [changes.status, Past.closed_push, List.mem_append, ← h.inactive, Option.mem_toList]
    split
    · next given =>
      have missing : s.isActive? room = none := by
        rw [isActive?, h.absent (fresh room given), Option.map_none]
      have still : ¬ call.closed? answer = some room := by
        intro closes
        have known := changes.known_before room closes
        rw [missing] at known
        cases known
      simp [missing, still]
    · split
      · next closes => simp [closes]
      · next still => simp [still]
  · intro room
    rw [changes.messages, Past.posted_push, ← h.messages room]
    split
    · next given => rw [Store.messages, h.absent (fresh room given)]
    · rfl
  · rw [changes.notifications, Past.noted_push, h.notifications]

theorem kept (h : s.Reflects past) (few : s.last.toNat + 1 < 2 ^ 64) (given : room ∈ past.given) :
    (s.call .createConversation).conversations.find? room = s.conversations.find? room := by
  obtain ⟨answer, t, -, becomes, outcome⟩ := exists_outcome h.up .createConversation
  rw [becomes]
  cases outcome with
  | opened =>
    have other : s.last + 1 ≠ room := by
      rintro rfl
      exact h.fresh (changes .opened) (fun _ => few) rfl given
    exact (Table.find?_insert _ _ _ _).trans (if_neg other)
  | missing named => cases named

/-! ### What is refused -/

theorem closed_iff {c : Conversation} (h : s.Reflects past)
    (found : s.conversations.find? room = some c) : room ∈ past.closed ↔ c.active = false := by
  rw [← h.inactive, isActive?_of_find? found, Option.some_inj]

theorem not_closed (h : s.Reflects past) (missing : s.conversations.find? room = none) :
    room ∉ past.closed := by
  rw [← h.inactive, isActive?, missing]
  exact nofun

theorem missing_iff (h : s.Reflects past) (call : StoreCall) (room : ConversationId) :
    s.answer call = .error (.conversationMissing room) ↔
      call.room? = some room ∧ room ∉ past.given := by
  constructor
  · intro refused
    obtain ⟨t, -, outcome⟩ := outcome_of_answer h.up refused
    cases outcome with
    | missing named absent =>
      refine ⟨named, ?_⟩
      rw [← h.known, isActive?, absent]
      exact nofun
  · rintro ⟨named, unknown⟩
    have absent := h.absent unknown
    obtain ⟨answer, t, answered, -, outcome⟩ := exists_outcome h.up call
    rw [answered]
    cases outcome with
    | opened | noted => cases named
    | posted _ _ found | closed found | inactive _ _ found =>
      cases named
      cases absent.symm.trans found
    | missing named' =>
      cases named.symm.trans named'
      rfl

theorem inactive_iff (h : s.Reflects past) (call : StoreCall) (room : ConversationId) :
    s.answer call = .error (.conversationInactive room) ↔
      (∃ sender content, call = .createMessage room sender content) ∧ room ∈ past.closed := by
  constructor
  · intro refused
    obtain ⟨t, -, outcome⟩ := outcome_of_answer h.up refused
    cases outcome with
    | inactive sender content found inactive =>
      exact ⟨⟨sender, content, rfl⟩, (h.closed_iff found).mpr inactive⟩
  · rintro ⟨⟨sender, content, rfl⟩, closed⟩
    obtain ⟨answer, t, answered, -, outcome⟩ :=
      exists_outcome h.up (.createMessage room sender content)
    rw [answered]
    cases outcome with
    | posted _ _ found active => cases active.symm.trans ((h.closed_iff found).mp closed)
    | missing named absent =>
      cases named
      exact absurd closed (h.not_closed absent)
    | inactive => rfl

theorem unchanged {why : Refusal} (h : s.Reflects past) (refused : s.answer call = .error why) :
    s.call call = s ∧
      ∃ room, why = .conversationMissing room ∨ why = .conversationInactive room := by
  obtain ⟨t, becomes, outcome⟩ := outcome_of_answer h.up refused
  cases outcome with
  | missing => exact ⟨becomes, _, Or.inl rfl⟩
  | inactive => exact ⟨becomes, _, Or.inr rfl⟩

end Reflects

/-! ### From one moment to a later one -/

/-- What was there is still there, in front of what has come since; to an inactive conversation
nothing has come. -/
structure Grows (s t : Store) : Prop where
  notifications : s.notifications <+: t.notifications
  messages : ∀ room, s.messages room <+: t.messages room
  known : ∀ room, (s.isActive? room).isSome = true → (t.isActive? room).isSome = true
  frozen : ∀ room, s.isActive? room = some false →
    t.isActive? room = some false ∧ t.messages room = s.messages room

theorem Grows.refl (s : Store) : s.Grows s :=
  ⟨List.prefix_refl _, fun _ => List.prefix_refl _, fun _ => id, fun _ inactive => ⟨inactive, rfl⟩⟩

theorem Grows.trans (first : s.Grows t) (second : t.Grows u) : s.Grows u where
  notifications := first.notifications.trans second.notifications
  messages := fun room => (first.messages room).trans (second.messages room)
  known := fun room known => second.known room (first.known room known)
  frozen := fun room inactive => by
    obtain ⟨still, same⟩ := first.frozen room inactive
    obtain ⟨stays, same'⟩ := second.frozen room still
    exact ⟨stays, same'.trans same⟩

theorem Reflects.grows (h : s.Reflects past) (changes : s.Changes call answer t)
    (few : call.creates = true → s.last.toNat + 1 < 2 ^ 64) : s.Grows t := by
  have missing : ∀ room, call.given? answer = some room → s.conversations.find? room = none :=
    fun _ given => h.absent (h.fresh changes few given)
  refine ⟨?_, ?_, ?_, ?_⟩
  · rw [changes.notifications]
    exact List.prefix_append _ _
  · intro room
    rw [changes.messages]
    split
    · next given =>
      rw [Store.messages, missing room given]
      exact List.nil_prefix
    · exact List.prefix_append _ _
  · intro room known
    rw [changes.status]
    split
    · rfl
    · split
      · rfl
      · exact known
  · intro room inactive
    have old : ¬ call.given? answer = some room := by
      intro given
      rw [isActive?, missing room given] at inactive
      cases inactive
    have untold : call.posted? room answer = none := by
      refine Option.eq_none_iff_forall_ne_some.mpr ?_
      intro message taken
      cases inactive.symm.trans (changes.open_before room message taken)
    rw [changes.status, changes.messages, if_neg old, if_neg old, untold]
    exact ⟨by split <;> trivial, List.append_nil _⟩

theorem Reflects.callAll (h : s.Reflects past) (calls : List StoreCall)
    (few : s.last.toNat + calls.countP StoreCall.creates < 2 ^ 64) :
    (s.callAll calls).Reflects (past ++ s.answers calls) ∧ s.Grows (s.callAll calls) ∧
      (s.callAll calls).last.toNat = s.last.toNat + calls.countP StoreCall.creates := by
  induction calls generalizing s past with
  | nil =>
    rw [answers, List.append_nil]
    exact ⟨h, .refl s, rfl⟩
  | cons call calls ih =>
    rw [List.countP_cons] at few ⊢
    have changes := changes (s.outcome h.up call)
    have one : call.creates = true → s.last.toNat + 1 < 2 ^ 64 := by
      intro creates
      rw [if_pos creates] at few
      omega
    have last := changes.last one
    obtain ⟨reflects, grows, last'⟩ := ih (h.after changes one) (by omega)
    rw [Past.push, List.append_assoc] at reflects
    refine ⟨reflects, (h.grows changes one).trans grows, ?_⟩
    calc (s.callAll (call :: calls)).last.toNat
      _ = (s.call call).last.toNat + calls.countP StoreCall.creates := last'
      _ = _ := by omega

/-! ### Runs -/

/-- The numbers that are given out count up from one. Every moment holds what has been asked and
answered until then, and grows into every later one. A call fails exactly for a conversation that
was never opened, or one that was closed and is written to, and then nothing has changed. -/
theorem only_grows (calls : List StoreCall) (few : calls.countP StoreCall.creates < 2 ^ 64) :
    (∀ earlier later, earlier ++ later = calls →
      let s := empty.callAll earlier
      let past := empty.answers earlier
      past.given.map UInt64.toNat = List.range' 1 (earlier.countP StoreCall.creates) ∧
        s.Reflects past ∧ s.Grows (empty.callAll calls)) ∧
    ∀ earlier call later, earlier ++ call :: later = calls →
      let s := empty.callAll earlier
      let past := empty.answers earlier
      (call.creates = true → ∀ room ∈ past.given,
        (s.call call).conversations.find? room = s.conversations.find? room) ∧
      (∀ room, s.answer call = .error (.conversationMissing room) ↔
        call.room? = some room ∧ room ∉ past.given) ∧
      (∀ room, s.answer call = .error (.conversationInactive room) ↔
        (∃ sender content, call = .createMessage room sender content) ∧ room ∈ past.closed) ∧
      ∀ why, s.answer call = .error why → s.call call = s ∧
        ∃ room, why = .conversationMissing room ∨ why = .conversationInactive room := by
  -- a part of the calls opens no more conversations than all of them
  have moment : ∀ earlier later, earlier ++ later = calls →
      (empty.callAll earlier).Reflects (empty.answers earlier) ∧
        (empty.callAll earlier).last.toNat = earlier.countP StoreCall.creates := by
    rintro earlier later rfl
    rw [List.countP_append] at few
    have zero : empty.last.toNat = 0 := rfl
    obtain ⟨reflects, -, last⟩ := empty_reflects.callAll earlier (by omega)
    exact ⟨reflects, last.trans (by omega)⟩
  refine ⟨?_, ?_⟩
  · intro earlier later whole
    obtain ⟨reflects, last⟩ := moment earlier later whole
    refine ⟨last ▸ reflects.numbers, reflects, ?_⟩
    rw [← whole, List.countP_append] at few
    have grows := (reflects.callAll later (by omega)).2.1
    rwa [← callAll_append, whole] at grows
  · intro earlier call later whole
    obtain ⟨reflects, last⟩ := moment earlier (call :: later) whole
    refine ⟨?_, reflects.missing_iff call, reflects.inactive_iff call, ?_⟩
    · intro creates room given
      rw [← whole, List.countP_append, List.countP_cons, if_pos creates] at few
      cases call with
      | createConversation => exact reflects.kept (by omega) given
      | createNotification | createMessage | closeConversation => cases creates
    · intro why refused
      exact reflects.unchanged refused

def closing : List StoreCall :=
  [.createConversation, .createMessage 1 7 "kept", .closeConversation 1, .createConversation,
    .createMessage 1 7 "late", .createMessage 3 7 "lost"]

theorem only_grows_closing :
    let s := empty.callAll (closing.take 3)
    let t := empty.callAll closing
    closing.countP StoreCall.creates < 2 ^ 64 ∧ s.isActive? 1 = some false ∧
      t.isActive? 1 = some false ∧ t.messages 1 = s.messages 1 ∧
      (empty.answers closing).given.map UInt64.toNat = [1, 2] ∧
      (empty.callAll (closing.take 4)).answer (.createMessage 1 7 "late") =
        .error (.conversationInactive 1) := by
  intro s t
  have few : closing.countP StoreCall.creates < 2 ^ 64 := by decide
  obtain ⟨moments, turns⟩ := only_grows closing few
  obtain ⟨-, reflects, grows⟩ := moments (closing.take 3) (closing.drop 3) rfl
  obtain ⟨numbers, -, -⟩ := moments closing [] rfl
  obtain ⟨-, -, inactive, -⟩ :=
    turns (closing.take 4) (.createMessage 1 7 "late") (closing.drop 5) rfl
  have closed : s.isActive? 1 = some false := (reflects.inactive 1).mpr (by decide)
  obtain ⟨still, same⟩ := grows.frozen 1 closed
  exact ⟨few, closed, still, same, numbers, (inactive 1).mpr ⟨⟨7, "late", rfl⟩, by decide⟩⟩

end Store

end Switchboard
