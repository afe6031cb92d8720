import Switchboard.Proofs.Station.Sound

/-!
Who a session takes its connection to be. What it goes by is the first envelope of all that its far
end has sent; once that is there nothing that comes later makes it another.
-/

namespace Switchboard

namespace Session

/-- The first envelope that its far end sent is a credential of this identity, good at the entry
point. -/
def Authentic (tokens : List TokenEntry) (s : Session) (who : Identity) : Prop :=
  ∃ e rest, s.heard.next = .got (.ok e) rest ∧ authenticate tokens s.entry e = .ok who

/-- While a session waits for its first envelope it has lost nothing of what was sent; after that it
has its stage from the envelope. -/
structure Faithful (tokens : List TokenEntry) (s : Session) : Prop where
  finished : s.heard.finished = s.inbox.finished
  unread : s.stage = .waiting → s.ended = false → ∀ arrivals finished,
    (s.heard.extend arrivals finished).next = (s.inbox.extend arrivals finished).next
  chatting : ∀ who, s.stage = .chatting who → s.entry = .chat ∧ s.Authentic tokens who
  listening : s.stage = .listening → s.entry ≠ .chat ∧ ∃ who, s.Authentic tokens who

variable {tokens : List TokenEntry} {s : Session} {who other : Identity} {e : Envelope}
  {rest : Inbox}

theorem Authentic.unique (first : s.Authentic tokens who) (second : s.Authentic tokens other) :
    who = other := by
  obtain ⟨e, rest, next, accepted⟩ := first
  obtain ⟨e', rest', next', accepted'⟩ := second
  rw [next] at next'
  cases next'
  rw [accepted] at accepted'
  cases accepted'
  rfl

theorem fresh_faithful (entry : EntryPoint) : (fresh entry).Faithful tokens where
  finished := rfl
  unread := fun _ _ _ _ => rfl
  chatting := fun _ stage => nomatch stage
  listening := fun stage => nomatch stage

/-! ### Hearing more -/

theorem Authentic.arrive (authentic : s.Authentic tokens who) (more : s.heard.finished = false)
    (arrival : Arrival) : (s.arrive arrival).Authentic tokens who := by
  obtain ⟨e, rest, next, accepted⟩ := authentic
  have later := Inbox.next_extend_of_got more next [arrival] false
  have shape : (s.arrive arrival).heard = s.heard.extend [arrival] false := by
    rw [← more]
    rfl
  exact ⟨e, _, shape ▸ later, accepted⟩

theorem Authentic.finish (authentic : s.Authentic tokens who) :
    s.finish.Authentic tokens who := by
  obtain ⟨e, rest, next, accepted⟩ := authentic
  cases state : s.heard.finished with
  | true =>
    have same : s.finish.heard = s.heard := by
      unfold Session.finish Inbox.finish
      rw [← state]
    exact ⟨e, rest, same ▸ next, accepted⟩
  | false =>
    have later := Inbox.next_extend_of_got state next [] true
    have shape : s.finish.heard = s.heard.extend [] true := by
      rw [Inbox.extend, List.append_nil]
      rfl
    exact ⟨e, _, shape ▸ later, accepted⟩

theorem Faithful.arrive (h : s.Faithful tokens) (more : s.inbox.finished = false)
    (arrival : Arrival) : (s.arrive arrival).Faithful tokens where
  finished := h.finished
  unread := by
    intro waiting running arrivals finished
    have same := h.unread waiting running (arrival :: arrivals) finished
    rwa [← Inbox.extend_arrive, ← Inbox.extend_arrive] at same
  chatting := by
    intro who stage
    obtain ⟨entry, authentic⟩ := h.chatting who stage
    exact ⟨entry, authentic.arrive (h.finished.trans more) arrival⟩
  listening := by
    intro stage
    obtain ⟨entry, who, authentic⟩ := h.listening stage
    exact ⟨entry, who, authentic.arrive (h.finished.trans more) arrival⟩

theorem Faithful.finish (h : s.Faithful tokens) : s.finish.Faithful tokens where
  finished := rfl
  unread := h.unread
  chatting := by
    intro who stage
    obtain ⟨entry, authentic⟩ := h.chatting who stage
    exact ⟨entry, authentic.finish⟩
  listening := by
    intro stage
    obtain ⟨entry, who, authentic⟩ := h.listening stage
    exact ⟨entry, who, authentic.finish⟩

theorem Faithful.ending (h : s.Faithful tokens) {inbox : Inbox}
    (kept : inbox.finished = s.inbox.finished) :
    { s with inbox := inbox, ended := true }.Faithful tokens where
  finished := h.finished.trans kept.symm
  unread := by
    intro _ running
    cases running
  chatting := h.chatting
  listening := h.listening

/-! ### Reading -/

theorem Faithful.next_heard (h : s.Faithful tokens) (waiting : s.stage = .waiting)
    (running : s.ended = false) : s.heard.next = s.inbox.next := by
  have same := h.unread waiting running [] s.inbox.finished
  rwa [← h.finished, Inbox.extend_same, h.finished, Inbox.extend_same] at same

theorem Faithful.authentic_of_admits (h : s.Faithful tokens) (running : s.ended = false)
    (next : s.inbox.next = .got (.ok e) rest) (admits : s.Admits tokens e who) :
    s.Authentic tokens who :=
  ⟨e, rest, (h.next_heard admits.1 running).trans next, admits.2⟩

theorem Faithful.authentic_of_speaks (h : s.Faithful tokens) (running : s.ended = false)
    (next : s.inbox.next = .got (.ok e) rest) (speaks : s.Speaks tokens e who) :
    s.entry = .chat ∧ s.Authentic tokens who := by
  rcases speaks with stage | ⟨waiting, entry, accepted⟩
  · exact h.chatting who stage
  · exact ⟨entry, h.authentic_of_admits running next ⟨waiting, entry ▸ accepted⟩⟩

theorem Faithful.waiting_of_not_authentic (h : s.Faithful tokens)
    (stranger : ∀ who, ¬ s.Authentic tokens who) : s.stage = .waiting := by
  cases stage : s.stage with
  | waiting => rfl
  | chatting who => exact absurd (h.chatting who stage).2 (stranger who)
  | listening =>
    obtain ⟨-, who, authentic⟩ := h.listening stage
    exact absurd authentic (stranger who)

end Session

namespace Station

variable {st after : Station} {id : ConnId} {s next : Session} {m : Move} {who : Identity}

theorem Turned.kept (turned : Turned st id s next after) :
    next.entry = s.entry ∧ next.heard = s.heard := by
  cases turned <;> exact ⟨rfl, rfl⟩

theorem Turned.faithful (h : s.Faithful st.hub.tokens) (running : s.ended = false)
    (turned : Turned st id s next after) : next.Faithful st.hub.tokens := by
  cases turned with
  | @idle inbox pending =>
    obtain ⟨before, later⟩ := Inbox.finished_of_pending pending
    refine ⟨h.finished.trans (before.trans later.symm), ?_, h.chatting, h.listening⟩
    intro waiting _ arrivals finished
    exact (h.unread waiting running arrivals finished).trans
      (Inbox.next_extend_of_pending pending arrivals finished)
  | left _ _ => exact h.ending rfl
  | rejected _ _ kept _ => exact h.ending kept
  | listening got admits special =>
    have kept := Inbox.finished_of_got got
    constructor
    · exact h.finished.trans kept.symm
    · exact fun stage => Stage.noConfusion stage
    · exact fun _ stage => Stage.noConfusion stage
    · exact fun _ => ⟨special, _, h.authentic_of_admits running got admits⟩
  | admitted got speaks _ | served got speaks _ =>
    have kept := Inbox.finished_of_got got
    constructor
    · exact h.finished.trans kept.symm
    · exact fun stage => Stage.noConfusion stage
    · intro who stage
      cases stage
      exact h.authentic_of_speaks running got speaks
    · exact fun stage => Stage.noConfusion stage
  | dismissed got _ _ => exact h.ending (Inbox.finished_of_got got)
  | ignored got stage =>
    have kept := Inbox.finished_of_got got
    refine ⟨h.finished.trans kept.symm, ?_, h.chatting, h.listening⟩
    intro waiting
    rw [show s.stage = .waiting from waiting] at stage
    cases stage

theorem Turned.stage (turned : Turned st id s next after) (past : s.stage ≠ .waiting) :
    next.stage = s.stage := by
  cases turned with
  | listening _ admits _ => exact absurd admits.1 past
  | admitted _ speaks _ | served _ speaks _ =>
    rcases speaks with stage | ⟨waiting, -⟩
    · exact stage.symm
    · exact absurd waiting past
  | _ => rfl

theorem Becomes.faithful (h : s.Faithful st.hub.tokens) (becomes : Becomes st id m s next) :
    next.Faithful st.hub.tokens := by
  cases becomes with
  | same m s => exact h
  | heard s arrival more => exact h.arrive more arrival
  | finished s => exact h.finish
  | turned running turned _ => exact turned.faithful h running
  | noticed s _ => exact h.ending rfl

theorem Becomes.authentic (h : s.Faithful st.hub.tokens) (becomes : Becomes st id m s next)
    (authentic : s.Authentic st.hub.tokens who) : next.Authentic st.hub.tokens who := by
  cases becomes with
  | same m s => exact authentic
  | heard s arrival more => exact authentic.arrive (h.finished.trans more) arrival
  | finished s => exact authentic.finish
  | turned _ turned _ =>
    obtain ⟨entry, heard⟩ := turned.kept
    unfold Session.Authentic
    rw [entry, heard]
    exact authentic
  | noticed s _ => exact authentic

theorem Becomes.entry (becomes : Becomes st id m s next) : next.entry = s.entry := by
  cases becomes with
  | turned _ turned _ => exact turned.kept.1
  | _ => rfl

theorem Becomes.stage (becomes : Becomes st id m s next) (past : s.stage ≠ .waiting) :
    next.stage = s.stage := by
  cases becomes with
  | turned _ turned _ => exact turned.stage past
  | _ => rfl

/-! ### Identities of connections -/

/-- The session of a connection has taken the first envelope of its far end for a credential of this
identity at this entry point. -/
def LetIn (st : Station) (id : ConnId) (entry : EntryPoint) (who : Identity) : Prop :=
  ∃ s, st.sessions.find? id = some s ∧ s.entry = entry ∧ s.stage ≠ .waiting ∧
    s.Authentic st.hub.tokens who

def Authentic (st : Station) (id : ConnId) : Prop :=
  ∃ s who, st.sessions.find? id = some s ∧ s.Authentic st.hub.tokens who

def Faithful (st : Station) : Prop :=
  ∀ id s, st.sessions.find? id = some s → s.Faithful st.hub.tokens

theorem session_step (sound : st.Sound) (found : st.sessions.find? id = some s) (m : Move) :
    ∃ next, (st.step m).sessions.find? id = some next ∧ Becomes st id m s next := by
  rcases sessions_step st m id with becomes | ⟨_, _, _, _, _, unknown, _⟩
  · rw [found] at becomes
    cases after : (st.step m).sessions.find? id with
    | none => rw [after] at becomes; cases becomes
    | some next =>
      rw [after] at becomes
      cases becomes with
      | some becomes => exact ⟨next, rfl, becomes⟩
  · exact absurd (sound.known id s found) unknown

theorem Faithful.step (h : st.Faithful) (m : Move) : (st.step m).Faithful := by
  intro id next found
  rw [tokens_step]
  rcases sessions_step st m id with becomes | ⟨entry, _, _, link, _, _, shape⟩
  · rw [found] at becomes
    cases before : st.sessions.find? id with
    | none => rw [before] at becomes; cases becomes
    | some s =>
      rw [before] at becomes
      cases becomes with
      | some becomes => exact becomes.faithful (h id s before)
  · rw [shape, withClient, Table.find?_insert, if_pos rfl] at found
    cases found
    exact Session.fresh_faithful entry

theorem Authentic.step (sound : st.Sound) (h : st.Faithful) (authentic : st.Authentic id)
    (m : Move) : (st.step m).Authentic id := by
  obtain ⟨s, who, found, authentic⟩ := authentic
  obtain ⟨next, found', becomes⟩ := session_step sound found m
  refine ⟨next, who, found', ?_⟩
  rw [tokens_step]
  exact becomes.authentic (h id s found) authentic

theorem Faithful.run (h : st.Faithful) (moves : List Move) : (st.run moves).Faithful :=
  run_keeps Faithful (fun _ m h => h.step m) h moves

theorem session_run (sound : st.Sound) (h : st.Faithful) (found : st.sessions.find? id = some s)
    (moves : List Move) :
    ∃ next, (st.run moves).sessions.find? id = some next ∧ next.entry = s.entry ∧
      (∀ who, s.Authentic st.hub.tokens who → next.Authentic st.hub.tokens who) ∧
      (s.stage ≠ .waiting → next.stage = s.stage) := by
  induction moves generalizing st s with
  | nil => exact ⟨s, found, rfl, fun _ authentic => authentic, fun _ => rfl⟩
  | cons m moves ih =>
    obtain ⟨next, found', becomes⟩ := session_step sound found m
    obtain ⟨last, found'', entry, authentic, stage⟩ := ih (sound.step m) (h.step m) found'
    rw [tokens_step] at authentic
    refine ⟨last, found'', entry.trans becomes.entry, ?_, ?_⟩
    · intro who before
      exact authentic who (becomes.authentic (h id s found) before)
    · intro past
      have same := becomes.stage past
      rw [same] at stage
      exact stage past

theorem LetIn.run {entry : EntryPoint} (sound : st.Sound) (h : st.Faithful)
    (letIn : st.LetIn id entry who) (moves : List Move) : (st.run moves).LetIn id entry who := by
  obtain ⟨s, found, rfl, past, authentic⟩ := letIn
  obtain ⟨next, found', entry, kept, stage⟩ := session_run sound h found moves
  refine ⟨next, found', entry, ?_, ?_⟩
  · rw [stage past]
    exact past
  · rw [tokens_run]
    exact kept who authentic

theorem Authentic.run (sound : st.Sound) (h : st.Faithful) (authentic : st.Authentic id)
    (moves : List Move) : (st.run moves).Authentic id := by
  obtain ⟨s, who, found, authentic⟩ := authentic
  obtain ⟨next, found', -, kept, -⟩ := session_run sound h found moves
  refine ⟨next, who, found', ?_⟩
  rw [tokens_run]
  exact kept who authentic

end Station

end Switchboard
