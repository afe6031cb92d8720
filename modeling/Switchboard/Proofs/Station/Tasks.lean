import Switchboard.Proofs.Hub.Delivered
import Switchboard.Proofs.Station.Faithful

/-!
What a session has to do, said from the results of its reads alone: the first is a credential, the
others are served or passed over, and every error is told to the connection once.
-/

namespace Switchboard

/-- What is left of a session, with all that its reads will still bring. -/
inductive Task
  | credential (entry : EntryPoint) (results : List (Except Fault Envelope))
  | chat (who : Identity) (results : List (Except Fault Envelope))
  | listen (results : List (Except Fault Envelope))
  | finished

def Task.size : Task → Nat
  | .credential _ results | .chat _ results | .listen results => results.length + 1
  | .finished => 0

def Session.task (s : Session) (results : List (Except Fault Envelope)) : Task :=
  if s.ended then .finished
  else
    match s.stage with
    | .waiting => .credential s.entry results
    | .chatting who => .chat who results
    | .listening => .listen results

namespace Hub

def post? (h : Hub) (id : ConnId) (fault : Fault) : Option Hub :=
  match Frame.ofFault fault with
  | .error _ => none
  | .ok frame =>
    match h.exchange.send id frame with
    | .ok x => some { h with exchange := x }
    | .error _ => none

end Hub

namespace Station

def refuse? (st : Station) (hub : Hub) (id : ConnId) (fault : Fault) : Option (Task × Station) :=
  (hub.post? id fault).map fun hub => (.finished, st.withHub (hub.close id))

def talk? (st : Station) (id : ConnId) (who : Identity) (e : Envelope)
    (later : List (Except Fault Envelope)) : Option (Task × Station) :=
  match st.hub.chat who id e with
  | (.ok (), hub) => some (.chat who later, st.withHub hub)
  | (.error why, hub) =>
    if (Fault.refused why).isFatal then st.refuse? hub id (.refused why)
    else (hub.post? id (.refused why)).map fun hub => (.chat who later, st.withHub hub)

/-- What a session does next, and what is left of it then. -/
def act? (st : Station) (id : ConnId) : Task → Option (Task × Station)
  | .credential _ [] => st.refuse? st.hub id (.refused .closedEarly)
  | .credential _ (.error fault :: _) => st.refuse? st.hub id fault
  | .credential entry (.ok e :: later) =>
    match authenticate st.hub.tokens entry e with
    | .error why => st.refuse? st.hub id (.refused why)
    | .ok who =>
      if entry = .chat then
        if e.type?.isNone then some (.chat who later, st) else st.talk? id who e later
      else some (.listen later, st.listen id entry)
  | .chat _ [] => some (.finished, st.withHub (st.hub.close id))
  | .chat _ (.error fault :: _) => st.refuse? st.hub id fault
  | .chat who (.ok e :: later) => st.talk? id who e later
  | .listen [] => some (.finished, st.withHub (st.hub.close id))
  | .listen (.error fault :: _) => st.refuse? st.hub id fault
  | .listen (.ok _ :: later) => some (.listen later, st)
  | .finished => none

/-- The fault that a session reports when it reads now, and the hub in which it does so. -/
inductive Reports (st : Station) (id : ConnId) (s : Session) : Fault → Hub → Prop
  | early (waiting : s.stage = .waiting) (next : s.inbox.next = .ended) :
    Reports st id s (.refused .closedEarly) st.hub
  | unreadable {fault : Fault} {rest : Inbox} (next : s.inbox.next = .got (.error fault) rest) :
    Reports st id s fault st.hub
  | stranger {e : Envelope} {rest : Inbox} {why : Refusal} (next : s.inbox.next = .got (.ok e) rest)
    (waiting : s.stage = .waiting) (denied : authenticate st.hub.tokens s.entry e = .error why) :
    Reports st id s (.refused why) st.hub
  | failed {e : Envelope} {rest : Inbox} {who : Identity} {why : Refusal} {hub : Hub}
    (next : s.inbox.next = .got (.ok e) rest) (speaks : s.Speaks st.hub.tokens e who)
    (called : s.stage = .waiting → e.type? ≠ none)
    (answered : st.hub.chat who id e = (.error why, hub)) : Reports st id s (.refused why) hub

/-- Nothing that a session sends when it reads now fails to be sent. -/
structure Sends (st : Station) (id : ConnId) (s : Session) : Prop where
  chat : ∀ {e rest who}, s.inbox.next = .got (.ok e) rest → s.Speaks st.hub.tokens e who →
    st.hub.Delivers id e
  errors : ∀ {fault hub}, st.Reports id s fault hub → (hub.post? id fault).isSome = true

end Station

namespace Hub

theorem tell_eq_post? (h : Hub) (id : ConnId) (fault : Fault) :
    h.tell id fault = (h.post? id fault).getD h := by
  unfold tell post?
  cases Frame.ofFault fault with
  | error _ => rfl
  | ok frame =>
    dsimp only
    cases h.exchange.send id frame <;> rfl

theorem isClosed_tell (h : Hub) (id : ConnId) (fault : Fault) (one : ConnId) :
    (h.tell id fault).exchange.isClosed one = h.exchange.isClosed one := by
  unfold tell
  split
  · rfl
  · split
    · next sent => exact Exchange.isClosed_send sent one
    · rfl

end Hub

namespace Station

variable {st : Station} {id : ConnId} {s : Session} {fault : Fault} {e : Envelope} {who : Identity}
  {rest : Inbox} {later results : List (Except Fault Envelope)} {result : Except Fault Envelope}
  {hub : Hub}

theorem Sends.of_bare (got : s.inbox.next = .got (.ok e) rest) (waiting : s.stage = .waiting)
    (accepted : authenticate st.hub.tokens s.entry e = .ok who) (bare : e.type? = none) :
    st.Sends id s where
  chat := fun got' _ => by
    cases got.symm.trans got'
    exact ⟨fun type => (nomatch bare.symm.trans type), fun type => (nomatch bare.symm.trans type),
      fun type => (nomatch bare.symm.trans type)⟩
  errors := fun reports => by
    cases reports with
    | early _ ended => cases got.symm.trans ended
    | unreadable failed => cases got.symm.trans failed
    | stranger got' _ denied =>
      cases got.symm.trans got'
      cases accepted.symm.trans denied
    | failed got' _ called _ =>
      cases got.symm.trans got'
      exact absurd bare (called waiting)

theorem Sends.of_chat (got : s.inbox.next = .got (.ok e) rest) (chatting : s.stage = .chatting who)
    (delivers : st.hub.Delivers id e)
    (errors : ∀ why hub, st.hub.chat who id e = (.error why, hub) →
      (hub.post? id (.refused why)).isSome = true) : st.Sends id s where
  chat := fun got' _ => by
    cases got.symm.trans got'
    exact delivers
  errors := fun reports => by
    cases reports with
    | early _ ended => cases got.symm.trans ended
    | unreadable failed => cases got.symm.trans failed
    | stranger _ waiting _ => cases chatting.symm.trans waiting
    | failed got' speaks _ answered =>
      cases got.symm.trans got'
      rcases speaks with stage | ⟨waiting, -⟩
      · cases chatting.symm.trans stage
        exact errors _ _ answered
      · cases chatting.symm.trans waiting

theorem Sends.of_ended (ended : s.inbox.next = .ended) (past : s.stage ≠ .waiting) :
    st.Sends id s where
  chat := fun got _ => nomatch ended.symm.trans got
  errors := fun reports => by
    cases reports with
    | early waiting _ => exact absurd waiting past
    | unreadable got | stranger got _ _ | failed got _ _ _ => cases ended.symm.trans got

theorem Sends.post?_eq (sends : st.Sends id s) (reports : st.Reports id s fault hub) :
    hub.post? id fault = some (hub.tell id fault) := by
  obtain ⟨told, posted⟩ := Option.isSome_iff_exists.mp (sends.errors reports)
  rw [Hub.tell_eq_post?, posted]
  rfl

theorem Sends.refuse?_eq (sends : st.Sends id s) (reports : st.Reports id s fault hub) :
    st.refuse? hub id fault = some (.finished, st.withHub (hub.reject id fault)) := by
  rw [refuse?, sends.post?_eq reports]
  rfl

theorem talk?_eq (sends : st.Sends id s) (next : s.inbox.next = .got (.ok e) rest)
    (speaks : s.Speaks st.hub.tokens e who) (called : s.stage = .waiting → e.type? ≠ none)
    (later : List (Except Fault Envelope)) :
    st.talk? id who e later =
      some (if (st.serve id who e).1 then .chat who later else .finished, (st.serve id who e).2) := by
  unfold talk? serve
  cases answered : st.hub.chat who id e with
  | mk result hub =>
    cases result with
    | ok _ => rfl
    | error why =>
      have reports : st.Reports id s (.refused why) hub := .failed next speaks called answered
      dsimp only
      split
      · rw [sends.refuse?_eq reports]
        rfl
      · rw [sends.post?_eq reports]
        rfl

/-! ### Every act brings the end nearer -/

theorem size_refuse {next : Task} {after : Station}
    (refused : st.refuse? hub id fault = some (next, after)) (n : Nat) : next.size < n + 1 := by
  obtain ⟨told, -, shape⟩ := Option.map_eq_some_iff.mp refused
  cases shape
  exact Nat.succ_pos n

theorem size_talk {next : Task} {after : Station}
    (talked : st.talk? id who e later = some (next, after)) : next.size < later.length + 2 := by
  unfold talk? at talked
  split at talked
  · cases talked
    exact Nat.lt_succ_self _
  · split at talked
    · exact size_refuse talked _
    · obtain ⟨told, -, shape⟩ := Option.map_eq_some_iff.mp talked
      cases shape
      exact Nat.lt_succ_self _

theorem size_act {task next : Task} {after : Station}
    (acts : st.act? id task = some (next, after)) : next.size < task.size := by
  cases task with
  | credential entry results =>
    rcases results with _ | ⟨fault | e, later⟩
    · exact size_refuse acts _
    · exact size_refuse acts _
    · simp only [act?] at acts
      split at acts
      · exact size_refuse acts _
      · split at acts
        · split at acts
          · cases acts
            exact Nat.lt_succ_self _
          · exact size_talk acts
        · cases acts
          exact Nat.lt_succ_self _
  | chat who results =>
    rcases results with _ | ⟨fault | e, later⟩
    · cases acts
      exact Nat.succ_pos _
    · exact size_refuse acts _
    · exact size_talk acts
  | listen results =>
    rcases results with _ | ⟨fault | e, later⟩
    · cases acts
      exact Nat.succ_pos _
    · exact size_refuse acts _
    · cases acts
      exact Nat.lt_succ_self _
  | finished => cases acts

/-! ### A turn is what the reference has next -/

theorem act?_end (sends : st.Sends id s) (running : s.ended = false)
    (next : s.inbox.next = .ended) :
    st.act? id (s.task []) = some ((st.turn id s).1.task [], (st.turn id s).2) := by
  have turn : st.turn id s = ({ s with ended := true }, st.hangUp id s.stage) := by
    rw [Station.turn, next]
  rw [turn]
  simp only [Session.task, running, Bool.false_eq_true, if_false, if_true]
  cases stage : s.stage with
  | waiting => exact sends.refuse?_eq (.early stage next)
  | chatting who => rfl
  | listening => rfl

theorem act?_unreadable (sends : st.Sends id s) (running : s.ended = false)
    (next : s.inbox.next = .got (.error fault) rest) :
    st.act? id (s.task (.error fault :: later)) =
      some ((st.turn id s).1.task later, (st.turn id s).2) := by
  have turn : st.turn id s =
      ({ s with inbox := rest, ended := true }, st.withHub (st.hub.reject id fault)) := by
    rw [Station.turn, next]
  have refused := sends.refuse?_eq (.unreadable next)
  rw [turn]
  simp only [Session.task, running, Bool.false_eq_true, if_false, if_true]
  cases s.stage <;> exact refused

theorem act?_first (sends : st.Sends id s) (running : s.ended = false)
    (waiting : s.stage = .waiting) (next : s.inbox.next = .got (.ok e) rest) :
    st.act? id (s.task (.ok e :: later)) =
      some ((st.turn id s).1.task later, (st.turn id s).2) := by
  simp only [Session.task, running, waiting, Station.turn, next, handle, act?, Bool.false_eq_true,
    if_false]
  cases accepted : authenticate st.hub.tokens s.entry e with
  | error why => simp [sends.refuse?_eq (.stranger next waiting accepted)]
  | ok who =>
    by_cases chat : s.entry = .chat
    · by_cases bare : e.type?.isNone = true
      · simp [chat, bare]
      · have speaks : s.Speaks st.hub.tokens e who := Or.inr ⟨waiting, chat, chat ▸ accepted⟩
        have called : s.stage = .waiting → e.type? ≠ none := fun _ none => bare (by simp [none])
        have talked := talk?_eq sends next speaks called later
        cases going : (st.serve id who e).1 <;> simp [chat, bare, talked, going]
    · simp [chat]

theorem act?_next (sends : st.Sends id s) (running : s.ended = false)
    (past : s.stage ≠ .waiting) (next : s.inbox.next = .got (.ok e) rest) :
    st.act? id (s.task (.ok e :: later)) =
      some ((st.turn id s).1.task later, (st.turn id s).2) := by
  cases stage : s.stage with
  | waiting => exact absurd stage past
  | chatting who =>
    have talked := talk?_eq sends next (Or.inl stage) (fun waiting => absurd waiting past) later
    simp only [Session.task, running, stage, Station.turn, next, handle, act?, Bool.false_eq_true,
      if_false]
    cases going : (st.serve id who e).1 <;> simp [talked, going]
  | listening => simp [Session.task, running, stage, Station.turn, next, handle, act?]

theorem act?_got (sends : st.Sends id s) (running : s.ended = false)
    (next : s.inbox.next = .got result rest) :
    st.act? id (s.task (result :: later)) =
      some ((st.turn id s).1.task later, (st.turn id s).2) := by
  cases result with
  | error fault => exact act?_unreadable sends running next
  | ok e =>
    by_cases waiting : s.stage = .waiting
    · exact act?_first sends running waiting next
    · exact act?_next sends running waiting next

theorem Turned.opened {after : Station} {next : Session} (turned : Turned st id s next after)
    (sends : st.Sends id s) (opened : st.exchange.isClosed id = false)
    (going : next.ended = false) : after.exchange.isClosed id = false := by
  cases turned with
  | listening _ _ _ =>
    unfold listen join?
    cases s.entry.topic? with
    | none => exact opened
    | some topic => exact ((Exchange.SameConns.join st.exchange topic id).closed id).trans opened
  | @served e rest who after got speaks done =>
    have chatted := Hub.isClosed_chat (sends.chat got speaks) who id
    rcases serve_cases st id who e with ⟨hub, answered, shape⟩ | ⟨why, hub, answered, shape | shape⟩
    · rw [shape] at done
      cases done
      rw [answered] at chatted
      exact chatted.trans opened
    · rw [shape] at done
      cases done
    · rw [shape] at done
      cases done
      rw [answered] at chatted
      exact ((Hub.isClosed_tell hub id _ id).trans chatted).trans opened
  | left _ _ | rejected _ _ _ _ | dismissed _ _ _ => cases going
  | _ => exact opened

end Station

end Switchboard
