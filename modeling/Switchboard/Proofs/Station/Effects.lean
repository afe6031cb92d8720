import Switchboard.Proofs.Hub.Deeds
import Switchboard.Proofs.Station.Moves

/-!
What a move may do to the parts of a station: the deeds that it may perform on the exchange, how it
changes a session, and what it leaves alone. Invariants are proved from this and do not look into
the moves again.
-/

namespace Switchboard.Station

open Exchange (Leads)

/-! ### Serving and turns -/

def Tells (id : ConnId) (d : Deed) : Prop :=
  ∃ fault frame, Frame.ofFault fault = .ok frame ∧ d = .send id frame

theorem tells_of_tell (h : Hub) (id : ConnId) (fault : Fault) :
    Leads (Tells id) h.exchange (h.tell id fault).exchange := by
  apply (Hub.tell_leads h id fault).mono
  rintro d ⟨frame, written, shape⟩
  exact ⟨fault, frame, written, shape⟩

/-- The deeds of a read by a session. -/
inductive Reads (st : Station) (id : ConnId) (s : Session) : Deed → Prop
  | chat {e : Envelope} {rest : Inbox} {who : Identity} {d : Deed}
    (next : s.inbox.next = .got (.ok e) rest) (speaks : s.Speaks st.hub.tokens e who)
    (deed : st.hub.ChatDeed who id e d) : Reads st id s d
  | listen {e : Envelope} {rest : Inbox} {who : Identity} {topic : Topic}
    (next : s.inbox.next = .got (.ok e) rest) (admits : s.Admits st.hub.tokens e who)
    (serves : s.entry.topic? = some topic) : Reads st id s (.join topic id)
  | tell {d : Deed} (tells : Tells id d) : Reads st id s d
  | hangUp : Reads st id s (.close id)

/-- The deeds of a move. -/
inductive Does (st : Station) : Move → Deed → Prop
  | read {id : ConnId} {s : Session} {d : Deed} (found : st.sessions.find? id = some s)
    (running : s.ended = false) (reads : st.Reads id s d) : Does st (.read id) d
  | relink (id : ConnId) (change : Link → Link) (link : Link) :
    Does st (.relink id change) (.relink id link)
  | reap (id : ConnId) : Does st (.reap id) (.close id)
  | ping {outer : Bool} {n : Nat} {m : Monitor} (watching : m ∈ st.watches outer) :
    Does st (.probe outer n) (.send m.conn .probe)
  | evict {outer : Bool} {n : Nat} {m : Monitor} (watching : m ∈ st.watches outer) :
    Does st (.probe outer n) (.leave m.topic m.conn)
  | giveUp {outer : Bool} {n : Nat} {m : Monitor} (watching : m ∈ st.watches outer) :
    Does st (.probe outer n) (.close m.conn)
  | publish {queue : QueueName} {event : Event} {bus : Bus} {frame : Frame} {d : Deed}
    (queued : st.hub.bus.take? queue = some (event, bus)) (written : event.frame = .ok frame)
    (publishes : d.Publishes (st.exchange.membersOf event.topic) event.topic frame) :
    Does st (.dispatch queue) d

/-- A served frame is a chat frame, then perhaps a word about the fault, then perhaps the end. -/
theorem serve_cases (st : Station) (id : ConnId) (who : Identity) (e : Envelope) :
    (∃ hub, st.hub.chat who id e = (.ok (), hub) ∧ st.serve id who e = (true, st.withHub hub)) ∨
    ∃ why hub, st.hub.chat who id e = (.error why, hub) ∧
      (st.serve id who e = (false, st.withHub (hub.reject id (.refused why))) ∨
        st.serve id who e = (true, st.withHub (hub.tell id (.refused why)))) := by
  unfold serve
  cases answer : st.hub.chat who id e with
  | mk result hub =>
    cases result with
    | ok _ => exact Or.inl ⟨hub, rfl, rfl⟩
    | error why =>
      refine Or.inr ⟨why, hub, rfl, ?_⟩
      dsimp only
      split
      · exact Or.inl rfl
      · exact Or.inr rfl

theorem serve_hub {st after : Station} {id : ConnId} {who : Identity} {e : Envelope} {going : Bool}
    (done : st.serve id who e = (going, after)) :
    ∃ x, after = st.withHub { (st.hub.chat who id e).2 with exchange := x } := by
  rcases serve_cases st id who e with ⟨hub, chat, shape⟩ | ⟨why, hub, chat, shape | shape⟩
  · rw [shape] at done
    cases done
    exact ⟨hub.exchange, by rw [chat]⟩
  · rw [shape] at done
    cases done
    exact ⟨_, by rw [chat, Hub.reject_eq]⟩
  · rw [shape] at done
    cases done
    exact ⟨_, by rw [chat, Hub.tell_eq]⟩

theorem reject_leads (st : Station) (id : ConnId) (s : Session) (hub : Hub) (fault : Fault) :
    Leads (st.Reads id s) hub.exchange (hub.reject id fault).exchange := by
  apply (Hub.reject_leads hub id fault).mono
  rintro d (⟨frame, written, shape⟩ | rfl)
  · exact .tell ⟨fault, frame, written, shape⟩
  · exact .hangUp

theorem serve_leads {st after : Station} {id : ConnId} {s : Session} {who : Identity} {e : Envelope}
    {rest : Inbox} {going : Bool} (consistent : st.exchange.Consistent)
    (known : st.exchange.Knows id) (next : s.inbox.next = .got (.ok e) rest)
    (speaks : s.Speaks st.hub.tokens e who) (done : st.serve id who e = (going, after)) :
    Leads (st.Reads id s) st.exchange after.exchange := by
  have chatted : Leads (st.Reads id s) st.exchange (st.hub.chat who id e).2.exchange :=
    (Hub.chat_leads consistent known who e).mono fun _ deed => .chat next speaks deed
  rcases serve_cases st id who e with ⟨hub, chat, shape⟩ | ⟨why, hub, chat, shape | shape⟩
  · rw [shape] at done
    cases done
    rwa [chat] at chatted
  · rw [shape] at done
    cases done
    rw [chat] at chatted
    exact chatted.trans (reject_leads st id s hub _)
  · rw [shape] at done
    cases done
    rw [chat] at chatted
    exact chatted.trans ((tells_of_tell hub id _).mono fun d tells => .tell tells)

theorem turned_leads {st after : Station} {id : ConnId} {s next : Session}
    (consistent : st.exchange.Consistent) (known : st.exchange.Knows id)
    (turned : Turned st id s next after) : Leads (st.Reads id s) st.exchange after.exchange := by
  cases turned with
  | idle _ => exact .refl _
  | left _ _ => exact (Hub.close_leads st.hub id).mono fun d shape => shape ▸ .hangUp
  | rejected fault _ _ _ => exact reject_leads st id s st.hub fault
  | listening got admits special =>
    unfold listen join?
    cases serves : s.entry.topic? with
    | none => exact .refl _
    | some topic =>
      have joined : Leads (st.Reads id s) st.exchange (st.exchange.perform (.join topic id)) :=
        .single (.listen got admits serves) _
      exact joined
  | admitted _ _ _ => exact .refl _
  | served got speaks done => exact serve_leads consistent known got speaks done
  | dismissed got speaks done => exact serve_leads consistent known got speaks done
  | ignored _ _ => exact .refl _

theorem turned_closed {st after : Station} {id : ConnId} {s next : Session}
    (consistent : st.exchange.Consistent) (known : st.exchange.Knows id) (running : s.ended = false)
    (turned : Turned st id s next after) (ended : next.ended = true) :
    after.exchange.isClosed id = true := by
  cases turned with
  | left _ _ => exact (Exchange.isClosed_close consistent id id).trans (by simp)
  | rejected fault _ _ _ => exact Hub.isClosed_reject consistent id fault
  | @dismissed e rest who after got speaks done =>
    rcases serve_cases st id who e with ⟨hub, chat, shape⟩ | ⟨why, hub, chat, shape | shape⟩
    · rw [shape] at done
      cases done
    · rw [shape] at done
      cases done
      have chatted := Hub.chat_leads consistent known who e
      rw [chat] at chatted
      have kept := (chatted.consistent consistent fun d deed => deed.possible known).1
      exact Hub.isClosed_reject kept id _
    · rw [shape] at done
      cases done
  | _ => rw [running] at ended; cases ended

end Switchboard.Station
