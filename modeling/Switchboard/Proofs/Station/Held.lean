import Switchboard.Proofs.Exchange.Held
import Switchboard.Proofs.Station.Sound

/-!
The frames that are sent while a station runs reach the links that they were sent to. Writers and
far ends take them from there in the order in which they were sent.
-/

namespace Switchboard.Station

variable {st : Station} {id : ConnId}

/-- Moves that put no frame into a link by themselves. -/
def Releases (st : Station) : Move → Prop
  | .relink id change => ∀ c, st.exchange.conns.find? id = some c →
      (change c.link).held <:+ c.link.held
  | _ => True

theorem filed_mapLink (filed : st.exchange.Filed) {change : Link → Link}
    (releases : ∀ c, st.exchange.conns.find? id = some c → (change c.link).held <:+ c.link.held) :
    (st.mapLink id change).exchange.Filed := by
  unfold mapLink
  split
  · exact filed
  · next c found =>
    apply filed.setLink
    rw [Exchange.heldBy, Exchange.linkOf?_of_find? found]
    exact releases c found

theorem filed_connectClient (filed : st.exchange.Filed) (entry : EntryPoint) (room : Nat)
    (stalled : Bool) : (st.connectClient id entry room stalled).exchange.Filed := by
  unfold connectClient
  split
  · exact filed
  · unfold addClient
    dsimp only
    cases Queue.checkCapacity st.hub.limits.outboundCapacity.toNat with
    | error fault => exact filed
    | ok _ => exact filed.connect rfl

theorem Does.not_relink {m : Move} {link : Link} (does : st.Does m (.relink id link)) :
    ∃ change, m = .relink id change := by
  cases does with
  | read _ _ reads =>
    cases reads with
    | chat _ _ deed =>
      cases deed with
      | greet _ _ greets =>
        obtain shape | ⟨frame, -, publishes⟩ := greets
        · cases shape
        · exact publishes.elim
      | talk _ _ _ publishes => exact publishes.elim
    | tell tells =>
      obtain ⟨fault, frame, -, shape⟩ := tells
      cases shape
  | relink _ change _ => exact ⟨change, rfl⟩
  | publish _ _ publishes => exact publishes.elim

theorem filed_step (sound : st.Sound) (filed : st.exchange.Filed) {m : Move}
    (releases : st.Releases m) : (st.step m).exchange.Filed := by
  rcases exchange_step sound.consistent sound.known m with
    leads | ⟨id, entry, room, stalled, _, rfl, -, -⟩
  · by_cases relinks : ∃ id change, m = .relink id change
    · obtain ⟨id, change, rfl⟩ := relinks
      exact filed_mapLink filed releases
    · intro one
      refine (leads.hands sound.consistent (fun _ => Does.possible sound) ?_).suffix (filed one)
      exact fun link does => relinks ⟨one, does.not_relink⟩
  · exact filed_connectClient filed entry room stalled

/-- Whatever a station does: what a link holds is the end of what its connection was sent. -/
theorem filed_run (sound : st.Sound) (filed : st.exchange.Filed) (moves : List Move)
    (releases : ∀ before m later, moves = before ++ m :: later → (st.run before).Releases m) :
    (st.run moves).exchange.Filed := by
  induction moves generalizing st with
  | nil => exact filed
  | cons m moves ih =>
    apply ih (sound.step m) (filed_step sound filed (releases [] m moves rfl))
    intro before next later shape
    exact releases (m :: before) next later (by rw [shape, List.cons_append])

/-! ### Writers and far ends -/

theorem filed_runWriter (sound : st.Sound) (filed : st.exchange.Filed) (id : ConnId) :
    (st.runWriter id).exchange.Filed := by
  unfold runWriter
  split
  · exact filed
  · next c found =>
    split
    · exact filed
    · next o link =>
      let drained := o.drain st.now st.writeTimeout c.closed
      have relinked : (st.exchange.setLink id (.client drained)).Filed := by
        apply filed.setLink
        rw [Exchange.heldBy, Exchange.linkOf?_of_find? found, Option.elim_some, link]
        exact o.drain_releases st.now st.writeTimeout c.closed
      dsimp only
      split
      · intro one
        have consistent := sound.consistent.setLink id (.client drained)
        exact (Exchange.hands_close consistent id one).suffix (relinked one)
      · exact relinked

theorem filed_mapPipe (filed : st.exchange.Filed) (id : ConnId) (change : Pipe → Pipe) :
    (st.mapPipe id change).exchange.Filed := by
  apply filed_mapLink filed
  rintro ⟨closed, hooks, link, taken⟩ -
  cases link <;> exact List.suffix_rfl

theorem filed_setFailing (filed : st.exchange.Filed) (id : ConnId) (failing : Bool) :
    (st.setFailing id failing).exchange.Filed := by
  apply filed_mapLink filed
  rintro ⟨closed, hooks, link, taken⟩ -
  cases link <;> exact List.suffix_rfl

theorem collect_peer {c : Conn} {p : Peer} (found : st.exchange.conns.find? id = some c)
    (link : c.link = .peer p) :
    ∃ after, st.collect id = (.frames (st.exchange.heldBy id), after) ∧
      after.exchange.heldBy id = [] := by
  refine ⟨st.withExchange (st.exchange.setLink id (.peer { p with received := [] })), ?_, ?_⟩
  · unfold collect
    rw [found]
    simp only [link, Exchange.heldBy, Exchange.linkOf?_of_find? found, Option.elim_some, Link.held]
  · change (st.exchange.setLink id _).heldBy id = []
    rw [Exchange.setLink_eq found, Exchange.heldBy, Exchange.linkOf?_withConn, if_pos rfl]
    rfl

end Switchboard.Station
