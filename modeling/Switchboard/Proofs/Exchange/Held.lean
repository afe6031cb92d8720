import Switchboard.Proofs.Conn.Outbound
import Switchboard.Proofs.Exchange.Leads

/-!
Where the frames are that a connection took: each was handed to its link when it was taken, and
links let go of them from the front.
-/

namespace Switchboard

/-- Frames that were handed to a link: those that a peer has received, or those in a client's queue. -/
def Link.held : Link → List Frame
  | .peer p => p.received.reverse
  | .client o => o.queue.items

theorem Peer.send_received {p next : Peer} {frame : Frame} (sent : p.send frame = .ok next) :
    next.received = frame :: p.received := by
  unfold Peer.send at sent
  split at sent <;> cases sent
  rfl

theorem Outbound.send_queue {o next : Outbound} {frame : Frame} (sent : o.send frame = .ok next) :
    next.queue.items = o.queue.items ++ [frame] := by
  unfold Outbound.send at sent
  split at sent
  · cases sent
  · split at sent
    · next queue pushed =>
      cases sent
      exact (Queue.items_push pushed).1
    · cases sent

/-- A frame that is taken is handed to the link, of whichever kind that is. -/
theorem Conn.send_held {c next : Conn} {frame : Frame} (sent : c.send frame = .ok next) :
    next.taken = frame :: c.taken ∧ next.link.held = c.link.held ++ [frame] := by
  obtain ⟨-, ⟨p, k, link, answer, rfl⟩ | ⟨o, k, link, answer, rfl⟩⟩ := send_cases sent
  · refine ⟨rfl, ?_⟩
    rw [link, Link.held, Link.held, Peer.send_received answer, List.reverse_cons]
  · refine ⟨rfl, ?_⟩
    rw [link, Link.held, Link.held, Outbound.send_queue answer]

/-! ### The writer -/

namespace Outbound

variable {o next : Outbound} {now timeout : Nat} {closed : Bool}

theorem Moved.releases (moved : Moved closed o next) : next.queue.items <:+ o.queue.items := by
  cases moved with
  | began frame queue deadline ready popped =>
    rw [(Queue.items_pop popped).1]
    exact List.suffix_cons frame queue.items
  | shut | failed => exact List.nil_suffix
  | wrote => exact List.suffix_rfl

theorem drain_releases (o : Outbound) (now timeout : Nat) (closed : Bool) :
    (o.drain now timeout closed).queue.items <:+ o.queue.items := by
  fun_induction drain now timeout closed o with
  | case1 o next step ih => exact ih.trans (step?_moved step).releases
  | case2 o stuck => exact List.suffix_rfl

end Outbound

namespace Exchange

variable {x y next : Exchange} {id one : ConnId} {frame : Frame}

def heldBy (x : Exchange) (id : ConnId) : List Frame := (x.linkOf? id).elim [] Link.held

/-- What a connection has taken since, its link was handed, and nothing else was. -/
def Hands (x next : Exchange) (one : ConnId) : Prop :=
  ∃ frames, next.sentTo one = x.sentTo one ++ frames ∧ next.heldBy one = x.heldBy one ++ frames

theorem Hands.refl (x : Exchange) (one : ConnId) : Hands x x one := ⟨[], by simp, by simp⟩

theorem Hands.trans (first : Hands x y one) (second : Hands y next one) : Hands x next one := by
  obtain ⟨frames, taken, held⟩ := first
  obtain ⟨more, taken', held'⟩ := second
  exact ⟨frames ++ more, by rw [taken', taken, List.append_assoc],
    by rw [held', held, List.append_assoc]⟩

theorem SameConns.hands (same : SameConns x next) (one : ConnId) : Hands x next one :=
  ⟨[], by rw [same.sent, List.append_nil], by rw [heldBy, same.links, heldBy, List.append_nil]⟩

theorem hands_send (sent : x.send id frame = .ok next) (one : ConnId) : Hands x next one := by
  obtain ⟨c, k, found, accepted, rfl⟩ := send_conn sent
  by_cases self : id = one
  · subst self
    obtain ⟨taken, held⟩ := Conn.send_held accepted
    refine ⟨[frame], ?_, ?_⟩
    · rw [sentTo_withConn, if_pos rfl, taken, List.reverse_cons, sentTo, found]
    · rw [heldBy, linkOf?_withConn, if_pos rfl, heldBy, linkOf?_of_find? found]
      exact held
  · refine ⟨[], ?_, ?_⟩
    · rw [sentTo_withConn, if_neg self, List.append_nil]
    · rw [heldBy, linkOf?_withConn, if_neg self, heldBy, List.append_nil]

theorem hands_close (h : x.Consistent) (id one : ConnId) : Hands x (x.close id) one := by
  refine ⟨[], by rw [sentTo_close h, List.append_nil], ?_⟩
  have link : (x.close id).linkOf? one = x.linkOf? one := by
    unfold linkOf?
    rw [find?_conns_close h]
    split
    · rw [Option.map_map]
      rfl
    · rfl
  rw [heldBy, link, heldBy, List.append_nil]

theorem hands_perform (h : x.Consistent) {d : Deed} (linked : ∀ link, d ≠ .relink one link) :
    Hands x (x.perform d) one := by
  cases d with
  | join topic id => exact (SameConns.join x topic id).hands one
  | leave topic id => exact (SameConns.leave x topic id).hands one
  | move room id => exact ((SameConns.sit x room id).trans (.join _ _ id)).hands one
  | vacate id => exact (SameConns.of_conns rfl).hands one
  | close id => exact hands_close h id one
  | send id frame =>
    rcases attempt_cases x id frame with accepted | same
    · exact hands_send accepted one
    · rw [perform, same]
      exact .refl x one
  | relink id link =>
    have different : id ≠ one := fun self => linked link (self ▸ rfl)
    refine ⟨[], by rw [perform, sentTo_setLink, List.append_nil], ?_⟩
    rw [perform, heldBy, linkOf?, setLink, Table.find?_modify, if_neg different, heldBy, linkOf?,
      List.append_nil]

/-- While nobody else touches its link, a connection has there what it took, in the same order. -/
theorem Leads.hands {kind : Deed → Prop} (leads : Leads kind x next) (h : x.Consistent)
    (possible : ∀ d, kind d → x.Possible d) (linked : ∀ link, ¬ kind (.relink one link)) :
    Hands x next one := by
  refine (leads.keeps_consistent h possible (Hands x · one) (.refl x one) ?_).2.2
  intro y d consistent _ hands allowed
  exact hands.trans (hands_perform consistent fun link shape => linked link (shape ▸ allowed))

/-! ### Letting go -/

/-- What links hold was taken, and is the latest of it. -/
def Filed (x : Exchange) : Prop := ∀ one, x.heldBy one <:+ x.sentTo one

theorem Hands.suffix (hands : Hands x next one) (filed : x.heldBy one <:+ x.sentTo one) :
    next.heldBy one <:+ next.sentTo one := by
  obtain ⟨frames, taken, held⟩ := hands
  obtain ⟨gone, shape⟩ := filed
  exact ⟨gone, by rw [held, taken, ← shape, List.append_assoc]⟩

theorem Filed.setLink (filed : x.Filed) {link : Link} (less : link.held <:+ x.heldBy id) :
    (x.setLink id link).Filed := by
  intro one
  rw [sentTo_setLink, heldBy, linkOf?, Exchange.setLink, Table.find?_modify]
  split
  · next self =>
    subst self
    cases x.conns.find? id with
    | none => exact List.nil_suffix
    | some c => exact less.trans (filed id)
  · exact filed one

theorem Filed.connect (filed : x.Filed) {link : Link} (fresh : link.held = []) :
    (x.connect id link).Filed := by
  intro one
  change (x.withConn id (.ofLink link)).heldBy one <:+ _
  rw [heldBy, linkOf?_withConn]
  split
  · exact fresh ▸ List.nil_suffix
  · next different =>
    change _ <:+ (x.withConn id (.ofLink link)).sentTo one
    rw [sentTo_withConn, if_neg different]
    exact filed one

end Exchange

end Switchboard
