import Switchboard.Proofs.Exchange.Deeds

/-!
Many deeds: one exchange leads to another. Whatever members, seats and frames there are afterwards
were there before or come from a deed of the kind.
-/

namespace Switchboard.Exchange

variable {x y next : Exchange} {topic : Topic} {id one : ConnId} {room : ConversationId}
  {frame : Frame}

/-- One exchange comes from another by deeds of a certain kind. -/
def Leads (kind : Deed → Prop) (x next : Exchange) : Prop :=
  ∃ deeds, (∀ d ∈ deeds, kind d) ∧ next = x.performAll deeds

variable {kind more : Deed → Prop}

theorem Leads.refl (x : Exchange) : Leads kind x x := ⟨[], by simp, rfl⟩

theorem Leads.single {d : Deed} (allowed : kind d) (x : Exchange) : Leads kind x (x.perform d) :=
  ⟨[d], by simpa using allowed, rfl⟩

theorem Leads.trans (first : Leads kind x y) (second : Leads kind y next) : Leads kind x next := by
  obtain ⟨deeds, allowed, rfl⟩ := first
  obtain ⟨others, allowed', rfl⟩ := second
  refine ⟨deeds ++ others, ?_, ?_⟩
  · intro d member
    rcases List.mem_append.mp member with member | member
    · exact allowed d member
    · exact allowed' d member
  · exact List.foldl_append.symm

theorem Leads.mono (leads : Leads kind x next) (weaker : ∀ d, kind d → more d) :
    Leads more x next := by
  obtain ⟨deeds, allowed, shape⟩ := leads
  exact ⟨deeds, fun d member => weaker d (allowed d member), shape⟩

theorem Leads.keeps (leads : Leads kind x next) (holds : Exchange → Prop) (start : holds x)
    (step : ∀ y d, holds y → kind d → holds (y.perform d)) : holds next := by
  obtain ⟨deeds, allowed, rfl⟩ := leads
  induction deeds generalizing x with
  | nil => exact start
  | cons d deeds ih =>
    apply ih (step x d start (allowed d List.mem_cons_self))
    intro e member
    exact allowed e (List.mem_cons_of_mem d member)

theorem Possible.mono {d : Deed} (possible : x.Possible d)
    (known : ∀ one, x.Knows one → y.Knows one) : y.Possible d := by
  cases d with
  | join topic id => exact known id possible
  | move room id => exact known id possible
  | _ => trivial

/-- Deeds that are possible at the start stay so, and what they lead to is consistent again. What
the deeds keep on the way may rely on both. -/
theorem Leads.keeps_consistent (leads : Leads kind x next) (h : x.Consistent)
    (possible : ∀ d, kind d → x.Possible d) (holds : Exchange → Prop) (start : holds x)
    (step : ∀ y d, y.Consistent → y.Possible d → holds y → kind d → holds (y.perform d)) :
    next.Consistent ∧ (∀ one, next.Knows one ↔ x.Knows one) ∧ holds next := by
  apply leads.keeps fun y => y.Consistent ∧ (∀ one, y.Knows one ↔ x.Knows one) ∧ holds y
  · exact ⟨h, fun _ => Iff.rfl, start⟩
  · rintro y d ⟨consistent, knows, held⟩ allowed
    have now : y.Possible d := (possible d allowed).mono fun one => (knows one).mpr
    refine ⟨consistent.perform now, ?_, step y d consistent now held allowed⟩
    intro one
    exact (knows_perform consistent d one).trans (knows one)

theorem Leads.consistent (leads : Leads kind x next) (h : x.Consistent)
    (possible : ∀ d, kind d → x.Possible d) :
    next.Consistent ∧ ∀ one, next.Knows one ↔ x.Knows one := by
  obtain ⟨kept, knows, -⟩ := leads.keeps_consistent h possible (fun _ => True) trivial
    fun _ _ _ _ _ _ => trivial
  exact ⟨kept, knows⟩

theorem Leads.closed (leads : Leads kind x next) (h : x.Consistent)
    (possible : ∀ d, kind d → x.Possible d) (closed : x.isClosed one = true) :
    next.isClosed one = true :=
  (leads.keeps_consistent h possible (·.isClosed one = true) closed
    fun _ d consistent _ closed _ => isClosed_perform consistent d closed).2.2

theorem Leads.mem_membersOf (leads : Leads kind x next) (h : x.Consistent)
    (possible : ∀ d, kind d → x.Possible d) (member : one ∈ next.membersOf topic) :
    one ∈ x.membersOf topic ∨ kind (.join topic one) ∨
      ∃ room, topic = .room room ∧ kind (.move room one) := by
  refine (leads.keeps_consistent h possible (fun y => one ∈ y.membersOf topic →
    one ∈ x.membersOf topic ∨ kind (.join topic one) ∨
      ∃ room, topic = .room room ∧ kind (.move room one)) Or.inl ?_).2.2 member
  intro y d consistent now before allowed member
  rcases mem_membersOf_perform consistent now member with member | rfl | ⟨room, there, rfl⟩
  · exact before member
  · exact Or.inr (Or.inl allowed)
  · exact Or.inr (Or.inr ⟨room, there, allowed⟩)

theorem Leads.seatOf (leads : Leads kind x next) (h : x.Consistent)
    (possible : ∀ d, kind d → x.Possible d) (seat : next.seatOf one = some room) :
    x.seatOf one = some room ∨ kind (.move room one) := by
  refine (leads.keeps_consistent h possible (fun y => y.seatOf one = some room →
    x.seatOf one = some room ∨ kind (.move room one)) Or.inl ?_).2.2 seat
  intro y d consistent now before allowed seat
  rcases seatOf_perform consistent now seat with seat | rfl
  · exact before seat
  · exact Or.inr allowed

theorem Leads.mem_sentTo (leads : Leads kind x next) (h : x.Consistent)
    (possible : ∀ d, kind d → x.Possible d) (sent : frame ∈ next.sentTo one) :
    frame ∈ x.sentTo one ∨ kind (.send one frame) := by
  refine (leads.keeps_consistent h possible (fun y => frame ∈ y.sentTo one →
    frame ∈ x.sentTo one ∨ kind (.send one frame)) Or.inl ?_).2.2 sent
  intro y d consistent now before allowed sent
  rcases sentTo_perform consistent d one with same | ⟨last, rfl, longer⟩
  · exact before (same ▸ sent)
  · rw [longer] at sent
    rcases List.mem_append.mp sent with sent | latest
    · exact before sent
    · rw [List.mem_singleton.mp latest]
      exact Or.inr allowed

theorem Leads.sentTo_of_unsent (leads : Leads kind x next) (h : x.Consistent)
    (possible : ∀ d, kind d → x.Possible d) (unsent : ∀ frame, ¬ kind (.send one frame)) :
    next.sentTo one = x.sentTo one := by
  refine (leads.keeps_consistent h possible (fun y => y.sentTo one = x.sentTo one) rfl ?_).2.2
  intro y d consistent now same allowed
  rcases sentTo_perform consistent d one with same' | ⟨frame, rfl, -⟩
  · exact same'.trans same
  · exact absurd allowed (unsent frame)

theorem Leads.sentTo_of_closed (leads : Leads kind x next) (h : x.Consistent)
    (possible : ∀ d, kind d → x.Possible d) (closed : x.isClosed one = true) :
    next.sentTo one = x.sentTo one := by
  have kept : next.isClosed one = true ∧ next.sentTo one = x.sentTo one := by
    refine (leads.keeps_consistent h possible
      (fun y => y.isClosed one = true ∧ y.sentTo one = x.sentTo one) ⟨closed, rfl⟩ ?_).2.2
    rintro y d consistent - ⟨closed, same⟩ -
    exact ⟨isClosed_perform consistent d closed, (sentTo_closed consistent d closed).trans same⟩
  exact kept.2

end Switchboard.Exchange
