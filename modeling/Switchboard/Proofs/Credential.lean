import Mathlib.Data.List.Induction
import Switchboard.Proofs.Table
import Switchboard.Station.Session

/-!
The last entry for a token decides about it. What the list says about the token before that has no
effect, whatever account and role it names.
-/

namespace Switchboard

variable {entries : List TokenEntry} {token : String} {e : TokenEntry} {who : Identity}

/-- Of the entries for the token, `e` is the last one. -/
def LastFor (entries : List TokenEntry) (token : String) (e : TokenEntry) : Prop :=
  ∃ before after, entries = before ++ e :: after ∧ e.token = token ∧
    ∀ later ∈ after, later.token ≠ token

/-! ### One more entry -/

theorem lastFor_concat_self (latest : TokenEntry) :
    LastFor (entries ++ [latest]) latest.token e ↔ e = latest := by
  constructor
  · rintro ⟨before, after, split, named, others⟩
    rcases List.eq_nil_or_concat after with rfl | ⟨after, last, rfl⟩
    · exact (List.append_singleton_inj.mp split).2.symm
    · rw [List.concat_eq_append, ← List.cons_append, ← List.append_assoc] at split
      obtain ⟨-, rfl⟩ := List.append_singleton_inj.mp split
      exact absurd rfl (others latest (by simp))
  · rintro rfl
    exact ⟨entries, [], rfl, rfl, by simp⟩

theorem lastFor_concat_other {latest : TokenEntry} (other : latest.token ≠ token) :
    LastFor (entries ++ [latest]) token e ↔ LastFor entries token e := by
  constructor
  · rintro ⟨before, after, split, named, others⟩
    rcases List.eq_nil_or_concat after with rfl | ⟨after, last, rfl⟩
    · obtain ⟨-, rfl⟩ := List.append_singleton_inj.mp split
      exact absurd named other
    · rw [List.concat_eq_append, ← List.cons_append, ← List.append_assoc] at split
      obtain ⟨shorter, -⟩ := List.append_singleton_inj.mp split
      exact ⟨before, after, shorter, named, fun later listed => others later (by simp [listed])⟩
  · rintro ⟨before, after, rfl, named, others⟩
    refine ⟨before, after ++ [latest], by simp, named, ?_⟩
    intro later listed
    rcases List.mem_append.mp listed with earlier | latest
    · exact others later earlier
    · rwa [List.mem_singleton.mp latest]

theorem identities_concat (entries : List TokenEntry) (latest : TokenEntry) :
    identities (entries ++ [latest]) =
      (identities entries).insert latest.token latest.identity := by
  unfold identities
  rw [List.map_append, List.map_singleton, Table.ofList_concat]

/-! ### All entries -/

theorem exists_lastFor (entries : List TokenEntry) (token : String) :
    (∃ e, LastFor entries token e) ↔ ∃ e ∈ entries, e.token = token := by
  constructor
  · rintro ⟨e, before, after, rfl, named, -⟩
    exact ⟨e, by simp, named⟩
  · rintro ⟨e, listed, rfl⟩
    induction entries using List.reverseRecOn with
    | nil => cases listed
    | append_singleton entries latest ih =>
      by_cases same : latest.token = e.token
      · exact ⟨latest, same ▸ (lastFor_concat_self latest).mpr rfl⟩
      · rcases List.mem_append.mp listed with earlier | last
        · obtain ⟨found, isLast⟩ := ih earlier
          exact ⟨found, (lastFor_concat_other same).mpr isLast⟩
        · exact absurd (congrArg TokenEntry.token (List.mem_singleton.mp last)).symm same

theorem find?_identities (entries : List TokenEntry) (token : String) (who : Identity) :
    (identities entries).find? token = some who ↔
      ∃ e, LastFor entries token e ∧ e.identity = who := by
  -- from the end: the latest entry decides about its own token, and about no other
  induction entries using List.reverseRecOn with
  | nil =>
    constructor
    · intro found
      cases found
    · rintro ⟨e, ⟨before, after, split, -⟩, -⟩
      simp at split
  | append_singleton entries latest ih =>
    rw [identities_concat, Table.find?_insert]
    by_cases same : latest.token = token
    · subst same
      simp [lastFor_concat_self]
    · simp [same, lastFor_concat_other same, ih]

theorem find?_identities_eq_none :
    (identities entries).find? token = none ↔ ¬ ∃ e ∈ entries, e.token = token := by
  rw [← exists_lastFor]
  constructor
  · rintro missing ⟨e, last⟩
    have found := (find?_identities entries token e.identity).mpr ⟨e, last, rfl⟩
    cases missing.symm.trans found
  · intro nobody
    refine Option.eq_none_iff_forall_ne_some.mpr ?_
    intro who found
    obtain ⟨e, last, -⟩ := (find?_identities entries token who).mp found
    exact nobody ⟨e, last⟩

/-! ### The answer -/

variable {entry : EntryPoint} {first : Envelope} {why : Refusal}

def Decides (entries : List TokenEntry) (first : Envelope) (e : TokenEntry) : Prop :=
  ∃ token, first.token? = some token ∧ LastFor entries token e

theorem exists_decides : (∃ e, Decides entries first e) ↔
    ∃ token, first.token? = some token ∧ ∃ e ∈ entries, e.token = token := by
  constructor
  · rintro ⟨e, token, named, last⟩
    exact ⟨token, named, (exists_lastFor entries token).mp ⟨e, last⟩⟩
  · rintro ⟨token, named, listed⟩
    obtain ⟨e, last⟩ := (exists_lastFor entries token).mpr listed
    exact ⟨e, token, named, last⟩

theorem authenticate_decided (decides : Decides entries first e) :
    authenticate entries entry first =
      if entry.allows e.role then .ok e.identity else .error (.wrongRole e.role entry) := by
  obtain ⟨token, named, last⟩ := decides
  have found := (find?_identities entries token e.identity).mpr ⟨e, last, rfl⟩
  simp only [authenticate, verify, named, found]
  rfl

theorem authenticate_undecided (nobody : ¬ ∃ e, Decides entries first e) :
    ∃ why, authenticate entries entry first = .error why ∧ why.code = .invalidCredential := by
  unfold authenticate
  cases named : first.token? with
  | none => exact ⟨.noCredential, rfl, rfl⟩
  | some token =>
    have missing : (identities entries).find? token = none := by
      refine find?_identities_eq_none.mpr ?_
      intro listed
      exact nobody (exists_decides.mpr ⟨token, named, listed⟩)
    refine ⟨.unknownCredential, ?_, rfl⟩
    simp only [verify, missing]

theorem authenticate_eq_ok : authenticate entries entry first = .ok who ↔
    ∃ e, Decides entries first e ∧ entry.allows e.role = true ∧ who = e.identity := by
  constructor
  · intro accepted
    by_cases decided : ∃ e, Decides entries first e
    · obtain ⟨e, decides⟩ := decided
      rw [authenticate_decided decides] at accepted
      split at accepted
      · next allowed =>
        cases accepted
        exact ⟨e, decides, allowed, rfl⟩
      · cases accepted
    · obtain ⟨why, denied, -⟩ := authenticate_undecided decided
      cases accepted.symm.trans denied
  · rintro ⟨e, decides, allowed, rfl⟩
    rw [authenticate_decided decides, if_pos allowed]

theorem code_of_authenticate (denied : authenticate entries entry first = .error why) :
    (why.code = .roleMismatch ∧ ∃ e, Decides entries first e ∧ entry.allows e.role = false) ∨
      why.code = .invalidCredential ∧ ¬ ∃ e, Decides entries first e := by
  by_cases decided : ∃ e, Decides entries first e
  · obtain ⟨e, decides⟩ := decided
    rw [authenticate_decided decides] at denied
    split at denied
    · cases denied
    · next barred =>
      cases denied
      exact Or.inl ⟨rfl, e, decides, by simpa using barred⟩
  · obtain ⟨other, denied', code⟩ := authenticate_undecided decided
    cases denied.symm.trans denied'
    exact Or.inr ⟨code, decided⟩

/-- The last entry for the token is all that the answer depends on: its account and role are the
identity, and its role may come in or may not. A token without an entry is as good as none. No
session survives a refusal. -/
theorem last_entry_decides (entries : List TokenEntry) (entry : EntryPoint) (first : Envelope) :
    (∀ who, authenticate entries entry first = .ok who ↔
      ∃ e, Decides entries first e ∧ entry.allows e.role = true ∧ who = ⟨e.account, e.role⟩) ∧
    ((∃ why, authenticate entries entry first = .error why ∧ why.code = .roleMismatch) ↔
      ∃ e, Decides entries first e ∧ entry.allows e.role = false) ∧
    ((∃ why, authenticate entries entry first = .error why ∧ why.code = .invalidCredential) ↔
      ¬ ∃ token, first.token? = some token ∧ ∃ e ∈ entries, e.token = token) ∧
    ∀ why, authenticate entries entry first = .error why →
      (Fault.refused why).isFatal = true ∧ ∀ (st : Station) (id : ConnId),
        st.hub.tokens = entries → (st.handle id entry .waiting first).1 = none := by
  refine ⟨?_, ?_, ?_, ?_⟩
  · intro who
    exact authenticate_eq_ok
  · constructor
    · rintro ⟨why, denied, role⟩
      rcases code_of_authenticate denied with ⟨-, decided⟩ | ⟨credential, -⟩
      · exact decided
      · cases role.symm.trans credential
    · rintro ⟨e, decides, barred⟩
      refine ⟨.wrongRole e.role entry, ?_, rfl⟩
      rw [authenticate_decided decides, if_neg (by simp [barred])]
  · rw [← exists_decides]
    constructor
    · rintro ⟨why, denied, credential⟩
      rcases code_of_authenticate denied with ⟨role, -⟩ | ⟨-, nobody⟩
      · cases role.symm.trans credential
      · exact nobody
    · exact authenticate_undecided
  · intro why denied
    constructor
    · have coded : (Fault.refused why).code? = some why.code := rfl
      rw [Fault.isFatal_of_code coded]
      rcases code_of_authenticate denied with ⟨role, -⟩ | ⟨credential, -⟩
      · rw [role]
        rfl
      · rw [credential]
        rfl
    · intro st id tokens
      simp only [Station.handle, tokens, denied]

/-- A token that an administrator gave up to a user opens no door of the administrators. -/
example : authenticate [⟨"key", 1, .admin⟩, ⟨"key", 2, .user⟩] .adminNotifications
    (.credential "key") = .error (.wrongRole .user .adminNotifications) := by rfl

end Switchboard
