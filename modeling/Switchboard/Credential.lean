import Switchboard.Config.Basic
import Switchboard.Table
import Switchboard.Wire.Envelope

/-!
Credentials: which identity a token stands for, and whether it may come in at an entry point.
-/

namespace Switchboard

def TokenEntry.identity (entry : TokenEntry) : Identity := ⟨entry.account, entry.role⟩

/-- The identities by token. Of several entries for one token the last one counts. -/
def identities (entries : List TokenEntry) : Table String Identity :=
  .ofList (entries.map fun entry => (entry.token, entry.identity))

def verify (entries : List TokenEntry) (token : String) : Except Refusal Identity :=
  match (identities entries).find? token with
  | some who => .ok who
  | none => .error .unknownCredential

def authenticate (entries : List TokenEntry) (entry : EntryPoint) (first : Envelope) :
    Except Refusal Identity :=
  match first.token? with
  | none => .error .noCredential
  | some token =>
    match verify entries token with
    | .error e => .error e
    | .ok identity =>
      if entry.allows identity.role then .ok identity
      else .error (.wrongRole identity.role entry)

end Switchboard
