import Switchboard.Config.Basic
import Switchboard.Text.Utf8
import Switchboard.Toml.Reader
import Switchboard.Toml.Writer

/-!
Configuration files: reading and checking them, and writing them out.
-/

namespace Switchboard.Config

open Shape

def sentenceStarts : List String :=
  ["missing field", "invalid type", "invalid value", "unknown variant", "invalid length"]

def lastLine (text : List Char) : List Char := (text.reverse.takeWhile (· ≠ '\n')).reverse

def refuse (message : String) : Refusal :=
  let line := lastLine message.toList
  if sentenceStarts.any fun start => start.toList.isPrefixOf line then
    .misshapenConfig (String.ofList line)
  else .badConfig

def ofText (text : String) : Except Refusal Config :=
  match Toml.read text with
  | .error .malformed => .error .badConfig
  | .error (.clash why) => .error (refuse why.message)
  | .ok value =>
    match (record Toml.format).read Toml.format value with
    | .error why => .error (refuse why.message)
    | .ok config => config.limits.check.map fun _ => config

/-- A file's content; `none` where there is no file. -/
def ofFile (content : Option (List UInt8)) : Except Refusal Config :=
  match content with
  | none => .error .noConfigFile
  | some bytes =>
    match Text.decode? bytes with
    | none => .error .configNotUtf8
    | some text => ofText text

/-! ### Writing -/

def numberText (n : UInt64) : List Char := Nat.toDigits 10 n.toNat

def listenText (l : Listen) : List Char :=
  Toml.headerLine "listen" ++
    Toml.pairLine "chat" (Toml.stringText l.chat) ++
    Toml.pairLine "admin_notifications" (Toml.stringText l.adminNotifications) ++
    Toml.pairLine "admin_conversations" (Toml.stringText l.adminConversations) ++
    Toml.pairLine "technician_notifications" (Toml.stringText l.technicianNotifications)

def limitsText (l : Limits) : List Char :=
  Toml.headerLine "limits" ++
    Toml.pairLine "queue_capacity" (numberText l.queueCapacity) ++
    Toml.pairLine "outbound_capacity" (numberText l.outboundCapacity) ++
    Toml.pairLine "write_timeout_ms" (numberText l.writeTimeoutMs) ++
    Toml.pairLine "probe_interval_secs" (numberText l.probeIntervalSecs)

def tokenText (t : TokenEntry) : List Char :=
  Toml.itemLine "tokens" ++
    Toml.pairLine "token" (Toml.stringText t.token) ++
    Toml.pairLine "account_id" (numberText t.account) ++
    Toml.pairLine "role" (Toml.stringText t.role.name)

/-- Values come before tables, so that an empty list of tokens stands at the top. -/
def text (c : Config) : List Char :=
  Toml.pairLine "id" (Toml.stringText c.id) ++
    (if c.tokens.isEmpty then Toml.pairLine "tokens" ['[', ']'] else []) ++
    listenText c.listen ++ limitsText c.limits ++ c.tokens.flatMap tokenText

def numbers (c : Config) : List UInt64 :=
  [c.limits.queueCapacity, c.limits.outboundCapacity, c.limits.writeTimeoutMs,
    c.limits.probeIntervalSecs] ++ c.tokens.map (·.account)

/-- The format has whole numbers below `2 ^ 63` only. -/
def toText (c : Config) : Except Refusal String :=
  if c.numbers.all fun n => n.toNat < Nat.pow 2 63 then .ok (String.ofList c.text)
  else .error .unwritableConfig

end Switchboard.Config
