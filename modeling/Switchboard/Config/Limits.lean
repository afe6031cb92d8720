import Switchboard.Fault.Basic
import Switchboard.Shape.Record

/-!
The hub's limits: how much the queues hold, how long a write may take and how often idle
connections are probed.
-/

namespace Switchboard

open Shape

structure Limits where
  queueCapacity : UInt64
  outboundCapacity : UInt64
  writeTimeoutMs : UInt64
  probeIntervalSecs : UInt64
  deriving DecidableEq, Repr

namespace Limits

def standard : Limits := ⟨256, 64, 10000, 5⟩

def check (l : Limits) : Except Refusal Unit :=
  if l.queueCapacity = 0 ∨ l.outboundCapacity = 0 then .error .zeroCapacity
  else if l.writeTimeoutMs = 0 ∨ l.probeIntervalSecs = 0 then .error .zeroInterval
  else .ok ()

def enter {α : Type} (format : Format α) (l : Limits) (name : String) (value : α) :
    Except Mismatch Limits :=
  if name = "queue_capacity" then do
    return { l with queueCapacity := ← format.word "usize" value }
  else if name = "outbound_capacity" then do
    return { l with outboundCapacity := ← format.word "usize" value }
  else if name = "write_timeout_ms" then do
    return { l with writeTimeoutMs := ← format.word "u64" value }
  else if name = "probe_interval_secs" then do
    return { l with probeIntervalSecs := ← format.word "u64" value }
  else return l

def record {α : Type} (format : Format α) : Record α Limits Limits where
  name := "Limits"
  fields := ["queue_capacity", "outbound_capacity", "write_timeout_ms", "probe_interval_secs"]
  blank := standard
  enter := enter format
  finish := .ok

end Limits

end Switchboard
