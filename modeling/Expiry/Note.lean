import Expiry.Text.Quoted
import Expiry.Text.Utf8

/-!
# Notes

What a timer store and the service around it have to say while they work. A note records what
happened; its severity and its wording follow from that.

## Main definitions

* `Note` — the things worth a note
* `Note.severity`, `Note.message` — how grave it is, and how it is put
-/

namespace Expiry

/-- How grave a note is. -/
inductive Severity where
  | trace | debug | info | warning
  deriving DecidableEq, Repr

/-- The word for a severity. -/
def Severity.label : Severity → String
  | trace => "TRACE"
  | debug => "DEBUG"
  | info => "INFO"
  | warning => "WARN"

/-- Something worth a note. -/
inductive Note where
  /-- A live timer was replaced by a new one for the same identifier. -/
  | refreshed (id : Bytes) (old new : UInt64)
  /-- The first timer with this time to live was started. -/
  | laneOpened (ttl : UInt64)
  /-- Due timers were removed, and some are left. -/
  | harvested (due left : Nat)
  /-- A service cancelled all its timers. -/
  | cancelledAll (service : String) (timers : Nat)
  /-- A service began to work. -/
  | started (service : String)
  /-- A service was asked to stop. -/
  | shutDown (service : String)
  /-- Nobody is left who could ask a service for anything. -/
  | deserted (service : String)
  /-- A service saw that it is cancelled when it was about to handle a request. -/
  | cancelled (service : String)
  /-- A service saw that it is cancelled while it had nothing else to do. -/
  | cancelledByToken (service : String)
  /-- A service stopped with timers still live. -/
  | stopped (service : String) (live : Nat)
  /-- No room was left for the news that a timer expired. -/
  | newsDropped (timer : String)
  /-- Nobody is left to hear that a timer expired. -/
  | newsUnheard (timer : String)
  deriving DecidableEq, Repr

namespace Note

/-- How grave a note is. -/
def severity : Note → Severity
  | refreshed .. | laneOpened .. => .trace
  | harvested .. | cancelledAll .. => .debug
  | started .. | shutDown .. | deserted .. => .info
  | cancelled .. | cancelledByToken .. | stopped .. => .info
  | newsDropped .. | newsUnheard .. => .warning

/-- How a note is put. -/
def message : Note → String
  | refreshed id old new => s!"refreshing timer {Text.quote (Utf8.decode id)}: ttl {old} -> {new}"
  | laneOpened ttl => s!"opened bucket for ttl {ttl}ms"
  | harvested due left => s!"harvested {due} timer(s), {left} still live"
  | cancelledAll service timers => s!"Canceled all {timers} timer(s) in manager '{service}'"
  | started service => s!"Timer manager '{service}' started"
  | shutDown service => s!"Timer manager '{service}' shutting down"
  | deserted service => s!"Timer manager '{service}' shutting down - all senders dropped"
  | cancelled service => s!"Timer manager '{service}' cancelled"
  | cancelledByToken service => s!"Timer manager '{service}' cancelled via token"
  | stopped service live => s!"Timer manager '{service}' stopped with {live} live timer(s)"
  | newsDropped timer => s!"Event channel full, dropping timer expiration for '{timer}'"
  | newsUnheard timer => s!"Event channel closed, cannot send timer expiration for '{timer}'"

end Note

end Expiry
