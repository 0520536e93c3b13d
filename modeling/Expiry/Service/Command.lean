import Expiry.Time.Instant

/-!
# Commands to a timer service

A timer service keeps timers by name, each with a payload that comes back when the timer ends. This
module holds what a service can be told, what it replies, and the news that it sends of its own
accord.

## Main definitions

* `Command`, `Reply` — what a service is told, and its reply
* `Expiration` — the news that a timer expired
-/

namespace Expiry

/-- What a service can be told. -/
inductive Command where
  /-- Start or restart a timer with a payload. -/
  | set (name payload : String) (duration : Duration)
  /-- Cancel a timer and reply with its payload. -/
  | cancel (name : String)
  | cancelAll
  /-- Reply with the payload of a timer. -/
  | look (name : String)
  /-- Replace the payload of a timer and reply with the old one. -/
  | update (name payload : String)
  /-- Reply with the deadline of a timer. -/
  | deadline (name : String)
  /-- Reply with the deadline of the timer due next. -/
  | nextDeadline
  /-- Reply with the time until then. -/
  | timeLeft
  /-- End the timer due next and reply with its name and payload. -/
  | popSoonest
  /-- Reply with the number of running timers. -/
  | count
  | shutdown
  deriving DecidableEq

/-- What a service replies to a command. -/
inductive Reply where
  | done
  | payload (value : Option String)
  | instant (value : Option Instant)
  | wait (value : Option Duration)
  | timer (nameAndPayload : Option (String × String))
  | count (value : Nat)
  deriving DecidableEq

/-- The news that a timer expired. -/
structure Expiration where
  name : String
  payload : String
  deriving DecidableEq, Repr

end Expiry
