import Expiry.Service.Basic

/-!
# Occurrences at a service

What happens to a timer service as values, so that a run of a service is a list of them: commands
and heartbeats come in any order, and in between whoever holds the other end of the mailbox takes
news out of it.

## Main definitions

* `Occurrence`, `Outcome` — what can happen to a service, and what comes of it
* `Service.perform`, `Service.run` — one occurrence, and one after the other
-/

namespace Expiry

/-- What can happen to a service and its mailbox. -/
inductive Occurrence where
  /-- A command comes while the clock shows `reading`. -/
  | command (reading : Instant) (command : Command)
  /-- A heartbeat comes while the clock shows `reading`. -/
  | heartbeat (reading : Instant)
  /-- The news sent first is taken out of the mailbox. -/
  | receive
  deriving DecidableEq

/-- What comes of an occurrence. -/
inductive Outcome where
  | handled (reply : Option Reply) (stops : Bool)
  | harvested (deliveries : List Delivery)
  | received (receipt : Mailbox.Receipt Expiration)
  deriving DecidableEq

namespace Service

/-- Let one thing happen. -/
def perform (s : Service) (outbox : Mailbox Expiration) :
    Occurrence → Except Fault (Outcome × Service × Mailbox Expiration)
  | .command reading command => do
    let handled ← s.handle reading command
    return (.handled handled.reply handled.stops, handled.service, outbox)
  | .heartbeat reading => do
    let (s, outbox, deliveries, _) ← (s.harvest reading outbox).mapError (·.fault)
    return (.harvested deliveries, s, outbox)
  | .receive =>
    let (receipt, outbox) := outbox.receive
    .ok (.received receipt, s, outbox)

/-- One thing after the other: what comes of each, and the service and the mailbox afterwards. -/
def run (s : Service) (outbox : Mailbox Expiration) :
    List Occurrence → Except Fault (List Outcome × Service × Mailbox Expiration)
  | [] => .ok ([], s, outbox)
  | occurrence :: rest => do
    let (outcome, s, outbox) ← s.perform outbox occurrence
    let (outcomes, s, outbox) ← s.run outbox rest
    return (outcome :: outcomes, s, outbox)

end Service

end Expiry
