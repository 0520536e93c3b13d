import Expiry.Service.Basic

/-!
# Hosts

A host runs a timer service between two mailboxes: requests come in, and news of expired timers goes
out. Once started it goes on in turns. A turn takes one of three branches — the next request, a
harvest when the heartbeat is due, or the end because the host was cancelled — and where more than
one of them is ready, any may be taken. Outside of turns things happen to the host: requests are
posted, time passes, clients come and go. All of it is one list of moves.

What a move brings about can be read off its effects, so that a statement about what was accepted,
handled or received is one about a list.

## Main definitions

* `Request` — a command, with a ticket if somebody waits for the reply
* `Phase`, `Host` — where the work stands; the service with its mailboxes
* `Branch`, `Host.ready` — the branches of a turn, and whether one can be taken
* `Move`, `Effect` — what can happen to a host, and what comes of it
* `Host.move`, `Host.run` — one move, and one after the other

## Main results

* `Host.phase_of_ready` — only a running host takes turns
-/

namespace Expiry

/-- A command to a service. -/
structure Request where
  command : Command
  /-- Names who waits for the reply, if anybody does. -/
  ticket : Option Nat
  deriving DecidableEq

/-- Where the work of a host stands. -/
inductive Phase where
  | unstarted
  | running
  /-- The work has come to an orderly end. -/
  | finished
  /-- The work broke off. -/
  | crashed
  /-- The host was given up before it was started. -/
  | discarded
  deriving DecidableEq, Repr

/-- Whether there is no more work to come. -/
def Phase.isOver : Phase → Bool
  | .unstarted | .running => false
  | .finished | .crashed | .discarded => true

/-- A service at work between its mailboxes. -/
structure Host where
  service : Service
  /-- The milliseconds between two heartbeats. -/
  heartbeat : Nat
  requests : Mailbox Request
  news : Mailbox Expiration
  phase : Phase := .unstarted
  /-- Whether the host was told to come to an end. -/
  cancelled : Bool := false
  /-- Whether a heartbeat has passed that was not answered by a harvest. -/
  harvestDue : Bool := false

/-- What a turn can do. -/
inductive Branch where
  | request
  | heartbeat
  | cancellation
  deriving DecidableEq, Repr

/-- What can happen to a host. -/
inductive Move where
  /-- A client posts a request. Without a client nothing is posted. -/
  | post (request : Request)
  /-- A client looks for news. Without a client nobody does. -/
  | receive
  /-- The last client goes away. -/
  | leave
  | start
  /-- The host is given up, if it was not started. -/
  | discard
  /-- The host is told to come to an end. -/
  | cancel
  /-- A heartbeat passes. -/
  | beat
  /-- A running host takes a turn while the clock shows `reading`. -/
  | turn (branch : Branch) (reading : Instant)
  deriving DecidableEq

/-- What comes of a move. -/
inductive Effect where
  | accepted (request : Request)
  | refused (request : Request) (why : Mailbox.Refusal)
  | handled (request : Request) (reply : Option Reply)
  /-- An accepted request is dropped without being handled. -/
  | abandoned (request : Request)
  | delivered (delivery : Delivery)
  | received (receipt : Mailbox.Receipt Expiration)
  | noted (note : Note)
  deriving DecidableEq

namespace Host

/-- A host for `service`, not yet started; there is none if a mailbox cannot have its capacity. -/
def create? (service : Service) (heartbeat requests news : Nat) : Option Host := do
  let requests ← Mailbox.create? requests
  let news ← Mailbox.create? news
  return { service, heartbeat, requests, news }

/-- Whether a branch can be taken. A request can be taken also if none waits and none will come: the
turn then finds out that this is so. -/
def ready (h : Host) : Branch → Bool
  | .request => h.phase = .running && (!h.requests.items.isEmpty || !h.requests.hasSender)
  | .heartbeat => h.phase = .running && h.harvestDue
  | .cancellation => h.phase = .running && h.cancelled

/-- Only a running host takes turns. -/
theorem phase_of_ready {h : Host} {branch : Branch} (hready : h.ready branch = true) :
    h.phase = .running := by
  cases branch <;> simp_all [ready]

theorem isOver_of_ready {h : Host} {branch : Branch} (hready : h.ready branch = true) :
    h.phase.isOver = false := by
  rw [phase_of_ready hready]
  rfl

/-- Nothing is received or sent any more. Requests that wait are abandoned. -/
def close (h : Host) (phase : Phase) : Host × List Effect :=
  ({ h with phase, requests := h.requests.dropReceiver, news := h.news.dropSender },
    h.requests.items.map .abandoned)

/-- The orderly end, and what there is to note about how it came. -/
def finish (h : Host) (notes : List Note) : Host × List Effect :=
  let (closed, abandoned) := h.close .finished
  (closed, (notes ++ [Note.stopped h.service.name h.service.store.size]).map .noted ++ abandoned)

/-- Handle a request that was taken out of the mailbox. A host that was cancelled comes to an end
instead, and so does one that is told to. -/
def handleRequest (h : Host) (reading : Instant) (request : Request) : Host × List Effect :=
  -- Only this branch of a turn looks whether the host was cancelled; a harvest does not.
  if h.cancelled then
    let (h, effects) := h.finish [.cancelled h.service.name]
    (h, .abandoned request :: effects)
  else
    match h.service.handle reading request.command with
    | .ok handled =>
      let h := { h with service := handled.service }
      let (h, effects) := if handled.stops then h.finish [] else (h, [])
      (h, handled.notes.map .noted ++ .handled request handled.reply :: effects)
    | .error _ =>
      let (h, effects) := h.close .crashed
      (h, .abandoned request :: effects)

/-- Take the next request, or come to an end if there will be none. -/
def takeRequest (h : Host) (reading : Instant) : Host × List Effect :=
  match h.requests.receive with
  | (.item request, requests) => { h with requests }.handleRequest reading request
  | (.ended, _) =>
    h.finish [if h.cancelled then .cancelled h.service.name else .deserted h.service.name]
  | (.nothing, _) => (h, [])

/-- Answer a heartbeat with a harvest. If that breaks off, so does the work. What was sent before
can still be received; of the service nothing is seen any more, and it is left as it was. -/
def answerHeartbeat (h : Host) (reading : Instant) : Host × List Effect :=
  match h.service.harvest reading h.news with
  | .ok (service, news, deliveries, notes) =>
    ({ h with service, news, harvestDue := false },
      notes.map .noted ++ deliveries.map .delivered)
  | .error broken =>
    let (h, abandoned) := { h with news := broken.outbox }.close .crashed
    (h, broken.notes.map .noted ++ broken.deliveries.map .delivered ++ abandoned)

/-- Take a turn, if the branch is ready. -/
def turn (h : Host) (reading : Instant) (branch : Branch) : Host × List Effect :=
  if h.ready branch then
    match branch with
    | .request => h.takeRequest reading
    | .heartbeat => h.answerHeartbeat reading
    | .cancellation => h.finish [.cancelledByToken h.service.name]
  else (h, [])

/-- Start to work. The first heartbeat passes at once; without time between two heartbeats there is
no work. -/
def start (h : Host) : Host × List Effect :=
  if h.phase ≠ .unstarted then (h, [])
  else if h.heartbeat = 0 then h.close .crashed
  else ({ h with phase := .running, harvestDue := true }, [.noted (.started h.service.name)])

/-- What a move makes of a host, and what comes of it. -/
def move (h : Host) : Move → Host × List Effect
  | .post request =>
    if h.requests.hasSender then
      match h.requests.trySend request with
      | .ok requests => ({ h with requests }, [.accepted request])
      | .error why => (h, [.refused request why])
    else (h, [])
  | .receive =>
    if h.news.hasReceiver then
      let (receipt, news) := h.news.receive
      ({ h with news }, [.received receipt])
    else (h, [])
  | .leave => ({ h with requests := h.requests.dropSender, news := h.news.dropReceiver }, [])
  | .start => h.start
  | .discard => if h.phase = .unstarted then h.close .discarded else (h, [])
  | .cancel => ({ h with cancelled := true }, [])
  | .beat => (if h.phase = .running then { h with harvestDue := true } else h, [])
  | .turn branch reading => h.turn reading branch

/-- One move after the other. -/
def run (h : Host) : List Move → Host × List Effect
  | [] => (h, [])
  | m :: moves =>
    let (h, effects) := h.move m
    let (h, more) := h.run moves
    (h, effects ++ more)

end Host

end Expiry
