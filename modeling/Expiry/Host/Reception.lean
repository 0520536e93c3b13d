import Expiry.Host.Basic

/-!
# A host and its client

A host has one client. It starts out with the host's handle, at which it can make requests and look
for news, and it may turn the handle into a stream of news, or let go of what it has in hand. What
it has in hand decides which ends of the mailboxes are still held: the host learns that nobody is
left when the end at which requests go in is dropped, and a stream holds on to that end, although no
request is ever made there.

What happens between the two is a list of contacts: those that the client makes, and between them
whatever happens to the host without it.

## Main definitions

* `Client`, `Look` — what a client can have in hand, and how it looks for news
* `Reception`, `Contact` — a host with its client, and what can happen between them
* `Reception.become` — the client gets something else in hand, and drops what that does not hold
* `Reception.perform`, `Reception.run` — one contact, and one after the other
-/

namespace Expiry

/-- What a client has in hand. -/
inductive Client where
  | handle
  | stream
  | gone
  deriving DecidableEq, Repr

namespace Client

/-- Whether the client holds the end at which requests go in. -/
def holdsRequests : Client → Bool
  | handle => true
  -- A host whose requests have no sender comes to an end, so the stream has to keep it.
  | stream => true
  | gone => false

/-- Whether the client holds the end at which news comes out. -/
def holdsNews : Client → Bool
  | handle | stream => true
  | gone => false

end Client

/-- How a client looks for news. -/
inductive Look where
  /-- At the handle, ready to wait. -/
  | awaited
  /-- At the handle, without waiting. -/
  | tried
  /-- In the stream. -/
  | polled
  deriving DecidableEq, Repr

/-- What a client must have in hand in order to look. -/
def Look.needs : Look → Client
  | awaited | tried => .handle
  | polled => .stream

/-- Whether a move is one that the client makes. -/
def Move.isClients : Move → Bool
  | .post _ | .receive | .leave => true
  | _ => false

/-- A host and its client. -/
structure Reception where
  host : Host
  client : Client := .handle

/-- What can happen between a host and its client. -/
inductive Contact where
  /-- Something happens to the host that the client has no part in. -/
  | inside (m : Move) (own : m.isClients = false)
  /-- The client posts a request, which takes a handle. -/
  | post (request : Request)
  | look (how : Look)
  /-- The client turns its handle into a stream. -/
  | convert
  /-- The client lets go of what it has in hand. -/
  | leave
  deriving DecidableEq

namespace Reception

/-- The client gets something else in hand, and the ends that this does not hold are dropped. -/
def become (r : Reception) (client : Client) : Reception :=
  let requests :=
    if client.holdsRequests then r.host.requests else r.host.requests.dropSender
  let news := if client.holdsNews then r.host.news else r.host.news.dropReceiver
  { host := { r.host with requests, news }, client }

/-- Something happens to the host. -/
def moveHost (r : Reception) (m : Move) : Reception × List Effect :=
  let (host, effects) := r.host.move m
  ({ r with host }, effects)

/-- What a contact makes of a host and its client, and what comes of it. Without what it takes in
hand, nothing does. -/
def perform (r : Reception) : Contact → Reception × List Effect
  | .inside m _ => r.moveHost m
  | .post request => if r.client = .handle then r.moveHost (.post request) else (r, [])
  | .look how => if r.client = how.needs then r.moveHost .receive else (r, [])
  | .convert => (if r.client = .handle then r.become .stream else r, [])
  | .leave => (r.become .gone, [])

/-- One contact after the other. -/
def run (r : Reception) : List Contact → Reception × List Effect
  | [] => (r, [])
  | c :: contacts =>
    let (r, effects) := r.perform c
    let (r, more) := r.run contacts
    (r, effects ++ more)

theorem run_append (r : Reception) (contacts more : List Contact) :
    r.run (contacts ++ more) = (((r.run contacts).1.run more).1,
      (r.run contacts).2 ++ ((r.run contacts).1.run more).2) := by
  induction contacts generalizing r with
  | nil => rfl
  | cons c contacts ih => simp only [List.cons_append, run, ih, List.append_assoc]

end Reception

end Expiry
