import Expiry.Error
import Expiry.Host.Reception

/-!
# Sessions with a host

A session is what one client does with a host, one action at a time. After every action the host
works until there is nothing left to do, so a request to a running host is answered at once, and a
heartbeat has been harvested by the time the next action begins. Where more than one branch of a
turn is ready, the one that comes first is taken. Beside that a session is no more than contacts
between the client and the host.

## Main definitions

* `Host.settle` — turns until no branch is ready
* `Session` — a host with its client, and the clock of the host
* `Action`, `Response` — what can be done in a session, and what the client sees
* `Session.perform` — one action

## Main results

* `Host.nextBranch?_settle` — once a host has settled, no branch is ready
* `Session.exists_run_eq_perform` — every action is a run of contacts
-/

namespace Expiry

namespace Host

/-- The branch that a host takes when it settles: the first that is ready. -/
def nextBranch? (h : Host) : Option Branch :=
  [Branch.request, .heartbeat, .cancellation].find? h.ready

/-- How many turns there can be at most: each one takes a request, answers the heartbeat, or ends
the work. -/
def workload (h : Host) : Nat :=
  h.requests.items.length + h.harvestDue.toNat + (if h.phase = .running then 1 else 0)

/-- `settle`, for at most as many turns as `turns` says. -/
def settleFor (reading : Instant) : Nat → Host → Host × List Effect
  | 0, h => (h, [])
  | turns + 1, h =>
    match h.nextBranch? with
    | some branch =>
      let (h, effects) := h.turn reading branch
      let (h, more) := settleFor reading turns h
      (h, effects ++ more)
    | none => (h, [])

/-- Take turns until no branch is ready. -/
def settle (h : Host) (reading : Instant) : Host × List Effect := settleFor reading h.workload h

theorem workload_close (h : Host) (phase : Phase) (hp : phase ≠ .running) :
    (h.close phase).1.workload = h.harvestDue.toNat := by
  simp [close, workload, Mailbox.dropReceiver, hp]

theorem workload_finish (h : Host) (notes : List Note) :
    (h.finish notes).1.workload = h.harvestDue.toNat :=
  h.workload_close .finished (by decide)

/-- Handling a request leaves no more to do than there was beside it. -/
theorem workload_handleRequest_le (h : Host) (reading : Instant) (request : Request) :
    (h.handleRequest reading request).1.workload ≤ h.workload := by
  have hdue : h.harvestDue.toNat ≤ h.workload := by
    simp only [workload]
    omega
  unfold handleRequest
  split
  · simpa only [workload_finish] using hdue
  · split
    · split
      · simpa only [workload_finish] using hdue
      · exact Nat.le_refl _
    · simpa only [workload_close _ .crashed (by decide)] using hdue

/-- Every turn on a ready branch leaves less to do. -/
theorem workload_turn_lt {h : Host} {branch : Branch} (hready : h.ready branch = true)
    (reading : Instant) : (h.turn reading branch).1.workload < h.workload := by
  have hrunning := phase_of_ready hready
  have hdue : h.harvestDue.toNat < h.workload := by
    simp only [workload, hrunning, ↓reduceIte]
    omega
  unfold turn
  rw [if_pos hready]
  cases branch with
  | cancellation => simpa only [workload_finish] using hdue
  | heartbeat =>
    have hharvest : h.harvestDue = true := by simp_all [ready]
    simp only [answerHeartbeat]
    split
    · simp [workload, hharvest]
    · simpa only [workload_close _ .crashed (by decide)] using hdue
  | request =>
    simp only [takeRequest]
    cases hitems : h.requests.items with
    | nil =>
      have hsender : h.requests.hasSender = false := by simp_all [ready]
      simpa [Mailbox.receive, hitems, hsender, workload_finish] using hdue
    | cons request items =>
      simp only [Mailbox.receive, hitems]
      refine Nat.lt_of_le_of_lt (workload_handleRequest_le _ _ _) ?_
      simp only [workload, hitems, List.length_cons]
      omega

/-- Once a host has settled, no branch is ready. -/
theorem nextBranch?_settle (h : Host) (reading : Instant) :
    (h.settle reading).1.nextBranch? = none := by
  suffices hfor : ∀ (turns : Nat) (h : Host), h.workload ≤ turns →
      (settleFor reading turns h).1.nextBranch? = none from hfor _ h (Nat.le_refl _)
  intro turns
  induction turns with
  | zero =>
    intro h hle
    have hidle : h.phase ≠ .running := by
      intro hrunning
      simp [workload, hrunning] at hle
    simp [settleFor, nextBranch?, ready, hidle]
  | succ turns ih =>
    intro h hle
    simp only [settleFor]
    cases hnext : h.nextBranch? with
    | none => exact hnext
    | some branch =>
      have hready : h.ready branch = true := List.find?_some hnext
      have hlt := workload_turn_lt hready reading
      exact ih _ (by omega)

end Host

/-- How a request is made. -/
inductive Manner where
  /-- The client waits for room and for the reply. -/
  | awaited
  /-- The client waits for room. -/
  | sent
  /-- The client does not wait. -/
  | tried
  deriving DecidableEq, Repr

/-- A host and its client, and how far they have got. -/
structure Session where
  reception : Reception
  /-- What the clock of the host shows. -/
  reading : Instant
  /-- The ticket of the next request. -/
  ticket : Nat := 0
  /-- Whether the client was told that the work is over. -/
  endTold : Bool := false

/-- What can be done in a session. -/
inductive Action where
  | start
  | discard
  | beat
  | advance (duration : Duration)
  | setClock (t : Instant)
  | cancel
  /-- Ask where the work stands. -/
  | inspect
  | leave
  /-- A heartbeat passes and the client goes away at the same time. -/
  | beatAndLeave
  /-- Turn the handle into a stream. -/
  | stream
  | look (how : Look)
  | request (command : Command) (how : Manner)
  deriving DecidableEq

/-- What the client sees. -/
inductive Response where
  | nothing
  | clock (t : Instant)
  /-- Where the work stands, if it goes on or its end is told for the first time. -/
  | phase (p : Option Phase)
  | reply (r : Reply)
  | failed (e : RequestError)
  /-- The client would have to wait. -/
  | pending
  | news (e : Expiration)
  /-- No news waits, but there may be some later. -/
  | noNews
  /-- There will be no more news. -/
  | ended
  /-- The client does not have in hand what the action needs. -/
  | noHandle
  deriving DecidableEq

namespace Session

/-- Let some contacts happen, and let the host settle. -/
def after (s : Session) (contacts : List Contact) : Session × List Effect :=
  let (reception, effects) := s.reception.run contacts
  let (host, more) := reception.host.settle s.reading
  ({ s with reception := { reception with host } }, effects ++ more)

/-- What has become of the request with ticket `ticket`, for a client that waits for the reply. -/
def outcome (ticket : Nat) : List Effect → Response
  | [] => .pending
  | .refused _ .closed :: _ => .failed (.ofRefusal .closed)
  | .handled ⟨_, some t⟩ (some reply) :: rest =>
    if t = ticket then .reply reply else outcome ticket rest
  | .abandoned ⟨_, some t⟩ :: rest =>
    if t = ticket then .failed .unanswered else outcome ticket rest
  | _ :: rest => outcome ticket rest

/-- Whether the request was taken, for a client that waits for no reply. -/
def taken (how : Manner) : List Effect → Response
  | [] => .pending
  | .accepted _ :: _ => .reply .done
  | .refused _ .full :: _ => if how = .tried then .failed (.ofRefusal .full) else .pending
  | .refused _ .closed :: _ => .failed (.ofRefusal .closed)
  | _ :: rest => taken how rest

/-- What a client that looks for news finds. -/
def found : List Effect → Response
  | .received (.item news) :: _ => .news news
  | .received .ended :: _ => .ended
  | _ => .noNews

/-- Make a request. -/
def request (s : Session) (command : Command) (how : Manner) : Response × Session × List Effect :=
  if s.reception.client ≠ .handle then (.noHandle, s, [])
  else if how = .awaited then
    let next := { s with ticket := s.ticket + 1 }.after [.post ⟨command, some s.ticket⟩]
    (outcome s.ticket next.2, next)
  else
    let next := s.after [.post ⟨command, none⟩]
    (taken how next.2, next)

/-- Look for news. -/
def look (s : Session) (how : Look) : Response × Session × List Effect :=
  if s.reception.client ≠ how.needs then (.noHandle, s, [])
  else
    let next := s.after [.look how]
    (found next.2, next)

/-- Where the work stands. Its end is told once. -/
def inspect (s : Session) : Response × Session × List Effect :=
  match s.reception.host.phase with
  | .running => (.phase (some .running), s, [])
  | .finished | .crashed =>
    if s.endTold then (.phase none, s, [])
    else (.phase (some s.reception.host.phase), { s with endTold := true }, [])
  | .unstarted | .discarded => (.phase none, s, [])

/-- One action: what the client sees, the session afterwards, and what came of it. -/
def perform (s : Session) (a : Action) : Response × Session × List Effect :=
  match a with
  | .start => (.nothing, s.after [.inside .start rfl])
  | .discard => (.nothing, s.after [.inside .discard rfl])
  | .beat => (.nothing, s.after [.inside .beat rfl])
  | .advance duration =>
    let s := { s with reading := s.reading.advance duration }
    (.clock s.reading, s.after [])
  | .setClock t => (.clock t, { s with reading := t }.after [])
  | .cancel => (.nothing, s.after [.inside .cancel rfl])
  | .inspect => s.inspect
  | .leave => (.nothing, s.after [.leave])
  | .beatAndLeave => (.nothing, s.after [.inside .beat rfl, .leave])
  | .stream =>
    if s.reception.client ≠ .handle then (.noHandle, s, []) else (.nothing, s.after [.convert])
  | .look how => s.look how
  | .request command how => s.request command how

/-! ### Sessions as contacts -/

/-- To settle is to take some turns. -/
theorem exists_run_eq_settleFor (r : Reception) (reading : Instant) (turns : Nat) :
    ∃ contacts, r.run contacts = ({ r with host := (r.host.settleFor reading turns).1 },
      (r.host.settleFor reading turns).2) := by
  induction turns generalizing r with
  | zero => exact ⟨[], rfl⟩
  | succ turns ih =>
    simp only [Host.settleFor]
    cases r.host.nextBranch? with
    | none => exact ⟨[], rfl⟩
    | some branch =>
      obtain ⟨contacts, hrun⟩ := ih (r.moveHost (.turn branch reading)).1
      refine ⟨.inside (.turn branch reading) rfl :: contacts, ?_⟩
      simp only [Reception.run, Reception.perform, hrun]
      rfl

theorem exists_run_eq_after (s : Session) (contacts : List Contact) {r : Reception}
    (hr : s.reception = r) :
    ∃ contacts', r.run contacts' = (s.after contacts).map Session.reception id := by
  subst hr
  obtain ⟨turns, hturns⟩ := exists_run_eq_settleFor (s.reception.run contacts).1 s.reading
    (s.reception.run contacts).1.host.workload
  exact ⟨contacts ++ turns, by rw [Reception.run_append, hturns]; rfl⟩

/-- Whatever is done in a session, it is a run of contacts. -/
theorem exists_run_eq_perform (s : Session) (a : Action) :
    ∃ contacts, s.reception.run contacts = (s.perform a).2.map Session.reception id := by
  -- What is not done leaves the session as it is.
  have hnone : ∃ contacts, s.reception.run contacts = (s.reception, []) := ⟨[], rfl⟩
  cases a with
  | start | discard | beat | cancel | leave | beatAndLeave | advance | setClock =>
    dsimp only [perform]
    exact exists_run_eq_after _ _ rfl
  | inspect =>
    dsimp only [perform, inspect]
    split
    · exact hnone
    · split <;> exact hnone
    · split <;> exact hnone
    · exact hnone
    · exact hnone
  | stream =>
    dsimp only [perform]
    split <;> dsimp only
    · exact hnone
    · exact exists_run_eq_after _ _ rfl
  | look how =>
    dsimp only [perform, look]
    split <;> dsimp only
    · exact hnone
    · exact exists_run_eq_after _ _ rfl
  | request command how =>
    dsimp only [perform, request]
    split
    · exact hnone
    · split <;> dsimp only <;> exact exists_run_eq_after _ _ rfl

end Session

end Expiry
