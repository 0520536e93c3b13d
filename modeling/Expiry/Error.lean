import Expiry.Mailbox
import Expiry.Text.Quoted

/-!
# Errors

What can go wrong for a caller: a store cannot create what it needs for a timer, or a service cannot
take or answer a request. The stores and services of this library have all the memory they need, so
of the first there is only the wording.

## Main definitions

* `StoreError`, `RequestError` — the causes
* `RequestError.ofRefusal`, `RequestError.unanswered` — the error for a request that was refused,
  and for one that was taken and will not be answered
* `message` and `inspect` of each — the wording for a reader, and the constructors spelled out
-/

namespace Expiry

/-- Why a store does not do what it is asked to. -/
inductive StoreError where
  /-- There is no memory for a part of a timer. -/
  | allocationFailed (what : String)
  deriving DecidableEq, Repr

namespace StoreError

/-- The error in words. -/
def message : StoreError → String
  | allocationFailed what => s!"allocation failed while creating {what}"

/-- The error with its parts by name. -/
def inspect : StoreError → String
  | allocationFailed what => s!"AllocationFailure \x7b what: {Text.quote what} \x7d"

end StoreError

/-- Why a request comes to nothing. -/
inductive RequestError where
  /-- The service is gone, or goes without an answer. -/
  | closed
  /-- As many requests wait as the service takes. -/
  | full
  /-- The store refused. -/
  | store (cause : StoreError)
  deriving DecidableEq, Repr

namespace RequestError

/-- The error for a request that the service's mailbox refuses. -/
def ofRefusal : Mailbox.Refusal → RequestError
  | .full => full
  | .closed => closed

/-- The error for a request that is dropped before it is answered. -/
def unanswered : RequestError := closed

/-- The error in words; that of a store speaks for itself. -/
def message : RequestError → String
  | closed => "timer manager is closed"
  | full => "timer manager command channel is full"
  | store cause => cause.message

/-- The error with its parts by name. -/
def inspect : RequestError → String
  | closed => "Closed"
  | full => "Full"
  | store cause => s!"Lawn({cause.inspect})"

end RequestError

end Expiry
