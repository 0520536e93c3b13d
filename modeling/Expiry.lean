import Expiry.Host.Session
import Expiry.Proofs.Consistency
import Expiry.Proofs.Parity
import Expiry.Proofs.Safety
import Expiry.Proofs.Yard
import Expiry.Proofs.Generations
import Expiry.Proofs.Requests
import Expiry.Proofs.Deadlines
import Expiry.Proofs.Timekeeping
import Expiry.Proofs.Cancellation
import Expiry.Proofs.Reception
import Expiry.Proofs.Saturation
import Expiry.Proofs.Unheard
import Expiry.Proofs.Interchange
import Expiry.Proofs.Portions
import Expiry.Proofs.ByteMap
import Expiry.Proofs.Occupancy
import Expiry.Proofs.Overflow
import Expiry.Proofs.Clocks
