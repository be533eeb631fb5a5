import CouponDesk.Main
import CouponDesk.Memory.Clock
import CouponDesk.Relational.Script
import CouponDesk.Proofs.Agreement.Listing
import CouponDesk.Proofs.Agreement.Stores
import CouponDesk.Proofs.Claiming.Protocol
import CouponDesk.Proofs.Claiming.Repeating
import CouponDesk.Proofs.Json.Rows
import CouponDesk.Proofs.Memory.Answers
import CouponDesk.Proofs.Memory.Commits
import CouponDesk.Proofs.Memory.Constraints
import CouponDesk.Proofs.Memory.Deadlines
import CouponDesk.Proofs.Memory.Exchanges
import CouponDesk.Proofs.Memory.Finality
import CouponDesk.Proofs.Memory.Inquiries
import CouponDesk.Proofs.Memory.Isolation
import CouponDesk.Proofs.Memory.Linearization
import CouponDesk.Proofs.Memory.Locks
import CouponDesk.Proofs.Memory.Progress
import CouponDesk.Proofs.Memory.Race
import CouponDesk.Proofs.Memory.Refusals
import CouponDesk.Proofs.Memory.Retries
import CouponDesk.Proofs.Memory.Separation
import CouponDesk.Proofs.Relational.Callers
import CouponDesk.Proofs.Relational.Clients
import CouponDesk.Proofs.Relational.Interleaving
import CouponDesk.Proofs.Relational.Outcomes
import CouponDesk.Proofs.Session.Launches
import CouponDesk.Proofs.Settings.Decoding
import CouponDesk.Proofs.Settings.Overrides
import CouponDesk.Proofs.Toml.Writing
