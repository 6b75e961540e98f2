import LoyaltyPoints.Json.Entity
import LoyaltyPoints.Main
import LoyaltyPoints.Simulation.Session
import LoyaltyPoints.Proofs.Decimal.Sum
import LoyaltyPoints.Proofs.Decimal.Rounding
import LoyaltyPoints.Proofs.Ledger.Writes
import LoyaltyPoints.Proofs.Ledger.Operation
import LoyaltyPoints.Proofs.Ledger.Conservation
import LoyaltyPoints.Proofs.Ledger.Settlement
import LoyaltyPoints.Proofs.Ledger.Atomicity
import LoyaltyPoints.Proofs.Pipeline.Worker
import LoyaltyPoints.Proofs.Pipeline.System
import LoyaltyPoints.Proofs.Pipeline.Solvency
import LoyaltyPoints.Proofs.Submission.Race
import LoyaltyPoints.Proofs.Pipeline.History
import LoyaltyPoints.Proofs.Pipeline.Provenance
import LoyaltyPoints.Proofs.Ledger.Listing
import LoyaltyPoints.Proofs.Pipeline.Sweeping
import LoyaltyPoints.Proofs.Pipeline.Passes
import LoyaltyPoints.Proofs.Database.Numeric
import LoyaltyPoints.Proofs.Database.Tables
import LoyaltyPoints.Proofs.Database.Queries
import LoyaltyPoints.Proofs.Database.Writes
import LoyaltyPoints.Proofs.Database.Transactions
import LoyaltyPoints.Proofs.Database.Calls
import LoyaltyPoints.Proofs.Database.Interchange
import LoyaltyPoints.Proofs.Database.Transcript
import LoyaltyPoints.Proofs.Database.Course
import LoyaltyPoints.Proofs.Database.Commitment
import LoyaltyPoints.Proofs.Oracle.Address
import LoyaltyPoints.Proofs.Oracle.Attempts
import LoyaltyPoints.Proofs.Pipeline.Conveyance
import LoyaltyPoints.Proofs.Pipeline.Tickets
import LoyaltyPoints.Proofs.Pipeline.Shutdown
import LoyaltyPoints.Proofs.Decimal.Text
import LoyaltyPoints.Proofs.Json.Writing
import LoyaltyPoints.Proofs.Oracle.Cents
import LoyaltyPoints.Proofs.Oracle.Codec
import LoyaltyPoints.Proofs.Time.Calendar
import LoyaltyPoints.Proofs.Time.Written
import LoyaltyPoints.Proofs.Json.Entity
import LoyaltyPoints.Proofs.Oracle.Transport
import LoyaltyPoints.Proofs.Ledger.Pairing
import LoyaltyPoints.Proofs.Ledger.Isolation
import LoyaltyPoints.Proofs.Ledger.Omission
import LoyaltyPoints.Proofs.OrderNumber.Checksum
import LoyaltyPoints.Proofs.Ledger.Withdrawal
import LoyaltyPoints.Proofs.Ledger.Exactness
import LoyaltyPoints.Proofs.Ledger.Progress
import LoyaltyPoints.Proofs.Ledger.Commutation
import LoyaltyPoints.Proofs.Pipeline.Rotation
import LoyaltyPoints.Proofs.Ledger.Paging
import LoyaltyPoints.Proofs.Retry.Loop
import LoyaltyPoints.Proofs.Json.Grammar
import LoyaltyPoints.Proofs.Oracle.Acceptance
import LoyaltyPoints.Proofs.Binary64.Rounding
import LoyaltyPoints.Proofs.Binary64.Shortest
import LoyaltyPoints.Proofs.Json.Cents
import LoyaltyPoints.Proofs.Decimal.Nearest
import LoyaltyPoints.Proofs.OrderNumber.CheckDigit
import LoyaltyPoints.Proofs.Text.Trim
import LoyaltyPoints.Proofs.Oracle.BaseAddress
import LoyaltyPoints.Proofs.Settings.Overlay
import LoyaltyPoints.Proofs.Settings.Leaves
import LoyaltyPoints.Proofs.Settings.Precedence
