import PaymentWallet.Concurrency.Locks
import PaymentWallet.Guarantees.Settlement
import PaymentWallet.Guarantees.Ledger
import PaymentWallet.Guarantees.Funds
import PaymentWallet.Guarantees.Idempotency
import PaymentWallet.Guarantees.Serialization
import PaymentWallet.Guarantees.Closing
import PaymentWallet.Guarantees.Payments
import PaymentWallet.Guarantees.Answers
import PaymentWallet.Guarantees.Retries
import PaymentWallet.Guarantees.Deadlock
import PaymentWallet.Guarantees.Connections
import PaymentWallet.Guarantees.Leases
import PaymentWallet.Guarantees.Rotation
import PaymentWallet.Guarantees.Reuse
import PaymentWallet.Guarantees.Pages
import PaymentWallet.Guarantees.Payloads
import PaymentWallet.Guarantees.Draining
import PaymentWallet.Guarantees.Transfers
import PaymentWallet.Guarantees.References
import PaymentWallet.Guarantees.Amounts
import PaymentWallet.Guarantees.Backing
import PaymentWallet.Guarantees.Revocation
import PaymentWallet.Guarantees.Logouts
import PaymentWallet.Guarantees.Authority
import PaymentWallet.Guarantees.Encryption
import PaymentWallet.Guarantees.Cursors
import PaymentWallet.Guarantees.Offsets
import PaymentWallet.Guarantees.Onboarding
import PaymentWallet.Guarantees.Cleanup
import PaymentWallet.Guarantees.Termination
import PaymentWallet.Guarantees.Finality
import PaymentWallet.Guarantees.Identity
import PaymentWallet.Guarantees.Capacity
import PaymentWallet.Guarantees.Conservation
import PaymentWallet.Guarantees.History
import PaymentWallet.Guarantees.Directory
import PaymentWallet.Guarantees.Readings
import PaymentWallet.Guarantees.Failures
import PaymentWallet.Guarantees.Listings
import PaymentWallet.Guarantees.Tokens
