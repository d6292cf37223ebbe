import PaymentWallet.Model.Transactions
import PaymentWallet.Foundation.Journal

/-! What transactions mean for wallets and for the ledger, in terms of their type
and status alone. This layer states the purpose of the services: it does not
mention any of their steps. -/
namespace PaymentWallet
open Foundation

/-- The three balances of a wallet. -/
inductive Bucket where
  | available | locked | pending
deriving DecidableEq

def Wallet.balance (wallet : Wallet) : Bucket → Decimal
  | .available => wallet.availableBalance
  | .locked => wallet.lockedBalance
  | .pending => wallet.pendingBalance

def BalanceChange.amount (change : BalanceChange) : Bucket → Decimal
  | .available => change.available
  | .locked => change.locked
  | .pending => change.pending

namespace Transaction

/-- The amount, for the wallet that receives it. -/
def received (t : Transaction) (id : WalletId) : Decimal :=
  if t.receiverWalletId = some id then t.amount.decimal else 0

/-- The amount, for the wallet that sends it. -/
def sent (t : Transaction) (id : WalletId) : Decimal :=
  if t.senderWalletId = some id then t.amount.decimal else 0

/-- What a transaction holds in the balances of a wallet. -/
def effect (t : Transaction) (id : WalletId) : Bucket → Decimal
  | .available =>
    match t.type, t.status with
    | .deposit, .settled => t.received id
    | .withdrawal, .initiated | .withdrawal, .settled => -t.sent id
    | .transfer, .settled => t.received id - t.sent id
    | _, _ => 0
  | .locked =>
    match t.type, t.status with
    | .withdrawal, .initiated => t.sent id
    | _, _ => 0
  | .pending =>
    match t.type, t.status with
    | .deposit, .initiated => t.received id
    | _, _ => 0

/-- Created by `TransactionService`, without an external provider. -/
def direct (t : Transaction) : Bool := t.provider = some .internal

/-- The ledger has the entries of a transaction: direct ones post at initiation,
the others at settlement, and a failed one posts nothing. -/
def posts (t : Transaction) : Bool := t.status = .settled || t.status = .initiated && t.direct

end Transaction

/-- An entry up to its id, its time and the balance it records. -/
structure Posting where
  walletId : Option WalletId
  direction : EntryDirection
  amount : Amount
  currency : Currency
deriving DecidableEq

def LedgerEntry.posting (entry : LedgerEntry) : Posting :=
  ⟨some entry.walletId, entry.direction, entry.amount, entry.currency⟩

namespace Transaction

def credit (t : Transaction) : Posting := ⟨t.receiverWalletId, .credit, t.amount, t.currency⟩

def debit (t : Transaction) : Posting := ⟨t.senderWalletId, .debit, t.amount, t.currency⟩

/-- The ledger image of a transaction. -/
def image (t : Transaction) : List Posting :=
  if t.posts then
    match t.type with
    | .deposit => [t.credit]
    | .withdrawal => [t.debit]
    | .transfer => [t.debit, t.credit]
  else []

/-- The wallets a transaction names: the receiver of a deposit, the sender of a
withdrawal, both of a transfer. -/
def Shaped (t : Transaction) : Prop :=
  match t.type with
  | .deposit => t.senderWalletId = none ∧ t.receiverWalletId.isSome
  | .withdrawal => t.senderWalletId.isSome ∧ t.receiverWalletId = none
  | .transfer => t.senderWalletId.isSome ∧ t.receiverWalletId.isSome ∧
      t.senderWalletId ≠ t.receiverWalletId

def parties (t : Transaction) : List WalletId :=
  t.senderWalletId.toList ++ t.receiverWalletId.toList

/-- The statuses a transaction can have, by type and provider. -/
structure Staged (t : Transaction) : Prop where
  provider : t.provider.isSome
  transfer : t.type = .transfer → t.status = .settled ∧ t.direct
  direct : t.type ≠ .transfer → t.direct → t.status = .initiated
  status : t.status = .initiated ∨ t.status = .settled ∨ t.status = .failed
  settledAt : t.settledAt.isSome ↔ t.status = .settled

/-- The statuses that payment logs record for a transaction. -/
def outcome (t : Transaction) : List TransactionStatus :=
  if t.type = .transfer ∨ t.status = .initiated then [] else [t.status]

end Transaction

/-- The event written with a transaction of this type. -/
def TransactionType.event : TransactionType → EventType
  | .deposit => .depositInitiated
  | .withdrawal => .withdrawalInitiated
  | .transfer => .transferSettled

namespace DB

def entriesOf (d : DB) (id : TransactionId) : List LedgerEntry :=
  d.ledgerEntries.rows.filter (·.transactionId = id)

def logsOf (d : DB) (id : TransactionId) : List PaymentLog :=
  d.paymentLogs.rows.filter (·.transactionId = id)

def eventsOf (d : DB) (id : TransactionId) : List OutboxEvent :=
  d.outboxEvents.rows.filter (·.transactionId = id)

theorem mem_eventsOf {d : DB} {id : TransactionId} {event : OutboxEvent} :
    event ∈ d.eventsOf id ↔ event ∈ d.outboxEvents.rows ∧ event.transactionId = id := by
  simp [eventsOf]

theorem event_listed {d : DB} {id : TransactionId} {event : OutboxEvent}
    (single : d.eventsOf id = [event]) :
    event ∈ d.outboxEvents.rows ∧ event.transactionId = id :=
  mem_eventsOf.mp (single ▸ List.mem_singleton_self event)

theorem event_only {d : DB} {id : TransactionId} {event other : OutboxEvent}
    (single : d.eventsOf id = [event]) (member : other ∈ d.outboxEvents.rows)
    (about : other.transactionId = id) : other = event :=
  List.mem_singleton.mp (single ▸ mem_eventsOf.mpr ⟨member, about⟩)

/-- The balances of a wallet; zero where there is none. -/
def balance (d : DB) (id : WalletId) : Bucket → Decimal :=
  ((d.wallets.get? id).map (·.balance)).getD fun _ => 0

/-- Credits minus debits that the ledger holds for a wallet. -/
def net (d : DB) (id : WalletId) : Decimal :=
  total d.ledgerEntries (fun e => e.walletId = id ∧ e.direction = .credit) (·.amount.decimal) -
    total d.ledgerEntries (fun e => e.walletId = id ∧ e.direction = .debit) (·.amount.decimal)

end DB

def Posting.net (posting : Posting) (id : WalletId) : Decimal :=
  if posting.walletId = some id then
    match posting.direction with
    | .credit => posting.amount.decimal
    | .debit => -posting.amount.decimal
  else 0

def Transaction.net (t : Transaction) (id : WalletId) : Decimal := (t.image.map (·.net id)).sum

/-- Everything recorded about one transaction agrees with its status. -/
structure Dossier (d : DB) (t : Transaction) : Prop where
  shaped : t.Shaped
  staged : t.Staged
  known : ∀ id ∈ t.parties, ∃ wallet, d.wallets.get? id = some wallet ∧ wallet.currency = t.currency
  entries : (d.entriesOf t.id).map (·.posting) = t.image
  logs : (d.logsOf t.id).map (·.status) = t.outcome
  event : ∃ e, d.eventsOf t.id = [e] ∧ e.eventType = t.type.event ∧
    (t.outcome ≠ [] → e.deliveredAt.isSome)

/-- The database keeps its books. -/
structure Consistent (d : DB) : Prop where
  nonneg : ∀ wallet ∈ d.wallets.rows, 0 ≤ wallet.availableBalance
  balances : Balanced d.transactions Transaction.effect d.balance
  ledger : Balanced d.transactions Transaction.net d.net
  dossiers : ∀ t ∈ d.transactions.rows, Dossier d t
  entries_known : ∀ e ∈ d.ledgerEntries.rows, (d.transactions.get? e.transactionId).isSome
  logs_known : ∀ log ∈ d.paymentLogs.rows, (d.transactions.get? log.transactionId).isSome
  events_known : ∀ e ∈ d.outboxEvents.rows, (d.transactions.get? e.transactionId).isSome

end PaymentWallet
