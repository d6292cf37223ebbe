import PaymentWallet.Accounting.Books
import PaymentWallet.Accounting.Contracts

/-! What each committed database transaction did to the database: it opened a
transaction, closed one, or touched rows that carry no money. -/
namespace PaymentWallet
open Foundation

def Wallet.move (wallet : Wallet) (δ : Bucket → Decimal) : Wallet :=
  wallet.shift ⟨δ .available, δ .locked, δ .pending⟩

/-- Every wallet stays, with its balances moved by `δ`. -/
def Moves (t t' : Table Wallet WalletId Wallet.id) (δ : WalletId → Bucket → Decimal) : Prop :=
  ∀ id, t'.get? id = (t.get? id).map (·.move (δ id))

@[simp] theorem Wallet.move_zero (wallet : Wallet) : wallet.move (fun _ => 0) = wallet := by
  simp [Wallet.move, Wallet.shift]

@[simp] theorem Wallet.balance_move (wallet : Wallet) (δ : Bucket → Decimal) (b : Bucket) :
    (wallet.move δ).balance b = wallet.balance b + δ b := by
  cases b <;> rfl

namespace Moves
variable {t t' t'' : Table Wallet WalletId Wallet.id} {δ δ' : WalletId → Bucket → Decimal}

theorem put {id : WalletId} {row : Wallet} (found : t.get? id = some row) (change : BalanceChange)
    (here : ∀ b, δ id b = change.amount b) (elsewhere : ∀ other ≠ id, ∀ b, δ other b = 0) :
    Moves t (t.put (row.shift change)) δ := by
  intro other
  have keyEq : row.id = id := Table.get?_key found
  rw [Table.get?_put, show (row.shift change).id = id from keyEq]
  by_cases same : other = id
  · subst same
    simp only [if_true, found, Option.map_some, Wallet.move, here, BalanceChange.amount]
  · have still : δ other = fun _ => 0 := funext (elsewhere other same)
    simp [same, still]

theorem trans (first : Moves t t' δ) (second : Moves t' t'' δ') :
    Moves t t'' fun id b => δ id b + δ' id b := by
  intro id
  rw [second id, first id, Option.map_map]
  congr 1
  funext wallet
  simp [Wallet.move, Wallet.shift, add_assoc]

theorem congr (moves : Moves t t' δ) (same : ∀ id b, δ id b = δ' id b) : Moves t t' δ' := by
  obtain rfl : δ = δ' := funext fun id => funext (same id)
  exact moves

theorem found (moves : Moves t t' δ) {id : WalletId} {wallet : Wallet}
    (found : t.get? id = some wallet) :
    t'.get? id = some (wallet.move (δ id)) := by
  rw [moves id, found, Option.map_some]

theorem source (moves : Moves t t' δ) {id : WalletId} {wallet : Wallet}
    (found : t'.get? id = some wallet) :
    ∃ old, t.get? id = some old ∧ wallet = old.move (δ id) := by
  rw [moves id] at found
  obtain ⟨old, present, rfl⟩ := Option.map_eq_some_iff.mp found
  exact ⟨old, present, rfl⟩

end Moves

/-- What an initiation asks for. -/
structure Opening where
  type : TransactionType
  provider : Provider
  amount : Amount
  currency : Currency
  idempotencyKey : String
  description : Option String
  draw : Draw

def TxCall.opening : TxCall → Option Opening
  | .deposit _ dto draw =>
    some ⟨.deposit, .internal, dto.amount, dto.currency, dto.idempotencyKey, dto.description, draw⟩
  | .withdraw _ dto draw =>
    some ⟨.withdrawal, .internal, dto.amount, dto.currency, dto.idempotencyKey,
      dto.description, draw⟩
  | .transfer _ dto _ _ draw =>
    some ⟨.transfer, .internal, dto.amount, dto.currency, dto.idempotencyKey, dto.description, draw⟩
  | .confirmDeposit _ dto draw => some ⟨.deposit, dto.provider.toProvider, dto.amount, dto.currency,
      dto.idempotencyKey, dto.description, draw⟩
  | .createPayout _ dto draw =>
    some ⟨.withdrawal, dto.provider.toProvider, dto.amount, dto.currency,
      dto.idempotencyKey, dto.description, draw⟩
  | _ => none

/-- The transaction row that an initiation creates. -/
def Opening.row (o : Opening) (senderWalletId receiverWalletId : Option WalletId) :
    Transaction where
  id := o.draw.transactionId
  idempotencyKey := o.idempotencyKey
  type := o.type
  status := if o.type = .transfer then .settled else .initiated
  amount := o.amount
  currency := o.currency
  description := o.description
  senderWalletId := senderWalletId
  receiverWalletId := receiverWalletId
  provider := some o.provider
  providerRef := none
  createdAt := o.draw.createdAt
  settledAt := if o.type = .transfer then some o.draw.settledAt else none

/-- The user whose wallet an initiation credits. -/
def TxCall.payee : TxCall → Option UserId
  | .deposit userId .. | .confirmDeposit userId .. => some userId
  | .transfer _ dto .. => some dto.recipientUserId
  | _ => none

/-- `t` was initiated: its row, its ledger entries and its event are new, and the
wallets hold its effect. -/
structure Opened (d : DB) (t : Transaction) (entries : List LedgerEntry) (event : OutboxEvent)
    (d' : DB) : Prop where
  users : d'.users = d.users
  wallets : Moves d.wallets d'.wallets t.effect
  transactions : d'.transactions = d.transactions.put t
  ledgerEntries : d'.ledgerEntries.rows = d.ledgerEntries.rows ++ entries
  paymentLogs : d'.paymentLogs = d.paymentLogs
  outboxEvents : d'.outboxEvents = d.outboxEvents.put event
  fresh : d.transactions.get? t.id = none
  newKey : ¬ d.transactions.Has Transaction.index t.idempotencyKey
  newEvent : d.outboxEvents.get? event.id = none
  covered : ∀ id wallet, d.wallets.get? id = some wallet → 0 ≤ wallet.availableBalance →
    0 ≤ (wallet.move (t.effect id)).availableBalance
  parties : ∀ id ∈ t.parties, ∃ wallet, d.wallets.get? id = some wallet ∧ wallet.status = .active ∧
    wallet.currency = t.currency
  shaped : t.Shaped
  image : entries.map (·.posting) = t.image
  posted : ∀ e ∈ entries, e.transactionId = t.id
  event_of : event.transactionId = t.id ∧ event.eventType = t.type.event
  pending : event.deliveredAt = none ∧ event.retryCount = 0

/-- `t` became `t'`: its status and the records of it moved together. -/
structure Closed (d : DB) (t t' : Transaction) (entries : List LedgerEntry) (log : PaymentLog)
    (event : OutboxEvent) (d' : DB) : Prop where
  found : d.transactions.get? t.id = some t
  initiated : t.status = .initiated
  type : t.type ≠ .transfer
  adapted : ¬ t.direct
  id : t'.id = t.id
  key : t'.idempotencyKey = t.idempotencyKey
  terms : t'.terms = t.terms
  status : t'.status = .settled ∨ t'.status = .failed
  settledAt : t'.settledAt.isSome ↔ t'.status = .settled
  users : ∀ id, (d'.users.get? id).map (·.status) = (d.users.get? id).map (·.status)
  wallets : Moves d.wallets d'.wallets fun id b => t'.effect id b - t.effect id b
  transactions : d'.transactions = d.transactions.put t'
  ledgerEntries : d'.ledgerEntries.rows = d.ledgerEntries.rows ++ entries
  paymentLogs : d'.paymentLogs = d.paymentLogs.put log
  outboxEvents : d'.outboxEvents = d.outboxEvents.put event
  image : entries.map (·.posting) = t'.image
  posted : ∀ e ∈ entries, e.transactionId = t.id
  newLog : d.paymentLogs.get? log.id = none
  log_of : log.transactionId = t.id ∧ log.status = t'.status
  event_of : ∃ old, d.outboxEvents.get? event.id = some old ∧ old.transactionId = t.id ∧
    event.terms = old.terms ∧ event.retryCount = old.retryCount
  delivered : event.deliveredAt.isSome

end PaymentWallet
