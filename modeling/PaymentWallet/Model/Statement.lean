import PaymentWallet.Model.Schema
import PaymentWallet.Foundation.Engine

/-! The SQL statements that the services issue through Prisma, with their
constraint checks, the row images they write and the rows and unique-index
entries they lock until commit. -/
namespace PaymentWallet
open Foundation

/-- Increments of the three balance columns; a decrement is negative. -/
structure BalanceChange where
  available : Decimal := 0
  locked : Decimal := 0
  pending : Decimal := 0

structure TransactionPatch where
  status : Option TransactionStatus := none
  settledAt : Option DateTime := none
  providerRef : Option String := none

/-- Absent columns are left alone; the nullable ones can be set to null. -/
structure UserPatch where
  status : Option AccountStatus := none
  role : Option Role := none
  braintreeCustomerId : Option String := none
  stripeConnectAccountId : Option (Option String) := none
  paypalEmail : Option (Option String) := none

structure Balances where
  available : Decimal
  locked : Decimal
  pending : Decimal

def Wallet.shift (wallet : Wallet) (change : BalanceChange) : Wallet :=
  { wallet with
    availableBalance := wallet.availableBalance + change.available
    lockedBalance := wallet.lockedBalance + change.locked
    pendingBalance := wallet.pendingBalance + change.pending }

def Wallet.fits (wallet : Wallet) : Bool :=
  Decimal.fits wallet.availableBalance && Decimal.fits wallet.lockedBalance &&
    Decimal.fits wallet.pendingBalance

def TransactionPatch.apply (patch : TransactionPatch) (transaction : Transaction) : Transaction :=
  { transaction with
    status := patch.status.getD transaction.status
    settledAt := patch.settledAt.or transaction.settledAt
    providerRef := patch.providerRef.or transaction.providerRef }

def UserPatch.apply (patch : UserPatch) (user : User) : User :=
  { user with
    status := patch.status.getD user.status
    role := patch.role.getD user.role
    braintreeCustomerId := patch.braintreeCustomerId.or user.braintreeCustomerId
    stripeConnectAccountId := patch.stripeConnectAccountId.getD user.stripeConnectAccountId
    paypalEmail := patch.paypalEmail.getD user.paypalEmail }

/-- The first four are plain reads. The callers of `findByUserId` use only the
wallet's id; `upsertBraintreeCustomerId` takes the guard read and the update it
guards as one statement on the user's row. -/
inductive Statement where
  | findByUserId (userId : UserId)
  | findConnectAccount (userId : UserId)
  | findPaypalEmail (userId : UserId)
  | findBalances (userId : UserId)
  | lockWallet (id : WalletId)
  | updateWallet (id : WalletId) (change : BalanceChange)
  | createTransaction (row : Transaction)
  | updateTransaction (id : TransactionId) (patch : TransactionPatch)
  | createLedgerEntry (row : LedgerEntry)
  | createPaymentLog (row : PaymentLog)
  | createOutboxEvent (row : OutboxEvent)
  | markDelivered (id : EventId) (now : DateTime)
  | incrementRetry (id : EventId)
  | createUser (row : User)
  | createWallet (row : Wallet)
  | upsertBraintreeCustomerId (userId : UserId) (customerId : String)
  | updateUser (id : UserId) (patch : UserPatch)
  | revokeRefreshTokens (userId : UserId) (now : DateTime)

@[reducible] def Statement.Reply : Statement → Type
  | .findByUserId _ => Option WalletId
  | .findConnectAccount _ | .findPaypalEmail _ => Option (Option String)
  | .findBalances _ => Option Balances
  | .lockWallet _ => Option Wallet
  | .updateWallet .. => Wallet
  | .createTransaction _ => Transaction
  | _ => Unit

def Statement.plain : Statement → Bool
  | .findByUserId _ | .findConnectAccount _ | .findPaypalEmail _ | .findBalances _ => true
  | _ => false

/-- Row images, and the one bulk update. -/
inductive Write where
  | user (row : User)
  | wallet (row : Wallet)
  | transaction (row : Transaction)
  | ledgerEntry (row : LedgerEntry)
  | paymentLog (row : PaymentLog)
  | outboxEvent (row : OutboxEvent)
  | revokeRefreshTokens (userId : UserId) (now : DateTime)

def RefreshToken.revoke (now : DateTime) (row : RefreshToken) : RefreshToken :=
  { row with revokedAt := some now }

theorem RefreshToken.revoke_id (now : DateTime) (row : RefreshToken) :
    (row.revoke now).id = row.id := rfl

def DB.write (d : DB) : Write → DB
  | .user row => { d with users := d.users.put row }
  | .wallet row => { d with wallets := d.wallets.put row }
  | .transaction row => { d with transactions := d.transactions.put row }
  | .ledgerEntry row => { d with ledgerEntries := d.ledgerEntries.put row }
  | .paymentLog row => { d with paymentLogs := d.paymentLogs.put row }
  | .outboxEvent row => { d with outboxEvents := d.outboxEvents.put row }
  | .revokeRefreshTokens userId now =>
    let select := fun row : RefreshToken => row.userId = userId && row.revokedAt.isNone
    { d with refreshTokens := d.refreshTokens.modify select (·.revoke now) (·.revoke_id now) }

/-- Row locks and entries of unique indexes. -/
inductive LockKey where
  | user (id : UserId)
  | userIndex (entry : String × String)
  | wallet (id : WalletId)
  | walletOf (userId : UserId)
  | transaction (id : TransactionId)
  | idempotencyKey (key : String)
  | ledgerEntry (id : String)
  | paymentLog (id : String)
  | paymentLogOf (transactionId : TransactionId)
  | outboxEvent (id : EventId)
  | refreshTokensOf (userId : UserId)
deriving DecidableEq

/-- INSERT: a duplicate primary key or index entry is a unique violation, which
names the column. -/
def insertRow {R K I α : Type} {key : R → K} [DecidableEq K] [DecidableEq I] (t : Table R K key)
    (index : R → List I) (row : R) (target : I → String) (reply : α) (write : Write) :
    Except Exception (α × List Write) :=
  if (t.get? (key row)).isSome then .error (.uniqueViolation "id")
  else match (index row).find? fun entry => t.Has index entry with
    | some entry => .error (.uniqueViolation (target entry))
    | none => .ok (reply, [write])

/-- UPDATE ... WHERE id: Prisma throws when there is no such row. -/
def updateRow {R K : Type} {key : R → K} [DecidableEq K] (t : Table R K key) (k : K) (f : R → R)
    (write : R → Write) : Except Exception (Unit × List Write) :=
  match t.get? k with
  | none => .error .recordNotFound
  | some row => .ok ((), [write (f row)])

/-- Index entries that an update adds to or removes from `User`. -/
def changedEntries (old new : User) : List (String × String) :=
  new.index.filter (· ∉ old.index) ++ old.index.filter (· ∉ new.index)

def updateUserRow (d : DB) (id : UserId) (f : User → User) : Except Exception (Unit × List Write) :=
  match d.users.get? id with
  | none => .error .recordNotFound
  | some old =>
    match (changedEntries old (f old)).find? fun entry =>
        entry ∉ old.index ∧ d.users.Has User.index entry with
    | some entry => .error (.uniqueViolation entry.1)
    | none => .ok ((), [.user (f old)])

def userKeys (d : DB) (id : UserId) (f : User → User) : List LockKey :=
  match d.users.get? id with
  | none => [.user id]
  | some old => .user id :: (changedEntries old (f old)).map .userIndex

def Statement.exec : (s : Statement) → DB → Except Exception (s.Reply × List Write)
  | .findByUserId userId, d =>
    .ok ((d.wallets.rows.find? fun row => row.userId = userId).map (·.id), [])
  | .findConnectAccount userId, d => .ok ((d.users.get? userId).map (·.stripeConnectAccountId), [])
  | .findPaypalEmail userId, d => .ok ((d.users.get? userId).map (·.paypalEmail), [])
  | .findBalances userId, d =>
    .ok ((d.wallets.rows.find? fun row => row.userId = userId).map fun row =>
      ⟨row.availableBalance, row.lockedBalance, row.pendingBalance⟩, [])
  | .lockWallet id, d => .ok (d.wallets.get? id, [])
  | .updateWallet id change, d =>
    match d.wallets.get? id with
    | none => .error .recordNotFound
    | some row =>
      if (row.shift change).fits then .ok (row.shift change, [.wallet (row.shift change)])
      else .error .numericOverflow
  | .createTransaction row, d =>
    if Decimal.fits row.amount.decimal then
      insertRow d.transactions Transaction.index row (fun _ => "idempotencyKey")
        row (.transaction row)
    else .error .numericOverflow
  | .updateTransaction id patch, d => updateRow d.transactions id patch.apply .transaction
  | .createLedgerEntry row, d =>
    if Decimal.fits row.amount.decimal && Decimal.fits row.balanceAfter then
      insertRow d.ledgerEntries (fun _ => ([] : List Unit)) row (fun _ => "") () (.ledgerEntry row)
    else .error .numericOverflow
  | .createPaymentLog row, d =>
    insertRow d.paymentLogs PaymentLog.index row (fun _ => "transactionId") () (.paymentLog row)
  | .createOutboxEvent row, d =>
    insertRow d.outboxEvents (fun _ => ([] : List Unit)) row (fun _ => "") () (.outboxEvent row)
  | .markDelivered id now, d =>
    updateRow d.outboxEvents id (fun row => { row with deliveredAt := some now }) .outboxEvent
  | .incrementRetry id, d =>
    updateRow d.outboxEvents id (fun row =>
      { row with retryCount := row.retryCount + 1 }) .outboxEvent
  | .createUser row, d => insertRow d.users User.index row Prod.fst () (.user row)
  | .createWallet row, d =>
    insertRow d.wallets Wallet.index row (fun _ => "userId") () (.wallet row)
  | .upsertBraintreeCustomerId userId customerId, d =>
    if (d.users.get? userId).any fun row =>
      row.braintreeCustomerId = some customerId then .ok ((), [])
    else updateUserRow d userId { braintreeCustomerId := some customerId : UserPatch }.apply
  | .updateUser id patch, d => updateUserRow d id patch.apply
  | .revokeRefreshTokens userId now, _ => .ok ((), [.revokeRefreshTokens userId now])

def Statement.keys : Statement → DB → List LockKey
  | .findByUserId _, _ | .findConnectAccount _, _ | .findPaypalEmail _, _ | .findBalances _, _ => []
  | .lockWallet id, _ => [.wallet id]
  | .updateWallet id _, _ => [.wallet id]
  | .createTransaction row, _ => [.transaction row.id, .idempotencyKey row.idempotencyKey]
  | .updateTransaction id _, _ => [.transaction id]
  | .createLedgerEntry row, _ => [.ledgerEntry row.id]
  | .createPaymentLog row, _ => [.paymentLog row.id, .paymentLogOf row.transactionId]
  | .createOutboxEvent row, _ => [.outboxEvent row.id]
  | .markDelivered id _, _ | .incrementRetry id, _ => [.outboxEvent id]
  | .createUser row, _ => .user row.id :: row.index.map .userIndex
  | .createWallet row, _ => [.wallet row.id, .walletOf row.userId]
  | .upsertBraintreeCustomerId userId customerId, d =>
    userKeys d userId { braintreeCustomerId := some customerId : UserPatch }.apply
  | .updateUser id patch, d => userKeys d id patch.apply
  | .revokeRefreshTokens userId _, _ => [.refreshTokensOf userId]

/-- Postgres at READ COMMITTED, as far as these statements use it. -/
def postgres : Engine DB Write Statement Statement.Reply LockKey Exception where
  apply := DB.write
  exec := Statement.exec
  plain := Statement.plain
  keys := Statement.keys

/-- Plain reads write nothing. -/
theorem postgres_unread {s : Statement} {d : DB} {reply : s.Reply} {ws : List Write}
    (plain : s.plain = true) (exec : s.exec d = .ok (reply, ws)) : ws = [] := by
  cases s with
  | findByUserId | findConnectAccount | findPaypalEmail | findBalances =>
    cases exec
    rfl
  | _ => cases plain

section Replies
variable {R K I α : Type} {key : R → K} [DecidableEq K] [DecidableEq I] {t : Table R K key} {k : K}

theorem insertRow_ok {index : R → List I} {target : I → String} {reply reply' : α}
    {w : Write} {ws : List Write} :
    insertRow t index row target reply w = .ok (reply', ws) ↔
      t.get? (key row) = none ∧ (∀ i ∈ index row, ¬ t.Has index i) ∧ reply' = reply ∧ ws = [w] := by
  unfold insertRow
  cases found : t.get? (key row) with
  | some old => simp
  | none =>
    simp only [Option.isSome_none, Bool.false_eq_true, if_false, true_and]
    cases taken : (index row).find? fun entry => decide (t.Has index entry) with
    | some entry =>
      have member := List.mem_of_find?_eq_some taken
      have has : t.Has index entry := by simpa using List.find?_some taken
      simp only [reduceCtorEq, false_iff]
      exact fun h => h.1 entry member has
    | none =>
      have free : ∀ i ∈ index row, ¬ t.Has index i := by simpa using taken
      simp only [Except.ok.injEq, Prod.mk.injEq]
      exact ⟨fun h => ⟨free, h.1.symm, h.2.symm⟩, fun h => ⟨h.2.1.symm, h.2.2.symm⟩⟩

theorem updateRow_ok {f : R → R} {write : R → Write} {reply : Unit} {ws : List Write} :
    updateRow t k f write = .ok (reply, ws) ↔ ∃ row, t.get? k = some row ∧
      ws = [write (f row)] := by
  unfold updateRow
  cases t.get? k <;> simp [eq_comm]

theorem updateUserRow_ok {d : DB} {id : UserId} {f : User → User} {reply : Unit} {ws : List Write} :
    updateUserRow d id f = .ok (reply, ws) ↔ ∃ old, d.users.get? id = some old ∧
      (∀ entry ∈ (f old).index, entry ∉ old.index → ¬ d.users.Has User.index entry) ∧
      ws = [.user (f old)] := by
  unfold updateUserRow
  cases found : d.users.get? id with
  | none => simp
  | some old =>
    simp only [Option.some.injEq, exists_eq_left']
    cases taken : (changedEntries old (f old)).find? fun entry =>
        decide (entry ∉ old.index ∧ d.users.Has User.index entry) with
    | some entry =>
      have member := List.mem_of_find?_eq_some taken
      have clash : entry ∉ old.index ∧ d.users.Has User.index entry := by
        simpa using List.find?_some taken
      have gained : entry ∈ (f old).index := by
        simp only [changedEntries, List.mem_append, List.mem_filter] at member
        exact member.elim (·.1) fun lost => absurd lost.1 clash.1
      simp only [reduceCtorEq, false_iff]
      exact fun h => h.1 entry gained clash.1 clash.2
    | none =>
      have free : ∀ entry ∈ changedEntries old (f old), entry ∉ old.index →
          ¬ d.users.Has User.index entry := by simpa using taken
      have gained : ∀ entry ∈ (f old).index, entry ∉ old.index →
          ¬ d.users.Has User.index entry := by
        intro entry member new
        exact free entry (by simp [changedEntries, member, new]) new
      simp only [Except.ok.injEq, Prod.mk.injEq, true_and]
      exact ⟨fun h => ⟨gained, h.symm⟩, fun h => h.2.symm⟩

variable {d : DB} {id : String} {ws : List Write} {done : Unit}

theorem exec_lockWallet {reply : Option Wallet} :
    (Statement.lockWallet id).exec d = .ok (reply, ws) ↔ reply = d.wallets.get? id ∧ ws = [] := by
  simp [Statement.exec, eq_comm]

theorem exec_updateWallet {reply : Wallet} :
    (Statement.updateWallet id change).exec d = .ok (reply, ws) ↔
      ∃ row, d.wallets.get? id = some row ∧
      (row.shift change).fits ∧ reply = row.shift change ∧ ws = [.wallet (row.shift change)] := by
  simp only [Statement.exec]
  cases d.wallets.get? id with
  | none => simp
  | some row =>
    simp only [Option.some.injEq, exists_eq_left']
    by_cases fits : (row.shift change).fits
    · simp only [fits, if_true, Except.ok.injEq, Prod.mk.injEq, true_and]
      exact ⟨fun h => ⟨h.1.symm, h.2.symm⟩, fun h => ⟨h.1.symm, h.2.symm⟩⟩
    · simp only [fits, Bool.false_eq_true, if_false, reduceCtorEq, false_and]

theorem exec_createTransaction {row reply : Transaction} :
    (Statement.createTransaction row).exec d = .ok (reply, ws) ↔ Decimal.fits row.amount.decimal ∧
      d.transactions.get? row.id = none ∧
        ¬ d.transactions.Has Transaction.index row.idempotencyKey ∧
      reply = row ∧ ws = [.transaction row] := by
  by_cases fits : Decimal.fits row.amount.decimal
  · simp only [Statement.exec, fits, if_true, insertRow_ok, Transaction.index, List.mem_singleton,
      forall_eq, true_and]
  · simp only [Statement.exec, fits, Bool.false_eq_true, if_false, reduceCtorEq, false_and]

theorem exec_updateTransaction : (Statement.updateTransaction id patch).exec d = .ok (done, ws) ↔
    ∃ row, d.transactions.get? id = some row ∧ ws = [.transaction (patch.apply row)] :=
  updateRow_ok

theorem exec_createLedgerEntry {row : LedgerEntry} :
    (Statement.createLedgerEntry row).exec d = .ok (done, ws) ↔
      (Decimal.fits row.amount.decimal && Decimal.fits row.balanceAfter) ∧
      d.ledgerEntries.get? row.id = none ∧ ws = [.ledgerEntry row] := by
  by_cases fits : Decimal.fits row.amount.decimal && Decimal.fits row.balanceAfter
  · simp only [Statement.exec, fits, if_true, insertRow_ok, List.not_mem_nil, false_implies,
      implies_true, true_and]
  · simp only [Statement.exec, fits, Bool.false_eq_true, if_false, reduceCtorEq, false_and]

theorem exec_createPaymentLog {row : PaymentLog} :
    (Statement.createPaymentLog row).exec d = .ok (done, ws) ↔ d.paymentLogs.get? row.id = none ∧
      ¬ d.paymentLogs.Has PaymentLog.index row.transactionId ∧ ws = [.paymentLog row] := by
  simp only [Statement.exec, insertRow_ok, PaymentLog.index,
    List.mem_singleton, forall_eq, true_and]

theorem exec_createOutboxEvent {row : OutboxEvent} :
    (Statement.createOutboxEvent row).exec d = .ok (done, ws) ↔
      d.outboxEvents.get? row.id = none ∧ ws = [.outboxEvent row] := by
  simp only [Statement.exec, insertRow_ok, List.not_mem_nil, false_implies, implies_true, true_and]

theorem exec_markDelivered : (Statement.markDelivered id now).exec d = .ok (done, ws) ↔
    ∃ row, d.outboxEvents.get? id = some row ∧
      ws = [.outboxEvent { row with deliveredAt := some now }] :=
  updateRow_ok

theorem exec_incrementRetry : (Statement.incrementRetry id).exec d = .ok (done, ws) ↔
    ∃ row, d.outboxEvents.get? id = some row ∧
      ws = [.outboxEvent { row with retryCount := row.retryCount + 1 }] :=
  updateRow_ok

theorem exec_createUser {row : User} : (Statement.createUser row).exec d = .ok (done, ws) ↔
    d.users.get? row.id = none ∧ (∀ i ∈ row.index, ¬ d.users.Has User.index i) ∧
      ws = [.user row] := by
  simp only [Statement.exec, insertRow_ok, true_and]

theorem exec_createWallet {row : Wallet} : (Statement.createWallet row).exec d = .ok (done, ws) ↔
    d.wallets.get? row.id = none ∧ ¬ d.wallets.Has Wallet.index row.userId ∧
      ws = [.wallet row] := by
  simp only [Statement.exec, insertRow_ok, Wallet.index, List.mem_singleton, forall_eq, true_and]

theorem exec_updateUser : (Statement.updateUser id patch).exec d = .ok (done, ws) ↔
    ∃ old, d.users.get? id = some old ∧
      (∀ entry ∈ (patch.apply old).index, entry ∉ old.index → ¬ d.users.Has User.index entry) ∧
      ws = [.user (patch.apply old)] :=
  updateUserRow_ok

/-- The customer id is there already, or the update of the row goes through. -/
theorem exec_upsertBraintreeCustomerId
    (exec : (Statement.upsertBraintreeCustomerId userId customerId).exec d = .ok (done, ws)) :
    ws = [] ∨ (Statement.updateUser userId { braintreeCustomerId := some customerId }).exec d =
      .ok ((), ws) := by
  simp only [Statement.exec] at exec ⊢
  split at exec
  · exact .inl (by simpa [eq_comm] using exec)
  · exact .inr exec

theorem exec_revokeRefreshTokens :
    (Statement.revokeRefreshTokens userId now).exec d = .ok (done, ws) ↔
    ws = [.revokeRefreshTokens userId now] := by
  simp [Statement.exec, eq_comm]

end Replies
end PaymentWallet
