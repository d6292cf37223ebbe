import PaymentWallet.Model.Statement

/-! The repository methods that run inside a database transaction, as programs
over statements. Generated ids and clock readings come in as a `Draw`. -/
namespace PaymentWallet
open Foundation

/-- The body of an interactive transaction. -/
abbrev Tx := Program Statement Statement.Reply Exception

def query (s : Statement) : Tx s.Reply := Program.perform s

/-- A non-null assertion; Prisma rejects the argument when it is absent. -/
def required (value : Option α) : Tx α :=
  match value with
  | some value => pure value
  | none => throw (.error "Argument is missing.")

/-- The uuids and times that one transaction generates. -/
structure Draw where
  userId : UserId
  walletId : WalletId
  transactionId : TransactionId
  ledgerEntryId : String
  secondLedgerEntryId : String
  paymentLogId : String
  outboxEventId : EventId
  createdAt : DateTime
  settledAt : DateTime
  deliveredAt : DateTime
  revokedAt : DateTime
deriving DecidableEq

namespace WalletRepository

def findByUserId (userId : UserId) : Tx (Option WalletId) := query (.findByUserId userId)

def lockWallet (walletId : WalletId) : Tx Wallet := do
  match ← query (.lockWallet walletId) with
  | none => throw (.notFound "Wallet not found")
  | some row => return row

def assertActive (wallet : Wallet) : Tx Unit :=
  if wallet.status ≠ .active then
    throw (.forbidden ("Wallet is " ++ wallet.status.lower ++ ". Contact support."))
  else pure ()

def assertCurrencyMatch (wallet : Wallet) (currency : Currency) : Tx Unit :=
  if wallet.currency ≠ currency then
    throw (.forbidden ("Currency mismatch: wallet is " ++ wallet.currency.name ++
      ", transaction is " ++ currency.name ++ "."))
  else pure ()

def creditAvailable (walletId : WalletId) (amount : Amount) : Tx Decimal := do
  let updated ← query (.updateWallet walletId { available := amount.decimal })
  return updated.availableBalance

def debitAvailableAndLock (walletId : WalletId) (amount : Amount) : Tx (Decimal × Decimal) := do
  let updated ← query
    (.updateWallet walletId { available := -amount.decimal, locked := amount.decimal })
  return (updated.availableBalance, updated.lockedBalance)

def creditPending (walletId : WalletId) (amount : Amount) : Tx Decimal := do
  let updated ← query (.updateWallet walletId { pending := amount.decimal })
  return updated.pendingBalance

def settlePending (walletId : WalletId) (amount : Amount) : Tx Decimal := do
  let updated ← query
    (.updateWallet walletId { pending := -amount.decimal, available := amount.decimal })
  return updated.availableBalance

def settleWithdrawal (walletId : WalletId) (amount : Amount) : Tx Decimal := do
  let updated ← query (.updateWallet walletId { locked := -amount.decimal })
  return updated.lockedBalance

def debitAvailable (walletId : WalletId) (amount : Amount) : Tx Decimal := do
  let updated ← query (.updateWallet walletId { available := -amount.decimal })
  return updated.availableBalance

end WalletRepository

/-- The repository fixes type and status itself, so the input carries neither. -/
structure CreateTransactionInput where
  idempotencyKey : String
  amount : Amount
  currency : Currency
  description : Option String
  senderWalletId : Option WalletId
  receiverWalletId : Option WalletId
  provider : Option Provider

namespace TransactionRepository

def initiateDeposit (input : CreateTransactionInput) (pendingBalanceAfter : Decimal)
    (outboxPayload : Record) (draw : Draw) : Tx Transaction := do
  let transaction ← query (.createTransaction
    { id := draw.transactionId
      idempotencyKey := input.idempotencyKey
      type := .deposit
      status := .initiated
      amount := input.amount
      currency := input.currency
      description := input.description
      senderWalletId := none
      receiverWalletId := input.receiverWalletId
      provider := input.provider
      providerRef := none
      createdAt := draw.createdAt
      settledAt := none })
  let receiverWalletId ← required input.receiverWalletId
  query (.createLedgerEntry
    { id := draw.ledgerEntryId
      walletId := receiverWalletId
      transactionId := transaction.id
      direction := .credit
      amount := input.amount
      currency := input.currency
      balanceAfter := pendingBalanceAfter
      createdAt := draw.createdAt })
  query (.createOutboxEvent
    { id := draw.outboxEventId
      transactionId := transaction.id
      eventType := .depositInitiated
      payload := outboxPayload
      deliveredAt := none
      retryCount := 0
      createdAt := draw.createdAt })
  return transaction

def initiateWithdrawal (input : CreateTransactionInput) (lockedBalanceAfter : Decimal)
    (outboxPayload : Record) (draw : Draw) : Tx Transaction := do
  let transaction ← query (.createTransaction
    { id := draw.transactionId
      idempotencyKey := input.idempotencyKey
      type := .withdrawal
      status := .initiated
      amount := input.amount
      currency := input.currency
      description := input.description
      senderWalletId := input.senderWalletId
      receiverWalletId := none
      provider := input.provider
      providerRef := none
      createdAt := draw.createdAt
      settledAt := none })
  let senderWalletId ← required input.senderWalletId
  query (.createLedgerEntry
    { id := draw.ledgerEntryId
      walletId := senderWalletId
      transactionId := transaction.id
      direction := .debit
      amount := input.amount
      currency := input.currency
      balanceAfter := lockedBalanceAfter
      createdAt := draw.createdAt })
  query (.createOutboxEvent
    { id := draw.outboxEventId
      transactionId := transaction.id
      eventType := .withdrawalInitiated
      payload := outboxPayload
      deliveredAt := none
      retryCount := 0
      createdAt := draw.createdAt })
  return transaction

def executeTransfer (input : CreateTransactionInput)
    (senderBalanceAfter receiverBalanceAfter : Decimal)
    (outboxPayload : Record) (draw : Draw) : Tx Transaction := do
  let transaction ← query (.createTransaction
    { id := draw.transactionId
      idempotencyKey := input.idempotencyKey
      type := .transfer
      status := .settled
      amount := input.amount
      currency := input.currency
      description := input.description
      senderWalletId := input.senderWalletId
      receiverWalletId := input.receiverWalletId
      provider := some .internal
      providerRef := none
      createdAt := draw.createdAt
      settledAt := some draw.settledAt })
  let senderWalletId ← required input.senderWalletId
  query (.createLedgerEntry
    { id := draw.ledgerEntryId
      walletId := senderWalletId
      transactionId := transaction.id
      direction := .debit
      amount := input.amount
      currency := input.currency
      balanceAfter := senderBalanceAfter
      createdAt := draw.createdAt })
  let receiverWalletId ← required input.receiverWalletId
  query (.createLedgerEntry
    { id := draw.secondLedgerEntryId
      walletId := receiverWalletId
      transactionId := transaction.id
      direction := .credit
      amount := input.amount
      currency := input.currency
      balanceAfter := receiverBalanceAfter
      createdAt := draw.createdAt })
  query (.createOutboxEvent
    { id := draw.outboxEventId
      transactionId := transaction.id
      eventType := .transferSettled
      payload := outboxPayload
      deliveredAt := none
      retryCount := 0
      createdAt := draw.createdAt })
  return transaction

end TransactionRepository

structure CreatePaymentLogInput where
  transactionId : TransactionId
  provider : Provider
  providerRef : Option String
  payload : Record
  status : TransactionStatus

namespace PaymentRepository

def markDelivered (id : EventId) (now : DateTime) : Tx Unit := query (.markDelivered id now)

def incrementRetry (id : EventId) : Tx Unit := query (.incrementRetry id)

def createPaymentLog (input : CreatePaymentLogInput) (draw : Draw) : Tx Unit :=
  query (.createPaymentLog
    { id := draw.paymentLogId
      transactionId := input.transactionId
      provider := input.provider
      providerRef := input.providerRef
      payload := input.payload
      status := input.status
      createdAt := draw.createdAt })

def setProviderRef (transactionId : TransactionId) (providerRef : String) : Tx Unit :=
  query (.updateTransaction transactionId { providerRef := some providerRef })

/-- The user's `paypalEmail`, when the user exists. -/
def findUserById (id : UserId) : Tx (Option (Option String)) := query (.findPaypalEmail id)

end PaymentRepository

namespace StripeConnectRepository

/-- The user's `stripeConnectAccountId`, when the user exists. -/
def findById (userId : UserId) : Tx (Option (Option String)) := query (.findConnectAccount userId)

/-- `setConnectAccountId`, and `clearConnectAccountId` for `none`. -/
def setConnectAccountId (userId : UserId) (stripeConnectAccountId : Option String) : Tx Unit :=
  query (.updateUser userId { stripeConnectAccountId := some stripeConnectAccountId })

end StripeConnectRepository

structure CreateUserInput where
  name : String
  email : String
  phone : String
  password : String
deriving DecidableEq

/-- Columns that the schema fills in: role USER, status ACTIVE, currency USD and
zero balances. -/
def AuthRepository.createUserWithWalletTx (data : CreateUserInput) (draw : Draw) : Tx UserId := do
  query (.createUser
    { id := draw.userId
      name := data.name
      email := data.email
      phone := data.phone
      password := data.password
      role := .user
      status := .active
      braintreeCustomerId := none
      stripeConnectAccountId := none
      paypalEmail := none
      createdAt := draw.createdAt })
  query (.createWallet
    { id := draw.walletId
      userId := draw.userId
      currency := .usd
      status := .active
      availableBalance := 0
      lockedBalance := 0
      pendingBalance := 0
      createdAt := draw.createdAt })
  return draw.userId

namespace UsersRepository

def updateStatusOrRole (id : UserId) (status : Option AccountStatus)
    (role : Option Role) : Tx Unit :=
  query (.updateUser id { status := status, role := role })

def upsertBraintreeCustomerId (userId : UserId) (customerId : String) : Tx Unit :=
  query (.upsertBraintreeCustomerId userId customerId)

def closeAccount (userId : UserId) (draw : Draw) : Tx Unit := do
  match ← query (.findBalances userId) with
  | some wallet =>
    let hasBalance := wallet.available > 0 || wallet.locked > 0 || wallet.pending > 0
    if hasBalance then
      throw (.conflict ("Account cannot be closed while funds remain. " ++
        "Please withdraw all funds before closing your account."))
  | none => pure ()
  query (.updateUser userId { status := some .closed })
  query (.revokeRefreshTokens userId draw.revokedAt)

end UsersRepository
end PaymentWallet
