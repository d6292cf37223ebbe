import PaymentWallet.Model.Repositories

/-! The database transactions of the services: initiation of deposits,
withdrawals, transfers and payouts, settlement, and the single statements that
run in a transaction of their own. `TxCall` names each with its arguments. -/
namespace PaymentWallet
open Foundation

structure DepositDto where
  amount : Amount
  currency : Currency
  idempotencyKey : String
  description : Option String
deriving DecidableEq

abbrev WithdrawalDto := DepositDto

structure TransferDto where
  amount : Amount
  currency : Currency
  idempotencyKey : String
  recipientUserId : UserId
  description : Option String
deriving DecidableEq

/-- The providers that the payment DTOs admit. -/
inductive SupportedProvider where
  | stripe | paypal
deriving DecidableEq, Repr

def SupportedProvider.toProvider : SupportedProvider → Provider
  | .stripe => .stripe
  | .paypal => .paypal

theorem SupportedProvider.toProvider_ne_internal (provider : SupportedProvider) :
    provider.toProvider ≠ .internal := by
  cases provider <;> simp [toProvider]

/-- `if (value)` for an optional string. -/
def truthy (value : Option String) : Option String := value.filter (· ≠ "")

/-- Validation makes the field of the chosen provider non-empty. -/
structure ConfirmDepositDto where
  provider : SupportedProvider
  amount : Amount
  currency : Currency
  idempotencyKey : String
  description : Option String
  paymentIntentId : Option String
  nonce : Option String
  braintreeCustomerId : Option String
  intent_valid : provider = .stripe → (truthy paymentIntentId).isSome
  nonce_valid : provider = .paypal → (truthy nonce).isSome
deriving DecidableEq

structure CreatePayoutDto where
  provider : SupportedProvider
  amount : Amount
  currency : Currency
  idempotencyKey : String
  description : Option String
deriving DecidableEq

namespace TransactionService

def assertSufficientBalance (available : Decimal) (needed : Amount) : Tx Unit :=
  if available < needed.decimal then throw (.unprocessableEntity "Insufficient balance.")
    else pure ()

/-- The payload of the `*_INITIATED` events. -/
def outboxPayload (walletId : WalletId) (userId : UserId) (amount : Amount) (currency : Currency) :
    Record :=
  [("walletId", .string walletId), ("userId", .string userId), ("amount", .string amount.toString),
    ("currency", .string currency.name)]

def depositTx (userId : UserId) (dto : DepositDto) (draw : Draw) : Tx Transaction := do
  let some walletId ← WalletRepository.findByUserId userId | throw (.forbidden "Wallet not found")
  let locked ← WalletRepository.lockWallet walletId
  WalletRepository.assertActive locked
  WalletRepository.assertCurrencyMatch locked dto.currency
  let pendingBalanceAfter ← WalletRepository.creditPending locked.id dto.amount
  TransactionRepository.initiateDeposit
    { idempotencyKey := dto.idempotencyKey
      amount := dto.amount
      currency := dto.currency
      description := dto.description
      senderWalletId := none
      receiverWalletId := some locked.id
      provider := some .internal }
    pendingBalanceAfter (outboxPayload locked.id userId dto.amount dto.currency) draw

def withdrawTx (userId : UserId) (dto : WithdrawalDto) (draw : Draw) : Tx Transaction := do
  let some walletId ← WalletRepository.findByUserId userId | throw (.forbidden "Wallet not found")
  let locked ← WalletRepository.lockWallet walletId
  WalletRepository.assertActive locked
  WalletRepository.assertCurrencyMatch locked dto.currency
  assertSufficientBalance locked.availableBalance dto.amount
  let (_, lockedBalance) ← WalletRepository.debitAvailableAndLock locked.id dto.amount
  TransactionRepository.initiateWithdrawal
    { idempotencyKey := dto.idempotencyKey
      amount := dto.amount
      currency := dto.currency
      description := dto.description
      senderWalletId := some locked.id
      receiverWalletId := none
      provider := some .internal }
    lockedBalance (outboxPayload locked.id userId dto.amount dto.currency) draw

/-- The wallet ids come from reads before the transaction. -/
def transferTx (userId : UserId) (dto : TransferDto) (senderWalletId receiverWalletId : WalletId)
    (draw : Draw) : Tx Transaction := do
  let (firstId, secondId) :=
    if senderWalletId < receiverWalletId then (senderWalletId, receiverWalletId)
    else (receiverWalletId, senderWalletId)
  let firstLocked ← WalletRepository.lockWallet firstId
  let secondLocked ← WalletRepository.lockWallet secondId
  let lockedSender := if firstLocked.id = senderWalletId then firstLocked else secondLocked
  let lockedReceiver := if firstLocked.id = receiverWalletId then firstLocked else secondLocked
  WalletRepository.assertActive lockedSender
  WalletRepository.assertActive lockedReceiver
  WalletRepository.assertCurrencyMatch lockedSender dto.currency
  WalletRepository.assertCurrencyMatch lockedReceiver dto.currency
  assertSufficientBalance lockedSender.availableBalance dto.amount
  let senderBalanceAfter ← WalletRepository.debitAvailable lockedSender.id dto.amount
  let receiverBalanceAfter ← WalletRepository.creditAvailable lockedReceiver.id dto.amount
  TransactionRepository.executeTransfer
    { idempotencyKey := dto.idempotencyKey
      amount := dto.amount
      currency := dto.currency
      description := dto.description
      senderWalletId := some lockedSender.id
      receiverWalletId := some lockedReceiver.id
      provider := none }
    senderBalanceAfter receiverBalanceAfter
    [("senderWalletId", .string lockedSender.id), ("senderUserId", .string userId),
      ("receiverWalletId", .string lockedReceiver.id),
        ("receiverUserId", .string dto.recipientUserId),
      ("amount", .string dto.amount.toString), ("currency", .string dto.currency.name)]
    draw

end TransactionService

namespace PaymentService

/-- The fields that `confirmDeposit` adds to the payload for the provider. -/
def depositFields (dto : ConfirmDepositDto) : Record :=
  match dto.provider with
  | .stripe => (truthy dto.paymentIntentId).toList.map fun id => ("paymentIntentId", .string id)
  | .paypal => (truthy dto.nonce).toList.map (fun nonce => ("nonce", .string nonce)) ++
      (truthy dto.braintreeCustomerId).toList.map fun id => ("customerId", .string id)

def confirmDepositTx (userId : UserId) (dto : ConfirmDepositDto) (draw : Draw) :
    Tx Transaction := do
  let some walletId ← WalletRepository.findByUserId userId | throw (.notFound "Wallet not found")
  let locked ← WalletRepository.lockWallet walletId
  WalletRepository.assertActive locked
  WalletRepository.assertCurrencyMatch locked dto.currency
  let _ ← WalletRepository.creditPending locked.id dto.amount
  let outboxPayload :=
    TransactionService.outboxPayload locked.id userId dto.amount dto.currency ++ depositFields dto
  let transaction ← query (.createTransaction
    { id := draw.transactionId
      idempotencyKey := dto.idempotencyKey
      type := .deposit
      status := .initiated
      amount := dto.amount
      currency := dto.currency
      description := dto.description
      senderWalletId := none
      receiverWalletId := some locked.id
      provider := some dto.provider.toProvider
      providerRef := none
      createdAt := draw.createdAt
      settledAt := none })
  query (.createOutboxEvent
    { id := draw.outboxEventId
      transactionId := transaction.id
      eventType := .depositInitiated
      payload := outboxPayload
      deliveredAt := none
      retryCount := 0
      createdAt := draw.createdAt })
  return transaction

def resolveStripeConnectAccount (userId : UserId) : Tx String := do
  match truthy (← StripeConnectRepository.findById userId).join with
  | none => throw (.badRequest ("No Stripe Connect account linked. " ++
      "Complete Strip Connect account onboarding before initiating a Stripe payout."))
  | some stripeConnectAccountId => return stripeConnectAccountId

def resolvePaypalEmail (userId : UserId) : Tx String := do
  match ← PaymentRepository.findUserById userId with
  | none => throw (.error "Cannot read properties of null (reading 'paypalEmail')")
  | some paypalEmail =>
    match truthy paypalEmail with
    | none => throw (.badRequest ("No PayPalEmail configured. " ++
        "Complete PayPalEmail linking before initiating a PayPal payout."))
    | some paypalEmail => return paypalEmail

/-- The payee field of the payload, resolved for the provider. -/
def payoutFields (userId : UserId) : SupportedProvider → Tx Record
  | .stripe => do
    let stripeConnectedAccountId ← resolveStripeConnectAccount userId
    return [("stripeConnectedAccountId", .string stripeConnectedAccountId)]
  | .paypal => do
    let paypalEmail ← resolvePaypalEmail userId
    return [("paypalEmail", .string paypalEmail)]

def createPayoutTx (userId : UserId) (dto : CreatePayoutDto) (draw : Draw) : Tx Transaction := do
  let some walletId ← WalletRepository.findByUserId userId | throw (.notFound "Wallet not found")
  let locked ← WalletRepository.lockWallet walletId
  WalletRepository.assertActive locked
  WalletRepository.assertCurrencyMatch locked dto.currency
  if locked.availableBalance < dto.amount.decimal then
    throw (.unprocessableEntity "Insufficient balance.")
  let _ ← WalletRepository.debitAvailableAndLock locked.id dto.amount
  let fields ← payoutFields userId dto.provider
  let outboxPayload := TransactionService.outboxPayload locked.id userId dto.amount
    dto.currency ++ fields
  let transaction ← query (.createTransaction
    { id := draw.transactionId
      idempotencyKey := dto.idempotencyKey
      type := .withdrawal
      status := .initiated
      amount := dto.amount
      currency := dto.currency
      description := dto.description
      senderWalletId := some locked.id
      receiverWalletId := none
      provider := some dto.provider.toProvider
      providerRef := none
      createdAt := draw.createdAt
      settledAt := none })
  query (.createOutboxEvent
    { id := draw.outboxEventId
      transactionId := transaction.id
      eventType := .withdrawalInitiated
      payload := outboxPayload
      deliveredAt := none
      retryCount := 0
      createdAt := draw.createdAt })
  return transaction

end PaymentService

/-- An absent `requiresWebhook` reads as false. -/
structure ProviderResult where
  success : Bool
  requiresWebhook : Bool
  providerRef : Option String
  errorMessage : Option String
  rawResponse : Record
deriving DecidableEq

/-- The columns that `findTransactionById` selects. -/
structure SelectedTransaction where
  id : TransactionId
  type : TransactionType
  status : TransactionStatus
  amount : Amount
  currency : Currency
  provider : Option Provider
  senderWalletId : Option WalletId
  receiverWalletId : Option WalletId
deriving DecidableEq

def Transaction.selected (transaction : Transaction) : SelectedTransaction where
  id := transaction.id
  type := transaction.type
  status := transaction.status
  amount := transaction.amount
  currency := transaction.currency
  provider := transaction.provider
  senderWalletId := transaction.senderWalletId
  receiverWalletId := transaction.receiverWalletId

structure TransactionContext extends SelectedTransaction where
  userId : UserId
deriving DecidableEq

namespace PaymentSettlementService

/-- Stamps `providerRef`, then SETTLED and `settledAt`. -/
def markSettled (txCtx : TransactionContext) (result : ProviderResult) (draw : Draw) : Tx Unit := do
  match truthy result.providerRef with
  | some providerRef => PaymentRepository.setProviderRef txCtx.id providerRef
  | none => pure ()
  query (.updateTransaction txCtx.id { status := some .settled, settledAt := some draw.settledAt })

/-- The `PaymentLog` row and the delivery mark that end all four paths. -/
def record (txCtx : TransactionContext) (outboxEventId : EventId) (result : ProviderResult)
    (status : TransactionStatus) (draw : Draw) : Tx Unit := do
  let provider ← required txCtx.provider
  PaymentRepository.createPaymentLog
    { transactionId := txCtx.id
      provider := provider
      providerRef := result.providerRef
      payload := result.rawResponse
      status := status }
    draw
  PaymentRepository.markDelivered outboxEventId draw.deliveredAt

/-- The customer id of a vaulted PayPal payment, when there is one to persist. -/
def vaultedCustomer (txCtx : TransactionContext) (result : ProviderResult) : Option String :=
  if txCtx.provider = some .paypal then
    match result.rawResponse.field "customerId" with
    | some (.string customerId) => if customerId.length > 0 then some customerId else none
    | _ => none
  else none

def settleDeposit (txCtx : TransactionContext) (outboxEventId : EventId) (result : ProviderResult)
    (draw : Draw) : Tx Unit := do
  let receiverWalletId ← required txCtx.receiverWalletId
  let availableBalanceAfter ← WalletRepository.settlePending receiverWalletId txCtx.amount
  markSettled txCtx result draw
  query (.createLedgerEntry
    { id := draw.ledgerEntryId
      walletId := receiverWalletId
      transactionId := txCtx.id
      direction := .credit
      amount := txCtx.amount
      currency := txCtx.currency
      balanceAfter := availableBalanceAfter
      createdAt := draw.createdAt })
  record txCtx outboxEventId result .settled draw
  match vaultedCustomer txCtx result with
  | some customerId => UsersRepository.upsertBraintreeCustomerId txCtx.userId customerId
  | none => pure ()

def settleWithdrawal (txCtx : TransactionContext) (outboxEventId : EventId)
    (result : ProviderResult) (draw : Draw) : Tx Unit := do
  let senderWalletId ← required txCtx.senderWalletId
  let lockedBalanceAfter ← WalletRepository.settleWithdrawal senderWalletId txCtx.amount
  markSettled txCtx result draw
  query (.createLedgerEntry
    { id := draw.ledgerEntryId
      walletId := senderWalletId
      transactionId := txCtx.id
      direction := .debit
      amount := txCtx.amount
      currency := txCtx.currency
      balanceAfter := lockedBalanceAfter
      createdAt := draw.createdAt })
  record txCtx outboxEventId result .settled draw

def failDeposit (txCtx : TransactionContext) (outboxEventId : EventId) (result : ProviderResult)
    (draw : Draw) : Tx Unit := do
  let receiverWalletId ← required txCtx.receiverWalletId
  let _ ← query (.updateWallet receiverWalletId { pending := -txCtx.amount.decimal })
  query (.updateTransaction txCtx.id { status := some .failed })
  record txCtx outboxEventId result .failed draw

def failWithdrawal (txCtx : TransactionContext) (outboxEventId : EventId) (result : ProviderResult)
    (draw : Draw) : Tx Unit := do
  let senderWalletId ← required txCtx.senderWalletId
  let _ ← query (.updateWallet senderWalletId
    { locked := -txCtx.amount.decimal, available := txCtx.amount.decimal })
  query (.updateTransaction txCtx.id { status := some .failed })
  record txCtx outboxEventId result .failed draw

def settleTx (txCtx : TransactionContext) (outboxEventId : EventId) (result : ProviderResult)
    (draw : Draw) : Tx Unit :=
  match txCtx.type with
  | .deposit => settleDeposit txCtx outboxEventId result draw
  | .withdrawal => settleWithdrawal txCtx outboxEventId result draw
  | .transfer => throw (.unprocessableEntity
      ("settle() called on unsupported transaction type: " ++ txCtx.type.name))

def failTx (txCtx : TransactionContext) (outboxEventId : EventId) (result : ProviderResult)
    (draw : Draw) : Tx Unit :=
  match txCtx.type with
  | .deposit => failDeposit txCtx outboxEventId result draw
  | .withdrawal => failWithdrawal txCtx outboxEventId result draw
  | .transfer => throw (.unprocessableEntity
      ("fail() called on unsupported transaction type: " ++ txCtx.type.name))

end PaymentSettlementService

/-- Database transactions with their arguments. No code of the repository writes
`paypalEmail`; `setPaypalEmail` stands for whoever does. -/
inductive TxCall where
  | createUserWithWallet (data : CreateUserInput) (draw : Draw)
  | deposit (userId : UserId) (dto : DepositDto) (draw : Draw)
  | withdraw (userId : UserId) (dto : WithdrawalDto) (draw : Draw)
  | transfer (userId : UserId) (dto : TransferDto) (senderWalletId receiverWalletId : WalletId)
      (draw : Draw)
  | confirmDeposit (userId : UserId) (dto : ConfirmDepositDto) (draw : Draw)
  | createPayout (userId : UserId) (dto : CreatePayoutDto) (draw : Draw)
  | settle (txCtx : TransactionContext) (outboxEventId : EventId)
      (result : ProviderResult) (draw : Draw)
  | fail (txCtx : TransactionContext) (outboxEventId : EventId)
      (result : ProviderResult) (draw : Draw)
  | markDelivered (id : EventId) (now : DateTime)
  | incrementRetry (id : EventId)
  | closeAccount (userId : UserId) (draw : Draw)
  | updateStatusOrRole (id : UserId) (status : Option AccountStatus) (role : Option Role)
  | setConnectAccountId (userId : UserId) (stripeConnectAccountId : Option String)
  | setPaypalEmail (userId : UserId) (paypalEmail : Option String)

@[reducible] def TxCall.Out : TxCall → Type
  | .createUserWithWallet .. => UserId
  | .deposit .. | .withdraw .. | .transfer .. | .confirmDeposit .. | .createPayout .. => Transaction
  | _ => Unit

def TxCall.code : (c : TxCall) → Tx c.Out
  | .createUserWithWallet data draw => AuthRepository.createUserWithWalletTx data draw
  | .deposit userId dto draw => TransactionService.depositTx userId dto draw
  | .withdraw userId dto draw => TransactionService.withdrawTx userId dto draw
  | .transfer userId dto senderWalletId receiverWalletId draw =>
    TransactionService.transferTx userId dto senderWalletId receiverWalletId draw
  | .confirmDeposit userId dto draw => PaymentService.confirmDepositTx userId dto draw
  | .createPayout userId dto draw => PaymentService.createPayoutTx userId dto draw
  | .settle txCtx outboxEventId result draw =>
    PaymentSettlementService.settleTx txCtx outboxEventId result draw
  | .fail txCtx outboxEventId result draw =>
    PaymentSettlementService.failTx txCtx outboxEventId result draw
  | .markDelivered id now => PaymentRepository.markDelivered id now
  | .incrementRetry id => PaymentRepository.incrementRetry id
  | .closeAccount userId draw => UsersRepository.closeAccount userId draw
  | .updateStatusOrRole id status role => UsersRepository.updateStatusOrRole id status role
  | .setConnectAccountId userId account =>
    StripeConnectRepository.setConnectAccountId userId account
  | .setPaypalEmail userId email => query (.updateUser userId { paypalEmail := some email })

end PaymentWallet
