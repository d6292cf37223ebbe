import PaymentWallet.Model.Transactions
import PaymentWallet.Foundation.World

/-! The services around the database transactions: idempotency lookups, the
outbox processor with its Redis lock and provider calls, and account closing.
Reads outside a transaction see the committed store; any step outside it may
fail. `system` is the whole service with any number of concurrent requests. -/
namespace PaymentWallet
open Foundation

/-- The adapters of the registry. -/
abbrev Adapter := SupportedProvider

/-- A call `provider.process(payload, type)` that returned, with the transaction
on whose behalf it was made. -/
structure ProviderCall where
  transactionId : TransactionId
  adapter : Adapter
  payload : Record
  type : TransactionType
  result : ProviderResult
deriving DecidableEq

/-- Who set the Redis key, and whether that process is still within its batch.
Redis itself stores only the key. -/
structure ProcessorLock where
  holder : Nat
  busy : Bool
deriving DecidableEq

structure Ext where
  lock : Option ProcessorLock
  calls : List ProviderCall

def Ext.idle : Ext := ⟨none, []⟩

/-- Steps outside a database transaction. -/
inductive Outside where
  | findByIdempotencyKey (idempotencyKey : String)
  | findByUserId (userId : UserId)
  | findUser (id : UserId)
  | findOutboxEvent (id : EventId)
  | findPendingProviderEvents (limit maxRetries : Nat)
  | findTransactionById (transactionId : TransactionId)
  | draw
  | process (transactionId : TransactionId) (adapter : Adapter) (payload : Record)
      (type : TransactionType)
  | setLock
  | delLock
  | revokeToken

@[reducible] def Outside.Reply : Outside → Type
  | .findByIdempotencyKey _ => Option Transaction
  | .findByUserId _ => Option WalletId
  | .findUser _ => Option User
  | .findOutboxEvent _ => Option OutboxEvent
  | .findPendingProviderEvents .. => List OutboxEvent
  | .findTransactionById _ => Option SelectedTransaction
  | .draw => Draw
  | .process .. => ProviderResult
  | .setLock => Bool
  | .delLock | .revokeToken => Unit

def OutboxEvent.selectable (maxRetries : Nat) (event : OutboxEvent) : Bool :=
  event.deliveredAt.isNone && event.retryCount < maxRetries && event.eventType ≠ .transferSettled

/-- A page of pending events: oldest first, ties in any order. -/
def PendingEvents (d : DB) (limit maxRetries : Nat) (events : List OutboxEvent) : Prop :=
  ∃ ordered : List OutboxEvent,
    ordered.Perm (d.outboxEvents.rows.filter (·.selectable maxRetries)) ∧
    ordered.Pairwise (·.createdAt ≤ ·.createdAt) ∧ events = ordered.take limit

/-- The reply of a read: what the store holds, or a broken connection. -/
def Reads (reply : Except Exception α) (value : α) : Prop :=
  reply = .ok value ∨ reply = .error .connectionLost

/-- A failed `DEL` ends the batch of its sender all the same. -/
def Ext.leave (pid : Nat) (ext : Ext) : Ext :=
  { ext with lock := ext.lock.map fun lock =>
    if lock.holder = pid then { lock with busy := false } else lock }

/-- `SET NX EX` on the lock key. When the reply is lost the key may be set all the same. -/
inductive SetLock (pid : Nat) (ext : Ext) : Except Exception Bool → Ext → Prop where
  | acquired : ext.lock = none → SetLock pid ext (.ok true) { ext with lock := some ⟨pid, true⟩ }
  | taken : ext.lock = some lock → SetLock pid ext (.ok false) ext
  | failed : SetLock pid ext (.error .connectionLost) ext
  | unheard : ext.lock = none →
      SetLock pid ext (.error .connectionLost) { ext with lock := some ⟨pid, false⟩ }

/-- `DEL` removes the key whoever set it. -/
inductive DelLock (pid : Nat) (ext : Ext) : Except Exception Unit → Ext → Prop where
  | deleted : DelLock pid ext (.ok ()) { ext with lock := none }
  | unheard : DelLock pid ext (.error .connectionLost) { ext with lock := none }
  | failed : DelLock pid ext (.error .connectionLost) (ext.leave pid)

/-- A provider call returns any result, which counts as made, or throws. -/
inductive Process (call : ProviderResult → ProviderCall) (ext : Ext) :
    Except Exception ProviderResult → Ext → Prop where
  | returned : Process call ext (.ok result) { ext with calls := ext.calls ++ [call result] }
  | threw : Process call ext (.error error) ext

def Outside.Answers (pid : Nat) :
    (x : Outside) → DB → Ext → Except Exception x.Reply → Ext → Prop
  | .findByIdempotencyKey key, d, ext, reply, ext' =>
    ext' = ext ∧ Reads reply (d.transactions.rows.find? fun row => row.idempotencyKey = key)
  | .findByUserId userId, d, ext, reply, ext' =>
    ext' = ext ∧ Reads reply ((d.wallets.rows.find? fun row => row.userId = userId).map (·.id))
  | .findUser id, d, ext, reply, ext' => ext' = ext ∧ Reads reply (d.users.get? id)
  | .findOutboxEvent id, d, ext, reply, ext' => ext' = ext ∧ Reads reply (d.outboxEvents.get? id)
  | .findPendingProviderEvents limit maxRetries, d, ext, reply, ext' =>
    ext' = ext ∧ ∃ events, PendingEvents d limit maxRetries events ∧ Reads reply events
  | .findTransactionById id, d, ext, reply, ext' =>
    ext' = ext ∧ Reads reply ((d.transactions.get? id).map (·.selected))
  | .draw, _, ext, reply, ext' => ext' = ext ∧ ∃ draw, reply = .ok draw
  | .process id adapter payload type, _, ext, reply, ext' =>
    Process (fun result => ⟨id, adapter, payload, type, result⟩) ext reply ext'
  | .setLock, _, ext, reply, ext' => SetLock pid ext reply ext'
  | .delLock, _, ext, reply, ext' => DelLock pid ext reply ext'
  | .revokeToken, _, ext, reply, ext' => ext' = ext ∧ Reads reply ()

/-- A service method. -/
abbrev Svc (α : Type) := Service TxCall Outside TxCall.Out Outside.Reply Exception α

def transact (c : TxCall) : Svc c.Out := Service.transact c

def outside (x : Outside) : Svc x.Reply := Service.outside x

structure TransactionResult where
  id : TransactionId
  idempotencyKey : String
  type : TransactionType
  status : TransactionStatus
  amount : Amount
  currency : Currency
  description : Option String
  createdAt : DateTime
  settledAt : Option DateTime
deriving DecidableEq

structure MutationResult where
  data : TransactionResult
  replayed : Bool
deriving DecidableEq

structure PaymentResponse where
  transactionId : TransactionId
  status : TransactionStatus
deriving DecidableEq

namespace TransactionService

def toResult (transaction : Transaction) : TransactionResult where
  id := transaction.id
  idempotencyKey := transaction.idempotencyKey
  type := transaction.type
  status := transaction.status
  amount := transaction.amount
  currency := transaction.currency
  description := transaction.description
  createdAt := transaction.createdAt
  settledAt := transaction.settledAt

def deposit (userId : UserId) (dto : DepositDto) : Svc MutationResult := do
  match ← outside (.findByIdempotencyKey dto.idempotencyKey) with
  | some existing => return ⟨toResult existing, true⟩
  | none =>
    let draw ← outside .draw
    let result ← transact (.deposit userId dto draw)
    return ⟨toResult result, false⟩

def withdraw (userId : UserId) (dto : WithdrawalDto) : Svc MutationResult := do
  match ← outside (.findByIdempotencyKey dto.idempotencyKey) with
  | some existing => return ⟨toResult existing, true⟩
  | none =>
    let draw ← outside .draw
    let result ← transact (.withdraw userId dto draw)
    return ⟨toResult result, false⟩

def transfer (userId : UserId) (dto : TransferDto) : Svc MutationResult := do
  if userId = dto.recipientUserId then
    throw (.badRequest "Cannot transfer to yourself.")
  else
    match ← outside (.findByIdempotencyKey dto.idempotencyKey) with
    | some existing => return ⟨toResult existing, true⟩
    | none =>
      let senderWallet ← outside (.findByUserId userId)
      let receiverWallet ← outside (.findByUserId dto.recipientUserId)
      match senderWallet, receiverWallet with
      | none, _ => throw (.forbidden "Sender wallet not found")
      | some _, none => throw (.forbidden "Recipient wallet not found")
      | some senderWalletId, some receiverWalletId =>
        let draw ← outside .draw
        let result ← transact (.transfer userId dto senderWalletId receiverWalletId draw)
        return ⟨toResult result, false⟩

end TransactionService

namespace PaymentService

def confirmDeposit (userId : UserId) (dto : ConfirmDepositDto) : Svc PaymentResponse := do
  match ← outside (.findByIdempotencyKey dto.idempotencyKey) with
  | some existing => return ⟨existing.id, existing.status⟩
  | none =>
    let draw ← outside .draw
    let result ← transact (.confirmDeposit userId dto draw)
    return ⟨result.id, result.status⟩

def createPayout (userId : UserId) (dto : CreatePayoutDto) : Svc PaymentResponse := do
  match ← outside (.findByIdempotencyKey dto.idempotencyKey) with
  | some existing => return ⟨existing.id, existing.status⟩
  | none =>
    let draw ← outside .draw
    let result ← transact (.createPayout userId dto draw)
    return ⟨result.id, result.status⟩

end PaymentService

/-- INTERNAL has no adapter. -/
def PaymentProviderRegistry.resolve : Provider → Except Exception Adapter
  | .stripe => .ok .stripe
  | .paypal => .ok .paypal
  | .internal => .error (.error ("No payment provider adapter registered for provider \"" ++
      Provider.internal.name ++ "\". Register it in PaymentProviderRegistry."))

namespace PaymentProcessorService

def settle (txCtx : TransactionContext) (outboxEventId : EventId) (result : ProviderResult) :
    Svc Unit := do
  let draw ← outside .draw
  transact (.settle txCtx outboxEventId result draw)

def fail (txCtx : TransactionContext) (outboxEventId : EventId) (result : ProviderResult) :
    Svc Unit := do
  let draw ← outside .draw
  transact (.fail txCtx outboxEventId result draw)

def markDelivered (id : EventId) : Svc Unit := do
  let draw ← outside .draw
  transact (.markDelivered id draw.deliveredAt)

/-- `typeof userId !== 'string' || userId.length === 0` gives none. -/
def payloadUserId (payload : Record) : Option UserId :=
  match payload.field "userId" with
  | some (.string userId) => if userId.length = 0 then none else some userId
  | _ => none

/-- The branches on the provider's result. -/
def dispatch (event : OutboxEvent) (txCtx : TransactionContext)
    (result : ProviderResult) : Svc Unit :=
  if result.requiresWebhook && result.success then markDelivered event.id
  else if result.requiresWebhook && !result.success then fail txCtx event.id result
  else if result.success then settle txCtx event.id result
  else fail txCtx event.id result

/-- The `try` block of `processEvent`. -/
def attempt (event : OutboxEvent) : Svc Unit :=
  match payloadUserId event.payload with
  | none => transact (.incrementRetry event.id)
  | some userId => do
    match ← outside (.findTransactionById event.transactionId) with
    | none => transact (.incrementRetry event.id)
    | some transaction =>
      match transaction.provider with
      | none => transact (.incrementRetry event.id)
      | some provider => do
        let txCtx : TransactionContext := { transaction with userId := userId }
        let adapter ← Service.resume (PaymentProviderRegistry.resolve provider)
        let result ← outside (.process transaction.id adapter event.payload transaction.type)
        dispatch event txCtx result

def processEvent (event : OutboxEvent) : Svc Unit :=
  tryCatch (attempt event) fun _ => transact (.incrementRetry event.id)

def processEvents : List OutboxEvent → Svc Unit
  | [] => pure ()
  | event :: events => do
    processEvent event
    processEvents events

def processBatch : Svc Unit := do
  let events ← outside (.findPendingProviderEvents 100 5)
  processEvents events

/-- Cron job. The batch's exceptions are logged, so the `finally` is a sequel. -/
def processOutbox : Svc Unit := do
  let acquired ← outside .setLock
  if acquired then
    tryCatch processBatch fun _ => pure ()
    outside .delLock
  else pure ()

end PaymentProcessorService

namespace AuthRepository

/-- Which of the two unique columns of a new user was taken. -/
def conflictField (target : String) : String := if target = "phone" then "Phone number" else "Email"

def createUserWithWallet (data : CreateUserInput) : Svc UserId :=
  tryCatch (do
    let draw ← outside .draw
    transact (.createUserWithWallet data draw)) fun error =>
    match error with
    | .uniqueViolation target => throw (.conflict (conflictField target ++ " already in use"))
    | error => throw error

end AuthRepository

namespace UsersService

def closeUser (userId : UserId) : Svc Unit := do
  let draw ← outside .draw
  transact (.closeAccount userId draw)

def closeAccount (userId : UserId) : Svc Unit := do
  match ← outside (.findUser userId) with
  | none => throw (.notFound "User not found")
  | some _ =>
    closeUser userId
    outside .revokeToken

def updateUserStatus (requesterId targetId : UserId) (status : Option AccountStatus)
    (role : Option Role) : Svc (Option User) := do
  if status.isNone && role.isNone then
    throw (.badRequest "At least one field (status or role) must be provided")
  else if requesterId = targetId then
    throw (.forbidden "Administrators cannot modify their own account via this endpoint")
  else
    match ← outside (.findUser targetId) with
    | none => throw (.notFound "User not found")
    | some _ =>
      if status = some .closed then closeUser targetId
      else transact (.updateStatusOrRole targetId status role)
      outside (.findUser targetId)

end UsersService

/-- What clients, the scheduler, Stripe's webhooks and operators ask for.
`processEvent` processes one event again, as a worker does that still holds it
from an earlier page. -/
inductive Request where
  | register (data : CreateUserInput)
  | deposit (userId : UserId) (dto : DepositDto)
  | withdraw (userId : UserId) (dto : WithdrawalDto)
  | transfer (userId : UserId) (dto : TransferDto)
  | confirmDeposit (userId : UserId) (dto : ConfirmDepositDto)
  | createPayout (userId : UserId) (dto : CreatePayoutDto)
  | processOutbox
  | processEvent (id : EventId)
  | closeAccount (userId : UserId)
  | updateUserStatus (requesterId targetId : UserId)
      (status : Option AccountStatus) (role : Option Role)
  | setConnectAccountId (userId : UserId) (stripeConnectAccountId : Option String)
  | setPaypalEmail (userId : UserId) (paypalEmail : Option String)
deriving DecidableEq

inductive Response where
  | registered (id : UserId)
  | mutation (result : MutationResult)
  | payment (response : PaymentResponse)
  | user (user : Option User)
  | done
deriving DecidableEq

def Request.handler : Request → Svc Response
  | .register data => return .registered (← AuthRepository.createUserWithWallet data)
  | .deposit userId dto => return .mutation (← TransactionService.deposit userId dto)
  | .withdraw userId dto => return .mutation (← TransactionService.withdraw userId dto)
  | .transfer userId dto => return .mutation (← TransactionService.transfer userId dto)
  | .confirmDeposit userId dto => return .payment (← PaymentService.confirmDeposit userId dto)
  | .createPayout userId dto => return .payment (← PaymentService.createPayout userId dto)
  | .processOutbox => do
    PaymentProcessorService.processOutbox
    return .done
  | .processEvent id => do
    match ← outside (.findOutboxEvent id) with
    | none => return .done
    | some event =>
      PaymentProcessorService.processEvent event
      return .done
  | .closeAccount userId => do
    UsersService.closeAccount userId
    return .done
  | .updateUserStatus requesterId targetId status role =>
    return .user (← UsersService.updateUserStatus requesterId targetId status role)
  | .setConnectAccountId userId account => do
    transact (.setConnectAccountId userId account)
    return .done
  | .setPaypalEmail userId email => do
    transact (.setPaypalEmail userId email)
    return .done

/-- The lock key expires by itself, also under a working holder. -/
inductive Expire (ext : Ext) : Ext → Prop where
  | lock : ext.lock = some lock → Expire ext { ext with lock := none }

def system : System DB Write Statement Statement.Reply LockKey Exception TxCall TxCall.Out Outside
    Outside.Reply Ext Request Response where
  engine := postgres
  code := TxCall.code
  outside := fun pid x d ext reply ext' => x.Answers pid d ext reply ext'
  drift := Expire
  handler := Request.handler
  lost := .connectionLost

abbrev State := World DB Write Statement Statement.Reply LockKey Exception TxCall TxCall.Out Outside
  Outside.Reply Ext Request Response

abbrev SharedState := Shared DB TxCall Ext

abbrev Permit := SharedState → Label TxCall Outside Request Exception → Prop

/-- No restriction on the runs. -/
def anything : Permit := fun _ _ => True

/-- Runs from an empty database, with no restriction. -/
def Reachable (w : State) : Prop := system.Reaches anything (World.init DB.empty Ext.idle) w

end PaymentWallet
