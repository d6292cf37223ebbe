import PaymentWallet.Foundation.Outcomes
import PaymentWallet.Concurrency.Movements
import PaymentWallet.Service.Requests

/-! What the services refuse, and how a failed request is answered. The filter keeps the status
and the message of an HTTP exception, translates what Prisma reports about rows, and covers up
everything else. -/
namespace PaymentWallet
open Foundation

/-- `string | string[]`. -/
inductive Message where
  | one (text : String)
  | many (texts : List String)
deriving DecidableEq

/-- `getResponse()` of an `HttpException`. -/
inductive HttpBody where
  | text (body : String)
  | object (message : Option Message) (error : Option String)

structure HttpException where
  status : Nat
  body : HttpBody
  message : String

/-- `meta.target` of a Prisma error. -/
inductive Target where
  | undefined
  | text (field : String)
  | fields (names : List String)

/-- What a handler throws, as far as the filter tells it apart. -/
inductive Caught where
  | http (exception : HttpException)
  | prismaKnown (code : String) (target : Target)
  | prismaValidation
  | other

structure StandardErrorResponse where
  statusCode : Nat
  message : Message
  error : String
  path : String
  timestamp : DateTime
deriving DecidableEq

namespace HttpExceptionFilter

def statusName (status : Nat) : String :=
  match status with
  | 400 => "Bad Request"
  | 401 => "Unauthorized"
  | 403 => "Forbidden"
  | 404 => "Not Found"
  | 409 => "Conflict"
  | 422 => "Unprocessable Entity"
  | 429 => "Too Many Requests"
  | 500 => "Internal Server Error"
  | 503 => "Service Unavailable"
  | _ => if status ≥ 500 then "Internal Server Error" else "Error"

def unpackHttpExceptionBody (body : HttpBody) (exception : HttpException) (status : Nat) :
    Message × String :=
  match body with
  | .text body => (.one body, statusName status)
  | .object message error => (message.getD (.one exception.message), error.getD (statusName status))

/-- An empty target reads as none. -/
def targetText : Target → Option String
  | .undefined => none
  | .text field => truthy (some field)
  | .fields names => truthy (some (", ".intercalate names))

def mapPrismaKnownError (code : String) (target : Target) (path : String) (timestamp : DateTime) :
    StandardErrorResponse :=
  match code with
  | "P2002" =>
    { statusCode := 409
      message := .one (match targetText target with
        | some text => "A user with this " ++ text ++ " already exists"
        | none => "A user with these unique values already exists")
      error := "Conflict"
      path := path
      timestamp := timestamp }
  | "P2025" => ⟨404, .one "The requested record was not found", "Not Found", path, timestamp⟩
  | "P2003" => ⟨400, .one "Referenced record does not exist", "Bad Request", path, timestamp⟩
  | "P2014" =>
    ⟨400, .one "Operation would violate a required relation", "Bad Request", path, timestamp⟩
  | _ => ⟨500, .one "A database error occurred", "Internal Server Error", path, timestamp⟩

def toStandardError (exception : Caught) (path : String) (timestamp : DateTime) :
    StandardErrorResponse :=
  match exception with
  | .http exception =>
    let (message, errorName) := unpackHttpExceptionBody exception.body exception exception.status
    ⟨exception.status, message, errorName, path, timestamp⟩
  | .prismaKnown code target => mapPrismaKnownError code target path timestamp
  | .prismaValidation => ⟨400, .one "Invalid query parameters", "Bad Request", path, timestamp⟩
  | .other => ⟨500, .one "Internal server error", "Internal Server Error", path, timestamp⟩

end HttpExceptionFilter

/-- Nest's exceptions with a message. -/
def HttpException.named (status : Nat) (error message : String) : HttpException :=
  ⟨status, .object (some (.one message)) (some error), message⟩

/-- Codes that the filter has a text of its own for. -/
def mappedCodes : List String := ["P2002", "P2025", "P2003", "P2014"]

/-- How an exception of the services reaches the filter. A broken connection and a number that is
out of range are reported under other codes, or as errors without one. -/
inductive Exception.Surfaces : Exception → Caught → Prop where
  | badRequest : Surfaces (.badRequest message) (.http (.named 400 "Bad Request" message))
  | unauthorized : Surfaces (.unauthorized message) (.http (.named 401 "Unauthorized" message))
  | forbidden : Surfaces (.forbidden message) (.http (.named 403 "Forbidden" message))
  | notFound : Surfaces (.notFound message) (.http (.named 404 "Not Found" message))
  | conflict : Surfaces (.conflict message) (.http (.named 409 "Conflict" message))
  | unprocessableEntity :
      Surfaces (.unprocessableEntity message) (.http (.named 422 "Unprocessable Entity" message))
  | badGateway : Surfaces (.badGateway message) (.http (.named 502 "Bad Gateway" message))
  | serviceUnavailable :
      Surfaces (.serviceUnavailable message) (.http (.named 503 "Service Unavailable" message))
  | uniqueViolation : Surfaces (.uniqueViolation column) (.prismaKnown "P2002" target)
  | recordNotFound : Surfaces .recordNotFound (.prismaKnown "P2025" target)
  | numericOverflow : code ∉ mappedCodes → Surfaces .numericOverflow (.prismaKnown code target)
  | overflowUnknown : Surfaces .numericOverflow .other
  | error : Surfaces (.error message) .other
  | connectionLost : code ∉ mappedCodes → Surfaces .connectionLost (.prismaKnown code target)
  | connectionUnknown : Surfaces .connectionLost .other

/-- What the services refuse with words of their own. -/
inductive Refusal : Exception → Prop where
  | wallet : Refusal (.forbidden "Wallet not found")
  | walletMissing : Refusal (.notFound "Wallet not found")
  | sender : Refusal (.forbidden "Sender wallet not found")
  | recipient : Refusal (.forbidden "Recipient wallet not found")
  | self : Refusal (.badRequest "Cannot transfer to yourself.")
  | status (status : AccountStatus) :
      Refusal (.forbidden ("Wallet is " ++ status.lower ++ ". Contact support."))
  | currency (held asked : Currency) :
      Refusal (.forbidden ("Currency mismatch: wallet is " ++ held.name ++
      ", transaction is " ++ asked.name ++ "."))
  | balance : Refusal (.unprocessableEntity "Insufficient balance.")
  | stripe : Refusal (.badRequest ("No Stripe Connect account linked. " ++
      "Complete Strip Connect account onboarding before initiating a Stripe payout."))
  | paypal : Refusal (.badRequest ("No PayPalEmail configured. " ++
      "Complete PayPalEmail linking before initiating a PayPal payout."))
  | taken (target : String) :
      Refusal (.conflict (AuthRepository.conflictField target ++ " already in use"))
  | user : Refusal (.notFound "User not found")
  | funds : Refusal (.conflict ("Account cannot be closed while funds remain. " ++
      "Please withdraw all funds before closing your account."))
  | fields : Refusal (.badRequest "At least one field (status or role) must be provided")
  | administrator : Refusal
      (.forbidden "Administrators cannot modify their own account via this endpoint")

/-- What Postgres and Prisma report, and errors that nobody raises on purpose. -/
inductive Fault : Exception → Prop where
  | uniqueViolation (target : String) : Fault (.uniqueViolation target)
  | recordNotFound : Fault .recordNotFound
  | numericOverflow : Fault .numericOverflow
  | error (message : String) : Fault (.error message)
  | connectionLost : Fault .connectionLost

def Exception.Known (error : Exception) : Prop := Refusal error ∨ Fault error

/-- What the operations of a request can reply; settlement and the providers may say anything. -/
def Expected : (op : ServiceOp TxCall Outside) →
    Except Exception (op.Result TxCall.Out Outside.Reply) → Prop
  | _, .ok _ => True
  | .outside (.process ..), .error _ => True
  | .outside _, .error error => error = .connectionLost
  | .transact (.settle ..), .error _ | .transact (.fail ..), .error _ => True
  | .transact _, .error error => error.Known

/-- Transactions that refuse and fail as they are known to. -/
def TxCall.ordinary : TxCall → Bool
  | .settle .. | .fail .. => false
  | _ => true

theorem expected_known {c : TxCall} {error : Exception} (ordinary : c.ordinary) :
    Expected (.transact c) (.error error) ↔ error.Known := by
  cases c with
  | settle | fail => cases ordinary
  | _ => rfl

theorem expected_any {c : TxCall} {error : Exception} (special : ¬ c.ordinary) :
    Expected (.transact c) (.error error) := by
  cases c with
  | settle | fail => trivial
  | _ => exact absurd rfl special

section Statements

theorem insertRow_fault {R K I α : Type} {key : R → K} [DecidableEq K]
    [DecidableEq I] {t : Table R K key}
    {index : R → List I} {row : R} {target : I → String} {reply : α}
    {write : Write} {error : Exception}
    (failed : insertRow t index row target reply write = .error error) : Fault error := by
  unfold insertRow at failed
  split at failed
  · cases failed
    exact .uniqueViolation _
  · split at failed <;> cases failed
    exact .uniqueViolation _

theorem updateRow_fault {R K : Type} {key : R → K} [DecidableEq K] {t : Table R K key} {k : K}
    {f : R → R} {write : R → Write}
    {error : Exception} (failed : updateRow t k f write = .error error) : Fault error := by
  unfold updateRow at failed
  split at failed <;> cases failed
  exact .recordNotFound

theorem updateUserRow_fault {d : DB} {id : UserId} {f : User → User} {error : Exception}
    (failed : updateUserRow d id f = .error error) : Fault error := by
  unfold updateUserRow at failed
  split at failed
  · cases failed
    exact .recordNotFound
  · split at failed <;> cases failed
    exact .uniqueViolation _

/-- A statement fails as the database reports it. -/
theorem exec_fault {s : Statement} {d : DB} {error : Exception} (failed : s.exec d = .error error) :
    Fault error := by
  cases s with
  | findByUserId | findConnectAccount | findPaypalEmail | findBalances | lockWallet
    | revokeRefreshTokens => cases failed
  | updateWallet =>
    simp only [Statement.exec] at failed
    split at failed
    · cases failed
      exact .recordNotFound
    · split at failed <;> cases failed
      exact .numericOverflow
  | createTransaction | createLedgerEntry =>
    simp only [Statement.exec] at failed
    split at failed
    · exact insertRow_fault failed
    · cases failed
      exact .numericOverflow
  | createPaymentLog | createOutboxEvent | createUser | createWallet =>
    simp only [Statement.exec] at failed
    exact insertRow_fault failed
  | updateTransaction | markDelivered | incrementRetry => exact updateRow_fault failed
  | upsertBraintreeCustomerId =>
    simp only [Statement.exec] at failed
    split at failed
    · cases failed
    · exact updateUserRow_fault failed
  | updateUser => exact updateUserRow_fault failed

end Statements

/-- A body that raises only what is known, whatever its statements reply. -/
abbrev Orderly (p : Tx α) : Prop := p.Throws (fun _ _ => True) Exception.Known

section Bodies
variable {userId : UserId} {draw : Draw}

theorem query_orderly (s : Statement) : Orderly (query s) := fun _ _ => trivial

theorem required_orderly (value : Option α) : Orderly (required value) := by
  cases value with
  | none => exact .inr (.error _)
  | some value => trivial

theorem guard_orderly {p : Prop} [Decidable p] {error : Exception} (refusal : Refusal error) :
    Orderly (if p then .throw error else .pure () : Tx Unit) := by
  split
  · exact .inl refusal
  · trivial

theorem lockWallet_orderly {id : WalletId} : Orderly (WalletRepository.lockWallet id) := by
  refine .bind (query_orderly _) fun row => ?_
  cases row with
  | none => exact .inl .walletMissing
  | some row => trivial

theorem findByUserId_orderly {f : Option WalletId → Tx α} (none : Orderly (f none))
    (some : ∀ id, Orderly (f (some id))) :
    Orderly ((WalletRepository.findByUserId userId).bind f) := by
  refine .bind (query_orderly _) fun id => ?_
  cases id with
  | none => exact none
  | some id => exact some id

theorem updateWallet_orderly {id : WalletId} {change : BalanceChange} {f : Wallet → α} :
    Orderly ((query (.updateWallet id change)).bind fun row => .pure (f row)) :=
  .bind (query_orderly _) fun _ => trivial

/-- The lock and the checks that the initiations from the user's own wallet share. -/
theorem locked_orderly {f : Wallet → Tx α} {id : WalletId} {currency : Currency}
    (rest : ∀ wallet, Orderly (f wallet)) :
    Orderly ((WalletRepository.lockWallet id).bind fun locked =>
      (WalletRepository.assertActive locked).bind fun _ =>
        (WalletRepository.assertCurrencyMatch locked currency).bind fun _ => f locked) :=
  .bind lockWallet_orderly fun _ => .bind (guard_orderly (.status _)) fun _ =>
    .bind (guard_orderly (.currency _ _)) fun _ => rest _

theorem initiateDeposit_orderly {input : CreateTransactionInput}
    {after : Decimal} {payload : Record} :
    Orderly (TransactionRepository.initiateDeposit input after payload draw) :=
  .bind (query_orderly _) fun _ => .bind (required_orderly _) fun _ =>
    .bind (query_orderly _) fun _ =>
    .bind (query_orderly _) fun _ => trivial

theorem initiateWithdrawal_orderly {input : CreateTransactionInput}
    {after : Decimal} {payload : Record} :
    Orderly (TransactionRepository.initiateWithdrawal input after payload draw) :=
  .bind (query_orderly _) fun _ => .bind (required_orderly _) fun _ =>
    .bind (query_orderly _) fun _ =>
    .bind (query_orderly _) fun _ => trivial

theorem executeTransfer_orderly {input : CreateTransactionInput}
    {sent received : Decimal} {payload : Record} :
    Orderly (TransactionRepository.executeTransfer input sent received payload draw) :=
  .bind (query_orderly _) fun _ => .bind (required_orderly _) fun _ =>
    .bind (query_orderly _) fun _ =>
    .bind (required_orderly _) fun _ => .bind (query_orderly _) fun _ =>
      .bind (query_orderly _) fun _ => trivial

theorem payoutFields_orderly {provider : SupportedProvider} :
    Orderly (PaymentService.payoutFields userId provider) := by
  cases provider with
  | stripe =>
    refine .bind (.bind (query_orderly _) fun account => ?_) fun _ => trivial
    split
    · exact .inl .stripe
    · trivial
  | paypal =>
    refine .bind (.bind (query_orderly _) fun user => ?_) fun _ => trivial
    split
    · exact .inr (.error _)
    · split
      · exact .inl .paypal
      · trivial

theorem createPayoutTx_orderly {dto : CreatePayoutDto} :
    Orderly (PaymentService.createPayoutTx userId dto draw) := by
  refine findByUserId_orderly (.inl .walletMissing) fun _ => locked_orderly fun locked => ?_
  split
  · exact .inl .balance
  · exact .bind updateWallet_orderly fun _ => .bind payoutFields_orderly fun _ =>
      .bind (query_orderly _) fun _ => .bind (query_orderly _) fun _ => trivial

theorem closeAccount_orderly : Orderly (UsersRepository.closeAccount userId draw) := by
  refine .bind (query_orderly _) fun balances => ?_
  have closes : Orderly ((query (.updateUser userId { status := some .closed })).bind fun _ =>
      query (.revokeRefreshTokens userId draw.revokedAt)) := .bind (query_orderly _) fun _ =>
        query_orderly _
  cases balances with
  | none => exact closes
  | some wallet =>
    dsimp only
    split
    · exact .inl .funds
    · exact closes

theorem TxCall.orderly {c : TxCall} (ordinary : c.ordinary) : Orderly c.code := by
  cases c with
  | createUserWithWallet =>
    exact .bind (query_orderly _) fun _ => .bind (query_orderly _) fun _ => trivial
  | deposit =>
    exact findByUserId_orderly (.inl .wallet) fun _ => locked_orderly fun _ =>
      .bind updateWallet_orderly fun _ => initiateDeposit_orderly
  | withdraw =>
    exact findByUserId_orderly (.inl .wallet) fun _ => locked_orderly fun _ =>
        .bind (guard_orderly .balance) fun _ =>
      .bind updateWallet_orderly fun _ => initiateWithdrawal_orderly
  | transfer =>
    exact .bind lockWallet_orderly fun _ => .bind lockWallet_orderly fun _ =>
        .bind (guard_orderly (.status _)) fun _ =>
      .bind (guard_orderly (.status _)) fun _ => .bind (guard_orderly (.currency _ _)) fun _ =>
      .bind (guard_orderly (.currency _ _)) fun _ => .bind (guard_orderly .balance) fun _ =>
        .bind updateWallet_orderly fun _ =>
      .bind updateWallet_orderly fun _ => executeTransfer_orderly
  | confirmDeposit =>
    exact findByUserId_orderly (.inl .walletMissing) fun _ => locked_orderly fun _ =>
        .bind updateWallet_orderly fun _ =>
      .bind (query_orderly _) fun _ => .bind (query_orderly _) fun _ => trivial
  | createPayout => exact createPayoutTx_orderly
  | closeAccount => exact closeAccount_orderly
  | settle | fail => cases ordinary
  | markDelivered | incrementRetry | updateStatusOrRole | setConnectAccountId | setPaypalEmail =>
    exact query_orderly _

end Bodies
/-- What people ask for over HTTP. -/
def Request.client : Request → Bool
  | .register _ | .deposit .. | .withdraw .. | .transfer .. | .confirmDeposit ..
  | .createPayout .. | .closeAccount _
  | .updateUserStatus .. => true
  | _ => false

theorem system_expects : system.Expects Expected where
  outside := by
    intro pid x d ext reply ext' answers
    cases reply with
    | ok value => trivial
    | error error =>
      cases x with
      | process => trivial
      | findPendingProviderEvents =>
        obtain ⟨_, _, _, read | lost⟩ := answers
        · cases read
        · exact Except.error.inj lost
      | draw =>
        obtain ⟨_, _, read⟩ := answers
        cases read
      | setLock => cases answers <;> rfl
      | delLock => cases answers <;> rfl
      | findByIdempotencyKey | findByUserId | findUser | findOutboxEvent
          | findTransactionById | revokeToken =>
        obtain ⟨_, read | lost⟩ := answers
        · cases read
        · exact Except.error.inj lost
  value _ _ := trivial
  lost c := by
    by_cases ordinary : c.ordinary
    · exact (expected_known ordinary).mpr (.inr .connectionLost)
    · exact expected_any ordinary
  fails := by
    intro c s d error failed
    by_cases ordinary : c.ordinary
    · exact (expected_known ordinary).mpr (.inr (exec_fault failed))
    · exact expected_any ordinary
  throws := by
    intro c
    by_cases ordinary : c.ordinary
    · exact (TxCall.orderly ordinary).mono fun _ known => (expected_known ordinary).mpr known
    · exact (Program.throws_trivial _).mono fun _ _ => expected_any ordinary

/-- A request that fails in known ways, and after a commit only by losing the connection. -/
structure Handled (p : Svc α) : Prop where
  throws : p.Throws Expected Exception.Known
  final : Service.Final Expected .connectionLost p

namespace Handled
variable {userId : UserId}

theorem pure (value : α) : Handled (.pure value : Svc α) := ⟨trivial, trivial⟩

theorem throw {error : Exception} (known : error.Known) :
    Handled (.throw error : Svc α) := ⟨known, trivial⟩

theorem lost_of_read {x : Outside} {error : Exception} (reads : x.reads)
    (reply : Expected (.outside x) (.error error)) :
    error = .connectionLost := by
  cases x with
  | process | setLock | delLock => cases reads
  | _ => exact reply

theorem read_lost {x : Outside} (reads : x.reads) :
    (outside x).Throws Expected (· = .connectionLost) := by
  intro reply known
  cases reply with
  | ok value => trivial
  | error error => exact lost_of_read reads known

theorem read {x : Outside} (reads : x.reads) : Handled (outside x) where
  throws := (read_lost reads).mono fun _ same => .inr (same ▸ .connectionLost)
  final := by
    constructor
    · exact fun _ committed => committed.elim
    · intro reply known
      cases reply <;> trivial

/-- A read before the rest. -/
theorem after {x : Outside} (reads : x.reads) {f : x.Reply → Svc α}
    (rest : ∀ value, Handled (f value)) :
    Handled ((outside x).bind f) where
  throws := (read reads).throws.bind fun value => (rest value).throws
  final := .after (all_outside.mpr fun _ committed => committed) fun value => (rest value).final

theorem transact {c : TxCall} (ordinary : c.ordinary) : Handled (transact c) where
  throws := by
    intro reply known
    cases reply with
    | ok value => trivial
    | error error => exact (expected_known ordinary).mp known
  final := Service.final_transact c

/-- What comes after a commit can only lose the connection. -/
theorem bind {p : Svc α} {f : α → Svc β} (handled : Handled p)
    (rest : ∀ value, (f value).Throws Expected (· = .connectionLost))
    (still : ∀ value, Service.Final Expected .connectionLost (f value)) : Handled (p.bind f) where
  throws := handled.throws.bind fun value => (rest value).mono fun _ same =>
    .inr (same ▸ .connectionLost)
  final := handled.final.bind rest still

theorem map {p : Svc α} {f : α → β} (handled : Handled p) :
    Handled (p.bind fun value => .pure (f value)) :=
  handled.bind (fun _ => trivial) fun _ => trivial

theorem initiate {c : Draw → TxCall} {done : (draw : Draw) → (c draw).Out → α}
    (ordinary : ∀ draw, (c draw).ordinary) :
    Handled ((outside .draw).bind fun draw =>
      (PaymentWallet.transact (c draw)).bind fun out => (.pure (done draw out) : Svc α)) :=
  after rfl fun draw => (transact (ordinary draw)).map

theorem lookup {key : String} {p : Option Transaction → Svc α} (replays : ∀ t, Handled (p (some t)))
    (initiates : Handled (p none)) :
    Handled ((outside (.findByIdempotencyKey key)).bind p) := by
  apply after rfl
  intro existing
  cases existing with
  | none => exact initiates
  | some t => exact replays t

theorem transfer {dto : TransferDto} : Handled (TransactionService.transfer userId dto) := by
  unfold TransactionService.transfer
  split
  · exact throw (.inl .self)
  refine lookup (fun t => pure _) ?_
  refine after rfl fun sender => after rfl fun receiver => ?_
  cases sender with
  | none => exact throw (.inl .sender)
  | some sender =>
    cases receiver with
    | none => exact throw (.inl .recipient)
    | some receiver => exact initiate fun _ => rfl

/-- A taken email or phone number is reported as such, everything else as it is. -/
theorem createUserWithWallet {data : CreateUserInput} :
    Handled (AuthRepository.createUserWithWallet data) := by
  have body : Handled ((outside .draw).bind fun draw =>
    PaymentWallet.transact (.createUserWithWallet data draw)) :=
    after rfl fun _ => transact rfl
  constructor
  · refine body.throws.handle fun error known => ?_
    cases error with
    | uniqueViolation target => exact .inl (.taken target)
    | _ => exact known
  · refine body.final.handle rfl fun error => ?_
    cases error <;> trivial

theorem closeUser : Handled (UsersService.closeUser userId) := after rfl fun _ => transact rfl

theorem closeAccount : Handled (UsersService.closeAccount userId) := by
  apply after rfl
  intro user
  cases user with
  | none => exact throw (.inl .user)
  | some user => exact closeUser.bind (fun _ => read_lost rfl) fun _ => (read rfl).final

theorem updateUserStatus {requesterId targetId : UserId} {status : Option AccountStatus}
    {role : Option Role} :
    Handled (UsersService.updateUserStatus requesterId targetId status role) := by
  unfold UsersService.updateUserStatus
  split
  · exact throw (.inl .fields)
  split
  · exact throw (.inl .administrator)
  apply after rfl
  intro user
  cases user with
  | none => exact throw (.inl .user)
  | some user =>
    dsimp only
    split
    · exact closeUser.bind (fun _ => read_lost rfl) fun _ => (read rfl).final
    · exact (transact rfl).bind (fun _ => read_lost rfl) fun _ => (read rfl).final

end Handled

theorem Request.client.handled {request : Request} (client : request.client) :
    Handled request.handler := by
  cases request with
  | register => exact Handled.createUserWithWallet.map
  | deposit | withdraw | confirmDeposit | createPayout =>
    exact Handled.map (.lookup (fun t => .pure _) (.initiate fun _ => rfl))
  | transfer => exact Handled.transfer.map
  | closeAccount => exact Handled.closeAccount.map
  | updateUserStatus => exact Handled.updateUserStatus.map
  | processOutbox | processEvent | setConnectAccountId | setPaypalEmail => cases client

end PaymentWallet
