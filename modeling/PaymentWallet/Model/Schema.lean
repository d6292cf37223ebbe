import PaymentWallet.Foundation.Table

/-! The rows of the Prisma schema, with the columns that the services read or
write. Money is counted in ten-thousandths, the scale of `Decimal(18,4)`. -/
namespace PaymentWallet
open Foundation

abbrev UserId := String
abbrev WalletId := String
abbrev TransactionId := String
abbrev EventId := String
/-- Milliseconds since the epoch. -/
abbrev DateTime := Nat
/-- Ten-thousandths of a currency unit. -/
abbrev Decimal := Int

/-- A value that a `Decimal(18,4)` column can hold. -/
def Decimal.fits (value : Decimal) : Bool := -(10 ^ 18) < value && value < 10 ^ 18

/-- An amount the DTOs accept: a positive multiple of 0.0001. -/
structure Amount where
  units : Nat
  pos : 0 < units
deriving DecidableEq

theorem Amount.dollar_pos : 0 < 10000 := by decide

theorem Amount.fiveDollars_pos : 0 < 50000 := by decide

def Amount.decimal (amount : Amount) : Decimal := amount.units

/-- `Decimal.toString`: plain notation without trailing zeros. -/
def Amount.toString (amount : Amount) : String :=
  let digits := (ToString.toString (10000 + amount.units % 10000)).toList.drop 1
  let fraction := (digits.reverse.dropWhile (· = '0')).reverse
  let whole := ToString.toString (amount.units / 10000)
  if fraction.isEmpty then whole else whole ++ "." ++ String.ofList fraction

inductive Role where
  | user | admin
deriving DecidableEq, Repr

inductive AccountStatus where
  | active | frozen | suspended | closed
deriving DecidableEq, Repr

inductive Currency where
  | usd | eur | gbp
deriving DecidableEq, Repr

inductive TransactionType where
  | deposit | withdrawal | transfer
deriving DecidableEq, Repr

inductive TransactionStatus where
  | initiated | authorized | processing | settled | failed | reversed
deriving DecidableEq, Repr

inductive EntryDirection where
  | credit | debit
deriving DecidableEq, Repr

inductive Provider where
  | stripe | paypal | internal
deriving DecidableEq, Repr

inductive EventType where
  | depositInitiated | withdrawalInitiated | transferSettled
deriving DecidableEq, Repr

def AccountStatus.lower : AccountStatus → String
  | .active => "active" | .frozen => "frozen" | .suspended => "suspended" | .closed => "closed"

def Currency.name : Currency → String
  | .usd => "USD" | .eur => "EUR" | .gbp => "GBP"

def Provider.name : Provider → String
  | .stripe => "STRIPE" | .paypal => "PAYPAL" | .internal => "INTERNAL"

def TransactionType.name : TransactionType → String
  | .deposit => "DEPOSIT" | .withdrawal => "WITHDRAWAL" | .transfer => "TRANSFER"

/-- The values found in JSON columns; nested values are never looked into. -/
inductive JsonValue where
  | null
  | boolean (value : Bool)
  | number (value : Int)
  | string (value : String)
deriving DecidableEq, Repr

/-- A JSON object; a missing field reads as `undefined`. -/
abbrev Record := List (String × JsonValue)

def Record.field (record : Record) (name : String) : Option JsonValue :=
  (record.find? (·.1 = name)).map (·.2)

structure User where
  id : UserId
  name : String
  email : String
  phone : String
  password : String
  role : Role
  status : AccountStatus
  braintreeCustomerId : Option String
  stripeConnectAccountId : Option String
  paypalEmail : Option String
  createdAt : DateTime
deriving DecidableEq

structure RefreshToken where
  id : String
  userId : UserId
  tokenHash : String
  createdAt : DateTime
  expiresAt : DateTime
  revokedAt : Option DateTime
deriving DecidableEq

structure Wallet where
  id : WalletId
  userId : UserId
  currency : Currency
  status : AccountStatus
  availableBalance : Decimal
  lockedBalance : Decimal
  pendingBalance : Decimal
  createdAt : DateTime
deriving DecidableEq

structure Transaction where
  id : TransactionId
  idempotencyKey : String
  type : TransactionType
  status : TransactionStatus
  amount : Amount
  currency : Currency
  description : Option String
  senderWalletId : Option WalletId
  receiverWalletId : Option WalletId
  provider : Option Provider
  providerRef : Option String
  createdAt : DateTime
  settledAt : Option DateTime
deriving DecidableEq

structure LedgerEntry where
  id : String
  walletId : WalletId
  transactionId : TransactionId
  direction : EntryDirection
  amount : Amount
  currency : Currency
  balanceAfter : Decimal
  createdAt : DateTime
deriving DecidableEq

structure PaymentLog where
  id : String
  transactionId : TransactionId
  provider : Provider
  providerRef : Option String
  payload : Record
  status : TransactionStatus
  createdAt : DateTime
deriving DecidableEq

structure OutboxEvent where
  id : EventId
  transactionId : TransactionId
  eventType : EventType
  payload : Record
  deliveredAt : Option DateTime
  retryCount : Nat
  createdAt : DateTime
deriving DecidableEq

/-- Entries of the unique indexes of `User`. -/
def User.index (user : User) : List (String × String) :=
  [("email", user.email), ("phone", user.phone)] ++
    user.braintreeCustomerId.toList.map (("braintreeCustomerId", ·)) ++
    user.stripeConnectAccountId.toList.map (("stripeConnectAccountId", ·)) ++
    user.paypalEmail.toList.map (("paypalEmail", ·))

/-- Entries of the unique indexes of the other tables. -/
def Wallet.index (wallet : Wallet) : List UserId := [wallet.userId]
def Transaction.index (transaction : Transaction) : List String := [transaction.idempotencyKey]
def PaymentLog.index (log : PaymentLog) : List TransactionId := [log.transactionId]

structure DB where
  users : Table User UserId User.id
  refreshTokens : Table RefreshToken String RefreshToken.id
  wallets : Table Wallet WalletId Wallet.id
  transactions : Table Transaction TransactionId Transaction.id
  ledgerEntries : Table LedgerEntry String LedgerEntry.id
  paymentLogs : Table PaymentLog String PaymentLog.id
  outboxEvents : Table OutboxEvent EventId OutboxEvent.id

def DB.empty : DB := ⟨.empty, .empty, .empty, .empty, .empty, .empty, .empty⟩

/-- Exceptions: Nest's HTTP exceptions, Prisma's known request errors, plain
errors, and a broken connection or a timeout. -/
inductive Exception where
  | badRequest (message : String)
  | unauthorized (message : String)
  | forbidden (message : String)
  | notFound (message : String)
  | conflict (message : String)
  | unprocessableEntity (message : String)
  | badGateway (message : String)
  | serviceUnavailable (message : String)
  | uniqueViolation (target : String)
  | recordNotFound
  | numericOverflow
  | error (message : String)
  | connectionLost
deriving DecidableEq, Repr

end PaymentWallet
