import PaymentWallet.Model.Services
import PaymentWallet.Foundation.Numeral

/-! The adapters of the payment providers: what they read of a payload, what they send to
the provider, and the result that they make of its answer. A call that throws is caught. -/
namespace PaymentWallet
open Foundation

/-- The text of an amount is read back as the amount. -/
theorem Amount.read_toString (amount : Amount) :
    Numeral.read amount.toString.toList = some ((amount.units : ℚ) / 10000) := by
  have digits : ∀ n : Nat, (ToString.toString n).toList = Nat.toDigits 10 n := fun n => by
    rw [Nat.toString_eq_ofList_toDigits, String.toList_ofList]
  have text : amount.toString.toList = Numeral.write 4 amount.units := by
    simp only [Amount.toString, Numeral.write, digits, List.rdropWhile,
      show 10 ^ 4 = 10000 from rfl]
    split
    · rw [digits]
    · simp [String.toList_append]
  rw [text, Numeral.read_write]
  norm_num

/-- `String(value)`. -/
def stringOf : Option JsonValue → String
  | none => "undefined"
  | some .null => "null"
  | some (.boolean value) => if value then "true" else "false"
  | some (.number value) => toString value
  | some (.string value) => value

/-- `Number(value)`, where `none` is NaN; `other` reads texts in no decimal notation. -/
def numberOf (other : String → Option ℚ) : Option JsonValue → Option ℚ
  | none => none
  | some .null => some 0
  | some (.boolean value) => some (if value then 1 else 0)
  | some (.number value) => some value
  | some (.string value) => (Numeral.read value.toList).or (other value)

/-- `Math.round(amount * 100)`. -/
def minorUnits (amount : ℚ) : Int := ⌊amount * 100 + 1 / 2⌋

/-- A truthy JSON value. -/
def truthyValue (value : Option JsonValue) : Option JsonValue :=
  value.filter fun value => value ≠ .null && value ≠ .boolean false &&
    value ≠ .number 0 && value ≠ .string ""

structure PaymentIntent where
  id : String
  clientSecret : Option String
  status : String
  amount : Int
  currency : String
  metadata : Record
deriving DecidableEq

structure StripePayout where
  id : String
  status : String
  amount : Int
  currency : String
  arrivalDate : Int
deriving DecidableEq

structure BraintreeTransaction where
  id : String
  status : String
  amount : String
  currencyIsoCode : String
  paymentInstrumentType : String
  customerId : Option String
deriving DecidableEq

structure SaleResult where
  success : Bool
  transaction : Option BraintreeTransaction
  message : String
deriving DecidableEq

/-- The reply of the Payouts API, with the fields of its body that are looked at. -/
structure PayoutsResponse where
  ok : Bool
  status : Nat
  message : Option String
  payoutBatchId : Option String
  body : Record
deriving DecidableEq

/-- What is sent to a provider. -/
inductive ProviderRequest where
  | createIntent (amount : Option Int) (currency : String) (metadata : Record)
  | retrieveIntent (paymentIntentId : String)
  | createPayout (amount : Option Int) (currency destination : String) (metadata : Record)
  | generateClientToken (customerId : Option String)
  | sale (amount paymentMethodNonce : String) (customerId : Option JsonValue)
  | accessToken
  | payouts (value currency receiver walletId userId : String)
deriving DecidableEq

@[reducible] def ProviderRequest.Answer : ProviderRequest → Type
  | .createIntent .. => PaymentIntent
  | .retrieveIntent _ => PaymentIntent
  | .createPayout .. => StripePayout
  | .generateClientToken _ => String
  | .sale .. => SaleResult
  | .accessToken => Unit
  | .payouts .. => PayoutsResponse

/-- An exception: the message of an `Error`, and what is kept of it. -/
structure Thrown where
  message : Option String
  raw : JsonValue
deriving DecidableEq

/-- An adapter method. It never throws. -/
abbrev Api := Program ProviderRequest (fun request => Except Thrown request.Answer) Empty

def send (request : ProviderRequest) : Api (Except Thrown request.Answer) := Program.perform request

def ProviderResult.unsupported (transactionType : TransactionType) : ProviderResult where
  success := false
  requiresWebhook := false
  providerRef := none
  errorMessage := some ("Unsupported transaction type: " ++ transactionType.name)
  rawResponse := [("transactionType", .string transactionType.name)]

namespace StripeProvider
variable (other : String → Option ℚ)

def failure (thrown : Thrown) : ProviderResult where
  success := false
  requiresWebhook := false
  providerRef := none
  errorMessage := some (thrown.message.getD "Unexpected Stripe error")
  rawResponse := [("error", thrown.raw)]

def intentResponse (intent : PaymentIntent) : Record :=
  [("id", .string intent.id), ("status", .string intent.status), ("amount", .number intent.amount),
    ("currency", .string intent.currency)]

def confirmDeposit (payload : Record) : Api ProviderResult := do
  let paymentIntentId := stringOf (payload.field "paymentIntentId")
  match ← send (.retrieveIntent paymentIntentId) with
  | .error thrown => return failure thrown
  | .ok intent =>
    if intent.status = "canceled" || intent.status = "requires_payment_method" then
      return {
        success := false
        requiresWebhook := false
        providerRef := none
        errorMessage := some ("PaymentIntent is in terminal failure state: \"" ++
          intent.status ++ "\"")
        rawResponse := intentResponse intent }
    else
      return {
        success := true
        requiresWebhook := true
        providerRef := some intent.id
        errorMessage := none
        rawResponse := intentResponse intent }

def createPayout (payload : Record) : Api ProviderResult := do
  let amount := numberOf other (payload.field "amount")
  let currency := (stringOf (payload.field "currency")).toLower
  let userId := stringOf (payload.field "userId")
  let stripeConnectedAccountId := stringOf (payload.field "stripeConnectedAccountId")
  match ← send (.createPayout (amount.map minorUnits) currency stripeConnectedAccountId
      [("userId", .string userId), ("source", .string "wallet_withdrawal")]) with
  | .error thrown => return failure thrown
  | .ok payout =>
    return {
      success := true
      requiresWebhook := true
      providerRef := some payout.id
      errorMessage := none
      rawResponse := [("id", .string payout.id), ("status", .string payout.status),
        ("amount", .number payout.amount),
        ("currency", .string payout.currency), ("arrival_date", .number payout.arrivalDate)] }

def process (payload : Record) (transactionType : TransactionType) : Api ProviderResult :=
  match transactionType with
  | .deposit => confirmDeposit payload
  | .withdrawal => createPayout other payload
  | .transfer => return .unsupported transactionType

end StripeProvider

namespace PaypalProvider

def failure (thrown : Thrown) (unexpected : String) (raw : Record) : ProviderResult where
  success := false
  requiresWebhook := false
  providerRef := none
  errorMessage := some (thrown.message.getD unexpected)
  rawResponse := [("error", thrown.raw)] ++ raw

def nullable (value : Option String) : JsonValue := (value.map .string).getD .null

def confirmDeposit (payload : Record) : Api ProviderResult := do
  let nonce := stringOf (payload.field "nonce")
  let amount := stringOf (payload.field "amount")
  let customerId := truthyValue (payload.field "customerId")
  match ← send (.sale amount nonce customerId) with
  | .error thrown => return failure thrown "Unexpected Braintree error" [("customerId", .null)]
  | .ok result =>
    match result.success, result.transaction with
    | true, some transaction =>
      return {
        success := true
        requiresWebhook := false
        providerRef := some transaction.id
        errorMessage := none
        rawResponse := [("id", .string transaction.id), ("status", .string transaction.status),
          ("amount", .string transaction.amount), ("currency", .string transaction.currencyIsoCode),
          ("payment_method", .string transaction.paymentInstrumentType),
            ("customerId", nullable transaction.customerId)] }
    | _, transaction =>
      return {
        success := false
        requiresWebhook := false
        providerRef := none
        errorMessage := some (if result.message = "" then "Braintree transaction failed"
          else result.message)
        rawResponse := (transaction.toList.flatMap fun transaction =>
          [("id", .string transaction.id), ("status", .string transaction.status),
            ("amount", .string transaction.amount),
              ("currency", .string transaction.currencyIsoCode)]) ++
          [("customerId", .null)] }

/-- The batch id and the item id also carry the time. -/
def createPayout (payload : Record) : Api ProviderResult := do
  let amount := stringOf (payload.field "amount")
  let currency := (stringOf (payload.field "currency")).toUpper
  let paypalEmail := stringOf (payload.field "paypalEmail")
  let userId := stringOf (payload.field "userId")
  let walletId := stringOf (payload.field "walletId")
  match ← send .accessToken with
  | .error thrown => return failure thrown "Unexpected PayPal error" []
  | .ok _ =>
    match ← send (.payouts amount currency paypalEmail walletId userId) with
    | .error thrown => return failure thrown "Unexpected PayPal error" []
    | .ok response =>
      if !response.ok then
        return {
          success := false
          requiresWebhook := false
          providerRef := none
          errorMessage := some (response.message.getD ("PayPal Payouts API error: " ++
            toString response.status))
          rawResponse := response.body }
      else
        return {
          success := true
          requiresWebhook := true
          providerRef := response.payoutBatchId
          errorMessage := none
          rawResponse := response.body }

def process (payload : Record) (transactionType : TransactionType) : Api ProviderResult :=
  match transactionType with
  | .deposit => confirmDeposit payload
  | .withdrawal => createPayout payload
  | .transfer => return .unsupported transactionType

end PaypalProvider

def Adapter.process (other : String → Option ℚ) :
    Adapter → Record → TransactionType → Api ProviderResult
  | .stripe => StripeProvider.process other
  | .paypal => PaypalProvider.process

section Sends
variable {good : ProviderRequest → Prop} {other : String → Option ℚ} {payload : Record}

theorem StripeProvider.confirmDeposit_all
    (retrieves : good (.retrieveIntent (stringOf (payload.field "paymentIntentId")))) :
    (StripeProvider.confirmDeposit payload).All good := by
  refine ⟨retrieves, fun reply => ?_⟩
  cases reply with
  | error => trivial
  | ok intent =>
    simp only [Program.pure_bind]
    split <;> trivial

theorem StripeProvider.createPayout_all
    (creates : good (.createPayout ((numberOf other (payload.field "amount")).map minorUnits)
      (stringOf (payload.field "currency")).toLower
        (stringOf (payload.field "stripeConnectedAccountId"))
      [("userId", .string (stringOf (payload.field "userId"))),
        ("source", .string "wallet_withdrawal")])) :
    (StripeProvider.createPayout other payload).All good := by
  refine ⟨creates, fun reply => ?_⟩
  cases reply <;> trivial

theorem PaypalProvider.confirmDeposit_all (sells : good (.sale (stringOf (payload.field "amount"))
      (stringOf (payload.field "nonce")) (truthyValue (payload.field "customerId")))) :
    (PaypalProvider.confirmDeposit payload).All good := by
  refine ⟨sells, fun reply => ?_⟩
  cases reply with
  | error => trivial
  | ok result =>
    simp only [Program.pure_bind]
    split <;> trivial

theorem PaypalProvider.createPayout_all (token : good .accessToken)
    (pays : good (.payouts (stringOf (payload.field "amount"))
      (stringOf (payload.field "currency")).toUpper (stringOf (payload.field "paypalEmail"))
      (stringOf (payload.field "walletId")) (stringOf (payload.field "userId")))) :
    (PaypalProvider.createPayout payload).All good := by
  refine ⟨token, fun reply => ?_⟩
  cases reply with
  | error => trivial
  | ok _ =>
    refine ⟨pays, fun reply => ?_⟩
    cases reply with
    | error => trivial
    | ok response =>
      simp only [Program.pure_bind]
      split <;> trivial

end Sends

/-- What the providers answer during one call of an adapter. -/
abbrev Exchange := (request : ProviderRequest) → Except Thrown request.Answer

/-- Stripe confirms a deposit where the intent is there and has not failed. -/
theorem StripeProvider.confirmDeposit_success {answers : Exchange} {payload : Record}
    {result : ProviderResult}
    (returned : (StripeProvider.confirmDeposit payload).eval answers = .ok result)
    (success : result.success) :
    ∃ intent, answers (.retrieveIntent (stringOf (payload.field "paymentIntentId"))) = .ok intent ∧
      result.requiresWebhook ∧ result.providerRef = some intent.id := by
  simp only [StripeProvider.confirmDeposit, send, Program.perform, Program.bind_def,
    Program.call_bind, Program.pure_bind, Program.eval] at returned
  split at returned
  · cases returned
    cases success
  · rename_i intent present
    split at returned
    · cases returned
      cases success
    · cases returned
      exact ⟨intent, present, rfl, rfl⟩

end PaymentWallet
