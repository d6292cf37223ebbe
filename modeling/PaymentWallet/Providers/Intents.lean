import PaymentWallet.Providers.Adapters

/-! Deposit intents: a client asks for one before it pays, and nothing of it is stored. -/
namespace PaymentWallet
open Foundation

/-- The amount as a number of major units. -/
def Amount.number (amount : Amount) : ℚ := amount.units / 10000

structure CreateDepositIntentDto where
  provider : SupportedProvider
  amount : Amount
  currency : Currency
  braintreeCustomerId : Option String
deriving DecidableEq

/-- What the service hands to an adapter. -/
structure DepositIntentPayload where
  userId : UserId
  walletId : WalletId
  amount : ℚ
  currency : Currency
  customerId : Option String
deriving DecidableEq

structure DepositIntentResult where
  success : Bool
  clientSecret : Option String
  clientToken : Option String
  intentId : Option String
  errorMessage : Option String
  rawResponse : Record
deriving DecidableEq

namespace StripeProvider

def createDepositIntent (payload : DepositIntentPayload) : Api DepositIntentResult := do
  match ← send (.createIntent (some (minorUnits payload.amount)) payload.currency.name.toLower
      [("userId", .string payload.userId), ("walletId", .string payload.walletId),
        ("source", .string "wallet_deposit")]) with
  | .error thrown =>
    return {
      success := false
      clientSecret := none
      clientToken := none
      intentId := none
      errorMessage := some (thrown.message.getD "Unexpected Stripe error")
      rawResponse := [("error", thrown.raw)] }
  | .ok intent =>
    return {
      success := true
      clientSecret := intent.clientSecret
      clientToken := none
      intentId := some intent.id
      errorMessage := none
      rawResponse := [("id", .string intent.id),
        ("client_secret", (intent.clientSecret.map .string).getD .null),
        ("amount", .number intent.amount), ("currency", .string intent.currency),
          ("status", .string intent.status)] }

end StripeProvider

namespace PaypalProvider

def createDepositIntent (payload : DepositIntentPayload) : Api DepositIntentResult := do
  match ← send (.generateClientToken (truthy payload.customerId)) with
  | .error thrown =>
    return {
      success := false
      clientSecret := none
      clientToken := none
      intentId := none
      errorMessage := some (thrown.message.getD "Unexpected Braintree error")
      rawResponse := [("error", thrown.raw)] }
  | .ok clientToken =>
    return {
      success := true
      clientSecret := none
      clientToken := some clientToken
      intentId := none
      errorMessage := none
      rawResponse := [("clientToken", .string clientToken),
        ("customerId", nullable payload.customerId)] }

end PaypalProvider

def Adapter.createDepositIntent : Adapter → DepositIntentPayload → Api DepositIntentResult
  | .stripe => StripeProvider.createDepositIntent
  | .paypal => PaypalProvider.createDepositIntent

/-- The checks and the call, given what the reads of the wallet and of the user find. -/
def PaymentService.createDepositIntent (userId : UserId) (dto : CreateDepositIntentDto)
    (wallet : Option Wallet)
    (braintreeCustomerId : Option String) : Tx (Api DepositIntentResult) := do
  match wallet with
  | none => throw (.notFound "Wallet not found")
  | some wallet =>
    WalletRepository.assertActive wallet
    WalletRepository.assertCurrencyMatch wallet dto.currency
    match PaymentProviderRegistry.resolve dto.provider.toProvider with
    | .error error => throw error
    | .ok adapter =>
      return adapter.createDepositIntent
        { userId := userId
          walletId := wallet.id
          amount := dto.amount.number
          currency := dto.currency
          customerId := if dto.provider = .paypal then braintreeCustomerId else none }

/-- The amount that a provider is asked for, in major units; the inner `none` is NaN. -/
def ProviderRequest.asked : ProviderRequest → Option (Option ℚ)
  | .createIntent amount .. | .createPayout amount .. =>
    some (amount.map fun units : Int => (units : ℚ) / 100)
  | .sale amount .. => some (Numeral.read amount.toList)
  | .payouts value .. => some (Numeral.read value.toList)
  | _ => none

/-- A request for an amount asks for exactly this one. -/
def ProviderRequest.Moves (amount : Amount) (request : ProviderRequest) : Prop :=
  ∀ asked, request.asked = some asked → asked = some amount.number

/-- A request for an amount asks for something, and not for more than this. -/
def ProviderRequest.Within (amount : Amount) (request : ProviderRequest) : Prop :=
  ∀ asked, request.asked = some asked → ∃ value, asked = some value ∧ 0 < value ∧
    value ≤ amount.number

/-- Stripe is asked for the nearest number of cents, and PayPal for the amount as it is. -/
def Amount.sent (amount : Amount) : Adapter → ℚ
  | .stripe => ((amount.units + 50) / 100 : Nat) / 100
  | .paypal => amount.number

/-- Four decimals are rounded to two. -/
theorem minorUnits_number (amount : Amount) :
    (minorUnits amount.number : ℚ) / 100 = amount.sent .stripe := by
  have shifted : amount.number * 100 + 1 / 2 = ((amount.units + 50 : Nat) : ℚ) / (100 : Nat) := by
    unfold Amount.number
    push_cast
    ring
  rw [minorUnits, shifted, Rat.floor_natCast_div_natCast, Amount.sent,
    ← Int.natCast_ediv, Int.cast_natCast]

section Rounding
variable (amount : Amount)

theorem sent_eq : amount.sent .stripe = amount.number ↔ 100 ∣ amount.units := by
  have scaled : amount.sent .stripe = amount.number ↔
      (amount.units + 50) / 100 * 100 = amount.units := by
    rw [Amount.sent, Amount.number, ← Nat.cast_inj (R := ℚ),
      div_eq_div_iff (by norm_num) (by norm_num)]
    push_cast
    constructor <;> intro same <;> linarith
  rw [scaled]
  omega

theorem sent_le : amount.sent .stripe ≤ amount.number ↔ amount.units % 100 < 50 := by
  have scaled : amount.sent .stripe ≤ amount.number ↔
      (amount.units + 50) / 100 * 100 ≤ amount.units := by
    rw [Amount.sent, Amount.number, ← Nat.cast_le (α := ℚ),
      div_le_div_iff₀ (by norm_num) (by norm_num)]
    push_cast
    constructor <;> intro below <;> linarith
  rw [scaled]
  omega

theorem sent_pos : 0 < amount.sent .stripe ↔ 50 ≤ amount.units := by
  rw [Amount.sent, div_pos_iff_of_pos_right (by norm_num), Nat.cast_pos]
  omega

theorem Amount.number_pos : 0 < amount.number := by
  have positive : (0 : ℚ) < amount.units := Nat.cast_pos.mpr amount.pos
  exact div_pos positive (by norm_num)

end Rounding
end PaymentWallet
