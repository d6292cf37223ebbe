import PaymentWallet.Model.Schema
import Mathlib.Data.Nat.Digits.Defs

/-! Access tokens and the texts that configure how long they live. Two parsers read such a
text: `parseExpiry` for the denylist, and the `ms` library for the tokens themselves. -/
namespace PaymentWallet.Sessions

structure JwtPayload where
  sub : UserId
  email : String
  role : Role
  jti : String
deriving DecidableEq

/-- What an access token says; `exp` is in seconds. -/
structure AccessToken where
  payload : JwtPayload
  exp : Nat
deriving DecidableEq

namespace TokenService

/-- `multipliers`, in milliseconds. -/
def multiplier : Char → Option Nat
  | 's' => some 1000
  | 'm' => some (60 * 1000)
  | 'h' => some (60 * 60 * 1000)
  | 'd' => some (24 * 60 * 60 * 1000)
  | _ => none

/-- `^([1-9]\d*)([smhd])$`: the digits and the unit. -/
def matchExpiry (expiry : String) : Option (List Char × Char) :=
  match expiry.toList.reverse with
  | [] => none
  | unit :: reversed =>
    let digits := reversed.reverse
    if (multiplier unit).isSome && digits.all Char.isDigit &&
      digits.head?.any (· ≠ '0') then some (digits, unit)
    else none

/-- Exact, where `parseInt` and the product round beyond 2^53, as those of `ms` do. -/
def parseExpiry (expiry : String) : Except Exception Nat :=
  match matchExpiry expiry with
  | none => .error (.error ("Invalid expiry format \"" ++ expiry ++ "\". " ++
      "Expected a positive integer followed by a unit: s, m, h, or d (e.g. \"15m\", \"7d\")."))
  | some (digits, unit) => .ok (Nat.ofDigitChars 10 digits 0 * (multiplier unit).getD 0)

end TokenService

/-- The units of the `ms` library, in milliseconds. -/
def msUnit : Char → Option Nat
  | 's' => some 1000
  | 'm' => some 60000
  | 'h' => some 3600000
  | 'd' => some 86400000
  | _ => none

/-- Where `ms` reads the text, a number followed by one of these units, it means so many of
them. It gives up on long texts. -/
def ReadsUnits (ms : String → Option Nat) (expiry : String) : Prop :=
  ∀ digits : List Char, digits.all Char.isDigit → ∀ unit milliseconds read,
    msUnit unit = some milliseconds → expiry = String.ofList (digits ++ [unit]) →
    ms expiry = some read → read = Nat.ofDigitChars 10 digits 0 * milliseconds

section Expiry
variable {expiry : String} {digits : List Char} {unit : Char}

theorem matchExpiry_some (matched : TokenService.matchExpiry expiry = some (digits, unit)) :
    expiry = String.ofList (digits ++ [unit]) ∧ digits.all Char.isDigit ∧
      (TokenService.multiplier unit).isSome ∧
      digits.head?.any (· ≠ '0') := by
  unfold TokenService.matchExpiry at matched
  split at matched
  · cases matched
  · rename_i last reversed text
    simp only [Option.ite_none_right_eq_some, Bool.and_eq_true, Option.some.injEq,
      Prod.mk.injEq] at matched
    obtain ⟨⟨⟨known, digital⟩, first⟩, rfl, rfl⟩ := matched
    refine ⟨?_, digital, known, first⟩
    rw [← String.ofList_toList (s := expiry), ← List.reverse_reverse expiry.toList,
      text, List.reverse_cons]

theorem msUnit_multiplier (unit : Char) : msUnit unit = TokenService.multiplier unit := by
  unfold msUnit TokenService.multiplier
  split <;> rfl

theorem multiplier_seconds {milliseconds : Nat}
    (known : TokenService.multiplier unit = some milliseconds) :
    1000 ∣ milliseconds ∧ 0 < milliseconds := by
  unfold TokenService.multiplier at known
  split at known <;> cases known <;> decide

/-- A number that does not begin with zero. -/
theorem ofDigitChars_pos (digital : digits.all Char.isDigit) (first : digits.head?.any (· ≠ '0')) :
    0 < Nat.ofDigitChars 10 digits 0 := by
  cases digits with
  | nil => cases first
  | cons char rest =>
    simp only [List.all_cons, Bool.and_eq_true, List.head?_cons, Option.any_some,
      decide_eq_true_eq] at digital first
    have lower := (Char.isDigit_iff_toNat.mp digital.1).1
    have different : char.toNat ≠ '0'.toNat := fun same => first (Char.toNat_inj.mp same)
    rw [Nat.ofDigitChars_cons, Nat.ofDigitChars_eq_ofDigitChars_zero]
    have high : 0 < char.toNat - '0'.toNat := by omega
    positivity

/-- The two parsers agree, and lifetimes are whole seconds. -/
theorem parseExpiry_agrees {ms : String → Option Nat} (reads : ReadsUnits ms expiry)
    {parsed lifetime : Nat}
    (accepted : TokenService.parseExpiry expiry = .ok parsed) (read : ms expiry = some lifetime) :
    lifetime = parsed ∧ 1000 ∣ parsed := by
  unfold TokenService.parseExpiry at accepted
  split at accepted
  · cases accepted
  · rename_i digits unit matched
    obtain ⟨text, digital, known, _⟩ := matchExpiry_some matched
    obtain ⟨milliseconds, known⟩ := Option.isSome_iff_exists.mp known
    rw [known, Option.getD_some] at accepted
    obtain rfl := Except.ok.inj accepted
    exact ⟨reads digits digital unit milliseconds lifetime
      ((msUnit_multiplier unit).trans known) text read,
      Dvd.dvd.mul_left (multiplier_seconds known).1 _⟩

/-- The configuration accepts no expiry below a second. -/
theorem parseExpiry_pos {parsed : Nat} (accepted : TokenService.parseExpiry expiry = .ok parsed) :
    0 < parsed / 1000 := by
  unfold TokenService.parseExpiry at accepted
  split at accepted
  · cases accepted
  · rename_i digits unit matched
    obtain ⟨_, digital, known, first⟩ := matchExpiry_some matched
    obtain ⟨milliseconds, known⟩ := Option.isSome_iff_exists.mp known
    obtain ⟨⟨seconds, rfl⟩, positive⟩ := multiplier_seconds known
    rw [known, Option.getD_some] at accepted
    obtain rfl := Except.ok.inj accepted
    rw [Nat.mul_left_comm, Nat.mul_div_cancel_left _ (by decide)]
    exact Nat.mul_pos (ofDigitChars_pos digital first) (by omega)

/-- What the configuration accepts, `parseExpiry` reads. -/
theorem parseExpiry_ok (accepted : (TokenService.matchExpiry expiry).isSome) :
    ∃ parsed, TokenService.parseExpiry expiry = .ok parsed := by
  obtain ⟨⟨digits, unit⟩, matched⟩ := Option.isSome_iff_exists.mp accepted
  exact ⟨_, by rw [TokenService.parseExpiry, matched]⟩

end Expiry
end PaymentWallet.Sessions
