import PaymentWallet.Foundation.Json
import Mathlib.Data.UInt

/-! Buffers: hexadecimal text, and the subarrays that indices from either end select. -/
namespace Foundation

namespace Hex

def encode (bytes : List UInt8) : List Char :=
  bytes.flatMap fun byte => [Json.hexDigit (byte.toNat / 16), Json.hexDigit (byte.toNat % 16)]

/-- Reads up to the first pair that is not hexadecimal. What Node documents: it reads some
characters beyond Latin-1 by their low byte. -/
def decode : List Char → List UInt8
  | high :: low :: text =>
    match Json.hexValue high, Json.hexValue low with
    | some a, some b => .ofNat (a * 16 + b) :: decode text
    | _, _ => []
  | _ => []

theorem decode_encode (bytes : List UInt8) : decode (encode bytes) = bytes := by
  induction bytes with
  | nil => rfl
  | cons byte bytes ih =>
    have bound := byte.toNat_lt
    have high := Json.hexValue_hexDigit (byte.toNat / 16) (by omega)
    have low := Json.hexValue_hexDigit (byte.toNat % 16) (by omega)
    have value : byte.toNat / 16 * 16 + byte.toNat % 16 = byte.toNat := by omega
    simp only [encode, List.flatMap_cons, List.cons_append, List.nil_append, decode, high, low,
      value, UInt8.ofNat_toNat] at ih ⊢
    rw [ih]

/-- Pairs of hexadecimal digits are read to the end. -/
theorem length_decode {text : List Char} {n : Nat} (length : text.length = 2 * n)
    (hex : ∀ char ∈ text, (Json.hexValue char).isSome) : (decode text).length = n := by
  induction n generalizing text with
  | zero =>
    obtain rfl := List.length_eq_zero_iff.mp length
    rfl
  | succ n ih =>
    match text, length with
    | high :: low :: text, length =>
      obtain ⟨a, first⟩ := Option.isSome_iff_exists.mp (hex high (by simp))
      obtain ⟨b, second⟩ := Option.isSome_iff_exists.mp (hex low (by simp))
      have shorter : text.length = 2 * n := by simp only [List.length_cons] at length; omega
      have rest := ih shorter fun char member => hex char (by simp [member])
      simp only [decode, first, second, List.length_cons, rest]

end Hex

/-- A part of a buffer. -/
structure Slice where
  start : Nat
  length : Nat
deriving DecidableEq

/-- An index into `length` bytes; negative ones count from the end, and none leaves the buffer. -/
def clamp (length : Nat) (index : Int) : Nat :=
  if index < 0 then (length + index).toNat else min index.toNat length

theorem clamp_nat (length index : Nat) : clamp length index = min index length := by
  simp [clamp]

/-- The index `back` bytes before the end; of fewer bytes it is negative, and counts from the end
once more. -/
theorem clamp_back (length back : Nat) : clamp length ((length : Int) - back) =
    if back ≤ length then length - back else 2 * length - back := by
  unfold clamp
  split <;> split <;> omega

/-- `subarray(start, stop)` of `length` bytes. -/
def subarray (length : Nat) (start stop : Int) : Slice :=
  ⟨clamp length start, clamp length stop - clamp length start⟩

def Slice.bytes (slice : Slice) (buffer : List UInt8) : List UInt8 :=
  (buffer.drop slice.start).take slice.length

end Foundation
