import Mathlib.Data.List.TakeWhile
import Mathlib.Data.UInt

/-! Text on the wire: UTF-8 and base64, with decoders that take any input. What an
encoder wrote is read back as it was. -/
namespace Foundation

section Utf8

def utf8Encode (text : List Char) : List UInt8 := text.flatMap String.utf8EncodeChar

/-- How many bytes follow a lead byte, and the range of the first of them. -/
def utf8Continuation (lead : UInt8) : Nat × UInt8 × UInt8 :=
  if 0xC2 ≤ lead ∧ lead ≤ 0xDF then (1, 0x80, 0xBF)
  else if lead = 0xE0 then (2, 0xA0, 0xBF)
  else if lead = 0xED then (2, 0x80, 0x9F)
  else if 0xE1 ≤ lead ∧ lead ≤ 0xEF then (2, 0x80, 0xBF)
  else if lead = 0xF0 then (3, 0x90, 0xBF)
  else if 0xF1 ≤ lead ∧ lead ≤ 0xF3 then (3, 0x80, 0xBF)
  else if lead = 0xF4 then (3, 0x80, 0x8F)
  else (0, 0x80, 0xBF)

/-- What is left after a broken character, which takes up the bytes that could have
continued it. -/
def utf8Broken (lead : UInt8) (rest : List UInt8) : List UInt8 :=
  match utf8Continuation lead, rest with
  | (more + 1, low, high), next :: rest' =>
    if low ≤ next ∧ next ≤ high then
      rest'.drop ((rest'.take more).takeWhile fun byte => 0x80 ≤ byte ∧ byte ≤ 0xBF).length
    else rest
  | _, _ => rest

/-- A broken character is replaced as a whole, also one that the end cuts off. -/
def utf8DecodeFrom : (fuel : Nat) → List UInt8 → List Char
  | 0, _ => []
  | _ + 1, [] => []
  | fuel + 1, byte :: rest =>
    match (byte :: rest).toByteArray.utf8DecodeChar? 0 with
    | some char => char :: utf8DecodeFrom fuel ((byte :: rest).drop char.utf8Size)
    | none => '\uFFFD' :: utf8DecodeFrom fuel (utf8Broken byte rest)

def utf8Decode (bytes : List UInt8) : List Char := utf8DecodeFrom bytes.length bytes

theorem utf8DecodeFrom_encode (text : List Char) (fuel : Nat)
    (enough : (utf8Encode text).length ≤ fuel) :
    utf8DecodeFrom fuel (utf8Encode text) = text := by
  induction text generalizing fuel with
  | nil => cases fuel <;> rfl
  | cons char text ih =>
    have size : (String.utf8EncodeChar char).length = char.utf8Size :=
      String.length_utf8EncodeChar char
    have positive := char.utf8Size_pos
    have decoded : (utf8Encode (char :: text)).toByteArray.utf8DecodeChar? 0 = some char :=
      List.utf8DecodeChar?_utf8Encode_cons
    have rest : (utf8Encode (char :: text)).drop char.utf8Size = utf8Encode text := by
      rw [utf8Encode, List.flatMap_cons, ← size, List.drop_left]
      rfl
    have length : (utf8Encode (char :: text)).length = char.utf8Size +
        (utf8Encode text).length := by
      simp [utf8Encode, size]
    cases fuel with
    | zero => omega
    | succ fuel =>
      generalize utf8Encode (char :: text) = bytes at *
      cases bytes with
      | nil =>
        simp only [List.length_nil] at length
        omega
      | cons byte bytes =>
        simp only [utf8DecodeFrom, decoded, rest]
        rw [ih fuel (by omega)]

theorem utf8Decode_encode (text : List Char) : utf8Decode (utf8Encode text) = text :=
  utf8DecodeFrom_encode text _ le_rfl

end Utf8

namespace Base64

/-- The character of a sextet. -/
def digit (sextet : Nat) : Char :=
  if sextet < 26 then Char.ofNat ('A'.toNat + sextet)
  else if sextet < 52 then Char.ofNat ('a'.toNat + (sextet - 26))
  else if sextet < 62 then Char.ofNat ('0'.toNat + (sextet - 52))
  else if sextet = 62 then '+' else '/'

/-- The sextet of a character, of the alphabet for URLs also. -/
def sextet (char : Char) : Option Nat :=
  if char.isUpper then some (char.toNat - 'A'.toNat)
  else if char.isLower then some (char.toNat - 'a'.toNat + 26)
  else if char.isDigit then some (char.toNat - '0'.toNat + 52)
  else if char = '+' ∨ char = '-' then some 62
  else if char = '/' ∨ char = '_' then some 63
  else none

def split : List UInt8 → List Nat
  | [] => []
  | [a] => [a.toNat / 4, a.toNat % 4 * 16]
  | [a, b] => [a.toNat / 4, a.toNat % 4 * 16 + b.toNat / 16, b.toNat % 16 * 4]
  | a :: b :: c :: rest =>
    a.toNat / 4 :: (a.toNat % 4 * 16 + b.toNat / 16) :: (b.toNat % 16 * 4 + c.toNat / 64) ::
      c.toNat % 64 :: split rest

/-- A single sextet at the end is no byte. -/
def join : List Nat → List UInt8
  | p :: q :: r :: s :: rest =>
    .ofNat (p * 4 + q / 16) :: .ofNat (q % 16 * 16 + r / 4) :: .ofNat (r % 4 * 64 + s) :: join rest
  | [p, q, r] => [.ofNat (p * 4 + q / 16), .ofNat (q % 16 * 16 + r / 4)]
  | [p, q] => [.ofNat (p * 4 + q / 16)]
  | _ => []

def encode (bytes : List UInt8) : List Char :=
  (split bytes).map digit ++ List.replicate ((3 - bytes.length % 3) % 3) '='

/-- Reads up to the padding, over characters of neither alphabet. What Node documents: it
reads some characters beyond Latin-1 by their low byte. -/
def decode (text : List Char) : List UInt8 := join ((text.takeWhile (· ≠ '=')).filterMap sextet)

theorem sextet_digit : ∀ n < 64, sextet (digit n) = some n := by decide

theorem digit_ne_pad : ∀ n < 64, digit n ≠ '=' := by decide

theorem split_lt (bytes : List UInt8) : ∀ n ∈ split bytes, n < 64 := by
  induction bytes using split.induct with
  | case1 => simp [split]
  | case2 a =>
    have := a.toNat_lt
    simp only [split, List.mem_cons, List.not_mem_nil, or_false, forall_eq_or_imp, forall_eq]
    omega
  | case3 a b =>
    have := a.toNat_lt
    have := b.toNat_lt
    simp only [split, List.mem_cons, List.not_mem_nil, or_false, forall_eq_or_imp, forall_eq]
    omega
  | case4 a b c rest ih =>
    have := a.toNat_lt
    have := b.toNat_lt
    have := c.toNat_lt
    simp only [split, List.mem_cons, forall_eq_or_imp]
    exact ⟨by omega, by omega, by omega, by omega, ih⟩

theorem ofNat_eq (byte : UInt8) {n : Nat} (same : n = byte.toNat) : UInt8.ofNat n = byte := by
  rw [same, UInt8.ofNat_toNat]

theorem join_split (bytes : List UInt8) : join (split bytes) = bytes := by
  induction bytes using split.induct with
  | case1 => rfl
  | case2 a =>
    have := a.toNat_lt
    simp only [split, join]
    rw [ofNat_eq a (by omega)]
  | case3 a b =>
    have := a.toNat_lt
    have := b.toNat_lt
    simp only [split, join]
    rw [ofNat_eq a (by omega), ofNat_eq b (by omega)]
  | case4 a b c rest ih =>
    have := a.toNat_lt
    have := b.toNat_lt
    have := c.toNat_lt
    simp only [split, join, ih]
    rw [ofNat_eq a (by omega), ofNat_eq b (by omega), ofNat_eq c (by omega)]

theorem decode_encode (bytes : List UInt8) : decode (encode bytes) = bytes := by
  have small := split_lt bytes
  have shown : (encode bytes).takeWhile (· ≠ '=') = (split bytes).map digit := by
    rw [encode, List.takeWhile_append_of_pos]
    · simp
    · intro char member
      obtain ⟨n, listed, rfl⟩ := List.mem_map.mp member
      simpa using digit_ne_pad n (small n listed)
  have read : ((split bytes).map digit).filterMap sextet = split bytes := by
    generalize split bytes = sextets at small
    induction sextets with
    | nil => rfl
    | cons n rest ih =>
      rw [List.map_cons, List.filterMap_cons, sextet_digit n (small n List.mem_cons_self)]
      simp only [ih fun n member => small n (List.mem_cons_of_mem _ member)]
  rw [decode, shown, read, join_split]

/-- One byte, whose low six bits are not those of the last two digits. -/
def Plain (char : Char) : Prop := char.toNat < 128 ∧ char.toNat % 64 < 62

instance (char : Char) : Decidable (Plain char) := inferInstanceAs (Decidable (_ ∧ _))

theorem digit_letter : ∀ n < 62, digit n ≠ '+' ∧ digit n ≠ '/' := by decide

/-- No group of bytes below 128 reaches the last two digits across a byte's border, and the
last byte of three not by itself. -/
theorem split_plain (bytes : List UInt8)
    (plain : ∀ byte ∈ bytes, byte.toNat < 128 ∧ byte.toNat % 64 < 62) :
    ∀ n ∈ split bytes, n < 62 := by
  induction bytes using split.induct with
  | case1 => simp [split]
  | case2 a =>
    have := plain a (by simp)
    simp only [split, List.mem_cons, List.not_mem_nil, or_false, forall_eq_or_imp, forall_eq]
    omega
  | case3 a b =>
    have := plain a (by simp)
    have := plain b (by simp)
    simp only [split, List.mem_cons, List.not_mem_nil, or_false, forall_eq_or_imp, forall_eq]
    omega
  | case4 a b c rest ih =>
    have := plain a (by simp)
    have := plain b (by simp)
    have := plain c (by simp)
    have later := ih fun byte member => plain byte (by simp [member])
    simp only [split, List.mem_cons, forall_eq_or_imp]
    exact ⟨by omega, by omega, by omega, by omega, later⟩

theorem utf8_plain (text : List Char) (plain : ∀ char ∈ text, Plain char) :
    ∀ byte ∈ utf8Encode text, byte.toNat < 128 ∧ byte.toNat % 64 < 62 := by
  intro byte member
  obtain ⟨char, listed, encoded⟩ := List.mem_flatMap.mp member
  obtain ⟨ascii, low⟩ := plain char listed
  have one : char.utf8Size = 1 := Char.utf8Size_eq_one_iff.mpr (UInt32.le_iff_toNat_le.mpr (by
    change char.toNat ≤ 127
    omega))
  rw [String.utf8EncodeChar_eq_singleton one, List.mem_singleton] at encoded
  have value : byte.toNat = char.toNat := by
    rw [encoded, UInt32.toNat_toUInt8]
    exact Nat.mod_eq_of_lt (show char.toNat < 256 by omega)
  omega

/-- Plain text is safe in a query string. -/
theorem encode_plain (text : List Char) (plain : ∀ char ∈ text, Plain char) :
    '+' ∉ encode (utf8Encode text) ∧ '/' ∉ encode (utf8Encode text) := by
  have small := split_plain _ (utf8_plain text plain)
  have shown : ∀ char ∈ encode (utf8Encode text), char ≠ '+' ∧ char ≠ '/' := by
    intro char member
    rcases List.mem_append.mp member with digits | padding
    · obtain ⟨n, listed, rfl⟩ := List.mem_map.mp digits
      exact digit_letter n (small n listed)
    · rw [List.eq_of_mem_replicate padding]
      decide
  exact ⟨fun member => (shown _ member).1 rfl, fun member => (shown _ member).2 rfl⟩

end Base64
end Foundation
