import PaymentWallet.Foundation.Buffer
import PaymentWallet.Foundation.Text
import PaymentWallet.Sessions.Services

/-! Encryption of the rotation cache: hex of IV, ciphertext and tag, cut apart again by the
length of the buffer alone. The cipher itself is the platform's. -/
namespace PaymentWallet.Sessions
open Foundation

namespace CryptoService

def ivBytes : Nat := 12
def tagBytes : Nat := 16
def keyHexLength : Nat := 64

end CryptoService

/-- AES-256-GCM, with tags of 16 bytes. `decrypt` is none where the tag does not authenticate. -/
structure Gcm where
  encrypt : (key iv plaintext : List UInt8) → List UInt8
  authTag : (key iv plaintext : List UInt8) → List UInt8
  decrypt : (key iv ciphertext tag : List UInt8) → Option (List UInt8)
  encrypt_length : ∀ key iv plaintext, key.length = 32 → iv.length = 12 →
    (encrypt key iv plaintext).length = plaintext.length
  authTag_length : ∀ key iv plaintext, key.length = 32 → iv.length = 12 →
    (authTag key iv plaintext).length = 16
  decrypt_encrypt : ∀ key iv plaintext, key.length = 32 → iv.length = 12 →
    decrypt key iv (encrypt key iv plaintext) (authTag key iv plaintext) = some plaintext

/-- What `createDecipheriv` and `setAuthTag` leave for the decryption. -/
structure Decipher where
  key : List UInt8
  iv : List UInt8
  authTag : Option (List UInt8)
deriving DecidableEq

def createDecipheriv (key iv : List UInt8) : Except Exception Decipher :=
  if iv.isEmpty then throw (.error "Invalid initialization vector") else return ⟨key, iv, none⟩

/-- The lengths of tags that GCM allows. -/
def validTagLength (length : Nat) : Bool := length = 4 || length = 8 || (12 ≤ length && length ≤ 16)

def Decipher.setAuthTag (decipher : Decipher) (tag : List UInt8) : Except Exception Decipher :=
  if validTagLength tag.length then return { decipher with authTag := some tag }
  else throw (.error ("Invalid authentication tag length: " ++ toString tag.length))

/-- `update` and `final`. -/
def Decipher.finish (gcm : Gcm) (decipher : Decipher) (ciphertext : List UInt8) :
    Except Exception String :=
  match decipher.authTag.bind (gcm.decrypt decipher.key decipher.iv ciphertext) with
  | none => throw (.error "Unsupported state or unable to authenticate data")
  | some plaintext => return String.ofList (utf8Decode plaintext)

/-- The bytes of one call of `randomBytes`. -/
structure Iv where
  bytes : List UInt8
  sized : bytes.length = CryptoService.ivBytes

structure CryptoService where
  encryptionKey : List UInt8
  sized : encryptionKey.length = 32

namespace CryptoService

def malformedKey : Exception := .error ("CACHE_ENCRYPTION_KEY must be a 64-character " ++
  "hex string (32 bytes / 256 bits). " ++
  "Generate one with: node -e \"console.log(require('crypto').randomBytes(32).toString('hex'))\"")

/-- The constructor, on `cache.encryptionKey`. -/
def resolveKey (hex : Option String) : Except Exception CryptoService :=
  match truthy hex with
  | none => throw malformedKey
  | some hex =>
    if sixtyFour : hex.toList.length = keyHexLength then
      if digits : hex.toList.all fun char => (Json.hexValue char).isSome then
        return ⟨Hex.decode hex.toList, Hex.length_decode sixtyFour (List.all_eq_true.mp digits)⟩
      else
        throw (.error "CACHE_ENCRYPTION_KEY must contain only hexadecimal characters (0-9, a-f).")
    else throw malformedKey

/-- `iv` is freshly drawn for each call. -/
def encrypt (crypto : CryptoService) (gcm : Gcm) (iv : Iv) (plaintext : String) : String :=
  let bytes := utf8Encode plaintext.toList
  let encrypted := gcm.encrypt crypto.encryptionKey iv.bytes bytes
  let tag := gcm.authTag crypto.encryptionKey iv.bytes bytes
  String.ofList (Hex.encode (iv.bytes ++ encrypted ++ tag))

/-- Where a buffer of `length` bytes is cut. -/
def ivSlice (length : Nat) : Slice := subarray length 0 ivBytes
def tagSlice (length : Nat) : Slice := subarray length (length - tagBytes) length
def ciphertextSlice (length : Nat) : Slice := subarray length ivBytes (length - tagBytes)

/-- The decipher that `decrypt` uses, with the bytes it passes to it. -/
def prepare (crypto : CryptoService) (buf : List UInt8) :
    Except Exception (Decipher × List UInt8) := do
  let iv := (ivSlice buf.length).bytes buf
  let tag := (tagSlice buf.length).bytes buf
  let ciphertext := (ciphertextSlice buf.length).bytes buf
  let decipher ← createDecipheriv crypto.encryptionKey iv
  let decipher ← decipher.setAuthTag tag
  return (decipher, ciphertext)

def decrypt (crypto : CryptoService) (gcm : Gcm) (hex : String) : Except Exception String := do
  let (decipher, ciphertext) ← crypto.prepare (Hex.decode hex.toList)
  decipher.finish gcm ciphertext

end CryptoService

section Frames
variable {n : Nat}

theorem ivSlice_eq (n : Nat) : CryptoService.ivSlice n = ⟨0, min 12 n⟩ := by
  have start := clamp_nat n 0
  rw [CryptoService.ivSlice, subarray, clamp_nat, show (0 : Int) = (0 : Nat) from rfl, start]
  simp [CryptoService.ivBytes]

theorem tagSlice_eq (n : Nat) : CryptoService.tagSlice n =
    if 16 ≤ n then ⟨n - 16, 16⟩ else if 8 < n then ⟨2 * n - 16, 16 - n⟩ else ⟨0, n⟩ := by
  rw [CryptoService.tagSlice, subarray, clamp_back, clamp_nat, CryptoService.tagBytes]
  by_cases whole : 16 ≤ n
  · simp only [whole, if_true, Slice.mk.injEq, true_and]
    omega
  by_cases negative : 8 < n
  · simp only [whole, negative, if_true, if_false, Slice.mk.injEq, true_and]
    omega
  · simp only [whole, negative, if_false, Slice.mk.injEq]
    omega

theorem ciphertextSlice_eq (whole : 28 ≤ n) : CryptoService.ciphertextSlice n = ⟨12, n - 28⟩ := by
  rw [CryptoService.ciphertextSlice, subarray, clamp_back, clamp_nat, CryptoService.tagBytes,
    CryptoService.ivBytes]
  split <;> simp only [Slice.mk.injEq] <;> omega

/-- A tag is cut off that is as long as it should be, or shorter. -/
theorem length_tag (buf : List UInt8) : ((CryptoService.tagSlice buf.length).bytes buf).length =
    if 16 ≤ buf.length then 16 else if 8 < buf.length then 16 - buf.length else buf.length := by
  simp only [Slice.bytes, tagSlice_eq, List.length_take, List.length_drop]
  split
  · simp
    omega
  split
  · simp
    omega
  · simp

theorem prepare_ok (crypto : CryptoService) {buf : List UInt8} (some_ : buf ≠ [])
    (valid : validTagLength ((CryptoService.tagSlice buf.length).bytes buf).length) :
    crypto.prepare buf = .ok (⟨crypto.encryptionKey, (CryptoService.ivSlice buf.length).bytes buf,
      some ((CryptoService.tagSlice buf.length).bytes buf)⟩,
        (CryptoService.ciphertextSlice buf.length).bytes buf) := by
  have positive : 0 < buf.length := List.length_pos_iff.mpr some_
  have taken : ((CryptoService.ivSlice buf.length).bytes buf).isEmpty = false := by
    rw [List.isEmpty_eq_false_iff, ← List.length_pos_iff, ivSlice_eq]
    simp only [Slice.bytes, List.length_take, List.length_drop]
    omega
  simp only [CryptoService.prepare, createDecipheriv, Decipher.setAuthTag, taken, valid,
    Bool.false_eq_true, if_true, if_false]
  rfl

theorem prepare_error {crypto : CryptoService} {buf : List UInt8}
    (invalid : validTagLength ((CryptoService.tagSlice buf.length).bytes buf).length = false) :
    ∃ error, crypto.prepare buf = .error error := by
  simp only [CryptoService.prepare, createDecipheriv, Decipher.setAuthTag, invalid,
    Bool.false_eq_true, if_false]
  split <;> exact ⟨_, rfl⟩

/-- A frame is cut where its parts were joined. -/
theorem prepare_frame {crypto : CryptoService} {iv ciphertext tag : List UInt8}
    (ivLength : iv.length = 12) (tagLength : tag.length = 16) :
    crypto.prepare (iv ++ ciphertext ++ tag) = .ok (⟨crypto.encryptionKey, iv, some tag⟩,
      ciphertext) := by
  have length : (iv ++ ciphertext ++ tag).length = 28 + ciphertext.length := by
    simp only [List.length_append, ivLength, tagLength]
    omega
  have ivCut : (CryptoService.ivSlice (iv ++ ciphertext ++ tag).length).bytes (iv ++
      ciphertext ++ tag) = iv := by
    have reach : min 12 (28 + ciphertext.length) = iv.length := by omega
    rw [ivSlice_eq, length, reach, Slice.bytes, List.append_assoc, List.drop_zero, List.take_left]
  have ciphertextCut : (CryptoService.ciphertextSlice (iv ++ ciphertext ++ tag).length).bytes
      (iv ++ ciphertext ++ tag) =
      ciphertext := by
    rw [ciphertextSlice_eq (by omega), length, Slice.bytes, List.append_assoc, ← ivLength,
      List.drop_left, show 28 + ciphertext.length - 28 = ciphertext.length by omega, List.take_left]
  have tagCut : (CryptoService.tagSlice (iv ++ ciphertext ++ tag).length).bytes (iv ++
      ciphertext ++ tag) = tag := by
    rw [tagSlice_eq, if_pos (by omega), length, Slice.bytes,
      show 28 + ciphertext.length - 16 = (iv ++
        ciphertext).length by simp only [List.length_append]; omega,
      List.drop_left, ← tagLength, List.take_length]
  have some_ : iv ++ ciphertext ++ tag ≠ [] := List.ne_nil_of_length_pos (by omega)
  have cuts := prepare_ok crypto some_ (by rw [tagCut, tagLength]; rfl)
  rw [cuts, ivCut, ciphertextCut, tagCut]

/-- What was encrypted is decrypted. -/
theorem CryptoService.decrypt_encrypt (crypto : CryptoService) (gcm : Gcm) (iv : Iv)
    (plaintext : String) :
    crypto.decrypt gcm (crypto.encrypt gcm iv plaintext) = .ok plaintext := by
  obtain ⟨iv, ivLength⟩ := iv
  rw [CryptoService.ivBytes] at ivLength
  have opened := gcm.decrypt_encrypt _ iv (utf8Encode plaintext.toList) crypto.sized ivLength
  have tagLength := gcm.authTag_length _ iv (utf8Encode plaintext.toList) crypto.sized ivLength
  simp only [CryptoService.decrypt, CryptoService.encrypt, String.toList_ofList, Hex.decode_encode]
  generalize gcm.encrypt crypto.encryptionKey iv (utf8Encode plaintext.toList) = ciphertext at *
  generalize gcm.authTag crypto.encryptionKey iv (utf8Encode plaintext.toList) = tag at *
  simp only [prepare_frame ivLength tagLength, bind, Except.bind, Decipher.finish, Option.bind_some,
    opened, utf8Decode_encode, String.ofList_toList]
  rfl

end Frames
end PaymentWallet.Sessions
