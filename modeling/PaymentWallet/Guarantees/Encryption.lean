import PaymentWallet.Sessions.Crypto
import PaymentWallet.Sessions.Schedules
import PaymentWallet.Guarantees.Logouts

/-! The encrypted rotation cache: what was stored is read back as long as the entry lives.
What was never encrypted need not be a whole frame, and short buffers are authenticated by
the bytes they happen to have. -/
namespace PaymentWallet.Sessions
open Foundation

namespace TokenPair

/-- `JSON.stringify(tokens)`. -/
def json (pair : TokenPair) : String :=
  String.ofList (Json.stringify [("accessToken", pair.accessToken),
    ("refreshToken", pair.refreshToken)])

/-- `JSON.parse(plaintext) as TokenPair`. -/
def parse (plaintext : String) : Option TokenPair :=
  match Json.parse plaintext.toList with
  | none => none
  | some parsed =>
    match parsed.field "accessToken", parsed.field "refreshToken" with
    | some (.string accessToken), some (.string refreshToken) => some ⟨accessToken, refreshToken⟩
    | _, _ => none

theorem parse_json (pair : TokenPair) : parse pair.json = some pair := by
  have parsed := Json.parse_stringify
    [("accessToken", pair.accessToken), ("refreshToken", pair.refreshToken)] (List.cons_ne_nil _ _)
  have first : (Json.object [("accessToken", .string pair.accessToken),
      ("refreshToken", .string pair.refreshToken)]).field
      "accessToken" = some (.string pair.accessToken) := by simp [Json.field]
  have second : (Json.object [("accessToken", .string pair.accessToken),
      ("refreshToken", .string pair.refreshToken)]).field
      "refreshToken" = some (.string pair.refreshToken) := by simp [Json.field]
  simp only [parse, json, String.toList_ofList, parsed, List.map_cons, List.map_nil, first, second]

end TokenPair

/-- The deployment whose cache is encrypted by `crypto`; each pair is stored once, under an IV of
its own. -/
def Config.encrypted (config : Config) (gcm : Gcm) (crypto : CryptoService)
    (ivs : TokenPair → Iv) : Config :=
  { config with
    encrypt := fun pair => crypto.encrypt gcm (ivs pair) pair.json
    decrypt := fun cached => (crypto.decrypt gcm cached).toOption.bind TokenPair.parse
    decrypt_encrypt := fun pair => by
      rw [CryptoService.decrypt_encrypt, Except.toOption, Option.bind_some, TokenPair.parse_json] }

section Cache
variable {config : Config} {pid : Nat} {hash : String} {tokens : TokenPair} {σ σ' : SharedState}

theorem available_store {result : Except Exception Unit}
    (run : (SessionService.storeRotationCache config hash tokens).Runs
      (Available config pid) σ result σ') :
    σ' = { σ with ext := σ.ext.setCache hash (config.encrypt tokens) σ.db.now } := by
  rcases Program.runs_handle.mp run with ⟨_, stores, rfl⟩ | ⟨error, _, stores, _⟩
  · obtain ⟨_, ext, answers, rfl⟩ := answering_available (Service.runs_outside.mp stores)
    cases answers
    rfl
  · obtain ⟨held, ext, answers, _⟩ := answering_available (Service.runs_outside.mp stores)
    cases answers <;> exact absurd rfl (held trivial)

/-- A live entry is found. -/
theorem available_replay {found : Except Exception (Option TokenPair)} {encrypted : String}
    (live : σ.ext.cached σ.db.now hash = some encrypted)
    (run : (SessionService.getRotationCache config hash).Runs (Available config pid) σ found σ') :
    found = .ok (config.decrypt encrypted) := by
  rcases Program.runs_handle.mp run with ⟨value, reads, rfl⟩ | ⟨error, σ₁, reads, _⟩
  · rcases runs_ask answering_available reads with ⟨cached, ext, answers, rest⟩ | ⟨error, ext,
      answers, held, failed, _⟩
    · obtain rfl : cached = some encrypted := by
        rcases answers.2 with read | lost
        · exact (Except.ok.inj read).trans live
        · cases lost
      obtain ⟨same, -⟩ := Program.runs_pure.mp rest
      exact same
    · cases failed
  · rcases runs_ask answering_available reads with ⟨cached, ext, answers, rest⟩ | ⟨error, ext,
      answers, held, failed, _⟩
    · cases cached <;> cases (Program.runs_pure.mp rest).1
    · rcases answers.2 with read | lost
      · cases read
      · exact absurd (Except.error.inj lost) (held trivial)

end Cache

/-- Decryption undoes encryption, and a stored pair is found again while its entry lives:
neither replaced nor deleted, and not yet expired. -/
theorem cache_returns (gcm : Gcm) (crypto : CryptoService) :
    (∀ iv plaintext, crypto.decrypt gcm (crypto.encrypt gcm iv plaintext) = .ok plaintext) ∧
    ∀ (config : Config) (ivs : TokenPair → Iv) (hash : String) (tokens : TokenPair)
      (writer reader : Nat) (σ σ₁ σ₂ σ₃ : SharedState) (stored : Except Exception Unit)
      (found : Except Exception (Option TokenPair)),
      (SessionService.storeRotationCache (config.encrypted gcm crypto ivs) hash tokens).Runs
        (Available (config.encrypted gcm crypto ivs) writer) σ stored σ₁ →
      σ₂.ext.cache hash = σ₁.ext.cache hash → σ₂.db.now < σ.db.now + gracePeriodSeconds * 1000 →
      (SessionService.getRotationCache (config.encrypted gcm crypto ivs) hash).Runs
        (Available (config.encrypted gcm crypto ivs) reader) σ₂ found σ₃ →
      found = .ok (some tokens) := by
  refine ⟨crypto.decrypt_encrypt gcm, ?_⟩
  intro config ivs hash tokens writer reader σ σ₁ σ₂ σ₃ stored found stores kept live reads
  have opens := (config.encrypted gcm crypto ivs).decrypt_encrypt tokens
  generalize config.encrypted gcm crypto ivs = config at *
  rw [available_store stores] at kept
  have cached : σ₂.ext.cached σ₂.db.now hash = some (config.encrypt tokens) := by
    simp only [Ext.cached, kept, Ext.setCache, Function.update_self, Option.filter_some,
      decide_eq_true live, if_true, Option.map_some]
  rw [available_replay cached reads, opens]

section Sample

/-- The ciphertext and the tag of one text under the zero key and the zero IV. -/
def sampleText : String := "\x7b\"accessToken\":\"a\",\"refreshToken\":\"r\"\x7d"

def sampleCiphertext : List UInt8 :=
  [181, 133, 33, 94, 46, 5, 24, 29, 83, 33, 174, 182, 212, 209, 167, 58, 19, 66, 47, 232,
  69, 195, 76, 6, 180, 209, 157, 218, 26, 109, 80, 224, 255, 112, 147, 90, 111, 55]

def sampleTag : List UInt8 :=
  [24, 153, 138, 6, 206, 30, 101, 118, 72, 25, 65, 134, 121, 179, 218, 173]

def sampleInput (key iv plaintext : List UInt8) : Bool :=
  key = List.replicate 32 0 && iv = List.replicate 12 0 && plaintext = utf8Encode sampleText.toList

/-- AES-256-GCM on the sample text, and elsewhere a cipher of the same lengths. -/
def Gcm.sample : Gcm where
  encrypt key iv plaintext := if sampleInput key iv plaintext then sampleCiphertext else plaintext
  authTag key iv plaintext := if sampleInput key iv plaintext then sampleTag
    else List.replicate 16 0
  decrypt key iv ciphertext tag :=
    if tag = List.replicate 16 0 then some ciphertext
    else if sampleInput key iv (utf8Encode sampleText.toList) &&
      ciphertext = sampleCiphertext && tag = sampleTag then
      some (utf8Encode sampleText.toList)
    else none
  encrypt_length key iv plaintext _ _ := by
    split
    · rename_i sample
      simp only [sampleInput, Bool.and_eq_true, decide_eq_true_eq] at sample
      rw [sample.2]
      rfl
    · rfl
  authTag_length key iv plaintext _ _ := by
    split <;> rfl
  decrypt_encrypt key iv plaintext _ _ := by
    by_cases sample : sampleInput key iv plaintext = true
    · have zeros : sampleTag ≠ List.replicate 16 0 := by decide
      have same : plaintext = utf8Encode sampleText.toList := by
        simp only [sampleInput, Bool.and_eq_true, decide_eq_true_eq] at sample
        exact sample.2
      subst same
      simp only [sample, if_true, if_neg zeros, decide_true, Bool.and_self]
    · simp only [sample, Bool.false_eq_true, if_true, if_false]

def CryptoService.sample : CryptoService := ⟨List.replicate 32 0, rfl⟩

def Iv.sample : Iv := ⟨List.replicate 12 0, rfl⟩

theorem cache_returns_sample :
    CryptoService.sample.decrypt Gcm.sample
      (CryptoService.sample.encrypt Gcm.sample Iv.sample sampleText) = .ok sampleText ∧
    ∃ σ₁, (SessionService.getRotationCache
      ((Config.sample 1).encrypted Gcm.sample CryptoService.sample fun _ => Iv.sample) "hash").Runs
      (Available ((Config.sample 1).encrypted Gcm.sample CryptoService.sample fun _ => Iv.sample) 1)
        σ₁ (.ok (some ⟨"a", "r"⟩)) σ₁ := by
  let config := (Config.sample 1).encrypted Gcm.sample CryptoService.sample fun _ => Iv.sample
  let σ : SharedState := ⟨Store.empty, [], Ext.idle⟩
  let σ₁ : SharedState := { σ with ext := σ.ext.setCache "hash" (config.encrypt ⟨"a", "r"⟩) 0 }
  have stores : (SessionService.storeRotationCache config "hash" ⟨"a", "r"⟩).Runs
    (Available config 0) σ (.ok ()) σ₁ :=
    Program.runs_handle.mpr
      (.inl ⟨(), Service.runs_outside.mpr ⟨.outside trivial .done, nofun⟩, rfl⟩)
  have reads : (SessionService.getRotationCache config "hash").Runs (Available config 1) σ₁
      (.ok (config.decrypt (config.encrypt ⟨"a", "r"⟩))) σ₁ := by
    refine Program.runs_handle.mpr
      (.inl ⟨_, Program.runs_bind.mpr (.inl ⟨some (config.encrypt ⟨"a", "r"⟩), σ₁, ?_, .pure⟩),
      rfl⟩)
    exact Service.runs_outside.mpr ⟨.outside trivial ⟨rfl, .inl rfl⟩, nofun⟩
  obtain ⟨opens, returns⟩ := cache_returns Gcm.sample CryptoService.sample
  refine ⟨opens _ _, σ₁, ?_⟩
  rw [← returns (Config.sample 1) (fun _ => Iv.sample) "hash" ⟨"a",
    "r"⟩ 0 1 σ σ₁ σ₁ σ₁ _ _ stores rfl (by decide) reads]
  exact reads

end Sample

section Frames
variable (crypto : CryptoService) (hex : String)

/-- The parts follow one another and cover `length` bytes, of which 12 are the IV and 16 the tag. -/
structure Covers (iv ciphertext tag : Slice) (length : Nat) : Prop where
  front : iv.start = 0
  ivSize : iv.length = 12
  middle : ciphertext.start = iv.start + iv.length
  back : tag.start = ciphertext.start + ciphertext.length
  tagSize : tag.length = 16
  whole : tag.start + tag.length = length

/-- `decrypt` throws before it uses the cipher, or passes it the parts of a whole frame. -/
def DecryptsFrame : Prop :=
  let buf := Hex.decode hex.toList
  let iv := CryptoService.ivSlice buf.length
  let ciphertext := CryptoService.ciphertextSlice buf.length
  let tag := CryptoService.tagSlice buf.length
  (∃ error, crypto.prepare buf = .error error) ∨
  Covers iv ciphertext tag buf.length ∧
    crypto.prepare buf = .ok (⟨crypto.encryptionKey, iv.bytes buf, some (tag.bytes buf)⟩,
      ciphertext.bytes buf)

/-- The lengths whose tag is let through. -/
theorem validTag_iff (buf : List UInt8) :
    validTagLength ((CryptoService.tagSlice buf.length).bytes buf).length ↔
    16 ≤ buf.length ∨ buf.length ∈ [4, 8, 12] := by
  rw [length_tag]
  simp only [validTagLength, Bool.or_eq_true, Bool.and_eq_true, decide_eq_true_eq, List.mem_cons,
    List.not_mem_nil, or_false]
  split
  · omega
  split <;> omega

/-- Exactly the whole frames are safe, and the short buffers whose tags have a length that is
not allowed. -/
theorem decrypt_frames : DecryptsFrame crypto hex ↔ 28 ≤ (Hex.decode hex.toList).length ∨
    (Hex.decode hex.toList).length < 16 ∧ (Hex.decode hex.toList).length ∉ [4, 8, 12] := by
  unfold DecryptsFrame
  generalize Hex.decode hex.toList = buf
  have let_ := validTag_iff buf
  by_cases whole : 28 ≤ buf.length
  · have covers : Covers (CryptoService.ivSlice buf.length)
      (CryptoService.ciphertextSlice buf.length)
        (CryptoService.tagSlice buf.length) buf.length := by
      rw [ivSlice_eq, ciphertextSlice_eq whole, tagSlice_eq, if_pos (by omega)]
      constructor <;> dsimp only <;> omega
    exact iff_of_true (.inr ⟨covers,
      prepare_ok crypto (List.ne_nil_of_length_pos (by omega)) (let_.mpr (.inl (by omega)))⟩)
      (.inl whole)
  have uncovered : ¬ Covers (CryptoService.ivSlice buf.length)
      (CryptoService.ciphertextSlice buf.length)
      (CryptoService.tagSlice buf.length) buf.length := by
    rintro ⟨front, ivSize, middle, back, tagSize, covered⟩
    omega
  simp only [uncovered, whole, false_and, or_false, false_or]
  by_cases valid : 16 ≤ buf.length ∨ buf.length ∈ [4, 8, 12]
  · have some_ : buf ≠ [] := by
      rintro rfl
      revert valid
      decide
    refine iff_of_false ?_ fun ⟨short, unlisted⟩ => valid.elim (by omega) unlisted
    rintro ⟨error, failed⟩
    cases failed.symm.trans (prepare_ok crypto some_ (let_.mpr valid))
  · obtain ⟨short, unlisted⟩ := not_or.mp valid
    exact iff_of_true (prepare_error (Bool.eq_false_iff.mpr fun through => valid (let_.mp through)))
      ⟨by omega, unlisted⟩

/-- Twelve bytes are taken for an IV, and their last four for a tag besides. -/
theorem decrypt_truncated :
    CryptoService.sample.prepare (Hex.decode "000102030405060708090a0b".toList) =
      .ok (⟨List.replicate 32 0, [0, 1, 2, 3, 4, 5, 6, 7, 8, 9, 10, 11], some [8, 9, 10, 11]⟩, []) ∧
    ¬ DecryptsFrame CryptoService.sample "000102030405060708090a0b" := by
  have prepared : CryptoService.sample.prepare (Hex.decode "000102030405060708090a0b".toList) =
      .ok (⟨List.replicate 32 0, [0, 1, 2, 3, 4, 5, 6, 7, 8, 9, 10, 11], some [8, 9, 10, 11]⟩,
        []) := by decide
  refine ⟨prepared, ?_⟩
  rintro (⟨error, failed⟩ | ⟨covers, -⟩)
  · cases failed.symm.trans prepared
  · exact absurd covers.tagSize (by decide)

end Frames

end PaymentWallet.Sessions
