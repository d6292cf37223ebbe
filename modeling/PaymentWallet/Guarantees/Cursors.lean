import PaymentWallet.Wallets.Cursor
import Mathlib.Data.String.Basic

/-! The cursor codec: what is encoded is decoded to the same instant and id, in text that
needs no escaping in a URL, and whatever else a client sends is refused in one way. -/
namespace PaymentWallet
open Foundation Base64

section Plain

theorem plain_hexDigit : ∀ n < 16, Plain (Json.hexDigit n) := by decide

theorem plain_digit : ∀ n < 10, Plain (Char.ofNat ('0'.toNat + n)) := by decide

/-- Known text is checked by running over it; `decide` alone may run over all characters. -/
theorem plain_all {text : List Char} (all : text.all (Plain ·) = true) :
    ∀ shown ∈ text, Plain shown := by
  intro shown member
  exact of_decide_eq_true (List.all_eq_true.mp all shown member)

/-- Escapes are plain as well. -/
theorem plain_escaped {char : Char} (plain : Plain char) :
    ∀ shown ∈ Json.escaped char, Plain shown := by
  have high := plain_hexDigit (char.toNat / 16 % 16) (Nat.mod_lt _ (by decide))
  have low := plain_hexDigit (char.toNat % 16) (Nat.mod_lt _ (by decide))
  unfold Json.escaped
  split
  · exact plain_all rfl
  split
  · exact plain_all rfl
  split
  · split
    · exact plain_all rfl
    split
    · exact plain_all rfl
    split
    · exact plain_all rfl
    split
    · exact plain_all rfl
    split
    · exact plain_all rfl
    · rename_i control _ _ _ _ _
      rw [Nat.mod_eq_of_lt (by omega)] at high
      simp only [List.forall_mem_cons, List.not_mem_nil, false_implies, implies_true, and_true]
      exact ⟨by decide, by decide, by decide, by decide, high, low⟩
  · exact fun shown member => List.mem_singleton.mp member ▸ plain

theorem plain_quote {value : String} (plain : ∀ char ∈ value.toList, Plain char) :
    ∀ shown ∈ Json.quote value, Plain shown := by
  intro shown member
  simp only [Json.quote, List.mem_cons, List.mem_append, List.mem_flatMap,
    List.not_mem_nil, or_false] at member
  rcases member with rfl | ⟨char, listed, escaped⟩ | rfl
  · decide
  · exact plain_escaped (plain char listed) shown escaped
  · decide

theorem plain_members {fields : List (String × String)}
    (plain : ∀ field ∈ fields, (∀ char ∈ field.1.toList, Plain char) ∧
      ∀ char ∈ field.2.toList, Plain char) :
    ∀ shown ∈ Json.members fields, Plain shown := by
  induction fields using Json.members.induct with
  | case1 => simp [Json.members]
  | case2 name value =>
    obtain ⟨first, second⟩ := plain (name, value) (by simp)
    simp only [Json.members, List.forall_mem_append, List.forall_mem_cons]
    exact ⟨plain_quote first, by decide, plain_quote second⟩
  | case3 name value rest _ ih =>
    obtain ⟨first, second⟩ := plain (name, value) (by simp)
    simp only [Json.members, List.forall_mem_append, List.forall_mem_cons]
    exact ⟨plain_quote first, by decide, plain_quote second, by decide,
      ih fun field member => plain field (by simp [member])⟩

theorem plain_digits (width n : Nat) : ∀ char ∈ Calendar.digits width n, Plain char := by
  induction width with
  | zero => simp [Calendar.digits]
  | succ width ih =>
    simp only [Calendar.digits, List.forall_mem_cons]
    exact ⟨plain_digit _ (Nat.mod_lt _ (by decide)), ih⟩

theorem plain_toISOString (time : Int) : ∀ char ∈ Calendar.toISOString time, Plain char := by
  have year : ∀ char ∈ Calendar.yearText (Calendar.ofDays (time / 86400000)).year, Plain char := by
    unfold Calendar.yearText
    split
    · exact plain_digits _ _
    · simp only [List.forall_mem_cons]
      exact ⟨by split <;> decide, plain_digits _ _⟩
  simp only [Calendar.toISOString, List.forall_mem_append, List.forall_mem_cons]
  refine ⟨year, by decide, plain_digits _ _, by decide, plain_digits _ _, by decide,
    plain_digits _ _, by decide, ?_⟩
  exact ⟨plain_digits _ _,
    by decide, plain_digits _ _, by decide, plain_digits _ _, by decide, nofun⟩

theorem plain_hex {char : Char} (hex : isHex char) : Plain char := by
  simp only [isHex, Char.isDigit, Bool.or_eq_true, Bool.and_eq_true, decide_eq_true_eq, Char.le_def,
    ge_iff_le, UInt32.le_iff_toNat_le] at hex
  change ((48 ≤ char.toNat ∧ char.toNat ≤ 57) ∨ 97 ≤ char.toNat ∧ char.toNat ≤ 102) ∨
    65 ≤ char.toNat ∧ char.toNat ≤ 70 at hex
  unfold Plain
  omega

theorem plain_uuid {id : String} (uuid : uuidRegex id) : ∀ char ∈ id.toList, Plain char := by
  intro char member
  simp only [uuidRegex, Bool.and_eq_true, List.all_eq_true, Bool.or_eq_true,
    decide_eq_true_eq] at uuid
  rcases uuid.2 char member with rfl | hex
  · decide
  · exact plain_hex hex

end Plain

/-- The text of a cursor is plain, with both values in it. -/
theorem plain_cursor {id : String} (uuid : uuidRegex id) (createdAt : Int) :
    ∀ char ∈ Json.stringify
      [("createdAt", String.ofList (Calendar.toISOString createdAt)), ("id", id)], Plain char := by
  have members : ∀ char ∈ Json.members
      [("createdAt", String.ofList (Calendar.toISOString createdAt)), ("id", id)], Plain char := by
    refine plain_members ?_
    simp only [List.forall_mem_cons, List.not_mem_nil, false_implies, implies_true, and_true,
      String.toList_ofList]
    exact ⟨⟨plain_all rfl, plain_toISOString createdAt⟩, plain_all rfl, plain_uuid uuid⟩
  simp only [Json.stringify, List.forall_mem_cons, List.forall_mem_append]
  exact ⟨by decide, members, by decide, fun _ member => absurd member List.not_mem_nil⟩

/-- The checks let valid cursors through only, and fail in one way. -/
theorem checkCursor_valid (platform : Platform) (parsed : Option Json) :
    WalletService.checkCursor platform parsed = .error WalletService.invalidCursor ∨
    ∃ cursor, WalletService.checkCursor platform parsed = .ok cursor ∧
      (∃ time, platform.dateParse cursor.createdAt = some time) ∧ uuidRegex cursor.id := by
  unfold WalletService.checkCursor
  split
  · exact .inl rfl
  split
  · split
    · split
      · exact .inl rfl
      rename_i date
      split
      · split
        · exact .inl rfl
        · rename_i uuid
          refine .inr ⟨_, rfl, Option.ne_none_iff_exists'.mp ?_, by simpa using uuid⟩
          simpa using date
      · exact .inl rfl
    · exact .inl rfl
  · exact .inl rfl

theorem cursor_codec (platform : Platform) :
    (∀ (id : String) (createdAt : Int), uuidRegex id → ValidDate createdAt →
      ('+' ∉ (WalletService.encodeCursor id createdAt).toList ∧
        '/' ∉ (WalletService.encodeCursor id createdAt).toList) ∧
      ∃ cursor, WalletService.decodeCursor platform
        (WalletService.encodeCursor id createdAt) = .ok cursor ∧
        platform.dateParse cursor.createdAt = some createdAt ∧ cursor.id = id) ∧
    ∀ raw, WalletService.decodeCursor platform raw =
      .error (.badRequest "Invalid pagination cursor") ∨
      ∃ cursor, WalletService.decodeCursor platform raw = .ok cursor ∧
        (∃ time, platform.dateParse cursor.createdAt = some time) ∧ uuidRegex cursor.id := by
  refine ⟨fun id createdAt uuid valid => ⟨?_, ?_⟩, fun raw => checkCursor_valid platform _⟩
  · rw [WalletService.encodeCursor, String.toList_ofList]
    exact encode_plain _ (plain_cursor uuid createdAt)
  · exact ⟨_, decodeCursor_encodeCursor platform uuid valid,
      dateParse_toISOString platform valid, rfl⟩

/-- A millisecond before the epoch. -/
theorem cursor_codec_before : ∃ cursor, WalletService.decodeCursor ⟨inferInstance, fun _ => none⟩
      (WalletService.encodeCursor "00000000-0000-4000-8000-00000000000A" (-1)) = .ok cursor ∧
    Platform.dateParse ⟨inferInstance, fun _ => none⟩ cursor.createdAt = some (-1) ∧
    cursor.id = "00000000-0000-4000-8000-00000000000A" :=
  ((cursor_codec ⟨inferInstance, fun _ => none⟩).1 "00000000-0000-4000-8000-00000000000A" (-1)
    (by decide) (by decide)).2

end PaymentWallet
