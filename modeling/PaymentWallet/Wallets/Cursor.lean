import PaymentWallet.Model.Schema
import PaymentWallet.Foundation.Text
import PaymentWallet.Foundation.Json
import PaymentWallet.Foundation.Calendar
import Mathlib.Order.Defs.LinearOrder

/-! The opaque cursors of the paginated lists: base64 of the JSON of the last row's
creation time and id. -/
namespace PaymentWallet
open Foundation

/-- What the service runs on: the order of the id columns in the database, and
`Date.parse` on text that `toISOString` does not produce. -/
structure Platform where
  collation : LinearOrder String
  parseOther : String → Option Int

/-- `Date.parse`, or the time of `new Date`; `none` is `NaN`. -/
def Platform.dateParse (platform : Platform) (text : String) : Option Int :=
  (Calendar.ofISOString text.toList).or (platform.parseOther text)

structure KeysetCursor where
  createdAt : String
  id : String
deriving DecidableEq

/-- A time that a `Date` can hold. -/
def ValidDate (time : Int) : Prop := -Calendar.range ≤ time ∧ time ≤ Calendar.range

instance (time : Int) : Decidable (ValidDate time) := inferInstanceAs (Decidable (_ ∧ _))

/-- Rows are not older than the epoch. -/
def DateTime.Valid (time : DateTime) : Prop := (time : Int) ≤ Calendar.range

instance (time : DateTime) : Decidable (DateTime.Valid time) := inferInstanceAs (Decidable (_ ≤ _))

theorem DateTime.Valid.date {time : DateTime} (valid : time.Valid) : ValidDate time := by
  refine ⟨?_, valid⟩
  unfold Calendar.range
  omega

def isHex (char : Char) : Bool :=
  char.isDigit || ('a' ≤ char && char ≤ 'f') || ('A' ≤ char && char ≤ 'F')

/-- `UUID_REGEX`. -/
def uuidRegex (id : String) : Bool :=
  (id.toList.splitOn '-').map List.length = [8, 4, 4, 4, 12] && id.toList.all fun char =>
    char = '-' || isHex char

namespace WalletService

def encodeCursor (id : String) (createdAt : Int) : String :=
  let cursor := [("createdAt", String.ofList (Calendar.toISOString createdAt)), ("id", id)]
  String.ofList (Base64.encode (utf8Encode (Json.stringify cursor)))

def invalidCursor : Exception := .badRequest "Invalid pagination cursor"

/-- The checks of the parsed text. Everything but an object has no fields, and fails
like an object without them. -/
def checkCursor (platform : Platform) : Option Json → Except Exception KeysetCursor
  | none => throw invalidCursor
  | some parsed =>
    match parsed.field "createdAt", parsed.field "id" with
    | some createdAt, some id =>
      match createdAt with
      | .string createdAt =>
        if (platform.dateParse createdAt).isNone then throw invalidCursor
        else
          match id with
          | .string id => if !uuidRegex id then throw invalidCursor else return ⟨createdAt, id⟩
          | _ => throw invalidCursor
      | _ => throw invalidCursor
    | _, _ => throw invalidCursor

def decodeCursor (platform : Platform) (raw : String) : Except Exception KeysetCursor :=
  checkCursor platform (Json.parse (utf8Decode (Base64.decode raw.toList)))

end WalletService

section RoundTrip
variable (platform : Platform) {id : String} {createdAt : Int}

theorem dateParse_toISOString (valid : ValidDate createdAt) :
    platform.dateParse (String.ofList (Calendar.toISOString createdAt)) = some createdAt := by
  simp [Platform.dateParse, Calendar.ofISOString_toISOString valid.1 valid.2]

/-- The members of a cursor. -/
theorem cursor_fields (createdAt id : Json) :
    (Json.object [("createdAt", createdAt), ("id", id)]).field "createdAt" = some createdAt ∧
    (Json.object [("createdAt", createdAt), ("id", id)]).field "id" = some id := by
  simp [Json.field]

/-- What the service reads of a cursor that it wrote. -/
theorem encodeCursor_text (id : String) (createdAt : Int) :
    utf8Decode (Base64.decode (WalletService.encodeCursor id createdAt).toList) =
    Json.stringify [("createdAt", String.ofList (Calendar.toISOString createdAt)), ("id", id)] := by
  rw [WalletService.encodeCursor, String.toList_ofList, Base64.decode_encode, utf8Decode_encode]

theorem decodeCursor_encodeCursor (uuid : uuidRegex id) (valid : ValidDate createdAt) :
    WalletService.decodeCursor platform (WalletService.encodeCursor id createdAt) =
      .ok ⟨String.ofList (Calendar.toISOString createdAt), id⟩ := by
  have date := dateParse_toISOString platform valid
  have parsed := Json.parse_stringify
    [("createdAt", String.ofList (Calendar.toISOString createdAt)), ("id", id)]
    (List.cons_ne_nil _ _)
  have text := encodeCursor_text id createdAt
  rw [WalletService.decodeCursor, text, parsed]
  generalize String.ofList (Calendar.toISOString createdAt) = shown at date ⊢
  obtain ⟨first, second⟩ := cursor_fields (.string shown) (.string id)
  simp only [List.map_cons, List.map_nil, WalletService.checkCursor, first, second, date, uuid,
    Option.isNone_some, Bool.not_true, Bool.false_eq_true, if_false]
  rfl

end RoundTrip
end PaymentWallet
