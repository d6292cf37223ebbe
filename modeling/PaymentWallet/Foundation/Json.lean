import Mathlib.Data.List.Basic

/-! JSON text. `parse` takes any text, and reads an object of strings back as it was
written. Surrogates that an escape leaves unpaired read as the replacement character. -/
namespace Foundation

inductive Json where
  | null
  | boolean (value : Bool)
  | number (literal : List Char)
  | string (value : String)
  | array (items : List Json)
  | object (members : List (String × Json))

namespace Json

/-- The value of a member; of members with the same name the last one counts. -/
def field (name : String) : Json → Option Json
  | .object members => (members.reverse.find? (·.1 = name)).map (·.2)
  | _ => none

section Writing

def hexDigit (n : Nat) : Char :=
  if n < 10 then Char.ofNat ('0'.toNat + n) else Char.ofNat ('a'.toNat + (n - 10))

def escaped (char : Char) : List Char :=
  if char = '"' then ['\\', '"']
  else if char = '\\' then ['\\', '\\']
  else if char.toNat < 32 then
    if char = '\x08' then ['\\', 'b']
    else if char = '\t' then ['\\', 't']
    else if char = '\n' then ['\\', 'n']
    else if char = '\x0c' then ['\\', 'f']
    else if char = '\r' then ['\\', 'r']
    else ['\\', 'u', '0', '0', hexDigit (char.toNat / 16), hexDigit (char.toNat % 16)]
  else [char]

def quote (value : String) : List Char := '"' :: (value.toList.flatMap escaped ++ ['"'])

def members : List (String × String) → List Char
  | [] => []
  | [(name, value)] => quote name ++ ':' :: quote value
  | (name, value) :: rest => quote name ++ ':' :: (quote value ++ ',' :: members rest)

/-- `JSON.stringify`, of an object whose values are strings. -/
def stringify (fields : List (String × String)) : List Char :=
  '\x7b' :: (members fields ++ ['\x7d'])

end Writing

section Reading

def skip (text : List Char) : List Char := text.dropWhile fun char => char ∈ [' ', '\t', '\n', '\r']

def hexValue (char : Char) : Option Nat :=
  if char.isDigit then some (char.toNat - '0'.toNat)
  else if 'a' ≤ char ∧ char ≤ 'f' then some (char.toNat - 'a'.toNat + 10)
  else if 'A' ≤ char ∧ char ≤ 'F' then some (char.toNat - 'A'.toNat + 10)
  else none

def unescape (char : Char) : Option Char :=
  if char = '"' ∨ char = '\\' ∨ char = '/' then some char
  else if char = 'b' then some '\x08'
  else if char = 'f' then some '\x0c'
  else if char = 'n' then some '\n'
  else if char = 'r' then some '\r'
  else if char = 't' then some '\t'
  else none

/-- The code points up to the closing quote, and what follows it. -/
def codePoints : List Char → Option (List Nat × List Char)
  | [] => none
  | '"' :: text => some ([], text)
  | '\\' :: 'u' :: a :: b :: c :: d :: text => do
    let point := (← hexValue a) * 4096 + (← hexValue b) * 256 + (← hexValue c) * 16 + (← hexValue d)
    let (points, text) ← codePoints text
    return (point :: points, text)
  | '\\' :: char :: text => do
    let point ← unescape char
    let (points, text) ← codePoints text
    return (point.toNat :: points, text)
  | char :: text =>
    if char.toNat < 32 then none
    else (codePoints text).map fun (points, text) => (char.toNat :: points, text)

def highSurrogate (point : Nat) : Bool := 0xD800 ≤ point && point < 0xDC00

def lowSurrogate (point : Nat) : Bool := 0xDC00 ≤ point && point < 0xE000

/-- Joins the surrogate pairs. -/
def characters : List Nat → List Char
  | [] => []
  | [point] => [if highSurrogate point || lowSurrogate point then '\uFFFD' else Char.ofNat point]
  | point :: next :: points =>
    if highSurrogate point && lowSurrogate next then
      Char.ofNat (0x10000 + (point - 0xD800) * 0x400 + (next - 0xDC00)) :: characters points
    else (if highSurrogate point || lowSurrogate point then '\uFFFD' else Char.ofNat point) ::
      characters (next :: points)

def readString (text : List Char) : Option (String × List Char) :=
  (codePoints text).map fun (points, text) => (String.ofList (characters points), text)

/-- The digits at the front, at least one. -/
def readDigits (text : List Char) : Option (List Char × List Char) :=
  if (text.takeWhile Char.isDigit).isEmpty then none
    else some (text.takeWhile Char.isDigit, text.dropWhile Char.isDigit)

def readFraction : List Char → Option (List Char × List Char)
  | '.' :: text => (readDigits text).map fun (digits, text) => ('.' :: digits, text)
  | text => some ([], text)

def readSign : List Char → List Char × List Char
  | '+' :: text => (['+'], text)
  | '-' :: text => (['-'], text)
  | text => ([], text)

def readExponent : List Char → Option (List Char × List Char)
  | [] => some ([], [])
  | mark :: text =>
    if mark = 'e' ∨ mark = 'E' then
      (readDigits (readSign text).2).map fun (digits, rest) =>
        (mark :: (readSign text).1 ++ digits, rest)
    else some ([], mark :: text)

/-- A number starts with no zero but its only one. -/
def readNumber (text : List Char) : Option (Json × List Char) := do
  let (sign, text) := match text with
    | '-' :: text => (['-'], text)
    | text => ([], text)
  let (whole, text) ← readDigits text
  if whole.head? = some '0' ∧ 1 < whole.length then none
  else
    let (fraction, text) ← readFraction text
    let (exponent, text) ← readExponent text
    return (.number (sign ++ whole ++ fraction ++ exponent), text)

/-- What follows a keyword. -/
def keyword (word : List Char) (text : List Char) : Option (List Char) :=
  if word <+: text then some (text.drop word.length) else none

mutual

/-- Every nested value and every further item has at least one character of its own, so
`fuel` need not exceed the length of the text. -/
def readValue : (fuel : Nat) → List Char → Option (Json × List Char)
  | 0, _ => none
  | fuel + 1, text =>
    match skip text with
    | [] => none
    | first :: rest =>
      if first = '"' then (readString rest).map fun (value, text) => (.string value, text)
      else if first = '[' then
        match skip rest with
        | ']' :: text => some (.array [], text)
        | text => (readItems fuel text).map fun (items, text) => (.array items, text)
      else if first = '\x7b' then
        match skip rest with
        | '\x7d' :: text => some (.object [], text)
        | text => (readMembers fuel text).map fun (members, text) => (.object members, text)
      else if first = 'n' then (keyword "ull".toList rest).map (.null, ·)
      else if first = 't' then (keyword "rue".toList rest).map (.boolean true, ·)
      else if first = 'f' then (keyword "alse".toList rest).map (.boolean false, ·)
      else readNumber (first :: rest)

def readItems : (fuel : Nat) → List Char → Option (List Json × List Char)
  | 0, _ => none
  | fuel + 1, text => do
    let (item, text) ← readValue fuel text
    match skip text with
    | ',' :: text => (readItems fuel text).map fun (items, text) => (item :: items, text)
    | ']' :: text => some ([item], text)
    | _ => none

def readMembers : (fuel : Nat) → List Char → Option (List (String × Json) × List Char)
  | 0, _ => none
  | fuel + 1, text =>
    match skip text with
    | '"' :: text => do
      let (name, text) ← readString text
      match skip text with
      | ':' :: text =>
        let (value, text) ← readValue fuel text
        match skip text with
        | ',' :: text =>
          (readMembers fuel text).map fun (members, text) => ((name, value) :: members, text)
        | '\x7d' :: text => some ([(name, value)], text)
        | _ => none
      | _ => none
    | _ => none

end

/-- `JSON.parse`; a `SyntaxError` is `none`. -/
def parse (text : List Char) : Option Json :=
  match readValue (text.length + 1) text with
  | some (value, rest) => if (skip rest).isEmpty then some value else none
  | none => none

end Reading

section RoundTrip

theorem hexValue_hexDigit : ∀ n < 16, hexValue (hexDigit n) = some n := by decide

theorem codePoints_escaped (value text : List Char) :
    codePoints (value.flatMap escaped ++ '"' :: text) = some (value.map Char.toNat, text) := by
  induction value with
  | nil => simp [codePoints]
  | cons char value ih =>
    simp only [List.flatMap_cons, List.append_assoc, List.map_cons]
    by_cases quote : char = '"'
    · subst quote
      simp [escaped, codePoints, unescape, ih]
    by_cases backslash : char = '\\'
    · subst backslash
      simp [escaped, codePoints, unescape, ih]
    by_cases control : char.toNat < 32
    · by_cases named : char = '\x08' ∨ char = '\t' ∨ char = '\n' ∨ char = '\x0c' ∨ char = '\r'
      · rcases named with rfl | rfl | rfl | rfl | rfl <;> simp [escaped, codePoints, unescape, ih]
      · simp only [not_or] at named
        have upper := hexValue_hexDigit (char.toNat / 16) (by omega)
        have lower := hexValue_hexDigit (char.toNat % 16) (by omega)
        have zero : hexValue '0' = some 0 := rfl
        simp only [escaped, quote, backslash, control, named, if_true, if_false, List.cons_append,
          List.nil_append, codePoints, zero, upper, lower, ih, Option.bind_eq_bind,
          Option.bind_some, Option.pure_def]
        rw [show 0 * 4096 + 0 * 256 + char.toNat / 16 * 16 + char.toNat % 16 = char.toNat by omega]
    · simp [escaped, quote, backslash, control, codePoints, ih]

theorem not_surrogate (char : Char) :
    highSurrogate char.toNat = false ∧ lowSurrogate char.toNat = false := by
  have valid := char.valid
  simp only [highSurrogate, lowSurrogate, Bool.and_eq_false_iff, decide_eq_false_iff_not]
  simp only [UInt32.isValidChar, Nat.isValidChar] at valid
  show (¬ 0xD800 ≤ char.val.toNat ∨ ¬ char.val.toNat < 0xDC00) ∧
    (¬ 0xDC00 ≤ char.val.toNat ∨ ¬ char.val.toNat < 0xE000)
  omega

/-- Characters are no surrogates. -/
theorem characters_toNat (value : List Char) : characters (value.map Char.toNat) = value := by
  induction value with
  | nil => rfl
  | cons char value ih =>
    cases value with
    | nil => simp [characters, not_surrogate]
    | cons next value =>
      simp only [List.map_cons] at ih ⊢
      simp [characters, not_surrogate, ih]

theorem readString_quote (value : String) (text : List Char) :
    readString (value.toList.flatMap escaped ++ '"' :: text) = some (value, text) := by
  simp [readString, codePoints_escaped, characters_toNat]

/-- A character that is no space stays in front. -/
theorem skip_cons (char : Char) (solid : char ∉ [' ', '\t', '\n', '\r']) (text : List Char) :
    skip (char :: text) = char :: text :=
  List.dropWhile_cons_of_neg (by simpa using solid)

theorem quote_append (value : String) (text : List Char) :
    quote value ++ text = '"' :: (value.toList.flatMap escaped ++ '"' :: text) := by
  simp [quote]

theorem readValue_quote (fuel : Nat) (value : String) (text : List Char) :
    readValue (fuel + 1) (quote value ++ text) = some (.string value, text) := by
  simp only [quote_append, readValue,
    skip_cons '"' (by decide), if_true, readString_quote, Option.map_some]

theorem readMembers_members (fields : List (String × String)) (some_ : fields ≠ [])
    (fuel : Nat) (text : List Char)
    (enough : fields.length < fuel) : readMembers fuel (members fields ++ '\x7d' :: text) =
      some (fields.map fun (name, value) => (name, .string value), text) := by
  induction fields generalizing fuel with
  | nil => exact absurd rfl some_
  | cons first rest ih =>
    obtain ⟨name, value⟩ := first
    simp only [List.length_cons] at enough
    obtain ⟨fuel, rfl⟩ : ∃ less, fuel = less + 2 := ⟨fuel - 2, by omega⟩
    -- the name and the colon
    have member : ∀ after, readMembers (fuel + 2) (quote name ++ ':' :: (quote value ++ after)) =
        match skip after with
        | ',' :: text =>
          (readMembers (fuel + 1) text).map fun (members, text) =>
            ((name, .string value) :: members, text)
        | '\x7d' :: text => some ([(name, .string value)], text)
        | _ => none := by
      intro after
      rw [quote_append, readMembers, skip_cons '"' (by decide)]
      simp only [readString_quote, Option.bind_eq_bind, Option.bind_some,
        skip_cons ':' (by decide), readValue_quote]
    cases rest with
    | nil =>
      simp only [members, List.append_assoc, List.cons_append, member, skip_cons '\x7d' (by decide),
        List.map_cons, List.map_nil]
    | cons second rest =>
      have later := ih (by simp) (fuel + 1) (by omega)
      simp only [members, List.append_assoc, List.cons_append, member,
        skip_cons ',' (by decide)] at later ⊢
      rw [later]
      rfl

theorem members_length (fields : List (String × String)) :
    fields.length ≤ (members fields).length := by
  induction fields using members.induct with
  | case1 => exact Nat.zero_le _
  | case2 name value => simp [members, quote]
  | case3 name value rest _ ih =>
    simp only [members, List.length_append, List.length_cons, quote] at ih ⊢
    omega

/-- What was written is read. -/
theorem parse_stringify (fields : List (String × String)) (some_ : fields ≠ []) :
    parse (stringify fields) =
      some (.object (fields.map fun (name, value) => (name, .string value))) := by
  have length := members_length fields
  have front : ∃ text, members fields ++ ['\x7d'] = '"' :: text := by
    cases fields with
    | nil => exact absurd rfl some_
    | cons first rest =>
      obtain ⟨name, value⟩ := first
      cases rest with
      | nil => exact ⟨_, by simp only [members, quote_append, List.cons_append]; rfl⟩
      | cons second rest => exact ⟨_, by simp only [members, quote_append, List.cons_append]; rfl⟩
  have read := readMembers_members fields some_ ((members fields ++ ['\x7d']).length + 1) []
    (by simp only [List.length_append]; omega)
  obtain ⟨text, front⟩ := front
  rw [front] at read
  simp only [parse, stringify, front, List.length_cons] at read ⊢
  simp only [readValue, skip_cons '\x7b' (by decide), skip_cons '"' (by decide)]
  simp [read, skip]

end RoundTrip
end Json
end Foundation
