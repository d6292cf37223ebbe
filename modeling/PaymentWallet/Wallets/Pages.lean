import PaymentWallet.Wallets.Cursor
import PaymentWallet.Foundation.Pagination
import Mathlib.Data.Prod.Lex

/-! The paginated lists of wallets and ledger entries. A fetch is one query on the
committed store; both lists sort by creation time and id, newest first. -/
namespace PaymentWallet
open Foundation

/-- Ids, as the database orders them. -/
def Platform.Id (_ : Platform) : Type := String

instance (platform : Platform) : LinearOrder platform.Id := platform.collation

def Platform.collated (platform : Platform) (id : String) : platform.Id := id

/-- What the lists are sorted by. -/
def Platform.key (platform : Platform) (createdAt : DateTime) (id : String) :
    DateTime ×ₗ platform.Id :=
  toLex (createdAt, platform.collated id)

/-- `Decimal.toFixed(2)`: hundredths, rounded half away from zero. -/
def serializeDecimal (value : Decimal) : String :=
  let hundredths := (value.natAbs + 50) / 100
  (if value < 0 then "-" else "") ++ toString (hundredths / 100) ++ "." ++
    String.ofList (Calendar.digits 2 (hundredths % 100))

structure WalletResponse where
  id : WalletId
  userId : UserId
  currency : Currency
  status : AccountStatus
  availableBalance : String
  lockedBalance : String
  pendingBalance : String
  createdAt : DateTime
deriving DecidableEq

structure LedgerTransactionSummary where
  type : TransactionType
  status : TransactionStatus
  description : Option String
  senderWalletId : Option WalletId
  receiverWalletId : Option WalletId
deriving DecidableEq

/-- The columns of `LEDGER_ENTRY_SELECT`. -/
structure LedgerEntryRecord extends LedgerEntry where
  transaction : Option LedgerTransactionSummary

structure LedgerEntryResponse where
  id : String
  walletId : WalletId
  transactionId : TransactionId
  direction : EntryDirection
  amount : String
  currency : Currency
  balanceAfter : String
  createdAt : DateTime
  transaction : Option LedgerTransactionSummary
deriving DecidableEq

structure WalletFilters where
  status : Option AccountStatus
  currency : Option Currency

structure LedgerQueryDto where
  cursor : Option String
  limit : Nat

structure AdminWalletQueryDto where
  cursor : Option String
  limit : Nat
  status : Option AccountStatus
  currency : Option Currency

namespace WalletRepository
variable (platform : Platform)

/-- The `OR` of the cursor; a query with an invalid date fails. -/
def below : Option KeysetCursor → Except Exception (DateTime → String → Bool)
  | none => return fun _ _ => true
  | some cursor =>
    match platform.dateParse cursor.createdAt with
    | none => throw (.error "Invalid Date")
    | some date => return fun createdAt id =>
        (createdAt : Int) < date ||
          ((createdAt : Int) = date && platform.collated id < platform.collated cursor.id)

/-- `orderBy` and `take` of both queries. -/
def newest (createdAt : α → DateTime) (id : α → String) (count : Nat) (rows : List α) : List α :=
  (rows.insertionSort fun first second =>
    platform.key (createdAt second) (id second) ≤ platform.key (createdAt first)
      (id first)).take count

def findAll (d : DB) (filters : WalletFilters) (cursor : Option KeysetCursor) (limit : Nat) :
    Except Exception (List Wallet × Bool) := do
  let below ← below platform cursor
  let rows := newest platform (·.createdAt) (·.id) (limit +
      1) <| d.wallets.rows.filter fun wallet =>
    filters.status.all (wallet.status = ·) && filters.currency.all (wallet.currency = ·) &&
      below wallet.createdAt wallet.id
  let hasMore := limit < rows.length
  return (if hasMore then rows.take limit else rows, hasMore)

/-- The summary of the entry's transaction. -/
def select (d : DB) (entry : LedgerEntry) : LedgerEntryRecord where
  toLedgerEntry := entry
  transaction := (d.transactions.get? entry.transactionId).map fun transaction =>
    { type := transaction.type
      status := transaction.status
      description := transaction.description
      senderWalletId := transaction.senderWalletId
      receiverWalletId := transaction.receiverWalletId }

def findLedgerPage (d : DB) (walletId : WalletId) (cursor : Option KeysetCursor) (limit : Nat) :
    Except Exception (List LedgerEntryRecord × Bool) := do
  let below ← below platform cursor
  let rows := newest platform (·.createdAt) (·.id) (limit +
      1) <| d.ledgerEntries.rows.filter fun entry =>
    entry.walletId = walletId && below entry.createdAt entry.id
  let hasMore := limit < rows.length
  return ((if hasMore then rows.take limit else rows).map (select d), hasMore)

end WalletRepository

namespace WalletService
variable (platform : Platform)

def serializeWallet (wallet : Wallet) : WalletResponse where
  id := wallet.id
  userId := wallet.userId
  currency := wallet.currency
  status := wallet.status
  availableBalance := serializeDecimal wallet.availableBalance
  lockedBalance := serializeDecimal wallet.lockedBalance
  pendingBalance := serializeDecimal wallet.pendingBalance
  createdAt := wallet.createdAt

def serializeLedgerEntry (entry : LedgerEntryRecord) : LedgerEntryResponse where
  id := entry.id
  walletId := entry.walletId
  transactionId := entry.transactionId
  direction := entry.direction
  amount := serializeDecimal entry.amount.decimal
  currency := entry.currency
  balanceAfter := serializeDecimal entry.balanceAfter
  createdAt := entry.createdAt
  transaction := entry.transaction

/-- An empty string is no cursor. -/
def readCursor : Option String → Except Exception (Option KeysetCursor)
  | none => return none
  | some raw => if raw.isEmpty then return none else some <$> decodeCursor platform raw

def listWallets (d : DB) (query : AdminWalletQueryDto) :
    Except Exception (Page WalletResponse String) := do
  let cursor ← readCursor platform query.cursor
  let (wallets, hasMore) ← WalletRepository.findAll platform d ⟨query.status,
    query.currency⟩ cursor query.limit
  return {
    items := wallets.map serializeWallet
    nextCursor := if hasMore then wallets.getLast?.map fun wallet =>
      encodeCursor wallet.id wallet.createdAt else none
    hasMore := hasMore }

def fetchLedgerPage (d : DB) (walletId : WalletId) (query : LedgerQueryDto) :
    Except Exception (Page LedgerEntryResponse String) := do
  let cursor ← readCursor platform query.cursor
  let (entries, hasMore) ← WalletRepository.findLedgerPage platform d walletId cursor query.limit
  return {
    items := entries.map serializeLedgerEntry
    nextCursor := if hasMore then entries.getLast?.map fun entry =>
      encodeCursor entry.id entry.createdAt else none
    hasMore := hasMore }

end WalletService

/-- What the schema makes of a new row: its id is a UUID, its creation time a date. -/
structure Stamped (createdAt : DateTime) (id : String) : Prop where
  uuid : uuidRegex id
  valid : createdAt.Valid

instance (createdAt : DateTime) (id : String) : Decidable (Stamped createdAt id) :=
  decidable_of_iff (uuidRegex id ∧ createdAt.Valid) ⟨fun both => ⟨both.1, both.2⟩,
    fun stamped => ⟨stamped.uuid, stamped.valid⟩⟩

section Fetch
variable (platform : Platform)

theorem encodeCursor_ne_empty (id : String) (createdAt : Int) :
    (WalletService.encodeCursor id createdAt).isEmpty = false := by
  have text := encodeCursor_text id createdAt
  generalize WalletService.encodeCursor id createdAt = raw at text ⊢
  by_contra empty
  obtain rfl : raw = "" := by simpa using empty
  exact List.cons_ne_nil _ _ text.symm

theorem readCursor_some {raw : String} {cursor : KeysetCursor} (some_ : raw.isEmpty = false)
    (decoded : WalletService.decodeCursor platform raw = .ok cursor) :
    WalletService.readCursor platform (some raw) = .ok (some cursor) := by
  simp [WalletService.readCursor, some_, decoded, Functor.map, Except.map]

/-- The filter of a cursor keeps the keys below it. -/
theorem below_some {lastAt : DateTime} {shown lastId : String}
    (date : platform.dateParse shown = some (lastAt : Int)) :
    WalletRepository.below platform (some ⟨shown, lastId⟩) =
      .ok fun createdAt id => decide (platform.key createdAt id < platform.key lastAt lastId) := by
  simp only [WalletRepository.below, date, pure, Except.pure, Except.ok.injEq]
  funext createdAt id
  rw [Bool.eq_iff_iff, decide_eq_true_iff]
  simp [Platform.key, Prod.Lex.toLex_lt_toLex]

theorem readCursor_encodeCursor {lastAt : DateTime} {lastId : String}
    (stamped : Stamped lastAt lastId) :
    ∃ read, WalletService.readCursor platform
      (some (WalletService.encodeCursor lastId lastAt)) = .ok read ∧
      WalletRepository.below platform read =
        .ok fun createdAt id => decide (platform.key createdAt id < platform.key lastAt lastId) :=
  ⟨_, readCursor_some platform (encodeCursor_ne_empty lastId lastAt)
    (decodeCursor_encodeCursor platform stamped.uuid stamped.valid.date),
    below_some platform (dateParse_toISOString platform stamped.valid.date)⟩

/-- Both queries read a window of the rows that their other filters select. -/
theorem newest_window {createdAt : α → DateTime} {id : α → String} {below : α → Bool}
    {cursor : Option (DateTime ×ₗ platform.Id)} (rows : List α) (selects : α → Bool) (count : Nat)
    (keeps : ∀ row, below row =
      decide (Keyset.Below cursor (platform.key (createdAt row) (id row)))) :
    WalletRepository.newest platform createdAt id count
      (rows.filter fun row => selects row && below row) =
      (Keyset.window (fun row =>
        platform.key (createdAt row) (id row)) cursor (rows.filter selects)).take count := by
  obtain rfl : below = _ := funext keeps
  rw [Keyset.window, List.filter_filter]
  simp only [Bool.and_comm]
  rfl

end Fetch

section Ledger
variable (platform : Platform)

def LedgerEntry.key (entry : LedgerEntry) : DateTime ×ₗ platform.Id :=
  platform.key entry.createdAt entry.id

def LedgerEntryResponse.key (entry : LedgerEntryResponse) : DateTime ×ₗ platform.Id :=
  platform.key entry.createdAt entry.id

/-- The cursor that leads on from an entry. -/
def LedgerEntry.cursor (entry : LedgerEntry) : String :=
  WalletService.encodeCursor entry.id entry.createdAt

def LedgerEntry.response (d : DB) (entry : LedgerEntry) : LedgerEntryResponse :=
  WalletService.serializeLedgerEntry (WalletRepository.select d entry)

def DB.ledger (d : DB) (walletId : WalletId) : List LedgerEntry :=
  d.ledgerEntries.rows.filter (·.walletId = walletId)

theorem fetchLedgerPage_page (d : DB) (walletId : WalletId)
    (cursor : Option LedgerEntry) (limit : Nat)
    (stamped : ∀ last ∈ cursor, Stamped last.createdAt last.id) :
    WalletService.fetchLedgerPage platform d walletId ⟨cursor.map (·.cursor), limit⟩ =
      .ok (Keyset.page (·.key platform) (·.cursor) (·.response d) (cursor.map (·.key platform))
        limit (d.ledger walletId)) := by
  have fetched : ∀ read below,
      WalletService.readCursor platform (cursor.map (·.cursor)) = .ok read →
      WalletRepository.below platform read = .ok below →
      (∀ entry : LedgerEntry, below entry.createdAt entry.id =
        decide (Keyset.Below (cursor.map (·.key platform)) (entry.key platform))) →
      WalletService.fetchLedgerPage platform d walletId ⟨cursor.map (·.cursor), limit⟩ =
        .ok (Keyset.page (·.key platform) (·.cursor) (·.response d) (cursor.map (·.key platform))
          limit (d.ledger walletId)) := by
    intro read below decoded filtered keeps
    obtain ⟨rows, read⟩ : ∃ rows,
      (Keyset.window (·.key platform) (cursor.map (·.key platform)) (d.ledger walletId)).take
      (limit + 1) = rows := ⟨_, rfl⟩
    have window := newest_window platform d.ledgerEntries.rows
      (fun entry => entry.walletId = walletId) (limit + 1) keeps
    rw [Keyset.page_read _ read]
    simp only [WalletService.fetchLedgerPage, decoded, WalletRepository.findLedgerPage, filtered,
      window.trans read, bind, Except.bind, pure, Except.pure, Except.ok.injEq]
    by_cases more : limit < rows.length
    · simp only [if_pos more, decide_eq_true more, ite_true, List.map_map,
        List.getLast?_map, Option.map_map]
      rfl
    · simp only [if_neg more, decide_eq_false more, Bool.false_eq_true, ite_false, List.map_map]
      rfl
  cases cursor with
  | none => exact fetched none _ rfl rfl fun _ => by simp
  | some last =>
    obtain ⟨read, decoded, filtered⟩ := readCursor_encodeCursor platform (stamped last rfl)
    exact fetched read _ decoded filtered fun _ => by simp [LedgerEntry.key]

end Ledger

section Wallets
variable (platform : Platform)

def Wallet.key (wallet : Wallet) : DateTime ×ₗ platform.Id :=
  platform.key wallet.createdAt wallet.id

def WalletResponse.key (wallet : WalletResponse) : DateTime ×ₗ platform.Id :=
  platform.key wallet.createdAt wallet.id

def Wallet.cursor (wallet : Wallet) : String :=
  WalletService.encodeCursor wallet.id wallet.createdAt

def WalletFilters.selects (filters : WalletFilters) (wallet : Wallet) : Bool :=
  filters.status.all (wallet.status = ·) && filters.currency.all (wallet.currency = ·)

def DB.listed (d : DB) (filters : WalletFilters) : List Wallet :=
  d.wallets.rows.filter filters.selects

theorem listWallets_page (d : DB) (filters : WalletFilters) (cursor : Option Wallet) (limit : Nat)
    (stamped : ∀ last ∈ cursor, Stamped last.createdAt last.id) :
    WalletService.listWallets platform d ⟨cursor.map (·.cursor), limit,
      filters.status, filters.currency⟩ =
      .ok (Keyset.page (·.key platform) (·.cursor) WalletService.serializeWallet
        (cursor.map (·.key platform)) limit
        (d.listed filters)) := by
  have fetched : ∀ read below,
      WalletService.readCursor platform (cursor.map (·.cursor)) = .ok read →
      WalletRepository.below platform read = .ok below →
      (∀ wallet : Wallet, below wallet.createdAt wallet.id =
        decide (Keyset.Below (cursor.map (·.key platform)) (wallet.key platform))) →
      WalletService.listWallets platform d ⟨cursor.map (·.cursor), limit,
        filters.status, filters.currency⟩ =
        .ok (Keyset.page (·.key platform) (·.cursor) WalletService.serializeWallet
          (cursor.map (·.key platform)) limit
          (d.listed filters)) := by
    intro read below decoded filtered keeps
    obtain ⟨rows, window⟩ : ∃ rows,
      (Keyset.window (·.key platform) (cursor.map (·.key platform)) (d.listed filters)).take
      (limit + 1) = rows := ⟨_, rfl⟩
    have newest := newest_window platform d.wallets.rows (fun wallet =>
      filters.status.all (wallet.status = ·) &&
        filters.currency.all (wallet.currency = ·)) (limit + 1) keeps
    rw [Keyset.page_read _ window]
    simp only [WalletService.listWallets, decoded, WalletRepository.findAll, filtered,
      newest.trans window, bind, Except.bind, pure, Except.pure, Except.ok.injEq]
    by_cases more : limit < rows.length
    · simp [more, Wallet.cursor]
    · simp [more]
  cases cursor with
  | none => exact fetched none _ rfl rfl fun _ => by simp
  | some last =>
    obtain ⟨read, decoded, filtered⟩ := readCursor_encodeCursor platform (stamped last rfl)
    exact fetched read _ decoded filtered fun _ => by simp [Wallet.key]

end Wallets
end PaymentWallet
