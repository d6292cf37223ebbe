import PaymentWallet.Foundation.Observation
import PaymentWallet.Wallets.Pages
import PaymentWallet.Wallets.Offsets

/-! The requests that only read: a user's wallet, its ledger and its transactions, and what
administrators look up. Each query is a statement of its own, with a snapshot of its own. -/
namespace PaymentWallet
open Foundation Foundation.Offset

inductive Query where
  | findByUserId (userId : UserId)
  | findWallet (id : WalletId)
  | findTransaction (id : TransactionId)
  | findLedgerPage (walletId : WalletId) (query : LedgerQueryDto)
  | findWalletTransactions (sorting : Sorting Transaction.createdAt)
      (walletId : WalletId) (skip take : Nat)
  | countWalletTransactions (walletId : WalletId)

@[reducible] def Query.Reply : Query → Type
  | .findByUserId _ | .findWallet _ => Option Wallet
  | .findTransaction _ => Option Transaction
  | .findLedgerPage .. => Except Exception (Page LedgerEntryResponse String)
  | .findWalletTransactions .. => List Transaction
  | .countWalletTransactions _ => Nat

/-- The wallet's transactions, as they are stored. -/
def DB.involving (d : DB) (walletId : WalletId) : List Transaction :=
  d.transactions.rows.filter (TransactionRepository.involves walletId)

/-- The cursor is decoded before its query, and a query with an invalid date fails. -/
def Query.answer (platform : Platform) (d : DB) : (q : Query) → q.Reply
  | .findByUserId userId => d.wallets.rows.find? fun row => row.userId = userId
  | .findWallet id => d.wallets.get? id
  | .findTransaction id => d.transactions.get? id
  | .findLedgerPage walletId query => WalletService.fetchLedgerPage platform d walletId query
  | .findWalletTransactions sorting walletId skip take =>
    ((sorting.order (d.involving walletId)).drop skip).take take
  | .countWalletTransactions walletId => (d.involving walletId).length

/-- A request that only reads. -/
abbrev Reading (α : Type) := Program Query Query.Reply Exception α

def ask (q : Query) : Reading q.Reply := Program.perform q

namespace WalletService

def getMyWallet (userId : UserId) : Reading WalletResponse := do
  match ← ask (.findByUserId userId) with
  | none => throw (.notFound "Wallet not found")
  | some wallet => return serializeWallet wallet

def readLedgerPage (walletId : WalletId) (query : LedgerQueryDto) :
    Reading (Page LedgerEntryResponse String) := do
  match ← ask (.findLedgerPage walletId query) with
  | .ok page => return page
  | .error error => throw error

def getMyLedger (userId : UserId) (query : LedgerQueryDto) :
    Reading (Page LedgerEntryResponse String) := do
  match ← ask (.findByUserId userId) with
  | none => throw (.notFound "Wallet not found")
  | some wallet => readLedgerPage wallet.id query

def getWalletLedger (walletId : WalletId) (query : LedgerQueryDto) :
    Reading (Page LedgerEntryResponse String) := do
  match ← ask (.findWallet walletId) with
  | none => throw (.notFound "Wallet not found")
  | some _ => readLedgerPage walletId query

end WalletService

namespace TransactionService

/-- A transaction the wallet has no part in is answered for like one that does not exist. -/
def getTransaction (userId : UserId) (transactionId : TransactionId) :
    Reading TransactionResult := do
  match ← ask (.findByUserId userId) with
  | none => throw (.forbidden "Wallet not found")
  | some wallet =>
    match ← ask (.findTransaction transactionId) with
    | none => throw (.forbidden "Transaction not found.")
    | some transaction =>
      if transaction.senderWalletId ≠ some wallet.id ∧
        transaction.receiverWalletId ≠ some wallet.id then
        throw (.forbidden "Transaction not found.")
      else return toResult transaction

/-- The page and the count are two statements of one batch, and others may commit between them. -/
def readTransactionHistory (sorting : Sorting Transaction.createdAt) (userId : UserId)
    (query : PaginationParams) :
    Reading PaginatedTransactions := do
  match ← ask (.findByUserId userId) with
  | none => throw (.forbidden "Wallet not found")
  | some wallet =>
    let items ← ask (.findWalletTransactions sorting wallet.id
      ((query.page - 1) * query.limit) query.limit)
    let total ← ask (.countWalletTransactions wallet.id)
    return {
      items := items.map toResult
      total := total
      page := query.page
      limit := query.limit
      totalPages := totalPages total query.limit }

/-- Undisturbed, it is the list of one moment. -/
theorem readTransactionHistory_eval (platform : Platform) (sorting : Sorting Transaction.createdAt)
    (d : DB) (userId : UserId)
    (query : PaginationParams) :
    (readTransactionHistory sorting userId query).eval (Query.answer platform d) =
      getTransactionHistory sorting d userId query := by
  simp only [readTransactionHistory, getTransactionHistory, ask, Program.bind_def,
    Program.perform_bind, Program.eval, Query.answer]
  cases d.wallets.rows.find? fun row => row.userId = userId with
  | none => rfl
  | some wallet => rfl

end TransactionService

/-- What the ledger query lists are entries of the wallet. -/
theorem findLedgerPage_lists {platform : Platform} {d : DB} {walletId : WalletId}
    {query : LedgerQueryDto}
    {page : Page LedgerEntryResponse String}
    (fetched : WalletService.fetchLedgerPage platform d walletId query = .ok page) :
    ∀ item ∈ page.items, ∃ e ∈ d.ledger walletId, item = e.response d := by
  simp only [WalletService.fetchLedgerPage, WalletRepository.findLedgerPage, bind, Except.bind,
    pure, Except.pure] at fetched
  cases decoded : WalletService.readCursor platform query.cursor with
  | error error => simp [decoded] at fetched
  | ok cursor =>
    cases filtered : WalletRepository.below platform cursor with
    | error error => simp [decoded, filtered] at fetched
    | ok below =>
      simp only [decoded, filtered, Except.ok.injEq] at fetched
      subst fetched
      intro item listed
      simp only [List.map_map, List.mem_map, Function.comp_apply] at listed
      obtain ⟨e, member, rfl⟩ := listed
      refine ⟨e, ?_, rfl⟩
      have inside : e ∈ WalletRepository.newest platform
          (fun entry : LedgerEntry => entry.createdAt) (·.id) (query.limit + 1)
          (d.ledgerEntries.rows.filter fun entry => entry.walletId = walletId &&
            below entry.createdAt entry.id) := by
        split at member
        · exact List.mem_of_mem_take member
        · exact member
      have kept := (List.mem_insertionSort _).mp (List.mem_of_mem_take inside)
      simp only [List.mem_filter, Bool.and_eq_true, decide_eq_true_eq] at kept
      exact List.mem_filter.mpr ⟨kept.1, by simpa using kept.2.1⟩

end PaymentWallet
