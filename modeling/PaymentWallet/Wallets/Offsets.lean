import PaymentWallet.Model.Services
import PaymentWallet.Foundation.Offset

/-! The numbered lists: a wallet's transactions and the users. A page is one query, sorted
by creation time only, so that every query has an order of its own. Pages count from one. -/
namespace PaymentWallet
open Foundation Foundation.Offset

/-- The columns of `USER_PUBLIC_SELECT`. -/
structure UserProfile where
  id : UserId
  name : String
  email : String
  phone : String
  role : Role
  status : AccountStatus
  createdAt : DateTime
deriving DecidableEq

structure UserFilters where
  status : Option AccountStatus
  role : Option Role

structure PaginationParams where
  page : Nat
  limit : Nat

structure PaginatedTransactions where
  items : List TransactionResult
  total : Nat
  page : Nat
  limit : Nat
  totalPages : Nat

/-- `findMany` with `skip` and `take`, and `count`. -/
def paginated {stamp : α → DateTime} (sorting : Sorting stamp) (rows : List α)
    (params : PaginationParams) : List α × Nat :=
  let skip := (params.page - 1) * params.limit
  (((sorting.order rows).drop skip).take params.limit, rows.length)

/-- `Math.ceil(total / limit)`. -/
def totalPages (total limit : Nat) : Nat := (total + limit - 1) / limit

namespace TransactionRepository

/-- The `OR` of both queries. -/
def involves (walletId : WalletId) (transaction : Transaction) : Bool :=
  transaction.senderWalletId = some walletId || transaction.receiverWalletId = some walletId

def findByWalletPaginated (sorting : Sorting Transaction.createdAt) (d : DB)
    (walletId : WalletId) (page limit : Nat) :
    List Transaction × Nat :=
  paginated sorting (d.transactions.rows.filter (involves walletId)) ⟨page, limit⟩

end TransactionRepository

namespace UsersRepository

def selects (filters : UserFilters) (user : User) : Bool :=
  filters.status.all (user.status = ·) && filters.role.all (user.role = ·)

def select (user : User) : UserProfile where
  id := user.id
  name := user.name
  email := user.email
  phone := user.phone
  role := user.role
  status := user.status
  createdAt := user.createdAt

def findAll (sorting : Sorting UserProfile.createdAt) (d : DB) (filters : UserFilters)
    (params : PaginationParams) :
    List UserProfile × Nat :=
  paginated sorting ((d.users.rows.filter (selects filters)).map select) params

end UsersRepository

def TransactionService.getTransactionHistory (sorting : Sorting Transaction.createdAt)
    (d : DB) (userId : UserId)
    (query : PaginationParams) : Except Exception PaginatedTransactions := do
  let some wallet := d.wallets.rows.find? fun wallet => wallet.userId = userId
    | throw (.forbidden "Wallet not found")
  let (items, total) := TransactionRepository.findByWalletPaginated sorting d wallet.id
    query.page query.limit
  return {
    items := items.map TransactionService.toResult
    total := total
    page := query.page
    limit := query.limit
    totalPages := PaymentWallet.totalPages total query.limit }

/-- All pages that the total promises, one after the other. -/
def concatenated (query : Nat → List α × Nat) (limit : Nat) : List α :=
  (List.range' 1 (totalPages (query 1).2 limit)).flatMap fun page => (query page).1

section Pages
variable {stamp : α → DateTime} {rows : List α} {limit : Nat}

theorem concatenated_pages (sortings : Nat → Sorting stamp) (rows : List α) (limit : Nat) :
    concatenated (fun page => paginated (sortings page) rows ⟨page, limit⟩) limit =
      pages (fun n => (sortings (n + 1)).order rows) limit ((rows.length + limit - 1) / limit) := by
  have numbers : List.range' 1 (totalPages rows.length limit) =
      (List.range (totalPages rows.length limit)).map (· + 1) := by
    simp only [List.range'_eq_map_range, Nat.add_comm]
  rw [concatenated, paginated, numbers, List.flatMap_map]
  rfl

/-- Numbered pages partition the rows exactly when no page ends within a group of rows
created at one time. -/
theorem paginated_partition (positive : 0 < limit) (unique : rows.Nodup) :
    (∀ sortings : Nat → Sorting stamp,
      Orders stamp rows (concatenated (fun page =>
        paginated (sortings page) rows ⟨page, limit⟩) limit)) ↔
    ∀ k, ¬ Straddles stamp rows (k * limit) := by
  rw [← pages_partition_iff positive unique]
  constructor
  · intro always sortings
    have shown := always fun page => sortings (page - 1)
    rwa [concatenated_pages] at shown
  · intro always sortings
    rw [concatenated_pages]
    exact always fun n => sortings (n + 1)

/-- The pages end where the total says. -/
theorem paginated_nil (sorting : Sorting stamp) (rows : List α) (positive : 0 < limit) (n : Nat) :
    (paginated sorting rows ⟨n + 1, limit⟩).1 = [] ↔ totalPages rows.length limit ≤ n := by
  have length : (sorting.order rows).length = rows.length := (sorting.orders rows).perm.length_eq
  have reaches := lt_pageCount positive rows.length n
  rw [← List.length_eq_zero_iff, paginated, List.length_take, List.length_drop, length,
    totalPages, Nat.add_sub_cancel]
  dsimp only
  omega

end Pages

/-- A page is the last, as far as it tells, exactly where the next one has no rows. -/
theorem getTransactionHistory_last {sorting sorting' : Sorting Transaction.createdAt} {d : DB}
    {userId : UserId} {limit n : Nat} {answer next : PaginatedTransactions} (positive : 0 < limit)
    (answered : TransactionService.getTransactionHistory sorting d userId
      ⟨n + 1, limit⟩ = .ok answer)
    (follows : TransactionService.getTransactionHistory sorting' d userId
      ⟨n + 2, limit⟩ = .ok next) :
    answer.totalPages ≤ answer.page ↔ next.items = [] := by
  unfold TransactionService.getTransactionHistory at answered follows
  split at answered
  · rename_i wallet found
    rw [found] at follows
    cases answered
    cases follows
    rw [List.map_eq_nil_iff]
    exact (paginated_nil sorting' _ positive (n + 1)).symm
  · cases answered

end PaymentWallet
