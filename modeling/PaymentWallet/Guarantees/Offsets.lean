import PaymentWallet.Wallets.Offsets

/-! Whether numbered pages partition the list they are cut from. -/
namespace PaymentWallet
open Foundation.Offset

/-- Over an unchanging store, with an order for each query that its sort column determines
up to ties, the pages show every row once, newest first, exactly when no page ends within
a group of rows created at one time. -/
theorem offset_pages (d : DB) {limit : Nat} (positive : 1 ≤ limit) :
    (∀ walletId,
      (∀ sortings : Nat → Sorting Transaction.createdAt,
        Orders Transaction.createdAt
          (d.transactions.rows.filter (TransactionRepository.involves walletId))
          (concatenated (fun page =>
            TransactionRepository.findByWalletPaginated (sortings page) d walletId
            page limit) limit)) ↔
      ∀ k, ¬ Straddles Transaction.createdAt
        (d.transactions.rows.filter (TransactionRepository.involves walletId)) (k * limit)) ∧
    ∀ filters,
      (∀ sortings : Nat → Sorting UserProfile.createdAt,
        Orders UserProfile.createdAt
          ((d.users.rows.filter (UsersRepository.selects filters)).map UsersRepository.select)
          (concatenated (fun page =>
            UsersRepository.findAll (sortings page) d filters ⟨page, limit⟩) limit)) ↔
      ∀ k, ¬ Straddles UserProfile.createdAt
        ((d.users.rows.filter (UsersRepository.selects filters)).map UsersRepository.select)
          (k * limit) := by
  constructor
  · intro walletId
    exact paginated_partition positive
      (d.transactions.keys_nodup.of_map.sublist List.filter_sublist)
  · intro filters
    refine paginated_partition positive (List.Nodup.of_map UserProfile.id ?_)
    rw [List.map_map]
    exact d.users.keys_nodup.sublist (List.filter_sublist.map _)

section Sample

def sampleDeposit (id : TransactionId) (createdAt : DateTime) : Transaction :=
  ⟨id, id, .deposit, .settled, ⟨10000, Amount.dollar_pos⟩, .usd, none, none, some "wallet",
    some .stripe, none, createdAt, none⟩

def sampleUser (id : UserId) (createdAt : DateTime) : User :=
  ⟨id, id, id, id, "", .user, .active, none, none, none, createdAt⟩

/-- Two deposits and two users, each created at the time given for it. -/
def sampleListing (first second : DateTime) : DB :=
  { DB.empty with
    transactions := (Foundation.Table.empty.put (sampleDeposit "first" first)).put
      (sampleDeposit "second" second)
    users := (Foundation.Table.empty.put (sampleUser "alice" first)).put (sampleUser "bob" second) }

/-- Rows created at different times are listed once each, one on a page. -/
theorem offset_pages_sample :
    (∀ sortings : Nat → Sorting Transaction.createdAt,
      Orders Transaction.createdAt
        ((sampleListing 7 8).transactions.rows.filter (TransactionRepository.involves "wallet"))
        (concatenated (fun page =>
          TransactionRepository.findByWalletPaginated (sortings page) (sampleListing 7 8)
            "wallet" page 1) 1)) ∧
    ∀ sortings : Nat → Sorting UserProfile.createdAt,
      Orders UserProfile.createdAt
        (((sampleListing 7 8).users.rows.filter (UsersRepository.selects ⟨none, none⟩)).map
          UsersRepository.select)
        (concatenated (fun page =>
          UsersRepository.findAll (sortings page) (sampleListing 7 8) ⟨none, none⟩
            ⟨page, 1⟩) 1) := by
  obtain ⟨transactions, users⟩ := offset_pages (sampleListing 7 8) (le_refl 1)
  exact ⟨(transactions "wallet").mpr fun k => not_straddles (by decide) _,
    (users ⟨none, none⟩).mpr fun k => not_straddles (by decide) _⟩

/-- Ties come in the order of insertion on the first page and in the opposite order later. -/
def sampleSorting (stamp : α → DateTime) (page : Nat) : Sorting stamp :=
  if page = 1 then .arranged stamp id fun rows => .refl rows
    else .arranged stamp List.reverse List.reverse_perm

/-- Of two rows created at one time, with pages of one row, the first is shown twice and the
second never. -/
theorem offset_pages_tied :
    (concatenated (fun page => TransactionRepository.findByWalletPaginated (sampleSorting _ page)
      (sampleListing 7 7) "wallet" page 1) 1 =
        [sampleDeposit "first" 7, sampleDeposit "first" 7] ∧
      ¬ Orders Transaction.createdAt
        ((sampleListing 7 7).transactions.rows.filter (TransactionRepository.involves "wallet"))
        (concatenated (fun page =>
          TransactionRepository.findByWalletPaginated (sampleSorting _ page) (sampleListing 7 7)
            "wallet" page 1) 1)) ∧
    concatenated (fun page =>
      UsersRepository.findAll (sampleSorting _ page) (sampleListing 7 7) ⟨none, none⟩ ⟨page, 1⟩) 1 =
        [UsersRepository.select (sampleUser "alice" 7),
          UsersRepository.select (sampleUser "alice" 7)] ∧
      ¬ Orders UserProfile.createdAt
        (((sampleListing 7 7).users.rows.filter (UsersRepository.selects ⟨none, none⟩)).map
          UsersRepository.select)
        (concatenated (fun page =>
          UsersRepository.findAll (sampleSorting _ page) (sampleListing 7 7) ⟨none,
          none⟩ ⟨page, 1⟩) 1) := by
  have deposits : concatenated (fun page =>
      TransactionRepository.findByWalletPaginated (sampleSorting _ page)
        (sampleListing 7 7) "wallet" page 1) 1 =
      [sampleDeposit "first" 7, sampleDeposit "first" 7] := by decide
  have users : concatenated (fun page =>
      UsersRepository.findAll (sampleSorting _ page) (sampleListing 7 7) ⟨none, none⟩ ⟨page, 1⟩) 1 =
      [UsersRepository.select (sampleUser "alice" 7),
        UsersRepository.select (sampleUser "alice" 7)] := by decide
  refine ⟨⟨deposits, fun orders => ?_⟩, users, fun orders => ?_⟩
  · have missing := orders.perm.mem_iff (a := sampleDeposit "second" 7)
    rw [deposits] at missing
    exact absurd missing (by decide)
  · have missing := orders.perm.mem_iff (a := UsersRepository.select (sampleUser "bob" 7))
    rw [users] at missing
    exact absurd missing (by decide)

end Sample
end PaymentWallet
