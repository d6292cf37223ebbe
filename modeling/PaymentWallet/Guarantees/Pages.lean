import PaymentWallet.Wallets.Pages
import Mathlib.Data.String.Basic

/-! Following the cursors of a list that grows between the fetches: the pages end, descend,
and show every row of the first fetch once. -/
namespace PaymentWallet
open Foundation

variable (platform : Platform)

/-- The keys of a table with distinct ids. -/
theorem keys_unique {createdAt : α → DateTime} {id : α → String} {rows : List α}
    (unique : (rows.map id).Nodup) :
    (rows.map fun row => platform.key (createdAt row) (id row)).Nodup := by
  refine List.Nodup.of_map (fun key => (ofLex key).2) ?_
  rw [List.map_map]
  exact unique

/-- The wallet is still there, and its filtered columns have not changed. -/
def Wallet.Kept (wallet : Wallet) (d : DB) : Prop :=
  ∃ wallet' ∈ d.wallets.rows, wallet'.id = wallet.id ∧ wallet'.createdAt = wallet.createdAt ∧
    wallet'.status = wallet.status ∧ wallet'.currency = wallet.currency

instance (wallet : Wallet) (d : DB) : Decidable (wallet.Kept d) :=
  inferInstanceAs (Decidable (∃ wallet' ∈ d.wallets.rows, _))

/-- Between the fetches entries are added to the ledger, finitely many in all. -/
structure LedgerGrows (db : Nat → DB) (walletId : WalletId) : Prop where
  added : ∀ turn, ∀ entry ∈ (db turn).ledger walletId, entry ∈ (db (turn + 1)).ledger walletId
  finite : ∃ last, ∀ turn, ∀ entry ∈ (db turn).ledger walletId, entry ∈ (db last).ledger walletId
  stamped : ∀ turn, ∀ entry ∈ (db turn).ledger walletId, Stamped entry.createdAt entry.id

/-- Between the fetches wallets are opened, finitely many in all, and balances move. -/
structure WalletsGrow (db : Nat → DB) : Prop where
  added : ∀ turn, ∀ wallet ∈ (db turn).wallets.rows, wallet.Kept (db (turn + 1))
  finite : ∃ last, ∀ turn, ∀ wallet ∈ (db turn).wallets.rows, wallet.Kept (db last)
  stamped : ∀ turn, ∀ wallet ∈ (db turn).wallets.rows, Stamped wallet.createdAt wallet.id

theorem Wallet.Kept.listed {filters : WalletFilters} {wallet : Wallet} {d d' : DB}
    (kept : wallet.Kept d') (listed : wallet ∈ d.listed filters) :
    ∃ wallet' ∈ d'.listed filters, wallet'.key platform = wallet.key platform := by
  obtain ⟨wallet', member, sameId, sameTime, sameStatus, sameCurrency⟩ := kept
  obtain ⟨-, selected⟩ := List.mem_filter.mp listed
  refine ⟨wallet', List.mem_filter.mpr ⟨member, ?_⟩, ?_⟩
  · simpa only [WalletFilters.selects, sameStatus, sameCurrency] using selected
  · simp only [Wallet.key, sameId, sameTime]

/-- Following the cursors from the first page on, over a ledger and over the wallet list. -/
theorem pages_traverse (db : Nat → DB) (walletId : WalletId) (filters : WalletFilters)
    (limits : Nat → Nat) (positive : ∀ turn, 1 ≤ limits turn) :
    (LedgerGrows db walletId → ∃ fuel pages,
      Keyset.follow (fun turn cursor =>
        WalletService.fetchLedgerPage platform (db turn) walletId ⟨cursor,
        limits turn⟩) fuel 0 none =
        some (.ok pages) ∧
      Keyset.Traversal (LedgerEntry.key platform) (LedgerEntryResponse.key platform)
        (fun turn entry => entry.response (db turn))
        (fun turn => (db turn).ledger walletId) pages) ∧
    (WalletsGrow db → ∃ fuel pages,
      Keyset.follow (fun turn cursor =>
        WalletService.listWallets platform (db turn) ⟨cursor, limits turn, filters.status,
          filters.currency⟩) fuel 0 none =
        some (.ok pages) ∧
      Keyset.Traversal (Wallet.key platform) (WalletResponse.key platform)
        (fun _ => WalletService.serializeWallet) (fun turn => (db turn).listed filters) pages) := by
  constructor
  · rintro ⟨added, ⟨last, bounded⟩, stamped⟩
    refine Keyset.follow_traverses LedgerEntry.cursor limits last (fun _ _ => rfl)
      (fun turn => ?_) (fun turn entry member => ⟨entry, added turn entry member, rfl⟩)
      (fun turn entry member => List.mem_map_of_mem (bounded turn entry member)) positive
        (fun turn cursor known => ?_)
    · exact keys_unique platform
        ((db turn).ledgerEntries.keys_nodup.sublist (List.filter_sublist.map _))
    · refine fetchLedgerPage_page platform (db turn) walletId cursor (limits turn) fun entry at_ =>
        ?_
      obtain ⟨earlier, member⟩ := known entry at_
      exact stamped earlier entry member
  · rintro ⟨added, ⟨last, bounded⟩, stamped⟩
    have listed : ∀ turn, ∀ wallet ∈ (db turn).listed filters, wallet ∈ (db turn).wallets.rows :=
      fun turn wallet member => (List.mem_filter.mp member).1
    refine Keyset.follow_traverses Wallet.cursor limits last (fun _ _ => rfl)
      (fun turn => ?_) (fun turn wallet member =>
        (added turn wallet (listed turn wallet member)).listed platform member)
      (fun turn wallet member => ?_) positive (fun turn cursor known => ?_)
    · exact keys_unique platform ((db turn).wallets.keys_nodup.sublist (List.filter_sublist.map _))
    · obtain ⟨wallet', member', same⟩ :=
        (bounded turn wallet (listed turn wallet member)).listed platform member
      exact List.mem_map.mpr ⟨wallet', member', same⟩
    · refine listWallets_page platform (db turn) filters cursor (limits turn) fun wallet at_ => ?_
      obtain ⟨earlier, member⟩ := known wallet at_
      exact stamped earlier wallet (listed earlier wallet member)

section Sample

def sampleId (last : Char) : String :=
  String.ofList ("00000000-0000-4000-8000-00000000000".toList ++ [last])

def sampleEntry (last : Char) (createdAt : DateTime) : LedgerEntry :=
  ⟨sampleId last, "wallet", sampleId last, .credit, ⟨10000, Amount.dollar_pos⟩,
    .usd, 10000, createdAt⟩

def sampleWallet (last : Char) (createdAt : DateTime) : Wallet :=
  ⟨sampleId last, "alice", .usd, .active, 0, 0, 0, createdAt⟩

/-- Two rows at first, and a third one, as old as the others, after the first page. -/
def sampleStore (turn : Nat) : DB :=
  let rows := if turn = 0 then ['1', '3'] else ['1', '3', '2']
  { DB.empty with
    ledgerEntries := rows.foldl (fun table last => table.put (sampleEntry last 7)) .empty
    wallets := rows.foldl (fun table last => table.put (sampleWallet last 7)) .empty }

def samplePlatform : Platform := ⟨inferInstance, fun _ => none⟩

/-- What holds at both stores holds at every turn. -/
theorem sampleStore_cases {P : DB → Prop} (first : P (sampleStore 0))
    (later : P (sampleStore 1)) (turn : Nat) :
    P (sampleStore turn) := by
  cases turn with
  | zero => exact first
  | succ turn => exact later

theorem sampleStore_steps {P : DB → DB → Prop} (first : P (sampleStore 0) (sampleStore 1))
    (later : P (sampleStore 1) (sampleStore 1))
    (turn : Nat) : P (sampleStore turn) (sampleStore (turn + 1)) := by
  cases turn with
  | zero => exact first
  | succ turn => exact later

theorem sampleStore_ledger : LedgerGrows sampleStore "wallet" where
  added := sampleStore_steps (P := fun d d' =>
    ∀ entry ∈ d.ledger "wallet", entry ∈ d'.ledger "wallet") (by decide) (by decide)
  finite := ⟨1, sampleStore_cases (P := fun d => ∀ entry ∈ d.ledger "wallet",
    entry ∈ (sampleStore 1).ledger "wallet") (by decide) (by decide)⟩
  stamped := sampleStore_cases (P := fun d =>
    ∀ entry ∈ d.ledger "wallet", Stamped entry.createdAt entry.id) (by decide) (by decide)

theorem sampleStore_wallets : WalletsGrow sampleStore where
  added := sampleStore_steps (P := fun d d' =>
    ∀ wallet ∈ d.wallets.rows, wallet.Kept d') (by decide) (by decide)
  finite := ⟨1, sampleStore_cases (P := fun d =>
    ∀ wallet ∈ d.wallets.rows, wallet.Kept (sampleStore 1)) (by decide) (by decide)⟩
  stamped := sampleStore_cases (P := fun d => ∀ wallet ∈ d.wallets.rows,
    Stamped wallet.createdAt wallet.id) (by decide) (by decide)

theorem pages_traverse_sample : (∃ fuel pages,
      Keyset.follow (fun turn cursor =>
        WalletService.fetchLedgerPage samplePlatform (sampleStore turn) "wallet" ⟨cursor, 1⟩)
        fuel 0 none = some (.ok pages) ∧
      Keyset.Traversal (LedgerEntry.key samplePlatform) (LedgerEntryResponse.key samplePlatform)
        (fun turn entry => entry.response (sampleStore turn)) (fun turn =>
          (sampleStore turn).ledger "wallet") pages) ∧
    ∃ fuel pages,
      Keyset.follow (fun turn cursor =>
        WalletService.listWallets samplePlatform (sampleStore turn) ⟨cursor, 1, none, some .usd⟩)
          fuel 0 none = some (.ok pages) ∧
      Keyset.Traversal (Wallet.key samplePlatform) (WalletResponse.key samplePlatform)
        (fun _ => WalletService.serializeWallet)
        (fun turn => (sampleStore turn).listed ⟨none, some .usd⟩) pages := by
  obtain ⟨ledger, wallets⟩ := pages_traverse samplePlatform sampleStore "wallet" ⟨none,
      some .usd⟩ (fun _ => 1) fun _ => le_refl 1
  exact ⟨ledger sampleStore_ledger, wallets sampleStore_wallets⟩

end Sample

end PaymentWallet
