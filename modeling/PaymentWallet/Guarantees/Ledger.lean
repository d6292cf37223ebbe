import PaymentWallet.Guarantees.Accounts

/-! What the ledger holds: the exact entries of every finished transaction, and how
far the entries alone yield the funds of a wallet. -/
namespace PaymentWallet
open Foundation Schedule

/-- The entries of one transaction. -/
structure Imaged (d : DB) (t : Transaction) : Prop where
  deposit : t.type = .deposit → t.status = .settled →
    ∃ e, d.entriesOf t.id = [e] ∧ e.direction = .credit ∧ t.receiverWalletId = some e.walletId
  withdrawal : t.type = .withdrawal → t.status = .settled →
    ∃ e, d.entriesOf t.id = [e] ∧ e.direction = .debit ∧ t.senderWalletId = some e.walletId
  transfer : t.type = .transfer → ∃ debit credit, d.entriesOf t.id = [debit, credit] ∧
    debit.direction = .debit ∧ t.senderWalletId = some debit.walletId ∧
    credit.direction = .credit ∧ t.receiverWalletId = some credit.walletId ∧
    debit.walletId ≠ credit.walletId
  failed : t.status = .failed → d.entriesOf t.id = []

/-- An entry agrees with its transaction and its wallet. -/
def Entered (d : DB) (e : LedgerEntry) : Prop :=
  ∃ t wallet, d.transactions.get? e.transactionId = some t ∧
    d.wallets.get? e.walletId = some wallet ∧
    e.amount = t.amount ∧ e.currency = t.currency ∧ e.currency = wallet.currency

theorem Dossier.imaged (dossier : Dossier d t) : Imaged d t := by
  have entries := dossier.entries
  constructor
  · intro type status
    simp only [Transaction.image, Transaction.posts, type, status, decide_true,
      Bool.true_or, if_true] at entries
    obtain ⟨e, single, posting⟩ := List.map_eq_singleton_iff.mp entries
    simp only [LedgerEntry.posting, Transaction.credit, Posting.mk.injEq] at posting
    exact ⟨e, single, posting.2.1, posting.1.symm⟩
  · intro type status
    simp only [Transaction.image, Transaction.posts, type, status, decide_true,
      Bool.true_or, if_true] at entries
    obtain ⟨e, single, posting⟩ := List.map_eq_singleton_iff.mp entries
    simp only [LedgerEntry.posting, Transaction.debit, Posting.mk.injEq] at posting
    exact ⟨e, single, posting.2.1, posting.1.symm⟩
  · intro type
    have status := (dossier.staged.transfer type).1
    have shaped := dossier.shaped
    simp only [Transaction.Shaped, type] at shaped
    simp only [Transaction.image, Transaction.posts, type, status, decide_true,
      Bool.true_or, if_true] at entries
    obtain ⟨debit, rest, both, posting, tail⟩ := List.map_eq_cons_iff.mp entries
    obtain ⟨credit, rfl, posting'⟩ := List.map_eq_singleton_iff.mp tail
    simp only [LedgerEntry.posting, Transaction.debit, Posting.mk.injEq] at posting
    simp only [LedgerEntry.posting, Transaction.credit, Posting.mk.injEq] at posting'
    refine ⟨debit, credit, both, posting.2.1, posting.1.symm, posting'.2.1,
      posting'.1.symm, fun same => ?_⟩
    exact shaped.2.2 (posting.1.symm.trans (same ▸ posting'.1))
  · intro status
    have image : t.image = [] := by simp [Transaction.image, Transaction.posts, status]
    exact List.map_eq_nil_iff.mp (image ▸ entries)

/-- A posting of the image names a wallet of the transaction. -/
theorem Transaction.mem_image {t : Transaction} {posting : Posting} {id : WalletId}
    (member : posting ∈ t.image) (at_ : posting.walletId = some id) :
    id ∈ t.parties ∧ posting.amount = t.amount ∧ posting.currency = t.currency := by
  have either : posting = t.credit ∨ posting = t.debit := by
    unfold image at member
    split at member
    · cases type : t.type <;> simp [type] at member <;> tauto
    · cases member
  rcases either with rfl | rfl
  · have receives : t.receiverWalletId = some id := at_
    exact ⟨by simp [parties, receives], rfl, rfl⟩
  · have sends : t.senderWalletId = some id := at_
    exact ⟨by simp [parties, sends], rfl, rfl⟩

theorem Consistent.entered (consistent : Consistent d) {e : LedgerEntry}
    (member : e ∈ d.ledgerEntries.rows) :
    Entered d e := by
  obtain ⟨t, found⟩ := Option.isSome_iff_exists.mp (consistent.entries_known e member)
  have of : e ∈ d.entriesOf t.id := by
    simp [DB.entriesOf, member, Table.get?_key found]
  have dossier := consistent.dossiers t (Table.get?_mem found)
  have posting : e.posting ∈ t.image := dossier.entries ▸ List.mem_map_of_mem of
  obtain ⟨party, amount, currency⟩ := Transaction.mem_image posting rfl
  obtain ⟨wallet, present, same⟩ := dossier.known _ party
  exact ⟨t, wallet, found, present, amount, currency, currency.trans same.symm⟩

/-- The exact ledger image of finished transactions. -/
theorem exact_ledger_image (run : Reachable w) :
    (∀ t ∈ w.shared.db.transactions.rows, Imaged w.shared.db t) ∧
      ∀ e ∈ w.shared.db.ledgerEntries.rows, Entered w.shared.db e :=
  ⟨fun t member => (run.books.dossiers t member).imaged, fun _ member => run.books.entered member⟩

theorem exact_ledger_image_settled : ∃ w, Reachable w ∧
    (∃ e ∈ w.shared.db.ledgerEntries.rows, e.amount.units = 50000) ∧
    (∀ t ∈ w.shared.db.transactions.rows, Imaged w.shared.db t) ∧
      ∀ e ∈ w.shared.db.ledgerEntries.rows, Entered w.shared.db e := by
  obtain ⟨w, run, entered⟩ := Schedule.reachable
    [registers "alice", deposits "alice", polls (.ok charged) [.answer {}, .commit]]
    (fun σ => ∃ e ∈ σ.db.ledgerEntries.rows, e.amount.units = 50000) (by decide +kernel)
  exact ⟨w, run, entered, exact_ledger_image run⟩

/-- The ledger alone yields the funds of the wallet. -/
def Reconstructs (d : DB) (wallet : Wallet) : Prop :=
  d.net wallet.id = wallet.availableBalance + wallet.lockedBalance

instance (d : DB) (wallet : Wallet) : Decidable (Reconstructs d wallet) :=
  inferInstanceAs (Decidable (_ = _))

namespace DB

/-- Open deposits to a wallet that were posted at initiation. -/
def directDeposits (d : DB) (id : WalletId) : Decimal :=
  total d.transactions (fun t => t.type = .deposit ∧
  t.status = .initiated ∧ t.direct ∧ t.receiverWalletId = some id) (·.amount.decimal)

/-- Open withdrawals from a wallet that were posted at initiation. -/
def directWithdrawals (d : DB) (id : WalletId) : Decimal := total d.transactions (fun t =>
  t.type = .withdrawal ∧ t.status = .initiated ∧ t.direct ∧
    t.senderWalletId = some id) (·.amount.decimal)

end DB

/-- The ledger runs ahead of the balances by the open direct transactions. -/
theorem Transaction.net_eq {t : Transaction} (staged : t.Staged) (id : WalletId) : t.net id =
    t.effect id .available + t.effect id .locked +
    (if t.type = .deposit ∧ t.status = .initiated ∧ t.direct ∧ t.receiverWalletId = some id
      then t.amount.decimal else 0) -
    (if t.type = .withdrawal ∧ t.status = .initiated ∧ t.direct ∧ t.senderWalletId = some id
      then t.amount.decimal else 0) := by
  have out : (if t.senderWalletId = some id then -t.amount.decimal else 0) = -t.sent id := by
    unfold sent
    split <;> simp
  cases type : t.type with
  | transfer =>
    simp only [net, image, posts, effect, type, (staged.transfer type).1, credit, debit,
      Posting.net, decide_true, Bool.true_or, if_true, List.map_cons, List.map_nil, List.sum_cons,
      List.sum_nil, out, reduceCtorEq, false_and, if_false, add_zero, sub_zero, received]
    ring
  | deposit =>
    rcases staged.status with status | status | status <;> by_cases direct : t.direct <;>
      simp [net, image, posts, effect, type, status, direct, credit, Posting.net, received]
  | withdrawal =>
    rcases staged.status with status | status | status <;> by_cases direct : t.direct <;>
      simp [net, image, posts, effect, type, status, direct, debit, Posting.net, out, sent]

theorem Consistent.net (consistent : Consistent d) {wallet : Wallet}
    (member : wallet ∈ d.wallets.rows) :
    d.net wallet.id = wallet.availableBalance + wallet.lockedBalance + d.directDeposits wallet.id -
      d.directWithdrawals wallet.id := by
  have available := consistent.balance member .available
  have locked := consistent.balance member .locked
  have staged : ∀ t ∈ d.transactions.rows, t.Staged :=
    fun t listed => (consistent.dossiers t listed).staged
  simp only [Wallet.balance] at available locked
  rw [consistent.ledger, available, locked, DB.directDeposits, DB.directWithdrawals,
    ← sum_ite, ← sum_ite]
  clear available locked
  generalize d.transactions.rows = rows at staged
  induction rows with
  | nil => rfl
  | cons t rest ih =>
    simp only [List.map_cons, List.sum_cons, Transaction.net_eq (staged t List.mem_cons_self),
      ih fun other listed => staged other (List.mem_cons_of_mem _ listed)]
    ring

/-- `TransactionService.deposit` and `withdraw`. -/
def TxCall.initiatesDirectly : TxCall → Bool
  | .deposit .. | .withdraw .. => true
  | _ => false

/-- None of the two commits. -/
def adaptedOnly : Permit := fun _ label =>
  match label with
  | .commit _ c | .lost _ c => c.initiatesDirectly = false
  | _ => True

instance (σ : SharedState) (label : Label TxCall Outside Request Exception) :
    Decidable (adaptedOnly σ label) :=
  match label with
  | .commit _ c | .lost _ c => inferInstanceAs (Decidable (c.initiatesDirectly = false))
  | .start .. | .outside .. | .abort .. | .drift => .isTrue trivial

/-- Deposits and withdrawals all have a provider that can settle them. -/
def Adapted (σ : SharedState) : Prop :=
  ∀ t ∈ σ.db.transactions.rows, t.type ≠ .transfer → ¬ t.direct

theorem Adapted.move {pid : Nat} {σ σ' : SharedState} (adapted : Adapted σ)
    (move : Move adaptedOnly pid σ σ') : Adapted σ' := by
  intro t member type
  cases move with
  | call => exact adapted t member type
  | @commit c d' permitted _ effect _ =>
    rcases effect.source member with ⟨old, present, _, terms⟩ | ⟨o, sender, receiver, asks, rfl⟩
    · simp only [Transaction.terms, Prod.mk.injEq] at terms
      simpa only [Transaction.direct, terms] using adapted old present (terms.1 ▸ type)
    · cases c with
      | deposit | withdraw =>
        exact absurd permitted (by simp [adaptedOnly, TxCall.initiatesDirectly])
      | transfer =>
        cases asks
        exact absurd rfl type
      | confirmDeposit | createPayout =>
        cases asks
        simp [Transaction.direct, Opening.row, SupportedProvider.toProvider_ne_internal]
      | _ => cases asks

theorem total_none {t : Table Transaction TransactionId Transaction.id} {p : Transaction → Prop}
    [DecidablePred p] (none : ∀ row ∈ t.rows, ¬ p row) (amount : Transaction → Decimal) :
    total t p amount = 0 := by
  rw [total, List.filter_eq_nil_iff.mpr fun row member => by simpa using none row member]
  rfl

/-- The ledger reconstructs the balance exactly where the open direct deposits and
withdrawals of a wallet cancel out; in particular in every run without them. -/
theorem ledger_reconstructs (w : State) :
    (system.Reaches adaptedOnly (World.init DB.empty Ext.idle) w →
      ∀ wallet ∈ w.shared.db.wallets.rows, Reconstructs w.shared.db wallet) ∧
    (Reachable w → ∀ wallet ∈ w.shared.db.wallets.rows, Reconstructs w.shared.db wallet ↔
      w.shared.db.directDeposits wallet.id = w.shared.db.directWithdrawals wallet.id) := by
  refine ⟨fun run wallet member => ?_, fun run wallet member => ?_⟩
  · have adapted : Adapted w.shared := related_of_reaches (F := fun σ σ' => Adapted σ → Adapted σ')
      (fun _ => id) (fun first second => second ∘ first)
        (fun _ move adapted => adapted.move move) .refl run
      fun _ none => by cases none
    have net := (sound_of_reaches run).books.net member
    rw [DB.directDeposits, DB.directWithdrawals, total_none, total_none] at net
    · simpa [Reconstructs] using net
    · exact fun t listed open_ => adapted t listed (by simp [open_.1]) open_.2.2.1
    · exact fun t listed open_ => adapted t listed (by simp [open_.1]) open_.2.2.1
  · have net := run.books.net member
    unfold Reconstructs
    constructor
    · intro law
      linarith
    · intro cancel
      linarith

theorem ledger_reconstructs_adapted :
    (∃ w, system.Reaches adaptedOnly (World.init DB.empty Ext.idle) w ∧
      (∃ wallet ∈ w.shared.db.wallets.rows, wallet.availableBalance = 50000) ∧
      ∀ wallet ∈ w.shared.db.wallets.rows, Reconstructs w.shared.db wallet) ∧
    ∃ w, Reachable w ∧ (∃ wallet ∈ w.shared.db.wallets.rows, wallet.pendingBalance = 50000) ∧
      ∀ wallet ∈ w.shared.db.wallets.rows, Reconstructs w.shared.db wallet ↔
        w.shared.db.directDeposits wallet.id = w.shared.db.directWithdrawals wallet.id := by
  constructor
  · obtain ⟨w, run, settled⟩ := Schedule.reaches
      [registers "alice", deposits "alice",
        polls (.ok charged) [.answer {}, .commit]] adaptedOnly DB.empty
      (fun σ => ∃ wallet ∈ σ.db.wallets.rows, wallet.availableBalance = 50000) (by decide +kernel)
    exact ⟨w, run, settled, (ledger_reconstructs w).1 run⟩
  · obtain ⟨w, run, pending⟩ := Schedule.reachable [registers "alice", deposits "alice"]
      (fun σ => ∃ wallet ∈ σ.db.wallets.rows, wallet.pendingBalance = 50000) (by decide +kernel)
    exact ⟨w, run, pending, (ledger_reconstructs w).2 run⟩

/-- A deposit through `TransactionService` is in the ledger and not in the balance. -/
theorem ledger_ahead_of_balance : ¬ ∀ w, Reachable w →
    ∀ wallet ∈ w.shared.db.wallets.rows, Reconstructs w.shared.db wallet := by
  intro law
  obtain ⟨w, run, wallet, member, ahead⟩ := Schedule.reachable
    [registers "alice", (.deposit "user-alice" ⟨⟨50000, Amount.fiveDollars_pos⟩, .usd, "key", none⟩,
      initiates "deposit")]
    (fun σ => ∃ wallet ∈ σ.db.wallets.rows, ¬ Reconstructs σ.db wallet) (by decide +kernel)
  exact ahead (law w run wallet member)

end PaymentWallet
