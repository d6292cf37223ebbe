import PaymentWallet.Service.Processor
import PaymentWallet.Service.Schedules

/-! What the balances, the statuses and the ledger say in every reachable state,
whatever requests are served, however their transactions interleave or fail and
whatever the providers reply. -/
namespace PaymentWallet
open Foundation Schedule

section Reachable
variable {w : State}

theorem Reachable.sound (run : Reachable w) : Sound w.shared := sound_of_reaches run

theorem Reachable.books (run : Reachable w) : Consistent w.shared.db := run.sound.books

end Reachable

/-- The balances of a wallet, computed from the transactions that name it. -/
structure Accounted (d : DB) (wallet : Wallet) : Prop where
  pending : wallet.pendingBalance = total d.transactions (fun t => t.type = .deposit ∧
    t.status = .initiated ∧ t.receiverWalletId = some wallet.id) (·.amount.decimal)
  locked : wallet.lockedBalance = total d.transactions (fun t => t.type = .withdrawal ∧
    t.status = .initiated ∧ t.senderWalletId = some wallet.id) (·.amount.decimal)
  available : wallet.availableBalance =
    total d.transactions (fun t => t.type = .deposit ∧ t.status = .settled ∧
      t.receiverWalletId = some wallet.id) (·.amount.decimal) +
    total d.transactions (fun t => t.type = .transfer ∧ t.status = .settled ∧
      t.receiverWalletId = some wallet.id) (·.amount.decimal) -
    total d.transactions (fun t => t.type = .transfer ∧ t.status = .settled ∧
      t.senderWalletId = some wallet.id) (·.amount.decimal) -
    total d.transactions (fun t => t.type = .withdrawal ∧
      (t.status = .initiated ∨ t.status = .settled) ∧
      t.senderWalletId = some wallet.id) (·.amount.decimal)
  nonneg : 0 ≤ wallet.pendingBalance ∧ 0 ≤ wallet.lockedBalance ∧ 0 ≤ wallet.availableBalance

section Effects
variable {t : Transaction} {id : WalletId}

theorem Transaction.effect_pending : t.effect id .pending =
    if t.type = .deposit ∧ t.status = .initiated ∧
      t.receiverWalletId = some id then t.amount.decimal else 0 := by
  cases type : t.type <;> cases status : t.status <;> simp [effect, type, status, received]

theorem Transaction.effect_locked : t.effect id .locked =
    if t.type = .withdrawal ∧ t.status = .initiated ∧
      t.senderWalletId = some id then t.amount.decimal else 0 := by
  cases type : t.type <;> cases status : t.status <;> simp [effect, type, status, sent]

theorem Transaction.effect_available : t.effect id .available =
    (if t.type = .deposit ∧ t.status = .settled ∧
      t.receiverWalletId = some id then t.amount.decimal else 0) +
    (if t.type = .transfer ∧ t.status = .settled ∧
      t.receiverWalletId = some id then t.amount.decimal else 0) -
    (if t.type = .transfer ∧ t.status = .settled ∧
      t.senderWalletId = some id then t.amount.decimal else 0) -
    (if t.type = .withdrawal ∧ (t.status = .initiated ∨ t.status = .settled) ∧
      t.senderWalletId = some id
      then t.amount.decimal else 0) := by
  cases type : t.type <;> cases status : t.status <;> simp [effect, type, status, received, sent]

end Effects

theorem Consistent.balance (consistent : Consistent d) {wallet : Wallet}
    (member : wallet ∈ d.wallets.rows)
    (b : Bucket) : wallet.balance b = (d.transactions.rows.map (·.effect wallet.id b)).sum := by
  have balanced := congrFun (consistent.balances wallet.id) b
  simp only [DB.balance, Table.get?_of_mem member, Option.map_some, Option.getD_some] at balanced
  rw [balanced]
  generalize d.transactions.rows = rows
  induction rows with
  | nil => rfl
  | cons t rest ih => simp [ih]

theorem Consistent.accounted (consistent : Consistent d) {wallet : Wallet}
    (member : wallet ∈ d.wallets.rows) :
    Accounted d wallet := by
  have amount : ∀ t ∈ d.transactions.rows, 0 ≤ t.amount.decimal := fun t _ => Int.natCast_nonneg _
  have pending := consistent.balance member .pending
  have locked := consistent.balance member .locked
  simp only [Wallet.balance, Transaction.effect_pending, Transaction.effect_locked,
    sum_ite] at pending locked
  refine ⟨pending, locked, ?_, pending ▸ total_nonneg amount, locked ▸ total_nonneg amount,
    consistent.nonneg wallet member⟩
  have available := consistent.balance member .available
  simp only [Wallet.balance, Transaction.effect_available] at available
  rw [available]
  simp only [← sum_ite]
  generalize d.transactions.rows = rows
  induction rows with
  | nil => rfl
  | cons t rest ih =>
    simp only [List.map_cons, List.sum_cons, ih]
    ring

/-- The accounting equation. -/
theorem accounting_equation (run : Reachable w) :
    ∀ wallet ∈ w.shared.db.wallets.rows, Accounted w.shared.db wallet :=
  fun _ member => run.books.accounted member

theorem accounting_equation_settled : ∃ w, Reachable w ∧
    (∃ wallet ∈ w.shared.db.wallets.rows, wallet.availableBalance = 50000) ∧
    ∀ wallet ∈ w.shared.db.wallets.rows, Accounted w.shared.db wallet := by
  obtain ⟨w, run, credited⟩ := Schedule.reachable
    [registers "alice", deposits "alice", polls (.ok charged) [.answer {}, .commit]]
    (fun σ => ∃ wallet ∈ σ.db.wallets.rows, wallet.availableBalance = 50000) (by decide +kernel)
  exact ⟨w, run, credited, accounting_equation run⟩

end PaymentWallet
