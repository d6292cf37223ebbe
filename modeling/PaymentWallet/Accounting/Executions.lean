import PaymentWallet.Accounting.Contracts

/-! What the repository methods return or throw when their transaction runs alone. -/
namespace PaymentWallet
open Foundation

/-- A transaction alone ends as its body ensures. -/
theorem Ensures.run {d d' : DB} {p : Tx α} {Q : α → DB → Prop} {value : α}
    (ensures : Ensures d p d Q) (ran : postgres.run d p d = .ok (value, d')) : Q value d' :=
  Engine.wp_run postgres_unread (fun plain exec =>
    postgres_stability.read_valid trivial plain exec) ensures ran

section
variable {d v : DB}

theorem run_query {s : Statement} (locked : s.plain = false) :
    postgres.run d (query s) v = (s.exec v).map fun outcome =>
      (outcome.1, postgres.view v outcome.2) :=
  Engine.run_perform locked

theorem run_markDelivered {id : EventId} {now : DateTime} :
    postgres.run d (PaymentRepository.markDelivered id now) v =
    (v.outboxEvents.get? id).elim (.error .recordNotFound) fun event =>
      .ok ((), { v with
        outboxEvents := v.outboxEvents.put { event with deliveredAt := some now } }) := by
  rw [PaymentRepository.markDelivered, run_query rfl]
  simp only [Statement.exec, updateRow]
  cases v.outboxEvents.get? id <;> rfl

theorem run_incrementRetry {id : EventId} : postgres.run d (PaymentRepository.incrementRetry id) v =
    (v.outboxEvents.get? id).elim (.error .recordNotFound) fun event =>
      .ok ((), { v with
        outboxEvents :=
          v.outboxEvents.put { event with retryCount := event.retryCount + 1 } }) := by
  rw [PaymentRepository.incrementRetry, run_query rfl]
  simp only [Statement.exec, updateRow]
  cases v.outboxEvents.get? id <;> rfl

section Returns
variable {id : String} {Q : Unit → DB → Prop}

@[simp] theorem returns_pure (value : α) {Q : α → DB → Prop} :
    postgres.Returns d (.pure value) v Q ↔ Q value v :=
  Engine.returns_pure

@[simp] theorem returns_throw (error : Exception) {Q : α → DB → Prop} :
    postgres.Returns d (.throw error) v Q ↔ False :=
  iff_false_intro Engine.returns_throw

@[simp] theorem returns_bind {p : Tx α} {f : α → Tx β} {Q : β → DB → Prop} :
    postgres.Returns d (p.bind f) v Q ↔ postgres.Returns d p v fun value v' =>
      postgres.Returns d (f value) v' Q :=
  Engine.returns_bind

theorem returns_query {s : Statement} (locked : s.plain = false) {Q : s.Reply → DB → Prop} :
    postgres.Returns d (query s) v Q ↔ ∃ reply ws, s.exec v = .ok (reply, ws) ∧
      Q reply (postgres.view v ws) :=
  Engine.returns_perform locked

@[simp] theorem returns_required (value : Option α) {Q : α → DB → Prop} :
    postgres.Returns d (required value) v Q ↔ ∃ present, value = some present ∧ Q present v := by
  cases value <;> simp [required]

@[simp] theorem returns_lockWallet {Q : Wallet → DB → Prop} :
    postgres.Returns d (WalletRepository.lockWallet id) v Q ↔
      ∃ row, v.wallets.get? id = some row ∧ Q row v := by
  rw [WalletRepository.lockWallet, Program.bind_def, returns_bind, returns_query rfl]
  constructor
  · rintro ⟨reply, ws, exec, rest⟩
    obtain ⟨rfl, rfl⟩ := exec_lockWallet.mp exec
    cases found : v.wallets.get? id with
    | none => simp [found] at rest
    | some row => exact ⟨row, rfl, by simpa [found] using rest⟩
  · rintro ⟨row, found, holds⟩
    exact ⟨_, _, exec_lockWallet.mpr ⟨rfl, rfl⟩, by simpa [found] using holds⟩

@[simp] theorem returns_assertActive (wallet : Wallet) :
    postgres.Returns d (WalletRepository.assertActive wallet) v Q ↔
      wallet.status = .active ∧ Q () v := by
  unfold WalletRepository.assertActive
  split <;> simp_all

@[simp] theorem returns_assertCurrencyMatch (wallet : Wallet) (currency : Currency) :
    postgres.Returns d (WalletRepository.assertCurrencyMatch wallet currency) v Q ↔
      wallet.currency = currency ∧ Q () v := by
  unfold WalletRepository.assertCurrencyMatch
  split <;> simp_all

@[simp] theorem returns_assertSufficientBalance (available : Decimal) (needed : Amount) :
    postgres.Returns d (TransactionService.assertSufficientBalance available needed) v Q ↔
      needed.decimal ≤ available ∧ Q () v := by
  unfold TransactionService.assertSufficientBalance
  by_cases short : available < needed.decimal
  · simp [short, Int.not_le.mpr short]
  · simp [short, Int.not_lt.mp short]

@[simp] theorem returns_updateWallet {change : BalanceChange} {Q : Wallet → DB → Prop} :
    postgres.Returns (α := Wallet) d (query (.updateWallet id change)) v Q ↔
      ∃ row, v.wallets.get? id = some row ∧
      (row.shift change).fits ∧
        Q (row.shift change) { v with wallets := v.wallets.put (row.shift change) } := by
  rw [returns_query rfl]
  constructor
  · rintro ⟨reply, ws, exec, holds⟩
    obtain ⟨row, found, fits, rfl, rfl⟩ := exec_updateWallet.mp exec
    exact ⟨row, found, fits, holds⟩
  · rintro ⟨row, found, fits, holds⟩
    exact ⟨_, _, exec_updateWallet.mpr ⟨row, found, fits, rfl, rfl⟩, holds⟩

@[simp] theorem returns_createTransaction {row : Transaction} {Q : Transaction → DB → Prop} :
    postgres.Returns (α := Transaction) d (query (.createTransaction row)) v Q ↔
      Decimal.fits row.amount.decimal ∧
      v.transactions.get? row.id = none ∧
        ¬ v.transactions.Has Transaction.index row.idempotencyKey ∧
      Q row { v with transactions := v.transactions.put row } := by
  rw [returns_query rfl]
  constructor
  · rintro ⟨reply, ws, exec, holds⟩
    obtain ⟨fits, fresh, new, same, rfl⟩ := exec_createTransaction.mp exec
    exact ⟨fits, fresh, new, same ▸ holds⟩
  · rintro ⟨fits, fresh, new, holds⟩
    exact ⟨_, _, exec_createTransaction.mpr ⟨fits, fresh, new, rfl, rfl⟩, holds⟩

@[simp] theorem returns_createLedgerEntry {row : LedgerEntry} :
    postgres.Returns (α := Unit) d (query (.createLedgerEntry row)) v Q ↔
      (Decimal.fits row.amount.decimal && Decimal.fits row.balanceAfter) ∧
        v.ledgerEntries.get? row.id = none ∧
      Q () { v with ledgerEntries := v.ledgerEntries.put row } := by
  rw [returns_query rfl]
  constructor
  · rintro ⟨reply, ws, exec, holds⟩
    obtain ⟨fits, fresh, rfl⟩ := exec_createLedgerEntry.mp exec
    exact ⟨fits, fresh, holds⟩
  · rintro ⟨fits, fresh, holds⟩
    exact ⟨(), _, exec_createLedgerEntry.mpr ⟨fits, fresh, rfl⟩, holds⟩

@[simp] theorem returns_createOutboxEvent {row : OutboxEvent} :
    postgres.Returns (α := Unit) d (query (.createOutboxEvent row)) v Q ↔
      v.outboxEvents.get? row.id = none ∧
      Q () { v with outboxEvents := v.outboxEvents.put row } := by
  rw [returns_query rfl]
  constructor
  · rintro ⟨reply, ws, exec, holds⟩
    obtain ⟨fresh, rfl⟩ := exec_createOutboxEvent.mp exec
    exact ⟨fresh, holds⟩
  · rintro ⟨fresh, holds⟩
    exact ⟨(), _, exec_createOutboxEvent.mpr ⟨fresh, rfl⟩, holds⟩

end Returns
end
end PaymentWallet
