import PaymentWallet.Concurrency.Reads

/-! One contract for each repository method: what a body may rely on after the
call has returned. The contracts are equations of the weakest precondition, so
the precondition of a body is computed by rewriting. -/
namespace PaymentWallet
open Foundation

/-- Whenever `p` returns on the view `v`, its result and view satisfy `Q`; plain
reads see a store that `d` has grown from. -/
def Ensures (d : DB) (p : Tx α) (v : DB) (Q : α → DB → Prop) : Prop :=
  postgres.wp Statement.Learned d p v Q

section
variable {d v : DB} {id : String}

@[simp] theorem ensures_pure (value : α) {Q : α → DB → Prop} :
    Ensures d (.pure value) v Q ↔ Q value v := Iff.rfl

@[simp] theorem ensures_throw (error : Exception) {Q : α → DB → Prop} :
    Ensures d (.throw error) v Q ↔ True := Iff.rfl

@[simp] theorem ensures_bind {p : Tx α} {f : α → Tx β} {Q : β → DB → Prop} :
    Ensures d (p.bind f) v Q ↔ Ensures d p v fun value v' => Ensures d (f value) v' Q :=
  Engine.wp_bind

theorem ensures_read {s : Statement} (plain : s.plain = true) {Q : s.Reply → DB → Prop} :
    Ensures d (query s) v Q ↔ ∀ reply, s.Learned reply d → Q reply v := by
  simp only [Ensures, query, Program.perform, Engine.wp, postgres, plain, if_true]

theorem ensures_query {s : Statement} (locked : s.plain = false) {Q : s.Reply → DB → Prop} :
    Ensures d (query s) v Q ↔
      ∀ reply ws, s.exec v = .ok (reply, ws) → Q reply (postgres.view v ws) := by
  simp only [Ensures, query, Program.perform, Engine.wp, postgres, locked,
    Bool.false_eq_true, if_false]

theorem Ensures.mono {p : Tx α} {P Q : α → DB → Prop} (h : Ensures d p v P)
    (weaker : ∀ value v', P value v' → Q value v') : Ensures d p v Q :=
  Engine.wp_mono h weaker

@[simp] theorem ensures_required (value : Option α) {Q : α → DB → Prop} :
    Ensures d (required value) v Q ↔ ∀ present, value = some present → Q present v := by
  cases value <;> simp [required]

@[simp] theorem ensures_updateWallet {change : BalanceChange} {Q} :
    Ensures (α := Wallet) d (query (.updateWallet id change)) v Q ↔
      ∀ row, v.wallets.get? id = some row →
      (row.shift change).fits →
        Q (row.shift change) { v with wallets := v.wallets.put (row.shift change) } := by
  rw [ensures_query rfl]
  constructor
  · exact fun h row found fits => h _ _ (exec_updateWallet.mpr ⟨row, found, fits, rfl, rfl⟩)
  · intro h reply ws exec
    obtain ⟨row, found, fits, rfl, rfl⟩ := exec_updateWallet.mp exec
    exact h row found fits

@[simp] theorem ensures_createTransaction {row : Transaction} {Q} :
    Ensures (α := Transaction) d (query (.createTransaction row)) v Q ↔
      (Decimal.fits row.amount.decimal →
      v.transactions.get? row.id = none →
        ¬ v.transactions.Has Transaction.index row.idempotencyKey →
      Q row { v with transactions := v.transactions.put row }) := by
  rw [ensures_query rfl]
  constructor
  · exact fun h fits fresh new => h _ _ (exec_createTransaction.mpr ⟨fits, fresh, new, rfl, rfl⟩)
  · intro h reply ws exec
    obtain ⟨fits, fresh, new, same, rfl⟩ := exec_createTransaction.mp exec
    exact same ▸ h fits fresh new

@[simp] theorem ensures_updateTransaction {patch : TransactionPatch} {Q} :
    Ensures (α := Unit) d (query (.updateTransaction id patch)) v Q ↔
      ∀ row, v.transactions.get? id = some row →
      Q () { v with transactions := v.transactions.put (patch.apply row) } := by
  rw [ensures_query rfl]
  constructor
  · exact fun h row found => h () _ (exec_updateTransaction.mpr ⟨row, found, rfl⟩)
  · intro h reply ws exec
    obtain ⟨row, found, rfl⟩ := exec_updateTransaction.mp exec
    exact h row found

@[simp] theorem ensures_createLedgerEntry {row : LedgerEntry} {Q} :
    Ensures (α := Unit) d (query (.createLedgerEntry row)) v Q ↔
      ((Decimal.fits row.amount.decimal && Decimal.fits row.balanceAfter) →
        v.ledgerEntries.get? row.id = none →
        Q () { v with ledgerEntries := v.ledgerEntries.put row }) := by
  rw [ensures_query rfl]
  constructor
  · exact fun h fits fresh => h () _ (exec_createLedgerEntry.mpr ⟨fits, fresh, rfl⟩)
  · intro h reply ws exec
    obtain ⟨fits, fresh, rfl⟩ := exec_createLedgerEntry.mp exec
    exact h fits fresh

@[simp] theorem ensures_createOutboxEvent {row : OutboxEvent} {Q} :
    Ensures (α := Unit) d (query (.createOutboxEvent row)) v Q ↔
      (v.outboxEvents.get? row.id = none →
      Q () { v with outboxEvents := v.outboxEvents.put row }) := by
  rw [ensures_query rfl]
  constructor
  · exact fun h fresh => h () _ (exec_createOutboxEvent.mpr ⟨fresh, rfl⟩)
  · intro h reply ws exec
    obtain ⟨fresh, rfl⟩ := exec_createOutboxEvent.mp exec
    exact h fresh

@[simp] theorem ensures_createUser {row : User} {Q} :
    Ensures (α := Unit) d (query (.createUser row)) v Q ↔ (v.users.get? row.id = none →
      (∀ i ∈ row.index, ¬ v.users.Has User.index i) →
        Q () { v with users := v.users.put row }) := by
  rw [ensures_query rfl]
  constructor
  · exact fun h fresh new => h () _ (exec_createUser.mpr ⟨fresh, new, rfl⟩)
  · intro h reply ws exec
    obtain ⟨fresh, new, rfl⟩ := exec_createUser.mp exec
    exact h fresh new

@[simp] theorem ensures_createWallet {row : Wallet} {Q} :
    Ensures (α := Unit) d (query (.createWallet row)) v Q ↔ (v.wallets.get? row.id = none →
      ¬ v.wallets.Has Wallet.index row.userId → Q () { v with wallets := v.wallets.put row }) := by
  rw [ensures_query rfl]
  constructor
  · exact fun h fresh new => h () _ (exec_createWallet.mpr ⟨fresh, new, rfl⟩)
  · intro h reply ws exec
    obtain ⟨fresh, new, rfl⟩ := exec_createWallet.mp exec
    exact h fresh new

@[simp] theorem ensures_updateUser {patch : UserPatch} {Q} :
    Ensures (α := Unit) d (query (.updateUser id patch)) v Q ↔ ∀ old, v.users.get? id = some old →
      (∀ entry ∈ (patch.apply old).index, entry ∉ old.index → ¬ v.users.Has User.index entry) →
      Q () { v with users := v.users.put (patch.apply old) } := by
  rw [ensures_query rfl]
  constructor
  · exact fun h old found new => h () _ (exec_updateUser.mpr ⟨old, found, new, rfl⟩)
  · intro h reply ws exec
    obtain ⟨old, found, new, rfl⟩ := exec_updateUser.mp exec
    exact h old found new

@[simp] theorem ensures_revokeRefreshTokens {Q} :
    Ensures (α := Unit) d (query (.revokeRefreshTokens userId now)) v Q ↔
      Q () (v.write (.revokeRefreshTokens userId now)) := by
  rw [ensures_query rfl]
  constructor
  · exact fun h => h () _ (exec_revokeRefreshTokens.mpr rfl)
  · intro h reply ws exec
    obtain rfl := exec_revokeRefreshTokens.mp exec
    exact h

@[simp] theorem ensures_markDelivered {Q : Unit → DB → Prop} :
    Ensures d (PaymentRepository.markDelivered id now) v Q ↔
      ∀ row, v.outboxEvents.get? id = some row →
      Q () { v with outboxEvents := v.outboxEvents.put { row with deliveredAt := some now } } := by
  rw [PaymentRepository.markDelivered, ensures_query rfl]
  constructor
  · exact fun h row found => h () _ (exec_markDelivered.mpr ⟨row, found, rfl⟩)
  · intro h reply ws exec
    obtain ⟨row, found, rfl⟩ := exec_markDelivered.mp exec
    exact h row found

@[simp] theorem ensures_incrementRetry {Q : Unit → DB → Prop} :
    Ensures d (PaymentRepository.incrementRetry id) v Q ↔ ∀ row, v.outboxEvents.get? id = some row →
      Q () { v with
        outboxEvents := v.outboxEvents.put { row with retryCount := row.retryCount + 1 } } := by
  rw [PaymentRepository.incrementRetry, ensures_query rfl]
  constructor
  · exact fun h row found => h () _ (exec_incrementRetry.mpr ⟨row, found, rfl⟩)
  · intro h reply ws exec
    obtain ⟨row, found, rfl⟩ := exec_incrementRetry.mp exec
    exact h row found

@[simp] theorem ensures_createPaymentLog {Q : Unit → DB → Prop} (input : CreatePaymentLogInput)
    (draw : Draw) :
    Ensures d (PaymentRepository.createPaymentLog input draw) v Q ↔
      (v.paymentLogs.get? draw.paymentLogId = none →
        ¬ v.paymentLogs.Has PaymentLog.index input.transactionId →
        Q () { v with paymentLogs := v.paymentLogs.put ⟨draw.paymentLogId, input.transactionId,
          input.provider, input.providerRef, input.payload, input.status, draw.createdAt⟩ }) := by
  rw [PaymentRepository.createPaymentLog, ensures_query rfl]
  constructor
  · exact fun h fresh new => h () _ (exec_createPaymentLog.mpr ⟨fresh, new, rfl⟩)
  · intro h reply ws exec
    obtain ⟨fresh, new, rfl⟩ := exec_createPaymentLog.mp exec
    exact h fresh new

@[simp] theorem ensures_setProviderRef {Q : Unit → DB → Prop} (providerRef : String) :
    Ensures d (PaymentRepository.setProviderRef id providerRef) v Q ↔
      ∀ row, v.transactions.get? id = some row →
        Q () { v with
        transactions := v.transactions.put
          (TransactionPatch.apply ⟨none, none, some providerRef⟩ row) } :=
  ensures_updateTransaction

/-- The idempotency guard may find the customer id already there. -/
theorem ensures_upsertBraintreeCustomerId {Q : Unit → DB → Prop} (stays : Q () v)
    (updates : ∀ old, v.users.get? userId = some old →
      Q () { v with
        users := v.users.put (UserPatch.apply { braintreeCustomerId := some customerId } old) }) :
    Ensures d (UsersRepository.upsertBraintreeCustomerId userId customerId) v Q := by
  rw [UsersRepository.upsertBraintreeCustomerId, ensures_query rfl]
  intro reply ws exec
  rcases exec_upsertBraintreeCustomerId exec with rfl | exec
  · exact stays
  · obtain ⟨old, found, _, rfl⟩ := exec_updateUser.mp exec
    exact updates old found

namespace WalletRepository

@[simp] theorem ensures_findByUserId {Q : Option WalletId → DB → Prop} :
    Ensures d (findByUserId userId) v Q ↔ ∀ reply,
      (∀ id, reply = some id → d.Owns userId id) → Q reply v :=
  ensures_read rfl

@[simp] theorem ensures_lockWallet {Q : Wallet → DB → Prop} :
    Ensures d (lockWallet id) v Q ↔ ∀ row, v.wallets.get? id = some row → Q row v := by
  rw [lockWallet, Program.bind_def, ensures_bind, ensures_query rfl]
  constructor
  · intro h row found
    have returned := h _ _ (exec_lockWallet.mpr ⟨rfl, rfl⟩)
    rw [found] at returned
    exact returned
  · intro h reply ws exec
    obtain ⟨rfl, rfl⟩ := exec_lockWallet.mp exec
    cases found : v.wallets.get? id with
    | none => trivial
    | some row => exact h row found

@[simp] theorem ensures_assertActive {Q : Unit → DB → Prop} (wallet : Wallet) :
    Ensures d (assertActive wallet) v Q ↔ (wallet.status = .active → Q () v) := by
  unfold assertActive
  split <;> simp_all

@[simp] theorem ensures_assertCurrencyMatch {Q : Unit → DB → Prop} (wallet : Wallet)
    (currency : Currency) :
    Ensures d (assertCurrencyMatch wallet currency) v Q ↔
      (wallet.currency = currency → Q () v) := by
  unfold assertCurrencyMatch
  split <;> simp_all

end WalletRepository

@[simp] theorem ensures_assertSufficientBalance {Q : Unit → DB → Prop} (available : Decimal)
    (needed : Amount) : Ensures d
      (TransactionService.assertSufficientBalance available needed) v Q ↔
      (needed.decimal ≤ available → Q () v) := by
  unfold TransactionService.assertSufficientBalance
  by_cases short : available < needed.decimal
  · simp [short, Int.not_le.mpr short]
  · simp [short, Int.not_lt.mp short]

/-- The payee of a payout is read and not written. -/
theorem ensures_payoutFields {Q : Record → DB → Prop} (holds : ∀ fields, Q fields v) :
    Ensures d (PaymentService.payoutFields userId provider) v Q := by
  cases provider with
  | stripe =>
    simp only [PaymentService.payoutFields, PaymentService.resolveStripeConnectAccount,
      StripeConnectRepository.findById, Program.bind_def, ensures_bind,
        ensures_read (s := .findConnectAccount _) rfl]
    intro reply _
    split
    · trivial
    · exact holds _
  | paypal =>
    simp only [PaymentService.payoutFields, PaymentService.resolvePaypalEmail,
      PaymentRepository.findUserById, Program.bind_def, ensures_bind,
        ensures_read (s := .findPaypalEmail _) rfl]
    intro reply _
    split
    · trivial
    · split
      · trivial
      · exact holds _

end
end PaymentWallet
