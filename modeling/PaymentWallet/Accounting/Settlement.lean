import PaymentWallet.Accounting.Effects
import Mathlib.Tactic.Linarith

/-! Settling and failing close a transaction. None of the four paths looks at the
status of the row: that it is still INITIATED follows from the dossier, because
the unique payment log can be written only once. -/
namespace PaymentWallet
open Foundation

/-- The arguments of `settle` and `fail` describe a row and one of its events. -/
structure TransactionContext.Matches (txCtx : TransactionContext) (eventId : EventId)
    (d : DB) : Prop where
  row : ∃ t, d.transactions.get? txCtx.id = some t ∧ t.terms = (txCtx.type, txCtx.amount,
    txCtx.currency, txCtx.provider, txCtx.senderWalletId, txCtx.receiverWalletId)
  event : ∃ e, d.outboxEvents.get? eventId = some e ∧ e.transactionId = txCtx.id
  adapted : txCtx.provider ≠ some .internal

theorem TransactionContext.Matches.keeps {txCtx : TransactionContext}
    {eventId : EventId} {d d' : DB}
    (matched : txCtx.Matches eventId d) (keeps : d.Keeps d') : txCtx.Matches eventId d' := by
  obtain ⟨⟨t, found, terms⟩, ⟨e, present, of⟩, adapted⟩ := matched
  obtain ⟨t', found', same⟩ := keeps.transactions _ _ found
  obtain ⟨e', present', same'⟩ := keeps.outboxEvents _ _ present
  exact ⟨⟨t', found', same.trans terms⟩,
    ⟨e', present', (congrArg Prod.fst same').trans of⟩, adapted⟩

/-- A transaction without a payment log is still open. -/
theorem Dossier.initiated {d : DB} {t : Transaction} (dossier : Dossier d t)
    (type : t.type ≠ .transfer)
    (unlogged : ¬ d.paymentLogs.Has PaymentLog.index t.id) : t.status = .initiated := by
  have empty : d.logsOf t.id = [] := by
    refine List.filter_eq_nil_iff.mpr fun log member => ?_
    simp only [decide_eq_true_eq]
    exact fun of => unlogged ⟨log, member, by simp [PaymentLog.index, of]⟩
  have outcome := dossier.logs
  rw [empty, Transaction.outcome] at outcome
  by_contra closed
  simp [type, closed] at outcome

section Contracts
variable {d v : DB} {txCtx : TransactionContext} {eventId : EventId}
  {result : ProviderResult} {draw : Draw}

/-- What `markSettled` writes. -/
def settledPatch (result : ProviderResult) (draw : Draw) : TransactionPatch :=
  ⟨some .settled, some draw.settledAt, truthy result.providerRef⟩

theorem ensures_markSettled {Q : Unit → DB → Prop}
    (holds : ∀ row, v.transactions.get? txCtx.id = some row →
      Q () { v with transactions := v.transactions.put ((settledPatch result draw).apply row) }) :
    Ensures d (PaymentSettlementService.markSettled txCtx result draw) v Q := by
  unfold PaymentSettlementService.markSettled
  cases stamp : truthy result.providerRef with
  | none =>
    simp only [ensures_updateTransaction]
    intro row found
    simpa only [settledPatch, stamp] using holds row found
  | some providerRef =>
    simp only [Program.bind_def, ensures_bind, ensures_setProviderRef, ensures_updateTransaction]
    intro row found stamped found'
    have keyEq : row.id = txCtx.id := Table.get?_key found
    obtain rfl : TransactionPatch.apply ⟨none, none, some providerRef⟩ row = stamped := by
      simpa [TransactionPatch.apply, keyEq] using found'
    have written := holds row found
    rw [settledPatch, stamp] at written
    rw [Table.put_put (by rfl)]
    exact written

@[simp] theorem ensures_record {Q : Unit → DB → Prop} {status : TransactionStatus} :
    Ensures d (PaymentSettlementService.record txCtx eventId result status draw) v Q ↔
      ∀ provider, txCtx.provider = some provider → v.paymentLogs.get? draw.paymentLogId = none →
        ¬ v.paymentLogs.Has PaymentLog.index txCtx.id →
        ∀ event, v.outboxEvents.get? eventId = some event →
          Q () { v with
            paymentLogs := v.paymentLogs.put ⟨draw.paymentLogId, txCtx.id,
              provider, result.providerRef, result.rawResponse, status, draw.createdAt⟩
            outboxEvents := v.outboxEvents.put
              { event with deliveredAt := some draw.deliveredAt } } := by
  simp [PaymentSettlementService.record]

/-- Persisting the vaulted customer keeps the status of every user. -/
theorem ensures_vault {Q : Unit → DB → Prop} {userId : UserId} {customer : Option String}
    (holds : ∀ users : Table User UserId User.id, (∀ id, (users.get? id).map (·.status) =
      (v.users.get? id).map (·.status)) → Q () { v with users := users }) :
    Ensures d (match customer with
      | some customerId => UsersRepository.upsertBraintreeCustomerId userId customerId
      | none => .pure ()) v Q := by
  cases customer with
  | none => exact holds v.users fun _ => rfl
  | some customerId =>
    refine ensures_upsertBraintreeCustomerId (holds v.users fun _ => rfl) fun old found => ?_
    refine holds _ fun id => ?_
    have keyEq := Table.get?_key found
    rw [Table.get?_put]
    split
    · rename_i same
      obtain rfl : id = userId := same.trans keyEq
      rw [found]
      rfl
    · rfl

end Contracts

section Closing
variable {d : DB} {t : Transaction} {patch : TransactionPatch} {wallet : Wallet}
  {change : BalanceChange}
  {entries : List LedgerEntry} {ledger : Table LedgerEntry String LedgerEntry.id} {log : PaymentLog}
  {event old : OutboxEvent} {users : Table User UserId User.id}

/-- Closing moves one wallet and writes the records of `t`. -/
theorem Closed.single (dossier : Dossier d t) (found : d.transactions.get? t.id = some t)
    (type : t.type ≠ .transfer) (adapted : ¬ t.direct)
    (unlogged : ¬ d.paymentLogs.Has PaymentLog.index t.id)
    (status : patch.status = some log.status)
    (outcome : log.status = .settled ∨ log.status = .failed)
    (settledAt : patch.settledAt.isSome ↔ log.status = .settled)
    (userStatus : ∀ id, (users.get? id).map (·.status) = (d.users.get? id).map (·.status))
    (held : d.wallets.get? wallet.id = some wallet)
    (here : t.status = .initiated → ∀ b,
      (patch.apply t).effect wallet.id b - t.effect wallet.id b = change.amount b)
    (elsewhere : t.status = .initiated → ∀ other ≠ wallet.id, ∀ b,
      (patch.apply t).effect other b - t.effect other b = 0)
    (posts : ledger.rows = d.ledgerEntries.rows ++ entries)
    (image : entries.map (·.posting) = (patch.apply t).image)
    (posted : ∀ e ∈ entries, e.transactionId = t.id)
    (newLog : d.paymentLogs.get? log.id = none) (log_of : log.transactionId = t.id)
    (present : d.outboxEvents.get? event.id = some old) (event_of : old.transactionId = t.id)
    (terms : event.terms = old.terms ∧ event.retryCount = old.retryCount)
    (delivered : event.deliveredAt.isSome) :
    Closed d t (patch.apply t) entries log event
      ⟨users, d.refreshTokens, d.wallets.put (wallet.shift change),
        d.transactions.put (patch.apply t),
        ledger, d.paymentLogs.put log, d.outboxEvents.put event⟩ := by
  have initiated := dossier.initiated type unlogged
  have unsettled : t.settledAt = none := by
    have none := dossier.staged.settledAt
    simp only [initiated, reduceCtorEq, iff_false] at none
    simpa using none
  have closed : (patch.apply t).status = log.status := by simp [TransactionPatch.apply, status]
  exact {
    found := found
    initiated := initiated
    type := type
    adapted := adapted
    id := rfl
    key := rfl
    terms := rfl
    status := closed ▸ outcome
    settledAt := by rw [closed, ← settledAt]; simp [TransactionPatch.apply, unsettled]
    users := userStatus
    wallets := .put held change (here initiated) (elsewhere initiated)
    transactions := rfl
    ledgerEntries := posts
    paymentLogs := rfl
    outboxEvents := rfl
    image := image
    posted := posted
    newLog := newLog
    log_of := ⟨log_of, closed.symm⟩
    event_of := ⟨old, present, event_of, terms.1, terms.2⟩
    delivered := delivered }

end Closing

/-- `t` was closed with this outcome, unless it was closed before. -/
def TransactionContext.Finished (txCtx : TransactionContext) (status : TransactionStatus)
    (d d' : DB) : Prop :=
  ∃ t t' entries log event, t.id = txCtx.id ∧ t'.status = status ∧
    Closed d t t' entries log event d'

section Bodies
variable {d : DB} {txCtx : TransactionContext} {eventId : EventId}
  {result : ProviderResult} {draw : Draw}

/-- The row behind the arguments of `settle` and `fail`; its status may be read long ago. -/
theorem TransactionContext.Matches.dossier (matched : txCtx.Matches eventId d)
    (consistent : Consistent d) :
    ∃ t status userId event, txCtx = ⟨⟨t.id, t.type, status, t.amount, t.currency, t.provider,
        t.senderWalletId, t.receiverWalletId⟩, userId⟩ ∧ d.transactions.get? t.id = some t ∧
          Dossier d t ∧ ¬ t.direct ∧
      d.outboxEvents.get? eventId = some event ∧ event.transactionId = t.id := by
  obtain ⟨⟨t, found, terms⟩, ⟨event, present, of⟩, adapted⟩ := matched
  obtain ⟨⟨id, type, status, amount, currency, provider, sender, receiver⟩, userId⟩ := txCtx
  simp only [Transaction.terms, Prod.mk.injEq] at terms
  obtain ⟨rfl, rfl, rfl, rfl, rfl, rfl⟩ := terms
  obtain rfl := Table.get?_key found
  exact ⟨t, status, userId, event, rfl, found, consistent.dossiers t (Table.get?_mem found),
    by simpa [Transaction.direct] using adapted, present, of⟩

theorem settleDeposit_finished (consistent : Consistent d) (matched : txCtx.Matches eventId d)
    (type : txCtx.type = .deposit) :
    Ensures d (PaymentSettlementService.settleDeposit txCtx eventId result draw) d
      fun _ d' => txCtx.Finished .settled d d' := by
  obtain ⟨t, status, userId, event, rfl, found, dossier, adapted, present, of⟩ :=
    matched.dossier consistent
  have kind : t.type = .deposit := type
  simp only [PaymentSettlementService.settleDeposit, WalletRepository.settlePending,
    Program.bind_def, Program.pure_def, ensures_bind, ensures_required,
    ensures_updateWallet, ensures_pure]
  intro walletId named wallet held _
  obtain rfl := Table.get?_key held
  refine ensures_markSettled fun row found' => ?_
  cases found.symm.trans found'
  simp only [ensures_createLedgerEntry, ensures_record]
  intro _ newEntry provider provided newLog unlogged event' present'
  cases present.symm.trans present'
  obtain rfl := Table.get?_key present
  refine ensures_vault fun users same =>
    ⟨t, _, _, _, _, rfl, rfl, .single dossier found (by simp [kind])
    adapted unlogged rfl (.inl rfl) (by simp [settledPatch]) same held (fun initiated b => ?_)
    (fun initiated other different b => ?_) (Table.rows_put_fresh newEntry) ?_
    (List.forall_mem_singleton.mpr rfl) newLog rfl present of ⟨rfl, rfl⟩ rfl⟩
  · cases b <;> simp [Transaction.effect, TransactionPatch.apply, settledPatch, kind, initiated,
      Transaction.received, named, BalanceChange.amount]
  · cases b <;> simp [Transaction.effect, TransactionPatch.apply, settledPatch, kind, initiated,
      Transaction.received, named, different.symm]
  · simp [Transaction.image, Transaction.posts, TransactionPatch.apply, settledPatch, kind,
      Transaction.credit, LedgerEntry.posting, named]

theorem settleWithdrawal_finished (consistent : Consistent d) (matched : txCtx.Matches eventId d)
    (type : txCtx.type = .withdrawal) :
    Ensures d (PaymentSettlementService.settleWithdrawal txCtx eventId result draw) d
      fun _ d' => txCtx.Finished .settled d d' := by
  obtain ⟨t, status, userId, event, rfl, found, dossier, adapted, present, of⟩ :=
    matched.dossier consistent
  have kind : t.type = .withdrawal := type
  simp only [PaymentSettlementService.settleWithdrawal, WalletRepository.settleWithdrawal,
    Program.bind_def, Program.pure_def, ensures_bind, ensures_required,
      ensures_updateWallet, ensures_pure]
  intro walletId named wallet held _
  obtain rfl := Table.get?_key held
  refine ensures_markSettled fun row found' => ?_
  cases found.symm.trans found'
  simp only [ensures_createLedgerEntry, ensures_record]
  intro _ newEntry provider provided newLog unlogged event' present'
  cases present.symm.trans present'
  obtain rfl := Table.get?_key present
  refine ⟨t, _, _, _, _, rfl, rfl,
    .single dossier found (by simp [kind]) adapted unlogged rfl (.inl rfl)
    (by simp [settledPatch]) (fun _ => rfl) held (fun initiated b => ?_)
    (fun initiated other different b => ?_) (Table.rows_put_fresh newEntry) ?_
    (List.forall_mem_singleton.mpr rfl) newLog rfl present of ⟨rfl, rfl⟩ rfl⟩
  · cases b <;> simp [Transaction.effect, TransactionPatch.apply, settledPatch, kind, initiated,
      Transaction.sent, named, BalanceChange.amount]
  · cases b <;> simp [Transaction.effect, TransactionPatch.apply, settledPatch, kind, initiated,
      Transaction.sent, named, different.symm]
  · simp [Transaction.image, Transaction.posts, TransactionPatch.apply, settledPatch, kind,
      Transaction.debit, LedgerEntry.posting, named]

theorem failDeposit_finished (consistent : Consistent d) (matched : txCtx.Matches eventId d)
    (type : txCtx.type = .deposit) :
    Ensures d (PaymentSettlementService.failDeposit txCtx eventId result draw) d
      fun _ d' => txCtx.Finished .failed d d' := by
  obtain ⟨t, status, userId, event, rfl, found, dossier, adapted, present, of⟩ :=
    matched.dossier consistent
  have kind : t.type = .deposit := type
  simp only [PaymentSettlementService.failDeposit, Program.bind_def, ensures_bind, ensures_required,
    ensures_updateWallet, ensures_updateTransaction, ensures_record]
  intro walletId named wallet held _ row found' provider provided newLog unlogged event' present'
  obtain rfl := Table.get?_key held
  cases found.symm.trans found'
  cases present.symm.trans present'
  obtain rfl := Table.get?_key present
  refine ⟨t, _, _, _, _, rfl, rfl,
    .single dossier found (by simp [kind]) adapted unlogged rfl (.inr rfl)
    (by simp) (fun _ => rfl) held (fun initiated b => ?_) (fun initiated other different b => ?_)
    (List.append_nil _).symm ?_ (by simp) newLog rfl present of ⟨rfl, rfl⟩ rfl⟩
  · cases b <;> simp [Transaction.effect, TransactionPatch.apply, kind, initiated,
      Transaction.received, named, BalanceChange.amount]
  · cases b <;> simp [Transaction.effect, TransactionPatch.apply, kind, initiated,
      Transaction.received, named, different.symm]
  · simp [Transaction.image, Transaction.posts, TransactionPatch.apply]

theorem failWithdrawal_finished (consistent : Consistent d) (matched : txCtx.Matches eventId d)
    (type : txCtx.type = .withdrawal) :
    Ensures d (PaymentSettlementService.failWithdrawal txCtx eventId result draw) d
      fun _ d' => txCtx.Finished .failed d d' := by
  obtain ⟨t, status, userId, event, rfl, found, dossier, adapted, present, of⟩ :=
    matched.dossier consistent
  have kind : t.type = .withdrawal := type
  simp only [PaymentSettlementService.failWithdrawal, Program.bind_def, ensures_bind,
    ensures_required, ensures_updateWallet, ensures_updateTransaction, ensures_record]
  intro walletId named wallet held _ row found' provider provided newLog unlogged event' present'
  obtain rfl := Table.get?_key held
  cases found.symm.trans found'
  cases present.symm.trans present'
  obtain rfl := Table.get?_key present
  refine ⟨t, _, _, _, _, rfl, rfl,
    .single dossier found (by simp [kind]) adapted unlogged rfl (.inr rfl)
    (by simp) (fun _ => rfl) held (fun initiated b => ?_) (fun initiated other different b => ?_)
    (List.append_nil _).symm ?_ (by simp) newLog rfl present of ⟨rfl, rfl⟩ rfl⟩
  · cases b <;> simp [Transaction.effect, TransactionPatch.apply, kind, initiated,
      Transaction.sent, named, BalanceChange.amount]
  · cases b <;> simp [Transaction.effect, TransactionPatch.apply, kind, initiated,
      Transaction.sent, named, different.symm]
  · simp [Transaction.image, Transaction.posts, TransactionPatch.apply]

theorem settle_finished (consistent : Consistent d) (matched : txCtx.Matches eventId d) :
    Ensures d (PaymentSettlementService.settleTx txCtx eventId result draw) d
      fun _ d' => txCtx.Finished .settled d d' := by
  unfold PaymentSettlementService.settleTx
  split
  · exact settleDeposit_finished consistent matched ‹_›
  · exact settleWithdrawal_finished consistent matched ‹_›
  · trivial

theorem fail_finished (consistent : Consistent d) (matched : txCtx.Matches eventId d) :
    Ensures d (PaymentSettlementService.failTx txCtx eventId result draw) d
      fun _ d' => txCtx.Finished .failed d d' := by
  unfold PaymentSettlementService.failTx
  split
  · exact failDeposit_finished consistent matched ‹_›
  · exact failWithdrawal_finished consistent matched ‹_›
  · trivial

end Bodies
end PaymentWallet
