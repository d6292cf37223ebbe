import PaymentWallet.Accounting.Settlement

/-! What settling and failing write to the event and to its transaction, on any store. -/
namespace PaymentWallet
open Foundation

/-- One event is marked delivered, and one transaction is patched. -/
structure Delivered (d : DB) (eventId : EventId) (now : DateTime) (id : TransactionId)
    (patch : TransactionPatch) (d' : DB) : Prop where
  event : ∃ event, d.outboxEvents.get? eventId = some event ∧
    d'.outboxEvents = d.outboxEvents.put { event with deliveredAt := some now }
  transaction : ∃ t, d.transactions.get? id = some t ∧
    d'.transactions = d.transactions.put (patch.apply t)

section
variable {d v : DB} {txCtx : TransactionContext} {eventId : EventId}
  {result : ProviderResult} {draw : Draw}

theorem settleDeposit_delivered :
    Ensures d (PaymentSettlementService.settleDeposit txCtx eventId result draw) v
    fun _ d' => Delivered v eventId draw.deliveredAt txCtx.id (settledPatch result draw) d' := by
  simp only [PaymentSettlementService.settleDeposit, WalletRepository.settlePending,
    Program.bind_def, Program.pure_def, ensures_bind, ensures_required,
    ensures_updateWallet, ensures_pure]
  intro _ _ _ _ _
  refine ensures_markSettled fun row found => ?_
  simp only [ensures_createLedgerEntry, ensures_record]
  intro _ _ _ _ _ _ event present
  exact ensures_vault fun _ _ => ⟨⟨event, present, rfl⟩, ⟨row, found, rfl⟩⟩

theorem settleWithdrawal_delivered :
    Ensures d (PaymentSettlementService.settleWithdrawal txCtx eventId result draw) v
    fun _ d' => Delivered v eventId draw.deliveredAt txCtx.id (settledPatch result draw) d' := by
  simp only [PaymentSettlementService.settleWithdrawal, WalletRepository.settleWithdrawal,
    Program.bind_def, Program.pure_def, ensures_bind, ensures_required,
    ensures_updateWallet, ensures_pure]
  intro _ _ _ _ _
  refine ensures_markSettled fun row found => ?_
  simp only [ensures_createLedgerEntry, ensures_record]
  intro _ _ _ _ _ _ event present
  exact ⟨⟨event, present, rfl⟩, ⟨row, found, rfl⟩⟩

theorem failDeposit_delivered :
    Ensures d (PaymentSettlementService.failDeposit txCtx eventId result draw) v
    fun _ d' => Delivered v eventId draw.deliveredAt txCtx.id { status := some .failed } d' := by
  simp only [PaymentSettlementService.failDeposit, Program.bind_def, ensures_bind, ensures_required,
    ensures_updateWallet, ensures_updateTransaction, ensures_record]
  intro _ _ _ _ _ row found _ _ _ _ event present
  exact ⟨⟨event, present, rfl⟩, ⟨row, found, rfl⟩⟩

theorem failWithdrawal_delivered :
    Ensures d (PaymentSettlementService.failWithdrawal txCtx eventId result draw) v
    fun _ d' => Delivered v eventId draw.deliveredAt txCtx.id { status := some .failed } d' := by
  simp only [PaymentSettlementService.failWithdrawal, Program.bind_def, ensures_bind,
    ensures_required, ensures_updateWallet, ensures_updateTransaction, ensures_record]
  intro _ _ _ _ _ row found _ _ _ _ event present
  exact ⟨⟨event, present, rfl⟩, ⟨row, found, rfl⟩⟩

theorem settle_delivered : Ensures d (PaymentSettlementService.settleTx txCtx eventId result draw) v
    fun _ d' => Delivered v eventId draw.deliveredAt txCtx.id (settledPatch result draw) d' := by
  unfold PaymentSettlementService.settleTx
  split
  · exact settleDeposit_delivered
  · exact settleWithdrawal_delivered
  · trivial

theorem fail_delivered : Ensures d (PaymentSettlementService.failTx txCtx eventId result draw) v
    fun _ d' => Delivered v eventId draw.deliveredAt txCtx.id { status := some .failed } d' := by
  unfold PaymentSettlementService.failTx
  split
  · exact failDeposit_delivered
  · exact failWithdrawal_delivered
  · trivial

end
end PaymentWallet
