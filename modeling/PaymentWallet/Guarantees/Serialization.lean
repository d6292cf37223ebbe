import PaymentWallet.Accounting.Initiation
import PaymentWallet.Accounting.Settlement
import PaymentWallet.Concurrency.Movements
import PaymentWallet.Service.Schedules

/-! Concurrent money movements are serializable in commit order, over any store and
with any arguments. No update is lost, and no available balance falls below zero. -/
namespace PaymentWallet
open Foundation Schedule

def NonNeg (d : DB) : Prop := ∀ wallet ∈ d.wallets.rows, 0 ≤ wallet.availableBalance

instance (d : DB) : Decidable (NonNeg d) :=
  inferInstanceAs (Decidable (∀ wallet ∈ d.wallets.rows, _))

section Bodies
variable {d d' : DB} {draw : Draw} {userId : UserId}
  {txCtx : TransactionContext} {eventId : EventId} {result : ProviderResult}

theorem NonNeg.put {row : Wallet} {change : BalanceChange} (nonneg : NonNeg d)
    (wallets : d'.wallets = d.wallets.put (row.shift change))
    (covered : 0 ≤ row.availableBalance + change.available) : NonNeg d' := by
  intro wallet member
  rw [wallets] at member
  rcases Table.mem_put.mp member with rfl | ⟨old, _⟩
  · exact covered
  · exact nonneg wallet old

theorem NonNeg.found {id : WalletId} {row : Wallet} (nonneg : NonNeg d)
    (found : d.wallets.get? id = some row) :
    0 ≤ row.availableBalance := nonneg row (Table.get?_mem found)

theorem TxCall.Initiated.nonneg {c : TxCall} (initiated : c.Initiated d d') (nonneg : NonNeg d) :
    NonNeg d' := by
  obtain ⟨o, sender, receiver, entries, event, _, opened, _⟩ := initiated
  intro wallet member
  obtain ⟨old, present, moved⟩ := opened.wallets.source (Table.get?_of_mem member)
  exact moved ▸ opened.covered _ old present (nonneg.found present)

/-- Also between wallets of one owner, or within one wallet. -/
theorem transfer_nonneg {dto : TransferDto} {senderWalletId receiverWalletId : WalletId} :
    Ensures d (TransactionService.transferTx userId dto senderWalletId receiverWalletId draw) d
      fun _ d' => NonNeg d → NonNeg d' := by
  unfold TransactionService.transferTx
  simp only [TransactionRepository.executeTransfer, WalletRepository.debitAvailable,
    WalletRepository.creditAvailable, Program.bind_def, Program.pure_def, ensures_bind,
    WalletRepository.ensures_lockWallet]
  intro first foundFirst second foundSecond
  obtain ⟨foundSender, _⟩ := locked_pair foundFirst foundSecond
  generalize (if first.id = senderWalletId then first else second) = sender at foundSender ⊢
  generalize (if first.id = receiverWalletId then first else second) = receiver
  simp only [WalletRepository.ensures_assertActive, WalletRepository.ensures_assertCurrencyMatch,
    ensures_assertSufficientBalance, ensures_updateWallet, ensures_pure, ensures_createTransaction,
    ensures_required, Option.some.injEq, forall_eq', ensures_createLedgerEntry,
    ensures_createOutboxEvent]
  intro _ _ _ _ sufficient sender' foundSender' _ receiver' foundReceiver' _ _ _ _ _ _ _ _ _ nonneg
  have keyEq : sender.id = senderWalletId := Table.get?_key foundSender
  cases (keyEq ▸ foundSender).symm.trans foundSender'
  have debited : NonNeg { d with
      wallets := d.wallets.put (sender.shift { available := -dto.amount.decimal }) } :=
    nonneg.put rfl (by simpa [← sub_eq_add_neg] using sufficient)
  exact debited.put rfl (add_nonneg (debited.found foundReceiver') (Int.natCast_nonneg _))

theorem settleTx_nonneg : Ensures d (PaymentSettlementService.settleTx txCtx eventId result draw) d
    fun _ d' => NonNeg d → NonNeg d' := by
  unfold PaymentSettlementService.settleTx
  split
  · simp only [PaymentSettlementService.settleDeposit, WalletRepository.settlePending,
      Program.bind_def, Program.pure_def, ensures_bind, ensures_required,
      ensures_updateWallet, ensures_pure]
    intro _ _ wallet held _
    refine ensures_markSettled fun row _ => ?_
    simp only [ensures_createLedgerEntry, ensures_record]
    intro _ _ _ _ _ _ _ _
    exact ensures_vault fun users _ nonneg =>
      nonneg.put rfl (add_nonneg (nonneg.found held) (Int.natCast_nonneg _))
  · simp only [PaymentSettlementService.settleWithdrawal, WalletRepository.settleWithdrawal,
      Program.bind_def, Program.pure_def, ensures_bind, ensures_required,
      ensures_updateWallet, ensures_pure]
    intro _ _ wallet held _
    refine ensures_markSettled fun row _ => ?_
    simp only [ensures_createLedgerEntry, ensures_record]
    intro _ _ _ _ _ _ _ _ nonneg
    exact nonneg.put rfl (add_nonneg (nonneg.found held) le_rfl)
  · trivial

theorem failTx_nonneg : Ensures d (PaymentSettlementService.failTx txCtx eventId result draw) d
    fun _ d' => NonNeg d → NonNeg d' := by
  unfold PaymentSettlementService.failTx
  split
  · simp only [PaymentSettlementService.failDeposit, Program.bind_def, ensures_bind,
      ensures_required, ensures_updateWallet, ensures_updateTransaction, ensures_record]
    intro _ _ wallet held _ _ _ _ _ _ _ _ _ nonneg
    exact nonneg.put rfl (add_nonneg (nonneg.found held) le_rfl)
  · simp only [PaymentSettlementService.failWithdrawal, Program.bind_def, ensures_bind,
      ensures_required, ensures_updateWallet, ensures_updateTransaction, ensures_record]
    intro _ _ wallet held _ _ _ _ _ _ _ _ _ nonneg
    exact nonneg.put rfl (add_nonneg (nonneg.found held) (Int.natCast_nonneg _))
  · trivial

/-- Run alone, a movement leaves no available balance below zero. -/
theorem TxCall.nonneg {c : TxCall} (moves : c.moves) :
    Ensures d c.code d fun _ d' => NonNeg d → NonNeg d' := by
  have initiated : ∀ {c' : TxCall} {p : Tx Transaction},
      (Ensures d p d fun _ d' => c'.Initiated d d') →
      Ensures d p d fun _ d' => NonNeg d → NonNeg d' :=
    fun spec => spec.mono fun _ _ initiated => TxCall.Initiated.nonneg initiated
  cases c with
  | deposit => exact initiated deposit_initiated
  | withdraw => exact initiated withdraw_initiated
  | transfer => exact transfer_nonneg
  | confirmDeposit => exact initiated confirmDeposit_initiated
  | createPayout => exact initiated createPayout_initiated
  | settle => exact settleTx_nonneg
  | fail => exact failTx_nonneg
  | _ => cases moves

end Bodies

/-- One after the other, movements leave no available balance below zero. -/
theorem runAll_nonneg {calls : List TxCall} {d d' : DB} (moves : ∀ c ∈ calls, c.moves)
    (ran : postgres.runAll TxCall.code calls d = .ok d') (nonneg : NonNeg d) : NonNeg d' := by
  induction calls generalizing d with
  | nil =>
    cases ran
    exact nonneg
  | cons c rest ih =>
    simp only [Engine.runAll] at ran
    split at ran
    · cases ran
    · rename_i value d₁ first
      refine ih (fun other member => moves other (List.mem_cons_of_mem _ member)) ran ?_
      exact Engine.wp_run postgres_unread (fun plain exec =>
        postgres_stability.read_valid trivial plain exec)
        (TxCall.nonneg (moves c List.mem_cons_self)) first nonneg

/-- Serializability of concurrent money movements. -/
theorem movements_serializable {d₀ : DB} {w}
    (run : movements.Reaches (fun _ _ => True) (World.init d₀ ()) w) :
    postgres.runAll TxCall.code w.shared.log d₀ = .ok w.shared.db ∧
      (NonNeg d₀ → NonNeg w.shared.db) := by
  have serial := System.serializable movements_disciplined
    (fun _ _ _ plain exact => exact plain) run
  exact ⟨serial, runAll_nonneg (System.log_allowed movements_disciplined run) serial⟩

/-- Alice has five dollars. -/
def funded : DB :=
  Schedule.store [registers "alice", deposits "alice", polls (.ok charged) [.answer {}, .commit]]

/-- She withdraws them and deposits another five. -/
def backAndForth : List (Movement × List (Turn Unit)) :=
  [(⟨.withdraw "user-alice" ⟨⟨50000, Amount.fiveDollars_pos⟩, .usd, "out", none⟩ (.labelled "out"),
    rfl⟩, [.commit]),
    (⟨.deposit "user-alice" ⟨⟨50000, Amount.fiveDollars_pos⟩, .usd, "in", none⟩ (.labelled "in"),
      rfl⟩, [.lost])]

theorem movements_serializable_funded :
    ∃ w, movements.Reaches (fun _ _ => True) (World.init funded ()) w ∧
    w.shared.log.length = 2 ∧ postgres.runAll TxCall.code w.shared.log funded = .ok w.shared.db ∧
    (NonNeg funded → NonNeg w.shared.db) := by
  have served : (movements.serve (fun _ _ x => x.elim) (fun _ _ => true) 0 backAndForth
      ⟨funded, [], ()⟩).any fun σ => σ.log.length = 2 := by decide +kernel
  obtain ⟨σ, served, two⟩ := (Option.any_eq_true ..).mp served
  obtain ⟨w, run, shared⟩ := System.serve_reaches (M := movements) (w := World.init funded ())
    postgres_unread (fun _ _ x => x.elim) (fun _ => trivial) (fun _ _ => rfl)
    (by rintro other k ⟨request, phase, found, _⟩; cases found) served
  exact ⟨w, run, shared ▸ of_decide_eq_true two, movements_serializable run⟩

end PaymentWallet
