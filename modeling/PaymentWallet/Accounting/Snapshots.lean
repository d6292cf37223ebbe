import PaymentWallet.Accounting.Commits

/-! What ledger entries and payment logs say. An entry is written in the transaction that
moves the wallet, after it has moved, and says what one balance of the wallet then is: the
one that the amount went into or came out of. A log says what the provider answered. -/
namespace PaymentWallet
open Foundation

/-- The balance that the entries of a transaction record. -/
def Transaction.recorded (t : Transaction) : Bucket :=
  match t.type with
  | .transfer => .available
  | .withdrawal => .locked
  | .deposit => if t.direct then .pending else .available

/-- The entry says what its wallet holds. -/
def LedgerEntry.Current (e : LedgerEntry) (d : DB) : Prop :=
  ∃ t wallet, d.transactions.get? e.transactionId = some t ∧
    d.wallets.get? e.walletId = some wallet ∧
    e.balanceAfter = wallet.balance t.recorded

/-- New entries say what their wallets hold. -/
def Dated (d d' : DB) : Prop := ∀ e ∈ d'.ledgerEntries.rows, e ∈ d.ledgerEntries.rows ∨ e.Current d'

section Rows
variable {R K : Type} {key : R → K} [DecidableEq K] {t : Table R K key} {row : R} {k : K}

theorem Table.get?_put_self (same : key row = k) : (t.put row).get? k = some row := by simp [same]

theorem Table.get?_put_other (different : k ≠ key row) :
    (t.put row).get? k = t.get? k := by simp [different]

end Rows

section Bodies
variable {d d' : DB} {userId : UserId} {draw : Draw} {txCtx : TransactionContext}
  {eventId : EventId} {result : ProviderResult}

theorem Dated.same (same : d'.ledgerEntries.rows = d.ledgerEntries.rows) : Dated d d' := by
  intro e member
  exact .inl (same ▸ member)

/-- One new entry. -/
theorem Dated.put {entry : LedgerEntry} (entries : d'.ledgerEntries = d.ledgerEntries.put entry)
    (current : entry.Current d') :
    Dated d d' := by
  intro e member
  rw [entries, Table.mem_put] at member
  rcases member with rfl | ⟨before, _⟩
  · exact .inr current
  · exact .inl before

theorem deposit_dated {dto : DepositDto} :
    Ensures d (TransactionService.depositTx userId dto draw) d fun _ d' => Dated d d' := by
  simp only [TransactionService.depositTx, TransactionRepository.initiateDeposit,
    WalletRepository.creditPending, Program.bind_def, Program.pure_def,
      Program.throw_def, ensures_bind,
    WalletRepository.ensures_findByUserId]
  rintro (_ | id) learned
  · trivial
  simp
  intro wallet found _ _ wallet' found' _ _ _ _ _ _ _ _
  obtain rfl := Table.get?_key found
  cases found.symm.trans found'
  exact .put rfl ⟨_, _, Table.get?_put_self rfl, Table.get?_put_self rfl, rfl⟩

theorem withdraw_dated {dto : WithdrawalDto} :
    Ensures d (TransactionService.withdrawTx userId dto draw) d fun _ d' => Dated d d' := by
  simp only [TransactionService.withdrawTx, TransactionRepository.initiateWithdrawal,
    WalletRepository.debitAvailableAndLock, Program.bind_def, Program.pure_def, Program.throw_def,
    ensures_bind, WalletRepository.ensures_findByUserId]
  rintro (_ | id) learned
  · trivial
  simp
  intro wallet found _ _ _ wallet' found' _ _ _ _ _ _ _ _
  obtain rfl := Table.get?_key found
  cases found.symm.trans found'
  exact .put rfl ⟨_, _, Table.get?_put_self rfl, Table.get?_put_self rfl, rfl⟩

theorem transfer_dated {dto : TransferDto} {senderWalletId receiverWalletId : WalletId}
    (different : senderWalletId ≠ receiverWalletId) :
    Ensures d (TransactionService.transferTx userId dto senderWalletId receiverWalletId draw) d
      fun _ d' => Dated d d' := by
  unfold TransactionService.transferTx
  simp only [TransactionRepository.executeTransfer, WalletRepository.debitAvailable,
    WalletRepository.creditAvailable, Program.bind_def, Program.pure_def, ensures_bind,
    WalletRepository.ensures_lockWallet]
  intro first foundFirst second foundSecond
  obtain ⟨foundSender, foundReceiver⟩ := locked_pair foundFirst foundSecond
  generalize (if first.id = senderWalletId then first else second) = sender at foundSender ⊢
  generalize (if first.id = receiverWalletId then first else second) = receiver at foundReceiver ⊢
  simp only [WalletRepository.ensures_assertActive, WalletRepository.ensures_assertCurrencyMatch,
    ensures_assertSufficientBalance, ensures_updateWallet,
    ensures_pure, ensures_createTransaction, ensures_required, Option.some.injEq, forall_eq',
    ensures_createLedgerEntry, ensures_createOutboxEvent]
  obtain rfl := Table.get?_key foundSender
  obtain rfl := Table.get?_key foundReceiver
  intro _ _ _ _ _ sender' foundSender' _ receiver' foundReceiver' _ _ _ _ _ _ _ _ _
  have receives : receiver'.id = receiver.id := Table.get?_key foundReceiver'
  have sends : sender'.id = sender.id := Table.get?_key foundSender'
  intro e member
  rcases Table.mem_put.mp member with rfl | ⟨before, _⟩
  · exact .inr ⟨_, _, Table.get?_put_self rfl, Table.get?_put_self receives, rfl⟩
  · rcases Table.mem_put.mp before with rfl | ⟨earlier, _⟩
    · refine .inr ⟨_, _, Table.get?_put_self rfl, ?_, rfl⟩
      refine (Table.get?_put_other ?_).trans (Table.get?_put_self sends)
      exact fun same => different (same.trans receives)
    · exact .inl earlier

theorem settle_dated (consistent : Consistent d) (matched : txCtx.Matches eventId d) :
    Ensures d (PaymentSettlementService.settleTx txCtx eventId result draw) d fun _ d' =>
      Dated d d' := by
  obtain ⟨t, status, user, event, rfl, found, dossier, adapted, present, of⟩ :=
    matched.dossier consistent
  unfold PaymentSettlementService.settleTx
  cases kind : t.type with
  | deposit =>
    simp only [PaymentSettlementService.settleDeposit, WalletRepository.settlePending,
      Program.bind_def, Program.pure_def, ensures_bind, ensures_required,
      ensures_updateWallet, ensures_pure]
    intro walletId named wallet held _
    obtain rfl := Table.get?_key held
    apply ensures_markSettled
    intro row found'
    cases found.symm.trans found'
    simp only [ensures_createLedgerEntry, ensures_record]
    intro _ _ _ _ _ _ _ _
    refine ensures_vault fun users same =>
      .put rfl ⟨_, _, Table.get?_put_self rfl, Table.get?_put_self rfl, ?_⟩
    have external : t.provider ≠ some .internal := by simpa [Transaction.direct] using adapted
    simp only [Transaction.recorded, TransactionPatch.apply, Transaction.direct, kind,
      external, decide_false]
    rfl
  | withdrawal =>
    simp only [PaymentSettlementService.settleWithdrawal, WalletRepository.settleWithdrawal,
      Program.bind_def, Program.pure_def, ensures_bind, ensures_required,
      ensures_updateWallet, ensures_pure]
    intro walletId named wallet held _
    obtain rfl := Table.get?_key held
    apply ensures_markSettled
    intro row found'
    cases found.symm.trans found'
    simp only [ensures_createLedgerEntry, ensures_record]
    intro _ _ _ _ _ _ _ _
    refine .put rfl ⟨_, _, Table.get?_put_self rfl, Table.get?_put_self rfl, ?_⟩
    simp only [Transaction.recorded, TransactionPatch.apply, kind]
    rfl
  | transfer => trivial

/-- Nothing is posted for a transaction that is only initiated, or failed. -/
theorem Dated.unposted {entries : List LedgerEntry} {t : Transaction}
    (appended : d'.ledgerEntries.rows = d.ledgerEntries.rows ++ entries)
    (image : entries.map (·.posting) = t.image) (posts : t.posts = false) : Dated d d' := by
  have none : entries = [] := by simpa [Transaction.image, posts] using image
  exact .same (by simpa [none] using appended)

/-- What a log says of the answer of a provider. -/
structure PaymentLog.Reports (log : PaymentLog) (txCtx : TransactionContext)
    (result : ProviderResult) (status : TransactionStatus) :
    Prop where
  transactionId : log.transactionId = txCtx.id
  provider : txCtx.provider = some log.provider
  providerRef : log.providerRef = result.providerRef
  payload : log.payload = result.rawResponse
  status : log.status = status

/-- New logs report this answer. -/
def Reported (txCtx : TransactionContext) (result : ProviderResult) (status : TransactionStatus)
    (d d' : DB) : Prop :=
  ∀ log ∈ d'.paymentLogs.rows, log ∈ d.paymentLogs.rows ∨ log.Reports txCtx result status

theorem Reported.put {status : TransactionStatus} {log : PaymentLog}
    (logs : d'.paymentLogs = d.paymentLogs.put log)
    (reports : log.Reports txCtx result status) : Reported txCtx result status d d' := by
  intro other member
  rw [logs, Table.mem_put] at member
  rcases member with rfl | ⟨before, _⟩
  · exact .inr reports
  · exact .inl before

theorem settle_reported : Ensures d (PaymentSettlementService.settleTx txCtx eventId result draw) d
    fun _ d' => Reported txCtx result .settled d d' := by
  unfold PaymentSettlementService.settleTx
  cases txCtx.type with
  | deposit =>
    simp only [PaymentSettlementService.settleDeposit, WalletRepository.settlePending,
      Program.bind_def, Program.pure_def, ensures_bind, ensures_required,
      ensures_updateWallet, ensures_pure]
    intro _ _ _ _ _
    apply ensures_markSettled
    intro row found
    simp only [ensures_createLedgerEntry, ensures_record]
    intro _ _ provider provided _ _ _ _
    exact ensures_vault fun _ _ => .put rfl ⟨rfl, provided, rfl, rfl, rfl⟩
  | withdrawal =>
    simp only [PaymentSettlementService.settleWithdrawal, WalletRepository.settleWithdrawal,
      Program.bind_def, Program.pure_def, ensures_bind, ensures_required,
      ensures_updateWallet, ensures_pure]
    intro _ _ _ _ _
    apply ensures_markSettled
    intro row found
    simp only [ensures_createLedgerEntry, ensures_record]
    intro _ _ provider provided _ _ _ _
    exact .put rfl ⟨rfl, provided, rfl, rfl, rfl⟩
  | transfer => trivial

theorem fail_reported : Ensures d (PaymentSettlementService.failTx txCtx eventId result draw) d
    fun _ d' => Reported txCtx result .failed d d' := by
  unfold PaymentSettlementService.failTx
  cases txCtx.type with
  | deposit =>
    simp only [PaymentSettlementService.failDeposit, Program.bind_def, ensures_bind,
      ensures_required, ensures_updateWallet, ensures_updateTransaction, ensures_record]
    intro _ _ _ _ _ _ _ provider provided _ _ _ _
    exact .put rfl ⟨rfl, provided, rfl, rfl, rfl⟩
  | withdrawal =>
    simp only [PaymentSettlementService.failWithdrawal, Program.bind_def, ensures_bind,
      ensures_required, ensures_updateWallet, ensures_updateTransaction, ensures_record]
    intro _ _ _ _ _ _ _ provider provided _ _ _ _
    exact .put rfl ⟨rfl, provided, rfl, rfl, rfl⟩
  | transfer => trivial

end Bodies

section Commits
variable {σ : SharedState} {c : TxCall}

theorem TxCall.Ready.dated (ready : c.Ready σ) (books : Consistent σ.db) :
    Ensures σ.db c.code σ.db fun _ d' => Dated σ.db d' := by
  have ensures := ready.ensures books
  have adapted : ∀ {d'}, c.opening.all (fun o => o.type ≠ .transfer ∧ o.provider ≠ .internal) →
      c.Initiated σ.db d' → Dated σ.db d' := by
    rintro d' provided ⟨o, sender, receiver, entries, event, asks, opened, _⟩
    simp only [asks, Option.all_some, decide_eq_true_eq] at provided
    exact .unposted opened.ledgerEntries opened.image
      (by simp [Transaction.posts, Transaction.direct, Opening.row, provided])
  cases c with
  | deposit => exact deposit_dated
  | withdraw => exact withdraw_dated
  | transfer userId dto senderWalletId receiverWalletId =>
    apply transfer_dated
    intro same
    obtain ⟨other, ⟨paying, present, rfl⟩, paid, present', owner⟩ := ready
    cases (same ▸ present).symm.trans present'
    exact other owner
  | confirmDeposit =>
    exact ensures.mono fun _ _ effect =>
      adapted (by simp [TxCall.opening, SupportedProvider.toProvider_ne_internal]) effect
  | createPayout =>
    exact ensures.mono fun _ _ effect =>
      adapted (by simp [TxCall.opening, SupportedProvider.toProvider_ne_internal]) effect
  | settle => exact settle_dated books ready
  | fail =>
    apply ensures.mono
    intro _ _ effect
    obtain ⟨t, t', entries, log, event, _, failed, closed⟩ := effect
    exact .unposted closed.ledgerEntries closed.image (by simp [Transaction.posts, failed])
  | createUserWithWallet =>
    apply ensures.mono
    intro _ _ effect
    obtain ⟨user, wallet, rfl, _⟩ := effect
    exact .same rfl
  | markDelivered | incrementRetry =>
    apply ensures.mono
    intro _ _ effect
    obtain ⟨old, _, rfl⟩ := effect
    exact .same rfl
  | closeAccount | updateStatusOrRole | setConnectAccountId | setPaypalEmail =>
    apply ensures.mono
    intro _ _ effect
    obtain ⟨old, tokens, _, rfl⟩ := effect
    exact .same rfl

end Commits
end PaymentWallet
