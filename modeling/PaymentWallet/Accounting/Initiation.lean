import PaymentWallet.Accounting.Effects
import Mathlib.Tactic.Linarith
import Mathlib.Tactic.Ring

/-! The initiating transactions open what they were asked for. Each body is
evaluated once against the contracts of the repository; what is left is that the
balance change it makes is the effect of the row it creates. -/
namespace PaymentWallet
open Foundation

/-- The transaction `c` asks for was opened, into a wallet of the payee. -/
def TxCall.Initiated (c : TxCall) (d d' : DB) : Prop :=
  ∃ o sender receiver entries event, c.opening = some o ∧
    Opened d (o.row sender receiver) entries event d' ∧
    ∀ id wallet, receiver = some id → d.wallets.get? id = some wallet → c.payee = some wallet.userId

/-- The rows an initiation of `t` adds, and the keys they need free. -/
structure Rows (d : DB) (t : Transaction) (entries : List LedgerEntry)
    (ledger : Table LedgerEntry String LedgerEntry.id) (event : OutboxEvent) : Prop where
  fresh : d.transactions.get? t.id = none
  newKey : ¬ d.transactions.Has Transaction.index t.idempotencyKey
  newEvent : d.outboxEvents.get? event.id = none
  ledger : ledger.rows = d.ledgerEntries.rows ++ entries
  shaped : t.Shaped
  image : entries.map (·.posting) = t.image
  posted : ∀ e ∈ entries, e.transactionId = t.id
  event_of : event.transactionId = t.id ∧ event.eventType = t.type.event
  pending : event.deliveredAt = none ∧ event.retryCount = 0

section
variable {d : DB} {t : Transaction} {entries : List LedgerEntry} {event : OutboxEvent}
  {ledger : Table LedgerEntry String LedgerEntry.id}

theorem Rows.opened (rows : Rows d t entries ledger event)
    {wallets : Table Wallet WalletId Wallet.id} (moves : Moves d.wallets wallets t.effect)
    (covered : ∀ id wallet, d.wallets.get? id = some wallet → 0 ≤ wallet.availableBalance →
      0 ≤ (wallet.move (t.effect id)).availableBalance)
    (parties : ∀ id ∈ t.parties, ∃ wallet, d.wallets.get? id = some wallet ∧
      wallet.status = .active ∧
      wallet.currency = t.currency) :
    Opened d t entries event { d with
      wallets := wallets
      transactions := d.transactions.put t
      ledgerEntries := ledger
      outboxEvents := d.outboxEvents.put event } :=
  ⟨rfl, moves, rfl, rows.ledger, rfl, rfl, rows.fresh, rows.newKey, rows.newEvent, covered, parties,
    rows.shaped, rows.image, rows.posted, rows.event_of, rows.pending⟩

/-- Initiations that move the balances of one wallet. -/
theorem Rows.opened_single (rows : Rows d t entries ledger event) {wallet : Wallet}
    {change : BalanceChange}
    (found : d.wallets.get? wallet.id = some wallet) (active : wallet.status = .active)
    (currency : wallet.currency = t.currency) (parties : t.parties = [wallet.id])
    (here : ∀ b, t.effect wallet.id b = change.amount b)
    (elsewhere : ∀ other ≠ wallet.id, ∀ b, t.effect other b = 0)
    (covers : 0 ≤ wallet.availableBalance → 0 ≤ wallet.availableBalance + change.available) :
    Opened d t entries event { d with
      wallets := d.wallets.put (wallet.shift change)
      transactions := d.transactions.put t
      ledgerEntries := ledger
      outboxEvents := d.outboxEvents.put event } := by
  refine rows.opened (.put found change here elsewhere) ?_ ?_
  · intro id other present nonneg
    by_cases same : id = wallet.id
    · subst same
      cases found.symm.trans present
      simpa [Wallet.move, Wallet.shift, here, BalanceChange.amount] using covers nonneg
    · simpa [Wallet.move, Wallet.shift, elsewhere id same] using nonneg
  · intro id member
    obtain rfl : id = wallet.id := by simpa [parties] using member
    exact ⟨wallet, found, active, currency⟩

end

section Effects
variable {o : Opening} {id other : WalletId}

theorem Opening.deposit_shaped (type : o.type = .deposit) : (o.row none (some id)).Shaped := by
  simp [Transaction.Shaped, Opening.row, type]

theorem Opening.withdrawal_shaped (type : o.type = .withdrawal) :
    (o.row (some id) none).Shaped := by
  simp [Transaction.Shaped, Opening.row, type]

theorem Opening.transfer_shaped (type : o.type = .transfer) (different : id ≠ other) :
    (o.row (some id) (some other)).Shaped := by
  simp [Transaction.Shaped, Opening.row, type, different]

theorem Opening.deposit_here (type : o.type = .deposit) (b : Bucket) :
    (o.row none (some id)).effect id b = BalanceChange.amount
      { pending := o.amount.decimal } b := by
  cases b <;> simp [Transaction.effect, Opening.row, type, Transaction.received,
    BalanceChange.amount]

theorem Opening.deposit_elsewhere (type : o.type = .deposit) (different : other ≠ id) (b : Bucket) :
    (o.row none (some id)).effect other b = 0 := by
  cases b <;> simp [Transaction.effect, Opening.row, type, Transaction.received, different.symm]

theorem Opening.withdrawal_here (type : o.type = .withdrawal) (b : Bucket) :
    (o.row (some id) none).effect id b =
      BalanceChange.amount { available := -o.amount.decimal, locked := o.amount.decimal } b := by
  cases b <;> simp [Transaction.effect, Opening.row, type, Transaction.sent, BalanceChange.amount]

theorem Opening.withdrawal_elsewhere (type : o.type = .withdrawal)
    (different : other ≠ id) (b : Bucket) :
    (o.row (some id) none).effect other b = 0 := by
  cases b <;> simp [Transaction.effect, Opening.row, type, Transaction.sent, different.symm]

theorem Opening.transfer_effect (type : o.type = .transfer)
    {sender receiver : WalletId} (b : Bucket) :
    (o.row (some sender) (some receiver)).effect id b =
      (if id = sender then BalanceChange.amount { available := -o.amount.decimal } b else 0) +
      (if id = receiver then BalanceChange.amount { available := o.amount.decimal } b else 0) := by
  cases b with
  | available =>
    simp only [Transaction.effect, Opening.row, type, Transaction.sent, Transaction.received,
      BalanceChange.amount, if_true, Option.some.injEq, eq_comm (a := id)]
    split <;> split <;> ring
  | locked => simp [Transaction.effect, Opening.row, type, BalanceChange.amount]
  | pending => simp [Transaction.effect, Opening.row, type, BalanceChange.amount]

/-- Initiations through a provider post nothing yet. -/
theorem Opening.adapted_image (type : o.type ≠ .transfer) {provider : SupportedProvider}
    (adapted : o.provider = provider.toProvider) (sender receiver : Option WalletId) :
    (o.row sender receiver).image = [] := by
  simp [Transaction.image, Transaction.posts, Transaction.direct, Opening.row, type, adapted,
    SupportedProvider.toProvider_ne_internal]

end Effects

/-- One wallet moves and every other stays. -/
theorem Moves.single {t : Table Wallet WalletId Wallet.id} {id : WalletId} {row : Wallet}
    (found : t.get? id = some row) (change : BalanceChange) :
    Moves t (t.put (row.shift change)) fun other b => if other = id then change.amount b else 0 :=
  .put found change (fun _ => if_pos rfl) fun _ different _ => if_neg different

section Bodies
variable {d : DB} {userId : UserId} {draw : Draw}

theorem deposit_initiated {dto : DepositDto} :
    Ensures d (TransactionService.depositTx userId dto draw) d
    fun _ d' => (TxCall.deposit userId dto draw).Initiated d d' := by
  simp only [TransactionService.depositTx, TransactionRepository.initiateDeposit,
    WalletRepository.creditPending, Program.bind_def, Program.pure_def,
      Program.throw_def, ensures_bind, WalletRepository.ensures_findByUserId]
  rintro (_ | id) learned
  · trivial
  obtain ⟨owned, present, owner⟩ := learned id rfl
  simp
  intro wallet found active currency wallet' found' _ _ fresh newKey _ _ newEntry newEvent
  obtain rfl := Table.get?_key found
  cases found.symm.trans found'
  cases found.symm.trans present
  refine ⟨_, none, some owned.id, _, _, rfl, Rows.opened_single (Rows.mk fresh newKey newEvent
    (Table.rows_put_fresh newEntry) (Opening.deposit_shaped rfl) rfl
      (List.forall_mem_singleton.mpr rfl) ⟨rfl, rfl⟩ ⟨rfl, rfl⟩)
    found active currency rfl (Opening.deposit_here rfl)
    (fun _ different => Opening.deposit_elsewhere rfl different) (fun nonneg => ?_), ?_⟩
  · simpa using nonneg
  · rintro id other ⟨⟩ known
    cases found.symm.trans known
    exact congrArg some owner.symm

theorem withdraw_initiated {dto : WithdrawalDto} :
    Ensures d (TransactionService.withdrawTx userId dto draw) d
      fun _ d' => (TxCall.withdraw userId dto draw).Initiated d d' := by
  simp only [TransactionService.withdrawTx, TransactionRepository.initiateWithdrawal,
    WalletRepository.debitAvailableAndLock, Program.bind_def, Program.pure_def, Program.throw_def,
    ensures_bind, WalletRepository.ensures_findByUserId]
  rintro (_ | id) learned
  · trivial
  simp
  intro wallet found active currency sufficient wallet' found' _ _ fresh newKey
    _ _ newEntry newEvent
  obtain rfl := Table.get?_key found
  cases found.symm.trans found'
  refine ⟨_, some wallet.id, none, _, _, rfl, Rows.opened_single (Rows.mk fresh newKey newEvent
    (Table.rows_put_fresh newEntry) (Opening.withdrawal_shaped rfl) rfl
      (List.forall_mem_singleton.mpr rfl) ⟨rfl, rfl⟩ ⟨rfl, rfl⟩)
    found active currency rfl (Opening.withdrawal_here rfl)
    (fun _ different => Opening.withdrawal_elsewhere rfl different) (fun _ => ?_), by simp⟩
  change 0 ≤ wallet.availableBalance + -dto.amount.decimal
  linarith

theorem confirmDeposit_initiated {dto : ConfirmDepositDto} :
    Ensures d (PaymentService.confirmDepositTx userId dto draw) d
      fun _ d' => (TxCall.confirmDeposit userId dto draw).Initiated d d' := by
  simp only [PaymentService.confirmDepositTx, WalletRepository.creditPending, Program.bind_def,
    Program.pure_def, Program.throw_def, ensures_bind, WalletRepository.ensures_findByUserId]
  rintro (_ | id) learned
  · trivial
  obtain ⟨owned, present, owner⟩ := learned id rfl
  simp
  intro wallet found active currency wallet' found' _ _ fresh newKey newEvent
  obtain rfl := Table.get?_key found
  cases found.symm.trans found'
  cases found.symm.trans present
  refine ⟨_, none, some owned.id, [], _, rfl, Rows.opened_single (Rows.mk fresh newKey newEvent
    (List.append_nil _).symm (Opening.deposit_shaped rfl)
      (Opening.adapted_image (by simp) rfl _ _).symm (by simp) ⟨rfl, rfl⟩
    ⟨rfl, rfl⟩) found active currency rfl (Opening.deposit_here rfl)
    (fun _ different => Opening.deposit_elsewhere rfl different) (fun nonneg => ?_), ?_⟩
  · simpa using nonneg
  · rintro id other ⟨⟩ known
    cases found.symm.trans known
    exact congrArg some owner.symm

theorem createPayout_initiated {dto : CreatePayoutDto} :
    Ensures d (PaymentService.createPayoutTx userId dto draw) d
      fun _ d' => (TxCall.createPayout userId dto draw).Initiated d d' := by
  simp only [PaymentService.createPayoutTx, WalletRepository.debitAvailableAndLock,
    Program.bind_def, Program.pure_def, Program.throw_def, ensures_bind,
    WalletRepository.ensures_findByUserId]
  rintro (_ | id) learned
  · trivial
  simp only [ensures_bind, WalletRepository.ensures_lockWallet,
    WalletRepository.ensures_assertActive, WalletRepository.ensures_assertCurrencyMatch]
  intro wallet found active currency
  obtain rfl := Table.get?_key found
  by_cases short : wallet.availableBalance < dto.amount.decimal
  · simp [short]
  simp only [if_neg short, ensures_bind, ensures_pure, ensures_updateWallet]
  intro wallet' found' _
  cases found.symm.trans found'
  refine ensures_payoutFields fun fields => ?_
  simp
  intro _ fresh newKey newEvent
  refine ⟨_, some wallet.id, none, [], _, rfl, Rows.opened_single (Rows.mk fresh newKey newEvent
    (List.append_nil _).symm (Opening.withdrawal_shaped rfl)
      (Opening.adapted_image (by simp) rfl _ _).symm (by simp) ⟨rfl, rfl⟩
    ⟨rfl, rfl⟩) found active currency rfl (Opening.withdrawal_here rfl)
    (fun _ different => Opening.withdrawal_elsewhere rfl different) (fun _ => ?_), by simp⟩
  change 0 ≤ wallet.availableBalance + -dto.amount.decimal
  linarith

/-- The wallets are locked in id order and mapped back to sender and receiver. -/
theorem locked_pair {senderWalletId receiverWalletId : WalletId} {first second : Wallet}
    (foundFirst : d.wallets.get? (if senderWalletId < receiverWalletId
      then (senderWalletId, receiverWalletId)
        else (receiverWalletId, senderWalletId)).1 = some first)
    (foundSecond : d.wallets.get? (if senderWalletId < receiverWalletId
      then (senderWalletId, receiverWalletId)
        else (receiverWalletId, senderWalletId)).2 = some second) :
    d.wallets.get? senderWalletId = some (if first.id = senderWalletId then first else second) ∧
      d.wallets.get? receiverWalletId = some (if first.id = receiverWalletId then first
        else second) := by
  have firstId := Table.get?_key foundFirst
  by_cases lower : senderWalletId < receiverWalletId
  · simp only [lower, if_true] at foundFirst foundSecond firstId
    refine ⟨by rw [if_pos firstId, foundFirst], ?_⟩
    split
    · rename_i same
      rw [← same, firstId, foundFirst]
    · exact foundSecond
  · simp only [lower, if_false] at foundFirst foundSecond firstId
    refine ⟨?_, by rw [if_pos firstId, foundFirst]⟩
    split
    · rename_i same
      rw [← same, firstId, foundFirst]
    · exact foundSecond

theorem transfer_initiated {dto : TransferDto} {senderWalletId receiverWalletId : WalletId}
    (payer : d.Owns userId senderWalletId) (payee : d.Owns dto.recipientUserId receiverWalletId)
    (other : userId ≠ dto.recipientUserId) :
    Ensures d (TransactionService.transferTx userId dto senderWalletId receiverWalletId draw) d
      fun _ d' => (TxCall.transfer userId dto senderWalletId receiverWalletId
        draw).Initiated d d' := by
  unfold TransactionService.transferTx
  simp only [TransactionRepository.executeTransfer, WalletRepository.debitAvailable,
    WalletRepository.creditAvailable, Program.bind_def, Program.pure_def, ensures_bind,
    WalletRepository.ensures_lockWallet]
  intro first foundFirst second foundSecond
  obtain ⟨foundSender, foundReceiver⟩ := locked_pair foundFirst foundSecond
  generalize (if first.id = senderWalletId then first else second) = sender at foundSender ⊢
  generalize (if first.id = receiverWalletId then first else second) = receiver at foundReceiver ⊢
  simp only [WalletRepository.ensures_assertActive, WalletRepository.ensures_assertCurrencyMatch,
    ensures_assertSufficientBalance, ensures_updateWallet,
    ensures_pure, ensures_createTransaction, ensures_required, Option.some.injEq, forall_eq',
    ensures_createLedgerEntry, ensures_createOutboxEvent]
  obtain rfl := Table.get?_key foundSender
  obtain rfl := Table.get?_key foundReceiver
  intro senderActive receiverActive senderCurrency receiverCurrency sufficient
    sender' foundSender' _
    receiver' foundReceiver' _ _ fresh newKey _ newEntry _ newSecondEntry newEvent
  cases foundSender.symm.trans foundSender'
  have moves := (Moves.single foundSender { available := -dto.amount.decimal }).trans
    (Moves.single foundReceiver' { available := dto.amount.decimal })
  refine ⟨_, some sender.id, some receiver.id, _, _, rfl, Rows.opened (Rows.mk fresh newKey newEvent
    (Table.rows_put_both newEntry newSecondEntry) (Opening.transfer_shaped rfl ?_) rfl
    (List.forall_mem_cons.mpr ⟨rfl, List.forall_mem_singleton.mpr rfl⟩) ⟨rfl, rfl⟩ ⟨rfl, rfl⟩)
    (moves.congr fun id b => ?_) ?_ ?_, ?_⟩
  · intro same
    obtain ⟨paying, present, rfl⟩ := payer
    obtain ⟨paid, present', owner⟩ := payee
    cases (same ▸ present).symm.trans present'
    exact other owner
  · rw [Opening.transfer_effect rfl]
  · intro id wallet present nonneg
    have amount : 0 ≤ dto.amount.decimal := Int.natCast_nonneg _
    have covered : id = sender.id → dto.amount.decimal ≤ wallet.availableBalance := by
      rintro rfl
      cases foundSender.symm.trans present
      exact sufficient
    simp only [Wallet.move, Wallet.shift, Opening.transfer_effect, BalanceChange.amount]
    split <;> split <;> simp_all
    linarith
  · intro id member
    rcases List.mem_pair.mp member with rfl | rfl
    · exact ⟨sender, foundSender, senderActive, senderCurrency⟩
    · exact ⟨receiver, foundReceiver, receiverActive, receiverCurrency⟩
  · rintro id wallet ⟨⟩ known
    obtain ⟨owned, present, owner⟩ := payee
    cases present.symm.trans known
    exact congrArg some owner.symm

end Bodies
end PaymentWallet
