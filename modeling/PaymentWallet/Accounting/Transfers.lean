import PaymentWallet.Accounting.Executions
import PaymentWallet.Accounting.Initiation

/-! A transfer alone: exactly when its transaction succeeds, and what it then writes. -/
namespace PaymentWallet
open Foundation

/-- The draws are no rows' ids yet. -/
structure Draw.Fresh (draw : Draw) (d : DB) : Prop where
  transaction : d.transactions.get? draw.transactionId = none
  entry : d.ledgerEntries.get? draw.ledgerEntryId = none
  secondEntry : d.ledgerEntries.get? draw.secondLedgerEntryId = none
  apart : draw.secondLedgerEntryId ≠ draw.ledgerEntryId
  event : d.outboxEvents.get? draw.outboxEventId = none

namespace TransferDto

def debited (dto : TransferDto) (sender : Wallet) : Wallet :=
  sender.shift { available := -dto.amount.decimal }

def credited (dto : TransferDto) (receiver : Wallet) : Wallet :=
  receiver.shift { available := dto.amount.decimal }

/-- The guards of a transfer, and that no column overflows. -/
structure Passes (dto : TransferDto) (sender receiver : Wallet) : Prop where
  active : sender.status = .active ∧ receiver.status = .active
  currency : sender.currency = dto.currency ∧ receiver.currency = dto.currency
  sufficient : dto.amount.decimal ≤ sender.availableBalance
  fits : Decimal.fits dto.amount.decimal ∧ (dto.debited sender).fits ∧ (dto.credited receiver).fits

def transaction (dto : TransferDto) (sender receiver : Wallet) (draw : Draw) : Transaction where
  id := draw.transactionId
  idempotencyKey := dto.idempotencyKey
  type := .transfer
  status := .settled
  amount := dto.amount
  currency := dto.currency
  description := dto.description
  senderWalletId := some sender.id
  receiverWalletId := some receiver.id
  provider := some .internal
  providerRef := none
  createdAt := draw.createdAt
  settledAt := some draw.settledAt

/-- The entry of one side, with the new available balance of its wallet. -/
def entry (dto : TransferDto) (id : String) (direction : EntryDirection) (wallet : Wallet)
    (draw : Draw) : LedgerEntry where
  id := id
  walletId := wallet.id
  transactionId := draw.transactionId
  direction := direction
  amount := dto.amount
  currency := dto.currency
  balanceAfter := wallet.availableBalance
  createdAt := draw.createdAt

def event (dto : TransferDto) (userId : UserId) (sender receiver : Wallet) (draw : Draw) :
    OutboxEvent where
  id := draw.outboxEventId
  transactionId := draw.transactionId
  eventType := .transferSettled
  payload := [("senderWalletId", .string sender.id), ("senderUserId", .string userId),
    ("receiverWalletId", .string receiver.id), ("receiverUserId", .string dto.recipientUserId),
    ("amount", .string dto.amount.toString), ("currency", .string dto.currency.name)]
  deliveredAt := none
  retryCount := 0
  createdAt := draw.createdAt

/-- The store after a transfer. -/
def applied (dto : TransferDto) (userId : UserId) (sender receiver : Wallet)
    (draw : Draw) (d : DB) : DB :=
  { d with
    wallets := (d.wallets.put (dto.debited sender)).put (dto.credited receiver)
    transactions := d.transactions.put (dto.transaction sender receiver draw)
    ledgerEntries := (d.ledgerEntries.put
      (dto.entry draw.ledgerEntryId .debit (dto.debited sender) draw)).put
      (dto.entry draw.secondLedgerEntryId .credit (dto.credited receiver) draw)
    outboxEvents := d.outboxEvents.put (dto.event userId sender receiver draw) }

end TransferDto

theorem Wallet.available_fits {wallet : Wallet} (fits : wallet.fits) :
    Decimal.fits wallet.availableBalance := by
  simp only [Wallet.fits, Bool.and_eq_true] at fits
  exact fits.1.1

section
variable {d : DB} {userId : UserId} {dto : TransferDto} {draw : Draw}

theorem Draw.Fresh.second {entry : LedgerEntry} (fresh : draw.Fresh d)
    (first : entry.id = draw.ledgerEntryId) :
    (d.ledgerEntries.put entry).get? draw.secondLedgerEntryId = none := by
  rw [Table.get?_put, first, if_neg fresh.apart]
  exact fresh.secondEntry

/-- The two locked rows are the sender's and the receiver's, in either order of the ids. -/
theorem returns_locked (body : Wallet → Wallet → Tx α) {senderWalletId receiverWalletId : WalletId}
    (different : senderWalletId ≠ receiverWalletId) {Q : α → DB → Prop} :
    postgres.Returns d (match if senderWalletId < receiverWalletId then (senderWalletId,
      receiverWalletId)
        else (receiverWalletId, senderWalletId) with
      | (firstId, secondId) => (WalletRepository.lockWallet firstId).bind fun firstLocked =>
        (WalletRepository.lockWallet secondId).bind fun secondLocked =>
          body (if firstLocked.id = senderWalletId then firstLocked else secondLocked)
            (if firstLocked.id = receiverWalletId then firstLocked else secondLocked)) d Q ↔
      ∃ sender receiver, d.wallets.get? senderWalletId = some sender ∧
        d.wallets.get? receiverWalletId = some receiver ∧
        postgres.Returns d (body sender receiver) d Q := by
  by_cases order : senderWalletId < receiverWalletId
  · simp only [order, if_true, returns_bind, returns_lockWallet]
    constructor
    · rintro ⟨sender, foundSender, receiver, foundReceiver, rest⟩
      obtain rfl := Table.get?_key foundSender
      simp only [if_true, different, if_false] at rest
      exact ⟨sender, receiver, foundSender, foundReceiver, rest⟩
    · rintro ⟨sender, receiver, foundSender, foundReceiver, rest⟩
      obtain rfl := Table.get?_key foundSender
      refine ⟨sender, foundSender, receiver, foundReceiver, ?_⟩
      simpa only [if_true, different, if_false] using rest
  · simp only [order, if_false, returns_bind, returns_lockWallet]
    constructor
    · rintro ⟨receiver, foundReceiver, sender, foundSender, rest⟩
      obtain rfl := Table.get?_key foundReceiver
      simp only [if_true, Ne.symm different, if_false] at rest
      exact ⟨sender, receiver, foundSender, foundReceiver, rest⟩
    · rintro ⟨sender, receiver, foundSender, foundReceiver, rest⟩
      obtain rfl := Table.get?_key foundReceiver
      refine ⟨receiver, foundReceiver, sender, foundSender, ?_⟩
      simpa only [if_true, Ne.symm different, if_false] using rest

/-- The transaction of a transfer after it has locked the two wallets. -/
def transferLocked (userId : UserId) (dto : TransferDto) (draw : Draw)
    (lockedSender lockedReceiver : Wallet) : Tx Transaction := do
  WalletRepository.assertActive lockedSender
  WalletRepository.assertActive lockedReceiver
  WalletRepository.assertCurrencyMatch lockedSender dto.currency
  WalletRepository.assertCurrencyMatch lockedReceiver dto.currency
  TransactionService.assertSufficientBalance lockedSender.availableBalance dto.amount
  let senderBalanceAfter ← WalletRepository.debitAvailable lockedSender.id dto.amount
  let receiverBalanceAfter ← WalletRepository.creditAvailable lockedReceiver.id dto.amount
  TransactionRepository.executeTransfer ⟨dto.idempotencyKey, dto.amount,
    dto.currency, dto.description,
      some lockedSender.id, some lockedReceiver.id, none⟩ senderBalanceAfter receiverBalanceAfter
    (dto.event userId lockedSender lockedReceiver draw).payload draw

/-- A transfer returns exactly when it passes all its guards. -/
theorem transfer_returns {senderWalletId receiverWalletId : WalletId}
    (different : senderWalletId ≠ receiverWalletId)
    (fresh : draw.Fresh d) (unused : ¬ d.transactions.Has Transaction.index dto.idempotencyKey)
    {Q : Transaction → DB → Prop} :
    postgres.Returns d (TransactionService.transferTx userId dto senderWalletId
      receiverWalletId draw) d Q ↔
      ∃ sender receiver, d.wallets.get? senderWalletId = some sender ∧
        d.wallets.get? receiverWalletId = some receiver ∧
        dto.Passes sender receiver ∧
          Q (dto.transaction sender receiver draw) (dto.applied userId sender receiver draw d) := by
  refine (returns_locked (transferLocked userId dto draw) different).trans
      (exists_congr fun sender => exists_congr fun receiver =>
    and_congr_right fun foundSender => and_congr_right fun foundReceiver => ?_)
  obtain rfl := Table.get?_key foundSender
  obtain rfl := Table.get?_key foundReceiver
  have elsewhere : (d.wallets.put (dto.debited sender)).get? receiver.id = some receiver := by
    rw [Table.get?_put, if_neg (show receiver.id ≠ (dto.debited sender).id from Ne.symm different),
      foundReceiver]
  simp only [transferLocked, TransactionRepository.executeTransfer, WalletRepository.debitAvailable,
    WalletRepository.creditAvailable, Program.bind_def, Program.pure_def, returns_bind,
    returns_pure, returns_assertActive, returns_assertCurrencyMatch,
    returns_assertSufficientBalance, returns_updateWallet, returns_createTransaction,
    returns_required, returns_createLedgerEntry, returns_createOutboxEvent, foundSender]
  constructor
  · rintro ⟨senderActive, receiverActive, senderCurrency, receiverCurrency, sufficient, _, ⟨⟩,
      senderFits, row, found, receiverFits, amountFits, _, _, _, ⟨⟩, _, _, _, ⟨⟩, _, _, _, holds⟩
    obtain rfl := Option.some.inj (elsewhere.symm.trans found)
    exact ⟨⟨⟨senderActive, receiverActive⟩, ⟨senderCurrency, receiverCurrency⟩, sufficient,
      amountFits, senderFits, receiverFits⟩, holds⟩
  · rintro ⟨⟨⟨senderActive, receiverActive⟩, ⟨senderCurrency, receiverCurrency⟩, sufficient,
      amountFits, senderFits, receiverFits⟩, holds⟩
    have both : ∀ {wallet : Wallet}, wallet.fits →
        (Decimal.fits dto.amount.decimal && Decimal.fits wallet.availableBalance) := by
      intro wallet fits
      exact Bool.and_eq_true_iff.mpr ⟨amountFits, wallet.available_fits fits⟩
    exact ⟨senderActive, receiverActive, senderCurrency, receiverCurrency, sufficient, sender, rfl,
      senderFits, receiver,
      elsewhere, receiverFits, amountFits, fresh.transaction, unused, _, rfl,
        both senderFits, fresh.entry, _, rfl,
      both receiverFits, fresh.second rfl, fresh.event, holds⟩

/-- What a transfer changes, and that it changes nothing else. -/
structure Transferred (dto : TransferDto) (userId : UserId) (sender receiver : Wallet) (draw : Draw)
    (d d' : DB) : Prop where
  payer : d'.wallets.get? sender.id =
    some { sender with availableBalance := sender.availableBalance - dto.amount.decimal }
  payee : d'.wallets.get? receiver.id =
    some { receiver with availableBalance := receiver.availableBalance + dto.amount.decimal }
  others : ∀ id, id ≠ sender.id → id ≠ receiver.id → d'.wallets.get? id = d.wallets.get? id
  transaction : d'.transactions.rows = d.transactions.rows ++ [dto.transaction sender receiver draw]
  entries : d'.ledgerEntries.rows = d.ledgerEntries.rows ++
    [dto.entry draw.ledgerEntryId .debit (dto.debited sender) draw,
      dto.entry draw.secondLedgerEntryId .credit (dto.credited receiver) draw]
  event : d'.outboxEvents.rows = d.outboxEvents.rows ++ [dto.event userId sender receiver draw]
  rest : d'.users = d.users ∧ d'.refreshTokens = d.refreshTokens ∧ d'.paymentLogs = d.paymentLogs

theorem applied_transferred {sender receiver : Wallet} (different : sender.id ≠ receiver.id)
    (fresh : draw.Fresh d) :
    Transferred dto userId sender receiver draw d (dto.applied userId sender receiver draw d) where
  payer := by
    have apart : sender.id ≠ (dto.credited receiver).id := different
    have same : sender.id = (dto.debited sender).id := rfl
    simp only [TransferDto.applied]
    rw [Table.get?_put, if_neg apart, Table.get?_put, if_pos same]
    simp [TransferDto.debited, Wallet.shift, sub_eq_add_neg]
  payee := by
    have same : receiver.id = (dto.credited receiver).id := rfl
    simp only [TransferDto.applied]
    rw [Table.get?_put, if_pos same]
    simp [TransferDto.credited, Wallet.shift]
  others id notSender notReceiver := by
    have first : id ≠ (dto.debited sender).id := notSender
    have second : id ≠ (dto.credited receiver).id := notReceiver
    simp only [TransferDto.applied]
    rw [Table.get?_put, if_neg second, Table.get?_put, if_neg first]
  transaction := Table.rows_put_fresh fresh.transaction
  entries := Table.rows_put_both fresh.entry (fresh.second rfl)
  event := Table.rows_put_fresh fresh.event
  rest := ⟨rfl, rfl, rfl⟩

end
end PaymentWallet
