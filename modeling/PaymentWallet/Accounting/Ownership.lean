import PaymentWallet.Accounting.Commits
import PaymentWallet.Accounting.History

/-! Whose transactions there are. An initiation names a wallet of the user who asked
for it, and the row keeps its key, its terms and the owner of that wallet for good. -/
namespace PaymentWallet
open Foundation

/-- What a money request asks for, and who asks. -/
structure Intent where
  userId : UserId
  type : TransactionType
  amount : Amount
  currency : Currency
deriving DecidableEq

def TxCall.intent : TxCall → Option Intent
  | .deposit userId dto _ => some ⟨userId, .deposit, dto.amount, dto.currency⟩
  | .withdraw userId dto _ => some ⟨userId, .withdrawal, dto.amount, dto.currency⟩
  | .transfer userId dto _ _ _ => some ⟨userId, .transfer, dto.amount, dto.currency⟩
  | .confirmDeposit userId dto _ => some ⟨userId, .deposit, dto.amount, dto.currency⟩
  | .createPayout userId dto _ => some ⟨userId, .withdrawal, dto.amount, dto.currency⟩
  | _ => none

/-- The receiver of a deposit, the sender of a withdrawal or a transfer. -/
def Transaction.initiator (t : Transaction) : Option WalletId :=
  match t.type with
  | .deposit => t.receiverWalletId
  | .withdrawal | .transfer => t.senderWalletId

/-- The transaction is as it was asked for, by the owner of its initiating wallet. -/
structure Intent.Met (intent : Intent) (d : DB) (t : Transaction) : Prop where
  type : t.type = intent.type
  amount : t.amount = intent.amount
  currency : t.currency = intent.currency
  initiator : ∃ id, t.initiator = some id ∧ d.Owns intent.userId id

section
variable {d d' : DB} {t t' : Transaction} {intent other : Intent}

theorem Transaction.initiator_congr (same : t'.terms = t.terms) : t'.initiator = t.initiator := by
  simp only [terms, Prod.mk.injEq] at same
  simp only [initiator, same]

theorem Intent.Met.keeps (met : intent.Met d t) (keeps : d.Keeps d') (same : t'.terms = t.terms) :
    intent.Met d' t' := by
  obtain ⟨id, initiator, owns⟩ := met.initiator
  have terms := same
  simp only [Transaction.terms, Prod.mk.injEq] at terms
  obtain ⟨type, amount, currency, _⟩ := terms
  exact ⟨type.trans met.type, amount.trans met.amount, currency.trans met.currency,
    id, (Transaction.initiator_congr same).trans initiator, owns.keeps keeps⟩

/-- A transaction meets one intent only: its wallet has one owner. -/
theorem Intent.Met.unique (met : intent.Met d t) (met' : other.Met d t) : intent = other := by
  obtain ⟨id, initiator, wallet, found, owner⟩ := met.initiator
  obtain ⟨id', initiator', wallet', found', owner'⟩ := met'.initiator
  cases initiator.symm.trans initiator'
  cases found.symm.trans found'
  cases intent
  cases other
  simp only [Intent.mk.injEq]
  exact ⟨owner.symm.trans owner', met.type.symm.trans met'.type, met.amount.symm.trans met'.amount,
    met.currency.symm.trans met'.currency⟩

end

/-- What an initiation returns: a row of the store it leaves, under its key and as
it was asked for. -/
structure Enters (d : DB) (key : String) (intent : Intent) (t : Transaction) (d' : DB) : Prop where
  found : d'.transactions.get? t.id = some t
  key : t.idempotencyKey = key
  met : intent.Met d t

section Bodies
variable {d : DB} {userId : UserId} {draw : Draw}

theorem deposit_enters {dto : DepositDto} :
    Ensures d (TransactionService.depositTx userId dto draw) d
    (Enters d dto.idempotencyKey ⟨userId, .deposit, dto.amount, dto.currency⟩) := by
  simp only [TransactionService.depositTx, TransactionRepository.initiateDeposit,
    WalletRepository.creditPending, Program.bind_def, Program.pure_def,
      Program.throw_def, ensures_bind, WalletRepository.ensures_findByUserId]
  rintro (_ | id) learned
  · trivial
  have owns := learned id rfl
  simp
  intro wallet found _ _ _ _ _ _ _ _ _ _ _ _
  obtain rfl := Table.get?_key found
  exact ⟨by simp, rfl, rfl, rfl, rfl, _, rfl, owns⟩

theorem withdraw_enters {dto : WithdrawalDto} :
    Ensures d (TransactionService.withdrawTx userId dto draw) d
    (Enters d dto.idempotencyKey ⟨userId, .withdrawal, dto.amount, dto.currency⟩) := by
  simp only [TransactionService.withdrawTx, TransactionRepository.initiateWithdrawal,
    WalletRepository.debitAvailableAndLock, Program.bind_def, Program.pure_def, Program.throw_def,
    ensures_bind, WalletRepository.ensures_findByUserId]
  rintro (_ | id) learned
  · trivial
  have owns := learned id rfl
  simp
  intro wallet found _ _ _ _ _ _ _ _ _ _ _ _ _
  obtain rfl := Table.get?_key found
  exact ⟨by simp, rfl, rfl, rfl, rfl, _, rfl, owns⟩

theorem confirmDeposit_enters {dto : ConfirmDepositDto} :
    Ensures d (PaymentService.confirmDepositTx userId dto draw) d
      (Enters d dto.idempotencyKey ⟨userId, .deposit, dto.amount, dto.currency⟩) := by
  simp only [PaymentService.confirmDepositTx, WalletRepository.creditPending, Program.bind_def,
    Program.pure_def, Program.throw_def, ensures_bind, WalletRepository.ensures_findByUserId]
  rintro (_ | id) learned
  · trivial
  have owns := learned id rfl
  simp
  intro wallet found _ _ _ _ _ _ _ _ _
  obtain rfl := Table.get?_key found
  exact ⟨by simp, rfl, rfl, rfl, rfl, _, rfl, owns⟩

theorem createPayout_enters {dto : CreatePayoutDto} :
    Ensures d (PaymentService.createPayoutTx userId dto draw) d
      (Enters d dto.idempotencyKey ⟨userId, .withdrawal, dto.amount, dto.currency⟩) := by
  simp only [PaymentService.createPayoutTx, WalletRepository.debitAvailableAndLock,
    Program.bind_def, Program.pure_def, Program.throw_def, ensures_bind,
    WalletRepository.ensures_findByUserId]
  rintro (_ | id) learned
  · trivial
  have owns := learned id rfl
  simp only [ensures_bind, WalletRepository.ensures_lockWallet,
    WalletRepository.ensures_assertActive, WalletRepository.ensures_assertCurrencyMatch]
  intro wallet found _ _
  obtain rfl := Table.get?_key found
  by_cases short : wallet.availableBalance < dto.amount.decimal
  · simp [short]
  simp only [if_neg short, ensures_bind, ensures_pure, ensures_updateWallet]
  intro _ _ _
  refine ensures_payoutFields fun fields => ?_
  simp
  intro _ _ _ _
  exact ⟨by simp, rfl, rfl, rfl, rfl, _, rfl, owns⟩

theorem transfer_enters {dto : TransferDto} {senderWalletId receiverWalletId : WalletId}
    (payer : d.Owns userId senderWalletId) :
    Ensures d (TransactionService.transferTx userId dto senderWalletId receiverWalletId draw) d
      (Enters d dto.idempotencyKey ⟨userId, .transfer, dto.amount, dto.currency⟩) := by
  unfold TransactionService.transferTx
  simp only [TransactionRepository.executeTransfer, WalletRepository.debitAvailable,
    WalletRepository.creditAvailable, Program.bind_def, Program.pure_def, ensures_bind,
    WalletRepository.ensures_lockWallet]
  intro first foundFirst second foundSecond
  obtain ⟨foundSender, _⟩ := locked_pair foundFirst foundSecond
  generalize (if first.id = senderWalletId then first else second) = sender at foundSender ⊢
  generalize (if first.id = receiverWalletId then first else second) = receiver
  simp only [WalletRepository.ensures_assertActive, WalletRepository.ensures_assertCurrencyMatch,
    ensures_assertSufficientBalance, ensures_updateWallet,
    ensures_pure, ensures_createTransaction, ensures_required, Option.some.injEq, forall_eq',
    ensures_createLedgerEntry, ensures_createOutboxEvent]
  obtain rfl := Table.get?_key foundSender
  intro _ _ _ _ _ _ _ _ _ _ _ _ _ _ _ _ _ _ _
  exact ⟨by simp, rfl, rfl, rfl, rfl, _, rfl, payer⟩

end Bodies

/-- The row that an initiation returns. -/
def TxCall.entered : (c : TxCall) → c.Out → Option Transaction
  | .deposit .., t | .withdraw .., t | .transfer .., t | .confirmDeposit .., t
    | .createPayout .., t => some t
  | _, _ => none

/-- The commit entered what the initiation asked for. -/
def TxCall.Entered (c : TxCall) (value : c.Out) (d : DB) : Prop :=
  ∀ key intent, c.carries key → c.intent = some intent → ∃ t, c.entered value = some t ∧
    d.transactions.get? t.id = some t ∧ t.idempotencyKey = key ∧ intent.Met d t

theorem TxCall.Ready.enters {c : TxCall} {σ : SharedState} (ready : c.Ready σ) :
    Ensures σ.db c.code σ.db c.Entered := by
  have entered : ∀ {p : Tx Transaction} {own : String} {asked : Intent},
      Ensures σ.db p σ.db (Enters σ.db own asked) → Ensures σ.db p σ.db fun value d' =>
        ∀ key intent, decide (own = key) = true → some asked = some intent →
          ∃ t, some value = some t ∧
          d'.transactions.get? t.id = some t ∧ t.idempotencyKey = key ∧ intent.Met d' t := by
    intro p own asked body
    refine Ensures.mono (Engine.wp_grows postgres_stability (Program.all_trivial p) body) ?_
    rintro t d' ⟨enters, keeps⟩ key intent carries ⟨⟩
    obtain rfl := of_decide_eq_true carries
    exact ⟨t, rfl, enters.found, enters.key, enters.met.keeps keeps rfl⟩
  have quiet : c.intent = none → Ensures σ.db c.code σ.db c.Entered := by
    intro none
    refine Ensures.mono (Engine.wp_trivial c.code) fun value d' _ key intent _ asks => ?_
    cases none.symm.trans asks
  cases c with
  | deposit => exact entered deposit_enters
  | withdraw => exact entered withdraw_enters
  | transfer => exact entered (transfer_enters ready.2.1)
  | confirmDeposit => exact entered confirmDeposit_enters
  | createPayout => exact entered createPayout_enters
  | _ => exact quiet rfl

section
variable {d d' : DB} {c : TxCall} {t : Transaction}

/-- A row keeps its key and its terms. -/
theorem TxCall.Effect.keepsKey (effect : c.Effect d d') :
    Table.Keeps Transaction.idempotencyKey d.transactions d'.transactions := by
  have initiated : c.Initiated d d' →
      Table.Keeps Transaction.idempotencyKey d.transactions d'.transactions := by
    rintro ⟨o, sender, receiver, entries, event, _, opened, _⟩
    rw [opened.transactions]
    exact .put_fresh opened.fresh
  have finished : ∀ {txCtx status}, TransactionContext.Finished txCtx status d d' →
      Table.Keeps Transaction.idempotencyKey d.transactions d'.transactions := by
    rintro txCtx status ⟨t, t', entries, log, event, _, _, closed⟩
    rw [closed.transactions]
    exact .put_old (closed.id ▸ closed.found) closed.key
  cases c with
  | createUserWithWallet =>
    obtain ⟨user, wallet, rfl, _⟩ := effect
    exact .refl
  | deposit | withdraw | transfer | confirmDeposit | createPayout => exact initiated effect
  | settle | fail => exact finished effect
  | markDelivered | incrementRetry =>
    obtain ⟨old, _, rfl⟩ := effect
    exact .refl
  | closeAccount | updateStatusOrRole | setConnectAccountId | setPaypalEmail =>
    obtain ⟨old, tokens, _, rfl⟩ := effect
    exact .refl

end
end PaymentWallet
