import PaymentWallet.Concurrency.Locks
import PaymentWallet.Foundation.Serializability
import PaymentWallet.Model.Transactions

/-! The transactions that move money, on their own: any number of them, with any
arguments, over any store. Wallets are never created, and the payees of payouts
never written, so their plain reads are exact. -/
namespace PaymentWallet
open Foundation

/-- The statements of the seven transactions, and of the other single ones on events. -/
def Statement.moves : Statement → Bool
  | .findBalances _ | .createUser _ | .createWallet _ | .updateUser .. | .revokeRefreshTokens .. =>
    false
  | _ => true

def TxCall.moves : TxCall → Bool
  | .deposit .. | .withdraw .. | .transfer .. | .confirmDeposit .. | .createPayout .. | .settle ..
  | .fail .. => true
  | _ => false

/-- A money movement with its arguments. -/
abbrev Movement := { c : TxCall // c.moves }

/-- Each process runs one movement. -/
def movements : System DB Write Statement Statement.Reply LockKey Exception TxCall TxCall.Out Empty
    (fun _ => Empty) Unit Movement Unit where
  engine := postgres
  code := TxCall.code
  outside := fun _ x _ _ _ _ => x.elim
  drift := fun _ _ => False
  handler := fun c => (Service.transact c.1).bind fun _ => .pure ()
  lost := .connectionLost

section Bodies

@[simp] theorem all_query {good : Statement → Prop} {s : Statement} : (query s).All good ↔ good s :=
  and_iff_left fun _ => trivial

theorem all_required {good : Statement → Prop} (value : Option α) : (required value).All good := by
  cases value <;> trivial

abbrev Moving (p : Tx α) : Prop := p.All fun s => s.moves

variable {draw : Draw} {userId : UserId} {txCtx : TransactionContext} {eventId : EventId}
  {result : ProviderResult}

theorem lockWallet_moving {id : WalletId} : Moving (WalletRepository.lockWallet id) := by
  refine .bind (all_query.mpr rfl) fun row => ?_
  cases row <;> trivial

theorem guard_moving {p : Prop} [Decidable p] {error : Exception} :
    Moving (if p then .throw error else .pure () : Tx Unit) := by
  split <;> trivial

theorem updateWallet_moving {id : WalletId} {change : BalanceChange} {f : Wallet → α} :
    Moving ((query (.updateWallet id change)).bind fun row => .pure (f row)) :=
  .bind (all_query.mpr rfl) fun _ => trivial

theorem initiateDeposit_moving {input : CreateTransactionInput}
    {after : Decimal} {payload : Record} :
    Moving (TransactionRepository.initiateDeposit input after payload draw) :=
  .bind (all_query.mpr rfl) fun _ => .bind (all_required _) fun _ =>
    .bind (all_query.mpr rfl) fun _ => .bind (all_query.mpr rfl) fun _ => trivial

theorem initiateWithdrawal_moving {input : CreateTransactionInput}
    {after : Decimal} {payload : Record} :
    Moving (TransactionRepository.initiateWithdrawal input after payload draw) :=
  .bind (all_query.mpr rfl) fun _ => .bind (all_required _) fun _ =>
    .bind (all_query.mpr rfl) fun _ => .bind (all_query.mpr rfl) fun _ => trivial

theorem executeTransfer_moving {input : CreateTransactionInput}
    {sent received : Decimal} {payload : Record} :
    Moving (TransactionRepository.executeTransfer input sent received payload draw) :=
  .bind (all_query.mpr rfl) fun _ => .bind (all_required _) fun _ =>
    .bind (all_query.mpr rfl) fun _ =>
    .bind (all_required _) fun _ => .bind (all_query.mpr rfl) fun _ =>
      .bind (all_query.mpr rfl) fun _ => trivial

theorem findByUserId_moving {f : Option WalletId → Tx α} (none : Moving (f none))
    (some : ∀ id, Moving (f (some id))) :
    Moving ((WalletRepository.findByUserId userId).bind f) := by
  refine .bind (all_query.mpr rfl) fun id => ?_
  cases id with
  | none => exact none
  | some id => exact some id

/-- The lock and the checks that the initiations from the user's own wallet share. -/
theorem locked_moving {f : Wallet → Tx α} {id : WalletId} {currency : Currency}
    (rest : ∀ wallet, Moving (f wallet)) :
    Moving ((WalletRepository.lockWallet id).bind fun locked =>
      (WalletRepository.assertActive locked).bind fun _ =>
        (WalletRepository.assertCurrencyMatch locked currency).bind fun _ => f locked) :=
  .bind lockWallet_moving fun _ => .bind guard_moving fun _ => .bind guard_moving fun _ => rest _

theorem depositTx_moving {dto : DepositDto} :
    Moving (TransactionService.depositTx userId dto draw) :=
  findByUserId_moving trivial fun _ => locked_moving fun _ =>
    .bind updateWallet_moving fun _ => initiateDeposit_moving

theorem withdrawTx_moving {dto : WithdrawalDto} :
    Moving (TransactionService.withdrawTx userId dto draw) :=
  findByUserId_moving trivial fun _ => locked_moving fun _ =>
    .bind guard_moving fun _ => .bind updateWallet_moving fun _ => initiateWithdrawal_moving

theorem transferTx_moving {dto : TransferDto} {sender receiver : WalletId} :
    Moving (TransactionService.transferTx userId dto sender receiver draw) :=
  .bind lockWallet_moving fun _ => .bind lockWallet_moving fun _ => .bind guard_moving fun _ =>
    .bind guard_moving fun _ => .bind guard_moving fun _ => .bind guard_moving fun _ =>
    .bind guard_moving fun _ => .bind updateWallet_moving fun _ =>
      .bind updateWallet_moving fun _ =>
    executeTransfer_moving

theorem confirmDepositTx_moving {dto : ConfirmDepositDto} :
    Moving (PaymentService.confirmDepositTx userId dto draw) :=
  findByUserId_moving trivial fun _ => locked_moving fun _ => .bind updateWallet_moving fun _ =>
    .bind (all_query.mpr rfl) fun _ => .bind (all_query.mpr rfl) fun _ => trivial

theorem payoutFields_moving {provider : SupportedProvider} :
    Moving (PaymentService.payoutFields userId provider) := by
  cases provider with
  | stripe =>
    refine .bind (.bind (all_query.mpr rfl) fun account => ?_) fun _ => trivial
    split <;> trivial
  | paypal =>
    refine .bind (.bind (all_query.mpr rfl) fun user => ?_) fun _ => trivial
    split
    · trivial
    · split <;> trivial

theorem createPayoutTx_moving {dto : CreatePayoutDto} :
    Moving (PaymentService.createPayoutTx userId dto draw) := by
  refine findByUserId_moving trivial fun _ => locked_moving fun locked => ?_
  split
  · trivial
  · exact .bind updateWallet_moving fun _ => .bind payoutFields_moving fun _ =>
      .bind (all_query.mpr rfl) fun _ => .bind (all_query.mpr rfl) fun _ => trivial

theorem markSettled_moving : Moving (PaymentSettlementService.markSettled txCtx result draw) := by
  unfold PaymentSettlementService.markSettled
  split
  · exact .bind (all_query.mpr rfl) fun _ => all_query.mpr rfl
  · exact all_query.mpr rfl

theorem record_moving {status : TransactionStatus} :
    Moving (PaymentSettlementService.record txCtx eventId result status draw) :=
  .bind (all_required _) fun _ => .bind (all_query.mpr rfl) fun _ => all_query.mpr rfl

theorem settleTx_moving : Moving (PaymentSettlementService.settleTx txCtx eventId result draw) := by
  unfold PaymentSettlementService.settleTx
  split
  · refine .bind (all_required _) fun _ => .bind updateWallet_moving fun _ =>
        .bind markSettled_moving fun _ =>
      .bind (all_query.mpr rfl) fun _ => .bind record_moving fun _ => ?_
    split
    · exact all_query.mpr rfl
    · trivial
  · exact .bind (all_required _) fun _ => .bind updateWallet_moving fun _ =>
        .bind markSettled_moving fun _ =>
      .bind (all_query.mpr rfl) fun _ => record_moving
  · trivial

theorem failTx_moving : Moving (PaymentSettlementService.failTx txCtx eventId result draw) := by
  unfold PaymentSettlementService.failTx
  split
  · exact .bind (all_required _) fun _ => .bind (all_query.mpr rfl) fun _ =>
        .bind (all_query.mpr rfl) fun _ => record_moving
  · exact .bind (all_required _) fun _ => .bind (all_query.mpr rfl) fun _ =>
        .bind (all_query.mpr rfl) fun _ => record_moving
  · trivial

end Bodies

/-- Movements use the statements of movements only. -/
theorem TxCall.moving {c : TxCall} (moves : c.moves) : Moving c.code := by
  cases c with
  | deposit => exact depositTx_moving
  | withdraw => exact withdrawTx_moving
  | transfer => exact transferTx_moving
  | confirmDeposit => exact confirmDepositTx_moving
  | createPayout => exact createPayoutTx_moving
  | settle => exact settleTx_moving
  | fail => exact failTx_moving
  | _ => cases moves

/-- What the plain reads of movements return stays the same. -/
structure DB.SameReads (d d' : DB) : Prop where
  wallets : ∀ userId, (d'.wallets.rows.find? fun row => row.userId = userId).map (·.id) =
    (d.wallets.rows.find? fun row => row.userId = userId).map (·.id)
  accounts : ∀ id, (d'.users.get? id).map (·.stripeConnectAccountId) =
    (d.users.get? id).map (·.stripeConnectAccountId)
  emails : ∀ id, (d'.users.get? id).map (·.paypalEmail) = (d.users.get? id).map (·.paypalEmail)

theorem DB.SameReads.refl (d : DB) : d.SameReads d := ⟨fun _ => rfl, fun _ => rfl, fun _ => rfl⟩

theorem DB.SameReads.trans {a b c : DB} (first : a.SameReads b) (second : b.SameReads c) :
    a.SameReads c :=
  ⟨fun id => (second.wallets id).trans (first.wallets id), fun id =>
    (second.accounts id).trans (first.accounts id),
    fun id => (second.emails id).trans (first.emails id)⟩

theorem moves_same_reads {s : Statement} {d : DB} {reply : s.Reply}
    {ws : List Write} (moves : s.moves)
    (locked : s.plain = false) (exec : s.exec d = .ok (reply, ws)) :
    d.SameReads (postgres.view d ws) := by
  have idle : ∀ {d'}, d'.wallets = d.wallets → d'.users = d.users → d.SameReads d' := by
    intro d' wallets users
    exact ⟨by simp [wallets], by simp [users], by simp [users]⟩
  cases s with
  | findByUserId | findConnectAccount | findPaypalEmail | findBalances => cases locked
  | createUser | createWallet | updateUser | revokeRefreshTokens => cases moves
  | lockWallet id =>
    obtain ⟨_, rfl⟩ := exec_lockWallet.mp exec
    exact .refl d
  | updateWallet id change =>
    obtain ⟨row, found, _, _, rfl⟩ := exec_updateWallet.mp exec
    refine ⟨fun userId => ?_, fun _ => rfl, fun _ => rfl⟩
    exact Table.find?_put_old _ _ (Table.get?_of_same found rfl) rfl rfl
  | createTransaction row =>
    obtain ⟨_, _, _, _, rfl⟩ := exec_createTransaction.mp exec
    exact idle rfl rfl
  | updateTransaction id patch =>
    obtain ⟨_, _, rfl⟩ := exec_updateTransaction.mp exec
    exact idle rfl rfl
  | createLedgerEntry row =>
    obtain ⟨_, _, rfl⟩ := exec_createLedgerEntry.mp exec
    exact idle rfl rfl
  | createPaymentLog row =>
    obtain ⟨_, _, rfl⟩ := exec_createPaymentLog.mp exec
    exact idle rfl rfl
  | createOutboxEvent row =>
    obtain ⟨_, rfl⟩ := exec_createOutboxEvent.mp exec
    exact idle rfl rfl
  | markDelivered id now =>
    obtain ⟨_, _, rfl⟩ := exec_markDelivered.mp exec
    exact idle rfl rfl
  | incrementRetry id =>
    obtain ⟨_, _, rfl⟩ := exec_incrementRetry.mp exec
    exact idle rfl rfl
  | upsertBraintreeCustomerId userId customerId =>
    rcases exec_upsertBraintreeCustomerId exec with rfl | exec
    · exact .refl d
    · obtain ⟨old, found, _, rfl⟩ := exec_updateUser.mp exec
      have keyEq : old.id = userId := Table.get?_key found
      refine ⟨fun _ => rfl, fun id => ?_, fun id => ?_⟩ <;>
        (simp only [postgres, Engine.view_cons, Engine.view_nil, DB.write,
          Table.get?_put, UserPatch.apply]
         split
         · simp_all
         · rfl)

/-- A plain read returns exactly what it would return at the commit. -/
def Exact (s : Statement) (reply : s.Reply) (d : DB) : Prop :=
  s.plain = true → s.exec d = .ok (reply, [])

theorem movements_stability : postgres.Stability (fun s => s.moves) Exact DB.SameReads where
  refl := .refl
  trans := .trans
  exec_grows := moves_same_reads
  read_valid := by
    intro s d reply ws _ plain exec _
    obtain rfl := postgres_unread plain exec
    exact exec
  valid_mono := by
    intro s d d' reply moves valid same plain
    have exec := valid plain
    cases s with
    | findByUserId userId =>
      simpa only [Statement.exec, same.wallets] using exec
    | findConnectAccount id => simpa only [Statement.exec, same.accounts] using exec
    | findPaypalEmail id => simpa only [Statement.exec, same.emails] using exec
    | findBalances => cases moves
    | _ => cases plain

theorem movements_disciplined : movements.Disciplined (fun _ _ => True) (fun c => c.moves)
    (fun s => s.moves) LockKey.Same Exact DB.SameReads where
  locking := postgres_locking
  stability := movements_stability
  code _ moves := TxCall.moving moves
  start {_ _ request} _ := ⟨request.2, fun result => by cases result <;> trivial⟩

end PaymentWallet
