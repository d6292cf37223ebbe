import PaymentWallet.Accounting.Initiation
import PaymentWallet.Accounting.Settlement
import PaymentWallet.Model.Services

/-! One specification for each database transaction: what its caller has to know
beforehand, and what its commit did. Later arguments cite these and never look
at a body again. -/
namespace PaymentWallet
open Foundation

/-- A user and an empty wallet were created. -/
structure Registered (d : DB) (user : User) (wallet : Wallet) (d' : DB) : Prop where
  result : d' = { d with users := d.users.put user, wallets := d.wallets.put wallet }
  newUser : d.users.get? user.id = none
  newWallet : d.wallets.get? wallet.id = none
  status : user.status = .active
  empty : ∀ b, wallet.balance b = 0

/-- A column of one event was written. -/
def Touched (d : DB) (id : EventId) (change : OutboxEvent → OutboxEvent) (d' : DB) : Prop :=
  ∃ event, d.outboxEvents.get? id = some event ∧
    d' = { d with outboxEvents := d.outboxEvents.put (change event) }

/-- Columns of one user were written. -/
def Patched (d : DB) (id : UserId) (patch : UserPatch) (d' : DB) : Prop :=
  ∃ old tokens, d.users.get? id = some old ∧
    d' = { d with users := d.users.put (patch.apply old), refreshTokens := tokens }

/-- An asynchronous provider accepted a request for the transaction. -/
def Accepted (calls : List ProviderCall) (id : TransactionId) : Prop :=
  ∃ call ∈ calls, call.transactionId = id ∧ call.result.success ∧ call.result.requiresWebhook

namespace TxCall

/-- What the caller of a transaction knows when it starts. -/
def Ready (c : TxCall) (σ : SharedState) : Prop :=
  match c with
  | .transfer userId dto senderWalletId receiverWalletId _ => userId ≠ dto.recipientUserId ∧
      σ.db.Owns userId senderWalletId ∧ σ.db.Owns dto.recipientUserId receiverWalletId
  | .settle txCtx eventId _ _ | .fail txCtx eventId _ _ => txCtx.Matches eventId σ.db
  | .markDelivered id _ =>
    ∃ event, σ.db.outboxEvents.get? id = some event ∧ Accepted σ.ext.calls event.transactionId
  | .updateStatusOrRole _ status _ => status ≠ some .closed
  | _ => True

/-- What the commit of a transaction did. -/
def Effect (c : TxCall) (d d' : DB) : Prop :=
  match c with
  | .createUserWithWallet .. => ∃ user wallet, Registered d user wallet d'
  | .settle txCtx .. => txCtx.Finished .settled d d'
  | .fail txCtx .. => txCtx.Finished .failed d d'
  | .markDelivered id now => Touched d id (fun event => { event with deliveredAt := some now }) d'
  | .incrementRetry id =>
    Touched d id (fun event => { event with retryCount := event.retryCount + 1 }) d'
  | .closeAccount userId _ => Patched d userId { status := some .closed } d'
  | .updateStatusOrRole id status role => Patched d id { status := status, role := role } d'
  | .setConnectAccountId userId account =>
    Patched d userId { stripeConnectAccountId := some account } d'
  | .setPaypalEmail userId email => Patched d userId { paypalEmail := some email } d'
  | c => c.Initiated d d'

end TxCall

section Bodies
variable {d v : DB}

theorem createUserWithWallet_registered {data : CreateUserInput} {draw : Draw} :
    Ensures d (AuthRepository.createUserWithWalletTx data draw) d
      fun _ d' => ∃ user wallet, Registered d user wallet d' := by
  simp only [AuthRepository.createUserWithWalletTx, Program.bind_def, Program.pure_def,
    ensures_bind, ensures_createUser, ensures_createWallet, ensures_pure]
  intro newUser _ newWallet _
  exact ⟨_, _, rfl, newUser, newWallet, rfl, fun b => by cases b <;> rfl⟩

theorem closeAccount_patched {userId : UserId} {draw : Draw} :
    Ensures d (UsersRepository.closeAccount userId draw) d
      fun _ d' => Patched d userId { status := some .closed } d' := by
  simp only [UsersRepository.closeAccount, Program.bind_def, ensures_bind,
    ensures_read (s := .findBalances _) rfl]
  intro balances _
  have closes : Ensures d ((query (.updateUser userId { status := some .closed })).bind fun _ =>
      query (.revokeRefreshTokens userId draw.revokedAt)) d
      fun _ d' => Patched d userId { status := some .closed } d' := by
    simp only [ensures_bind, ensures_updateUser, ensures_revokeRefreshTokens]
    intro old found _
    exact ⟨old, _, found, rfl⟩
  cases balances with
  | none => exact closes
  | some wallet =>
    dsimp only
    split
    · trivial
    · exact closes

theorem updateUser_patched {id : UserId} {patch : UserPatch} :
    Ensures (α := Unit) d (query (.updateUser id patch)) d fun _ d' => Patched d id patch d' := by
  rw [ensures_updateUser]
  intro old found _
  exact ⟨old, d.refreshTokens, found, rfl⟩

end Bodies

/-- Initiations need no books to be kept. -/
theorem TxCall.Ready.initiates {c : TxCall} {σ : SharedState} (ready : c.Ready σ)
    (asks : c.opening.isSome) :
    Ensures σ.db c.code σ.db fun _ d' => c.Initiated σ.db d' := by
  cases c with
  | deposit => exact deposit_initiated
  | withdraw => exact withdraw_initiated
  | transfer => exact transfer_initiated ready.2.1 ready.2.2 ready.1
  | confirmDeposit => exact confirmDeposit_initiated
  | createPayout => exact createPayout_initiated
  | _ => cases asks

/-- Every database transaction meets its specification. -/
theorem TxCall.Ready.ensures {c : TxCall} {σ : SharedState} (ready : c.Ready σ)
    (consistent : Consistent σ.db) : Ensures σ.db c.code σ.db fun _ d' => c.Effect σ.db d' := by
  cases c with
  | createUserWithWallet => exact createUserWithWallet_registered
  | deposit | withdraw | transfer | confirmDeposit | createPayout => exact ready.initiates rfl
  | settle => exact settle_finished consistent ready
  | fail => exact fail_finished consistent ready
  | markDelivered => exact ensures_markDelivered.mpr fun event found => ⟨event, found, rfl⟩
  | incrementRetry => exact ensures_incrementRetry.mpr fun event found => ⟨event, found, rfl⟩
  | closeAccount => exact closeAccount_patched
  | updateStatusOrRole | setConnectAccountId | setPaypalEmail => exact updateUser_patched

end PaymentWallet
