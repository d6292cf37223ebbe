import PaymentWallet.Concurrency.Locks
import PaymentWallet.Model.Transactions

/-! What stays true of the store between a read and the end of the transaction
that made it, and between two steps of a service: rows are never deleted, and
their owners and terms never change. -/
namespace PaymentWallet
open Foundation

/-- The columns that no statement updates. -/
def Transaction.terms (t : Transaction) :=
  (t.type, t.amount, t.currency, t.provider, t.senderWalletId, t.receiverWalletId)

def OutboxEvent.terms (e : OutboxEvent) := (e.transactionId, e.eventType, e.payload)

structure DB.Keeps (d d' : DB) : Prop where
  wallets : Table.Keeps Wallet.userId d.wallets d'.wallets
  transactions : Table.Keeps Transaction.terms d.transactions d'.transactions
  outboxEvents : Table.Keeps OutboxEvent.terms d.outboxEvents d'.outboxEvents

theorem DB.Keeps.refl (d : DB) : d.Keeps d := ⟨.refl, .refl, .refl⟩

theorem DB.Keeps.trans {a b c : DB} (first : a.Keeps b) (second : b.Keeps c) : a.Keeps c :=
  ⟨first.wallets.trans second.wallets, first.transactions.trans second.transactions,
    first.outboxEvents.trans second.outboxEvents⟩

/-- The wallet exists and is the user's. -/
def DB.Owns (d : DB) (userId : UserId) (id : WalletId) : Prop :=
  ∃ wallet, d.wallets.get? id = some wallet ∧ wallet.userId = userId

theorem DB.Owns.keeps {d d' : DB} {userId : UserId} {id : WalletId} (owns : d.Owns userId id)
    (keeps : d.Keeps d') : d'.Owns userId id := by
  obtain ⟨wallet, present, rfl⟩ := owns
  exact keeps.wallets _ _ present

/-- A plain read of the wallet tells whose it is; nothing else that the plain
reads return is relied on later. -/
def Statement.Learned : (s : Statement) → s.Reply → DB → Prop
  | .findByUserId userId, reply, d => ∀ id, reply = some id → d.Owns userId id
  | _, _, _ => True

theorem find_owner {d : DB} {userId : UserId} {id : WalletId}
    (found : (d.wallets.rows.find? fun row => row.userId = userId).map (·.id) = some id) :
    d.Owns userId id := by
  obtain ⟨wallet, row, rfl⟩ := Option.map_eq_some_iff.mp found
  exact ⟨wallet, Table.get?_of_mem (List.mem_of_find?_eq_some row),
    by simpa using List.find?_some row⟩

theorem exec_keeps {s : Statement} {d : DB} {reply : s.Reply} {ws : List Write}
    (locked : s.plain = false) (exec : s.exec d = .ok (reply, ws)) :
    d.Keeps (postgres.view d ws) := by
  cases s with
  | findByUserId | findConnectAccount | findPaypalEmail | findBalances => cases locked
  | lockWallet id =>
    obtain ⟨_, rfl⟩ := exec_lockWallet.mp exec
    exact .refl d
  | updateWallet id change =>
    obtain ⟨row, found, _, _, rfl⟩ := exec_updateWallet.mp exec
    exact ⟨.put_old (Table.get?_of_same found rfl) rfl, .refl, .refl⟩
  | updateTransaction id patch =>
    obtain ⟨row, found, rfl⟩ := exec_updateTransaction.mp exec
    exact ⟨.refl, .put_old (Table.get?_of_same found rfl) rfl, .refl⟩
  | markDelivered id now =>
    obtain ⟨row, found, rfl⟩ := exec_markDelivered.mp exec
    exact ⟨.refl, .refl, .put_old (Table.get?_of_same found rfl) rfl⟩
  | incrementRetry id =>
    obtain ⟨row, found, rfl⟩ := exec_incrementRetry.mp exec
    exact ⟨.refl, .refl, .put_old (Table.get?_of_same found rfl) rfl⟩
  | createTransaction row =>
    obtain ⟨_, fresh, _, _, rfl⟩ := exec_createTransaction.mp exec
    exact ⟨.refl, .put_fresh fresh, .refl⟩
  | createOutboxEvent row =>
    obtain ⟨fresh, rfl⟩ := exec_createOutboxEvent.mp exec
    exact ⟨.refl, .refl, .put_fresh fresh⟩
  | createWallet row =>
    obtain ⟨fresh, _, rfl⟩ := exec_createWallet.mp exec
    exact ⟨.put_fresh fresh, .refl, .refl⟩
  | createLedgerEntry row =>
    obtain ⟨_, _, rfl⟩ := exec_createLedgerEntry.mp exec
    exact ⟨.refl, .refl, .refl⟩
  | createPaymentLog row =>
    obtain ⟨_, _, rfl⟩ := exec_createPaymentLog.mp exec
    exact ⟨.refl, .refl, .refl⟩
  | createUser row =>
    obtain ⟨_, _, rfl⟩ := exec_createUser.mp exec
    exact ⟨.refl, .refl, .refl⟩
  | updateUser id patch =>
    obtain ⟨_, _, _, rfl⟩ := exec_updateUser.mp exec
    exact ⟨.refl, .refl, .refl⟩
  | upsertBraintreeCustomerId userId customerId =>
    rcases exec_upsertBraintreeCustomerId exec with rfl | exec
    · exact .refl d
    · obtain ⟨_, _, _, rfl⟩ := exec_updateUser.mp exec
      exact ⟨.refl, .refl, .refl⟩
  | revokeRefreshTokens userId now =>
    obtain rfl := exec_revokeRefreshTokens.mp exec
    exact ⟨.refl, .refl, .refl⟩

theorem postgres_stability : postgres.Stability (fun _ => True) Statement.Learned DB.Keeps where
  refl := .refl
  trans := .trans
  exec_grows := fun _ locked exec => exec_keeps locked exec
  read_valid := by
    intro s d reply ws _ plain exec
    cases s with
    | findByUserId userId =>
      intro id found
      simp only [postgres, Statement.exec, Except.ok.injEq, Prod.mk.injEq] at exec
      exact find_owner (exec.1.trans found)
    | _ => trivial
  valid_mono := by
    intro s d d' reply _ valid keeps
    cases s with
    | findByUserId userId =>
      exact fun id found => (valid id found).keeps keeps
    | _ => trivial

end PaymentWallet
