import PaymentWallet.Accounting.Commits

/-! Who has which wallet. The unique indexes hold through every statement, a registration
enrols a user together with a wallet, and no other commit adds or removes either. -/
namespace PaymentWallet
open Foundation

/-- The unique indexes of the schema. -/
structure DB.Indexed (d : DB) : Prop where
  users : d.users.Unique User.index
  wallets : d.wallets.Unique Wallet.index
  transactions : d.transactions.Unique Transaction.index
  paymentLogs : d.paymentLogs.Unique PaymentLog.index

section Indexes
variable {d v : DB}

theorem DB.Indexed.empty : DB.empty.Indexed := by
  constructor <;> (intro first member; cases member)

theorem DB.Indexed.updateUser {id : UserId} {patch : UserPatch} {done : Unit} {ws : List Write}
    (indexed : d.Indexed)
    (exec : (Statement.updateUser id patch).exec d = .ok (done, ws)) :
    (postgres.view d ws).Indexed := by
  obtain ⟨old, found, free, rfl⟩ := exec_updateUser.mp exec
  have here : d.users.get? (patch.apply old).id = some old := Table.get?_of_same found rfl
  refine { indexed with users := indexed.users.put fun entry gained taken => ?_ }
  by_cases kept : entry ∈ old.index
  · exact ⟨old, here, kept⟩
  · exact absurd taken (free entry gained kept)

/-- Every statement keeps the unique indexes. -/
theorem exec_indexed {s : Statement} {reply : s.Reply} {ws : List Write} (locked : s.plain = false)
    (exec : s.exec d = .ok (reply, ws)) (indexed : d.Indexed) : (postgres.view d ws).Indexed := by
  cases s with
  | findByUserId | findConnectAccount | findPaypalEmail | findBalances => cases locked
  | lockWallet id =>
    obtain ⟨_, rfl⟩ := exec_lockWallet.mp exec
    exact indexed
  | updateWallet id change =>
    obtain ⟨row, found, _, _, rfl⟩ := exec_updateWallet.mp exec
    exact { indexed with
      wallets := indexed.wallets.put fun entry own _ => ⟨row, Table.get?_of_same found rfl, own⟩ }
  | updateTransaction id patch =>
    obtain ⟨row, found, rfl⟩ := exec_updateTransaction.mp exec
    exact { indexed with
      transactions := indexed.transactions.put fun entry own _ =>
        ⟨row, Table.get?_of_same found rfl, own⟩ }
  | createTransaction row =>
    obtain ⟨_, _, free, _, rfl⟩ := exec_createTransaction.mp exec
    refine { indexed with transactions := indexed.transactions.put fun entry own taken => ?_ }
    exact absurd (List.mem_singleton.mp own ▸ taken) free
  | createPaymentLog row =>
    obtain ⟨_, free, rfl⟩ := exec_createPaymentLog.mp exec
    refine { indexed with paymentLogs := indexed.paymentLogs.put fun entry own taken => ?_ }
    exact absurd (List.mem_singleton.mp own ▸ taken) free
  | createWallet row =>
    obtain ⟨_, free, rfl⟩ := exec_createWallet.mp exec
    refine { indexed with wallets := indexed.wallets.put fun entry own taken => ?_ }
    exact absurd (List.mem_singleton.mp own ▸ taken) free
  | createUser row =>
    obtain ⟨_, free, rfl⟩ := exec_createUser.mp exec
    exact { indexed with
      users := indexed.users.put fun entry own taken => absurd taken (free entry own) }
  | updateUser id patch => exact indexed.updateUser exec
  | upsertBraintreeCustomerId userId customerId =>
    rcases exec_upsertBraintreeCustomerId exec with rfl | exec
    · exact indexed
    · exact indexed.updateUser exec
  | createLedgerEntry row =>
    obtain ⟨_, _, rfl⟩ := exec_createLedgerEntry.mp exec
    exact { indexed with }
  | createOutboxEvent row =>
    obtain ⟨_, rfl⟩ := exec_createOutboxEvent.mp exec
    exact { indexed with }
  | markDelivered id now =>
    obtain ⟨_, _, rfl⟩ := exec_markDelivered.mp exec
    exact { indexed with }
  | incrementRetry id =>
    obtain ⟨_, _, rfl⟩ := exec_incrementRetry.mp exec
    exact { indexed with }
  | revokeRefreshTokens userId now =>
    obtain rfl := exec_revokeRefreshTokens.mp exec
    exact { indexed with }

theorem ensures_indexed (p : Tx α) (indexed : v.Indexed) : Ensures d p v fun _ v' => v'.Indexed :=
  Engine.wp_keeps exec_indexed p indexed

end Indexes

/-- The columns of a wallet that say whose money it holds. -/
def Wallet.holding (wallet : Wallet) := (wallet.userId, wallet.currency, wallet.status)

/-- The same users have the same wallets. -/
structure SameRoster (d d' : DB) : Prop where
  users : ∀ id, (d'.users.get? id).isSome = (d.users.get? id).isSome
  wallets : ∀ id, (d'.wallets.get? id).map Wallet.holding = (d.wallets.get? id).map Wallet.holding

/-- A user and his wallet are new. -/
def Enrols (d d' : DB) : Prop :=
  ∃ user wallet, d' = { d with users := d.users.put user, wallets := d.wallets.put wallet } ∧
    d.users.get? user.id = none ∧ d.wallets.get? wallet.id = none ∧
      wallet.holding = (user.id, .usd, .active)

section Rosters
variable {d d' : DB} {c : TxCall} {σ : SharedState}

theorem Moves.holdings {t t' : Table Wallet WalletId Wallet.id} {δ : WalletId → Bucket → Decimal}
    (moves : Moves t t' δ)
    (id : WalletId) : (t'.get? id).map Wallet.holding = (t.get? id).map Wallet.holding := by
  rw [moves id, Option.map_map]
  rfl

theorem createUserWithWallet_enrols {data : CreateUserInput} {draw : Draw} :
    Ensures d (AuthRepository.createUserWithWalletTx data draw) d fun _ d' => Enrols d d' := by
  simp only [AuthRepository.createUserWithWalletTx, Program.bind_def, Program.pure_def,
    ensures_bind, ensures_createUser, ensures_createWallet, ensures_pure]
  intro newUser _ newWallet _
  exact ⟨_, _, rfl, newUser, newWallet, rfl⟩

theorem Patched.roster {id : UserId} {patch : UserPatch} (patched : Patched d id patch d') :
    SameRoster d d' := by
  obtain ⟨old, tokens, found, rfl⟩ := patched
  constructor
  · intro other
    have key : old.id = id := Table.get?_key found
    have same : (patch.apply old).id = id := key
    simp only [Table.get?_put, same]
    split
    · rename_i here
      simp [here, found]
    · rfl
  · exact fun _ => rfl

/-- A commit enrols a user, or leaves the roster as it is. -/
theorem TxCall.Ready.enrols (ready : c.Ready σ) (books : Consistent σ.db) :
    Ensures σ.db c.code σ.db fun _ d' => Enrols σ.db d' ∨ SameRoster σ.db d' := by
  have ensures := ready.ensures books
  cases c with
  | createUserWithWallet => exact createUserWithWallet_enrols.mono fun _ _ enrols => .inl enrols
  | deposit | withdraw | transfer | confirmDeposit | createPayout =>
    refine ensures.mono fun _ d' effect => .inr ?_
    obtain ⟨o, sender, receiver, entries, event, _, opened, _⟩ := effect
    exact ⟨fun id => opened.users ▸ rfl, opened.wallets.holdings⟩
  | settle | fail =>
    refine ensures.mono fun _ d' effect => .inr ?_
    obtain ⟨t, t', entries, log, event, _, _, closed⟩ := effect
    refine ⟨fun id => ?_, closed.wallets.holdings⟩
    simpa using congrArg Option.isSome (closed.users id)
  | markDelivered | incrementRetry =>
    refine ensures.mono fun _ d' effect => .inr ?_
    obtain ⟨old, _, rfl⟩ := effect
    exact ⟨fun _ => rfl, fun _ => rfl⟩
  | closeAccount | updateStatusOrRole | setConnectAccountId | setPaypalEmail =>
    exact ensures.mono fun _ _ patched => .inr patched.roster

end Rosters

/-- Users and wallets belong together, and every wallet is an active one in dollars. -/
structure DB.Enrolled (d : DB) : Prop where
  owner : ∀ id wallet, d.wallets.get? id = some wallet → (d.users.get? wallet.userId).isSome
  wallet : ∀ userId, (d.users.get? userId).isSome → ∃ id, d.Owns userId id
  plain : ∀ id wallet, d.wallets.get? id = some wallet → wallet.currency = .usd ∧
    wallet.status = .active

namespace DB.Enrolled
variable {d d' : DB}

theorem empty : DB.empty.Enrolled := by
  constructor
  · intro id wallet found
    cases found
  · intro userId known
    cases known
  · intro id wallet found
    cases found

theorem enrols (enrolled : d.Enrolled) (enrols : Enrols d d') : d'.Enrolled := by
  obtain ⟨user, wallet, rfl, newUser, newWallet, account⟩ := enrols
  simp only [Wallet.holding, Prod.mk.injEq] at account
  have known : ∀ userId, (d.users.get? userId).isSome →
      ((d.users.put user).get? userId).isSome := by
    intro userId known
    rw [Table.get?_put]
    split
    · rfl
    · exact known
  constructor
  · intro id other found
    simp only [Table.get?_put] at found
    split at found
    · cases found
      simp [account.1]
    · exact known _ (enrolled.owner id other found)
  · intro userId there
    simp only [Table.get?_put] at there
    split at there
    · rename_i same
      exact ⟨wallet.id, wallet, by simp, account.1.trans same.symm⟩
    · obtain ⟨id, other, found, owns⟩ := enrolled.wallet userId there
      exact ⟨id, (Table.Keeps.put_fresh newWallet id other found).imp fun _ kept => ⟨kept.1,
        kept.2.trans owns⟩⟩
  · intro id other found
    simp only [Table.get?_put] at found
    split at found
    · cases found
      exact account.2
    · exact enrolled.plain id other found

theorem same (enrolled : d.Enrolled) (same : SameRoster d d') : d'.Enrolled := by
  have source : ∀ {id wallet'}, d'.wallets.get? id = some wallet' →
      ∃ wallet, d.wallets.get? id = some wallet ∧ wallet.holding = wallet'.holding := by
    intro id wallet' found
    have mapped := same.wallets id
    rw [found] at mapped
    exact Option.map_eq_some_iff.mp mapped.symm
  constructor
  · intro id wallet' found
    obtain ⟨wallet, before, account⟩ := source found
    have owner : wallet.userId = wallet'.userId := congrArg Prod.fst account
    rw [same.users, ← owner]
    exact enrolled.owner id wallet before
  · intro userId known
    rw [same.users] at known
    obtain ⟨id, wallet, found, owns⟩ := enrolled.wallet userId known
    have mapped := same.wallets id
    rw [found] at mapped
    obtain ⟨wallet', after, account⟩ := Option.map_eq_some_iff.mp mapped
    exact ⟨id, wallet', after, (congrArg Prod.fst account).trans owns⟩
  · intro id wallet' found
    obtain ⟨wallet, before, account⟩ := source found
    have plain := enrolled.plain id wallet before
    exact ⟨(congrArg (·.2.1) account).symm.trans plain.1,
      (congrArg (·.2.2) account).symm.trans plain.2⟩

end DB.Enrolled
end PaymentWallet
