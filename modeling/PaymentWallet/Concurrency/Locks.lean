import PaymentWallet.Model.Statement

/-! The locks that the statements take protect everything that they read and
write: rows by their primary key, unique-index entries by the rows that carry
them. -/
namespace PaymentWallet
open Foundation

/-- Two stores agree on what a lock key protects. -/
def LockKey.Same : LockKey → DB → DB → Prop
  | .user id, d, d' => d.users.get? id = d'.users.get? id
  | .userIndex entry, d, d' =>
    ∀ id, d.users.Carries User.index entry id ↔ d'.users.Carries User.index entry id
  | .wallet id, d, d' => d.wallets.get? id = d'.wallets.get? id
  | .walletOf userId, d, d' =>
    ∀ id, d.wallets.Carries Wallet.index userId id ↔ d'.wallets.Carries Wallet.index userId id
  | .transaction id, d, d' => d.transactions.get? id = d'.transactions.get? id
  | .idempotencyKey key, d, d' => ∀ id, d.transactions.Carries Transaction.index key id ↔
      d'.transactions.Carries Transaction.index key id
  | .ledgerEntry id, d, d' => d.ledgerEntries.get? id = d'.ledgerEntries.get? id
  | .paymentLog id, d, d' => d.paymentLogs.get? id = d'.paymentLogs.get? id
  | .paymentLogOf transactionId, d, d' => ∀ id,
      d.paymentLogs.Carries PaymentLog.index transactionId id ↔
        d'.paymentLogs.Carries PaymentLog.index transactionId id
  | .outboxEvent id, d, d' => d.outboxEvents.get? id = d'.outboxEvents.get? id
  | .refreshTokensOf userId, d, d' =>
    d.refreshTokens.rows.filter (·.userId = userId) =
      d'.refreshTokens.rows.filter (·.userId = userId)

theorem LockKey.same_equivalence (k : LockKey) : Equivalence k.Same := by
  cases k with
  | user | wallet | transaction | ledgerEntry | paymentLog | outboxEvent | refreshTokensOf =>
    exact ⟨fun _ => rfl, Eq.symm, Eq.trans⟩
  | userIndex | walletOf | idempotencyKey | paymentLogOf =>
    exact ⟨fun _ _ => Iff.rfl, fun h id => (h id).symm, fun h h' id => (h id).trans (h' id)⟩

/-- Equal writes keep agreement. -/
theorem LockKey.Same.write {k : LockKey} (same : k.Same d d') (w : Write) :
    k.Same (d.write w) (d'.write w) := by
  cases w with
  | revokeRefreshTokens userId now =>
    cases k with
    | refreshTokensOf =>
      simp only [LockKey.Same, DB.write] at same ⊢
      rw [Table.filter_modify (f := RefreshToken.revoke now) _ fun _ => rfl,
        Table.filter_modify (f := RefreshToken.revoke now) _ fun _ => rfl, same]
    | _ => exact same
  | _ =>
    cases k <;> first
      | exact same
      | (simp only [LockKey.Same, DB.write, Table.get?_put, Table.carries_put] at same ⊢
         simp only [same, implies_true])

theorem LockKey.Same.view {k : LockKey} (same : k.Same d d') (ws : List Write) :
    k.Same (postgres.view d ws) (postgres.view d' ws) := by
  induction ws generalizing d d' with
  | nil => exact same
  | cons w ws ih => exact ih (same.write w)

theorem filter_revoke_other (different : other ≠ userId) :
    ((DB.write d (.revokeRefreshTokens userId now)).refreshTokens.rows.filter (·.userId = other)) =
      d.refreshTokens.rows.filter (·.userId = other) := by
  simp only [DB.write]
  rw [Table.filter_modify (f := RefreshToken.revoke now) _ fun _ => rfl]
  conv_rhs => rw [← List.map_id (d.refreshTokens.rows.filter _)]
  apply List.map_congr_left
  intro row member
  have owner : row.userId = other := by simpa using (List.mem_filter.mp member).2
  simp [owner, different]

section Tables
variable {R K I : Type} {key : R → K} [DecidableEq K] {t : Table R K key} {row : R} {k : K}

theorem get?_put_other (different : k ≠ key row) : t.get? k = (t.put row).get? k := by
  simp [different]

/-- A put shows in the index only at the entries that the row gains or loses. -/
theorem carries_put_other {index : R → List I} {i : I}
    (same : i ∈ index row ↔ t.Carries index i (key row)) (k : K) :
    t.Carries index i k ↔ (t.put row).Carries index i k := by
  rw [Table.carries_put]
  split
  · subst k
    exact same.symm
  · rfl

theorem carries_put_fresh {index : R → List I} {i : I} (fresh : t.get? (key row) = none)
    (free : i ∉ index row) (k : K) : t.Carries index i k ↔ (t.put row).Carries index i k :=
  carries_put_other (iff_of_false free (Table.carries_fresh fresh)) k

theorem carries_put_old {index : R → List I} {i : I} {old : R} (found : t.get? (key row) = some old)
    (same : i ∈ index row ↔ i ∈ index old) (k : K) :
    t.Carries index i k ↔ (t.put row).Carries index i k :=
  carries_put_other (same.trans (Table.carries_found found).symm) k

end Tables

section UserRows
variable {d d' : DB} {id : UserId} {f : User → User} {old : User} {ws : List Write}

theorem user_mem_userKeys (d : DB) (id : UserId) (f : User → User) :
    .user id ∈ userKeys d id f := by
  unfold userKeys
  split <;> simp

theorem userIndex_mem_userKeys (found : d.users.get? id = some old) {entry : String × String} :
    .userIndex entry ∈ userKeys d id f ↔ ¬ (entry ∈ (f old).index ↔ entry ∈ old.index) := by
  simp only [userKeys, found, List.mem_cons, reduceCtorEq, false_or, List.mem_map,
    LockKey.userIndex.injEq, exists_eq_right, changedEntries, List.mem_append, List.mem_filter,
    decide_eq_true_eq]
  tauto

theorem updateUserRow_same (exec : updateUserRow d id f = .ok ((), ws))
    (same : ∀ k ∈ userKeys d id f, k.Same d d') : updateUserRow d' id f = .ok ((), ws) := by
  obtain ⟨old, found, free, written⟩ := updateUserRow_ok.mp exec
  have row : d.users.get? id = d'.users.get? id := same (.user id) (user_mem_userKeys ..)
  refine updateUserRow_ok.mpr ⟨old, row ▸ found, fun entry member new => ?_, written⟩
  rw [← Table.has_congr (same (.userIndex entry) ((userIndex_mem_userKeys found).mpr (by tauto)))]
  exact free entry member new

theorem userKeys_same (same : ∀ k ∈ userKeys d id f, k.Same d d') :
    userKeys d' id f = userKeys d id f := by
  have row : d.users.get? id = d'.users.get? id := same (.user id) (user_mem_userKeys ..)
  simp only [userKeys, row]

theorem updateUserRow_local {k : LockKey} (exec : updateUserRow d id f = .ok ((), ws))
    (keeps : ∀ user, (f user).id = user.id) (free : k ∉ userKeys d id f) :
    k.Same d (postgres.view d ws) := by
  have stay := k.same_equivalence.refl d
  obtain ⟨old, found, _, rfl⟩ := updateUserRow_ok.mp exec
  have keyEq : (f old).id = id := (keeps old).trans (Table.get?_key found)
  cases k with
  | user other =>
    refine get?_put_other fun same => free ?_
    rw [same, keyEq]
    exact user_mem_userKeys ..
  | userIndex entry =>
    refine carries_put_old (keyEq ▸ found) ?_
    exact not_not.mp fun differs => free ((userIndex_mem_userKeys found).mpr differs)
  | _ => exact stay

end UserRows

/-- A statement's reply and writes depend on what its keys protect. -/
theorem exec_same {s : Statement} {d d' : DB} {reply : s.Reply} {ws : List Write}
    (locked : s.plain = false) (exec : s.exec d = .ok (reply, ws))
    (same : ∀ k ∈ s.keys d, k.Same d d') : s.exec d' = .ok (reply, ws) := by
  have wallet : ∀ {id}, .wallet id ∈ s.keys d → d.wallets.get? id = d'.wallets.get? id :=
    fun held => same _ held
  have transaction : ∀ {id}, .transaction id ∈ s.keys d →
    d.transactions.get? id = d'.transactions.get? id :=
    fun held => same _ held
  have event : ∀ {id}, .outboxEvent id ∈ s.keys d →
    d.outboxEvents.get? id = d'.outboxEvents.get? id :=
    fun held => same _ held
  cases s with
  | findByUserId | findConnectAccount | findPaypalEmail | findBalances => cases locked
  | lockWallet id =>
    rw [exec_lockWallet] at exec ⊢
    rwa [← wallet (by simp [Statement.keys])]
  | updateWallet id change =>
    rw [exec_updateWallet] at exec ⊢
    rwa [← wallet (by simp [Statement.keys])]
  | updateTransaction id patch =>
    rw [exec_updateTransaction] at exec ⊢
    rwa [← transaction (by simp [Statement.keys])]
  | markDelivered id now =>
    rw [exec_markDelivered] at exec ⊢
    rwa [← event (by simp [Statement.keys])]
  | incrementRetry id =>
    rw [exec_incrementRetry] at exec ⊢
    rwa [← event (by simp [Statement.keys])]
  | createTransaction row =>
    rw [exec_createTransaction] at exec ⊢
    rwa [← transaction (by simp [Statement.keys]),
      ← Table.has_congr (same (.idempotencyKey row.idempotencyKey) (by simp [Statement.keys]))]
  | createLedgerEntry row =>
    have id : d.ledgerEntries.get? row.id = d'.ledgerEntries.get? row.id :=
      same (.ledgerEntry row.id) (by simp [Statement.keys])
    rw [exec_createLedgerEntry] at exec ⊢
    rwa [← id]
  | createOutboxEvent row =>
    rw [exec_createOutboxEvent] at exec ⊢
    rwa [← event (by simp [Statement.keys])]
  | createPaymentLog row =>
    have id : d.paymentLogs.get? row.id = d'.paymentLogs.get? row.id :=
      same (.paymentLog row.id) (by simp [Statement.keys])
    rw [exec_createPaymentLog] at exec ⊢
    rwa [← id, ← Table.has_congr
      (same (.paymentLogOf row.transactionId) (by simp [Statement.keys]))]
  | createWallet row =>
    rw [exec_createWallet] at exec ⊢
    rwa [← wallet (by simp [Statement.keys]),
      ← Table.has_congr (same (.walletOf row.userId) (by simp [Statement.keys]))]
  | createUser row =>
    have id : d.users.get? row.id = d'.users.get? row.id :=
      same (.user row.id) (by simp [Statement.keys])
    rw [exec_createUser] at exec ⊢
    refine ⟨id ▸ exec.1, fun entry member => ?_, exec.2.2⟩
    rw [← Table.has_congr (same (.userIndex entry) (by simp [Statement.keys, member]))]
    exact exec.2.1 entry member
  | upsertBraintreeCustomerId userId customerId =>
    have id : d.users.get? userId = d'.users.get? userId :=
      same (.user userId) (user_mem_userKeys ..)
    simp only [Statement.exec, id] at exec ⊢
    split at exec
    · rw [if_pos ‹_›]
      exact exec
    · rw [if_neg ‹_›]
      exact updateUserRow_same exec same
  | updateUser id patch => exact updateUserRow_same exec same
  | revokeRefreshTokens userId now => exact exec

theorem keys_same {s : Statement} {d d' : DB} (same : ∀ k ∈ s.keys d, k.Same d d') :
    s.keys d' = s.keys d := by
  cases s with
  | upsertBraintreeCustomerId | updateUser => exact userKeys_same same
  | _ => rfl

/-- A statement changes nothing that its keys do not protect. -/
theorem write_local {s : Statement} {d : DB} {reply : s.Reply} {ws : List Write} {k : LockKey}
    (locked : s.plain = false) (exec : s.exec d = .ok (reply, ws)) (free : k ∉ s.keys d) :
    k.Same d (postgres.view d ws) := by
  have stay := k.same_equivalence.refl d
  cases s with
  | findByUserId | findConnectAccount | findPaypalEmail | findBalances => cases locked
  | lockWallet id =>
    obtain ⟨_, rfl⟩ := exec_lockWallet.mp exec
    exact stay
  | updateWallet id change =>
    obtain ⟨row, found, _, _, rfl⟩ := exec_updateWallet.mp exec
    have keyEq := Table.get?_key found
    cases k with
    | wallet other =>
      refine get?_put_other fun same => free ?_
      simp [Statement.keys, same, Wallet.shift, keyEq]
    | walletOf userId => exact carries_put_old (Table.get?_of_same found rfl) Iff.rfl
    | _ => exact stay
  | updateTransaction id patch =>
    obtain ⟨row, found, rfl⟩ := exec_updateTransaction.mp exec
    have keyEq := Table.get?_key found
    cases k with
    | transaction other =>
      refine get?_put_other fun same => free ?_
      simp [Statement.keys, same, TransactionPatch.apply, keyEq]
    | idempotencyKey key => exact carries_put_old (Table.get?_of_same found rfl) Iff.rfl
    | _ => exact stay
  | markDelivered id now =>
    obtain ⟨row, found, rfl⟩ := exec_markDelivered.mp exec
    cases k with
    | outboxEvent other =>
      refine get?_put_other fun same => free ?_
      simp [Statement.keys, same, Table.get?_key found]
    | _ => exact stay
  | incrementRetry id =>
    obtain ⟨row, found, rfl⟩ := exec_incrementRetry.mp exec
    cases k with
    | outboxEvent other =>
      refine get?_put_other fun same => free ?_
      simp [Statement.keys, same, Table.get?_key found]
    | _ => exact stay
  | createTransaction row =>
    obtain ⟨_, fresh, _, _, rfl⟩ := exec_createTransaction.mp exec
    cases k with
    | transaction other => exact get?_put_other fun same => free (by simp [Statement.keys, same])
    | idempotencyKey key =>
      exact carries_put_fresh fresh fun member =>
        free (by simp_all [Statement.keys, Transaction.index])
    | _ => exact stay
  | createLedgerEntry row =>
    obtain ⟨_, _, rfl⟩ := exec_createLedgerEntry.mp exec
    cases k with
    | ledgerEntry other => exact get?_put_other fun same => free (by simp [Statement.keys, same])
    | _ => exact stay
  | createOutboxEvent row =>
    obtain ⟨_, rfl⟩ := exec_createOutboxEvent.mp exec
    cases k with
    | outboxEvent other => exact get?_put_other fun same => free (by simp [Statement.keys, same])
    | _ => exact stay
  | createPaymentLog row =>
    obtain ⟨fresh, _, rfl⟩ := exec_createPaymentLog.mp exec
    cases k with
    | paymentLog other => exact get?_put_other fun same => free (by simp [Statement.keys, same])
    | paymentLogOf id =>
      exact carries_put_fresh fresh fun member =>
        free (by simp_all [Statement.keys, PaymentLog.index])
    | _ => exact stay
  | createWallet row =>
    obtain ⟨fresh, _, rfl⟩ := exec_createWallet.mp exec
    cases k with
    | wallet other => exact get?_put_other fun same => free (by simp [Statement.keys, same])
    | walletOf id =>
      exact carries_put_fresh fresh fun member => free (by simp_all [Statement.keys, Wallet.index])
    | _ => exact stay
  | createUser row =>
    obtain ⟨fresh, _, rfl⟩ := exec_createUser.mp exec
    cases k with
    | user other => exact get?_put_other fun same => free (by simp [Statement.keys, same])
    | userIndex entry =>
      exact carries_put_fresh fresh fun member => free (by simp [Statement.keys, member])
    | _ => exact stay
  | upsertBraintreeCustomerId userId customerId =>
    rcases exec_upsertBraintreeCustomerId exec with rfl | exec
    · exact stay
    · exact updateUserRow_local exec (fun _ => rfl) free
  | updateUser id patch => exact updateUserRow_local exec (fun _ => rfl) free
  | revokeRefreshTokens userId now =>
    obtain rfl := exec_revokeRefreshTokens.mp exec
    cases k with
    | refreshTokensOf other =>
      have different : other ≠ userId := fun same => free (by simp [Statement.keys, same])
      exact (filter_revoke_other different).symm
    | _ => exact stay

/-- The row and index locks make the statements two-phase lockable. -/
theorem postgres_locking : postgres.Locking LockKey.Same where
  equivalence := LockKey.same_equivalence
  exec_same := exec_same
  keys_same := fun _ _ same => keys_same same
  write_local := write_local
  write_same := fun _ _ _ same => same.view _

end PaymentWallet
