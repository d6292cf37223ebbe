import PaymentWallet.Sessions.Transactions

/-! A store and what cleanups leave of it. Some tokens are gone, and every one of them has
expired; whatever looks at other tokens, or at the present, sees no difference. -/
namespace PaymentWallet.Sessions
open Foundation

/-- The token is there, and has expired. -/
def Store.Ended (d : Store) (tokenHash : String) : Prop :=
  ∃ row, d.refreshTokens.get? tokenHash = some row ∧ row.expiresAt < d.now

/-- `d` is `full` without the tokens `gone`, which have all expired. -/
structure Store.Swept (gone : List String) (full d : Store) : Prop where
  now : d.now = full.now
  users : d.users = full.users
  rows : d.refreshTokens.rows = full.refreshTokens.rows.filter fun row => row.tokenHash ∉ gone
  expired : ∀ tokenHash ∈ gone, full.Ended tokenHash

/-- The write deletes nothing, and leaves the tokens `gone` alone. -/
def Write.spares (gone : List String) : Write → Prop
  | .token row => row.tokenHash ∉ gone
  | .deleteToken _ => False
  | _ => True

/-- Tokens stay, with their owner and their end, and time does not go back. -/
structure Store.Lasts (d d' : Store) : Prop where
  now : d.now ≤ d'.now
  tokens : d.refreshTokens.Keeps (fun row => (row.userId, row.expiresAt)) d'.refreshTokens

def Statement.lasting : Statement → Prop
  | .deleteToken _ => False
  | _ => True

section Swept
variable {gone : List String} {full d : Store}

theorem Store.Swept.refl (d : Store) : Store.Swept [] d d where
  now := rfl
  users := rfl
  rows := by simp
  expired _ member := absurd member List.not_mem_nil

theorem Store.Swept.get? (swept : Store.Swept gone full d) {tokenHash : String}
    (kept : tokenHash ∉ gone) :
    d.refreshTokens.get? tokenHash = full.refreshTokens.get? tokenHash := by
  cases found : full.refreshTokens.get? tokenHash with
  | none =>
    refine Table.get?_none.mpr fun row member => ?_
    rw [swept.rows] at member
    exact Table.get?_none.mp found row (List.mem_filter.mp member).1
  | some row =>
    obtain ⟨member, rfl⟩ := Table.get?_some.mp found
    refine Table.get?_of_mem ?_
    rw [swept.rows]
    exact List.mem_filter.mpr ⟨member, by simpa using kept⟩

theorem Store.Swept.get?_gone (swept : Store.Swept gone full d) {tokenHash : String}
    (member : tokenHash ∈ gone) :
    d.refreshTokens.get? tokenHash = none := by
  refine Table.get?_none.mpr fun row found => ?_
  rw [swept.rows] at found
  rintro rfl
  simpa [member] using (List.mem_filter.mp found).2

/-- A token of the swept store is a token of the full one. -/
theorem Store.Swept.found (swept : Store.Swept gone full d)
    {tokenHash : String} {row : RefreshToken} (found : d.refreshTokens.get? tokenHash = some row) :
    tokenHash ∉ gone ∧ full.refreshTokens.get? tokenHash = some row := by
  have kept : tokenHash ∉ gone := by
    intro member
    cases (swept.get?_gone member).symm.trans found
  exact ⟨kept, swept.get? kept ▸ found⟩

theorem Store.Swept.write (swept : Store.Swept gone full d) {w : Write} (spares : w.spares gone) :
    Store.Swept gone (full.write w) (d.write w) := by
  obtain ⟨now, users, rows, expired⟩ := swept
  cases w with
  | user row => exact ⟨now, congrArg (·.put row) users, rows, expired⟩
  | deleteToken => exact spares.elim
  | advance elapsed =>
    refine ⟨congrArg (· + elapsed) now, users, rows, fun tokenHash member => ?_⟩
    obtain ⟨row, found, before⟩ := expired tokenHash member
    exact ⟨row, found, Nat.lt_add_right elapsed before⟩
  | token row =>
    have kept : row.tokenHash ∉ gone := spares
    refine ⟨now, users, ?_, fun tokenHash member => ?_⟩
    · have same := Store.Swept.get? ⟨now, users, rows, expired⟩ kept
      simp only [Store.write]
      cases found : full.refreshTokens.get? row.tokenHash with
      | none =>
        rw [Table.rows_put_fresh found, Table.rows_put_fresh (same.trans found),
          rows, List.filter_append]
        simp [kept]
      | some old =>
        have keyEq : row.tokenHash = old.tokenHash := (Table.get?_key found).symm
        rw [Table.rows_put_old (same.trans found), rows, Table.filter_put_old _ found]
        simp only [keyEq]
    · obtain ⟨old, found, before⟩ := expired tokenHash member
      have different : tokenHash ≠ row.tokenHash := by
        rintro rfl
        exact kept member
      exact ⟨old, by simpa [Store.write, different] using found, before⟩

theorem Store.Swept.view (swept : Store.Swept gone full d) {ws : List Write}
    (spares : ∀ w ∈ ws, w.spares gone) :
    Store.Swept gone (postgres.view full ws) (postgres.view d ws) := by
  induction ws generalizing full d with
  | nil => exact swept
  | cons w ws ih =>
    rw [List.forall_mem_cons] at spares
    exact ih (swept.write spares.1) spares.2

/-- A statement that locks no token that is gone finds the same. -/
theorem Store.Swept.exec (swept : Store.Swept gone full d) {s : Statement}
    (locked : s.plain = false)
    (spares : ∀ tokenHash, .token tokenHash ∈ s.keys d → tokenHash ∉ gone) :
    s.exec d = s.exec full := by
  have token : ∀ {tokenHash}, .token tokenHash ∈ s.keys d →
      d.refreshTokens.get? tokenHash = full.refreshTokens.get? tokenHash :=
        fun held => swept.get? (spares _ held)
  cases s with
  | newDate | count | findOldest | findUnrevoked | findExpired => cases locked
  | advisoryLock | advance => rfl
  | revokeActive | revokeIfActive | revokeSession | createToken | deleteToken =>
    simp only [Statement.exec, token (List.mem_singleton_self _)]
  | createUser | updateUser => simp only [Statement.exec, swept.users]

/-- At a time when no token that is gone was active, the active ones are the same. -/
theorem Store.Swept.activeTokens (swept : Store.Swept gone full d)
    {userId : UserId} {now : DateTime}
    (ended : ∀ tokenHash ∈ gone, ∀ row, full.refreshTokens.get? tokenHash = some row →
      row.userId = userId →
      row.expiresAt ≤ now) : d.activeTokens userId now = full.activeTokens userId now := by
  unfold Store.activeTokens
  rw [swept.rows, List.filter_filter]
  apply List.filter_congr
  intro row member
  by_cases lost : row.tokenHash ∈ gone
  · by_cases owned : row.userId = userId
    · have past := ended _ lost row (Table.get?_of_mem member) owned
      simp [RefreshToken.active, owned, lost, Nat.not_lt.mpr past]
    · simp [owned]
  · simp [lost]

/-- Nothing that has not expired is missing. -/
theorem Store.Swept.activeTokens_now (swept : Store.Swept gone full d)
    {userId : UserId} {now : DateTime}
    (later : full.now ≤ now) : d.activeTokens userId now = full.activeTokens userId now := by
  apply swept.activeTokens
  intro tokenHash member row found _
  obtain ⟨row', found', before⟩ := swept.expired tokenHash member
  cases found.symm.trans found'
  exact (before.trans_le later).le

end Swept

section Lasts
variable {d d' d'' : Store}

theorem Store.Lasts.refl (d : Store) : d.Lasts d := ⟨Nat.le_refl _, .refl⟩

theorem Store.Lasts.trans (first : d.Lasts d') (second : d'.Lasts d'') : d.Lasts d'' :=
  ⟨first.now.trans second.now, first.tokens.trans second.tokens⟩

theorem Store.Lasts.find {tokenHash : String} {row : RefreshToken} (lasts : d.Lasts d')
    (found : d.refreshTokens.get? tokenHash = some row) :
    ∃ row', d'.refreshTokens.get? tokenHash = some row' ∧
      row'.userId = row.userId ∧ row'.expiresAt = row.expiresAt := by
  obtain ⟨row', found', same⟩ := lasts.tokens tokenHash row found
  exact ⟨row', found', Prod.mk.inj same⟩

theorem Store.Lasts.revoke {row : RefreshToken} {tokenHash : String} {now : DateTime}
    (found : d.refreshTokens.get? tokenHash = some row) :
    d.Lasts (d.write (.token (row.revoke now))) := by
  obtain rfl : (row.revoke now).tokenHash = tokenHash :=
    (Table.get?_key found : row.tokenHash = tokenHash)
  exact ⟨Nat.le_refl _, .put_old found rfl⟩

theorem exec_lasts {s : Statement} {reply : s.Reply} {ws : List Write} (lasting : s.lasting)
    (locked : s.plain = false)
    (exec : s.exec d = .ok (reply, ws)) : d.Lasts (postgres.view d ws) := by
  cases s with
  | newDate | count | findOldest | findUnrevoked | findExpired => cases locked
  | deleteToken => exact lasting.elim
  | advisoryLock =>
    cases exec
    exact .refl d
  | advance elapsed =>
    cases exec
    exact ⟨Nat.le_add_right _ _, .refl⟩
  | revokeActive =>
    obtain ⟨row, found, _, rfl⟩ := exec_revokeActive.mp exec
    exact .revoke found
  | revokeIfActive =>
    rcases exec_revokeIfActive exec with ⟨rfl, _⟩ | ⟨row, found, _, rfl⟩
    · exact .refl d
    · exact .revoke found
  | revokeSession =>
    obtain ⟨row, found, rfl⟩ := exec_revokeSession.mp exec
    exact .revoke found
  | createToken =>
    obtain ⟨fresh, rfl⟩ := exec_createToken.mp exec
    exact ⟨Nat.le_refl _, .put_fresh fresh⟩
  | createUser =>
    obtain ⟨_, _, rfl⟩ := exec_createUser.mp exec
    exact ⟨Nat.le_refl _, .refl⟩
  | updateUser =>
    obtain ⟨_, _, rfl⟩ := exec_updateUser.mp exec
    exact ⟨Nat.le_refl _, .refl⟩

theorem postgres_lasting :
    postgres.Stability Statement.lasting (fun _ _ _ => True) Store.Lasts where
  refl := .refl
  trans := .trans
  exec_grows := exec_lasts
  read_valid _ _ _ := trivial
  valid_mono _ _ _ := trivial

theorem Store.Ended.lasts {tokenHash : String} (ended : d.Ended tokenHash) (lasts : d.Lasts d') :
    d'.Ended tokenHash := by
  obtain ⟨row, found, before⟩ := ended
  obtain ⟨row', found', _, same⟩ := lasts.find found
  exact ⟨row', found', same ▸ before.trans_le lasts.now⟩

end Lasts
end PaymentWallet.Sessions
