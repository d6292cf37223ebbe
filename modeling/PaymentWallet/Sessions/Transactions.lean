import PaymentWallet.Sessions.Store
import PaymentWallet.Model.Transactions

/-! The database transactions of the auth and user services, and what each of them
did to the store once it has committed. -/
namespace PaymentWallet.Sessions
open Foundation

abbrev Tx := Program Statement Statement.Reply Exception

def query (s : Statement) : Tx s.Reply := Program.perform s

/-- The columns of a new session; the schema fills in `id` and `createdAt`. -/
structure NewToken where
  id : String
  userId : UserId
  tokenHash : String
  createdAt : DateTime
  expiresAt : DateTime
deriving DecidableEq

def NewToken.row (data : NewToken) : RefreshToken where
  id := data.id
  userId := data.userId
  tokenHash := data.tokenHash
  createdAt := data.createdAt
  expiresAt := data.expiresAt
  revokedAt := none

/-- `updateMany` on the rows that its scan found; each is looked at again once it is locked. -/
def revokeEach (now : DateTime) : List String → Tx Nat
  | [] => pure 0
  | tokenHash :: rest => do
    let count ← query (.revokeIfActive tokenHash now)
    let more ← revokeEach now rest
    return count + more

def deleteEach : List String → Tx Nat
  | [] => pure 0
  | tokenHash :: rest => do
    let count ← query (.deleteToken tokenHash)
    let more ← deleteEach rest
    return count + more

namespace AuthRepository

/-- The wallet that comes with the user is no part of this store. -/
def createUserWithWallet (data : CreateUserInput) (id : UserId) (createdAt : DateTime) : Tx Unit :=
  query (.createUser
    { id := id
      name := data.name
      email := data.email
      phone := data.phone
      password := data.password
      role := .user
      status := .active
      braintreeCustomerId := none
      stripeConnectAccountId := none
      paypalEmail := none
      createdAt := createdAt })

def rotateRefreshToken (oldTokenHash : String) (newTokenData : NewToken) : Tx Unit := do
  let now ← query .newDate
  query (.revokeActive oldTokenHash now)
  query (.createToken newTokenData.row)

def revokeRefreshToken (tokenHash : String) : Tx Nat := do
  let now ← query .newDate
  query (.revokeIfActive tokenHash now)

def revokeAllUserTokens (userId : UserId) : Tx Nat := do
  let now ← query .newDate
  let found ← query (.findUnrevoked userId)
  revokeEach now found

/-- Makes room for a new session. `tie` chooses among equally old ones. -/
def evictOldest (userId : UserId) (maxSessions count tie : Nat) : Tx (Option String) := do
  if count ≥ maxSessions then
    let now ← query .newDate
    match ← query (.findOldest userId now tie) with
    | some oldest =>
      let now ← query .newDate
      query (.revokeSession oldest now)
      return some oldest
    | none => return none
  else return none

def createSessionAtomic (data : NewToken) (maxSessions tie : Nat) : Tx (Option String) := do
  query (.advisoryLock data.userId)
  let now ← query .newDate
  let count ← query (.count data.userId now)
  let evictedSessionId ← evictOldest data.userId maxSessions count tie
  query (.createToken data.row)
  return evictedSessionId

/-- One batch of `deleteAllExpiredTokens`. `LIMIT` keeps any rows; those in `first` come first. -/
def deleteExpiredBatch (batchSize : Nat) (first : List String) : Tx Nat := do
  let now ← query .newDate
  let found ← query (.findExpired now)
  deleteEach ((found.filter (· ∈ first) ++ found.filter (· ∉ first)).take batchSize)

end AuthRepository

namespace UsersRepository

def updatePasswordAndRevokeSessions (id : UserId) (hashedPassword : String) : Tx Unit := do
  let now ← query .newDate
  query (.updateUser id { password := some hashedPassword })
  let found ← query (.findUnrevoked id)
  let _ ← revokeEach now found
  return ()

def updateStatusOrRole (id : UserId) (status : Option AccountStatus)
    (role : Option Role) : Tx Unit :=
  query (.updateUser id { status := status, role := role })

/-- `wallet` holds the balances that the transaction reads. -/
def closeAccount (userId : UserId) (wallet : Option Balances) : Tx Unit := do
  match wallet with
  | some wallet =>
    let hasBalance := wallet.available > 0 || wallet.locked > 0 || wallet.pending > 0
    if hasBalance then
      throw (.conflict ("Account cannot be closed while funds remain. " ++
        "Please withdraw all funds before closing your account."))
  | none => pure ()
  query (.updateUser userId { status := some .closed })
  let now ← query .newDate
  let found ← query (.findUnrevoked userId)
  let _ ← revokeEach now found
  return ()

end UsersRepository

/-- Time passes as a transaction of its own. -/
inductive TxCall where
  | createUserWithWallet (data : CreateUserInput) (id : UserId) (createdAt : DateTime)
  | rotateRefreshToken (oldTokenHash : String) (newTokenData : NewToken)
  | revokeRefreshToken (tokenHash : String)
  | revokeAllUserTokens (userId : UserId)
  | createSessionAtomic (data : NewToken) (maxSessions tie : Nat)
  | updatePasswordAndRevokeSessions (id : UserId) (hashedPassword : String)
  | updateStatusOrRole (id : UserId) (status : Option AccountStatus) (role : Option Role)
  | closeAccount (userId : UserId) (wallet : Option Balances)
  | deleteExpiredBatch (batchSize : Nat) (first : List String)
  | tick (elapsed : Nat)

@[reducible] def TxCall.Out : TxCall → Type
  | .revokeRefreshToken _ | .revokeAllUserTokens _ | .deleteExpiredBatch .. => Nat
  | .createSessionAtomic .. => Option String
  | _ => Unit

def TxCall.code : (c : TxCall) → Tx c.Out
  | .createUserWithWallet data id createdAt => AuthRepository.createUserWithWallet data id createdAt
  | .rotateRefreshToken oldTokenHash newTokenData =>
    AuthRepository.rotateRefreshToken oldTokenHash newTokenData
  | .revokeRefreshToken tokenHash => AuthRepository.revokeRefreshToken tokenHash
  | .revokeAllUserTokens userId => AuthRepository.revokeAllUserTokens userId
  | .createSessionAtomic data maxSessions tie =>
    AuthRepository.createSessionAtomic data maxSessions tie
  | .updatePasswordAndRevokeSessions id hashedPassword =>
    UsersRepository.updatePasswordAndRevokeSessions id hashedPassword
  | .updateStatusOrRole id status role => UsersRepository.updateStatusOrRole id status role
  | .closeAccount userId wallet => UsersRepository.closeAccount userId wallet
  | .deleteExpiredBatch batchSize first => AuthRepository.deleteExpiredBatch batchSize first
  | .tick elapsed => query (.advance elapsed)

/-- The session that the transaction creates. -/
def TxCall.creates : TxCall → Option NewToken
  | .rotateRefreshToken _ data | .createSessionAtomic data .. => some data
  | _ => none

/-- The token that the transaction exchanges. -/
def TxCall.rotates : TxCall → Option String
  | .rotateRefreshToken oldTokenHash _ => some oldTokenHash
  | _ => none

/-- The user all of whose sessions the transaction ends. -/
def TxCall.revokesAll : TxCall → Option UserId
  | .revokeAllUserTokens userId | .updatePasswordAndRevokeSessions userId _
    | .closeAccount userId _ => some userId
  | _ => none

/-- The transaction takes the user's status away from ACTIVE. -/
def TxCall.deactivates (userId : UserId) : TxCall → Bool
  | .closeAccount other _ => other = userId
  | .updateStatusOrRole other (some status) _ => other = userId && status ≠ .active
  | _ => false

/-- What becomes of a token in time: nothing, a revocation, or its end. -/
inductive Fades : Option RefreshToken → Option RefreshToken → Prop where
  | same : Fades row row
  | revoked : Fades (some row) (some (row.revoke now))
  | deleted : Fades (some row) none

theorem Fades.trans {a b c : Option RefreshToken} (first : Fades a b) (second : Fades b c) :
    Fades a c := by
  cases first with
  | same => exact second
  | revoked =>
    cases second with
    | same | revoked => exact .revoked
    | deleted => exact .deleted
  | deleted =>
    cases second with
    | same => exact .deleted

/-- The store differs in revoked and deleted tokens only. -/
structure Store.Fades (d d' : Store) : Prop where
  now : d'.now = d.now
  users : d'.users = d.users
  tokens : ∀ tokenHash, Sessions.Fades (d.refreshTokens.get? tokenHash)
    (d'.refreshTokens.get? tokenHash)

theorem Store.Fades.refl (d : Store) : d.Fades d := ⟨rfl, rfl, fun _ => .same⟩

theorem Store.Fades.trans {a b c : Store} (first : a.Fades b) (second : b.Fades c) : a.Fades c :=
  ⟨second.now.trans first.now, second.users.trans first.users, fun h =>
    (first.tokens h).trans (second.tokens h)⟩

/-- A user with an ACTIVE account. -/
def Store.Active (d : Store) (userId : UserId) : Prop :=
  ∃ user, d.users.get? userId = some user ∧ user.status = .active

/-- What a committed transaction did to the store. -/
structure TxCall.Effect (c : TxCall) (d d' : Store) : Prop where
  now : d.now ≤ d'.now
  active : ∀ userId, ¬ c.deactivates userId → d.Active userId → d'.Active userId
  fades : ∀ tokenHash, (∀ data, c.creates = some data → data.tokenHash ≠ tokenHash) →
    Sessions.Fades (d.refreshTokens.get? tokenHash) (d'.refreshTokens.get? tokenHash)
  created : ∀ data, c.creates = some data → d.refreshTokens.get? data.tokenHash = none ∧
    d'.refreshTokens.get? data.tokenHash = some data.row
  rotated : ∀ tokenHash, c.rotates = some tokenHash →
    ∃ row now, d.refreshTokens.get? tokenHash = some row ∧
    row.revokedAt = none ∧ d'.refreshTokens.get? tokenHash = some (row.revoke now)

/-- Whenever `p` returns on the view `v`, its result and view satisfy `Q`, whatever
its plain reads have replied. -/
def Ensures (d : Store) (p : Tx α) (v : Store) (Q : α → Store → Prop) : Prop :=
  postgres.wp (fun _ _ _ => True) d p v Q

section Ensures
variable {d v : Store} {p : Tx α} {tokenHash : String} {now : DateTime}

@[simp] theorem ensures_pure (value : α) {Q : α → Store → Prop} :
    Ensures d (.pure value) v Q ↔ Q value v := Iff.rfl

@[simp] theorem ensures_throw (error : Exception) {Q : α → Store → Prop} :
    Ensures d (.throw error) v Q ↔ True := Iff.rfl

@[simp] theorem ensures_bind {f : α → Tx β} {Q : β → Store → Prop} :
    Ensures d (p.bind f) v Q ↔ Ensures d p v fun value v' => Ensures d (f value) v' Q :=
  Engine.wp_bind

theorem Ensures.mono {P Q : α → Store → Prop} (h : Ensures d p v P)
    (weaker : ∀ value v', P value v' → Q value v') : Ensures d p v Q :=
  Engine.wp_mono h weaker

theorem ensures_read {s : Statement} (plain : s.plain = true) {Q : s.Reply → Store → Prop} :
    Ensures d (query s) v Q ↔ ∀ reply, Q reply v := by
  simp only [Ensures, query, Program.perform, Engine.wp, postgres, plain, if_true, forall_const]

theorem ensures_query {s : Statement} (locked : s.plain = false) {Q : s.Reply → Store → Prop} :
    Ensures d (query s) v Q ↔ ∀ reply ws, s.exec v = .ok (reply, ws) →
      Q reply (postgres.view v ws) := by
  simp only [Ensures, query, Program.perform, Engine.wp, postgres, locked,
    Bool.false_eq_true, if_false]

theorem Store.Fades.revoke {row : RefreshToken}
    (found : d.refreshTokens.get? tokenHash = some row) :
    d.Fades (d.write (.token (row.revoke now))) := by
  refine ⟨rfl, rfl, fun other => ?_⟩
  have keyEq : (row.revoke now).tokenHash = tokenHash :=
    (Table.get?_key found : row.tokenHash = tokenHash)
  simp only [Store.write, Table.get?_put, keyEq]
  split
  · subst other
    exact found ▸ .revoked
  · exact .same

theorem Store.Fades.delete : d.Fades (d.write (.deleteToken tokenHash)) := by
  refine ⟨rfl, rfl, fun other => ?_⟩
  simp only [Store.write, Table.get?_remove]
  split
  · cases d.refreshTokens.get? other with
    | none => exact .same
    | some row => exact .deleted
  · exact .same

theorem ensures_revokeIfActive {Q : Nat → Store → Prop}
    (rest : ∀ count v', v.Fades v' → Q count v') :
    Ensures (α := Nat) d (query (.revokeIfActive tokenHash now)) v Q := by
  refine (ensures_query rfl).mpr fun count ws exec => rest count _ ?_
  rcases exec_revokeIfActive exec with ⟨rfl, _⟩ | ⟨row, found, _, rfl⟩
  · exact .refl v
  · exact .revoke found

theorem ensures_revokeEach (hashes : List String) :
    Ensures d (revokeEach now hashes) v fun _ v' => v.Fades v' := by
  induction hashes generalizing v with
  | nil => exact .refl v
  | cons tokenHash rest ih =>
    refine ensures_bind.mpr (ensures_revokeIfActive fun _ v₁ first =>
      ensures_bind.mpr (ih.mono fun _ v₂ later => ?_))
    exact first.trans later

theorem ensures_deleteEach (hashes : List String) :
    Ensures d (deleteEach hashes) v fun _ v' => v.Fades v' := by
  induction hashes generalizing v with
  | nil => exact .refl v
  | cons tokenHash rest ih =>
    refine ensures_bind.mpr ((ensures_query rfl).mpr fun count ws exec =>
      ensures_bind.mpr (ih.mono fun _ v₂ later => ?_))
    refine Store.Fades.trans ?_ later
    rcases exec_deleteToken exec with rfl | rfl
    · exact .refl v
    · exact .delete

theorem Store.Fades.revoke_keeps {row : RefreshToken} {other : String}
    (gone : (d.write (.token (row.revoke now))).refreshTokens.get? other = none) :
    d.refreshTokens.get? other = none := by
  simp only [Store.write, Table.get?_put] at gone
  split at gone
  · cases gone
  · exact gone

/-- An eviction revokes, and deletes nothing. -/
theorem ensures_evictOldest {userId : UserId} {maxSessions count tie : Nat} :
    Ensures d (AuthRepository.evictOldest userId maxSessions count tie) v fun _ v' => v.Fades v' ∧
      ∀ other, v'.refreshTokens.get? other = none → v.refreshTokens.get? other = none := by
  unfold AuthRepository.evictOldest
  split
  · refine ensures_bind.mpr ((ensures_read rfl).mpr fun now =>
      ensures_bind.mpr ((ensures_read rfl).mpr fun found => ?_))
    cases found with
    | none => exact ⟨.refl v, fun _ => id⟩
    | some oldest =>
      refine ensures_bind.mpr ((ensures_read rfl).mpr fun now =>
        ensures_bind.mpr ((ensures_query rfl).mpr ?_))
      intro done ws exec
      obtain ⟨row, found, rfl⟩ := exec_revokeSession.mp exec
      exact ⟨.revoke found, fun _ => Store.Fades.revoke_keeps⟩
  · exact ⟨.refl v, fun _ => id⟩

theorem Store.Fades.effect {c : TxCall} {d' : Store} (fades : d.Fades d')
    (creates : c.creates = none) (rotates : c.rotates = none) : c.Effect d d' where
  now := Nat.le_of_eq fades.now.symm
  active userId _ := by simp only [Store.Active, fades.users, imp_self]
  fades tokenHash _ := fades.tokens tokenHash
  created data same := by simp [creates] at same
  rotated tokenHash same := by simp [rotates] at same

/-- The user's row changes, then tokens fade. -/
theorem effect_of_patch {c : TxCall} {d' : Store} {id : UserId} {user : User} {patch : AccountPatch}
    (found : d.users.get? id = some user) (fades : (d.write (.user (patch.apply user))).Fades d')
    (creates : c.creates = none) (rotates : c.rotates = none)
    (status : ∀ status, patch.status = some status → status ≠ .active → c.deactivates id) :
    c.Effect d d' where
  now := Nat.le_of_eq fades.now.symm
  active userId stays := by
    rintro ⟨old, present, active⟩
    have keyEq : (patch.apply user).id = id := (Table.get?_key found : user.id = id)
    simp only [Store.Active, fades.users, Store.write, Table.get?_put, keyEq]
    by_cases here : userId = id
    · subst here
      cases found.symm.trans present
      refine ⟨_, if_pos rfl, ?_⟩
      cases set : patch.status with
      | none => simpa [AccountPatch.apply, set] using active
      | some value =>
        have kept : value = .active := by
          by_contra other
          exact stays (status value set other)
        simp [AccountPatch.apply, set, kept]
    · exact ⟨old, by rw [if_neg here, present], active⟩
  fades tokenHash _ := fades.tokens tokenHash
  created data same := by simp [creates] at same
  rotated tokenHash same := by simp [rotates] at same

/-- A new token comes in after others have faded. -/
theorem Store.Fades.create {c : TxCall} {d₁ : Store} {data : NewToken} (fades : d.Fades d₁)
    (absent : d.refreshTokens.get? data.tokenHash = none) (creates : c.creates = some data)
    (rotated : ∀ tokenHash, c.rotates = some tokenHash →
      ∃ row now, d.refreshTokens.get? tokenHash = some row ∧
      row.revokedAt = none ∧ d₁.refreshTokens.get? tokenHash = some (row.revoke now)) :
    c.Effect d (d₁.write (.token data.row)) where
  now := Nat.le_of_eq fades.now.symm
  active userId _ := by simp only [Store.Active, Store.write, fades.users, imp_self]
  fades tokenHash other := by
    simp only [Store.write, Table.get?_put]
    rw [if_neg fun same => other data creates same.symm]
    exact fades.tokens tokenHash
  created data' same := by
    cases creates.symm.trans same
    exact ⟨absent, by simp [Store.write, NewToken.row]⟩
  rotated tokenHash same := by
    obtain ⟨row, now, found, unrevoked, after⟩ := rotated tokenHash same
    refine ⟨row, now, found, unrevoked, ?_⟩
    simp only [Store.write, Table.get?_put]
    rw [if_neg, after]
    intro here
    rw [show tokenHash = data.tokenHash from here] at found
    simp [absent] at found

/-- What every transaction does, however old its plain reads are. -/
theorem TxCall.effect (c : TxCall) (d : Store) : Ensures d c.code d fun _ d' => c.Effect d d' := by
  cases c with
  | createUserWithWallet data id createdAt =>
    refine (ensures_query rfl).mpr fun done ws exec => ?_
    obtain ⟨fresh, _, rfl⟩ := exec_createUser.mp exec
    refine ⟨Nat.le_refl _, ?_, fun _ _ => .same, fun _ creates =>
      absurd creates (by simp [TxCall.creates]),
      fun _ rotates => absurd rotates (by simp [TxCall.rotates])⟩
    rintro userId _ ⟨user, found, active⟩
    refine ⟨user, ?_, active⟩
    have different : userId ≠ id := by
      rintro rfl
      simp [fresh] at found
    simp [postgres, Store.write, different, found]
  | rotateRefreshToken oldTokenHash data =>
    refine ensures_bind.mpr ((ensures_read rfl).mpr fun now =>
      ensures_bind.mpr ((ensures_query rfl).mpr ?_))
    intro done ws exec
    obtain ⟨row, found, unrevoked, rfl⟩ := exec_revokeActive.mp exec
    refine (ensures_query rfl).mpr fun done ws exec => ?_
    obtain ⟨fresh, rfl⟩ := exec_createToken.mp exec
    have keyEq : (row.revoke now).tokenHash = oldTokenHash :=
      (Table.get?_key found : row.tokenHash = oldTokenHash)
    refine Store.Fades.create (.revoke found) (Store.Fades.revoke_keeps fresh) rfl
      fun tokenHash same => ?_
    obtain rfl : oldTokenHash = tokenHash := Option.some.inj same
    exact ⟨row, now, found, unrevoked, by simp [postgres, Store.write, keyEq]⟩
  | createSessionAtomic data maxSessions tie =>
    refine ensures_bind.mpr ((ensures_query rfl).mpr fun done ws exec => ?_)
    cases exec
    refine ensures_bind.mpr ((ensures_read rfl).mpr fun now =>
      ensures_bind.mpr ((ensures_read rfl).mpr fun count => ?_))
    refine ensures_bind.mpr (ensures_evictOldest.mono fun evicted d₁ after => ensures_bind.mpr ?_)
    refine (ensures_query rfl).mpr fun done ws exec => ?_
    obtain ⟨fresh, rfl⟩ := exec_createToken.mp exec
    exact after.1.create (after.2 _ fresh) rfl fun _ rotates =>
      absurd rotates (by simp [TxCall.rotates])
  | revokeRefreshToken tokenHash =>
    refine ensures_bind.mpr ((ensures_read rfl).mpr fun now =>
      ensures_revokeIfActive fun _ d' fades => ?_)
    exact fades.effect rfl rfl
  | revokeAllUserTokens userId =>
    refine ensures_bind.mpr ((ensures_read rfl).mpr fun now =>
      ensures_bind.mpr ((ensures_read rfl).mpr fun found => ?_))
    exact (ensures_revokeEach found).mono fun _ d' fades => fades.effect rfl rfl
  | updatePasswordAndRevokeSessions id hashedPassword =>
    refine ensures_bind.mpr ((ensures_read rfl).mpr fun now =>
      ensures_bind.mpr ((ensures_query rfl).mpr ?_))
    intro done ws exec
    obtain ⟨user, found, rfl⟩ := exec_updateUser.mp exec
    refine ensures_bind.mpr ((ensures_read rfl).mpr fun hashes => ensures_bind.mpr ?_)
    refine (ensures_revokeEach hashes).mono fun _ d' fades => ?_
    exact effect_of_patch found fades rfl rfl fun _ status => absurd status (by simp)
  | updateStatusOrRole id status role =>
    refine (ensures_query rfl).mpr fun done ws exec => ?_
    obtain ⟨user, found, rfl⟩ := exec_updateUser.mp exec
    refine effect_of_patch found (.refl _) rfl rfl ?_
    rintro value rfl other
    simp [TxCall.deactivates, other]
  | closeAccount userId wallet =>
    have closes : Ensures d ((query (.updateUser userId { status := some .closed })).bind fun _ =>
        (query .newDate).bind fun now => (query (.findUnrevoked userId)).bind fun found =>
          (revokeEach now found).bind fun _ => .pure ()) d fun _ d' =>
            (TxCall.closeAccount userId wallet).Effect d d' := by
      refine ensures_bind.mpr ((ensures_query rfl).mpr fun done ws exec => ?_)
      obtain ⟨user, found, rfl⟩ := exec_updateUser.mp exec
      refine ensures_bind.mpr ((ensures_read rfl).mpr fun now =>
        ensures_bind.mpr ((ensures_read rfl).mpr fun hashes => ?_))
      refine ensures_bind.mpr ((ensures_revokeEach hashes).mono fun _ d' fades => ?_)
      exact effect_of_patch found fades rfl rfl fun _ _ _ => by simp [TxCall.deactivates]
    cases wallet with
    | none => exact closes
    | some wallet =>
      simp only [TxCall.code, UsersRepository.closeAccount]
      split
      · trivial
      · exact closes
  | deleteExpiredBatch batchSize first =>
    refine ensures_bind.mpr ((ensures_read rfl).mpr fun now =>
      ensures_bind.mpr ((ensures_read rfl).mpr fun found => ?_))
    exact (ensures_deleteEach _).mono fun _ d' fades => fades.effect rfl rfl
  | tick elapsed =>
    refine (ensures_query rfl).mpr fun done ws exec => ?_
    cases exec
    exact ⟨Nat.le_add_right _ _, fun _ _ => id, fun _ _ => .same, fun _ creates =>
      absurd creates (by simp [TxCall.creates]),
      fun _ rotates => absurd rotates (by simp [TxCall.rotates])⟩

end Ensures
end PaymentWallet.Sessions
