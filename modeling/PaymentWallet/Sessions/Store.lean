import PaymentWallet.Concurrency.Locks
import Mathlib.Data.List.MinMax

/-! The users and refresh tokens that the auth module works on, and the statements
that its transactions issue. A refresh token is kept by its hash, which is unique
and never changes. `now` is the clock of the instances and of the database. -/
namespace PaymentWallet
open Foundation

/-- Not revoked and not expired. -/
def RefreshToken.active (row : RefreshToken) (now : DateTime) : Bool :=
  row.revokedAt.isNone && now < row.expiresAt

namespace Sessions

structure Store where
  now : DateTime
  users : Table User UserId User.id
  refreshTokens : Table RefreshToken String RefreshToken.tokenHash

def Store.empty : Store := ⟨0, .empty, .empty⟩

/-- Columns of a user that the auth and user services update. -/
structure AccountPatch where
  status : Option AccountStatus := none
  role : Option Role := none
  password : Option String := none
deriving DecidableEq

def AccountPatch.apply (patch : AccountPatch) (user : User) : User :=
  { user with
    status := patch.status.getD user.status
    role := patch.role.getD user.role
    password := patch.password.getD user.password }

/-- `orderBy: { createdAt: 'asc' }`; the database breaks ties as it likes. -/
def oldest (rows : List RefreshToken) (tie : Nat) : Option RefreshToken :=
  let first := rows.filter fun row => rows.all fun other => row.createdAt ≤ other.createdAt
  first[tie % first.length]?

theorem oldest_mem {rows : List RefreshToken} {tie : Nat} {row : RefreshToken}
    (chosen : oldest rows tie = some row) : row ∈ rows :=
  (List.mem_filter.mp (List.mem_of_getElem? chosen)).1

/-- Some row is as old as any. -/
theorem oldest_none {rows : List RefreshToken} {tie : Nat} (missing : oldest rows tie = none) :
    rows = [] := by
  by_contra there
  cases first : rows.argmin RefreshToken.createdAt with
  | none => exact there (List.argmin_eq_none.mp first)
  | some row =>
    have member : row ∈ rows.filter fun row => rows.all fun other =>
        row.createdAt ≤ other.createdAt := by
      refine List.mem_filter.mpr ⟨List.argmin_mem first, List.all_eq_true.mpr fun other there => ?_⟩
      exact decide_eq_true (List.le_of_mem_argmin there first)
    have positive := List.length_pos_of_mem member
    have bound := Nat.mod_lt tie positive
    exact absurd (List.getElem?_eq_none_iff.mp missing) (Nat.not_le.mpr bound)

/-- The first five are plain reads. `findUnrevoked` and `findExpired` are the scans
of an `UPDATE` and a `DELETE` of many rows, which then lock the rows one by one. -/
inductive Statement where
  | newDate
  | count (userId : UserId) (now : DateTime)
  | findOldest (userId : UserId) (now : DateTime) (tie : Nat)
  | findUnrevoked (userId : UserId)
  | findExpired (now : DateTime)
  | advisoryLock (userId : UserId)
  | revokeActive (tokenHash : String) (now : DateTime)
  | revokeIfActive (tokenHash : String) (now : DateTime)
  | revokeSession (tokenHash : String) (now : DateTime)
  | createToken (row : RefreshToken)
  | deleteToken (tokenHash : String)
  | createUser (row : User)
  | updateUser (id : UserId) (patch : AccountPatch)
  | advance (elapsed : Nat)

@[reducible] def Statement.Reply : Statement → Type
  | .newDate => DateTime
  | .count .. | .revokeIfActive .. | .deleteToken _ => Nat
  | .findOldest .. => Option String
  | .findUnrevoked _ | .findExpired _ => List String
  | _ => Unit

def Statement.plain : Statement → Bool
  | .newDate | .count .. | .findOldest .. | .findUnrevoked _ | .findExpired _ => true
  | _ => false

inductive Write where
  | user (row : User)
  | token (row : RefreshToken)
  | deleteToken (tokenHash : String)
  | advance (elapsed : Nat)

def Store.write (d : Store) : Write → Store
  | .user row => { d with users := d.users.put row }
  | .token row => { d with refreshTokens := d.refreshTokens.put row }
  | .deleteToken tokenHash => { d with refreshTokens := d.refreshTokens.remove tokenHash }
  | .advance elapsed => { d with now := d.now + elapsed }

/-- Row locks, entries of unique indexes, and advisory locks by the digits that
`createSessionAtomic` takes from the user's id. -/
inductive LockKey where
  | user (id : UserId)
  | userIndex (entry : String × String)
  | token (tokenHash : String)
  | advisory (digits : String)
  | clock
deriving DecidableEq

/-- `substring(replace(userId, '-', ''), 1, 16)`. -/
def lockDigits (userId : UserId) : String :=
  String.ofList ((userId.toList.filter (· ≠ '-')).take 16)

def Store.activeTokens (d : Store) (userId : UserId) (now : DateTime) : List RefreshToken :=
  d.refreshTokens.rows.filter fun row => row.userId = userId && row.active now

def Statement.exec : (s : Statement) → Store → Except Exception (s.Reply × List Write)
  | .newDate, d => .ok (d.now, [])
  | .count userId now, d => .ok ((d.activeTokens userId now).length, [])
  | .findOldest userId now tie, d =>
    .ok ((oldest (d.activeTokens userId now) tie).map (·.tokenHash), [])
  | .findUnrevoked userId, d =>
    .ok ((d.refreshTokens.rows.filter fun row =>
      row.userId = userId && row.revokedAt.isNone).map (·.tokenHash), [])
  | .findExpired now, d =>
    .ok ((d.refreshTokens.rows.filter fun row => row.expiresAt < now).map (·.tokenHash), [])
  | .advisoryLock _, _ => .ok ((), [])
  | .revokeActive tokenHash now, d =>
    match d.refreshTokens.get? tokenHash with
    | none => .error .recordNotFound
    | some row =>
      if row.revokedAt.isNone then .ok ((), [.token (row.revoke now)]) else .error .recordNotFound
  | .revokeIfActive tokenHash now, d =>
    match d.refreshTokens.get? tokenHash with
    | none => .ok (0, [])
    | some row => if row.revokedAt.isNone then .ok (1, [.token (row.revoke now)]) else .ok (0, [])
  | .revokeSession tokenHash now, d =>
    match d.refreshTokens.get? tokenHash with
    | none => .error .recordNotFound
    | some row => .ok ((), [.token (row.revoke now)])
  | .createToken row, d =>
    if (d.refreshTokens.get? row.tokenHash).isSome then .error (.uniqueViolation "tokenHash")
    else .ok ((), [.token row])
  | .deleteToken tokenHash, d =>
    match d.refreshTokens.get? tokenHash with
    | none => .ok (0, [])
    | some _ => .ok (1, [.deleteToken tokenHash])
  | .createUser row, d =>
    if (d.users.get? row.id).isSome then .error (.uniqueViolation "id")
    else match row.index.find? fun entry => d.users.Has User.index entry with
      | some entry => .error (.uniqueViolation entry.1)
      | none => .ok ((), [.user row])
  | .updateUser id patch, d =>
    match d.users.get? id with
    | none => .error .recordNotFound
    | some row => .ok ((), [.user (patch.apply row)])
  | .advance elapsed, _ => .ok ((), [.advance elapsed])

def Statement.keys : Statement → Store → List LockKey
  | .newDate, _ | .count .., _ | .findOldest .., _ | .findUnrevoked _, _ | .findExpired _, _ => []
  | .advisoryLock userId, _ => [.advisory (lockDigits userId)]
  | .revokeActive tokenHash _, _ | .revokeIfActive tokenHash _, _ | .revokeSession tokenHash _, _ =>
    [.token tokenHash]
  | .createToken row, _ => [.token row.tokenHash]
  | .deleteToken tokenHash, _ => [.token tokenHash]
  | .createUser row, _ => .user row.id :: row.index.map .userIndex
  | .updateUser id _, _ => [.user id]
  | .advance _, _ => [.clock]

/-- Postgres at READ COMMITTED, for these statements. -/
def postgres : Engine Store Write Statement Statement.Reply LockKey Exception where
  apply := Store.write
  exec := Statement.exec
  plain := Statement.plain
  keys := Statement.keys

theorem postgres_unread {s : Statement} {d : Store} {reply : s.Reply} {ws : List Write}
    (plain : s.plain = true) (exec : s.exec d = .ok (reply, ws)) : ws = [] := by
  cases s with
  | newDate | count | findOldest | findUnrevoked | findExpired =>
    cases exec
    rfl
  | _ => cases plain

section Replies
variable {d : Store} {tokenHash : String} {now : DateTime} {ws : List Write}
  {done : Unit} {count : Nat}

theorem exec_revokeActive : (Statement.revokeActive tokenHash now).exec d = .ok (done, ws) ↔
    ∃ row, d.refreshTokens.get? tokenHash = some row ∧ row.revokedAt = none ∧
      ws = [.token (row.revoke now)] := by
  simp only [Statement.exec]
  cases d.refreshTokens.get? tokenHash with
  | none => simp
  | some row => cases revoked : row.revokedAt <;> simp [eq_comm, revoked]

theorem exec_revokeIfActive
    (exec : (Statement.revokeIfActive tokenHash now).exec d = .ok (count, ws)) :
    (ws = [] ∧ ∀ row, d.refreshTokens.get? tokenHash = some row → row.revokedAt.isSome) ∨
      ∃ row, d.refreshTokens.get? tokenHash = some row ∧ row.revokedAt = none ∧
        ws = [.token (row.revoke now)] := by
  simp only [Statement.exec] at exec
  cases found : d.refreshTokens.get? tokenHash with
  | none =>
    simp only [found, Except.ok.injEq, Prod.mk.injEq] at exec
    exact .inl ⟨exec.2.symm, nofun⟩
  | some row =>
    cases revoked : row.revokedAt with
    | none =>
      simp only [found, revoked, Option.isNone_none, if_true, Except.ok.injEq,
        Prod.mk.injEq] at exec
      exact .inr ⟨row, rfl, revoked, exec.2.symm⟩
    | some time =>
      simp only [found, revoked, Option.isNone_some, Bool.false_eq_true, if_false, Except.ok.injEq,
        Prod.mk.injEq] at exec
      refine .inl ⟨exec.2.symm, fun other same => ?_⟩
      cases same
      simp [revoked]

theorem exec_revokeSession : (Statement.revokeSession tokenHash now).exec d = .ok (done, ws) ↔
    ∃ row, d.refreshTokens.get? tokenHash = some row ∧ ws = [.token (row.revoke now)] := by
  simp only [Statement.exec]
  cases d.refreshTokens.get? tokenHash <;> simp [eq_comm]

theorem exec_createToken {row : RefreshToken} :
    (Statement.createToken row).exec d = .ok (done, ws) ↔
    d.refreshTokens.get? row.tokenHash = none ∧ ws = [.token row] := by
  simp only [Statement.exec]
  cases d.refreshTokens.get? row.tokenHash <;> simp [eq_comm]

theorem exec_deleteToken (exec : (Statement.deleteToken tokenHash).exec d = .ok (count, ws)) :
    ws = [] ∨ ws = [.deleteToken tokenHash] := by
  simp only [Statement.exec] at exec
  cases found : d.refreshTokens.get? tokenHash with
  | none =>
    simp only [found, Except.ok.injEq, Prod.mk.injEq] at exec
    exact .inl exec.2.symm
  | some row =>
    simp only [found, Except.ok.injEq, Prod.mk.injEq] at exec
    exact .inr exec.2.symm

theorem exec_createUser {row : User} : (Statement.createUser row).exec d = .ok (done, ws) ↔
    d.users.get? row.id = none ∧ (∀ entry ∈ row.index, ¬ d.users.Has User.index entry) ∧
      ws = [.user row] := by
  simp only [Statement.exec]
  cases d.users.get? row.id with
  | some old => simp
  | none =>
    simp only [Option.isSome_none, Bool.false_eq_true, if_false, true_and]
    cases taken : row.index.find? fun entry => decide (d.users.Has User.index entry) with
    | some entry =>
      have member := List.mem_of_find?_eq_some taken
      have has : d.users.Has User.index entry := by simpa using List.find?_some taken
      simp only [reduceCtorEq, false_iff]
      exact fun h => h.1 entry member has
    | none =>
      have free : ∀ entry ∈ row.index, ¬ d.users.Has User.index entry := by simpa using taken
      simp only [Except.ok.injEq, Prod.mk.injEq, true_and]
      exact ⟨fun h => ⟨free, h.symm⟩, fun h => h.2.symm⟩

theorem exec_updateUser {id : UserId} {patch : AccountPatch} :
    (Statement.updateUser id patch).exec d = .ok (done, ws) ↔
    ∃ row, d.users.get? id = some row ∧ ws = [.user (patch.apply row)] := by
  simp only [Statement.exec]
  cases d.users.get? id <;> simp [eq_comm]

end Replies

section Locks

/-- Two stores agree on what a lock key protects. -/
def LockKey.Same : LockKey → Store → Store → Prop
  | .user id, d, d' => d.users.get? id = d'.users.get? id
  | .userIndex entry, d, d' =>
    ∀ id, d.users.Carries User.index entry id ↔ d'.users.Carries User.index entry id
  | .token tokenHash, d, d' => d.refreshTokens.get? tokenHash = d'.refreshTokens.get? tokenHash
  | .advisory _, _, _ | .clock, _, _ => True

theorem LockKey.same_equivalence (k : LockKey) : Equivalence k.Same := by
  cases k with
  | user | token => exact ⟨fun _ => rfl, Eq.symm, Eq.trans⟩
  | userIndex =>
    exact ⟨fun _ _ => Iff.rfl, fun h id => (h id).symm, fun h h' id => (h id).trans (h' id)⟩
  | advisory | clock => exact ⟨fun _ => trivial, fun _ => trivial, fun _ _ => trivial⟩

theorem LockKey.Same.write {k : LockKey} (same : k.Same d d') (w : Write) :
    k.Same (d.write w) (d'.write w) := by
  cases w <;> cases k <;> first
    | exact same
    | (simp only [LockKey.Same, Store.write, Table.get?_put, Table.get?_remove,
      Table.carries_put] at same ⊢
       simp only [same, implies_true])

theorem LockKey.Same.view {k : LockKey} (same : k.Same d d') (ws : List Write) :
    k.Same (postgres.view d ws) (postgres.view d' ws) := by
  induction ws generalizing d d' with
  | nil => exact same
  | cons w ws ih => exact ih (same.write w)

variable {s : Statement} {d d' : Store} {reply : s.Reply} {ws : List Write}

theorem exec_same (locked : s.plain = false) (exec : s.exec d = .ok (reply, ws))
    (same : ∀ k ∈ s.keys d, k.Same d d') : s.exec d' = .ok (reply, ws) := by
  have token : ∀ h, .token h ∈ s.keys d → d.refreshTokens.get? h = d'.refreshTokens.get? h :=
    fun _ held => same _ held
  have user : ∀ id, .user id ∈ s.keys d → d.users.get? id = d'.users.get? id :=
    fun _ held => same _ held
  cases s with
  | newDate | count | findOldest | findUnrevoked | findExpired => cases locked
  | advisoryLock | advance => exact exec
  | revokeActive tokenHash now =>
    simpa only [Statement.exec, token tokenHash (by simp [Statement.keys])] using exec
  | revokeIfActive tokenHash now =>
    simpa only [Statement.exec, token tokenHash (by simp [Statement.keys])] using exec
  | revokeSession tokenHash now =>
    simpa only [Statement.exec, token tokenHash (by simp [Statement.keys])] using exec
  | createToken row =>
    simpa only [Statement.exec, token row.tokenHash (by simp [Statement.keys])] using exec
  | deleteToken tokenHash =>
    simpa only [Statement.exec, token tokenHash (by simp [Statement.keys])] using exec
  | updateUser id patch =>
    simpa only [Statement.exec, user id (by simp [Statement.keys])] using exec
  | createUser row =>
    rw [exec_createUser] at exec ⊢
    refine ⟨user row.id (by simp [Statement.keys]) ▸ exec.1, fun entry member => ?_, exec.2.2⟩
    rw [← Table.has_congr (same (.userIndex entry) (by simp [Statement.keys, member]))]
    exact exec.2.1 entry member

theorem keys_same {s : Statement} : s.keys d' = s.keys d := by
  cases s <;> rfl

theorem write_local {k : LockKey} (locked : s.plain = false) (exec : s.exec d = .ok (reply, ws))
    (free : k ∉ s.keys d) : k.Same d (postgres.view d ws) := by
  have stay := k.same_equivalence.refl d
  have token : ∀ {row : RefreshToken}, .token row.tokenHash ∈ s.keys d →
      k.Same d (postgres.view d [.token row]) := by
    intro row held
    cases k with
    | token other => exact get?_put_other fun same => free (same ▸ held)
    | _ => exact stay
  cases s with
  | newDate | count | findOldest | findUnrevoked | findExpired => cases locked
  | advisoryLock =>
    cases exec
    exact stay
  | advance =>
    cases exec
    cases k <;> exact stay
  | revokeActive tokenHash now =>
    obtain ⟨row, found, _, rfl⟩ := exec_revokeActive.mp exec
    exact token (by simp [Statement.keys, RefreshToken.revoke, Table.get?_key found])
  | revokeIfActive tokenHash now =>
    rcases exec_revokeIfActive exec with ⟨rfl, _⟩ | ⟨row, found, _, rfl⟩
    · exact stay
    · exact token (by simp [Statement.keys, RefreshToken.revoke, Table.get?_key found])
  | revokeSession tokenHash now =>
    obtain ⟨row, found, rfl⟩ := exec_revokeSession.mp exec
    exact token (by simp [Statement.keys, RefreshToken.revoke, Table.get?_key found])
  | createToken row =>
    obtain ⟨_, rfl⟩ := exec_createToken.mp exec
    exact token (by simp [Statement.keys])
  | deleteToken tokenHash =>
    rcases exec_deleteToken exec with rfl | rfl
    · exact stay
    · cases k with
      | token other =>
        have different : other ≠ tokenHash := fun same => free (by simp [Statement.keys, same])
        simp [LockKey.Same, postgres, Store.write, different]
      | _ => exact stay
  | createUser row =>
    obtain ⟨fresh, _, rfl⟩ := exec_createUser.mp exec
    cases k with
    | user other => exact get?_put_other fun same => free (by simp [Statement.keys, same])
    | userIndex entry =>
      exact carries_put_fresh fresh fun member => free (by simp [Statement.keys, member])
    | _ => exact stay
  | updateUser id patch =>
    obtain ⟨row, found, rfl⟩ := exec_updateUser.mp exec
    have keyEq : (patch.apply row).id = id := (Table.get?_key found : row.id = id)
    cases k with
    | user other => exact get?_put_other fun same => free (by simp [Statement.keys, same, keyEq])
    | userIndex entry => exact carries_put_old (Table.get?_of_same found rfl) Iff.rfl
    | _ => exact stay

theorem postgres_locking : postgres.Locking LockKey.Same where
  equivalence := LockKey.same_equivalence
  exec_same := exec_same
  keys_same := fun _ _ _ => keys_same
  write_local := write_local
  write_same := fun _ _ _ same => same.view _

/-- Nothing that a plain read returns is relied on later. -/
theorem postgres_stability :
    postgres.Stability (fun _ => True) (fun _ _ _ => True) (fun _ _ => True) := by
  constructor <;> intros <;> trivial

end Locks
end Sessions
end PaymentWallet
