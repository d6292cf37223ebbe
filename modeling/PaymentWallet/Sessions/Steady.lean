import PaymentWallet.Sessions.Settled
import PaymentWallet.Sessions.Swept

/-! What the bodies of the transactions read and lock, as far as it tells whether a cleanup
can make a difference to them. -/
namespace PaymentWallet.Sessions
open Foundation

/-- The user whose sessions the transaction counts. -/
def TxCall.opens : TxCall → Option UserId
  | .createSessionAtomic data .. => some data.userId
  | _ => none

/-- The rest of a transaction that began at `since` or later and has chosen the session
`chosen` to evict. It dates the sessions it counts, and revokes either the chosen one, the
one it exchanges, or at its end whatever is there. -/
def Steady (c : TxCall) (since : DateTime) : Option String → Tx α → Prop
  | _, .pure _ | _, .throw _ => True
  | chosen, .call .newDate rest => ∀ now : DateTime, since ≤ now → Steady c since chosen (rest now)
  | chosen, .call (.count userId now) rest =>
    c.opens = some userId ∧ since ≤ now ∧ ∀ count, Steady c since chosen (rest count)
  | _, .call (.findOldest userId now _) rest => c.opens = some userId ∧ since ≤ now ∧
    ∀ oldest : Option String, Steady c since oldest (rest oldest)
  | _, .call (.findUnrevoked _) rest => c.ends ∧ ∃ (now : DateTime) (k : Nat → Tx α),
    (∀ found, rest found = (revokeEach now found).bind k) ∧ ∀ count, ∃ value, k count = .pure value
  | _, .call (.revokeIfActive ..) rest => c.ends ∧ ∀ count, ∃ value, rest count = .pure value
  | chosen, .call (.revokeActive tokenHash _) rest =>
    c.rotates = some tokenHash ∧ Steady c since chosen (rest ())
  | chosen, .call (.revokeSession tokenHash _) rest =>
    chosen = some tokenHash ∧ Steady c since chosen (rest ())
  | _, .call (.createToken row) rest =>
    c.creates.map NewToken.row = some row ∧ ∃ value, rest () = .pure value
  | _, .call (.findExpired _) _ | _, .call (.deleteToken _) _ => False
  | chosen, .call (.advisoryLock _) rest | chosen, .call (.createUser _) rest | chosen,
    .call (.updateUser ..) rest
  | chosen, .call (.advance _) rest => Steady c since chosen (rest ())

/-- The rest of the transaction counts no sessions as of a time before the token's end, and
has not chosen the token to evict. -/
def Overlooks (c : TxCall) (row : RefreshToken) (body : Tx α) : Prop :=
  ∃ chosen, chosen ≠ some row.tokenHash ∧ Steady c row.expiresAt chosen body

/-- The rest of a cleanup batch that has read the clock at `date`, and deletes `doomed` tokens. -/
def Purges : Option DateTime → List String → Tx α → Prop
  | _, _, .pure _ | _, _, .throw _ => True
  | _, doomed, .call .newDate rest => ∀ now : DateTime, Purges (some now) doomed (rest now)
  | date, _, .call (.findExpired now) rest =>
    date = some now ∧ ∀ found : List String, Purges date found (rest found)
  | date, doomed, .call (.deleteToken tokenHash) rest =>
    tokenHash ∈ doomed ∧ ∀ count, Purges date doomed (rest count)
  | _, _, .call _ _ => False

section Steady
variable {c : TxCall} {since : DateTime} {chosen : Option String}

theorem steady_closing {userId : UserId} (wallet : Option Balances) :
    Steady (.closeAccount userId wallet) since none (TxCall.closeAccount userId wallet).code := by
  have closes : Steady (.closeAccount userId wallet) since none
      ((query (.updateUser userId { status := some .closed })).bind
        fun _ => (query .newDate).bind fun now =>
        (query (.findUnrevoked userId)).bind fun found => (revokeEach now found).bind fun _ =>
          (.pure () : Tx Unit)) :=
    fun now _ => ⟨rfl, now, _, fun _ => rfl, fun _ => ⟨_, rfl⟩⟩
  cases wallet with
  | none => exact closes
  | some wallet =>
    simp only [TxCall.code, UsersRepository.closeAccount]
    split
    · trivial
    · exact closes

theorem steady_evicting {data : NewToken} {maxSessions count tie : Nat}
    (dated : c.opens = some data.userId) (creates : c.creates = some data) : Steady c since none
      ((AuthRepository.evictOldest data.userId maxSessions count tie).bind fun evicted =>
        (query (.createToken data.row)).bind fun _ => .pure evicted) := by
  have last : ∀ evicted chosen,
    Steady c since chosen ((query (.createToken data.row)).bind fun _ =>
    (.pure evicted : Tx (Option String))) :=
    fun evicted _ => ⟨by rw [creates]; rfl, evicted, rfl⟩
  unfold AuthRepository.evictOldest
  split
  · refine fun now later => ⟨dated, later, fun oldest => ?_⟩
    cases oldest with
    | none => exact last none none
    | some oldest => exact fun now _ => ⟨rfl, last (some oldest) (some oldest)⟩
  · exact last none none

/-- Every transaction but a batch of the cleanup. -/
theorem steady_code (keeps : c.sweeps = false) : Steady c since none c.code := by
  cases c with
  | createUserWithWallet | updateStatusOrRole | tick => trivial
  | rotateRefreshToken oldTokenHash data => exact fun now _ => ⟨rfl, rfl, (), rfl⟩
  | revokeRefreshToken => exact fun now _ => ⟨rfl, fun count => ⟨count, rfl⟩⟩
  | revokeAllUserTokens userId =>
    exact fun now _ => ⟨rfl, now, .pure, fun found => (Program.bind_pure _).symm,
      fun count => ⟨count, rfl⟩⟩
  | createSessionAtomic data maxSessions tie =>
    exact fun now later => ⟨rfl, later, fun count => steady_evicting rfl rfl⟩
  | updatePasswordAndRevokeSessions =>
    exact fun now _ => ⟨rfl, now, _, fun _ => rfl, fun _ => ⟨_, rfl⟩⟩
  | closeAccount userId wallet => exact steady_closing wallet
  | deleteExpiredBatch => cases keeps

/-- What is known of a transaction from two sides. -/
theorem Steady.both {since' : DateTime} {chosen' : Option String} {p : Tx α}
    (first : Steady c since chosen p)
    (second : Steady c since' chosen' p) :
    Steady c (max since since') (if chosen = chosen' then chosen else none) p := by
  induction p generalizing chosen chosen' with
  | pure value => trivial
  | throw error => trivial
  | call s rest ih =>
    cases s with
    | newDate =>
      exact fun now later =>
        ih now (first now (le_of_max_le_left later)) (second now (le_of_max_le_right later))
    | count =>
      exact ⟨first.1, max_le first.2.1 second.2.1, fun count =>
        ih count (first.2.2 count) (second.2.2 count)⟩
    | findOldest =>
      refine ⟨first.1, max_le first.2.1 second.2.1, fun oldest => ?_⟩
      simpa using ih oldest (first.2.2 oldest) (second.2.2 oldest)
    | findUnrevoked | revokeIfActive | createToken => exact first
    | revokeActive => exact ⟨first.1, ih () first.2 second.2⟩
    | revokeSession tokenHash =>
      refine ⟨?_, ih () first.2 second.2⟩
      rw [if_pos (first.1.trans second.1.symm)]
      exact first.1
    | findExpired | deleteToken => exact first.elim
    | advisoryLock | createUser | updateUser | advance => exact ih () first second

theorem lasting_revokeEach (now : DateTime) (hashes : List String) :
    (revokeEach now hashes).All Statement.lasting := by
  induction hashes with
  | nil => trivial
  | cons tokenHash rest ih => exact ⟨trivial, fun _ => ih.bind fun _ => trivial⟩

theorem Steady.lasting {p : Tx α} (steady : Steady c 0 chosen p) : p.All Statement.lasting := by
  induction p generalizing chosen with
  | pure value => trivial
  | throw error => trivial
  | call s rest ih =>
    cases s with
    | newDate => exact ⟨trivial, fun now => ih now (steady now (Nat.zero_le _))⟩
    | count => exact ⟨trivial, fun count => ih count (steady.2.2 count)⟩
    | findOldest => exact ⟨trivial, fun oldest => ih oldest (steady.2.2 oldest)⟩
    | findUnrevoked =>
      obtain ⟨_, now, k, same, ends⟩ := steady
      refine ⟨trivial, fun found => ?_⟩
      rw [same found]
      apply (lasting_revokeEach now found).bind
      intro count
      obtain ⟨value, returns⟩ := ends count
      exact returns ▸ trivial
    | revokeIfActive =>
      refine ⟨trivial, fun count => ?_⟩
      obtain ⟨value, returns⟩ := steady.2 count
      exact returns ▸ trivial
    | revokeActive | revokeSession => exact ⟨trivial, fun _ => ih () steady.2⟩
    | createToken =>
      obtain ⟨_, value, returns⟩ := steady
      exact ⟨trivial, fun _ => returns ▸ trivial⟩
    | findExpired | deleteToken => exact steady.elim
    | advisoryLock | createUser | updateUser | advance => exact ⟨trivial, fun _ => ih () steady⟩

theorem lasting_code (keeps : c.sweeps = false) : c.code.All Statement.lasting :=
  (steady_code keeps).lasting

end Steady

section Purges
variable {date : Option DateTime} {doomed : List String}

theorem Purges.bind {p : Tx α} {f : α → Tx β} (purges : Purges date doomed p)
    (rest : ∀ date doomed value, Purges date doomed (f value)) : Purges date doomed (p.bind f) := by
  induction p generalizing date doomed with
  | pure value => exact rest _ _ value
  | throw error => cases date <;> trivial
  | call s next ih =>
    cases s with
    | newDate => exact fun now => ih now (purges now)
    | findExpired => exact ⟨purges.1, fun found => ih found (purges.2 found)⟩
    | deleteToken => exact ⟨purges.1, fun count => ih count (purges.2 count)⟩
    | _ => exact purges.elim

theorem purges_deleteEach {hashes : List String} (sub : ∀ tokenHash ∈ hashes, tokenHash ∈ doomed) :
    Purges date doomed (deleteEach hashes) := by
  induction hashes with
  | nil => trivial
  | cons tokenHash rest ih =>
    rw [List.forall_mem_cons] at sub
    exact ⟨sub.1, fun _ => (ih sub.2).bind fun _ _ _ => trivial⟩

theorem purges_code {c : TxCall} (sweeps : c.sweeps) : Purges none [] c.code := by
  cases c with
  | deleteExpiredBatch batchSize first =>
    refine fun now => ⟨rfl, fun found => purges_deleteEach fun tokenHash member => ?_⟩
    have member := List.mem_of_mem_take member
    simp only [List.mem_append, List.mem_filter] at member
    exact member.elim And.left And.left
  | _ => cases sweeps

end Purges
end PaymentWallet.Sessions
