import PaymentWallet.Sessions.Identity

/-! The session cap. A creation counts the user's active sessions under his advisory lock,
and what it has counted may change beside it only by the rotations, which put one session
in the place of another. -/
namespace PaymentWallet.Sessions
open Foundation

/-- The user's sessions that are active as of the date, one spared. -/
def Store.sessions (d : Store) (userId : UserId) (date : DateTime) (spared : Option String) :
    List String :=
  ((d.activeTokens userId date).map (·.tokenHash)).filter fun tokenHash => spared ≠ some tokenHash

/-- No user has more active sessions than that. -/
def Within (d : Store) (maxSessions : Nat) : Prop :=
  ∀ userId, (d.activeTokens userId d.now).length ≤ maxSessions

/-- The next statement, but for a look at the clock, revokes the session. -/
def Evicts (tokenHash : String) : Tx α → Prop
  | .call .newDate rest => ∃ now next, rest now = .call (.revokeSession tokenHash now) next
  | .call (.revokeSession other _) _ => other = tokenHash
  | _ => False

/-- How far a creation has come. -/
inductive Progress where
  | fresh
  | locked
  | dated (now : DateTime)
  | full
  | looking (now : DateTime)
  | chosen (tokenHash : String)
  | evicting (tokenHash : String)
  | room (spared : Option String)
  | done (spared : Option String)

/-- The rest of a creation that has come so far. -/
def Fits (data : NewToken) (maxSessions : Nat) : Progress → Tx α → Prop
  | .fresh, .call (.advisoryLock userId) rest =>
    userId = data.userId ∧ Fits data maxSessions .locked (rest ())
  | .locked, .call .newDate rest => ∀ now : DateTime, Fits data maxSessions (.dated now) (rest now)
  | .dated now, .call (.count userId date) rest => userId = data.userId ∧ date = now ∧
    ∀ count : Nat, Fits data maxSessions (if count < maxSessions then .room none
      else .full) (rest count)
  | .full, .call .newDate rest => ∀ now : DateTime, Fits data maxSessions (.looking now) (rest now)
  | .looking now, .call (.findOldest userId date _) rest => userId = data.userId ∧ date = now ∧
    ∀ oldest : Option String, Fits data maxSessions (oldest.elim (.room none) .chosen) (rest oldest)
  | .chosen tokenHash, .call .newDate rest => ∀ now : DateTime,
    (∃ next, rest now = .call (.revokeSession tokenHash now) next) ∧
    Fits data maxSessions (.evicting tokenHash) (rest now)
  | .evicting tokenHash, .call (.revokeSession other _) rest =>
    other = tokenHash ∧ Fits data maxSessions (.room (some tokenHash)) (rest ())
  | .room spared, .call (.createToken row) rest =>
    row = data.row ∧ Fits data maxSessions (.done spared) (rest ())
  | .done _, .pure _ => True
  | _, _ => False

/-- There is room for one more session beside all but the spared one. -/
def Room (σ : SharedState) (userId : UserId) (maxSessions : Nat) (spared : Option String) : Prop :=
  (σ.db.sessions userId σ.db.now spared).length < maxSessions

/-- What is certain of a creation that has come so far. -/
def Progress.Holds (σ : SharedState) (userId : UserId) (maxSessions : Nat) (held : List LockKey)
    (writes : List Write) : Progress → Prop
  | .fresh => True
  | .locked | .full => .advisory (lockDigits userId) ∈ held
  | .dated now => .advisory (lockDigits userId) ∈ held ∧ now ≤ σ.db.now
  | .looking now =>
    .advisory (lockDigits userId) ∈ held ∧ now ≤ σ.db.now ∧
      (σ.db.sessions userId now none).length ≤ maxSessions
  | .chosen tokenHash | .evicting tokenHash =>
    .advisory (lockDigits userId) ∈ held ∧ Room σ userId maxSessions (some tokenHash)
  | .room spared | .done spared => .advisory (lockDigits userId) ∈ held ∧
    Room σ userId maxSessions spared ∧
    ∀ tokenHash, spared = some tokenHash → .token tokenHash ∈ held ∧ Closes tokenHash writes

section Counting
variable {d d' : Store} {c : TxCall} {userId : UserId} {date date' : DateTime}
  {spared : Option String} {tokenHash : String} {data : NewToken}

theorem mem_sessions : tokenHash ∈ d.sessions userId date spared ↔
    spared ≠ some tokenHash ∧ ∃ row, d.refreshTokens.get? tokenHash = some row ∧
      row.userId = userId ∧ row.active date := by
  simp only [Store.sessions, Store.activeTokens, List.mem_filter, List.mem_map,
    decide_eq_true_eq, Bool.and_eq_true]
  constructor
  · rintro ⟨⟨row, ⟨member, owner, active⟩, rfl⟩, other⟩
    exact ⟨other, row, Table.get?_of_mem member, owner, active⟩
  · rintro ⟨other, row, found, owner, active⟩
    obtain ⟨member, same⟩ := Table.get?_some.mp found
    exact ⟨⟨row, ⟨member, owner, active⟩, same⟩, other⟩

theorem sessions_nodup : (d.sessions userId date spared).Nodup :=
  (d.refreshTokens.keys_nodup.sublist (List.filter_sublist.map _)).filter _

theorem sessions_none :
    (d.sessions userId date none).length = (d.activeTokens userId date).length := by
  simp [Store.sessions]

theorem sessions_le (sub : ∀ tokenHash ∈ d'.sessions userId date' spared,
    tokenHash ∈ d.sessions userId date spared) :
    (d'.sessions userId date' spared).length ≤ (d.sessions userId date spared).length :=
  (List.subperm_of_subset sessions_nodup sub).length_le

theorem active_earlier {row : RefreshToken} (active : row.active date') (earlier : date ≤ date') :
    row.active date := by
  simp only [RefreshToken.active, Bool.and_eq_true, decide_eq_true_eq] at active ⊢
  exact ⟨active.1, earlier.trans_lt active.2⟩

theorem sessions_later (earlier : date ≤ date') :
    (d.sessions userId date' spared).length ≤ (d.sessions userId date spared).length := by
  apply sessions_le
  intro tokenHash member
  obtain ⟨other, row, found, owner, active⟩ := mem_sessions.mp member
  exact mem_sessions.mpr ⟨other, row, found, owner, active_earlier active earlier⟩

/-- What a commit has not created, and is active after it, was active before. -/
theorem TxCall.Effect.sessions (effect : c.Effect d d')
    (member : tokenHash ∈ d'.sessions userId date spared)
    (old : ∀ data, c.creates = some data → data.tokenHash ≠ tokenHash) :
    tokenHash ∈ d.sessions userId date spared := by
  obtain ⟨other, row, found, owner, active⟩ := mem_sessions.mp member
  have fades := effect.fades tokenHash old
  rw [found] at fades
  generalize before : d.refreshTokens.get? tokenHash = earlier at fades
  cases fades with
  | same => exact mem_sessions.mpr ⟨other, row, before, owner, active⟩
  | revoked => simp [RefreshToken.active, RefreshToken.revoke] at active

theorem TxCall.Effect.sessions_others (effect : c.Effect d d')
    (others : ∀ data, c.creates = some data → data.userId ≠ userId) :
    (d'.sessions userId date spared).length ≤ (d.sessions userId date spared).length := by
  refine sessions_le fun tokenHash member => effect.sessions member ?_
  rintro data creates rfl
  obtain ⟨_, row, found, owner, _⟩ := mem_sessions.mp member
  cases (effect.created data creates).2.symm.trans found
  exact others data creates owner

/-- A commit creates one session at most. -/
theorem TxCall.Effect.sessions_succ (effect : c.Effect d d') :
    (d'.sessions userId date spared).length ≤ (d.sessions userId date spared).length + 1 := by
  cases creates : c.creates with
  | none =>
    refine (effect.sessions_others ?_).trans (Nat.le_succ _)
    rintro _ created
    cases creates.symm.trans created
  | some data =>
    have sub : d'.sessions userId date spared ⊆
        data.tokenHash :: d.sessions userId date spared := by
      intro tokenHash member
      by_cases new : data.tokenHash = tokenHash
      · exact new ▸ List.mem_cons_self
      · refine List.mem_cons_of_mem _ (effect.sessions member ?_)
        rintro _ created
        cases creates.symm.trans created
        exact new
    exact (List.subperm_of_subset sessions_nodup sub).length_le

/-- A rotation puts a session in the place of one that counts. -/
theorem TxCall.Effect.sessions_rotated (effect : c.Effect d d') (creates : c.creates = some data)
    (rotates : c.rotates = some tokenHash) (there : tokenHash ∈ d.sessions userId date spared) :
    (d'.sessions userId date spared).length ≤ (d.sessions userId date spared).length := by
  have sub : d'.sessions userId date spared ⊆ data.tokenHash ::
      (d.sessions userId date spared).erase tokenHash := by
    intro other member
    by_cases new : data.tokenHash = other
    · exact new ▸ List.mem_cons_self
    · refine List.mem_cons_of_mem _ ((List.mem_erase_of_ne ?_).mpr (effect.sessions member ?_))
      · rintro rfl
        obtain ⟨row, now, _, _, revoked⟩ := effect.rotated other rotates
        obtain ⟨_, row', found, _, active⟩ := mem_sessions.mp member
        cases revoked.symm.trans found
        simp [RefreshToken.active, RefreshToken.revoke] at active
      · intro data' creates'
        cases creates.symm.trans creates'
        exact new
  have bound := (List.subperm_of_subset sessions_nodup sub).length_le
  have positive : 0 < (d.sessions userId date spared).length := List.length_pos_of_mem there
  rw [List.length_cons, List.length_erase_of_mem there] at bound
  omega

end Counting

/-- The commit creates no session for the user, or puts one in the
place of an active one that is not spared. -/
def Fair (σ : SharedState) (c : TxCall) (userId : UserId) (spared : Option String) : Prop :=
  (∀ data, c.creates = some data → data.userId ≠ userId) ∨
    ∃ data tokenHash, c.creates = some data ∧ c.rotates = some tokenHash ∧
      tokenHash ∈ σ.db.sessions userId σ.db.now spared

/-- The token is unexpired, and no open creation has chosen it for eviction. -/
def Exchangeable (w : State) (tokenHash : String) : Prop :=
  (∀ row, w.shared.db.refreshTokens.get? tokenHash = some row → w.shared.db.now < row.expiresAt) ∧
    ∀ pid request data maxSessions tie body writes held next,
      w.procs pid = some (request,
        .inTx (.createSessionAtomic data maxSessions tie) body writes held next) →
        ¬ Evicts tokenHash body

/-- A commit that exchanges a token finds it unexpired, and chosen for
eviction by no open creation. -/
def Punctual (w w' : State) : Prop :=
  ∀ tokenHash data, w'.shared.log = w.shared.log ++ [.rotateRefreshToken tokenHash data] →
    Exchangeable w tokenHash

/-- The user is below the limit, and no session is being created for him. -/
def Roomy (w : State) (userId : UserId) (maxSessions : Nat) : Prop :=
  (w.shared.db.activeTokens userId w.shared.db.now).length < maxSessions ∧
    ∀ pid request data maxSessions tie body writes held next,
      w.procs pid = some (request,
        .inTx (.createSessionAtomic data maxSessions tie) body writes held next) →
        data.userId ≠ userId

/-- A commit that exchanges a token finds it so, or its user with room for one more. -/
def Spacious (config : Config) (w w' : State) : Prop :=
  ∀ tokenHash data, w'.shared.log = w.shared.log ++ [.rotateRefreshToken tokenHash data] →
    Exchangeable w tokenHash ∨ Roomy w data.userId config.maxSessions

section Commits
variable {config : Config} {σ : SharedState} {c : TxCall} {d' : Store} {userId : UserId}
  {spared : Option String} {maxSessions : Nat} {held : List LockKey} {writes : List Write}

theorem Fair.sessions_le {date : DateTime} (fair : Fair σ c userId spared)
    (effect : c.Effect σ.db d') (earlier : date ≤ σ.db.now) :
    (d'.sessions userId date spared).length ≤ (σ.db.sessions userId date spared).length := by
  rcases fair with others | ⟨data, tokenHash, creates, rotates, there⟩
  · exact effect.sessions_others others
  · apply effect.sessions_rotated creates rotates
    obtain ⟨other, row, found, owner, active⟩ := mem_sessions.mp there
    exact mem_sessions.mpr ⟨other, row, found, owner, active_earlier active earlier⟩

theorem Fair.now_le (fair : Fair σ c userId spared) (effect : c.Effect σ.db d') :
    (d'.sessions userId d'.now spared).length ≤ (σ.db.sessions userId σ.db.now spared).length :=
  (sessions_later effect.now).trans (fair.sessions_le effect (Nat.le_refl _))

theorem Progress.Holds.same {σ' : SharedState} {progress : Progress}
    (holds : progress.Holds σ userId maxSessions held writes)
    (same : σ'.db = σ.db) : progress.Holds σ' userId maxSessions held writes := by
  cases progress with
  | fresh => trivial
  | _ => simpa only [Progress.Holds, Room, same] using holds

/-- What others commit leaves the room that a creation has counted on. -/
theorem Progress.Holds.commit {progress : Progress}
    (holds : progress.Holds σ userId maxSessions held writes)
    (effect : c.Effect σ.db d') (fair : ∀ spared, (∀ tokenHash, spared = some tokenHash →
      progress = .chosen tokenHash ∨ progress = .evicting tokenHash ∨ .token tokenHash ∈ held) →
      .advisory (lockDigits userId) ∈ held → Fair σ c userId spared) :
    progress.Holds (σ.commit c d') userId maxSessions held writes := by
  have room : ∀ {spared}, (∀ tokenHash, spared = some tokenHash →
      progress = .chosen tokenHash ∨ progress = .evicting tokenHash ∨ .token tokenHash ∈ held) →
      .advisory (lockDigits userId) ∈ held → Room σ userId maxSessions spared →
        Room (σ.commit c d') userId maxSessions spared :=
    fun chosen locked room => ((fair _ chosen locked).now_le effect).trans_lt room
  cases progress with
  | fresh | locked | full => exact holds
  | dated now => exact ⟨holds.1, holds.2.trans effect.now⟩
  | looking now =>
    obtain ⟨locked, past, counted⟩ := holds
    exact ⟨locked, past.trans effect.now,
      ((fair none (by rintro _ ⟨⟩) locked).sessions_le effect past).trans counted⟩
  | chosen tokenHash =>
    refine ⟨holds.1, room ?_ holds.1 holds.2⟩
    rintro _ ⟨⟩
    exact .inl rfl
  | evicting tokenHash =>
    refine ⟨holds.1, room ?_ holds.1 holds.2⟩
    rintro _ ⟨⟩
    exact .inr (.inl rfl)
  | room spared | done spared =>
    obtain ⟨locked, counted, mine⟩ := holds
    refine ⟨locked, room (fun tokenHash same => ?_) locked counted, mine⟩
    exact .inr (.inr (mine tokenHash same).1)

end Commits

section Statements
variable {σ : SharedState} {data : NewToken} {maxSessions : Nat} {held : List LockKey}
  {writes : List Write} {progress : Progress}
  {s : Statement} {rest : s.Reply → Tx α} {reply : s.Reply} {more : List Write}

/-- The session that is looked for is one of those that count. -/
theorem room_looked {userId : UserId} {now : DateTime} (tie : Nat) (positive : 1 ≤ maxSessions)
    (past : now ≤ σ.db.now) (counted : (σ.db.sessions userId now none).length ≤ maxSessions) :
    Room σ userId maxSessions ((oldest (σ.db.activeTokens userId now) tie).map (·.tokenHash)) := by
  apply (sessions_later past).trans_lt
  cases found : oldest (σ.db.activeTokens userId now) tie with
  | none =>
    rw [Option.map_none, sessions_none, oldest_none found]
    exact positive
  | some row =>
    have there : row.tokenHash ∈ σ.db.sessions userId now none := by
      simp only [Store.sessions, List.mem_filter, List.mem_map]
      exact ⟨⟨row, oldest_mem found, rfl⟩, by simp⟩
    have sub : σ.db.sessions userId now (some row.tokenHash) ⊆
        (σ.db.sessions userId now none).erase row.tokenHash := by
      intro other member
      obtain ⟨different, kept⟩ := mem_sessions.mp member
      refine (List.mem_erase_of_ne ?_).mpr (mem_sessions.mpr ⟨by simp, kept⟩)
      rintro rfl
      exact different rfl
    have bound := (List.subperm_of_subset sessions_nodup sub).length_le
    rw [List.length_erase_of_mem there] at bound
    have nonempty := List.length_pos_of_mem there
    rw [Option.map_some]
    omega

theorem Fits.read (fits : Fits data maxSessions progress (.call s rest))
    (holds : progress.Holds σ data.userId maxSessions held writes)
    (positive : 1 ≤ maxSessions) (within : Within σ.db maxSessions) (plain : s.plain = true)
    (exec : s.exec σ.db = .ok (reply, more)) :
    ∃ progress : Progress, Fits data maxSessions progress (rest reply) ∧
      progress.Holds σ data.userId maxSessions held writes := by
  cases s with
  | newDate =>
    cases exec
    cases progress with
    | locked => exact ⟨_, fits σ.db.now, holds, Nat.le_refl _⟩
    | full =>
      exact ⟨_, fits σ.db.now, holds, Nat.le_refl _, sessions_none.trans_le (within data.userId)⟩
    | chosen tokenHash => exact ⟨_, (fits σ.db.now).2, holds⟩
    | _ => exact fits.elim
  | count userId now =>
    cases exec
    cases progress with
    | dated date =>
      obtain ⟨rfl, rfl, fits⟩ := fits
      obtain ⟨locked, past⟩ := holds
      refine ⟨_, fits _, ?_⟩
      split
      · rename_i room
        refine ⟨locked, (sessions_later past).trans_lt (sessions_none.trans_lt room), ?_⟩
        rintro _ ⟨⟩
      · exact locked
    | _ => exact fits.elim
  | findOldest userId now tie =>
    cases exec
    cases progress with
    | looking date =>
      obtain ⟨rfl, rfl, fits⟩ := fits
      obtain ⟨locked, past, counted⟩ := holds
      have room := room_looked tie positive past counted
      have fits := fits ((oldest (σ.db.activeTokens data.userId now) tie).map (·.tokenHash))
      cases found : (oldest (σ.db.activeTokens data.userId now) tie).map (·.tokenHash) with
      | none =>
        rw [found] at fits room
        refine ⟨_, fits, locked, room, ?_⟩
        rintro _ ⟨⟩
      | some tokenHash =>
        rw [found] at fits room
        exact ⟨_, fits, locked, room⟩
    | _ => exact fits.elim
  | findUnrevoked | findExpired => cases progress <;> exact fits.elim
  | _ => cases plain

theorem Fits.write (fits : Fits data maxSessions progress (.call s rest))
    (holds : progress.Holds σ data.userId maxSessions held writes)
    (locked : s.plain = false) (exec : s.exec (postgres.view σ.db writes) = .ok (reply, more)) :
    ∃ progress : Progress, Fits data maxSessions progress (rest reply) ∧
      progress.Holds σ data.userId maxSessions (held ++ s.keys (postgres.view σ.db writes))
        (writes ++ more) := by
  cases s with
  | advisoryLock userId =>
    cases progress with
    | fresh =>
      obtain ⟨rfl, fits⟩ := fits
      exact ⟨_, fits, List.mem_append_right _ (List.mem_singleton_self _)⟩
    | _ => exact fits.elim
  | revokeSession tokenHash now =>
    cases progress with
    | evicting other =>
      obtain ⟨rfl, fits⟩ := fits
      obtain ⟨row, found, rfl⟩ := exec_revokeSession.mp exec
      have keyEq : row.tokenHash = tokenHash := Table.get?_key found
      refine ⟨_, fits, List.mem_append_left _ holds.1, holds.2, ?_⟩
      rintro _ ⟨⟩
      refine ⟨List.mem_append_right _ (List.mem_singleton_self _),
        Closes.append ⟨row.revoke now, rfl, fun d => ?_⟩⟩
      simp [postgres, Store.write, RefreshToken.revoke, keyEq]
    | _ => exact fits.elim
  | createToken row =>
    cases progress with
    | room spared =>
      obtain ⟨rfl, fits⟩ := fits
      obtain ⟨mine, room, evicts⟩ := holds
      obtain ⟨fresh, rfl⟩ := exec_createToken.mp exec
      refine ⟨_, fits, List.mem_append_left _ mine, room, fun tokenHash chosen => ?_⟩
      obtain ⟨key, row, revoked, last⟩ := evicts tokenHash chosen
      have different : tokenHash ≠ data.row.tokenHash := by
        rintro rfl
        cases (last σ.db).symm.trans fresh
      refine ⟨List.mem_append_left _ key, row, revoked, fun d => ?_⟩
      rw [Engine.view_append, ← last d]
      simp [postgres, Store.write, different]
    | _ => exact fits.elim
  | newDate | count | findOldest | findUnrevoked | findExpired => cases locked
  | _ => cases progress <;> exact fits.elim

theorem Fits.evicts {body : Tx α} {tokenHash : String} (fits : Fits data maxSessions progress body)
    (chosen : progress = .chosen tokenHash ∨ progress = .evicting tokenHash) :
    Evicts tokenHash body := by
  rcases chosen with rfl | rfl
  · cases body with
    | pure | throw => exact fits.elim
    | call s rest =>
      cases s with
      | newDate => exact ⟨0, (fits 0).1⟩
      | _ => exact fits.elim
  · cases body with
    | pure | throw => exact fits.elim
    | call s rest =>
      cases s with
      | revokeSession => exact fits.1
      | _ => exact fits.elim

theorem fits_finish (spared evicted : Option String) : Fits data maxSessions (.room spared)
    ((query (.createToken data.row)).bind fun _ => (.pure evicted : Tx (Option String))) :=
  ⟨rfl, trivial⟩

theorem fits_code {tie : Nat} :
    Fits data maxSessions .fresh (TxCall.createSessionAtomic data maxSessions tie).code := by
  have evicts : ∀ count, Fits data maxSessions (if count < maxSessions then .room none else .full)
      ((AuthRepository.evictOldest data.userId maxSessions count tie).bind fun evicted =>
        (query (.createToken data.row)).bind fun _ => .pure evicted) := by
    intro count
    unfold AuthRepository.evictOldest
    by_cases room : count < maxSessions
    · rw [if_pos room, if_neg (Nat.not_le.mpr room)]
      exact fits_finish none none
    · rw [if_neg room, if_pos (Nat.not_lt.mp room)]
      refine fun now => ⟨rfl, rfl, fun oldest => ?_⟩
      cases oldest with
      | none => exact fits_finish none none
      | some tokenHash =>
        exact fun now => ⟨⟨_, rfl⟩, rfl, fits_finish (some tokenHash) (some tokenHash)⟩
  exact ⟨rfl, fun now => ⟨rfl, rfl, fun count => evicts count⟩⟩

end Statements
end PaymentWallet.Sessions
