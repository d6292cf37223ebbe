import PaymentWallet.Foundation.Knowledge
import PaymentWallet.Sessions.Endings

/-! What revoked a token. Its row says when, not by what; but the log has a transaction
that exchanged it, ended it by name, evicted it, or ended all sessions of its user. -/
namespace PaymentWallet.Sessions
open Foundation

/-- The transactions that may revoke the token of the user. -/
inductive TxCall.Revokes (userId : UserId) (tokenHash : String) : TxCall → Prop where
  | exchange : Revokes userId tokenHash (.rotateRefreshToken tokenHash newTokenData)
  | logout : Revokes userId tokenHash (.revokeRefreshToken tokenHash)
  | eviction : data.userId = userId →
      Revokes userId tokenHash (.createSessionAtomic data maxSessions tie)
  | all : Revokes userId tokenHash (.revokeAllUserTokens userId)
  | password : Revokes userId tokenHash (.updatePasswordAndRevokeSessions userId hashedPassword)
  | closing : Revokes userId tokenHash (.closeAccount userId wallet)

/-- The transaction may revoke the token, whoever it was created for. -/
def Aimed (c : TxCall) (tokenHash : String) (σ : SharedState) : Prop :=
  (∀ userId, c.Revokes userId tokenHash) ∨
    ∃ userId, Session σ userId tokenHash ∧ c.Revokes userId tokenHash

/-- The tokens that a scan finds are the user's. -/
def Statement.Finds : (s : Statement) → s.Reply → SharedState → Prop
  | .findOldest userId .., found, σ => ∀ tokenHash, found = some tokenHash →
    Session σ userId tokenHash
  | .findUnrevoked userId, (found : List String), σ => ∀ tokenHash ∈ found,
    Session σ userId tokenHash
  | _, _, _ => True

/-- Only tokens that the transaction may revoke, and new ones are not. -/
def Statement.Aims (c : TxCall) : Statement → SharedState → Prop
  | .revokeActive tokenHash _, σ | .revokeIfActive tokenHash _, σ
    | .revokeSession tokenHash _, σ => Aimed c tokenHash σ
  | .createToken row, _ => row.revokedAt = none
  | _, _ => True

/-- What is left to do of a transaction aims at such tokens, and so has what it has written. -/
def Aiming (σ : SharedState) : SessionPhase → Prop
  | .running _ => True
  | .inTx c body writes _ _ => (∃ facts : SharedState → Prop, facts σ ∧
      (∀ σ σ', (∀ c ∈ σ.log, c ∈ σ'.log) → facts σ → facts σ') ∧
      body.Informed Statement.Finds (Statement.Aims c) (fun _ _ => True) facts) ∧
    ∀ row, .token row ∈ writes → row.revokedAt.isSome → Aimed c row.tokenHash σ

section Programs
variable {c : TxCall} {userId : UserId} {now : DateTime} {facts : SharedState → Prop}

/-- What is known enough for a program, and what it returns does not matter. -/
abbrev Aimful (c : TxCall) (facts : SharedState → Prop) (body : Tx α) : Prop :=
  body.Informed Statement.Finds (Statement.Aims c) (fun _ _ => True) facts

theorem aims_revokeEach {found : List String}
    (aimed : ∀ σ, facts σ → ∀ tokenHash ∈ found, Aimed c tokenHash σ) :
    Aimful c facts (revokeEach now found) := by
  induction found generalizing facts with
  | nil => exact fun _ _ => trivial
  | cons first rest ih =>
    refine ⟨fun σ known => aimed σ known first List.mem_cons_self, fun count => ?_⟩
    have later : Aimful c (fun σ => facts σ ∧ True) (revokeEach now rest) :=
      ih fun σ known tokenHash member => aimed σ known.1 tokenHash (List.mem_cons_of_mem _ member)
    exact later.bind (fun _ _ _ => trivial) fun _ _ _ => trivial

/-- The scan for all sessions of a user, and what is made of it. -/
theorem aims_scan {f : Nat → Tx α} (revokes : ∀ tokenHash, c.Revokes userId tokenHash)
    (rest : ∀ count, Aimful c (fun _ => True) (f count)) :
    Aimful c facts ((query (.findUnrevoked userId)).bind fun found =>
      (revokeEach now found).bind f) := by
  refine ⟨fun _ _ => trivial, fun (found : List String) => ?_⟩
  have aimed : ∀ σ, facts σ ∧ (Statement.findUnrevoked userId).Finds found σ →
      ∀ tokenHash ∈ found, Aimed c tokenHash σ :=
    fun σ known tokenHash member => .inr ⟨userId, known.2 tokenHash member, revokes tokenHash⟩
  exact (aims_revokeEach aimed).bind rest fun _ _ _ => trivial

theorem aims_evictOldest {data : NewToken} {maxSessions count tie : Nat} :
    Aimful (.createSessionAtomic data maxSessions tie) facts
      (AuthRepository.evictOldest data.userId maxSessions count tie) := by
  unfold AuthRepository.evictOldest
  split
  · refine ⟨fun _ _ => trivial, fun now => ⟨fun _ _ => trivial, fun (found : Option String) => ?_⟩⟩
    cases found with
    | none => exact fun _ _ => trivial
    | some oldest =>
      refine ⟨fun _ _ => trivial, fun now => ⟨fun σ known => ?_, fun _ _ _ => trivial⟩⟩
      exact .inr ⟨data.userId, known.1.2 oldest rfl, .eviction rfl⟩
  · exact fun _ _ => trivial

theorem aims_code (c : TxCall) : Aimful c (fun _ => True) c.code := by
  cases c with
  | createUserWithWallet | updateStatusOrRole | tick =>
    exact ⟨fun _ _ => trivial, fun _ _ _ => trivial⟩
  | rotateRefreshToken oldTokenHash newTokenData =>
    refine ⟨fun _ _ => trivial, fun now => ⟨fun _ _ => .inl fun _ => .exchange, fun _ => ?_⟩⟩
    exact ⟨fun _ _ => rfl, fun _ _ _ => trivial⟩
  | revokeRefreshToken tokenHash =>
    refine ⟨fun _ _ => trivial, fun now => ⟨fun _ _ => .inl fun _ => .logout, ?_⟩⟩
    exact fun _ _ _ => trivial
  | revokeAllUserTokens userId =>
    refine ⟨fun _ _ => trivial, fun now => ?_⟩
    have scan : Aimful (.revokeAllUserTokens userId) (fun _ => True ∧ True)
        ((query (.findUnrevoked userId)).bind fun found => (revokeEach now found).bind .pure) :=
      aims_scan (fun _ => .all) fun _ _ _ => trivial
    simp only [Program.bind_pure] at scan
    exact scan
  | createSessionAtomic data maxSessions tie =>
    refine ⟨fun _ _ => trivial, fun _ => ⟨fun _ _ => trivial, fun now =>
      ⟨fun _ _ => trivial, fun count => ?_⟩⟩⟩
    refine aims_evictOldest.bind (fun evicted => ?_) fun _ _ _ => trivial
    exact ⟨fun _ _ => rfl, fun _ _ _ => trivial⟩
  | updatePasswordAndRevokeSessions userId hashedPassword =>
    refine ⟨fun _ _ => trivial, fun now => ⟨fun _ _ => trivial, fun _ => ?_⟩⟩
    exact aims_scan (fun _ => .password) fun _ _ _ => trivial
  | closeAccount userId wallet =>
    have closes : Aimful (.closeAccount userId wallet) (fun _ => True)
        ((query (.updateUser userId { status := some .closed })).bind fun _ =>
          (query .newDate).bind fun now => (query (.findUnrevoked userId)).bind fun found =>
            (revokeEach now found).bind fun _ => .pure ()) :=
      ⟨fun _ _ => trivial, fun _ => ⟨fun _ _ => trivial, fun now =>
        aims_scan (fun _ => .closing) fun _ _ _ => trivial⟩⟩
    cases wallet with
    | none => exact closes
    | some wallet =>
      simp only [TxCall.code, UsersRepository.closeAccount]
      split
      · exact fun _ _ => trivial
      · exact closes
  | deleteExpiredBatch batchSize first =>
    refine ⟨fun _ _ => trivial, fun now => ⟨fun _ _ => trivial, fun found => ?_⟩⟩
    have deletes : ∀ hashes : List String, (deleteEach hashes).All
        fun s => ∀ σ, s.Aims (.deleteExpiredBatch batchSize first) σ := by
      intro hashes
      induction hashes with
      | nil => trivial
      | cons tokenHash rest ih => exact ⟨fun _ => trivial, fun _ => ih.bind fun _ => trivial⟩
    exact (Program.Informed.of_all (deletes _)).mono (fun _ => id) fun _ _ _ _ => trivial

end Programs

section Runs
variable {config : Config} {σ σ' : SharedState} {w : State} {c : TxCall} {tokenHash : String}
  {row : RefreshToken} {s : Statement} {reply : s.Reply}

theorem Aimed.later (aimed : Aimed c tokenHash σ) (log : ∀ c ∈ σ.log, c ∈ σ'.log) :
    Aimed c tokenHash σ' := by
  rcases aimed with named | ⟨userId, ⟨old, member, created⟩, revokes⟩
  · exact .inl named
  · exact .inr ⟨userId, ⟨old, log old member, created⟩, revokes⟩

theorem Statement.Finds.later (finds : s.Finds reply σ) (log : ∀ c ∈ σ.log, c ∈ σ'.log) :
    s.Finds reply σ' := by
  have session : ∀ {userId tokenHash}, Session σ userId tokenHash →
      Session σ' userId tokenHash := by
    rintro userId tokenHash ⟨c, member, created⟩
    exact ⟨c, log c member, created⟩
  cases s with
  | findOldest => exact fun tokenHash found => session (finds tokenHash found)
  | findUnrevoked => exact fun tokenHash found => session (finds tokenHash found)
  | _ => trivial

/-- What a scan of the store has found. -/
theorem Sound.finds {ws : List Write} (sound : Sound config σ)
    (exec : s.exec σ.db = .ok (reply, ws)) : s.Finds reply σ := by
  have session : ∀ row ∈ σ.db.refreshTokens.rows, Session σ row.userId row.tokenHash := by
    intro row member
    obtain ⟨c, logged, data, creates, same, owner, _⟩ := sound.rows _ row (Table.get?_of_mem member)
    exact ⟨c, logged, data, creates, same, owner⟩
  cases s with
  | findOldest userId now tie =>
    cases exec
    intro tokenHash found
    obtain ⟨row, chosen, rfl⟩ := Option.map_eq_some_iff.mp found
    obtain ⟨member, active⟩ := List.mem_filter.mp (oldest_mem chosen)
    have owner : row.userId = userId := by simp_all
    exact owner ▸ session row member
  | findUnrevoked userId =>
    cases exec
    intro tokenHash found
    obtain ⟨row, kept, rfl⟩ := List.mem_map.mp found
    obtain ⟨member, unrevoked⟩ := List.mem_filter.mp kept
    have owner : row.userId = userId := by simp_all
    exact owner ▸ session row member
  | _ => trivial

/-- A statement writes revoked rows of the tokens that it aims at only. -/
theorem Statement.Aims.written {d : Store} {ws : List Write} (aims : s.Aims c σ)
    (exec : s.exec d = .ok (reply, ws)) (member : .token row ∈ ws)
    (revoked : row.revokedAt.isSome) :
    Aimed c row.tokenHash σ := by
  have revokes : ∀ {tokenHash now} {old : RefreshToken}, Aimed c tokenHash σ →
      d.refreshTokens.get? tokenHash = some old → ws = [.token (old.revoke now)] →
      Aimed c row.tokenHash σ := by
    rintro tokenHash now old aimed found rfl
    cases List.mem_singleton.mp member
    exact (Table.get?_key found : old.tokenHash = tokenHash) ▸ aimed
  cases s with
  | revokeActive =>
    obtain ⟨old, found, _, written⟩ := exec_revokeActive.mp exec
    exact revokes aims found written
  | revokeIfActive =>
    rcases exec_revokeIfActive exec with ⟨rfl, _⟩ | ⟨old, found, _, written⟩
    · cases member
    · exact revokes aims found written
  | revokeSession =>
    obtain ⟨old, found, written⟩ := exec_revokeSession.mp exec
    exact revokes aims found written
  | createToken created =>
    obtain ⟨_, rfl⟩ := exec_createToken.mp exec
    cases List.mem_singleton.mp member
    exact absurd revoked (by simp [show row.revokedAt = none from aims])
  | deleteToken =>
    rcases exec_deleteToken exec with rfl | rfl
    · cases member
    · cases List.mem_singleton.mp member
  | createUser =>
    obtain ⟨_, _, rfl⟩ := exec_createUser.mp exec
    cases List.mem_singleton.mp member
  | updateUser =>
    obtain ⟨_, _, rfl⟩ := exec_updateUser.mp exec
    cases List.mem_singleton.mp member
  | advance =>
    cases exec
    cases List.mem_singleton.mp member
  | newDate | count | findOldest | findUnrevoked | findExpired | advisoryLock =>
    cases exec
    cases member

theorem view_token {d : Store} {writes : List Write}
    (found : (postgres.view d writes).refreshTokens.get? tokenHash = some row) :
    d.refreshTokens.get? tokenHash = some row ∨ .token row ∈ writes := by
  induction writes generalizing d with
  | nil => exact .inl found
  | cons w writes ih =>
    rcases ih (d := d.write w) found with before | later
    · cases w with
      | token other =>
        simp only [Store.write, Table.get?_put] at before
        split at before
        · cases before
          exact .inr List.mem_cons_self
        · exact .inl before
      | deleteToken other =>
        simp only [Store.write, Table.get?_remove] at before
        split at before
        · cases before
        · exact .inl before
      | user | advance => exact .inl before
    · exact .inr (List.mem_cons_of_mem _ later)

theorem Aiming.acts {pid : Nat} {phase phase' : SessionPhase} (aiming : Aiming σ phase)
    (sound : Sound config σ) (acts : (sessions config).Acts pid σ phase σ' phase') :
    Aiming σ' phase' := by
  cases acts with
  | outside | commit | lost | abort => trivial
  | @begin c next =>
    exact ⟨⟨_, trivial, fun _ _ _ => id, aims_code c⟩, fun _ member =>
      absurd member List.not_mem_nil⟩
  | read plain exec =>
    obtain ⟨⟨facts, known, lasts, informed⟩, written⟩ := aiming
    refine ⟨⟨_, ⟨known, sound.finds exec⟩, fun σ σ' log both => ?_, informed.2 _⟩, written⟩
    exact ⟨lasts σ σ' log both.1, both.2.later log⟩
  | @write s _ _ _ _ _ _ _ locked exec =>
    obtain ⟨⟨facts, known, lasts, informed⟩, written⟩ := aiming
    have finds : ∀ {reply : s.Reply} {σ}, s.Finds reply σ := by
      intro reply σ
      cases s with
      | findOldest | findUnrevoked => cases locked
      | _ => trivial
    refine ⟨⟨_, ⟨known, finds⟩, fun σ σ' log both => ⟨lasts σ σ' log both.1, finds⟩,
      informed.2 _⟩, fun row member revoked => ?_⟩
    rcases List.mem_append.mp member with old | new
    · exact written row old revoked
    · exact (informed.1 σ known).written exec new revoked

theorem Reachable.aiming (run : Reachable config w) :
    ∀ pid request phase, w.procs pid = some (request, phase) → Aiming w.shared phase := by
  refine System.Reaches.keeps (F := fun σ _ _ phase => Aiming σ phase) (fun _ => trivial) ?_ ?_
    run ?_
  · intro w₁ w₂ _ _ phase _ last aiming
    have log := System.Reaches.log (.single last)
    cases phase with
    | running => trivial
    | inTx =>
      obtain ⟨⟨facts, known, lasts, informed⟩, written⟩ := aiming
      exact ⟨⟨facts, lasts _ _ log known, lasts, informed⟩, fun row member revoked =>
        (written row member revoked).later log⟩
  · exact fun earlier _ _ aiming acts => aiming.acts (Reachable.safe earlier).inv acts
  · rintro pid request phase ⟨⟩

/-- Every revoked token has a committed transaction that may have revoked it. -/
theorem Reachable.revoked_by (run : Reachable config w)
    (found : w.shared.db.refreshTokens.get? tokenHash = some row)
    (revoked : row.revokedAt.isSome) : ∃ c ∈ w.shared.log, c.Revokes row.userId tokenHash := by
  induction run with
  | refl => cases found
  | @tail w₁ w₂ earlier last ih =>
    have logged : (∃ c ∈ w₁.shared.log, c.Revokes row.userId tokenHash) →
        ∃ c ∈ w₂.shared.log, c.Revokes row.userId tokenHash := by
      rintro ⟨c, member, revokes⟩
      exact ⟨c, System.Reaches.log (.single last) c member, revokes⟩
    have sound := (Reachable.safe (earlier.tail last)).inv
    have committed : ∀ {pid request} {c : TxCall} {body : Tx c.Out} {writes held next},
        w₁.procs pid = some (request, .inTx c body writes held next) →
          w₂.shared = w₁.shared.commit c (postgres.view w₁.shared.db writes) →
          ∃ c ∈ w₂.shared.log, c.Revokes row.userId tokenHash := by
      intro pid request c body writes held next open_ commits
      rw [commits] at found
      rcases view_token found with before | written
      · exact logged (ih before)
      · have key : row.tokenHash = tokenHash := Table.get?_key found
        have aimed := (Reachable.aiming earlier pid request _ open_).2 row written revoked
        have member : c ∈ w₂.shared.log := commits ▸ List.mem_append_right _ List.mem_cons_self
        rw [key] at aimed
        rcases aimed.later (System.Reaches.log (.single last)) with
          named | ⟨userId, session, revokes⟩
        · exact ⟨c, member, named _⟩
        · exact ⟨c, member, session.owner sound (commits ▸ found) ▸ revokes⟩
    cases last with
    | start | outside | begin | read | write | abort | drift => exact logged (ih found)
    | commit open_ | lost open_ => exact committed open_ rfl

end Runs
end PaymentWallet.Sessions
