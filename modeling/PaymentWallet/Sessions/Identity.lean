import PaymentWallet.Foundation.Knowledge
import PaymentWallet.Sessions.Endings

/-! Whose sessions and tokens these are. What a request has read about a user and a session
stays true, and whatever it creates or hands out it does for the same user. -/
namespace PaymentWallet.Sessions
open Foundation

/-- The pair was generated for the user, and its access token names him. -/
def Vouched (σ : SharedState) (pair : TokenPair) (userId : UserId) : Prop :=
  (∃ issue ∈ σ.ext.issued, issue.pair = pair) ∧
    ∃ token, σ.ext.signed pair.accessToken = some token ∧ token.payload.sub = userId

/-- The user whose password the transaction sets. -/
def TxCall.sets : TxCall → Option (UserId × String)
  | .createUserWithWallet data id _ => some (id, data.password)
  | .updatePasswordAndRevokeSessions id hashedPassword => some (id, hashedPassword)
  | _ => none

/-- The user registered with the email, and the password was set for him. -/
def Enrolled (σ : SharedState) (user : User) : Prop :=
  (∃ data createdAt, .createUserWithWallet data user.id createdAt ∈ σ.log ∧
    data.email = user.email) ∧
    ∃ c ∈ σ.log, c.sets = some (user.id, user.password)

/-- What a reply tells for good. -/
def Told (config : Config) :
    (op : ServiceOp TxCall Outside) →
      Except Exception (op.Result TxCall.Out Outside.Reply) → SharedState → Prop
  | .outside (.findToken tokenHash), .ok (some row), σ => Session σ row.userId tokenHash
  | .outside (.findById id), .ok (some user), _ => user.id = id
  | .outside (.findByEmail email), .ok (some user), σ => user.email = email ∧ Enrolled σ user
  | .outside (.argon2Verify hash plain), .ok valid, _ => valid = config.verify hash plain
  | .outside (.generateTokenPair userId _ _), .ok pair, σ => Vouched σ pair userId
  | .transact c, .ok _, σ => c ∈ σ.log
  | _, _, _ => True

/-- A session is created with a pair of its user, and exchanged for one of the same user. -/
def Needs (config : Config) : ServiceOp TxCall Outside → SharedState → Prop
  | .transact c, σ => ∀ data, c.creates = some data →
    (∃ pair, Vouched σ pair data.userId ∧ config.hashToken pair.refreshToken = data.tokenHash) ∧
    (∀ tokenHash, c.rotates = some tokenHash → Session σ data.userId tokenHash)
  | .outside _, _ => True

/-- Both tokens of the pair are the user's. -/
def Names (config : Config) (σ : SharedState) (pair : TokenPair) (userId : UserId) : Prop :=
  Vouched σ pair userId ∧ Session σ userId (config.hashToken pair.refreshToken)

/-- For whom a request returns tokens. -/
def Authentic (config : Config) : Request → Except Exception Response → SharedState → Prop
  | .login email password, .ok (.tokens pair), σ => ∃ user, user.email = normalizeEmail email ∧
    user.status = .active ∧ Enrolled σ user ∧
    config.verify user.password password ∧ Names config σ pair user.id
  | .register dto, .ok (.tokens pair), σ => ∃ data id createdAt,
    .createUserWithWallet data id createdAt ∈ σ.log ∧ data.email = dto.email ∧
    Names config σ pair id
  | _, _, _ => True

section Users
variable {d v : Store} {c : TxCall}

/-- Emails stay, and passwords are set by the transactions that say so. -/
def TxCall.Enrolls (c : TxCall) (d d' : Store) : Prop :=
  ∀ id user', d'.users.get? id = some user' →
    (∃ user, d.users.get? id = some user ∧ user'.email = user.email ∧
      (user'.password = user.password ∨ c.sets = some (id, user'.password))) ∨
    ∃ data createdAt, c = .createUserWithWallet data id createdAt ∧ data.email = user'.email ∧
      data.password = user'.password

/-- A statement of the transaction that sets nothing else. -/
def Tame (c : TxCall) : Statement → Prop
  | .createUser row =>
    ∃ data createdAt, c = .createUserWithWallet data row.id createdAt ∧ data.email = row.email ∧
      data.password = row.password
  | .updateUser id patch =>
    ∀ password, patch.password = some password → c.sets = some (id, password)
  | _ => True

theorem TxCall.Enrolls.exec {s : Statement} {reply : s.Reply} {ws : List Write}
    (enrolls : c.Enrolls d v) (tame : Tame c s)
    (exec : s.exec v = .ok (reply, ws)) : c.Enrolls d (postgres.view v ws) := by
  have same : ∀ v', v'.users = v.users → c.Enrolls d v' :=
    fun v' users id user' found => enrolls id user' (users ▸ found)
  cases s with
  | newDate | count | findOldest | findUnrevoked | findExpired | advisoryLock | advance =>
    cases exec
    exact same _ rfl
  | revokeActive =>
    obtain ⟨row, _, _, rfl⟩ := exec_revokeActive.mp exec
    exact same _ rfl
  | revokeIfActive =>
    rcases exec_revokeIfActive exec with ⟨rfl, _⟩ | ⟨row, _, _, rfl⟩
    · exact enrolls
    · exact same _ rfl
  | revokeSession =>
    obtain ⟨row, _, rfl⟩ := exec_revokeSession.mp exec
    exact same _ rfl
  | createToken =>
    obtain ⟨_, rfl⟩ := exec_createToken.mp exec
    exact same _ rfl
  | deleteToken =>
    rcases exec_deleteToken exec with rfl | rfl
    · exact enrolls
    · exact same _ rfl
  | createUser row =>
    obtain ⟨_, _, rfl⟩ := exec_createUser.mp exec
    intro id user' found
    simp only [postgres, Engine.view, List.foldl_cons, List.foldl_nil, Store.write,
      Table.get?_put] at found
    split at found
    · cases found
      obtain ⟨data, createdAt, rfl, email, password⟩ := tame
      subst id
      exact .inr ⟨data, createdAt, rfl, email, password⟩
    · exact enrolls id user' found
  | updateUser other patch =>
    obtain ⟨row, before, rfl⟩ := exec_updateUser.mp exec
    intro id user' found
    simp only [postgres, Engine.view, List.foldl_cons, List.foldl_nil, Store.write,
      Table.get?_put] at found
    split at found
    · cases found
      have keyEq : row.id = other := Table.get?_key before
      have here : id = other := by rwa [← keyEq]
      subst here
      have password : (patch.apply row).password = row.password ∨
          c.sets = some (id, (patch.apply row).password) := by
        cases set : patch.password with
        | none => exact .inl (by simp [AccountPatch.apply, set])
        | some password => exact .inr (by simpa [AccountPatch.apply, set] using tame password set)
      rcases enrolls id row before with ⟨user, present, email, earlier⟩ |
        ⟨data, createdAt, rfl, email, earlier⟩
      · refine .inl ⟨user, present, email, ?_⟩
        rcases password with same | sets
        · exact same ▸ earlier
        · exact .inr sets
      · refine .inr ⟨data, createdAt, rfl, email, ?_⟩
        rcases password with same | sets
        · exact same ▸ earlier
        · exact congrArg Prod.snd (Option.some.inj sets)
    · exact enrolls id user' found

theorem ensures_enrolls {p : Tx α} (tame : p.All (Tame c)) (enrolls : c.Enrolls d v) :
    Ensures d p v fun _ v' => c.Enrolls d v' := by
  induction p generalizing v with
  | pure value => exact enrolls
  | throw error => trivial
  | call s next ih =>
    have split : Ensures d ((query s).bind next) v fun _ v' => c.Enrolls d v' := by
      apply ensures_bind.mpr
      cases plain : s.plain with
      | true => exact (ensures_read plain).mpr fun reply => ih reply (tame.2 reply) enrolls
      | false =>
        exact (ensures_query plain).mpr fun reply ws exec =>
          ih reply (tame.2 reply) (enrolls.exec tame.1 exec)
    exact split

theorem tame_code (c : TxCall) : c.code.All (Tame c) := by
  have revokes : ∀ now found, (revokeEach now found).All (Tame c) :=
    fun now found => all_revokeEach (fun _ => trivial) found
  cases c with
  | createUserWithWallet data id createdAt =>
    exact ⟨⟨data, createdAt, rfl, rfl, rfl⟩, fun _ => trivial⟩
  | rotateRefreshToken => exact ⟨trivial, fun _ => ⟨trivial, fun _ => ⟨trivial, fun _ => trivial⟩⟩⟩
  | revokeRefreshToken => exact ⟨trivial, fun _ => ⟨trivial, fun _ => trivial⟩⟩
  | revokeAllUserTokens => exact ⟨trivial, fun _ => ⟨trivial, fun found => revokes _ found⟩⟩
  | createSessionAtomic data maxSessions tie =>
    have evicts : ∀ count,
        (AuthRepository.evictOldest data.userId maxSessions count tie).All
        (Tame (.createSessionAtomic data maxSessions tie)) := by
      intro count
      unfold AuthRepository.evictOldest
      split
      · refine ⟨trivial, fun _ => ⟨trivial, fun found => ?_⟩⟩
        cases found with
        | none => trivial
        | some oldest => exact ⟨trivial, fun _ => ⟨trivial, fun _ => trivial⟩⟩
      · trivial
    exact ⟨trivial, fun _ =>
      ⟨trivial, fun _ => ⟨trivial, fun count =>
      (evicts count).bind fun _ => ⟨trivial, fun _ => trivial⟩⟩⟩⟩
  | updatePasswordAndRevokeSessions id hashedPassword =>
    refine ⟨trivial, fun _ =>
      ⟨?_, fun _ => ⟨trivial, fun found => (revokes _ found).bind fun _ => trivial⟩⟩⟩
    rintro password ⟨⟩
    rfl
  | updateStatusOrRole id status role =>
    refine ⟨?_, fun _ => trivial⟩
    rintro password ⟨⟩
  | closeAccount userId wallet =>
    have closes : ((query (.updateUser userId { status := some .closed })).bind fun _ =>
        (query .newDate).bind fun now => (query (.findUnrevoked userId)).bind fun found =>
          (revokeEach now found).bind fun _ =>
            (.pure () : Tx Unit)).All (Tame (.closeAccount userId wallet)) := by
      refine ⟨?_, fun _ => ⟨trivial, fun _ =>
        ⟨trivial, fun found => (revokes _ found).bind fun _ => trivial⟩⟩⟩
      rintro password ⟨⟩
    cases wallet with
    | none => exact closes
    | some wallet =>
      simp only [TxCall.code, UsersRepository.closeAccount]
      split
      · trivial
      · exact closes
  | deleteExpiredBatch batchSize first =>
    have deletes : ∀ hashes,
        (deleteEach hashes).All (Tame (.deleteExpiredBatch batchSize first)) := by
      intro hashes
      induction hashes with
      | nil => trivial
      | cons tokenHash rest ih => exact ⟨trivial, fun _ => ih.bind fun _ => trivial⟩
    exact ⟨trivial, fun _ => ⟨trivial, fun found => deletes _⟩⟩
  | tick => exact ⟨trivial, fun _ => trivial⟩

end Users

section Facts
variable {config : Config} {w w' : State} {σ σ' : SharedState} {pair : TokenPair} {userId : UserId}

theorem Advances.issued {permit : Permit} (advances : Advances config permit σ σ') :
    ∀ issue ∈ σ.ext.issued, issue ∈ σ'.ext.issued := by
  cases advances with
  | rest | commit => exact fun _ => id
  | drift expired =>
    cases expired with
    | lock => exact fun _ => id
  | outside permitted answers =>
    cases answers.changes with
    | kept same => exact fun _ member => same ▸ member
    | signed => exact fun _ member => List.mem_append_left _ member
    | denied => exact fun _ => id

/-- Facts of the log, and those about pairs, are for good. -/
theorem Enrolled.log {user : User} (enrolled : Enrolled σ user) (log : ∀ c ∈ σ.log, c ∈ σ'.log) :
    Enrolled σ' user := by
  obtain ⟨⟨data, createdAt, created, email⟩, c, set, password⟩ := enrolled
  exact ⟨⟨data, createdAt, log _ created, email⟩, c, log c set, password⟩

theorem Vouched.step (vouched : Vouched w.shared pair userId) (run : Reachable config w)
    (taken : (sessions config).Step anything w w') :
    Vouched w'.shared pair userId := by
  have advances := advances_of_reaches run taken
  obtain ⟨⟨issue, member, same⟩, token, signed, sub⟩ := vouched
  exact ⟨⟨issue, advances.issued issue member, same⟩, token, advances.signed signed, sub⟩

/-- Whoever has a row has registered, and set its password. -/
theorem Reachable.enrolled (run : Reachable config w) :
    ∀ id user, w.shared.db.users.get? id = some user → Enrolled w.shared user := by
  induction run with
  | refl => rintro id user ⟨⟩
  | @tail w₁ w₂ earlier last ih =>
    have log := System.Reaches.log (.single last)
    have advances := advances_of_reaches earlier last
    have kept : w₂.shared.db = w₁.shared.db → ∀ id user, w₂.shared.db.users.get? id = some user →
      Enrolled w₂.shared user :=
      fun same id user found => (ih id user (same ▸ found)).log log
    generalize w₂.shared = σ at advances log kept ⊢
    cases advances with
    | rest | outside | drift => exact kept rfl
    | @commit pid c value d' permitted body =>
      have committed : c ∈ (w₁.shared.commit c d').log :=
        List.mem_append_right _ (List.mem_singleton_self c)
      have enrolls : c.Enrolls w₁.shared.db d' := by
        refine body _ (ensures_enrolls (tame_code c) fun id user found => ?_)
        exact .inl ⟨user, found, rfl, .inl rfl⟩
      intro id user found
      have keyEq : user.id = id := Table.get?_key found
      rcases enrolls id user found with ⟨old, before, email, password⟩ |
        ⟨data, createdAt, rfl, email, password⟩
      · obtain ⟨⟨data, createdAt, created, same⟩, c', set, earlier⟩ := ih id old before
        have oldKey : old.id = id := Table.get?_key before
        rw [oldKey] at created earlier
        refine ⟨⟨data, createdAt, by rw [keyEq]; exact log _ created, same.trans email.symm⟩, ?_⟩
        rcases password with unchanged | sets
        · exact ⟨c', log c' set, by rw [keyEq, unchanged, earlier]⟩
        · exact ⟨c, committed, by rw [keyEq, sets]⟩
      · refine ⟨⟨data, createdAt, by rw [keyEq]; exact committed, email⟩, _, committed, ?_⟩
        rw [keyEq, ← password]
        rfl

theorem told_lasts (op : ServiceOp TxCall Outside)
    (reply : Except Exception (op.Result TxCall.Out Outside.Reply)) :
    (sessions config).Lasts anything (World.init Store.empty Ext.idle) (Told config op reply) := by
  intro w w' run taken told
  have log := System.Reaches.log (.single taken)
  cases op with
  | transact c =>
    cases reply with
    | error error => trivial
    | ok value => exact log c told
  | outside x =>
    cases reply with
    | error error => cases x <;> trivial
    | ok value =>
      cases x with
      | findToken tokenHash =>
        cases value with
        | none => trivial
        | some row => exact Session.later told (.single taken)
      | findById id => cases value <;> exact told
      | findByEmail email =>
        cases value with
        | none => trivial
        | some user => exact ⟨told.1, told.2.log log⟩
      | argon2Verify => exact told
      | generateTokenPair => exact Vouched.step told run taken
      | _ => trivial

theorem told_outside {pid : Nat} {x : Outside} {reply : Except Exception x.Reply} {ext : Ext}
    (run : Reachable config w)
    (answers : x.Answers config pid w.shared.db w.shared.ext reply ext) :
    Told config (.outside x) reply { w.shared with ext := ext } := by
  cases reply with
  | error error => cases x <;> trivial
  | ok value =>
    cases x with
    | findToken tokenHash =>
      obtain ⟨rfl, read | lost⟩ := answers
      · cases found : w.shared.db.refreshTokens.get? tokenHash with
        | none =>
          rw [found] at read
          cases read
          trivial
        | some row =>
          rw [found] at read
          cases read
          obtain ⟨c, member, data, creates, same, owner, _⟩ := run.safe.inv.rows tokenHash row found
          exact ⟨c, member, data, creates, same, owner⟩
      · cases lost
    | findById id =>
      obtain ⟨rfl, read | lost⟩ := answers
      · cases found : w.shared.db.users.get? id with
        | none =>
          rw [found] at read
          cases read
          trivial
        | some user =>
          rw [found] at read
          cases read
          exact Table.get?_key found
      · cases lost
    | findByEmail email =>
      obtain ⟨rfl, read | lost⟩ := answers
      · cases found : w.shared.db.users.rows.find? fun row => row.email = email with
        | none =>
          rw [found] at read
          cases read
          trivial
        | some user =>
          rw [found] at read
          cases read
          refine ⟨by simpa using List.find?_some found, run.enrolled user.id user ?_⟩
          exact Table.get?_of_mem (List.mem_of_find?_eq_some found)
      · cases lost
    | argon2Verify =>
      obtain ⟨rfl, read | lost⟩ := answers
      · exact Except.ok.inj read
      · cases lost
    | generateTokenPair userId email role =>
      rcases answers with ⟨pair, jti, lifetime, _, _, _, read, rfl⟩ | ⟨lost, _⟩
      · cases read
        exact ⟨⟨⟨pid, value⟩, List.mem_append_right _ (List.mem_singleton_self _), rfl⟩, _,
          Function.update_self .., rfl⟩
      · cases lost
    | _ => trivial

theorem teaches_told :
    (sessions config).Teaches anything (World.init Store.empty Ext.idle) (Told config) where
  lasts := told_lasts
  outside := told_outside
  commit _ _ := List.mem_append_right _ (List.mem_singleton_self _)
  failed := trivial

end Facts

section Programs
variable {config : Config} {facts : SharedState → Prop}
  {post : Except Exception α → SharedState → Prop} {pair : TokenPair} {userId : UserId}

/-- The program knows enough, and a failure says nothing. -/
abbrev Knowing (config : Config) (facts : SharedState → Prop) (p : Svc α)
    (post : Except Exception α → SharedState → Prop) : Prop :=
  p.Informed (Told config) (Needs config) post facts

theorem knowing_outside {x : Outside} {f : x.Reply → Svc α}
    (fails : ∀ error σ, post (.error error) σ)
    (rest : ∀ value, Knowing config (fun σ => facts σ ∧
      Told config (.outside x) (.ok value) σ) (f value) post) :
    Knowing config facts ((outside x).bind f) post := by
  refine ⟨fun _ _ => trivial, fun reply => ?_⟩
  cases reply with
  | error error => exact fun σ _ => fails error σ
  | ok value => exact rest value

theorem knowing_transact {c : TxCall} {f : c.Out → Svc α} (fails : ∀ error σ, post (.error error) σ)
    (needs : ∀ σ, facts σ → Needs config (.transact c) σ)
    (rest : ∀ value, Knowing config (fun σ => facts σ ∧ c ∈ σ.log) (f value) post) :
    Knowing config facts ((transact c).bind f) post := by
  refine ⟨needs, fun reply => ?_⟩
  cases reply with
  | error error => exact fun σ _ => fails error σ
  | ok value => exact rest value

theorem needs_admits : Admits fun op => ∀ σ, Needs config op σ where
  outside _ _ _ := trivial
  ends c creates _ data created := by
    rw [creates] at created
    cases created

theorem knowing_persistRefreshToken {f : Unit → Svc α} (fails : ∀ error σ, post (.error error) σ)
    (vouched : ∀ σ, facts σ → Vouched σ pair userId)
    (rest : Knowing config (fun σ => facts σ ∧ Names config σ pair userId) (f ()) post) :
    Knowing config facts ((SessionService.persistRefreshToken config userId pair.refreshToken).bind
      f) post := by
  simp only [SessionService.persistRefreshToken, Program.bind_def, Program.bind_assoc]
  refine knowing_outside fails fun expiresAt => knowing_outside fails fun draw => ?_
  refine knowing_transact fails (fun σ known => ?_) fun evicted => ?_
  · rintro data ⟨⟩
    refine ⟨⟨pair, vouched σ known.1.1, rfl⟩, ?_⟩
    rintro tokenHash ⟨⟩
  · refine rest.mono (fun σ known => ?_) fun _ _ _ => id
    obtain ⟨⟨⟨known, _⟩, _⟩, member⟩ := known
    exact ⟨known, vouched σ known, _, member, _, rfl, rfl, rfl⟩

theorem knowing_login (email password : String) :
    Knowing config (fun _ => True) (AuthService.login config email password)
    fun result σ => ∀ pair, result = .ok pair →
      Authentic config (.login email password) (.ok (.tokens pair)) σ := by
  have fails : ∀ (error : Exception) (σ : SharedState), ∀ pair,
      (.error error : Except Exception TokenPair) = .ok pair →
      Authentic config (.login email password) (.ok (.tokens pair)) σ := by
    rintro error σ pair ⟨⟩
  refine knowing_outside fails fun user => knowing_outside fails fun valid => ?_
  cases user with
  | none => exact fun σ _ => fails _ σ
  | some user =>
    dsimp only
    split
    · exact fun σ _ => fails _ σ
    split
    · exact fun σ _ => fails _ σ
    rename_i matched active
    refine knowing_outside fails fun pair =>
      knowing_persistRefreshToken fails (fun σ known => known.2) ?_
    rintro σ ⟨⟨⟨⟨_, named, enrolled⟩, checked⟩, _⟩, names⟩ _ ⟨⟩
    refine ⟨user, named, by simpa using active, enrolled, ?_, names⟩
    have checked : valid = config.verify user.password password := checked
    simpa [checked] using matched

theorem knowing_createUserWithWallet (data : CreateUserInput) (id : UserId) (createdAt : DateTime) :
    Knowing config facts (AuthService.createUserWithWallet data id createdAt)
      fun result σ => facts σ ∧
        (result = .ok () → .createUserWithWallet data id createdAt ∈ σ.log) := by
  have attempt : Knowing config facts (transact (.createUserWithWallet data id createdAt))
      fun result σ => facts σ ∧
        (result = .ok () → .createUserWithWallet data id createdAt ∈ σ.log) := by
    refine ⟨fun σ _ => needs_admits.ends _ rfl σ, fun reply => ?_⟩
    cases reply with
    | error error => exact fun σ known => ⟨known.1, by rintro ⟨⟩⟩
    | ok value => exact fun σ known => ⟨known.1, fun _ => known.2⟩
  apply attempt.handle (fun _ _ holds => holds)
  intro error
  cases error <;> exact fun σ known => ⟨known.1, by rintro ⟨⟩⟩

theorem knowing_register (dto : CreateUserInput) :
    Knowing config (fun _ => True) (AuthService.register config dto)
    fun result σ => ∀ pair, result = .ok pair →
      Authentic config (.register dto) (.ok (.tokens pair)) σ := by
  have fails : ∀ (error : Exception) (σ : SharedState), ∀ pair,
      (.error error : Except Exception TokenPair) = .ok pair →
      Authentic config (.register dto) (.ok (.tokens pair)) σ := by
    rintro error σ pair ⟨⟩
  refine knowing_outside fails fun draw =>
    .bind (knowing_createUserWithWallet _ _ _) (fun _ => ?_) fun error σ _ => fails error σ
  refine knowing_outside fails fun pair =>
    knowing_persistRefreshToken fails (fun σ known => known.2) ?_
  rintro σ ⟨⟨⟨_, created⟩, _⟩, names⟩ _ ⟨⟩
  exact ⟨_, _, _, created rfl, rfl, names⟩

/-- The successor is its owner's. -/
theorem knowing_exchange {tokenHash : String} {token : RefreshToken}
    (session : ∀ σ, facts σ → Session σ token.userId tokenHash) :
    Knowing config facts (AuthService.exchange config tokenHash token) fun _ _ => True := by
  have fails : ∀ (error : Exception) (σ : SharedState), True := fun _ _ => trivial
  apply knowing_outside fails
  intro user
  cases user with
  | none => exact fun _ _ => trivial
  | some user =>
    dsimp only
    split
    · exact fun _ _ => trivial
    refine knowing_outside fails fun pair => knowing_outside fails fun expiresAt =>
      knowing_outside fails fun draw => ?_
    simp only [SessionService.rotateToken, Program.bind_def, Program.bind_assoc]
    refine knowing_transact fails (fun σ known => ?_) fun _ => ?_
    · obtain ⟨⟨⟨⟨known, same⟩, vouched⟩, _⟩, _⟩ := known
      have same : user.id = token.userId := same
      rintro data ⟨⟩
      refine ⟨⟨pair, vouched, rfl⟩, ?_⟩
      rintro _ ⟨⟩
      exact same ▸ session σ known
    · exact .after (.handle (all_outside.mpr fun _ => trivial) fun _ => trivial)
        (fun _ => fun _ _ => trivial) fun _ _ _ => trivial

/-- An ACTIVE token is a session of the user in its row. -/
theorem knowing_find (tokenHash : String) :
    Knowing config facts (AuthRepository.findRefreshTokenWithGrace tokenHash)
    fun result σ => ∀ status, result = .ok status → facts σ ∧ ∀ token, status = .active token →
      Session σ token.userId tokenHash := by
  have fails : ∀ (error : Exception) (σ : SharedState) (status : SessionStatus),
      (.error error : Except Exception SessionStatus) = .ok status →
      facts σ ∧ ∀ token, status = .active token → Session σ token.userId tokenHash := by
    rintro error σ status ⟨⟩
  apply knowing_outside fails
  intro found
  cases found with
  | none =>
    rintro σ known _ ⟨⟩
    exact ⟨known.1, by rintro _ ⟨⟩⟩
  | some token =>
    apply knowing_outside fails
    intro expired
    cases expired with
    | true =>
      rintro σ known _ ⟨⟩
      exact ⟨known.1.1, by rintro _ ⟨⟩⟩
    | false =>
      cases time : token.revokedAt with
      | none =>
        rintro σ known _ ⟨⟩
        refine ⟨known.1.1, ?_⟩
        rintro _ ⟨⟩
        exact known.1.2
      | some revokedAt =>
        apply knowing_outside fails
        intro within
        cases within <;>
        · rintro σ known _ ⟨⟩
          exact ⟨known.1.1.1, by rintro _ ⟨⟩⟩

theorem knowing_refresh (refreshToken : String) :
    Knowing config facts (AuthService.refresh config refreshToken) fun _ _ => True := by
  have harmless : ∀ {known : SharedState → Prop} {p : Svc TokenPair},
      (p.All fun op => ∀ σ, Needs config op σ) →
      Knowing config known p fun _ _ => True :=
        fun all => (Program.Informed.of_all all).mono (fun _ => id) fun _ _ _ _ => trivial
  refine .bind (knowing_find _) (fun status => ?_) fun _ _ _ => trivial
  cases status with
  | active token => exact knowing_exchange fun σ known => (known _ rfl).2 token rfl
  | notFound | expired => exact harmless trivial
  | reuseDetected token =>
    exact harmless (.bind (all_revokeAll needs_admits _) fun _ =>
      .bind (all_clear needs_admits _) fun _ => trivial)
  | gracePeriod token =>
    refine harmless (.bind (all_replay needs_admits _) fun cached => ?_)
    cases cached with
    | none => exact .bind (all_clear needs_admits _) fun _ => trivial
    | some pair => trivial

/-- Every request does what it does for one user. -/
theorem knowing_handler (request : Request) :
    Knowing config (fun _ => True) (request.handler config) (Authentic config request) := by
  cases request with
  | register dto =>
    refine .bind (knowing_register dto) (fun pair σ known => known pair rfl) fun error σ _ =>
      trivial
  | login email password =>
    refine .bind (knowing_login email password) (fun pair σ known => known pair rfl)
      fun error σ _ => trivial
  | refresh refreshToken =>
    exact .bind (knowing_refresh refreshToken) (fun pair σ _ => trivial) fun error σ _ => trivial
  | _ =>
    refine (Program.Informed.of_all (all_handler needs_admits _ ?_ ?_ ?_ fun _ =>
      ⟨fun _ => trivial, fun _ => trivial⟩)).mono
      (fun _ => id) fun _ _ _ _ => trivial
    · rintro _ ⟨⟩
    · rintro (⟨_, _, ⟨⟩⟩ | ⟨_, ⟨⟩⟩)
    · exact fun _ _ _ _ => trivial

end Programs

section Log
variable {config : Config} {w w' : State} {pid : Nat} {request : Request} {pair : TokenPair}
  {userId : UserId} {tokenHash : String}

theorem Reachable.knows (run : Reachable config w) :
    ∀ pid request phase, w.procs pid = some (request, phase) →
    (sessions config).Knows anything (World.init Store.empty Ext.idle) (Told config) (Needs config)
      (Authentic config) w.shared request phase :=
  teaches_told.knows (fun _ => rfl) knowing_handler run

theorem Needs.step {c : TxCall} (needs : Needs config (.transact c) w.shared)
    (run : Reachable config w)
    (taken : (sessions config).Step anything w w') : Needs config (.transact c) w'.shared := by
  intro data creates
  obtain ⟨⟨pair, vouched, hash⟩, rotates⟩ := needs data creates
  exact ⟨⟨pair, vouched.step run taken, hash⟩, fun tokenHash exchanged =>
    (rotates tokenHash exchanged).later (.single taken)⟩

/-- Every session was created for the user whom its pair names. -/
theorem Reachable.needs (run : Reachable config w) :
    ∀ c ∈ w.shared.log, Needs config (.transact c) w.shared := by
  induction run with
  | refl => exact fun _ member => absurd member List.not_mem_nil
  | @tail w₁ w₂ earlier last ih =>
    intro c member
    have ready : ∀ {pid request value writes held next},
        w₁.procs pid = some (request, .inTx c (.pure value) writes held next) →
          Needs config (.transact c) w₁.shared := by
      intro pid request value writes held next found
      obtain ⟨facts, known, _, rest⟩ := Reachable.knows earlier pid request _ found
      exact rest.1 _ known
    suffices needs : Needs config (.transact c) w₁.shared from needs.step earlier last
    cases last with
    | start | outside | begin | read | write | abort | drift => exact ih c member
    | commit found | lost found =>
      rcases List.mem_append.mp member with old | new
      · exact ih c old
      · obtain rfl := List.mem_singleton.mp new
        exact ready found

/-- The pair that a token was exchanged for belongs to the token's owner. -/
theorem Exchanged.names (exchanged : Exchanged config w.shared tokenHash pair)
    (run : Reachable config w) :
    ∃ userId, Session w.shared userId tokenHash ∧ Names config w.shared pair userId := by
  obtain ⟨data, rotated, ⟨issue, member, rfl⟩, hash⟩ := exchanged
  obtain ⟨⟨pair', ⟨⟨issue', member', rfl⟩, token, signed, sub⟩, hash'⟩, owner⟩ :=
    run.needs _ rotated data rfl
  have same : issue = issue' :=
    List.inj_on_of_nodup_map run.safe.inv.distinct member member' (hash.trans hash'.symm)
  subst same
  exact ⟨data.userId, owner tokenHash rfl, ⟨⟨issue, member, rfl⟩, token, signed, sub⟩, _, rotated,
    data, rfl, hash.symm, rfl⟩

end Log
end PaymentWallet.Sessions
