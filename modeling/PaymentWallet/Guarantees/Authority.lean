import PaymentWallet.Sessions.Invariants
import PaymentWallet.Guarantees.Reuse

/-! The authority of administrators. The guard of a route reads the user's row for the
status, and takes the role from the access token. An administrator's token is good where it
is signed for one, and he stays one while a token of his is left. -/
namespace PaymentWallet.Sessions
open Foundation

/-- The role that the transaction gives to a user. -/
def TxCall.setsRole : TxCall → Option (UserId × Role)
  | .updateStatusOrRole id _ (some role) => some (id, role)
  | _ => none

/-- Users stay, and keep their roles unless the transaction sets them. -/
def TxCall.Keeps (c : TxCall) (d d' : Store) : Prop :=
  ∀ id user, d.users.get? id = some user → ∃ user', d'.users.get? id = some user' ∧
    (user'.role = user.role ∨ c.setsRole = some (id, user'.role))

section Roles
variable {c : TxCall} {d d' : Store}

theorem TxCall.Keeps.same (users : d'.users = d.users) : c.Keeps d d' :=
  fun _ user found => ⟨user, users ▸ found, .inl rfl⟩

theorem TxCall.Keeps.patch {id : UserId} {user : User} {patch : AccountPatch}
    (found : d.users.get? id = some user) (users : d'.users = d.users.put (patch.apply user))
    (sets : ∀ role, patch.role = some role → c.setsRole = some (id, role)) : c.Keeps d d' := by
  intro other old present
  have keyEq : (patch.apply user).id = id := (Table.get?_key found : user.id = id)
  rw [users, Table.get?_put, keyEq]
  by_cases here : other = id
  · subst here
    cases found.symm.trans present
    refine ⟨_, if_pos rfl, ?_⟩
    cases set : patch.role with
    | none => exact .inl (by simp [AccountPatch.apply, set])
    | some role => exact .inr (by simp [AccountPatch.apply, set, sets role set])
  · exact ⟨old, by rw [if_neg here, present], .inl rfl⟩

/-- A body that revokes or deletes tokens at most. -/
theorem ensures_users {p : Tx α} {v : Store} (fades : Ensures d p v fun _ d' => v.Fades d')
    (users : v.users = d.users) :
    Ensures d p v fun _ d' => c.Keeps d d' :=
  fades.mono fun _ _ faded => .same (faded.users.trans users)

theorem TxCall.keeps (c : TxCall) (d : Store) : Ensures d c.code d fun _ d' => c.Keeps d d' := by
  have created : ∀ {v : Store} {row : RefreshToken}, v.users = d.users →
      Ensures (α := Unit) d (query (.createToken row)) v fun _ d' => c.Keeps d d' := by
    intro v row users
    refine (ensures_query rfl).mpr fun done ws exec => ?_
    obtain ⟨_, rfl⟩ := exec_createToken.mp exec
    exact .same users
  cases c with
  | createUserWithWallet data id createdAt =>
    refine (ensures_query rfl).mpr fun done ws exec => ?_
    obtain ⟨fresh, _, rfl⟩ := exec_createUser.mp exec
    intro other user found
    have different : other ≠ id := by
      rintro rfl
      cases fresh.symm.trans found
    exact ⟨user, by simp [postgres, Store.write, different, found], .inl rfl⟩
  | rotateRefreshToken oldTokenHash data =>
    refine ensures_bind.mpr ((ensures_read rfl).mpr fun now =>
      ensures_bind.mpr ((ensures_query rfl).mpr ?_))
    intro done ws exec
    obtain ⟨row, _, _, rfl⟩ := exec_revokeActive.mp exec
    exact created rfl
  | createSessionAtomic data maxSessions tie =>
    refine ensures_bind.mpr ((ensures_query rfl).mpr fun done ws exec => ?_)
    cases exec
    refine ensures_bind.mpr ((ensures_read rfl).mpr fun now =>
      ensures_bind.mpr ((ensures_read rfl).mpr fun count => ?_))
    refine ensures_bind.mpr (ensures_evictOldest.mono fun evicted d₁ after => ensures_bind.mpr ?_)
    exact created after.1.users
  | revokeRefreshToken tokenHash =>
    refine ensures_bind.mpr ((ensures_read rfl).mpr fun now =>
      ensures_revokeIfActive fun _ d' fades => ?_)
    exact .same fades.users
  | revokeAllUserTokens userId =>
    refine ensures_bind.mpr ((ensures_read rfl).mpr fun now =>
      ensures_bind.mpr ((ensures_read rfl).mpr fun found => ?_))
    exact ensures_users (ensures_revokeEach found) rfl
  | updatePasswordAndRevokeSessions id hashedPassword =>
    refine ensures_bind.mpr ((ensures_read rfl).mpr fun now =>
      ensures_bind.mpr ((ensures_query rfl).mpr ?_))
    intro done ws exec
    obtain ⟨user, found, rfl⟩ := exec_updateUser.mp exec
    refine ensures_bind.mpr ((ensures_read rfl).mpr fun hashes => ensures_bind.mpr ?_)
    refine (ensures_revokeEach hashes).mono fun _ d' fades => .patch found fades.users ?_
    rintro _ ⟨⟩
  | updateStatusOrRole id status role =>
    refine (ensures_query rfl).mpr fun done ws exec => ?_
    obtain ⟨user, found, rfl⟩ := exec_updateUser.mp exec
    refine .patch found rfl ?_
    rintro _ rfl
    rfl
  | closeAccount userId wallet =>
    have closes : Ensures d ((query (.updateUser userId { status := some .closed })).bind fun _ =>
        (query .newDate).bind fun now => (query (.findUnrevoked userId)).bind fun found =>
          (revokeEach now found).bind fun _ => .pure ()) d fun _ d' =>
            (TxCall.closeAccount userId wallet).Keeps d d' := by
      refine ensures_bind.mpr ((ensures_query rfl).mpr fun done ws exec => ?_)
      obtain ⟨user, found, rfl⟩ := exec_updateUser.mp exec
      refine ensures_bind.mpr ((ensures_read rfl).mpr fun now =>
        ensures_bind.mpr ((ensures_read rfl).mpr fun hashes => ?_))
      refine ensures_bind.mpr ((ensures_revokeEach hashes).mono fun _ d' fades => ?_)
      refine .patch found fades.users ?_
      rintro _ ⟨⟩
    cases wallet with
    | none => exact closes
    | some wallet =>
      simp only [TxCall.code, UsersRepository.closeAccount]
      split
      · trivial
      · exact closes
  | deleteExpiredBatch batchSize first =>
    refine ensures_bind.mpr ((ensures_read rfl).mpr fun now =>
      ensures_bind.mpr ((ensures_read rfl).mpr fun found => ?_))
    exact ensures_users (ensures_deleteEach _) rfl
  | tick elapsed =>
    refine (ensures_query rfl).mpr fun done ws exec => ?_
    cases exec
    exact .same rfl

end Roles

/-- A token is signed with role ADMIN for administrators only, and no user ceases to be one
before his tokens with that role have expired. -/
def current : Permit
  | σ, .outside _ (.generateTokenPair userId _ role) =>
    role = .admin → (σ.db.users.get? userId).any (·.role = .admin)
  | σ, .commit _ c | σ, .lost _ c => ∀ set ∈ c.setsRole, set.2 ≠ .admin →
    ∀ issue ∈ σ.ext.issued, ∀ token ∈ σ.ext.verified σ.db.now issue.pair.accessToken,
      token.payload.sub = set.1 → token.payload.role ≠ .admin
  | _, _ => True

instance (σ : SharedState) (label : Label TxCall Outside Request Exception) :
    Decidable (current σ label) := by
  rcases label with _ | ⟨pid, x⟩ | ⟨pid, c⟩ | ⟨pid, c⟩ | _ | _
  · exact isTrue trivial
  · cases x <;> dsimp only [current] <;> infer_instance
  · exact inferInstanceAs (Decidable (∀ set ∈ c.setsRole, _))
  · exact inferInstanceAs (Decidable (∀ set ∈ c.setsRole, _))
  · exact isTrue trivial
  · exact isTrue trivial

/-- Signed tokens have been issued, and those with role ADMIN are of administrators until
they expire. -/
structure Genuine (σ : SharedState) : Prop where
  issued : ∀ accessToken token, σ.ext.signed accessToken = some token →
    ∃ issue ∈ σ.ext.issued, issue.pair.accessToken = accessToken
  role : ∀ accessToken token, σ.ext.verified σ.db.now accessToken = some token →
    token.payload.role = .admin →
      ∃ user, σ.db.users.get? token.payload.sub = some user ∧ user.role = .admin

section Runs
variable {config : Config} {permit : Permit} {σ σ' : SharedState} {w w' : State}
  {accessToken : String} {token : AccessToken}

theorem verified_earlier {ext : Ext} {now now' : DateTime} (later : now ≤ now')
    (verified : ext.verified now' accessToken = some token) :
    ext.verified now accessToken = some token := by
  obtain ⟨signed, unexpired⟩ := Option.filter_eq_some_iff.mp verified
  have before : now' / 1000 < token.exp := of_decide_eq_true unexpired
  exact Option.filter_eq_some_iff.mpr ⟨signed,
    decide_eq_true ((Nat.div_le_div_right later).trans_lt before)⟩

theorem verified_congr {ext ext' : Ext} (same : ext'.signed = ext.signed) (now : DateTime)
    (accessToken : String) :
    ext'.verified now accessToken = ext.verified now accessToken := by
  rw [Ext.verified, Ext.verified, same]

theorem Genuine.commit {c : TxCall} {d' : Store} (genuine : Genuine σ) (now : σ.db.now ≤ d'.now)
    (keeps : c.Keeps σ.db d')
    (permitted : ∀ set ∈ c.setsRole, set.2 ≠ .admin → ∀ issue ∈ σ.ext.issued,
      ∀ token ∈ σ.ext.verified σ.db.now issue.pair.accessToken,
      token.payload.sub = set.1 → token.payload.role ≠ .admin) : Genuine (σ.commit c d') := by
  refine ⟨genuine.issued, fun accessToken token verified admin => ?_⟩
  have earlier : σ.ext.verified σ.db.now accessToken = some token := verified_earlier now verified
  obtain ⟨user, found, role⟩ := genuine.role accessToken token earlier admin
  obtain ⟨user', found', kept | set⟩ := keeps _ user found
  · exact ⟨user', found', kept.trans role⟩
  · refine ⟨user', found', ?_⟩
    by_contra demoted
    obtain ⟨issue, member, rfl⟩ :=
      genuine.issued accessToken token (Option.filter_eq_some_iff.mp earlier).1
    exact permitted _ set demoted issue member token earlier rfl admin

theorem Genuine.advance (genuine : Genuine σ) (advances : Advances config current σ σ') :
    Genuine σ' := by
  cases advances with
  | rest => exact genuine
  | drift expired =>
    cases expired with
    | lock => exact ⟨genuine.issued, genuine.role⟩
  | @commit pid c value d' permitted body =>
    exact genuine.commit (body _ (c.effect σ.db)).now (body _ (c.keeps σ.db)) (permitted.elim id id)
  | @outside pid x _ _ permitted answers =>
    cases answers.changes with
    | kept same same' _ =>
      refine ⟨fun accessToken token signed => ?_, fun accessToken token verified admin => ?_⟩
      · exact same ▸ genuine.issued accessToken token (same' ▸ signed)
      · exact genuine.role accessToken token (verified_congr same' _ _ ▸ verified) admin
    | denied => exact ⟨genuine.issued, genuine.role⟩
    | @signed _ _ _ _ _ pair unsigned read =>
      constructor
      · intro accessToken token signed
        simp only [Ext.sign, Ext.issue, Function.update_apply] at signed
        split at signed
        · rename_i same
          exact ⟨⟨pid, pair⟩, List.mem_append_right _ List.mem_cons_self, same.symm⟩
        · obtain ⟨issue, member, same⟩ := genuine.issued accessToken token signed
          exact ⟨issue, List.mem_append_left _ member, same⟩
      · intro accessToken token verified admin
        obtain ⟨here, unexpired⟩ := Option.filter_eq_some_iff.mp verified
        simp only [Ext.sign, Ext.issue, Function.update_apply] at here
        split at here
        · obtain rfl := Option.some.inj here
          obtain ⟨user, found, role⟩ := (Option.any_eq_true ..).mp (permitted admin)
          exact ⟨user, found, of_decide_eq_true role⟩
        · have earlier : σ.ext.verified σ.db.now accessToken = some token :=
            Option.filter_eq_some_iff.mpr ⟨here, unexpired⟩
          exact genuine.role accessToken token earlier admin

theorem genuine_of_reaches
    (run : (sessions config).Reaches current (World.init Store.empty Ext.idle) w) :
    Genuine w.shared :=
  kept_of_reaches (w := World.init Store.empty Ext.idle) .refl
    (fun advances genuine => genuine.advance advances) ⟨nofun, nofun⟩ run

/-- What a validation that returns has read, each part at a moment of its own. -/
theorem validate_returns {pid : Nat} {payload : JwtPayload}
    (run : (JwtStrategy.validate accessToken).Runs (Amid config permit pid) w (.ok payload) w') :
    ∃ w₁ token user, (sessions config).Reaches permit w w₁ ∧
      (sessions config).Reaches permit w₁ w' ∧
      w₁.shared.ext.verified w₁.shared.db.now accessToken = some token ∧ token.payload = payload ∧
      w'.shared.db.users.get? payload.sub = some user ∧ user.status = .active := by
  rcases Program.runs_bind.mp run with ⟨verified, w₁, verifies, rest⟩ | ⟨_, _, failed⟩
  swap
  · cases failed
  rcases Program.runs_bind.mp rest with ⟨revoked, w₂, looks, rest⟩ | ⟨_, _, failed⟩
  swap
  · cases failed
  cases revoked with
  | true => cases (Program.runs_throw.mp rest).1
  | false =>
    rcases Program.runs_bind.mp rest with ⟨found, w₃, reads, rest⟩ | ⟨_, _, failed⟩
    swap
    · cases failed
    obtain ⟨_, _, present | lost⟩ := (Service.runs_outside.mp reads).answers
    swap
    · cases lost
    obtain rfl := Except.ok.inj present
    cases stored : w₃.shared.db.users.get? verified.sub with
    | none =>
      rw [stored] at rest
      cases (Program.runs_throw.mp rest).1
    | some user =>
      rw [stored] at rest
      replace rest : Program.Runs _ (if user.status ≠ .active then _
        else .pure verified) w₃ (.ok payload) w' := rest
      split at rest
      · cases (Program.runs_throw.mp rest).1
      rename_i active
      obtain ⟨same, rfl⟩ := Program.runs_pure.mp rest
      obtain rfl := Except.ok.inj same
      obtain ⟨_, _, answered⟩ := (Service.runs_outside.mp verifies).answers
      cases checked : w₁.shared.ext.verified w₁.shared.db.now accessToken with
      | none => simp [checked] at answered
      | some token =>
        simp only [checked, Except.ok.injEq] at answered
        exact ⟨w₁, token, user, Amid.reaches verifies,
          (Amid.reaches looks).trans (Amid.reaches reads), checked,
          answered.symm, stored, not_not.mp active⟩

/-- Whoever is admitted to a route for administrators is one in the database, when the row
is read before the token expires. -/
theorem admin_current {pid : Nat} {payload : JwtPayload}
    (run : (sessions config).Reaches current (World.init Store.empty Ext.idle) w)
    (admitted : (admission [.admin] accessToken).Runs (Amid config current pid) w (.ok payload) w')
    (unexpired : (w'.shared.ext.verified w'.shared.db.now accessToken).isSome) :
    ∃ user, w'.shared.db.users.get? payload.sub = some user ∧ user.role = .admin ∧
      user.status = .active := by
  rcases Program.runs_bind.mp admitted with ⟨user, w₂, validates, rest⟩ | ⟨_, _, failed⟩
  swap
  · cases failed
  by_cases allowed : RolesGuard.canActivate [.admin] user
  · rw [if_pos allowed] at rest
    obtain ⟨same, rfl⟩ := Program.runs_pure.mp rest
    obtain rfl := Except.ok.inj same
    obtain ⟨w₁, token, row, first, later, verified, rfl, found, active⟩ :=
      validate_returns validates
    have run' := (run.trans first).trans later
    obtain ⟨read, still⟩ := Option.isSome_iff_exists.mp unexpired
    have signed := (Option.filter_eq_some_iff.mp verified).1
    have kept := kept_of_reaches (F := fun σ =>
      σ.ext.signed accessToken = some token) (run.trans first)
      (fun advances here => advances.signed here) signed later
    obtain rfl := Option.some.inj ((Option.filter_eq_some_iff.mp still).1.symm.trans kept)
    have admin : read.payload.role = .admin := by simpa [RolesGuard.canActivate] using allowed
    obtain ⟨row', found', role⟩ := (genuine_of_reaches run').role accessToken read still admin
    obtain rfl := Option.some.inj (found.symm.trans found')
    exact ⟨row, found, role, active⟩
  · rw [if_neg allowed] at rest
    cases (Program.runs_throw.mp rest).1

end Runs

namespace Script

/-- An administrator gives the user a role. -/
def gives (pid : Nat) (name : String) (role : Role) : Script :=
  .start pid (.updateUserStatus "root" name none (some role)) ::
    [.answer {}, .commit, .answer {}].map (.turn pid)

end Script

/-- The access token opens the routes for administrators. -/
def Stage.admits (stage : Stage) (accessToken name : String) : Bool :=
  (stage.shared.ext.verified stage.shared.db.now accessToken).any (fun token =>
      token.payload.sub = name && token.payload.role = .admin &&
        !stage.shared.ext.denied stage.shared.db.now token.payload.jti) &&
    (stage.shared.db.users.get? name).any (·.status = .active)

theorem Stage.admits_runs {stage : Stage} {config : Config}
    {accessToken name : String} (permit : Permit)
    (free : ∀ pid x, x.reads → permit stage.shared (.outside pid x))
    (admits : stage.admits accessToken name) :
    ∃ payload, payload.sub = name ∧
      (admission [.admin] accessToken).Runs (Amid config permit 0) stage.world
        (.ok payload) stage.world := by
  rw [Stage.admits, Bool.and_eq_true, Option.any_eq_true, Option.any_eq_true] at admits
  obtain ⟨⟨token, verified, facts⟩, user, found, active⟩ := admits
  simp only [Bool.and_eq_true, decide_eq_true_eq, Bool.not_eq_true'] at facts
  obtain ⟨⟨rfl, admin⟩, undenied⟩ := facts
  have read : ∀ (x : Outside) (reply : Except Exception x.Reply), x.reads →
      x.Answers config 0 stage.shared.db stage.shared.ext reply stage.shared.ext →
      Amid config permit 0 (.outside x) stage.world reply stage.world :=
    fun x reply reads answers => ⟨.refl, .outside (free 0 x reads) answers⟩
  refine ⟨token.payload, rfl,
    .call (read (.verifyJwt accessToken) (.ok token.payload) rfl ⟨rfl, ?_⟩) <|
    .call (read (.getDenylist token.payload.jti) (.ok false) rfl ⟨rfl, .inl ?_⟩) <|
    .call (read (.findById token.payload.sub) (.ok (some user)) rfl ⟨rfl, .inl ?_⟩) ?_⟩
  · rw [verified]
  · rw [undenied]
  · rw [found]
  · refine Program.runs_bind.mpr (.inl ⟨token.payload, stage.world, ?_, ?_⟩)
    · show Program.Runs _ (if user.status ≠ .active then _ else .pure token.payload) _ _ _
      rw [if_neg (not_not.mpr (of_decide_eq_true active))]
      exact .pure
    · rw [if_pos (by simp [RolesGuard.canActivate, admin])]
      exact .pure

/-- Bob becomes an administrator, and logs in again while his first access token is valid. -/
theorem admin_current_promoted :
    ∃ w, (sessions (Config.sample 10)).Reaches current (World.init Store.empty Ext.idle) w ∧
    ∃ payload, (admission [.admin] "access-second").Runs
      (Amid (Config.sample 10) current 0) w (.ok payload) w ∧
      ∃ user, w.shared.db.users.get? payload.sub = some user ∧ user.role = .admin ∧
        user.status = .active := by
  obtain ⟨stage, run, admits, unexpired⟩ :=
      Script.reaches (Script.registers 0 "bob" "first" ++ Script.gives 1 "bob" .admin ++
      Script.logsIn 2 "bob" "second") (Config.sample 10) current
    (fun stage => stage.admits "access-second" "bob" ∧
      (stage.shared.ext.verified stage.shared.db.now "access-second").isSome) (by decide +kernel)
  obtain ⟨payload, _, admitted⟩ :=
    Stage.admits_runs current (fun _ x _ => by cases x <;> trivial) admits
  exact ⟨stage.world, run, payload, admitted, admin_current run admitted unexpired⟩

/-- Bob stays admitted after he has been an administrator. -/
theorem admin_outdated :
    ¬ ∀ (config : Config) (w w' : State) (accessToken : String) (pid : Nat) (payload : JwtPayload),
    Reachable config w → (admission [.admin] accessToken).Runs
      (Amid config anything pid) w (.ok payload) w' →
      ∃ user, w'.shared.db.users.get? payload.sub = some user ∧ user.role = .admin ∧
        user.status = .active := by
  intro claim
  obtain ⟨stage, run, admits, demoted⟩ :=
      Script.reaches (Script.registers 0 "bob" "first" ++ Script.gives 1 "bob" .admin ++
      Script.logsIn 2 "bob" "second" ++ Script.gives 3 "bob" .user) (Config.sample 10) anything
    (fun stage => stage.admits "access-second" "bob" ∧
      (stage.shared.db.users.get? "bob").any (·.role = .user)) (by decide +kernel)
  obtain ⟨payload, name, admitted⟩ := Stage.admits_runs anything (fun _ _ _ => trivial) admits
  obtain ⟨user, found, admin, _⟩ := claim _ _ _ _ _ _ run admitted
  have found : stage.shared.db.users.get? "bob" = some user := name ▸ found
  simp [found, admin] at demoted

end PaymentWallet.Sessions
