import PaymentWallet.Sessions.Services

/-! What the service methods do, operation by operation, for any property of the
operations that most steps outside and all transactions without a new session have. -/
namespace PaymentWallet.Sessions
open Foundation

/-- The steps that leave Redis and the generator alone. -/
def Outside.reads : Outside → Bool
  | .generateTokenPair .. | .setCache .. | .delCache _ | .denylist _ | .setLock | .delLock => false
  | _ => true

theorem Outside.Answers.same {config : Config} {pid : Nat} {x : Outside}
    {reply : Except Exception x.Reply} {d : Store}
    {ext ext' : Ext} (reads : x.reads) (answers : x.Answers config pid d ext reply ext') :
    ext' = ext := by
  cases x with
  | generateTokenPair | setCache | delCache | denylist | setLock | delLock => cases reads
  | _ => exact answers.1

/-- Neither a look at the grace period, nor an entry for the replay cache, nor the cleanup lock. -/
def Outside.common : Outside → Bool
  | .withinGrace .. | .setCache .. | .setLock | .delLock => false
  | _ => true

/-- The refresh token that a refresh or a logout presents. -/
def Request.presents : Request → Option String
  | .refresh refreshToken | .logout refreshToken .. => some refreshToken
  | _ => none

structure Admits (good : ServiceOp TxCall Outside → Prop) : Prop where
  outside : ∀ x : Outside, x.common → good (.outside x)
  ends : ∀ c : TxCall, c.creates = none → good (.transact c)

section Uses
variable {good : ServiceOp TxCall Outside → Prop} {config : Config}

theorem all_resume (result : Except Exception α) : (Service.resume result : Svc α).All good := by
  cases result <;> trivial

@[simp] theorem all_outside {x : Outside} : (outside x).All good ↔ good (.outside x) :=
  and_iff_left all_resume

@[simp] theorem all_transact {c : TxCall} : (transact c).All good ↔ good (.transact c) :=
  and_iff_left all_resume

variable (admits : Admits good)
include admits

theorem all_find (looks : ∀ token revokedAt, good (.outside (.withinGrace token revokedAt)))
    (hash : String) :
    (AuthRepository.findRefreshTokenWithGrace hash).All good := by
  refine .bind (all_outside.mpr (admits.outside _ rfl)) fun token => ?_
  cases token with
  | none => trivial
  | some token =>
    refine .bind (all_outside.mpr (admits.outside _ rfl)) fun expired => ?_
    cases expired with
    | true => trivial
    | false =>
      cases token.revokedAt with
      | none => trivial
      | some revokedAt =>
        refine .bind (all_outside.mpr (looks _ _)) fun within => ?_
        cases within <;> trivial

theorem all_clear (tokenHash : String) : (SessionService.clearRotationCache tokenHash).All good :=
  .handle (all_outside.mpr (admits.outside _ rfl)) fun _ => trivial

theorem all_replay (tokenHash : String) :
    (SessionService.getRotationCache config tokenHash).All good := by
  refine .handle (.bind (all_outside.mpr (admits.outside _ rfl)) fun cached => ?_) fun _ => trivial
  cases cached <;> trivial

theorem all_revokeAll (userId : UserId) : (SessionService.revokeAllTokens userId).All good :=
  .bind (all_transact.mpr (admits.ends _ rfl)) fun _ => trivial

theorem all_revokeAccessToken (jti : String) : (SessionService.revokeAccessToken jti).All good :=
  .handle (all_outside.mpr (admits.outside _ rfl)) fun _ => trivial

theorem all_endSession (hash userId jti : String) (token : RefreshToken) (isActive : Bool) :
    (AuthService.endSession hash userId jti token isActive).All good := by
  unfold AuthService.endSession
  split
  · trivial
  · refine .bind (all_clear admits hash) fun _ =>
      .bind (all_revokeAccessToken admits jti) fun _ => ?_
    cases isActive with
    | true => exact .bind (all_transact.mpr (admits.ends _ rfl)) fun _ => trivial
    | false => trivial

variable (config) in
/-- What a logout does once it has the class of its token. -/
theorem all_logout_found (refreshToken userId jti : String) :
    ∃ rest, AuthService.logout config refreshToken userId jti =
      (AuthRepository.findRefreshTokenWithGrace (config.hashToken refreshToken)).bind rest ∧
      ∀ status, (rest status).All good := by
  refine ⟨_, rfl, fun status => ?_⟩
  cases status with
  | notFound => trivial
  | reuseDetected token => exact all_revokeAll admits _
  | active token | expired token | gracePeriod token => exact all_endSession admits ..

theorem all_logout (looks : ∀ token revokedAt, good (.outside (.withinGrace token revokedAt)))
    (refreshToken userId jti : String) :
    (AuthService.logout config refreshToken userId jti).All good := by
  obtain ⟨rest, same, all⟩ := all_logout_found config admits refreshToken userId jti
  exact same ▸ .bind (all_find admits looks _) all

theorem all_closeUser (userId : UserId) : (UsersService.closeUser userId).All good :=
  .bind (all_outside.mpr (admits.outside _ rfl)) fun _ => all_transact.mpr (admits.ends _ rfl)

theorem all_changePassword (userId : UserId) (jti currentPassword newPassword : String) :
    (UsersService.changePassword userId jti currentPassword newPassword).All good := by
  refine .bind (all_outside.mpr (admits.outside _ rfl)) fun user => ?_
  cases user with
  | none => trivial
  | some user =>
    refine .bind (all_outside.mpr (admits.outside _ rfl)) fun valid => ?_
    cases valid with
    | false => trivial
    | true =>
      refine .bind (all_outside.mpr (admits.outside _ rfl)) fun same => ?_
      cases same with
      | true => trivial
      | false =>
        refine .bind (all_outside.mpr (admits.outside _ rfl)) fun _ => ?_
        exact .bind (all_transact.mpr (admits.ends _ rfl)) fun _ => all_revokeAccessToken admits jti

theorem all_updateUserStatus (requesterId targetId : UserId) (status : Option AccountStatus)
    (role : Option Role) :
    (UsersService.updateUserStatus requesterId targetId status role).All good := by
  unfold UsersService.updateUserStatus
  split
  · trivial
  split
  · trivial
  refine .bind (all_outside.mpr (admits.outside _ rfl)) fun user => ?_
  cases user with
  | none => trivial
  | some user =>
    dsimp only
    split
    · exact .bind (all_closeUser admits targetId) fun _ => all_outside.mpr (admits.outside _ rfl)
    · exact .bind (all_transact.mpr (admits.ends _ rfl)) fun _ =>
        all_outside.mpr (admits.outside _ rfl)

theorem all_deleteAllExpiredTokens (batchSize batches : Nat) :
    (AuthRepository.deleteAllExpiredTokens batchSize batches).All good := by
  induction batches with
  | zero => trivial
  | succ batches ih =>
    refine .bind (all_outside.mpr (admits.outside _ rfl)) fun draw => ?_
    refine .bind (all_transact.mpr (admits.ends _ rfl)) fun result => ?_
    split
    · trivial
    · exact .bind ih fun _ => trivial

theorem all_cleanup (locks : good (.outside .setLock) ∧ good (.outside .delLock)) (batches : Nat) :
    (TokenCleanupService.cleanupExpiredTokens batches).All good := by
  refine .bind (all_outside.mpr locks.1) fun acquired => ?_
  cases acquired with
  | false => trivial
  | true =>
    refine .bind (.handle ?_ fun _ => trivial) fun _ => all_outside.mpr locks.2
    exact .bind (all_deleteAllExpiredTokens admits _ batches) fun _ => trivial

theorem all_exchange (tokenHash : String) (token : RefreshToken)
    (rotates : ∀ data, good (.transact (.rotateRefreshToken tokenHash data)))
    (caches : ∀ encrypted, good (.outside (.setCache tokenHash encrypted))) :
    (AuthService.exchange config tokenHash token).All good := by
  refine .bind (all_outside.mpr (admits.outside _ rfl)) fun user => ?_
  cases user with
  | none => trivial
  | some user =>
    show Program.All good (if user.status ≠ .active then _ else _)
    split
    · trivial
    · refine .bind (all_outside.mpr (admits.outside _ rfl)) fun tokens => ?_
      refine .bind (all_outside.mpr (admits.outside _ rfl)) fun expiresAt => ?_
      refine .bind (all_outside.mpr (admits.outside _ rfl)) fun draw => ?_
      refine .bind (.bind (all_transact.mpr (rotates _)) fun _ => ?_) fun _ => trivial
      exact .handle (all_outside.mpr (caches _)) fun _ => trivial

variable (config) in
/-- What a refresh does once it has the class of its token. -/
theorem all_refresh_found
    (rotates : ∀ tokenHash data, good (.transact (.rotateRefreshToken tokenHash data)))
    (caches : ∀ tokenHash encrypted, good (.outside (.setCache tokenHash encrypted)))
    (refreshToken : String) : ∃ rest, AuthService.refresh config refreshToken =
      (AuthRepository.findRefreshTokenWithGrace (config.hashToken refreshToken)).bind rest ∧
      ∀ status, (rest status).All good := by
  refine ⟨_, rfl, fun status => ?_⟩
  cases status with
  | notFound | expired => trivial
  | reuseDetected token =>
    exact .bind (all_revokeAll admits _) fun _ => .bind (all_clear admits _) fun _ => trivial
  | gracePeriod token =>
    refine .bind (all_replay admits _) fun cached => ?_
    cases cached with
    | none => exact .bind (all_clear admits _) fun _ => trivial
    | some pair => trivial
  | active token => exact all_exchange admits _ token (rotates _) (caches _)

theorem all_refresh (looks : ∀ token revokedAt, good (.outside (.withinGrace token revokedAt)))
    (rotates : ∀ tokenHash data, good (.transact (.rotateRefreshToken tokenHash data)))
    (caches : ∀ tokenHash encrypted, good (.outside (.setCache tokenHash encrypted)))
    (refreshToken : String) :
    (AuthService.refresh config refreshToken).All good := by
  obtain ⟨rest, same, all⟩ := all_refresh_found config admits rotates caches refreshToken
  exact same ▸ .bind (all_find admits looks _) all

variable (creates : ∀ data tie, good (.transact (.createSessionAtomic data config.maxSessions tie)))
include creates

theorem all_persistRefreshToken (userId : UserId) (rawToken : String) :
    (SessionService.persistRefreshToken config userId rawToken).All good := by
  refine .bind (all_outside.mpr (admits.outside _ rfl)) fun _ => ?_
  refine .bind (all_outside.mpr (admits.outside _ rfl)) fun draw => ?_
  exact .bind (all_transact.mpr (creates _ _)) fun _ => trivial

theorem all_register (dto : CreateUserInput) : (AuthService.register config dto).All good := by
  refine .bind (all_outside.mpr (admits.outside _ rfl)) fun draw => ?_
  refine .bind (.handle (all_transact.mpr (admits.ends _ rfl)) fun error => ?_) fun _ => ?_
  · cases error <;> trivial
  · refine .bind (all_outside.mpr (admits.outside _ rfl)) fun tokens => ?_
    exact .bind (all_persistRefreshToken admits creates _ _) fun _ => trivial

theorem all_login (email password : String) :
    (AuthService.login config email password).All good := by
  refine .bind (all_outside.mpr (admits.outside _ rfl)) fun user => ?_
  refine .bind (all_outside.mpr (admits.outside _ rfl)) fun passwordMatch => ?_
  cases user with
  | none => trivial
  | some user =>
    dsimp only
    split
    · trivial
    split
    · trivial
    refine .bind (all_outside.mpr (admits.outside _ rfl)) fun tokens => ?_
    exact .bind (all_persistRefreshToken admits creates _ _) fun _ => trivial

omit creates

/-- The requests other than refresh, each with what it may do beyond the common steps. -/
theorem all_handler (request : Request) (refresh : ∀ refreshToken, request ≠ .refresh refreshToken)
    (logs : (∃ email password, request = .login email password) ∨ (∃ dto, request = .register dto) →
      ∀ data tie, good (.transact (.createSessionAtomic data config.maxSessions tie)))
    (looks : (∃ refreshToken userId jti, request = .logout refreshToken userId jti) →
      ∀ token revokedAt, good (.outside (.withinGrace token revokedAt)))
    (locks : (∃ batches, request = .cleanupExpiredTokens batches) → good (.outside .setLock) ∧
      good (.outside .delLock)) :
    (request.handler config).All good := by
  cases request with
  | refresh refreshToken => exact absurd rfl (refresh refreshToken)
  | register dto => exact .bind (all_register admits (logs (.inr ⟨_, rfl⟩)) dto) fun _ => trivial
  | login email password =>
    exact .bind (all_login admits (logs (.inl ⟨_, _, rfl⟩)) email password) fun _ => trivial
  | logout => exact .bind (all_logout admits (looks ⟨_, _, _, rfl⟩) ..) fun _ => trivial
  | logoutAll =>
    exact .bind (.bind (all_revokeAll admits _) fun _ => all_revokeAccessToken admits _) fun _ =>
      trivial
  | changePassword => exact .bind (all_changePassword admits ..) fun _ => trivial
  | closeAccount userId jti =>
    refine .bind (.bind (all_outside.mpr (admits.outside _ rfl)) fun user => ?_) fun _ => trivial
    cases user with
    | none => trivial
    | some user =>
      exact .bind (all_closeUser admits userId) fun _ => all_revokeAccessToken admits jti
  | updateUserStatus => exact .bind (all_updateUserStatus admits ..) fun _ => trivial
  | cleanupExpiredTokens batches =>
    exact .bind (all_cleanup admits (locks ⟨_, rfl⟩) batches) fun _ => trivial
  | tick elapsed => exact .bind (all_transact.mpr (admits.ends _ rfl)) fun _ => trivial

end Uses
end PaymentWallet.Sessions
