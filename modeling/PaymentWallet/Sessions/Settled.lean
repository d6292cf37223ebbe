import PaymentWallet.Sessions.Requests

/-! What the service methods make of a token once it has been looked up. They look it up
no more, exchange no other token, and ignore how many tokens a transaction has ended. -/
namespace PaymentWallet.Sessions
open Foundation

/-- One batch of the cleanup. -/
def TxCall.sweeps : TxCall → Bool
  | .deleteExpiredBatch .. => true
  | _ => false

/-- The transaction ends sessions that others have created. -/
def TxCall.ends : TxCall → Bool
  | .revokeRefreshToken _ | .revokeAllUserTokens _
    | .updatePasswordAndRevokeSessions .. | .closeAccount .. => true
  | _ => false

/-- Neither a lookup of a token nor the cleanup lock. -/
def Outside.quiet : Outside → Bool
  | .findToken _ | .setLock | .delLock => false
  | _ => true

/-- A reply that may come at `now` or later. -/
def Outside.timely (now : DateTime) : (x : Outside) → Except Exception x.Reply → Prop
  | .expired token, .ok false => now < token.expiresAt
  | _, _ => True

/-- From `now` on the program looks up no token, does not clean up, exchanges `own` tokens
only, and ignores what a transaction that ends sessions returns. -/
def Settled (now : DateTime) (own : String → Prop) : Svc α → Prop
  | .pure _ | .throw _ => True
  | .call (.outside x) next => x.quiet ∧ ∀ reply, x.timely now reply → Settled now own (next reply)
  | .call (.transact c) next => c.sweeps = false ∧
    (∀ tokenHash, c.rotates = some tokenHash → own tokenHash) ∧
    (c.ends → ∀ out out', next (.ok out) = next (.ok out')) ∧ ∀ reply, Settled now own (next reply)

/-- From `now` on the program exchanges the token no more. -/
def Forgoes (now : DateTime) (tokenHash : String) : Svc α → Prop
  | .pure _ | .throw _ => True
  | .call (.outside x) next => ∀ reply, x.timely now reply → Forgoes now tokenHash (next reply)
  | .call (.transact c) next =>
    c.rotates ≠ some tokenHash ∧ ∀ reply, Forgoes now tokenHash (next reply)

section Settled
variable {now now' : DateTime} {own own' : String → Prop} {config : Config}

theorem Outside.timely.later {x : Outside} {reply : Except Exception x.Reply}
    (timely : x.timely now' reply) (later : now ≤ now') :
    x.timely now reply := by
  cases x with
  | expired token =>
    rcases reply with _ | (_ | _)
    · trivial
    · exact lt_of_le_of_lt later timely
    · trivial
  | _ => trivial

theorem Settled.bind {p : Svc α} {f : α → Svc β} (settled : Settled now own p)
    (rest : ∀ value, Settled now own (f value)) :
    Settled now own (p.bind f) := by
  induction p with
  | pure value => exact rest value
  | throw error => trivial
  | call op next ih =>
    cases op with
    | outside x => exact ⟨settled.1, fun reply timely => ih reply (settled.2 reply timely)⟩
    | transact c =>
      obtain ⟨keeps, rotates, ignores, later⟩ := settled
      exact ⟨keeps, rotates, fun ends out out' =>
        congrArg (Program.bind · f) (ignores ends out out'), fun reply => ih reply (later reply)⟩

theorem Settled.handle {p : Svc α} {h : Exception → Svc α} (settled : Settled now own p)
    (handler : ∀ error, Settled now own (h error)) : Settled now own (p.handle h) := by
  induction p with
  | pure value => trivial
  | throw error => exact handler error
  | call op next ih =>
    cases op with
    | outside x => exact ⟨settled.1, fun reply timely => ih reply (settled.2 reply timely)⟩
    | transact c =>
      obtain ⟨keeps, rotates, ignores, later⟩ := settled
      exact ⟨keeps, rotates, fun ends out out' =>
        congrArg (Program.handle · h) (ignores ends out out'), fun reply => ih reply (later reply)⟩

theorem Settled.mono {p : Svc α} (settled : Settled now own p) (later : now ≤ now')
    (weaker : ∀ tokenHash, own tokenHash → own' tokenHash) : Settled now' own' p := by
  induction p with
  | pure value => trivial
  | throw error => trivial
  | call op next ih =>
    cases op with
    | outside x =>
      exact ⟨settled.1, fun reply timely => ih reply (settled.2 reply (timely.later later))⟩
    | transact c =>
      obtain ⟨keeps, rotates, ignores, later⟩ := settled
      exact ⟨keeps, fun tokenHash exchanged => weaker _ (rotates tokenHash exchanged), ignores,
        fun reply => ih reply (later reply)⟩

/-- A program that exchanges a token no more. -/
theorem Settled.narrow {p : Svc α} {gone : List String} (settled : Settled now own p)
    (forgoes : ∀ tokenHash ∈ gone, own tokenHash → Forgoes now tokenHash p) :
    Settled now (· ∉ gone) p := by
  induction p with
  | pure value => trivial
  | throw error => trivial
  | call op next ih =>
    cases op with
    | outside x =>
      refine ⟨settled.1, fun reply timely =>
        ih reply (settled.2 reply timely) fun tokenHash member mine => ?_⟩
      exact forgoes tokenHash member mine reply timely
    | transact c =>
      obtain ⟨keeps, rotates, ignores, rest⟩ := settled
      refine ⟨keeps, fun tokenHash exchanged member => ?_, ignores, fun reply =>
        ih reply (rest reply) fun tokenHash member mine => ?_⟩
      · exact (forgoes tokenHash member (rotates tokenHash exchanged)).1 exchanged
      · exact (forgoes tokenHash member mine).2 reply

theorem settled_resume (result : Except Exception α) :
    Settled now own (Service.resume result : Svc α) := by
  cases result <;> trivial

theorem settled_outside {x : Outside} (quiet : x.quiet) : Settled now own (outside x) :=
  ⟨quiet, fun reply _ => settled_resume reply⟩

/-- A transaction whose result is of no use. -/
theorem settled_ends {c : TxCall} {p : Svc α} (keeps : c.sweeps = false)
    (rotates : c.rotates = none) (settled : Settled now own p) :
    Settled now own ((transact c).bind fun _ => p) := by
  refine ⟨keeps, fun tokenHash exchanged => ?_, fun _ _ _ => rfl, fun reply => ?_⟩
  · rw [rotates] at exchanged
    cases exchanged
  · exact (settled_resume reply).bind fun _ => settled

theorem settled_transact {c : TxCall} (keeps : c.sweeps = false)
    (rotates : ∀ tokenHash, c.rotates = some tokenHash → own tokenHash)
    (ends : c.ends = false) : Settled now own (transact c) := by
  refine ⟨keeps, rotates, fun still => ?_, settled_resume⟩
  rw [ends] at still
  cases still

theorem settled_clear (tokenHash : String) :
    Settled now own (SessionService.clearRotationCache tokenHash) :=
  (settled_outside rfl).handle fun _ => trivial

theorem settled_revokeAccessToken (jti : String) :
    Settled now own (SessionService.revokeAccessToken jti) :=
  (settled_outside rfl).handle fun _ => trivial

theorem settled_replay (tokenHash : String) :
    Settled now own (SessionService.getRotationCache config tokenHash) := by
  refine .handle (.bind (settled_outside rfl) fun cached => ?_) fun _ => trivial
  cases cached <;> trivial

theorem settled_revokeAll (userId : UserId) :
    Settled now own (SessionService.revokeAllTokens userId) :=
  settled_ends rfl rfl trivial

theorem settled_endSession (hash userId jti : String) (token : RefreshToken) (isActive : Bool) :
    Settled now own (AuthService.endSession hash userId jti token isActive) := by
  unfold AuthService.endSession
  split
  · trivial
  · refine .bind (settled_clear hash) fun _ => .bind (settled_revokeAccessToken jti) fun _ => ?_
    cases isActive with
    | true => exact settled_ends rfl rfl trivial
    | false => trivial

theorem settled_persistRefreshToken (userId : UserId) (rawToken : String) :
    Settled now own (SessionService.persistRefreshToken config userId rawToken) := by
  refine .bind (settled_outside rfl) fun _ => .bind (settled_outside rfl) fun draw =>
    .bind ?_ fun _ => trivial
  exact settled_transact rfl (by simp [TxCall.rotates]) rfl

theorem settled_exchange {hash : String} (token : RefreshToken) (mine : own hash) :
    Settled now own (AuthService.exchange config hash token) := by
  refine .bind (settled_outside rfl) fun user => ?_
  cases user with
  | none => trivial
  | some user =>
    show Settled now own (if user.status ≠ .active then _ else _)
    split
    · trivial
    · refine .bind (settled_outside rfl) fun tokens =>
        .bind (settled_outside rfl) fun expiresAt => ?_
      refine .bind (settled_outside rfl) fun draw => .bind (.bind ?_ fun _ => ?_) fun _ => trivial
      · refine settled_transact rfl (fun tokenHash exchanged => ?_) rfl
        cases exchanged
        exact mine
      · exact (settled_outside rfl).handle fun _ => trivial

theorem settled_closeUser {f : Unit → Svc α} (userId : UserId) (rest : Settled now own (f ())) :
    Settled now own ((UsersService.closeUser userId).bind f) := by
  rw [UsersService.closeUser, Program.bind_def, Program.bind_assoc]
  exact .bind (settled_outside rfl) fun draw =>
    settled_ends (c := .closeAccount userId draw.wallet) rfl rfl rest

theorem settled_register (dto : CreateUserInput) :
    Settled now own (AuthService.register config dto) := by
  refine .bind (settled_outside rfl) fun draw => .bind (.handle ?_ fun error => ?_) fun _ => ?_
  · exact settled_transact rfl (by simp [TxCall.rotates]) rfl
  · cases error <;> trivial
  · exact .bind (settled_outside rfl) fun tokens =>
      .bind (settled_persistRefreshToken _ _) fun _ => trivial

theorem settled_login (email password : String) :
    Settled now own (AuthService.login config email password) := by
  refine .bind (settled_outside rfl) fun user => .bind (settled_outside rfl) fun passwordMatch => ?_
  cases user with
  | none => trivial
  | some user =>
    dsimp only
    split
    · trivial
    split
    · trivial
    exact .bind (settled_outside rfl) fun tokens =>
      .bind (settled_persistRefreshToken _ _) fun _ => trivial

theorem settled_changePassword (userId : UserId) (jti currentPassword newPassword : String) :
    Settled now own (UsersService.changePassword userId jti currentPassword newPassword) := by
  refine .bind (settled_outside rfl) fun user => ?_
  cases user with
  | none => trivial
  | some user =>
    refine .bind (settled_outside rfl) fun valid => ?_
    cases valid with
    | false => trivial
    | true =>
      refine .bind (settled_outside rfl) fun same => ?_
      cases same with
      | true => trivial
      | false =>
        refine .bind (settled_outside rfl) fun draw => ?_
        exact settled_ends (c := .updatePasswordAndRevokeSessions userId draw.hashed) rfl rfl
          (settled_revokeAccessToken jti)

theorem settled_updateUserStatus (requesterId targetId : UserId) (status : Option AccountStatus)
    (role : Option Role) :
    Settled now own (UsersService.updateUserStatus requesterId targetId status role) := by
  unfold UsersService.updateUserStatus
  split
  · trivial
  split
  · trivial
  refine .bind (settled_outside rfl) fun user => ?_
  cases user with
  | none => trivial
  | some user =>
    dsimp only
    split
    · exact settled_closeUser targetId (settled_outside rfl)
    · exact .bind (settled_transact rfl (by simp [TxCall.rotates]) rfl) fun _ => settled_outside rfl

/-- A lookup, and what follows it. -/
structure LooksUp (now : DateTime) (own : String → Prop) (hash : String) (f : SessionStatus → Svc α)
    (next : Except Exception (Option RefreshToken) → Svc α) : Prop where
  missing : next (.ok none) = f .notFound
  failed : ∀ error, next (.error error) = .throw error
  found : ∀ token, ∃ later, next (.ok (some token)) = .call (.outside (.expired token)) later ∧
    later (.ok true) = f (.expired token)
  settled : ∀ reply, Settled now own (next reply)

theorem find_looksUp (now : DateTime) (own : String → Prop) (hash : String)
    (f : SessionStatus → Svc α) (rest : ∀ status, Settled now own (f status)) :
    ∃ next, (AuthRepository.findRefreshTokenWithGrace hash).bind f =
      .call (.outside (.findToken hash)) next ∧
      LooksUp now own hash f next := by
  refine ⟨_, rfl, rfl, fun _ => rfl, fun token => ⟨_, rfl, rfl⟩, fun reply => ?_⟩
  cases reply with
  | error error => trivial
  | ok found =>
    cases found with
    | none => exact rest _
    | some token =>
      refine ⟨rfl, fun reply _ => ?_⟩
      cases reply with
      | error error => trivial
      | ok expired =>
        cases expired with
        | true => exact rest _
        | false =>
          obtain ⟨_, _, _, _, _, revokedAt⟩ := token
          cases revokedAt with
          | none => exact rest _
          | some revokedAt =>
            show Settled now own
              (((outside (.withinGrace _ revokedAt)).bind fun within => _).bind f)
            refine .bind (.bind (settled_outside rfl) fun within => ?_) rest
            cases within <;> trivial

/-- The handlers of refresh and logout after the lookup. -/
def AuthService.refreshed (config : Config) (hash : String) : SessionStatus → Svc Response
  | .notFound | .expired _ => throw (.unauthorized "Invalid token.")
  | .reuseDetected token => do
    SessionService.revokeAllTokens token.userId
    SessionService.clearRotationCache hash
    throw (.unauthorized "Security breach detected. Please log in again.")
  | .gracePeriod _ => do
    match ← SessionService.getRotationCache config hash with
    | some cached => return .tokens cached
    | none =>
      SessionService.clearRotationCache hash
      throw (.unauthorized "Invalid token.")
  | .active token => return .tokens (← AuthService.exchange config hash token)

def AuthService.loggedOut (hash : String) (userId : UserId) (jti : String) :
    SessionStatus → Svc Response
  | .notFound => return .done
  | .reuseDetected token => do
    SessionService.revokeAllTokens token.userId
    return .done
  | .active token => do
    AuthService.endSession hash userId jti token true
    return .done
  | .expired token | .gracePeriod token => do
    AuthService.endSession hash userId jti token false
    return .done

theorem refresh_looksUp (config : Config) (now : DateTime) (refreshToken : String) :
    ∃ next, (Request.refresh refreshToken).handler config =
      .call (.outside (.findToken (config.hashToken refreshToken))) next ∧
    LooksUp now (· = config.hashToken refreshToken) (config.hashToken refreshToken)
      (AuthService.refreshed config (config.hashToken refreshToken)) next := by
  obtain ⟨next, same, looks⟩ :=
    find_looksUp now (· = config.hashToken refreshToken) (config.hashToken refreshToken)
    (AuthService.refreshed config (config.hashToken refreshToken)) fun status => by
      cases status with
      | notFound | expired => trivial
      | reuseDetected token =>
        exact .bind (settled_revokeAll _) fun _ => .bind (settled_clear _) fun _ => trivial
      | gracePeriod token =>
        refine .bind (settled_replay _) fun cached => ?_
        cases cached with
        | none => exact .bind (settled_clear _) fun _ => trivial
        | some pair => trivial
      | active token => exact .bind (settled_exchange token rfl) fun _ => trivial
  refine ⟨next, ?_, looks⟩
  rw [← same]
  simp only [Request.handler, AuthService.refresh, Program.bind_def, Program.bind_assoc]
  congr 1
  funext status
  cases status with
  | gracePeriod token =>
    simp only [AuthService.refreshed, Program.bind_def, Program.bind_assoc]
    congr 1
    funext cached
    cases cached with
    | none => exact Program.bind_assoc ..
    | some pair => rfl
  | _ =>
    simp only [AuthService.refreshed, Program.bind_def, Program.bind_assoc,
      Program.throw_def, Program.throw_bind]

theorem logout_looksUp (config : Config) (now : DateTime) (own : String → Prop)
    (refreshToken : String) (userId : UserId) (jti : String) : ∃ next,
    (Request.logout refreshToken userId jti).handler config =
      .call (.outside (.findToken (config.hashToken refreshToken))) next ∧
    LooksUp now own (config.hashToken refreshToken)
      (AuthService.loggedOut (config.hashToken refreshToken) userId jti) next := by
  obtain ⟨next, same, looks⟩ := find_looksUp now own (config.hashToken refreshToken)
    (AuthService.loggedOut (config.hashToken refreshToken) userId jti) fun status => by
      cases status with
      | notFound => trivial
      | reuseDetected token => exact .bind (settled_revokeAll _) fun _ => trivial
      | active token | expired token | gracePeriod token =>
        exact .bind (settled_endSession ..) fun _ => trivial
  refine ⟨next, ?_, looks⟩
  rw [← same]
  simp only [Request.handler, AuthService.logout, Program.bind_def, Program.bind_assoc]
  congr 1
  funext status
  cases status <;> rfl

def Request.cleans : Request → Bool
  | .cleanupExpiredTokens _ => true
  | _ => false

/-- The other requests, to begin with. -/
theorem settled_handler {request : Request} (looks : request.presents = none)
    (cleans : request.cleans = false) :
    Settled now own (request.handler config) := by
  cases request with
  | refresh | logout => cases looks
  | cleanupExpiredTokens => cases cleans
  | register dto => exact .bind (settled_register dto) fun _ => trivial
  | login email password => exact .bind (settled_login email password) fun _ => trivial
  | logoutAll =>
    exact .bind (.bind (settled_revokeAll _) fun _ => settled_revokeAccessToken _) fun _ => trivial
  | changePassword => exact .bind (settled_changePassword ..) fun _ => trivial
  | closeAccount userId jti =>
    refine .bind (.bind (settled_outside rfl) fun user => ?_) fun _ => trivial
    cases user with
    | none => trivial
    | some user => exact settled_closeUser userId (settled_revokeAccessToken jti)
  | updateUserStatus => exact .bind (settled_updateUserStatus ..) fun _ => trivial
  | tick elapsed =>
    exact .bind (settled_transact rfl (by simp [TxCall.rotates]) rfl) fun _ => trivial

/-- What a cleanup performs. -/
def Cleaning : ServiceOp TxCall Outside → Prop
  | .transact c => c.sweeps
  | .outside x => x = .setLock ∨ x = .delLock ∨ x = .draw

theorem cleaning_handler {request : Request} (cleans : request.cleans) :
    (request.handler config).All Cleaning := by
  cases request with
  | cleanupExpiredTokens batches =>
    have sweeps : ∀ batchSize batches,
        (AuthRepository.deleteAllExpiredTokens batchSize batches).All Cleaning := by
      intro batchSize batches
      induction batches with
      | zero => trivial
      | succ batches ih =>
        refine .bind (all_outside.mpr (.inr (.inr rfl))) fun draw =>
          .bind (all_transact.mpr rfl) fun result => ?_
        split
        · trivial
        · exact .bind ih fun _ => trivial
    refine .bind (.bind (all_outside.mpr (.inl rfl)) fun acquired => ?_) fun _ => trivial
    cases acquired with
    | false => trivial
    | true =>
      refine .bind (.handle (.bind (sweeps ..) fun _ => trivial) fun _ => trivial) fun _ => ?_
      exact all_outside.mpr (.inr (.inl rfl))
  | _ => cases cleans

end Settled
end PaymentWallet.Sessions
