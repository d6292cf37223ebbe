import PaymentWallet.Sessions.Availability
import PaymentWallet.Sessions.Executions
import PaymentWallet.Sessions.Invariants
import PaymentWallet.Sessions.Schedules

/-! Logouts, with Redis and the database at hand. A logout with an unknown or a reused
token returns before it denies the access token that came with the request. -/
namespace PaymentWallet.Sessions
open Foundation

/-- The class of the token with this hash, at this time. -/
def Store.classify (d : Store) (hash : String) : SessionStatus :=
  match d.refreshTokens.get? hash with
  | none => .notFound
  | some token =>
    if token.expiresAt ≤ d.now then .expired token
    else
      match token.revokedAt with
      | none => .active token
      | some revokedAt =>
        if d.now - revokedAt ≤ gracePeriodSeconds * 1000 then .gracePeriod token
          else .reuseDetected token

/-- The caller's access token is denied, and the refresh token does not help any more. -/
structure Ended (config : Config) (refreshToken jti : String) (σ : SharedState) : Prop where
  denied : σ.ext.denied σ.db.now jti
  inactive : ∀ token, σ.db.classify (config.hashToken refreshToken) ≠ .active token
  refused : ∀ elapsed pid pair σ', ¬ (AuthService.refresh config refreshToken).Runs
    ((sessions config).Alone anything pid) (after σ elapsed) (.ok pair) σ'

/-- A logout that returns has ended the session; one that throws has changed nothing. -/
def LogsOut (config : Config) (refreshToken jti : String) (result : Except Exception Unit)
    (σ σ' : SharedState) : Prop :=
  match result with
  | .ok _ => Ended config refreshToken jti σ'
  | .error _ => σ' = σ

/-- What a class tells about the token. -/
def SessionStatus.Tells (d : Store) (hash : String) : SessionStatus → Prop
  | .notFound => d.refreshTokens.get? hash = none
  | .expired token => d.refreshTokens.get? hash = some token ∧ token.expiresAt ≤ d.now
  | .active token => d.refreshTokens.get? hash = some token ∧ token.revokedAt = none
  | .gracePeriod token => d.refreshTokens.get? hash = some token ∧ token.revokedAt.isSome
  | .reuseDetected token => d.refreshTokens.get? hash = some token ∧
    ∃ revokedAt, token.revokedAt = some revokedAt ∧ gracePeriodSeconds * 1000 < d.now - revokedAt

/-- The classes at which a logout returns early. -/
def SessionStatus.skipped : SessionStatus → Bool
  | .notFound | .reuseDetected _ => true
  | _ => false

section Finding
variable {config : Config} {pid : Nat} {σ σ' : SharedState} {hash : String}
  {step : (op : ServiceOp TxCall Outside) → SharedState →
    Except Exception (op.Result TxCall.Out Outside.Reply) →
    SharedState → Prop}

variable {sure : Prop} (answering : Answering config pid sure step)
include answering

theorem find_runs {result : Except Exception SessionStatus}
    (run : (AuthRepository.findRefreshTokenWithGrace hash).Runs step σ result σ') :
    σ' = σ ∧ (result = .ok (σ.db.classify hash) ∨ ¬ sure ∧ ∃ error, result = .error error) := by
  rcases runs_ask answering run with
    ⟨found, _, ⟨rfl, present | lost⟩, rest⟩ | ⟨_, _, ⟨rfl, present | lost⟩, held, rfl, rfl⟩
  · obtain rfl := Except.ok.inj present
    unfold Store.classify
    cases found : σ.db.refreshTokens.get? hash with
    | none =>
      rw [found] at rest
      exact ⟨(Program.runs_pure.mp rest).2, .inl (Program.runs_pure.mp rest).1⟩
    | some token =>
      rw [found] at rest
      rcases runs_ask answering rest with ⟨expired, _, ⟨rfl, read⟩, rest⟩ | ⟨_, _, ⟨_, read⟩, _⟩
      swap
      · cases read
      obtain rfl := Except.ok.inj read
      by_cases expired : token.expiresAt ≤ σ.db.now
      · rw [decide_eq_true expired] at rest
        simp only [if_pos expired]
        exact ⟨(Program.runs_pure.mp rest).2, .inl (Program.runs_pure.mp rest).1⟩
      · rw [decide_eq_false expired] at rest
        simp only [if_neg expired]
        replace rest : Program.Runs step (match token.revokedAt with | none => _ | some _ => _)
          σ result σ' := rest
        cases time : token.revokedAt with
        | none =>
          rw [time] at rest
          exact ⟨(Program.runs_pure.mp rest).2, .inl (Program.runs_pure.mp rest).1⟩
        | some revokedAt =>
          rw [time] at rest
          rcases runs_ask answering rest with ⟨within, _, ⟨rfl, read⟩, rest⟩ | ⟨_, _, ⟨_, read⟩, _⟩
          swap
          · cases read
          obtain rfl := Except.ok.inj read
          dsimp only
          by_cases within : σ.db.now - revokedAt ≤ gracePeriodSeconds * 1000
          · rw [decide_eq_true within] at rest
            rw [if_pos within]
            exact ⟨(Program.runs_pure.mp rest).2, .inl (Program.runs_pure.mp rest).1⟩
          · rw [decide_eq_false within] at rest
            rw [if_neg within]
            exact ⟨(Program.runs_pure.mp rest).2, .inl (Program.runs_pure.mp rest).1⟩
  · cases lost
  · cases present
  · cases lost
    exact ⟨rfl, .inr ⟨fun sure => held sure rfl, _, rfl⟩⟩

end Finding

/-- Nothing is left that a refresh of the token could hand out, now or later. -/
def Spoiled (hash : String) (σ : SharedState) : Prop :=
  ∀ token, σ.db.refreshTokens.get? hash = some token → token.expiresAt ≤ σ.db.now ∨
    ∃ revokedAt, token.revokedAt = some revokedAt ∧
      (gracePeriodSeconds * 1000 < σ.db.now - revokedAt ∨ σ.ext.cache hash = none)

theorem Store.classify_tells (d : Store) (hash : String) : (d.classify hash).Tells d hash := by
  unfold Store.classify
  cases found : d.refreshTokens.get? hash with
  | none => exact found
  | some token =>
    dsimp only
    split
    · exact ⟨found, ‹_›⟩
    cases time : token.revokedAt with
    | none => exact ⟨found, time⟩
    | some revokedAt =>
      dsimp only
      split
      · exact ⟨found, by simp [time]⟩
      · exact ⟨found, revokedAt, time, Nat.not_le.mp ‹_›⟩

section Refreshes
variable {config : Config} {pid : Nat} {σ σ' : SharedState} {hash : String}

theorem Spoiled.after (spoiled : Spoiled hash σ) (elapsed : Nat) :
    Spoiled hash (after σ elapsed) := by
  intro token found
  rcases spoiled token found with expired | ⟨revokedAt, revoked, late | cleared⟩
  · exact .inl (expired.trans (Nat.le_add_right _ _))
  · exact .inr ⟨revokedAt, revoked,
      .inl (late.trans_le (Nat.sub_le_sub_right (Nat.le_add_right _ _) _))⟩
  · exact .inr ⟨revokedAt, revoked, .inr cleared⟩

/-- What the classes tell of a spoiled token. -/
theorem Spoiled.classified (spoiled : Spoiled hash σ) :
    (∀ token, σ.db.classify hash ≠ .active token) ∧
    ∀ token, σ.db.classify hash = .gracePeriod token → σ.ext.cache hash = none := by
  unfold Store.classify
  cases found : σ.db.refreshTokens.get? hash with
  | none => exact ⟨nofun, nofun⟩
  | some token =>
    dsimp only
    rcases spoiled token found with expired | ⟨revokedAt, revoked, late | cleared⟩
    · rw [if_pos expired]
      exact ⟨nofun, nofun⟩
    · simp only [revoked, if_neg (Nat.not_le.mpr late)]
      split <;> exact ⟨nofun, nofun⟩
    · simp only [revoked]
      split
      · exact ⟨nofun, nofun⟩
      · split <;> exact ⟨nofun, fun _ _ => cleared⟩

theorem runs_throws {p : Svc α} {f : α → Svc β} {value : β}
    {step : (op : ServiceOp TxCall Outside) → SharedState →
      Except Exception (op.Result TxCall.Out Outside.Reply) →
      SharedState → Prop}
    (throws : ∀ value σ, ¬ ∃ result, (f value).Runs step σ (.ok result) σ') :
    ¬ (p.bind f).Runs step σ (.ok value) σ' := by
  intro run
  rcases Program.runs_bind.mp run with ⟨first, σ₁, _, rest⟩ | ⟨_, _, failed⟩
  · exact throws first σ₁ ⟨value, rest⟩
  · cases failed

theorem replay_empty {result : Except Exception (Option TokenPair)}
    (cleared : σ.ext.cache hash = none)
    (run : (SessionService.getRotationCache config hash).Runs
      ((sessions config).Alone anything pid) σ result σ') :
    result = .ok none := by
  rcases Program.runs_handle.mp run with ⟨value, reads, rfl⟩ | ⟨_, _, _, returned⟩
  · rcases runs_ask answering_alone reads with ⟨found, _, ⟨rfl, present | lost⟩,
      rest⟩ | ⟨_, _, _, _, failed, _⟩
    · have missing : σ.ext.cached σ.db.now hash = none := by simp [Ext.cached, cleared]
      rw [missing] at present
      cases present
      exact (Program.runs_pure.mp rest).1
    · cases lost
    · cases failed
  · exact (Program.runs_pure.mp returned).1

/-- A refresh of a spoiled token throws, whether or not its steps succeed. -/
theorem Spoiled.refused {refreshToken : String}
    (spoiled : Spoiled (config.hashToken refreshToken) σ) (pair : TokenPair) :
    ¬ (AuthService.refresh config refreshToken).Runs ((sessions config).Alone anything pid)
      σ (.ok pair) σ' := by
  intro run
  obtain ⟨inactive, graceful⟩ := spoiled.classified
  rcases Program.runs_bind.mp run with ⟨status, σ₁, finds, rest⟩ | ⟨_, _, failed⟩
  swap
  · cases failed
  obtain ⟨rfl, classified | ⟨_, _, failed⟩⟩ := find_runs answering_alone finds
  swap
  · cases failed
  cases status with
  | notFound | expired => cases (Program.runs_throw.mp rest).1
  | active token => exact inactive token (Except.ok.inj classified).symm
  | reuseDetected token =>
    refine runs_throws (fun _ σ₂ ⟨_, rest⟩ => ?_) rest
    refine runs_throws (fun _ σ₃ ⟨_, thrown⟩ => ?_) rest
    cases (Program.runs_throw.mp thrown).1
  | gracePeriod token =>
    have cleared := graceful token (Except.ok.inj classified).symm
    rcases Program.runs_bind.mp rest with ⟨cached, σ₂, replays, rest⟩ | ⟨_, _, failed⟩
    · cases replay_empty cleared replays
      refine runs_throws (fun _ σ₃ ⟨_, thrown⟩ => ?_) rest
      cases (Program.runs_throw.mp thrown).1
    · cases failed

theorem Spoiled.ended {refreshToken jti : String}
    (spoiled : Spoiled (config.hashToken refreshToken) σ)
    (denied : σ.ext.denied σ.db.now jti) : Ended config refreshToken jti σ where
  denied := denied
  inactive := spoiled.classified.1
  refused elapsed _ pair _ := (spoiled.after elapsed).refused pair

end Refreshes

section Logout
variable {config : Config} {pid : Nat} {σ σ' : SharedState} {hash userId jti : String}
  {token : RefreshToken} {result : Except Exception Unit}

theorem available_clear
    (run : (SessionService.clearRotationCache hash).Runs (Available config pid) σ result σ') :
    result = .ok () ∧ σ' = { σ with ext := σ.ext.delCache hash } := by
  rcases Program.runs_handle.mp run with ⟨_, clears, rfl⟩ | ⟨error, _, clears, _⟩
  · obtain ⟨_, ext, answers, rfl⟩ := answering_available (Service.runs_outside.mp clears)
    cases answers
    exact ⟨rfl, rfl⟩
  · obtain ⟨held, ext, answers, _⟩ := answering_available (Service.runs_outside.mp clears)
    cases answers <;> exact absurd rfl (held trivial)

theorem available_deny
    (run : (SessionService.revokeAccessToken jti).Runs (Available config pid) σ result σ') :
    result = .ok () ∧ σ' =
      { σ with ext := σ.ext.deny jti σ.db.now config.getAccessTokenTtlSeconds } := by
  rcases Program.runs_handle.mp run with ⟨_, denies, rfl⟩ | ⟨error, _, denies, _⟩
  · obtain ⟨_, ext, answers, rfl⟩ := answering_available (Service.runs_outside.mp denies)
    cases answers
    exact ⟨rfl, rfl⟩
  · obtain ⟨held, ext, answers, _⟩ := answering_available (Service.runs_outside.mp denies)
    cases answers <;> exact absurd rfl (held trivial)

/-- The end of a logout denies the access token, clears the cache, and revokes an ACTIVE token. -/
theorem available_endSession {isActive : Bool}
    (run : (AuthService.endSession hash userId jti token isActive).Runs
      (Available config pid) σ result σ') :
    (∃ error, result = .error error ∧ σ' = σ) ∨
    result = .ok () ∧ σ'.db = (if isActive then σ.db.revokeIfActive hash σ.db.now else σ.db) ∧
      σ'.ext = (σ.ext.delCache hash).deny jti σ.db.now config.getAccessTokenTtlSeconds := by
  unfold AuthService.endSession at run
  split at run
  · obtain ⟨rfl, rfl⟩ := Program.runs_throw.mp run
    exact .inl ⟨_, rfl, rfl⟩
  refine .inr ?_
  rcases Program.runs_bind.mp run with ⟨_, σ₁, clears, rest⟩ | ⟨_, clears, _⟩
  swap
  · cases (available_clear clears).1
  obtain ⟨_, rfl⟩ := available_clear clears
  rcases Program.runs_bind.mp rest with ⟨_, σ₂, denies, rest⟩ | ⟨_, denies, _⟩
  swap
  · cases (available_deny denies).1
  obtain ⟨_, rfl⟩ := available_deny denies
  cases isActive with
  | false =>
    obtain ⟨rfl, rfl⟩ := Program.runs_pure.mp rest
    exact ⟨rfl, rfl, rfl⟩
  | true =>
    obtain ⟨count, ran⟩ := run_revokeRefreshToken σ.db hash
    rcases Program.runs_bind.mp rest with ⟨_, σ₃, revokes, rest⟩ | ⟨_, revokes, _⟩
    · obtain ⟨_, rfl⟩ := available_transact revokes ran
      obtain ⟨rfl, rfl⟩ := Program.runs_pure.mp rest
      exact ⟨rfl, rfl, rfl⟩
    · cases (available_transact revokes ran).1

theorem available_revokeAll
    (run : (SessionService.revokeAllTokens userId).Runs (Available config pid) σ result σ') :
    result = .ok () ∧ σ'.ext = σ.ext ∧ ∃ hashes : List String,
      σ'.db = hashes.foldl (·.revokeIfActive · σ.db.now) σ.db := by
  obtain ⟨count, hashes, ran⟩ := run_revokeAllUserTokens σ.db userId
  rcases Program.runs_bind.mp run with ⟨_, σ₁, revokes, rest⟩ | ⟨_, revokes, _⟩
  · obtain ⟨_, rfl⟩ := available_transact revokes ran
    obtain ⟨rfl, rfl⟩ := Program.runs_pure.mp rest
    exact ⟨rfl, rfl, hashes, rfl⟩
  · cases (available_transact revokes ran).1

theorem denied_deny {ext : Ext} {now : DateTime} :
    (ext.deny jti now config.getAccessTokenTtlSeconds).denied now jti := by
  have later : now < now + config.getAccessTokenTtlSeconds * 1000 :=
    Nat.lt_add_of_pos_right (Nat.mul_pos config.getAccessTokenTtlSeconds_pos (by decide))
  simp [Ext.denied, Ext.deny, later]

/-- A logout that gets to its end has thrown before it changed anything, or denies the access
token. -/
theorem endSession_logsOut {refreshToken : String} {isActive : Bool}
    (run : (AuthService.endSession (config.hashToken refreshToken) userId jti token isActive).Runs
      (Available config pid) σ result σ')
    (spoils : ∀ σ₁ : SharedState,
      σ₁.db = (if isActive then σ.db.revokeIfActive (config.hashToken refreshToken) σ.db.now
      else σ.db) →
      σ₁.ext.cache (config.hashToken refreshToken) = none →
        Spoiled (config.hashToken refreshToken) σ₁) :
    LogsOut config refreshToken jti result σ σ' := by
  rcases available_endSession run with ⟨error, rfl, rfl⟩ | ⟨rfl, db, ext⟩
  · rfl
  · have spoiled := spoils σ' db (by simp [ext, Ext.deny, Ext.delCache])
    have now : σ'.db.now = σ.db.now := by
      rw [db]
      split <;> simp
    refine spoiled.ended ?_
    rw [ext, now]
    exact denied_deny

/-- A logout does what it owes, unless it returns early and the access token was not denied
before. -/
theorem logout_ends {refreshToken : String}
    (run : (AuthService.logout config refreshToken userId jti).Runs
      (Available config pid) σ result σ') :
    LogsOut config refreshToken jti result σ σ' ↔
      (σ.db.classify (config.hashToken refreshToken)).skipped = false ∨
        σ.ext.denied σ.db.now jti := by
  rcases Program.runs_bind.mp run with ⟨status, σ₁, finds, rest⟩ | ⟨_, finds, _⟩
  swap
  · obtain ⟨_, found | ⟨lossy, _⟩⟩ := find_runs answering_available finds
    · cases found
    · exact absurd trivial lossy
  obtain ⟨rfl, classified | ⟨lossy, _⟩⟩ := find_runs answering_available finds
  swap
  · exact absurd trivial lossy
  have tells := σ₁.db.classify_tells (config.hashToken refreshToken)
  rw [← Except.ok.inj classified] at tells ⊢
  cases status with
  | notFound =>
    obtain ⟨rfl, rfl⟩ := Program.runs_pure.mp rest
    have spoiled : Spoiled (config.hashToken refreshToken) σ' :=
      fun token found => by cases tells.symm.trans found
    exact ⟨fun ended => .inr ended.denied, fun met => spoiled.ended (met.resolve_left nofun)⟩
  | reuseDetected token =>
    obtain ⟨found, revokedAt, revoked, late⟩ := tells
    obtain ⟨rfl, ext, hashes, db⟩ := available_revokeAll rest
    have now : σ'.db.now = σ₁.db.now := by simp [db]
    have kept : σ'.db.refreshTokens.get? (config.hashToken refreshToken) = some token :=
      db ▸ get?_revokeEach found (by simp [revoked])
    have spoiled : Spoiled (config.hashToken refreshToken) σ' := by
      intro other found'
      cases kept.symm.trans found'
      exact .inr ⟨revokedAt, revoked, .inl (now ▸ late)⟩
    have same : σ'.ext.denied σ'.db.now jti = σ₁.ext.denied σ₁.db.now jti := by rw [ext, now]
    exact ⟨fun ended => .inr (same ▸ ended.denied), fun met =>
      spoiled.ended (same ▸ met.resolve_left nofun)⟩
  | expired token =>
    refine iff_of_true (endSession_logsOut rest fun σ₂ db _ other found => .inl ?_) (.inl rfl)
    rw [db] at found ⊢
    cases tells.1.symm.trans found
    exact tells.2
  | gracePeriod token =>
    refine iff_of_true (endSession_logsOut rest fun σ₂ db cleared other found => .inr ?_) (.inl rfl)
    rw [db] at found
    cases tells.1.symm.trans found
    obtain ⟨revokedAt, revoked⟩ := Option.isSome_iff_exists.mp tells.2
    exact ⟨revokedAt, revoked, .inr cleared⟩
  | active token =>
    refine iff_of_true (endSession_logsOut rest fun σ₂ db cleared other found => .inr ?_) (.inl rfl)
    rw [db, if_pos rfl, get?_revokeIfActive, tells.1] at found
    obtain rfl := Option.some.inj found
    obtain ⟨revokedAt, revoked⟩ := Option.isSome_iff_exists.mp (token.ended_isSome σ₁.db.now)
    exact ⟨revokedAt, by simpa using revoked, .inr cleared⟩

end Logout

section Sample

/-- Alice's session. -/
def session : RefreshToken := ⟨"session", "alice", "hash-first", 0, 604800000, none⟩

/-- A store with one session, a minute after the login. -/
def oneSession : SharedState :=
  ⟨{ Store.empty with now := 60000, refreshTokens := Table.empty.put session }, [], Ext.idle⟩

/-- She logs out of it. -/
theorem logout_ends_active :
    ∃ σ', (AuthService.logout (.sample 10) "first" "alice" "jti").Runs (Available (.sample 10) 0)
      oneSession (.ok ()) σ' ∧
    (LogsOut (.sample 10) "first" "jti" (.ok ()) oneSession σ' ↔
      (oneSession.db.classify ((Config.sample 10).hashToken "first")).skipped = false ∨
        oneSession.ext.denied oneSession.db.now "jti") := by
  have run : ∃ σ', (AuthService.logout (.sample 10) "first" "alice" "jti").Runs
    (Available (.sample 10) 0) oneSession (.ok ()) σ' :=
    ⟨_, .call ⟨.outside trivial ⟨rfl, .inl rfl⟩,
      nofun⟩ <| .call ⟨.outside trivial ⟨rfl, rfl⟩, nofun⟩ <|
      .call ⟨.outside trivial .done, nofun⟩ <| .call ⟨.outside trivial .done, nofun⟩ <|
      .call ⟨.commit trivial rfl, nofun⟩ .pure⟩
  obtain ⟨σ', run⟩ := run
  exact ⟨σ', run, logout_ends run⟩

/-- A logout with a token that the cleanup has deleted. -/
theorem logout_skips :
    ¬ ∀ (config : Config) (pid : Nat) (σ σ' : SharedState) (refreshToken userId jti : String)
    (result : Except Exception Unit),
      (AuthService.logout config refreshToken userId jti).Runs (Available config pid) σ result σ' →
      LogsOut config refreshToken jti result σ σ' := by
  intro claim
  have run : (AuthService.logout (.sample 10) "deleted" "alice" "jti").Runs
    (Available (.sample 10) 0) oneSession (.ok ()) oneSession :=
    .call ⟨.outside trivial ⟨rfl, .inl rfl⟩, nofun⟩ .pure
  have denied := (claim _ _ _ _ _ _ _ _ run).denied
  revert denied
  decide

end Sample
end PaymentWallet.Sessions
