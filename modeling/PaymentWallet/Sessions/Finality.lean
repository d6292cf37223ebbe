import PaymentWallet.Foundation.Outline
import PaymentWallet.Sessions.Endings

/-! Refreshes beside the endings of all sessions of a user. What is there when an ending makes its
scan is revoked for good when it commits; a refresh keeps to an outline that says of each of its
steps whether its user is ACTIVE by then, and his sessions have not been ended. -/
namespace PaymentWallet.Sessions
open Foundation

/-- The token was created for the user, and since then all his sessions have been ended. -/
def Barred (σ : SharedState) (userId : UserId) (tokenHash : String) : Prop :=
  ∃ before c after, σ.log = before ++ c :: after ∧ c.revokesAll = some userId ∧
    Session { σ with log := before } userId tokenHash

/-- The token's user is ACTIVE. -/
def Enabled (σ : SharedState) (tokenHash : String) : Prop :=
  ∃ userId, Session σ userId tokenHash ∧ σ.db.Active userId

/-- He is ACTIVE, and his sessions have not been ended since the token was created. -/
def InForce (σ : SharedState) (tokenHash : String) : Prop :=
  ∃ userId, Session σ userId tokenHash ∧ σ.db.Active userId ∧ ¬ Barred σ userId tokenHash

/-- The statement is one of the revocations that follow a scan. -/
def Statement.revokes : Statement → Prop
  | .revokeIfActive .. => True
  | _ => False

/-- No revocation comes before the scan for what there is to revoke, and nothing else after it. -/
def Scans : Tx α → Prop
  | .pure _ | .throw _ => True
  | .call (.findUnrevoked _) next => ∀ found, (next found).All Statement.revokes
  | .call (.revokeIfActive ..) _ => False
  | .call _ next => ∀ reply, Scans (next reply)

/-- What is left to do of a transaction that ends all sessions of the user. What its scan
has not seen is none of his sessions. -/
inductive Ending (σ : SharedState) (userId : UserId) (body : Tx α) (writes : List Write) :
    Prop where
  | scans : Scans body → (∀ tokenHash, Closing userId tokenHash body writes) →
      Ending σ userId body writes
  | revokes : body.All Statement.revokes → (∀ tokenHash, Session σ userId tokenHash →
      Spent σ tokenHash ∨ Closing userId tokenHash body writes) → Ending σ userId body writes

section Endings
variable {config : Config} {σ σ' : SharedState} {userId : UserId} {tokenHash : String}
  {writes more ignored : List Write} {s : Statement} {next : s.Reply → Tx α} {reply : s.Reply}

theorem barred_commit {c : TxCall} {d' : Store} : Barred (σ.commit c d') userId tokenHash ↔
    Barred σ userId tokenHash ∨ c.revokesAll = some userId ∧ Session σ userId tokenHash := by
  constructor
  · rintro ⟨before, other, after, split, ends, session⟩
    rcases List.eq_nil_or_concat after with rfl | ⟨rest, last, rfl⟩
    · obtain ⟨rfl, same⟩ := List.append_inj' (show σ.log ++ [c] = before ++ [other] from split) rfl
      obtain rfl := (List.cons.inj same).1
      exact .inr ⟨ends, session⟩
    · left
      have parts : σ.log ++ [c] = (before ++ other :: rest) ++ [last] := by
        rw [List.append_assoc, List.cons_append]
        simpa [Shared.commit] using split
      exact ⟨before, other, rest, (List.append_inj' parts rfl).1, ends, session⟩
  · rintro (⟨before, other, after, split, ends, session⟩ | ⟨ends, session⟩)
    · exact ⟨before, other, after ++ [c], by simp [Shared.commit, split], ends, session⟩
    · exact ⟨σ.log, c, [], rfl, ends, session⟩

theorem Session.commit {c : TxCall} {d' : Store} (session : Session σ userId tokenHash) :
    Session (σ.commit c d') userId tokenHash := by
  obtain ⟨old, member, created⟩ := session
  exact ⟨old, List.mem_append_left _ member, created⟩

/-- A statement that has nothing to do with the token. -/
theorem Closing.pass (closing : Closing userId tokenHash (.call s next) writes)
    (passes : ¬ Handles userId tokenHash s reply) (gentle : ∀ w ∈ more, w.gentle) :
    Closing userId tokenHash (next reply) (writes ++ more) := by
  obtain ⟨steps, written, closes | through⟩ := closing
  · exact ⟨steps.2 reply, gentle_append written gentle, .inl (closes.kept gentle)⟩
  · exact ⟨steps.2 reply, gentle_append written gentle, .inr ((through reply).resolve_left passes)⟩

theorem Ending.read (ending : Ending σ userId (.call s next) writes) (sound : Sound config σ)
    (plain : s.plain = true) (exec : s.exec σ.db = .ok (reply, ignored)) :
    Ending σ userId (next reply) writes := by
  cases ending with
  | scans scans closes =>
    have pass : (∀ tokenHash, ¬ Handles userId tokenHash s reply) → ∀ tokenHash,
        Closing userId tokenHash (next reply) writes := by
      intro passes tokenHash
      have closing : Closing userId tokenHash (next reply) (writes ++ []) :=
        (closes tokenHash).pass (passes tokenHash) nofun
      rwa [List.append_nil] at closing
    cases s with
    | findUnrevoked =>
      exact .revokes (scans reply) fun tokenHash session =>
        (closes tokenHash).read session sound plain exec
    | newDate | count | findOldest | findExpired => exact .scans (scans reply) (pass fun _ => nofun)
    | _ => cases plain
  | revokes all =>
    cases s with
    | revokeIfActive => cases plain
    | _ => exact all.1.elim

theorem Ending.write (ending : Ending σ userId (.call s next) writes) (locked : s.plain = false)
    (exec : s.exec (postgres.view σ.db writes) = .ok (reply, more)) :
    Ending σ userId (next reply) (writes ++ more) := by
  cases ending with
  | scans scans closes =>
    have pass : (∀ tokenHash, ¬ Handles userId tokenHash s reply) → ∀ tokenHash,
        Closing userId tokenHash (next reply) (writes ++ more) := fun passes tokenHash =>
      (closes tokenHash).pass (passes tokenHash) (gentle_exec (closes tokenHash).steps.1 exec)
    cases s with
    | revokeIfActive => exact scans.elim
    | newDate | count | findOldest | findUnrevoked | findExpired => cases locked
    | _ => exact .scans (scans reply) (pass fun _ => nofun)
  | revokes all closes =>
    refine .revokes (all.2 reply) fun tokenHash session => ?_
    rcases closes tokenHash session with spent | closing
    · exact .inl spent
    · exact closing.write session locked exec

theorem Ending.commit {value : α} {c : TxCall} (ending : Ending σ userId (.pure value) writes)
    (session : Session σ userId tokenHash) :
    Spent σ tokenHash ∨ Spent (σ.commit c (postgres.view σ.db writes)) tokenHash := by
  cases ending with
  | scans _ closes => exact .inr ((closes tokenHash).commit session)
  | revokes _ closes =>
    exact (closes tokenHash session).imp_right fun closing => closing.commit session

/-- The steps of others, when none of them creates a session behind the scan. -/
theorem Ending.later {body : Tx α} (ending : Ending σ userId body writes)
    (spent : ∀ tokenHash, Spent σ tokenHash → Spent σ' tokenHash)
    (sessions : body.All Statement.revokes → ∀ tokenHash, Session σ' userId tokenHash →
      Session σ userId tokenHash) : Ending σ' userId body writes := by
  cases ending with
  | scans scans closes => exact .scans scans closes
  | revokes all closes =>
    exact .revokes all fun tokenHash session =>
      (closes tokenHash (sessions all tokenHash session)).imp_left (spent tokenHash)

theorem scans_scan {now : DateTime} {f : Nat → Tx α}
    (rest : ∀ count, (f count).All Statement.revokes) :
    Scans ((query (.findUnrevoked userId)).bind fun found => (revokeEach now found).bind f) :=
  fun found => (all_revokeEach (fun _ => trivial) found).bind rest

theorem ending_code {c : TxCall} (revokes : c.revokesAll = some userId) :
    Ending σ userId c.code [] := by
  refine .scans ?_ fun _ => closing_code revokes
  cases c with
  | revokeAllUserTokens id =>
    refine fun now => ?_
    have scan : Scans ((query (.findUnrevoked id)).bind fun found =>
        (revokeEach now found).bind Program.pure) := scans_scan fun _ => trivial
    simp only [Program.bind_pure] at scan
    exact scan
  | updatePasswordAndRevokeSessions => exact fun now _ => scans_scan fun _ => trivial
  | closeAccount id wallet =>
    have closes : Scans ((query (.updateUser id { status := some .closed })).bind fun _ =>
        (query .newDate).bind fun now => (query (.findUnrevoked id)).bind fun found =>
          (revokeEach now found).bind fun _ => .pure ()) := fun _ now => scans_scan fun _ => trivial
    cases wallet with
    | none => exact closes
    | some wallet =>
      simp only [TxCall.code, UsersRepository.closeAccount]
      split
      · trivial
      · exact closes
  | _ => cases revokes

end Endings

section Assertions
variable {config : Config} {σ : SharedState} {userId : UserId} {tokenHash : String}
  {c : TxCall} {d' : Store}

/-- What holds of the shared state when no rotation is raced. -/
structure Calm (config : Config) (σ : SharedState) : Prop where
  sound : Sound config σ
  barred : ∀ userId tokenHash, Barred σ userId tokenHash → Spent σ tokenHash
  replays : ∀ tokenHash, (σ.ext.cached σ.db.now tokenHash).isSome → InForce σ tokenHash

/-- What is asserted of the next operation of a request. -/
def Asserts (config : Config) : Request → ServiceOp TxCall Outside → SharedState → Prop
  | .refresh refreshToken, .outside (.expired token), σ =>
    Session σ token.userId (config.hashToken refreshToken)
  | .refresh refreshToken, .outside (.findById userId), σ =>
    Session σ userId (config.hashToken refreshToken)
  | .refresh refreshToken, .outside (.generateTokenPair ..), σ
    | .refresh refreshToken, .outside .getRefreshExpiry, σ
    | .refresh refreshToken, .outside .draw, σ => Enabled σ (config.hashToken refreshToken)
  | .refresh refreshToken, .transact c, σ => ∀ tokenHash, c.rotates = some tokenHash →
    tokenHash = config.hashToken refreshToken ∧ Enabled σ tokenHash
  | .refresh refreshToken, .outside (.setCache tokenHash _), σ =>
    tokenHash = config.hashToken refreshToken ∧ InForce σ tokenHash
  | .refresh _, _, _ => True
  | _, .outside (.setCache ..), _ => False
  | _, _, _ => True

/-- A refresh returns pairs for tokens in force. -/
def Serves (config : Config) (request : Request) (result : Except Exception Response)
    (σ : SharedState) : Prop :=
  ∀ refreshToken pair, request = .refresh refreshToken → result = .ok (.tokens pair) →
    InForce σ (config.hashToken refreshToken)

/-- What an operation does, where no rotation is raced. -/
def Does (config : Config) : (op : ServiceOp TxCall Outside) → SharedState →
    Except Exception (op.Result TxCall.Out Outside.Reply) → SharedState → Prop
  | .outside x, σ, reply, σ' => Calm config σ ∧
    ∃ pid ext, x.Answers config pid σ.db σ.ext reply ext ∧ σ' = { σ with ext := ext }
  | .transact c, σ, .ok _, σ' => Calm config σ ∧ ∃ d', c.Effect σ.db d' ∧ σ' = σ.commit c d'
  | .transact _, _, .error _, _ => True

theorem Session.unique {other : UserId} (session : Session σ userId tokenHash)
    (session' : Session σ other tokenHash) (sound : Sound config σ) : userId = other := by
  obtain ⟨c, member, data, creates, same, rfl⟩ := session
  obtain ⟨c', member', data', creates', same', rfl⟩ := session'
  obtain rfl := countP_unique (sound.once tokenHash) member member'
    (inserts_iff.mpr ⟨data, creates, same⟩) (inserts_iff.mpr ⟨data', creates', same'⟩)
  cases creates.symm.trans creates'
  rfl

theorem Enabled.commit (enabled : Enabled σ tokenHash) (effect : c.Effect σ.db d')
    (stays : ∀ userId, Session σ userId tokenHash → ¬ c.deactivates userId) :
    Enabled (σ.commit c d') tokenHash := by
  obtain ⟨userId, session, active⟩ := enabled
  exact ⟨userId, session.commit, effect.active userId (stays userId session) active⟩

theorem InForce.commit (inForce : InForce σ tokenHash) (effect : c.Effect σ.db d')
    (stays : ∀ userId, Session σ userId tokenHash → ¬ c.deactivates userId)
    (spares : ∀ userId, Session σ userId tokenHash → c.revokesAll ≠ some userId) :
    InForce (σ.commit c d') tokenHash := by
  obtain ⟨userId, session, active, unbarred⟩ := inForce
  have still := effect.active userId (stays userId session) active
  refine ⟨userId, session.commit, still, fun barred => ?_⟩
  rcases barred_commit.mp barred with before | ⟨revokes, _⟩
  · exact unbarred before
  · exact spares userId session revokes

/-- An exchange that commits has found its token unrevoked, and so it is not barred. -/
theorem Enabled.exchanged {data : NewToken} (enabled : Enabled σ tokenHash) (calm : Calm config σ)
    (effect : (TxCall.rotateRefreshToken tokenHash data).Effect σ.db d') :
    InForce (σ.commit (.rotateRefreshToken tokenHash data) d') tokenHash := by
  obtain ⟨userId, session, active⟩ := enabled
  obtain ⟨row, now, found, unrevoked, _⟩ := effect.rotated tokenHash rfl
  have unbarred : ¬ Barred σ userId tokenHash := by
    intro barred
    have revoked := (calm.barred userId tokenHash barred).2 row found
    simp [unrevoked] at revoked
  have inForce : InForce σ tokenHash := ⟨userId, session, active, unbarred⟩
  exact inForce.commit effect (fun _ _ => nofun) fun _ _ => nofun

end Assertions

section Outlines
variable {config : Config} {refreshToken tokenHash : String} {request : Request}

/-- The processes keep to this outline. -/
abbrev Outlined (config : Config) (request : Request)
    (post : Except Exception α → SharedState → Prop) (p : Svc α) : Prop :=
  p.Outlined (Does config) (Asserts config request) post

/-- Nothing is asserted. -/
def Unasserted : ServiceOp TxCall Outside → Prop
  | .transact c => c.rotates = none
  | .outside (.delCache _) => True
  | _ => False

theorem Unasserted.asserts {op : ServiceOp TxCall Outside} (unasserted : Unasserted op)
    (refreshToken : String) (σ : SharedState) : Asserts config (.refresh refreshToken) op σ := by
  rcases op with c | x
  · intro tokenHash rotates
    rw [show c.rotates = none from unasserted] at rotates
    cases rotates
  · cases x with
    | delCache => trivial
    | _ => exact unasserted.elim

/-- What ends in an exception promises nothing. -/
theorem outlined_fails {p : Svc α} {error : Exception} {f : α → Svc β}
    {post : Except Exception β → SharedState → Prop} (quiet : p.All Unasserted)
    (fails : ∀ error σ, post (.error error) σ) (throws : ∀ value, f value = .throw error) :
    Outlined config (.refresh refreshToken) post (p.bind f) ∧
      ∀ σ, (p.bind f).At (Asserts config (.refresh refreshToken)) post σ := by
  have between : ∀ result σ, Program.Between (Asserts config (.refresh refreshToken)) post f
      result σ := by
    rintro (error | value) σ
    · exact fails error σ
    · rw [Program.Between, throws]
      exact fails _ σ
  have all : p.All fun op => ∀ σ, Asserts config (.refresh refreshToken) op σ :=
    quiet.mono fun op unasserted σ => unasserted.asserts refreshToken σ
  refine ⟨.bind (.of_all all between) fun value => ?_, fun σ => ?_⟩
  · rw [throws]
    trivial
  · rw [Program.at_bind]
    exact Program.at_of_all all fun result => between result σ

theorem outlined_outside {x : Outside} {f : x.Reply → Svc α}
    {post : Except Exception α → SharedState → Prop} (fails : ∀ error σ, post (.error error) σ)
    (rest : ∀ value, (∀ σ pid ext, Asserts config request (.outside x) σ →
      x.Answers config pid σ.db σ.ext (.ok value) ext →
      (f value).At (Asserts config request) post { σ with ext := ext }) ∧
      Outlined config request post (f value)) :
    Outlined config request post ((outside x).bind f) := by
  rintro (error | value)
  · exact ⟨fun _ σ' _ _ => fails error σ', trivial⟩
  · refine ⟨?_, (rest value).2⟩
    rintro σ _ holds ⟨_, pid, ext, answers, rfl⟩
    exact (rest value).1 σ pid ext holds answers

theorem outlined_find {post : Except Exception SessionStatus → SharedState → Prop}
    (fails : ∀ error σ, post (.error error) σ)
    (active : ∀ token σ, Session σ token.userId (config.hashToken refreshToken) →
      post (.ok (.active token)) σ)
    (others : ∀ status σ, (∀ token, status ≠ .active token) → post (.ok status) σ) :
    Outlined config (.refresh refreshToken) post
      (AuthRepository.findRefreshTokenWithGrace (config.hashToken refreshToken)) := by
  rintro (error | _ | token)
  · exact ⟨fun _ σ' _ _ => fails error σ', trivial⟩
  · exact ⟨fun _ σ' _ _ => others _ σ' nofun, trivial⟩
  constructor
  · -- its row is that of a session
    rintro σ _ _ ⟨calm, pid, ext, ⟨rfl, found | lost⟩, rfl⟩
    · obtain ⟨c, member, data, creates, same, owner, _⟩ :=
        calm.sound.rows _ token (Except.ok.inj found).symm
      exact ⟨c, member, data, creates, same, owner⟩
    · cases lost
  refine outlined_outside fails fun expired => ?_
  cases expired with
  | true => exact ⟨fun _ _ _ _ _ => others _ _ nofun, trivial⟩
  | false =>
    obtain ⟨_, _, _, _, _, revokedAt⟩ := token
    cases revokedAt with
    | none => exact ⟨fun σ _ _ session _ => active _ _ session, trivial⟩
    | some revokedAt =>
      refine ⟨fun _ _ _ _ _ => trivial, outlined_outside fails fun within => ?_⟩
      cases within <;> exact ⟨fun _ _ _ _ _ => others _ _ nofun, trivial⟩

theorem outlined_replay {post : Except Exception (Option TokenPair) → SharedState → Prop}
    (misses : ∀ σ, post (.ok none) σ)
    (hits : ∀ pair σ, InForce σ (config.hashToken refreshToken) → post (.ok (some pair)) σ) :
    Outlined config (.refresh refreshToken) post
      (SessionService.getRotationCache config (config.hashToken refreshToken)) := by
  rintro (error | _ | cached)
  · exact ⟨fun _ σ' _ _ => misses σ', trivial⟩
  · exact ⟨fun _ σ' _ _ => misses σ', trivial⟩
  · refine ⟨?_, trivial⟩
    rintro σ _ _ ⟨calm, pid, ext, ⟨rfl, found | lost⟩, rfl⟩
    · have inForce := calm.replays (config.hashToken refreshToken) (by simp [← Except.ok.inj found])
      show post (.ok (config.decrypt cached)) σ
      cases config.decrypt cached with
      | none => exact misses σ
      | some pair => exact hits pair σ inForce
    · cases lost

theorem outlined_rotateToken {data : NewToken} {tokens : TokenPair}
    {post : Except Exception Unit → SharedState → Prop} (fails : ∀ error σ, post (.error error) σ)
    (done : ∀ σ, InForce σ (config.hashToken refreshToken) → post (.ok ()) σ) :
    Outlined config (.refresh refreshToken) post
      (SessionService.rotateToken config (config.hashToken refreshToken) data tokens) := by
  rintro (error | value)
  · exact ⟨fun _ σ' _ _ => fails error σ', trivial⟩
  constructor
  · rintro σ _ holds ⟨calm, d', effect, rfl⟩
    exact ⟨rfl, (holds _ rfl).2.exchanged calm effect⟩
  · intro reply
    constructor
    · rintro σ _ ⟨_, inForce⟩ ⟨_, pid, ext, _, rfl⟩
      cases reply <;> exact done _ inForce
    · cases reply <;> trivial

theorem outlined_exchange {post : Except Exception TokenPair → SharedState → Prop}
    (fails : ∀ error σ, post (.error error) σ)
    (serves : ∀ pair σ, InForce σ (config.hashToken refreshToken) → post (.ok pair) σ)
    (token : RefreshToken) :
    Outlined config (.refresh refreshToken) post
      (AuthService.exchange config (config.hashToken refreshToken) token) := by
  refine outlined_outside fails fun user => ?_
  cases user with
  | none => exact ⟨fun _ _ _ _ _ => fails _ _, trivial⟩
  | some user =>
    dsimp only
    by_cases inactive : user.status ≠ .active
    · rw [if_pos inactive]
      exact ⟨fun _ _ _ _ _ => fails _ _, trivial⟩
    · rw [if_neg inactive]
      constructor
      · rintro σ _ _ session ⟨rfl, found | lost⟩
        · exact ⟨token.userId, session, user, (Except.ok.inj found).symm, not_not.mp inactive⟩
        · cases lost
      refine outlined_outside fails fun tokens => ⟨fun _ _ _ enabled _ => enabled, ?_⟩
      refine outlined_outside fails fun expiresAt => ⟨fun _ _ _ enabled _ => enabled, ?_⟩
      refine outlined_outside fails fun draw => ⟨?_, ?_⟩
      · rintro σ _ _ enabled _ _ ⟨⟩
        exact ⟨rfl, enabled⟩
      · refine .bind (outlined_rotateToken fails fun σ inForce => ?_) fun _ => trivial
        exact serves tokens σ inForce

theorem outlined_refresh {post : Except Exception TokenPair → SharedState → Prop}
    (fails : ∀ error σ, post (.error error) σ)
    (serves : ∀ pair σ, InForce σ (config.hashToken refreshToken) → post (.ok pair) σ) :
    Outlined config (.refresh refreshToken) post (AuthService.refresh config refreshToken) := by
  have clears : ∀ error, Outlined config (.refresh refreshToken) post
      ((SessionService.clearRotationCache (config.hashToken refreshToken)).bind
        fun _ => .throw error) ∧
      ∀ σ, ((SessionService.clearRotationCache (config.hashToken refreshToken)).bind
        fun _ => .throw error).At (Asserts config (.refresh refreshToken)) post σ :=
    fun error => outlined_fails (.handle ⟨trivial, fun reply => by cases reply <;> trivial⟩
      fun _ => trivial) fails fun _ => rfl
  refine .bind (outlined_find fails (fun token σ session => session) ?_) ?_
  · intro status σ other
    cases status with
    | active token => exact absurd rfl (other token)
    | notFound | expired => exact fails _ σ
    | gracePeriod => trivial
    | reuseDetected => exact fun _ => nofun
  · intro status
    cases status with
    | notFound | expired => trivial
    | active token => exact outlined_exchange fails serves token
    | gracePeriod token =>
      have invalid := clears (.unauthorized "Invalid token.")
      refine .bind (outlined_replay invalid.2 serves) fun cached => ?_
      cases cached with
      | none => exact invalid.1
      | some pair => trivial
    | reuseDetected token =>
      have breach := clears (.unauthorized "Security breach detected. Please log in again.")
      refine .bind (.bind ?_ fun _ => trivial) fun _ => breach.1
      rintro (error | count)
      · exact ⟨fun _ σ' _ _ => fails error σ', trivial⟩
      · exact ⟨fun _ σ' _ _ => breach.2 σ', trivial⟩

/-- No entry for the replay cache. -/
def Uncached (op : ServiceOp TxCall Outside) : Prop :=
  ∀ tokenHash encrypted, op ≠ .outside (.setCache tokenHash encrypted)

theorem uncached_admits : Admits Uncached where
  outside x common tokenHash encrypted := by
    rintro ⟨⟩
    cases common
  ends _ _ := nofun

/-- Every request keeps to its outline, to which nothing need be known at its start. -/
theorem outlined_handler (request : Request) :
    Outlined config request (Serves config request) (request.handler config) ∧
      ∀ σ, (request.handler config).At (Asserts config request) (Serves config request) σ := by
  by_cases refreshes : ∃ refreshToken, request = .refresh refreshToken
  · obtain ⟨refreshToken, rfl⟩ := refreshes
    refine ⟨.bind (outlined_refresh ?_ ?_) fun _ => trivial, fun σ => trivial⟩
    · rintro error σ _ _ _ ⟨⟩
    · rintro pair σ inForce _ _ ⟨⟩ ⟨⟩
      exact inForce
  · have other : ∀ refreshToken, request ≠ .refresh refreshToken := fun refreshToken same =>
      refreshes ⟨refreshToken, same⟩
    have uncached : (request.handler config).All Uncached :=
      all_handler uncached_admits request other (fun _ _ _ => nofun) (fun _ _ _ => nofun)
        fun _ => ⟨nofun, nofun⟩
    have all : (request.handler config).All fun op => ∀ σ, Asserts config request op σ := by
      refine uncached.mono fun op uncached σ => ?_
      cases request with
      | refresh refreshToken => exact absurd rfl (other refreshToken)
      | _ =>
        rcases op with c | x
        · trivial
        · cases x with
          | setCache tokenHash encrypted => exact absurd rfl (uncached tokenHash encrypted)
          | _ => trivial
    have ends : ∀ result σ, Serves config request result σ :=
      fun result σ refreshToken pair same => absurd same (other refreshToken)
    exact ⟨.of_all all ends, fun σ => Program.at_of_all all fun result => ends result σ⟩

end Outlines
end PaymentWallet.Sessions
