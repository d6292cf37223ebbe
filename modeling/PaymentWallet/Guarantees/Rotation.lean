import PaymentWallet.Sessions.Rotation
import PaymentWallet.Sessions.Schedules

/-! Rotation of refresh tokens is a linear chain with idempotent replay. -/
namespace PaymentWallet.Sessions
open Foundation

/-- The process has served a refresh of the token and returned the pair. -/
def Returns (w : State) (pid : Nat) (refreshToken : String) (pair : TokenPair) : Prop :=
  w.procs pid = some (.refresh refreshToken, .running (.pure (.tokens pair)))

/-- One rotation at most, and one pair for all who asked for it. -/
structure RotatedOnce (config : Config) (w : State) (refreshToken : String) : Prop where
  once : w.shared.log.countP (TxCall.exchanges (config.hashToken refreshToken)) ≤ 1
  issued : ∀ pid pair, Returns w pid refreshToken pair → ∃ data,
    .rotateRefreshToken (config.hashToken refreshToken) data ∈ w.shared.log ∧
      config.hashToken pair.refreshToken = data.tokenHash ∧
        ∃ issue ∈ w.shared.ext.issued, issue.pair = pair
  same : ∀ pid other pair pair', Returns w pid refreshToken pair →
    Returns w other refreshToken pair' → pair = pair'

section Runs
variable {config : Config} {w w' : State}

theorem Reachable.returns (run : Reachable config w) {pid : Nat}
    {refreshToken : String} {pair : TokenPair} (returns : Returns w pid refreshToken pair) :
    Exchanged config w.shared (config.hashToken refreshToken) pair :=
  run.safe.procs returns _ .refl run.safe.inv refreshToken pair rfl rfl

/-- Two pairs from exchanges of one token are the same pair. -/
theorem Sound.pair_unique {σ : SharedState} {tokenHash : String} {pair pair' : TokenPair}
    (sound : Sound config σ)
    (first : Exchanged config σ tokenHash pair) (second : Exchanged config σ tokenHash pair') :
    pair = pair' := by
  obtain ⟨data, rotated, ⟨issue, member, rfl⟩, hash⟩ := first
  obtain ⟨data', rotated', ⟨issue', member', rfl⟩, hash'⟩ := second
  have one := countP_unique (sound.single tokenHash) rotated rotated'
    (by simp [TxCall.exchanges, TxCall.rotates]) (by simp [TxCall.exchanges, TxCall.rotates])
  cases one
  rw [List.inj_on_of_nodup_map sound.distinct member member' (hash.trans hash'.symm)]

/-- A row that is revoked stays so, in all that follows. -/
theorem Reachable.revoked (run : Reachable config w)
    (later : (sessions config).Reaches anything w w') {tokenHash : String} {row row' : RefreshToken}
    (found : w.shared.db.refreshTokens.get? tokenHash = some row) (revoked : row.revokedAt.isSome)
    (found' : w'.shared.db.refreshTokens.get? tokenHash = some row') :
    row'.revokedAt.isSome := by
  have moves := (Protocol.Safe.reaches (sessions_disciplined config anything)
    (fun sound _ => rotations_starts sound _) run.safe later).2
  obtain ⟨c, member, data, creates, rfl, _⟩ := run.safe.inv.rows tokenHash row found
  have spent : Spent w.shared data.tokenHash := by
    refine ⟨inserted member creates, fun other same => ?_⟩
    cases found.symm.trans same
    exact revoked
  have stays : Spent w'.shared data.tokenHash := by
    generalize w'.shared = σ at moves
    induction moves with
    | refl => exact spent
    | tail _ move ih =>
      obtain ⟨_, ⟨pid, _, guar⟩ | ⟨ext, _, expired, rfl⟩⟩ := move
      · exact ih.move guar
      · have moved : Move config 0 _ _ := Expire.move expired 0
        exact ih.move moved
  exact stays.2 row' found'

/-- However refreshes, logins, logouts, revocations, evictions and cleanups interleave. -/
theorem rotation_linear (run : Reachable config w) :
    (∀ refreshToken, RotatedOnce config w refreshToken) ∧
    ∀ w', (sessions config).Reaches anything w w' → ∀ tokenHash row row',
      w.shared.db.refreshTokens.get? tokenHash = some row → row.revokedAt.isSome →
      w'.shared.db.refreshTokens.get? tokenHash = some row' → row'.revokedAt.isSome := by
  refine ⟨fun refreshToken => ⟨run.safe.inv.single _, fun pid pair returns => ?_,
    fun pid other pair pair' first second => ?_⟩,
    fun w' later tokenHash row row' => run.revoked later⟩
  · obtain ⟨data, rotated, issued, hash⟩ := run.returns returns
    exact ⟨data, rotated, hash, issued⟩
  · exact run.safe.inv.pair_unique (run.returns first) (run.returns second)

end Runs

namespace Script

def pair (label : String) : TokenPair := ⟨"access-" ++ label, label⟩

def draws (label : String) : Turn Choice := .answer { draw := ⟨label, 0, "secret", 0, none, []⟩ }

def generates (label : String) : Turn Choice := .answer { tokens := pair label }

def registers (pid : Nat) (name token : String) : Script :=
  .start pid (.register ⟨name, name, name, "secret"⟩) ::
    [draws name, .commit, generates token, .answer {}, draws token, .commit].map (.turn pid)

/-- A refresh of an ACTIVE token, from beginning to end. -/
def refreshes (pid : Nat) (old new : String) : Script :=
  .start pid (.refresh old) ::
    [.answer {}, .answer {}, .answer {}, generates new, .answer {}, draws new, .commit,
      .answer {}].map (.turn pid)

/-- A refresh of a token that was exchanged a moment ago. -/
def replays (pid : Nat) (old : String) : Script :=
  .start pid (.refresh old) :: [.answer {}, .answer {}, .answer {}, .answer {}].map (.turn pid)

def endsAll (pid : Nat) (name : String) : Script :=
  .start pid (.logoutAll name "jti") :: [.commit, .answer {}].map (.turn pid)

end Script

theorem rotation_linear_replayed : ∃ w, Reachable (Config.sample 10) w ∧
    Returns w 1 "first" (Script.pair "second") ∧ Returns w 2 "first" (Script.pair "second") ∧
    ((∀ refreshToken, RotatedOnce (Config.sample 10) w refreshToken) ∧
      ∀ w', (sessions (Config.sample 10)).Reaches anything w w' → ∀ tokenHash row row',
        w.shared.db.refreshTokens.get? tokenHash = some row → row.revokedAt.isSome →
        w'.shared.db.refreshTokens.get? tokenHash = some row' → row'.revokedAt.isSome) := by
  obtain ⟨stage, run, first, second⟩ := Script.reaches
    (Script.registers 0 "alice" "first" ++ Script.refreshes 1 "first" "second" ++
      Script.replays 2 "first")
    (Config.sample 10) anything
    (fun stage => stage.ended 1 = some (.refresh "first", .ok (.tokens (Script.pair "second"))) ∧
      stage.ended 2 = some (.refresh "first", .ok (.tokens (Script.pair "second"))))
        (by decide +kernel)
  exact ⟨stage.world, run, System.Stage.ended_ok first,
    System.Stage.ended_ok second, rotation_linear run⟩

end PaymentWallet.Sessions
