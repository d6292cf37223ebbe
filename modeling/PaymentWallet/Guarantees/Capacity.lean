import PaymentWallet.Guarantees.Reuse
import PaymentWallet.Sessions.Evictions

/-! The session cap over whole runs. It holds as long as no exchange commits after its token
has expired, or of a token that an open creation has chosen to evict. -/
namespace PaymentWallet.Sessions
open Foundation

/-- Sessions are created within the limit of the deployment. -/
def TxCall.limited (config : Config) (c : TxCall) : Prop :=
  ∀ data maxSessions tie, c = .createSessionAtomic data maxSessions tie →
    maxSessions = config.maxSessions

/-- The cap is kept, and every open creation is on its way to keep it. -/
structure Capped (config : Config) (w : State) : Prop where
  within : Within w.shared.db config.maxSessions
  creations : ∀ pid request data tie body writes held next,
    w.procs pid = some (request,
      .inTx (.createSessionAtomic data config.maxSessions tie) body writes held next) →
    ∃ progress : Progress, Fits data config.maxSessions progress body ∧
      progress.Holds w.shared data.userId config.maxSessions held writes

section Limits
variable {config : Config} {w : State}

theorem limited_admits : Admits (Calls (TxCall.limited config)) where
  outside _ _ := trivial
  ends c creates := by
    rintro data maxSessions tie rfl
    cases creates

theorem limited_handler (request : Request) :
    (request.handler config).All (Calls (TxCall.limited config)) := by
  have creates : ∀ data tie,
      Calls (X := Outside) (TxCall.limited config)
      (.transact (.createSessionAtomic data config.maxSessions tie)) := by
    rintro data tie _ maxSessions _ ⟨⟩
    rfl
  by_cases refreshes : ∃ refreshToken, request = .refresh refreshToken
  · obtain ⟨refreshToken, rfl⟩ := refreshes
    refine .bind (all_refresh limited_admits (fun _ _ => trivial) ?_ (fun _ _ => trivial)
      refreshToken) fun _ => trivial
    rintro tokenHash data _ _ _ ⟨⟩
  · refine all_handler limited_admits request ?_ (fun _ => creates) (fun _ _ _ => trivial) fun _ =>
      ⟨trivial, trivial⟩
    exact fun refreshToken same => refreshes ⟨refreshToken, same⟩

theorem Reachable.limited (run : Reachable config w) {pid : Nat} {request : Request} {c : TxCall}
    {body : Tx c.Out} {writes : List Write}
    {held : List LockKey} {next : Except Exception c.Out → Svc Response}
    (found : w.procs pid = some (request, .inTx c body writes held next)) : c.limited config := by
  have disciplined : (sessions config).Disciplined anything (TxCall.limited config) (fun _ => True)
      LockKey.Same (fun _ _ _ => True) (fun _ _ => True) :=
    ⟨postgres_locking, postgres_stability, fun c _ => Program.all_trivial _,
      fun _ => limited_handler _⟩
  have orderly := (World.Orderly.init Store.empty Ext.idle).reaches disciplined run
  exact (orderly.calls found).1

end Limits

section Committing
variable {config : Config} {w w' : State} {other : Nat} {owner : Request} {c : TxCall}
  {value : c.Out} {rewrites : List Write}
  {locks : List LockKey} {resume : Except Exception c.Out → Svc Response}

/-- What the transaction has done to the store on which it commits. -/
theorem Reachable.effect (run : Reachable config w)
    (found : w.procs other = some (owner, .inTx c (.pure value) rewrites locks resume)) :
    c.Effect w.shared.db (postgres.view w.shared.db rewrites) :=
  (run.safe.orderly.follows found).wp (c.effect _)

/-- An exchange of an unexpired token takes the place of that token. -/
theorem Reachable.rotates_fair (run : Reachable config w)
    (found : w.procs other = some (owner, .inTx c (.pure value) rewrites locks resume))
    {tokenHash : String} {data : NewToken} (rotation : c = .rotateRefreshToken tokenHash data)
    (unexpired : ∀ row, w.shared.db.refreshTokens.get? tokenHash = some row →
      w.shared.db.now < row.expiresAt)
    (userId : UserId) (spared : Option String) (kept : spared ≠ some tokenHash) :
    Fair w.shared c userId spared := by
  have effect := run.effect found
  subst rotation
  by_cases mine : data.userId = userId
  · obtain ⟨row, now, there, unrevoked, _⟩ := effect.rotated tokenHash rfl
    obtain ⟨facts, known, _, rest⟩ := run.knows other owner _ found
    have session := (rest.1 _ known data rfl).2 tokenHash rfl
    refine .inr ⟨data, tokenHash, rfl, rfl, mem_sessions.mpr ⟨kept, row, there, ?_, ?_⟩⟩
    · exact (session.owner run.safe.inv there).trans mine
    · simp [RefreshToken.active, unrevoked, unexpired row there]
  · left
    rintro _ ⟨⟩
    exact mine

/-- Beside an open creation nobody else creates a session for its user
but in the place of another. -/
theorem Reachable.fair (run : Reachable config w)
    (found : w.procs other = some (owner, .inTx c (.pure value) rewrites locks resume))
    (spacious : ∀ tokenHash data, c = .rotateRefreshToken tokenHash data →
      Exchangeable w tokenHash ∨ Roomy w data.userId config.maxSessions)
    {pid : Nat} {request : Request} {data : NewToken}
    {maxSessions tie : Nat} {body writes held next} (different : other ≠ pid)
    (creation : w.procs pid = some (request,
      .inTx (.createSessionAtomic data maxSessions tie) body writes held next))
    {spared : Option String}
    (chosen : ∀ tokenHash, spared = some tokenHash → Evicts tokenHash body ∨
      .token tokenHash ∈ held)
    (locked : .advisory (lockDigits data.userId) ∈ held) : Fair w.shared c data.userId spared := by
  have apart : ∀ k, k ∈ held → k ∉ locks := fun k mine others =>
    run.safe.orderly.exclusive different ⟨request, _, creation, mine⟩ ⟨owner, _, found, others⟩
  cases c with
  | rotateRefreshToken tokenHash rotated =>
    rcases spacious tokenHash rotated rfl with ⟨unexpired, unchosen⟩ | ⟨_, nobody⟩
    · apply run.rotates_fair found rfl unexpired data.userId spared
      intro same
      rcases chosen tokenHash same with evicts | mine
      · exact unchosen pid request data maxSessions tie body writes held next creation evicts
      · have takes : (sessions config).engine.Acquires (.token tokenHash)
          (TxCall.rotateRefreshToken tokenHash rotated).code :=
          fun now => .inr fun _ => .inl ⟨rfl, fun _ => List.mem_singleton_self _⟩
        exact apart _ mine (System.held_at_commit
          (c := .rotateRefreshToken tokenHash rotated) run takes found)
    · left
      rintro _ ⟨⟩ mine
      exact nobody pid request data maxSessions tie body writes held next creation mine.symm
  | createSessionAtomic created cap eviction =>
    left
    rintro _ ⟨⟩ mine
    have takes : (sessions config).engine.Acquires (.advisory (lockDigits created.userId))
      (TxCall.createSessionAtomic created cap eviction).code :=
      fun _ => .inl ⟨rfl, fun _ => List.mem_singleton_self _⟩
    exact apart _ (mine ▸ locked) (System.held_at_commit run takes found)
  | _ =>
    left
    rintro _ ⟨⟩

/-- A creation that has come to its end keeps the cap. -/
theorem Capped.created (capped : Capped config w) (run : Reachable config w) {data : NewToken}
    {tie : Nat} {value : Option String}
    {writes held next} (found :
      w.procs other = some (owner,
      .inTx (.createSessionAtomic data config.maxSessions tie) (.pure value) writes held next)) :
    Within (postgres.view w.shared.db writes) config.maxSessions := by
  have effect := run.effect found
  obtain ⟨progress, fits, holds⟩ := capped.creations other owner data tie _ _ _ _ found
  cases progress with
  | done spared =>
    intro userId
    rw [← sessions_none]
    apply (sessions_later effect.now).trans
    by_cases mine : data.userId = userId
    · subst mine
      obtain ⟨_, room, evicts⟩ := holds
      have sub : (postgres.view w.shared.db writes).sessions data.userId w.shared.db.now none ⊆
          data.tokenHash :: w.shared.db.sessions data.userId w.shared.db.now spared := by
        intro tokenHash member
        by_cases new : data.tokenHash = tokenHash
        · exact new ▸ List.mem_cons_self
        · apply List.mem_cons_of_mem _
          have before : tokenHash ∈ w.shared.db.sessions data.userId w.shared.db.now none := by
            apply effect.sessions member
            rintro _ ⟨⟩
            exact new
          refine mem_sessions.mpr ⟨fun chosen => ?_, (mem_sessions.mp before).2⟩
          obtain ⟨_, row, revoked, last⟩ := evicts tokenHash chosen
          obtain ⟨_, row', there, _, active⟩ := mem_sessions.mp member
          cases (last w.shared.db).symm.trans there
          simp only [RefreshToken.active, Bool.and_eq_true, Option.isNone_iff_eq_none] at active
          simp [active.1] at revoked
      exact (List.subperm_of_subset sessions_nodup sub).length_le.trans room
    · refine (effect.sessions_others ?_).trans (sessions_none.trans_le (capped.within userId))
      rintro _ ⟨⟩
      exact mine
  | _ => exact fits.elim

end Committing

section Steps
variable {config : Config} {w w' : State}

/-- One step keeps the cap. -/
theorem Capped.step (capped : Capped config w) (positive : 1 ≤ config.maxSessions)
    (run : Reachable config w)
    (taken : (sessions config).Step anything w w') (spacious : Spacious config w w') :
    Capped config w' := by
  constructor
  · rcases taken.commits with ⟨same, _⟩ | ⟨pid, request, c, value, writes, held, next,
      program, found, _, shared⟩
    · exact same ▸ capped.within
    have effect := run.effect found
    rw [shared]
    cases c with
    | createSessionAtomic data maxSessions tie =>
      obtain rfl := run.limited found data maxSessions tie rfl
      exact capped.created run found
    | rotateRefreshToken tokenHash data =>
      intro userId
      rw [← sessions_none]
      rcases spacious tokenHash data (by rw [shared]; rfl) with ⟨unexpired, _⟩ | ⟨room, _⟩
      · have fair := run.rotates_fair found rfl unexpired userId none (by simp)
        exact (fair.now_le effect).trans (sessions_none.trans_le (capped.within userId))
      · apply (sessions_later effect.now).trans
        by_cases mine : data.userId = userId
        · subst mine
          exact effect.sessions_succ.trans (Nat.succ_le_of_lt (sessions_none.trans_lt room))
        · refine (effect.sessions_others ?_).trans (sessions_none.trans_le (capped.within userId))
          rintro _ ⟨⟩
          exact mine
    | _ =>
      intro userId
      rw [← sessions_none]
      refine ((sessions_later effect.now).trans (effect.sessions_others ?_)).trans
        (sessions_none.trans_le (capped.within userId))
      rintro _ ⟨⟩
  · intro pid request data tie body writes held next found'
    rcases taken.acts pid with same | ⟨_, _, _, started⟩ | ⟨owner, old, new, was, now, acts⟩
    · have found := same ▸ found'
      obtain ⟨progress, fits, holds⟩ :=
        capped.creations pid request data tie body writes held next found
      refine ⟨progress, fits, ?_⟩
      rcases taken.commits with ⟨db, _⟩ |
        ⟨other, committer, c, value, rewrites, locks, resume, program, committing, after, shared⟩
      · exact holds.same db
      · have different : other ≠ pid := by
          rintro rfl
          cases found'.symm.trans after
        rw [shared]
        apply holds.commit (run.effect committing)
        intro spared chosen locked
        refine run.fair committing (fun tokenHash data' rotation => ?_) different found
          (fun tokenHash same => ?_) locked
        · exact spacious tokenHash data' (by rw [shared, rotation]; rfl)
        · rcases chosen tokenHash same with here | here | mine
          · exact .inl (fits.evicts (.inl here))
          · exact .inl (fits.evicts (.inr here))
          · exact .inr mine
    · cases started.symm.trans found'
    · cases now.symm.trans found'
      generalize shared : w'.shared = σ at acts ⊢
      cases acts with
      | begin => exact ⟨.fresh, fits_code, trivial⟩
      | read plain exec =>
        obtain ⟨progress, fits, holds⟩ := capped.creations pid _ data tie _ _ _ _ was
        exact fits.read holds positive capped.within plain exec
      | write locked exec =>
        obtain ⟨progress, fits, holds⟩ := capped.creations pid _ data tie _ _ _ _ was
        exact fits.write holds locked exec

/-- Runs in which exchanges leave room keep the cap. -/
theorem capped_of_traces (positive : 1 ≤ config.maxSessions)
    (run : (sessions config).Traces anything (Spacious config) (World.init Store.empty Ext.idle)
      w) : Capped config w := by
  induction run with
  | refl =>
    refine ⟨fun _ => Nat.zero_le _, ?_⟩
    rintro pid request data tie body writes held next ⟨⟩
  | tail earlier last ih => exact ih.step positive (System.Traces.reaches earlier) last.1 last.2

/-- A user never has more active sessions than the limit, however logins, registrations,
refreshes, logouts, cleanups and the passing of time interleave. -/
theorem sessions_capped (positive : 1 ≤ config.maxSessions)
    (run : (sessions config).Traces anything Punctual (World.init Store.empty Ext.idle) w)
    (userId : UserId) :
    (w.shared.db.activeTokens userId w.shared.db.now).length ≤ config.maxSessions := by
  have spacious : (sessions config).Traces anything (Spacious config)
      (World.init Store.empty Ext.idle) w :=
    run.mono fun punctual tokenHash data exchanged => .inl (punctual tokenHash data exchanged)
  exact (capped_of_traces positive spacious).within userId

/-- So it is where an exchange commits too late, as long as it finds room for one more. -/
theorem sessions_limited (positive : 1 ≤ config.maxSessions)
    (run : (sessions config).Traces anything (Spacious config) (World.init Store.empty Ext.idle)
      w) (userId : UserId) :
    (w.shared.db.activeTokens userId w.shared.db.now).length ≤ config.maxSessions :=
  (capped_of_traces positive run).within userId

end Steps

section Sample

/-- Nobody in the list is about to create a session. -/
def Stage.idle (stage : Stage) (pids : List Nat) : Bool :=
  pids.all fun pid => match stage.procs pid with
    | some (_, .call (.transact (.createSessionAtomic ..)) _) => false
    | _ => true

/-- Exchanges meet a condition, while nobody creates a session. -/
def Stage.exchanging (pids : List Nat) (allowed : Stage → String → NewToken → Bool)
    (stage stage' : Stage) : Bool :=
  match stage'.shared.log.getLast? with
  | some (.rotateRefreshToken tokenHash data) =>
    stage'.shared.log.length = stage.shared.log.length ||
      stage.idle pids && allowed stage tokenHash data
  | _ => true

theorem Stage.exchanging_last {allowed : Stage → String → NewToken → Bool}
    {stage stage' : Stage} {pids : List Nat} {tokenHash : String} {data : NewToken}
    (checked : stage.exchanging pids allowed stage')
    (log : stage'.shared.log = stage.shared.log ++ [.rotateRefreshToken tokenHash data]) :
    stage.idle pids ∧ allowed stage tokenHash data := by
  have ends : stage'.shared.log.getLast? = some (.rotateRefreshToken tokenHash data) := by
    rw [log, List.getLast?_concat]
  rw [Stage.exchanging, ends] at checked
  simpa only [log, List.length_append, List.length_singleton, Nat.add_eq_left, Nat.one_ne_zero,
    decide_false, Bool.false_or, Bool.and_eq_true] using checked

/-- Where a process of the world stands on the stage. -/
theorem Stage.stands {stage : Stage} {pids : List Nat} {w : State}
    (idle : ∀ pid ∉ pids, stage.procs pid = none)
    (same : ∀ pid, (w.procs pid).map (fun entry => (entry.1, entry.2.residual)) = stage.procs pid)
    {pid : Nat} {request : Request} {phase : SessionPhase}
    (found : w.procs pid = some (request, phase)) :
    pid ∈ pids ∧ stage.procs pid = some (request, phase.residual) := by
  have there := same pid
  rw [found, Option.map_some] at there
  refine ⟨?_, there.symm⟩
  by_contra other
  cases there.trans (idle pid other)

theorem Stage.idle_creates {stage : Stage} {pids : List Nat} {w : State} (nobody : stage.idle pids)
    (idle : ∀ pid ∉ pids, stage.procs pid = none)
    (same : ∀ pid, (w.procs pid).map (fun entry => (entry.1, entry.2.residual)) = stage.procs pid)
    {pid : Nat} {request : Request} {data : NewToken} {maxSessions tie : Nat}
    {body writes held next}
    (found : w.procs pid = some (request,
      .inTx (.createSessionAtomic data maxSessions tie) body writes held next)) : False := by
  obtain ⟨listed, there⟩ := Stage.stands idle same found
  have still := List.all_eq_true.mp nobody pid listed
  rw [there] at still
  cases still

/-- The token is unexpired. -/
def Stage.punctual (stage : Stage) (tokenHash : String) (_ : NewToken) : Bool :=
  (stage.shared.db.refreshTokens.get? tokenHash).all fun row =>
    stage.shared.db.now < row.expiresAt

/-- The user is below the limit. -/
def Stage.roomy (maxSessions : Nat) (stage : Stage) (_ : String) (data : NewToken) : Bool :=
  (stage.shared.db.activeTokens data.userId stage.shared.db.now).length < maxSessions

theorem punctual_checks (config : Config) (pids : List Nat) :
    System.Checks (sessions config) pids Punctual (Stage.exchanging pids Stage.punctual) where
  calm {w w'} taken := by
    intro tokenHash data exchanged
    rw [show w'.shared = w.shared from System.Reaches.quiet (.single taken)] at exchanged
    simp at exchanged
  last {stage stage' w} checked idle shared same := by
    intro tokenHash data exchanged
    rw [shared] at exchanged
    obtain ⟨nobody, unexpired⟩ := Stage.exchanging_last checked exchanged
    refine ⟨fun row found => ?_, fun pid request data maxSessions tie body writes held next found =>
      (Stage.idle_creates nobody idle same found).elim⟩
    rw [shared] at found ⊢
    rw [Stage.punctual, found] at unexpired
    exact of_decide_eq_true unexpired

theorem spacious_checks (config : Config) (pids : List Nat) :
    System.Checks (sessions config) pids (Spacious config)
      (Stage.exchanging pids (Stage.roomy config.maxSessions)) where
  calm {w w'} taken := by
    intro tokenHash data exchanged
    rw [show w'.shared = w.shared from System.Reaches.quiet (.single taken)] at exchanged
    simp at exchanged
  last {stage stage' w} checked idle shared same := by
    intro tokenHash data exchanged
    rw [shared] at exchanged
    obtain ⟨nobody, room⟩ := Stage.exchanging_last checked exchanged
    refine .inr ⟨?_, fun pid request data maxSessions tie body writes held next found =>
      (Stage.idle_creates nobody idle same found).elim⟩
    rw [shared]
    exact of_decide_eq_true room

/-- Alice refreshes and logs in twice more, where two sessions are allowed. -/
theorem sessions_capped_two :
    ∃ w : State, (w.shared.db.activeTokens "alice" w.shared.db.now).length = 2 ∧
    (w.shared.db.activeTokens "alice" w.shared.db.now).length ≤ (Config.sample 2).maxSessions := by
  obtain ⟨stage, run, two⟩ :=
      Script.traces (Script.registers 0 "alice" "first" ++ Script.refreshes 1 "first" "second" ++
      Script.logsIn 2 "alice" "third" ++ Script.logsIn 3 "alice" "fourth") (.sample 2)
        (punctual_checks (.sample 2) [0, 1, 2, 3]) (by decide)
    (fun stage => (stage.shared.db.activeTokens "alice" stage.shared.db.now).length = 2)
      (by decide +kernel)
  exact ⟨stage.world, two, sessions_capped (by decide) run "alice"⟩

/-- Where two sessions are allowed, a late exchange finds room. -/
theorem sessions_limited_late :
    ∃ w : State, (w.shared.db.activeTokens "alice" w.shared.db.now).length = 1 ∧
    (w.shared.db.activeTokens "alice" w.shared.db.now).length ≤ (Config.sample 2).maxSessions := by
  obtain ⟨stage, run, one⟩ :=
    Script.traces (Script.looksLate 3 1 ++ Script.exchanges 3 "third") (.sample 2)
    (spacious_checks (.sample 2) [0, 1, 2, 3]) (by decide)
    (fun stage => (stage.shared.db.activeTokens "alice" stage.shared.db.now).length = 1)
      (by decide +kernel)
  exact ⟨stage.world, one, sessions_limited (by decide) run "alice"⟩

/-- Where one is allowed, a login in between does not count the expired session. -/
theorem sessions_exceeded : ¬ ∀ (config : Config) w, 1 ≤ config.maxSessions →
    Reachable config w → ∀ userId,
    (w.shared.db.activeTokens userId w.shared.db.now).length ≤ config.maxSessions := by
  intro claim
  obtain ⟨stage, run, two⟩ :=
    Script.reaches (Script.looksLate 3 1 ++ Script.logsIn 4 "alice" "second" ++
      Script.exchanges 3 "third") (.sample 1) anything
    (fun stage => (stage.shared.db.activeTokens "alice" stage.shared.db.now).length = 2)
      (by decide +kernel)
  have within := claim (.sample 1) stage.world (by decide) run "alice"
  exact absurd (two.symm.trans_le within) (by decide)

end Sample
end PaymentWallet.Sessions
