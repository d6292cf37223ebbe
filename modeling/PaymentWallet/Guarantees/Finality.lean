import PaymentWallet.Guarantees.Capacity
import PaymentWallet.Sessions.Finality

/-! The end of a session is final where no ending races against a rotation: where none commits
while a pair of the user can be replayed or is on its way to him, and no session is created
behind the scan of one. -/
namespace PaymentWallet.Sessions
open Foundation

/-- A refresh of one of the user's tokens is about to perform the operation. -/
def Awaits (config : Config) (w : State) (userId : UserId)
    (op : ServiceOp TxCall Outside) : Prop :=
  ∃ pid refreshToken phase next, w.procs pid = some (.refresh refreshToken, phase) ∧
    phase.residual = .call op next ∧ Session w.shared userId (config.hashToken refreshToken)

/-- What a refresh performs after it has found its user ACTIVE. -/
def afterCheck : ServiceOp TxCall Outside → Bool
  | .outside (.generateTokenPair ..) | .outside .getRefreshExpiry | .outside .draw
    | .outside (.setCache ..) => true
  | .transact c => c.rotates.isSome
  | _ => false

/-- What it performs after its exchange has committed. -/
def afterExchange : ServiceOp TxCall Outside → Bool
  | .outside (.setCache ..) => true
  | _ => false

/-- The transaction may commit here without a race against a rotation. Where it ends the sessions
of a user, or takes his ACTIVE status, no pair of his can be replayed any more and none of his
refreshes is on its way to a pair; where it creates a session, no transaction that ends those of
the user has made its scan. -/
structure TxCall.Unraced (config : Config) (w : State) (c : TxCall) : Prop where
  replays : ∀ userId tokenHash, c.revokesAll = some userId ∨ c.deactivates userId →
    Session w.shared userId tokenHash → w.shared.ext.cached w.shared.db.now tokenHash = none
  deactivates : ∀ userId op, c.deactivates userId → Awaits config w userId op → ¬ afterCheck op
  revokes : ∀ userId op, c.revokesAll = some userId → Awaits config w userId op → ¬ afterExchange op
  creates : ∀ data pid request other body writes held next, c.creates = some data →
    w.procs pid = some (request, .inTx other body writes held next) →
    other.revokesAll = some data.userId → ¬ body.All Statement.revokes

/-- The step commits no transaction that races against a rotation. -/
def Unraced (config : Config) (w w' : State) : Prop :=
  ∀ c, w'.shared.log = w.shared.log ++ [c] → c.Unraced config w

/-- Who gets a pair in this step, is ACTIVE, and his sessions have not been ended since his
token was issued. -/
def Final (config : Config) (w w' : State) : Prop :=
  ∀ pid refreshToken pair userId, ¬ Returns w pid refreshToken pair →
    Returns w' pid refreshToken pair → Session w'.shared userId (config.hashToken refreshToken) →
    w'.shared.db.Active userId ∧ ¬ Barred w'.shared userId (config.hashToken refreshToken)

/-- What holds in every world of a run without such races. -/
structure Peaceful (config : Config) (w : State) : Prop where
  calm : Calm config w.shared
  endings : ∀ pid request c body writes held next userId,
    w.procs pid = some (request, .inTx c body writes held next) → c.revokesAll = some userId →
    Ending w.shared userId body writes
  abides : ∀ pid request phase, w.procs pid = some (request, phase) →
    System.Abides (Does config) (Asserts config) (Serves config) w.shared request phase

section Runs
variable {config : Config} {w w' : State}

theorem Outside.Answers.cached {x : Outside} {pid : Nat} {d : Store} {ext ext' : Ext}
    {reply : Except Exception x.Reply} {tokenHash : String}
    (answers : x.Answers config pid d ext reply ext')
    (found : (ext'.cached d.now tokenHash).isSome) :
    (ext.cached d.now tokenHash).isSome ∨ ∃ encrypted, x = .setCache tokenHash encrypted := by
  cases x with
  | setCache other encrypted =>
    by_cases here : tokenHash = other
    · exact .inr ⟨encrypted, here ▸ rfl⟩
    · left
      cases answers with
      | failed => exact found
      | done | unheard => simpa [Ext.cached, Ext.setCache, here] using found
  | delCache other =>
    left
    cases answers with
    | failed => exact found
    | done | unheard =>
      by_cases here : tokenHash = other
      · simp [Ext.cached, Ext.delCache, here] at found
      · simpa [Ext.cached, Ext.delCache, here] using found
  | generateTokenPair =>
    left
    rcases answers with ⟨pair, jti, lifetime, _, _, _, _, rfl⟩ | ⟨_, rfl⟩ <;> exact found
  | denylist | setLock | delLock => cases answers <;> exact .inl found
  | _ =>
    obtain ⟨rfl, _⟩ := answers
    exact .inl found

/-- An entry that is there later was there before. -/
theorem Ext.cached_later {ext : Ext} {now later : DateTime} {tokenHash : String}
    (after : now ≤ later) (found : (ext.cached later tokenHash).isSome) :
    (ext.cached now tokenHash).isSome := by
  simp only [Ext.cached, Option.isSome_map, Option.isSome_filter, Option.any_eq_true,
    decide_eq_true_eq] at found ⊢
  obtain ⟨entry, there, unexpired⟩ := found
  exact ⟨entry, there, after.trans_lt unexpired⟩

/-- Assertions are about the database and its log. -/
theorem asserts_same {request : Request} {op : ServiceOp TxCall Outside} {σ : SharedState}
    {ext : Ext} (holds : Asserts config request op σ) :
    Asserts config request op { σ with ext := ext } := by
  cases request with
  | refresh =>
    rcases op with c | x
    · exact holds
    · cases x <;> exact holds
  | _ =>
    rcases op with c | x
    · trivial
    · cases x <;> exact holds

/-- A commit that races against no rotation leaves the assertions of the others alone. -/
theorem TxCall.Unraced.stable {c : TxCall} {d' : Store} {pid : Nat} {request : Request}
    {phase : SessionPhase} {op : ServiceOp TxCall Outside}
    {next : Except Exception (op.Result TxCall.Out Outside.Reply) → Svc Response}
    (unraced : c.Unraced config w) (effect : c.Effect w.shared.db d')
    (found : w.procs pid = some (request, phase)) (waits : phase.residual = .call op next)
    (holds : Asserts config request op w.shared) :
    Asserts config request op (w.shared.commit c d') := by
  cases request with
  | refresh refreshToken =>
    have awaits : ∀ userId, Session w.shared userId (config.hashToken refreshToken) →
        Awaits config w userId op :=
      fun userId session => ⟨pid, refreshToken, phase, next, found, waits, session⟩
    rcases op with other | x
    · intro tokenHash rotates
      obtain ⟨rfl, enabled⟩ := holds tokenHash rotates
      refine ⟨rfl, enabled.commit effect fun userId session ends => ?_⟩
      have checked : afterCheck (.transact other) := by simp [afterCheck, rotates]
      exact unraced.deactivates userId _ ends (awaits userId session) checked
    · cases x with
      | expired | findById => exact Session.commit holds
      | generateTokenPair | getRefreshExpiry | draw =>
        exact Enabled.commit holds effect fun userId session ends =>
          unraced.deactivates userId _ ends (awaits userId session) rfl
      | setCache tokenHash =>
        obtain ⟨rfl, inForce⟩ := holds
        refine ⟨rfl, inForce.commit effect (fun userId session ends => ?_)
          fun userId session ends => ?_⟩
        · exact unraced.deactivates userId _ ends (awaits userId session) rfl
        · exact unraced.revokes userId _ ends (awaits userId session) rfl
      | _ => trivial
  | _ =>
    rcases op with other | x
    · trivial
    · cases x with
      | setCache => exact holds.elim
      | _ => trivial

theorem asserts_stable (run : Reachable config w)
    (taken : (sessions config).Step anything w w') (unraced : Unraced config w w')
    {pid : Nat} {request : Request} {phase : SessionPhase} {op : ServiceOp TxCall Outside}
    {next : Except Exception (op.Result TxCall.Out Outside.Reply) → Svc Response}
    (found : w.procs pid = some (request, phase)) (waits : phase.residual = .call op next)
    (holds : Asserts config request op w.shared) : Asserts config request op w'.shared := by
  rcases taken.commits with ⟨db, log⟩ | ⟨_, _, c, _, _, _, _, _, committing, _, shared⟩
  · generalize w'.shared = σ at db log ⊢
    obtain ⟨d', log', ext'⟩ := σ
    obtain rfl : d' = w.shared.db := db
    obtain rfl : log' = w.shared.log := log
    exact asserts_same holds
  · rw [shared]
    exact (unraced c (by rw [shared]; rfl)).stable (run.effect committing) found waits holds

theorem Peaceful.performs (peaceful : Peaceful config w) (run : Reachable config w) :
    (sessions config).Performs (Does config) w where
  outside {pid _ _ ext} answers := ⟨peaceful.calm, pid, ext, answers, rfl⟩
  commit found := ⟨peaceful.calm, _, run.effect found, rfl⟩
  failed := trivial

theorem asserts_setCache {request : Request} {tokenHash encrypted : String} {σ : SharedState}
    (holds : Asserts config request (.outside (.setCache tokenHash encrypted)) σ) :
    InForce σ tokenHash := by
  cases request with
  | refresh => exact holds.2
  | _ => exact holds.elim

/-- What has been barred has been revoked. -/
theorem Peaceful.barred (peaceful : Peaceful config w) (run : Reachable config w)
    (taken : (sessions config).Step anything w w') {userId : UserId} {tokenHash : String}
    (barred : Barred w'.shared userId tokenHash) : Spent w'.shared tokenHash := by
  have later : Spent w.shared tokenHash → Spent w'.shared tokenHash :=
    fun spent => spent.later run (.single taken)
  rcases taken.commits with ⟨_, log⟩ | ⟨pid, request, c, _, _, _, _, _, committing, _, shared⟩
  · apply later (peaceful.calm.barred userId tokenHash _)
    simpa only [Barred, Session, log] using barred
  · rw [shared, barred_commit] at barred
    rcases barred with before | ⟨ends, session⟩
    · exact later (peaceful.calm.barred userId tokenHash before)
    · rcases (peaceful.endings pid request c _ _ _ _ userId committing ends).commit session with
        spent | spent
      · exact later spent
      · rw [shared]
        exact spent

/-- What can be replayed is in force. -/
theorem Peaceful.replays (peaceful : Peaceful config w) (run : Reachable config w)
    (taken : (sessions config).Step anything w w') (unraced : Unraced config w w')
    {tokenHash : String}
    (found : (w'.shared.ext.cached w'.shared.db.now tokenHash).isSome) :
    InForce w'.shared tokenHash := by
  have before := peaceful.calm.replays tokenHash
  have commits : ∀ {c : TxCall} {d' : Store}, c.Effect w.shared.db d' → c.Unraced config w →
      (w.shared.ext.cached d'.now tokenHash).isSome → InForce (w.shared.commit c d') tokenHash := by
    intro c d' effect unraced found
    have there := Ext.cached_later effect.now found
    refine (before there).commit effect (fun userId session ends => ?_)
      fun userId session ends => ?_
    · simp [unraced.replays userId tokenHash (.inr ends) session] at there
    · simp [unraced.replays userId tokenHash (.inl ends) session] at there
  cases taken with
  | start | begin | read | write | abort => exact before found
  | outside waits _ answers =>
    rcases answers.cached found with there | ⟨encrypted, rfl⟩
    · exact before there
    · have inForce := asserts_setCache ((peaceful.abides _ _ _ waits).asserted _ _ rfl)
      exact inForce
  | commit committing | lost committing =>
    exact commits (run.effect committing) (unraced _ rfl) found
  | drift _ expired =>
    cases expired with
    | lock => exact before found

/-- A session that a step creates was created by what it commits. -/
theorem session_created (taken : (sessions config).Step anything w w') {userId : UserId}
    {tokenHash : String} (session : Session w'.shared userId tokenHash) :
    Session w.shared userId tokenHash ∨ ∃ c data, w'.shared.log = w.shared.log ++ [c] ∧
      c.creates = some data ∧ data.userId = userId := by
  obtain ⟨c, member, data, creates, same, owner⟩ := session
  rcases taken.commits with ⟨_, log⟩ | ⟨_, _, other, _, _, _, _, _, _, _, shared⟩
  · exact .inl ⟨c, log ▸ member, data, creates, same, owner⟩
  · rw [shared] at member
    rcases List.mem_append.mp member with old | new
    · exact .inl ⟨c, old, data, creates, same, owner⟩
    · obtain rfl := List.mem_singleton.mp new
      exact .inr ⟨c, data, by rw [shared]; rfl, creates, owner⟩

theorem Peaceful.ending (peaceful : Peaceful config w) (run : Reachable config w)
    (taken : (sessions config).Step anything w w') (unraced : Unraced config w w') {pid : Nat}
    {request : Request} {c : TxCall} {body : Tx c.Out} {writes : List Write} {held : List LockKey}
    {next : Except Exception c.Out → Svc Response} {userId : UserId}
    (found : w'.procs pid = some (request, .inTx c body writes held next))
    (ends : c.revokesAll = some userId) : Ending w'.shared userId body writes := by
  have sound := run.safe.inv
  rcases taken.acts pid with same | ⟨_, _, _, started⟩ | ⟨_, old, new, was, now, acts⟩
  · have before := same ▸ found
    refine (peaceful.endings pid request c body writes held next userId before ends).later
      (fun _ spent => spent.later run (.single taken)) fun all tokenHash session => ?_
    rcases session_created taken session with there | ⟨other, data, log, creates, rfl⟩
    · exact there
    · exact absurd all ((unraced other log).creates data pid request c body writes held next creates
        before ends)
  · cases started.symm.trans found
  · cases now.symm.trans found
    generalize w'.shared = σ at acts ⊢
    cases acts with
    | begin => exact ending_code ends
    | read plain exec =>
      exact (peaceful.endings pid _ c _ _ _ _ userId was ends).read sound plain exec
    | write locked exec =>
      exact (peaceful.endings pid _ c _ _ _ _ userId was ends).write locked exec

/-- One step without a race. -/
theorem Peaceful.step (peaceful : Peaceful config w) (run : Reachable config w)
    (taken : (sessions config).Step anything w w') (unraced : Unraced config w w') :
    Peaceful config w' where
  calm := ⟨(Reachable.safe (run.tail taken)).inv, fun _ _ => peaceful.barred run taken,
    fun _ => peaceful.replays run taken unraced⟩
  endings _ _ _ _ _ _ _ _ := peaceful.ending run taken unraced
  abides pid request phase found :=
    (taken.abides (peaceful.performs run) outlined_handler
      (fun _ _ _ _ _ found _ => asserts_stable run taken unraced found)
      peaceful.abides pid request phase found).1

theorem peaceful_of_traces
    (run : (sessions config).Traces anything (Unraced config) (World.init Store.empty Ext.idle) w) :
    Peaceful config w := by
  induction run with
  | refl =>
    refine ⟨⟨.init, ?_, ?_⟩, ?_, ?_⟩
    · rintro userId tokenHash ⟨before, c, after, split, _⟩
      simp [World.init] at split
    · rintro tokenHash ⟨⟩
    · rintro pid request c body writes held next userId ⟨⟩
    · rintro pid request phase ⟨⟩
  | tail earlier last ih => exact ih.step (System.Traces.reaches earlier) last.1 last.2

/-- In runs without such races a refresh returns a pair only to an ACTIVE user whose sessions
have not been ended since his token was issued, inside the grace period or not. -/
theorem terminations_final
    (run : (sessions config).Traces anything (Unraced config) (World.init Store.empty Ext.idle) w)
    (taken : (sessions config).Step anything w w') (unraced : Unraced config w w') :
    Final config w w' := by
  have peaceful := peaceful_of_traces run
  have reachable : Reachable config w := System.Traces.reaches run
  intro pid refreshToken pair userId before returns session
  obtain ⟨_, arrived⟩ := taken.abides (peaceful.performs reachable) outlined_handler
    (fun _ _ _ _ _ found _ => asserts_stable reachable taken unraced found)
    peaceful.abides pid _ _ returns
  have moved : w'.procs pid ≠ w.procs pid := fun same => before (same.symm.trans returns)
  obtain ⟨owner, mine, active, unbarred⟩ := arrived moved refreshToken pair rfl rfl
  obtain rfl := session.unique mine (Reachable.safe (reachable.tail taken)).inv
  exact ⟨active, unbarred⟩

end Runs

section Sample

/-- The transaction creates the token for the user. -/
def TxCall.issues (userId : UserId) (tokenHash : String) (c : TxCall) : Bool :=
  c.creates.any fun data => data.tokenHash = tokenHash && data.userId = userId

theorem session_iff {σ : SharedState} {userId : UserId} {tokenHash : String} :
    Session σ userId tokenHash ↔ σ.log.any (TxCall.issues userId tokenHash) := by
  simp [Session, TxCall.issues, Option.any_eq_true]

/-- The next answer to the process is one on which it returns a pair. -/
def Stage.serves (config : Config) (stage : Stage) (pid : Nat) (refreshToken : String) : Bool :=
  match stage.procs pid with
  | some (.refresh other, .call (.outside x) next) => other = refreshToken &&
    match next (x.answer config {} pid stage.shared.db stage.shared.ext).1 with
    | .pure (.tokens _) => true
    | _ => false
  | _ => false

theorem Stage.serves_step {config : Config} {stage : Stage} {pid : Nat} {refreshToken : String}
    (serves : stage.serves config pid refreshToken) :
    ∃ (w' : State) (pair : TokenPair), (sessions config).Step anything stage.world w' ∧
      ¬ Returns stage.world pid refreshToken pair ∧ Returns w' pid refreshToken pair ∧
      w'.shared.db = stage.shared.db ∧ w'.shared.log = stage.shared.log := by
  unfold Stage.serves at serves
  split at serves
  · rename_i other x next found
    obtain ⟨same, returned⟩ := (Bool.and_eq_true ..).mp serves
    obtain rfl : other = refreshToken := of_decide_eq_true same
    split at returned
    · rename_i pair reply
      have waits : (stage.world : State).procs pid = some (.refresh other,
          .running (.call (.outside x) next)) := by
        simp [System.Stage.world, found]
      refine ⟨_, pair, .outside waits trivial (Outside.answer_answers config {} pid x _ _), ?_, ?_,
        rfl, rfl⟩
      · intro returns
        cases waits.symm.trans returns
      · have answered : next (x.answer config {} pid (stage.world : State).shared.db
            (stage.world : State).shared.ext).1 = .pure (.tokens pair) := reply
        rw [Returns, World.set_same, answered]
    · cases returned
  · cases serves

/-- Everybody in the list is about to do something else. -/
def Stage.spared (stage : Stage) (pids : List Nat) (p : ServiceOp TxCall Outside → Bool) : Bool :=
  pids.all fun pid => match stage.procs pid with
    | some (_, .call op _) => !p op
    | _ => true

/-- A transaction that ends all sessions of a user. -/
def sweeping : ServiceOp TxCall Outside → Bool
  | .transact c => c.revokesAll.isSome
  | _ => false

/-- The transaction races against no rotation. -/
def Stage.calm (pids : List Nat) (stage : Stage) : TxCall → Bool
  | .revokeAllUserTokens userId => stage.spared pids afterCheck && stage.shared.log.all fun c =>
    c.creates.all fun data => data.userId ≠ userId ||
      (stage.shared.ext.cached stage.shared.db.now data.tokenHash).isNone
  | .updatePasswordAndRevokeSessions .. | .updateStatusOrRole .. | .closeAccount .. => false
  | _ => stage.spared pids sweeping

def Stage.unraced (pids : List Nat) (stage stage' : Stage) : Bool :=
  stage'.shared.log.length = stage.shared.log.length ||
    stage'.shared.log.getLast?.all (stage.calm pids)

theorem Stage.spared_waits {stage : Stage} {pids : List Nat} {p : ServiceOp TxCall Outside → Bool}
    {w : State} (spared : stage.spared pids p) (idle : ∀ pid ∉ pids, stage.procs pid = none)
    (same : ∀ pid, (w.procs pid).map (fun entry => (entry.1, entry.2.residual)) = stage.procs pid)
    {pid : Nat} {request : Request} {phase : SessionPhase} {op : ServiceOp TxCall Outside}
    {next : Except Exception (op.Result TxCall.Out Outside.Reply) → Svc Response}
    (found : w.procs pid = some (request, phase)) (waits : phase.residual = .call op next) :
    ¬ p op := by
  obtain ⟨listed, there⟩ := Stage.stands idle same found
  have still := List.all_eq_true.mp spared pid listed
  rw [there, waits] at still
  simpa using still

theorem Stage.calm_unraced {config : Config} {stage : Stage} {pids : List Nat} {w : State}
    {c : TxCall} (calm : stage.calm pids c) (idle : ∀ pid ∉ pids, stage.procs pid = none)
    (shared : w.shared = stage.shared)
    (same : ∀ pid, (w.procs pid).map (fun entry => (entry.1, entry.2.residual)) = stage.procs pid) :
    c.Unraced config w := by
  -- nobody has opened a transaction that ends all sessions
  have creating : stage.spared pids sweeping → ∀ pid request other body writes held next,
      w.procs pid = some (request, .inTx other body writes held next) →
      ∀ userId, other.revokesAll ≠ some userId := by
    intro spared pid request other body writes held next found userId ends
    exact Stage.spared_waits spared idle same found rfl (by simp [sweeping, ends])
  cases c with
  | revokeAllUserTokens id =>
    obtain ⟨spared, gone⟩ := (Bool.and_eq_true ..).mp calm
    refine ⟨?_, ?_, ?_, ?_⟩
    · rintro userId tokenHash (ends | ends) ⟨c, member, data, creates, rfl, owner⟩ <;> cases ends
      rw [shared] at member ⊢
      have missing := List.all_eq_true.mp gone c member
      rw [creates, Option.all_some] at missing
      simpa [owner] using missing
    · intro _ _ ends
      cases ends
    · rintro userId op _ ⟨pid, refreshToken, phase, next, found, waits, _⟩ caches
      refine Stage.spared_waits spared idle same found waits ?_
      rcases op with c | x
      · cases caches
      · cases x <;> first | rfl | cases caches
    · intro data _ _ _ _ _ _ _ creates
      cases creates
  | updatePasswordAndRevokeSessions | updateStatusOrRole | closeAccount => cases calm
  | _ =>
    refine ⟨?_, ?_, ?_, ?_⟩
    · rintro _ _ (ends | ends) <;> cases ends
    · intro _ _ ends
      cases ends
    · intro _ _ ends
      cases ends
    · intro data pid request other body writes held next _ found ends
      exact absurd ends (creating calm pid request other body writes held next found data.userId)

theorem unraced_checks (config : Config) (pids : List Nat) :
    System.Checks (sessions config) pids (Unraced config) (Stage.unraced pids) where
  calm {w w'} taken := by
    intro c log
    rw [show w'.shared = w.shared from System.Reaches.quiet (.single taken)] at log
    simp at log
  last {stage stage' w} checked idle shared same := by
    intro c log
    have longer : stage'.shared.log = stage.shared.log ++ [c] := shared ▸ log
    apply Stage.calm_unraced _ idle shared same
    simpa [Stage.unraced, longer] using checked

/-- Alice ends all her sessions, and within ten seconds a replay of her exchanged token
gets the cached pair. -/
theorem terminations_undone : ¬ ∀ (config : Config) (w w' : State), Reachable config w →
    (sessions config).Step anything w w' → Final config w w' := by
  intro claim
  obtain ⟨stage, run, serves, session, ended⟩ :=
    Script.reaches (Script.registers 0 "alice" "first" ++ Script.refreshes 1 "first" "second" ++
      Script.endsAll 2 "alice" ++ Script.presents 3 "first") (.sample 10) anything
    (fun stage => stage.serves (.sample 10) 3 "first" ∧
      stage.shared.log.dropLast.any (TxCall.issues "alice" "hash-first") ∧
      stage.shared.log.getLast?.any (·.revokesAll = some "alice")) (by decide +kernel)
  obtain ⟨w', pair, taken, before, returns, _, log⟩ := Stage.serves_step serves
  obtain ⟨c, last, ends⟩ := (Option.any_eq_true ..).mp ended
  have split := List.dropLast_append_getLast? c last
  have issued : Session w'.shared "alice" "hash-first" := by
    rw [session_iff, log, ← split, List.any_append, session, Bool.true_or]
  exact (claim _ _ _ run taken 3 "first" pair "alice" before returns issued).2
    ⟨_, c, [], log.trans split.symm, of_decide_eq_true ends, session_iff.mpr session⟩

/-- She ends all her sessions, logs in anew, and asks twice for a refresh of the new one. -/
theorem terminations_final_anew : ∃ (w w' : State) (pair : TokenPair),
    (∃ c ∈ w.shared.log, c.revokesAll = some "alice") ∧ ¬ Returns w 4 "second" pair ∧
      Returns w' 4 "second" pair ∧
      w'.shared.db.Active "alice" ∧ ¬ Barred w'.shared "alice" "hash-second" := by
  obtain ⟨stage, run, serves, session, ended⟩ :=
    Script.traces (Script.registers 0 "alice" "first" ++ Script.endsAll 1 "alice" ++
      Script.logsIn 2 "alice" "second" ++ Script.refreshes 3 "second" "third" ++
      Script.presents 4 "second")
      (.sample 10) (unraced_checks (.sample 10) [0, 1, 2, 3, 4]) (by decide)
    (fun stage => stage.serves (.sample 10) 4 "second" ∧
      stage.shared.log.any (TxCall.issues "alice" "hash-second") ∧
      stage.shared.log.any (·.revokesAll = some "alice")) (by decide +kernel)
  obtain ⟨w', pair, taken, before, returns, _, log⟩ := Stage.serves_step serves
  obtain ⟨c, member, ends⟩ := List.any_eq_true.mp ended
  have unraced : Unraced (.sample 10) stage.world w' := by
    intro c longer
    rw [log] at longer
    simp [System.Stage.world] at longer
  have issued : Session w'.shared "alice" "hash-second" := session_iff.mpr (log ▸ session)
  exact ⟨stage.world, w', pair, ⟨c, member, of_decide_eq_true ends⟩, before, returns,
    terminations_final run taken unraced 4 "second" pair "alice" before returns issued⟩

end Sample
end PaymentWallet.Sessions
