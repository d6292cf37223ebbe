import PaymentWallet.Sessions.Shadowing
import PaymentWallet.Sessions.Sweeping
import PaymentWallet.Guarantees.Logouts
import PaymentWallet.Guarantees.Reuse
import PaymentWallet.Guarantees.Termination

/-! The cleanup of expired tokens ends, deletes what has expired and nothing else, and goes
unobserved wherever no request has got hold of what it deletes. -/
namespace PaymentWallet.Sessions
open Foundation

/-- What can be told of `w`, which is reached with cleanups, can be told of `v`, which is not. -/
structure Unobserved (w v : State) : Prop where
  now : v.shared.db.now = w.shared.db.now
  users : v.shared.db.users = w.shared.db.users
  log : v.shared.log = w.shared.log.filter fun c => !c.sweeps
  ext : v.shared.ext = w.shared.ext.unlocked
  kept : ∀ row ∈ w.shared.db.refreshTokens.rows, row ∈ v.shared.db.refreshTokens.rows
  expired : ∀ row ∈ v.shared.db.refreshTokens.rows, row ∉ w.shared.db.refreshTokens.rows →
    row.expiresAt < w.shared.db.now
  active : ∀ userId now, w.shared.db.now ≤ now →
    v.shared.db.activeTokens userId now = w.shared.db.activeTokens userId now
  programs : ∀ pid request p, request.cleans = false →
    (∀ refreshToken userId jti, request ≠ .logout refreshToken userId jti) →
    (v.procs pid = some (request, .running p) ↔ w.procs pid = some (request, .running p))
  creations : ∀ pid request data maxSessions tie body writes held next,
    v.procs pid = some (request,
      .inTx (.createSessionAtomic data maxSessions tie) body writes held next) ↔
      w.procs pid = some (request,
        .inTx (.createSessionAtomic data maxSessions tie) body writes held next)

section Runs
variable {config : Config} {gone : List String} {w w' v : State}

/-- However many rows there are, and whatever expires in the meantime. -/
theorem cleanup_ends (config : Config) (pid : Nat) (σ : SharedState) {batchSize batches : Nat}
    (positive : 1 ≤ batchSize) (enough : σ.db.refreshTokens.rows.length / batchSize < batches) :
    (∃ result σ', (AuthRepository.deleteAllExpiredTokens batchSize batches).Runs
      (Clocked config pid) σ result σ') ∧
      ∀ result σ', (AuthRepository.deleteAllExpiredTokens batchSize batches).Runs
        (Clocked config pid) σ result σ' →
        ∃ removed, result = .ok removed ∧ Cleaned removed σ.db σ'.db :=
  ⟨deleteAll_runs config pid batchSize batches σ, fun _ _ run =>
    deleteAll_cleans ((Nat.div_lt_iff_lt_mul positive).mp enough) run⟩

theorem Alike.programs {full d : Store} {p q : Option (Request × SessionPhase)} {request : Request}
    {program : Svc Response} (alike : Alike config gone full d p q) (keeps : request.cleans = false)
    (other : ∀ refreshToken userId jti, request ≠ .logout refreshToken userId jti) :
    q = some (request, .running program) ↔ p = some (request, .running program) := by
  cases alike with
  | idle | looks | stays => exact Iff.rfl
  | cleans cleans =>
    apply iff_of_false (by rintro ⟨⟩)
    rintro ⟨⟩
    exact absurd (keeps.symm.trans cleans) Bool.false_ne_true
  | lags => exact iff_of_false (by rintro ⟨⟩) (by rintro ⟨⟩)
  | parted same =>
    subst same
    refine iff_of_false ?_ ?_ <;>
    · rintro ⟨⟩
      exact other _ _ _ rfl

theorem Alike.creations {full d : Store} {p q : Option (Request × SessionPhase)}
    {request : Request} {data : NewToken}
    {maxSessions tie : Nat} {body writes held next} (alike : Alike config gone full d p q) :
    q = some (request, .inTx (.createSessionAtomic data maxSessions tie) body writes held next) ↔
      p = some (request, .inTx (.createSessionAtomic data maxSessions tie) body
        writes held next) := by
  cases alike with
  | idle | looks | stays => exact Iff.rfl
  | cleans _ cleans =>
    apply iff_of_false (by rintro ⟨⟩)
    rintro ⟨⟩
    cases cleans with
    | inTx all => cases all.1
  | lags _ _ lags =>
    refine iff_of_false ?_ ?_ <;>
    · rintro ⟨⟩
      cases lags.ends
  | parted => exact iff_of_false (by rintro ⟨⟩) (by rintro ⟨⟩)

theorem Shadow.unobserved (shadow : Shadow config gone w v) : Unobserved w v where
  now := shadow.swept.now.symm
  users := shadow.swept.users.symm
  log := shadow.log
  ext := shadow.ext
  kept row member := by
    rw [shadow.swept.rows] at member
    exact (List.mem_filter.mp member).1
  expired row member missing := by
    have lost : row.tokenHash ∈ gone := by
      by_contra kept
      apply missing
      rw [shadow.swept.rows]
      exact List.mem_filter.mpr ⟨member, by simpa using kept⟩
    obtain ⟨row', found, before⟩ := shadow.swept.expired _ lost
    cases found.symm.trans (Table.get?_of_mem member)
    exact shadow.swept.now ▸ before
  active userId now later := (shadow.swept.activeTokens_now (shadow.swept.now ▸ later)).symm
  programs pid request p := (shadow.procs pid).programs
  creations pid request data maxSessions tie body writes held next := (shadow.procs pid).creations

/-- The simulation, from the empty store on. -/
theorem shadowed_of_traces
    (run : (sessions config).Traces anything (Undisturbed config)
      (World.init Store.empty Ext.idle) w) :
    ∃ v, Beside (fun w w' => (sessions config).Step anything w w' ∧
      Undisturbed config w w') ((sessions config).Step uncleaned)
      Unobserved (World.init Store.empty Ext.idle) (World.init Store.empty Ext.idle) w v := by
  have answers : ∀ {w v w' : State}, (∃ gone, Shadow config gone w v) →
      (sessions config).Step anything w w' ∧ Undisturbed config w w' →
      ∃ v', (sessions config).Reaches uncleaned v v' ∧ ∃ gone, Shadow config gone w' v' := by
    rintro w v w' ⟨gone, shadow⟩ ⟨taken, calm⟩
    obtain ⟨gone', v', answered, shadow'⟩ := shadow.step taken calm
    exact ⟨v', answered, gone', shadow'⟩
  have simulated : ∃ v, Beside (fun w w' => (sessions config).Step anything w w' ∧
      Undisturbed config w w')
      ((sessions config).Step uncleaned) Unobserved (World.init Store.empty Ext.idle)
        (World.init Store.empty Ext.idle) w v ∧
        ∃ gone, Shadow config gone w v :=
    beside_of_simulation ⟨[], .init config⟩ (fun related => related.elim fun _ => Shadow.unobserved)
      (fun related taken => answers related taken) run
  exact simulated.imp fun _ => And.left

/-- Beside every run whose cleanups delete nothing that others have got hold of, there is one
without cleanups that cannot be told from it at any step. -/
theorem cleanup_unobserved
    (run : (sessions config).Traces anything (Undisturbed config)
      (World.init Store.empty Ext.idle) w) :
    ∃ v, Beside (fun w w' => (sessions config).Step anything w w' ∧
      Undisturbed config w w') ((sessions config).Step uncleaned)
      Unobserved (World.init Store.empty Ext.idle) (World.init Store.empty Ext.idle) w v :=
  shadowed_of_traces run

/-- A run either keeps a token, whose end never changes, or deletes it in a batch after its end. -/
theorem Reachable.kept_or_cleaned {tokenHash : String} {row : RefreshToken}
    (run : Reachable config w)
    (later : (sessions config).Reaches anything w w')
    (found : w.shared.db.refreshTokens.get? tokenHash = some row) :
    ∃ more, w'.shared.log = w.shared.log ++ more ∧
      ((∃ row', w'.shared.db.refreshTokens.get? tokenHash = some row' ∧
        row'.expiresAt = row.expiresAt) ∨
      (∃ batchSize first, .deleteExpiredBatch batchSize first ∈ more) ∧
        row.expiresAt < w'.shared.db.now) := by
  induction later with
  | refl => exact ⟨[], (List.append_nil _).symm, .inl ⟨row, found, rfl⟩⟩
  | @tail w₁ w₂ earlier last ih =>
    obtain ⟨more, log, kept⟩ := ih
    have run₁ : Reachable config w₁ := run.trans earlier
    have advances := advances_of_reaches run₁ last
    obtain ⟨again, log'⟩ : ∃ again, w₂.shared.log = w₁.shared.log ++ again := advances.appends
    refine ⟨more ++ again, by rw [log', log, List.append_assoc], ?_⟩
    rcases kept with ⟨row₁, found₁, expiry⟩ | ⟨⟨batchSize, first, member⟩, past⟩
    · cases found₂ : w₂.shared.db.refreshTokens.get? tokenHash with
      | some row₂ => exact .inl ⟨row₂, rfl, (run₁.same_expiry last found₁ found₂).trans expiry⟩
      | none =>
        obtain ⟨⟨batchSize, first, batch⟩, past⟩ := run₁.vanish last found₁ found₂
        rw [List.append_cancel_left (log'.symm.trans batch)]
        exact .inr ⟨⟨batchSize, first, List.mem_append_right _ (List.mem_singleton_self _)⟩,
          expiry ▸ past.trans_le advances.now⟩
    · exact .inr ⟨⟨batchSize, first, List.mem_append_left _ member⟩, past.trans_le advances.now⟩

/-- A token that is no longer there was deleted by a cleanup, after its end. -/
theorem deleted_after_expiry {tokenHash : String} {row : RefreshToken} (run : Reachable config w)
    (later : (sessions config).Reaches anything w w')
    (found : w.shared.db.refreshTokens.get? tokenHash = some row)
    (missing : w'.shared.db.refreshTokens.get? tokenHash = none) :
    row.expiresAt < w'.shared.db.now ∧
      ∃ more batchSize first, w'.shared.log = w.shared.log ++ more ∧
        .deleteExpiredBatch batchSize first ∈ more := by
  obtain ⟨more, log, ⟨row', found', _⟩ | ⟨⟨batchSize, first, member⟩, past⟩⟩ :=
    run.kept_or_cleaned later found
  · cases found'.symm.trans missing
  · exact ⟨past, more, batchSize, first, log, member⟩

end Runs

section Sample

/-- A week and a minute after the login, with another session that still lasts. -/
def twoSessions : SharedState :=
  ⟨{ Store.empty with
      now := 604860000
      refreshTokens := (Table.empty.put session).put ⟨"other", "alice", "hash-second", 60000,
        604900000, none⟩ }, [], Ext.idle⟩

/-- Batches of one row. -/
theorem cleanup_ends_two : twoSessions.db.refreshTokens.rows.length = 2 ∧
    (∃ result σ', (AuthRepository.deleteAllExpiredTokens 1 3).Runs (Clocked (.sample 10) 0)
      twoSessions result σ') ∧
      ∀ result σ', (AuthRepository.deleteAllExpiredTokens 1 3).Runs (Clocked (.sample 10) 0)
        twoSessions result σ' →
        ∃ removed, result = .ok removed ∧ Cleaned removed twoSessions.db σ'.db :=
  ⟨by decide, cleanup_ends (.sample 10) 0 twoSessions (by decide) (by decide)⟩

def Script.cleans (pid : Nat) : Script :=
  .start pid (.cleanupExpiredTokens 1) ::
    [.answer {}, .answer {}, .commit, .answer {}].map (.turn pid)

/-- Alice has not come back for more than a week. -/
theorem deleted_after_expiry_week :
    ∃ (w w' : State) (row : RefreshToken), Reachable (Config.sample 10) w ∧
      w.shared.db.refreshTokens.get? "hash-first" = some row ∧
    row.expiresAt < w'.shared.db.now ∧
      ∃ more batchSize first, w'.shared.log = w.shared.log ++ more ∧
        .deleteExpiredBatch batchSize first ∈ more := by
  obtain ⟨stage, stage', run, later, there, missing⟩ :=
    Script.continues (Script.registers 0 "alice" "first")
    (Script.waits 1 604860000 ++ Script.cleans 2) (.sample 10) (fun stage stage' =>
      (stage.shared.db.refreshTokens.get? "hash-first").isSome ∧
      stage'.shared.db.refreshTokens.get? "hash-first" = none) (by decide +kernel)
  obtain ⟨row, found⟩ := Option.isSome_iff_exists.mp there
  exact ⟨_, stage'.world, row, run, found, deleted_after_expiry run later found missing⟩

/-- Everybody in the list is done, or cleans up. -/
def Stage.quiet (stage : Stage) (pids : List Nat) : Bool :=
  pids.all fun pid => match stage.procs pid with
    | none | some (_, .pure _) | some (_, .throw _) => true
    | some (request, _) => request.cleans

/-- Nothing is deleted, or nobody is there to notice. -/
def Stage.undisturbed (pids : List Nat) (stage stage' : Stage) : Bool :=
  stage.quiet pids || stage.shared.db.refreshTokens.rows.all fun row =>
    (stage'.shared.db.refreshTokens.get? row.tokenHash).isSome

theorem Stage.quiet_running {stage : Stage} {pids : List Nat} {pid : Nat} {request : Request}
    {p : Svc Response} (quiet : stage.quiet pids)
    (idle : ∀ pid ∉ pids, stage.procs pid = none) (found : stage.procs pid = some (request, p))
    (keeps : request.cleans = false) :
    (∃ value, p = .pure value) ∨ ∃ error, p = .throw error := by
  have listed : pid ∈ pids := by
    by_contra other
    cases found.symm.trans (idle pid other)
  have still := List.all_eq_true.mp quiet pid listed
  rw [found] at still
  cases p with
  | pure value => exact .inl ⟨value, rfl⟩
  | throw error => exact .inr ⟨error, rfl⟩
  | call op next => exact absurd (keeps.symm.trans still) Bool.false_ne_true

theorem undisturbed_checks (config : Config) (pids : List Nat) :
    System.Checks (sessions config) pids (Undisturbed config) (Stage.undisturbed pids) where
  calm {w w'} taken := by
    intro tokenHash row found missing
    rw [show w'.shared = w.shared from System.Reaches.quiet (.single taken)] at missing
    cases found.symm.trans missing
  last {stage stage' w} checked idle shared same := by
    intro tokenHash row found missing pid request phase here keeps
    rw [shared] at found
    rcases Bool.or_eq_true_iff.mp checked with quiet | kept
    · have there := same pid
      rw [here, Option.map_some] at there
      have done := Stage.quiet_running quiet idle there.symm keeps
      cases phase with
      | running p =>
        refine ⟨.inr ?_, by rintro c body writes held next ⟨⟩⟩
        rcases done with ⟨_, rfl⟩ | ⟨_, rfl⟩ <;> trivial
      | inTx => rcases done with ⟨_, ⟨⟩⟩ | ⟨_, ⟨⟩⟩
    · have still := List.all_eq_true.mp kept row (Table.get?_mem found)
      rw [show row.tokenHash = tokenHash from Table.get?_key found,
        show stage'.shared.db.refreshTokens.get? tokenHash = none from missing] at still
      cases still

/-- A refresh fails for want of its token in the one run, and for its age in the other. -/
theorem cleanup_unobserved_refresh :
    ∃ w v, w.procs 3 = some (.refresh "first", .running (.throw (.unauthorized "Invalid token."))) ∧
    w.shared.db.refreshTokens.get? "hash-first" = none ∧
    Beside (fun w w' => (sessions (.sample 10)).Step anything w w' ∧
      Undisturbed (.sample 10) w w') ((sessions (.sample 10)).Step uncleaned)
      Unobserved (World.init Store.empty Ext.idle) (World.init Store.empty Ext.idle) w v := by
  obtain ⟨stage, run, failed, missing⟩ :=
      Script.traces (Script.registers 0 "alice" "first" ++
        Script.waits 1 604860000 ++ Script.cleans 2 ++
      [.start 3 (.refresh "first"), .turn 3 (.answer {})]) (.sample 10)
        (undisturbed_checks (.sample 10) [0, 1, 2, 3]) (by decide)
    (fun stage => stage.ended 3 = some (.refresh "first", .error (.unauthorized "Invalid token.")) ∧
      stage.shared.db.refreshTokens.get? "hash-first" = none) (by decide +kernel)
  obtain ⟨v, beside⟩ := cleanup_unobserved run
  exact ⟨stage.world, v, System.Stage.ended_error failed, missing, beside⟩

end Sample
end PaymentWallet.Sessions
