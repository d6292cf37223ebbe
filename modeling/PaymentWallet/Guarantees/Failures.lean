import PaymentWallet.Service.Failures
import PaymentWallet.Guarantees.Accounts

/-! What a failed request means to its sender. An answer below 500 says why, in words of the
services, and that nothing was done; after a commit a request can fail with 500 only. -/
namespace PaymentWallet
open Foundation Schedule

variable {w w' w'' : State} {pid : Nat} {request : Request} {error : Exception} {caught : Caught}

/-- An answer that tells nothing of what has happened inside. -/
def StandardErrorResponse.Covered (answer : StandardErrorResponse) : Prop :=
  answer.statusCode = 500 ∧
    (answer.message = .one "Internal server error" ∨
    answer.message = .one "A database error occurred")

/-- An answer in the words of the refusal. -/
def StandardErrorResponse.Words (answer : StandardErrorResponse) (error : Exception) : Prop :=
  match error with
  | .badRequest message => answer.statusCode = 400 ∧ answer.message = .one message
  | .forbidden message => answer.statusCode = 403 ∧ answer.message = .one message
  | .notFound message => answer.statusCode = 404 ∧ answer.message = .one message
  | .conflict message => answer.statusCode = 409 ∧ answer.message = .one message
  | .unprocessableEntity message => answer.statusCode = 422 ∧ answer.message = .one message
  | _ => False

/-- What the filter makes of the exceptions of a request. -/
def StandardErrorResponse.Explains (answer : StandardErrorResponse) (error : Exception) : Prop :=
  (Refusal error ∧ answer.Words error) ∨
  (answer.statusCode = 404 ∧ answer.message = .one "The requested record was not found" ∧
    error = .recordNotFound) ∨
  (answer.statusCode = 409 ∧
    (answer.message = .one "A user with these unique values already exists" ∨
    ∃ field, answer.message = .one ("A user with this " ++ field ++ " already exists")) ∧
      ∃ target, error = .uniqueViolation target) ∨
  answer.Covered

section Filter
variable {path : String} {timestamp : DateTime}

theorem mapPrismaKnownError_covered {code : String} {target : Target}
    (unmapped : code ∉ mappedCodes) :
    (HttpExceptionFilter.mapPrismaKnownError code target path timestamp).Covered := by
  unfold HttpExceptionFilter.mapPrismaKnownError
  split
  · exact absurd (by decide) unmapped
  · exact absurd (by decide) unmapped
  · exact absurd (by decide) unmapped
  · exact absurd (by decide) unmapped
  · exact ⟨rfl, .inr rfl⟩

theorem covered_of_connectionLost (surfaces : Exception.connectionLost.Surfaces caught) :
    (HttpExceptionFilter.toStandardError caught path timestamp).Covered := by
  cases surfaces with
  | connectionLost unmapped => exact mapPrismaKnownError_covered unmapped
  | connectionUnknown => exact ⟨rfl, .inl rfl⟩

/-- Every exception of the services is explained or covered up. -/
theorem explains_known (known : error.Known) (surfaces : error.Surfaces caught) :
    (HttpExceptionFilter.toStandardError caught path timestamp).Explains error := by
  rcases known with refusal | fault
  · left
    refine ⟨refusal, ?_⟩
    cases refusal <;> cases surfaces <;> exact ⟨rfl, rfl⟩
  · right
    cases fault with
    | uniqueViolation column =>
      cases surfaces with
      | @uniqueViolation _ target =>
        refine .inr (.inl ⟨rfl, ?_, column, rfl⟩)
        cases field : HttpExceptionFilter.targetText target with
        | none =>
          left
          simp [HttpExceptionFilter.toStandardError, HttpExceptionFilter.mapPrismaKnownError, field]
        | some text =>
          right
          use text
          simp [HttpExceptionFilter.toStandardError, HttpExceptionFilter.mapPrismaKnownError, field]
    | recordNotFound =>
      cases surfaces
      exact .inl ⟨rfl, rfl, rfl⟩
    | numericOverflow =>
      cases surfaces with
      | numericOverflow unmapped => exact .inr (.inr (mapPrismaKnownError_covered unmapped))
      | overflowUnknown => exact .inr (.inr ⟨rfl, .inl rfl⟩)
    | error message =>
      cases surfaces
      exact .inr (.inr ⟨rfl, .inl rfl⟩)
    | connectionLost => exact .inr (.inr (covered_of_connectionLost surfaces))

end Filter

/-- A request that has failed is answered with a refusal of the services in their own words, with a
conflict or a missing row that the database has reported, or without any detail. A registration
is `createUserWithWallet` alone, without the session that follows it. -/
theorem failures_explained (path : String) (timestamp : DateTime) (run : Reachable w)
    (client : request.client)
    (ended : w.procs pid = some (request, .running (.throw error)))
    (surfaces : error.Surfaces caught) :
    (HttpExceptionFilter.toStandardError caught path timestamp).Explains error :=
  explains_known (System.Reaches.throws system_expects run
    (Request.client.handled client).throws ended) surfaces

/-- The process has failed its request. -/
def Failed (stage : Stage) (pid : Nat) (request : Request) (error : Exception) : Prop :=
  stage.ended pid = some (request, .error error)

instance (stage : Stage) (pid : Nat) (request : Request) (error : Exception) :
    Decidable (Failed stage pid request error) :=
  decidable_of_iff ((stage.ended pid).any fun (other, result) =>
      other = request &&
        match result with | .ok _ => false | .error caught => decide (caught = error)) (by
    unfold Failed
    rcases stage.ended pid with _ | ⟨other, _ | response⟩ <;> simp)

/-- Alice withdraws what she does not have. -/
theorem failures_explained_poor : ∃ w, Reachable w ∧
    w.procs 1 = some (.withdraw "user-alice" ⟨⟨50000, Amount.fiveDollars_pos⟩, .usd, "key", none⟩,
      .running (.throw (.unprocessableEntity "Insufficient balance."))) ∧
    (HttpExceptionFilter.toStandardError
      (.http (.named 422 "Unprocessable Entity" "Insufficient balance.")) "/withdraw" 0).Explains
      (.unprocessableEntity "Insufficient balance.") := by
  obtain ⟨stage, run, ended⟩ := Script.reaches (.history [registers "alice",
      (.withdraw "user-alice" ⟨⟨50000, Amount.fiveDollars_pos⟩, .usd, "key", none⟩,
        [.answer {}, .answer { draw := .labelled "withdrawal" }, .fail])]) anything
    (fun stage => Failed stage 1
      (.withdraw "user-alice" ⟨⟨50000, Amount.fiveDollars_pos⟩, .usd, "key", none⟩)
      (.unprocessableEntity "Insufficient balance.")) (by decide +kernel)
  have stopped : (stage.world : State).procs 1 =
      some (.withdraw "user-alice" ⟨⟨50000, Amount.fiveDollars_pos⟩, .usd, "key", none⟩,
        .running (.throw (.unprocessableEntity "Insufficient balance."))) :=
    System.Stage.ended_error ended
  exact ⟨stage.world, run, stopped,
    failures_explained "/withdraw" 0 run rfl stopped .unprocessableEntity⟩

/-- A request of which anything was committed never fails with a status below 500. Of a
registration that is the transaction of `createUserWithWallet`; its session comes after it. -/
theorem refused_traceless (path : String) (timestamp : DateTime) (run : Reachable w)
    (commits : system.Commits anything pid w w')
    (later : system.Reaches anything w' w'') (client : request.client)
    (ended : w''.procs pid = some (request, .running (.throw error)))
    (surfaces : error.Surfaces caught) :
    (HttpExceptionFilter.toStandardError caught path timestamp).Covered := by
  have lost : error = .connectionLost :=
    System.Reaches.committed system_expects run
      (Request.client.handled client).final commits later ended
  subst lost
  exact covered_of_connectionLost surfaces

/-- The commit of Alice's deposit goes through, and its reply is lost. -/
theorem refused_traceless_lost : ∃ w w', Reachable w ∧ system.Commits anything 1 w w' ∧
    w'.procs 1 = some ((deposits "alice").1, .running (.throw .connectionLost)) ∧
    (HttpExceptionFilter.toStandardError .other "/deposit" 0).Covered := by
  obtain ⟨stage, run, waits, more⟩ := Script.reaches
    (Script.history [registers "alice"] ++ [.start 1 (deposits "alice").1, .turn 1 (.answer {}),
      .turn 1 (.answer { draw := .labelled "deposit-alice" })]) anything
    (fun stage => stage.ended 1 = none ∧
      (System.perform system Outside.answer (fun _ _ => true) Ext.expire stage (.turn 1 .lost)).any
      fun stage' => Failed stage' 1 (deposits "alice").1 .connectionLost ∧
        stage'.shared.log.length ≠ stage.shared.log.length)
    (by decide +kernel)
  obtain ⟨stage', performed, failed⟩ := (Option.any_eq_true ..).mp more
  obtain ⟨failed, longer⟩ : Failed stage' 1 (deposits "alice").1 .connectionLost ∧ _ :=
    of_decide_eq_true failed
  obtain ⟨⟨request, program⟩, found, advanced⟩ := Option.bind_eq_some_iff.mp performed
  obtain ⟨⟨rest, σ⟩, moved, rfl⟩ := Option.map_eq_some_iff.mp advanced
  obtain ⟨phase, w, solo, left, last⟩ : ∃ phase w,
      System.Solo (M := system) (fun _ _ => False) stage.world 1 request phase stage.shared w ∧
        phase.residual = program ∧
      system.Step anything w (World.set { w with shared := σ } 1 request (.running rest)) :=
    System.advance_step postgres_unread Outside.answer_answers (fun _ => trivial) found moved
  have reached : Reachable w := run.trans (solo.run.mono False.elim)
  have stopped : (World.set { w with shared := σ } 1 request (.running rest) : State).procs 1 =
      some ((deposits "alice").1, .running (.throw .connectionLost)) :=
    solo.last last ▸ System.Stage.ended_error failed
  have commits : system.Commits anything 1 w
      (World.set { w with shared := σ } 1 request (.running rest)) := by
    constructor
    · exact last
    · intro same
      -- the transaction was still open before the step
      cases stopped.symm.trans (same.trans solo.phase)
      subst left
      simp [System.Stage.ended, found, Phase.residual] at waits
    · intro same
      exact longer (congrArg List.length (same.trans (congrArg Shared.log solo.shared)))
  exact ⟨w, _, reached, commits, stopped,
    refused_traceless "/deposit" 0 reached commits .refl rfl stopped .connectionUnknown⟩

end PaymentWallet
