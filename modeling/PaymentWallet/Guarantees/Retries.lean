import PaymentWallet.Guarantees.Answers
import PaymentWallet.Foundation.Winners

/-! Retries of one request. All that return agree on the transaction, and one that
looks its key up after the commit returns it. One that looked it up before may still
be refused: by a check of its own, or by the unique index. -/
namespace PaymentWallet
open Foundation Schedule

abbrev ServicePhase :=
  Phase Write Statement Statement.Reply LockKey Exception TxCall TxCall.Out Outside
  Outside.Reply Response

/-- Freshly created, as the response says. Payment responses do not say. -/
def Response.fresh : Response → Bool
  | .mutation result => !result.replayed
  | _ => false

/-- How far a money request has come. -/
inductive Standing (request : Request) (key : String) : ServicePhase → Prop where
  | waiting : Standing request key (.running request.handler)
  | initiating : Announces key (request.answer false) phase.residual → Standing request key phase
  | answered : Standing request key (.running (.pure (request.answer replayed t)))

section Steps
variable {request : Request} {key : String} {pid : Nat} {σ : SharedState}
  {phase phase' : ServicePhase}

theorem Standing.next (carries : request.carries key) (standing : Standing request key phase)
    (next : system.Next pid σ phase phase') : Standing request key phase' := by
  cases standing with
  | waiting =>
    by_cases self : request.selfTransfer
    · rw [Request.refused self] at next
      cases next
    obtain ⟨rest, looksUp⟩ := Request.looks_up carries self
    rw [looksUp.handler] at next
    cases next with
    | outside replied =>
      rename_i reply
      cases reply with
      | error error => exact .initiating trivial
      | ok existing =>
        cases existing with
        | some t => exact .answered
        | none => exact .initiating looksUp.announces
  | initiating announces =>
    cases next with
    | outside replied => exact .initiating (announces _)
    | begin => exact .initiating announces
    | read | write => exact .initiating announces
    | commit =>
      rename_i c value writes held next
      obtain ⟨t, _, answers⟩ := announces.2.1 value
      exact answers ▸ .answered
    | fail =>
      rename_i c body writes held next error
      exact announces.2.2 error ▸ .initiating trivial
  | answered => cases next

/-- Once the key is taken: before the lookup, cut off, or replayed. -/
inductive Late (request : Request) : ServicePhase → Prop where
  | waiting : Late request (.running request.handler)
  | lost : Late request (.running (.throw .connectionLost))
  | replayed : Late request (.running (.pure (request.answer true t)))

theorem Late.next (carries : request.carries key) (other : ¬ request.selfTransfer)
    (taken : ∃ t ∈ σ.db.transactions.rows, t.idempotencyKey = key) (late : Late request phase)
    (next : system.Next pid σ phase phase') : Late request phase' := by
  cases late with
  | lost | replayed => cases next
  | waiting =>
    obtain ⟨rest, looksUp⟩ := Request.looks_up carries other
    rw [looksUp.handler] at next
    cases next with
    | outside replied =>
      rename_i reply
      rcases replied.2 with rfl | rfl
      · cases found : σ.db.transactions.rows.find? fun row => decide (row.idempotencyKey = key) with
        | some t => exact .replayed
        | none =>
          obtain ⟨t, member, same⟩ := taken
          simpa [same] using List.find?_eq_none.mp found t member
      · exact .lost

variable {ticket : TxCall → Bool} {won : Response → Prop} {p : Svc Response}

theorem earns_nothing (never : ∀ response, ¬ won response) : Earns ticket won p := by
  induction p with
  | pure response => exact never response
  | throw error => trivial
  | call op next ih =>
    cases op with
    | outside x => exact ih
    | transact c => exact ⟨fun value => .inl (ih _), fun error => ih _⟩

theorem Announces.earns {answer : Transaction → Response} (announces : Announces key answer p) :
    Earns (TxCall.carries key) won p := by
  induction p with
  | pure response => cases announces
  | throw error => trivial
  | call op next ih =>
    cases op with
    | outside x => exact fun reply => ih reply (announces reply)
    | transact c =>
      refine ⟨fun value => .inr ⟨announces.1, ?_⟩, fun error => announces.2.2 error ▸ trivial⟩
      obtain ⟨t, _, answers⟩ := announces.2.1 value
      exact ⟨_, answers⟩

/-- The process has answered a request with the key as freshly created. -/
def Fresh (key : String) (request : Request) (response : Response) : Prop :=
  request.carries key ∧ response.fresh

theorem fresh_earns (key : String) (request : Request) :
    Earns (TxCall.carries key) (Fresh key request) request.handler := by
  by_cases carries : request.carries key
  · by_cases self : request.selfTransfer
    · rw [Request.refused self]
      trivial
    obtain ⟨rest, looksUp⟩ := Request.looks_up carries self
    rw [looksUp.handler]
    intro reply
    cases reply with
    | error error => trivial
    | ok existing =>
      cases existing with
      | none => exact looksUp.announces.earns
      | some t =>
        rintro ⟨_, fresh⟩
        cases request <;> cases fresh
  · exact earns_nothing fun _ fresh => carries fresh.1

theorem Request.Makes.unique {request other : Request} {c : TxCall} (makes : request.Makes c)
    (makes' : other.Makes c) :
    request = other := by
  cases makes <;> cases makes' <;> rfl

end Steps

section Reached
variable {w w' : State} {request : Request} {key : String}

/-- Every initiation committed was asked for by a request that is no transfer to oneself. -/
theorem Reachable.made (run : Reachable w) :
    ∀ c ∈ w.shared.log, c.intent = none ∨
      ∃ request : Request, request.Makes c ∧ ¬ request.selfTransfer := by
  refine System.log_allowed
    { disciplined anything with code := fun c _ => c.code.all_trivial, start := ?_ } run
  intro σ pid request _
  exact request.all_handler (fun _ _ => trivial) (fun _ quiet => .inl quiet) (fun _ _ _ => trivial)
    fun c makes other => .inr ⟨request, makes, other⟩

theorem Reachable.standing (run : Reachable w) (carries : request.carries key)
    (found : w.procs pid = some (request, phase)) : Standing request key phase := by
  refine run.proc (F := fun _ request phase => request.carries key → Standing request key phase)
    (fun _ _ => .waiting) (fun _ standing next carries => (standing carries).next carries next)
    (fun _ _ _ none => by cases none) pid request phase found carries

theorem Reachable.fair (run : Reachable w) (key : String) :
    w.Fair (TxCall.carries key) (Fresh key) := by
  refine (World.Fair.init DB.empty Ext.idle).reaches (M := system) (fresh_earns key)
    (fun w' later => ?_) run
  rw [← Reachable.sound later |>.keyed key]
  exact (Reachable.sound later).unique key

theorem Reachable.late (run : Reachable w) (carries : request.carries key) {c : TxCall}
    (made : c ∈ w.shared.log) (makes : request.Makes c)
    (early : w.procs pid = none ∨ w.procs pid = some (request, .running request.handler))
    (later : system.Reaches anything w w') (found : w'.procs pid = some (request, phase)) :
    Late request phase := by
  have distinct : ¬ request.selfTransfer := by
    rcases run.made c made with quiet | ⟨request', makes', distinct⟩
    · obtain ⟨intent, asks⟩ := TxCall.carries_intent ((makes.same.2 key).trans carries)
      cases quiet.symm.trans asks
    · exact makes.unique makes' ▸ distinct
  refine later.proc (F := fun other request' phase => other = pid →
    request' = request → Late request phase)
    ?_ ?_ ?_ pid request phase found rfl rfl
  · rintro σ other request' _ _ rfl
    exact .waiting
  · intro w₁ other request' phase phase' between late next here same
    have sound : Sound w₁.shared := Reachable.sound (Relation.ReflTransGen.trans run between)
    have taken := sound.initiated.mpr ⟨c, between.log c made, (makes.same.2 key).trans carries⟩
    exact (late here same).next carries distinct taken next
  · rintro _ request' phase found' rfl rfl
    rcases early with none | waiting
    · cases none.symm.trans found'
    · cases waiting.symm.trans found'
      exact .waiting

end Reached

/-- What the requests that are made with one key, retries of one another, return. -/
structure RetriesAgree (request : Request) (key : String) (w : State) : Prop where
  same : ∀ pid response, w.procs pid = some (request, .running (.pure response)) →
    ∃ t, w.shared.db.keyed key = [t] ∧ response.Shows t
  once : ∀ pid other, w.Won (Fresh key) pid → w.Won (Fresh key) other → pid = other
  commits : ∀ pid c value writes held next,
    w.procs pid = some (request, .inTx c (.pure value) writes held next) →
    c.carries key ∧ ∃ t, c.entered value = some t ∧
      next (.ok value) = .pure (request.answer false t)
  late : ∀ c ∈ w.shared.log, request.Makes c →
    ∀ pid, w.procs pid = none ∨ w.procs pid = some (request, .running request.handler) →
    ∀ w', system.Reaches anything w w' →
      ∀ phase, w'.procs pid = some (request, phase) → Late request phase

/-- Retries agree: those that return show the one transaction with their key, at most
one as fresh, which is the one that commits it; and each that looks its key up after the
commit returns it as a replay, unless it is cut off. -/
theorem retries_agree {w : State} (run : Reachable w) {request : Request} {key : String}
    (carries : request.carries key) : RetriesAgree request key w where
  same pid response ended := by
    obtain ⟨t, member, shows_, same⟩ := shown_of_reaches run ended carries
    exact ⟨t, run.sound.keyed_eq member same, shows_⟩
  once pid other := (run.fair key).unique
  commits pid c value writes held next found := by
    cases run.standing carries found with
    | initiating announces => exact ⟨announces.1, announces.2.1 value⟩
  late c made makes pid early w' later phase found := run.late carries made makes early later found

/-- Each retry of a committed request returns its transaction, unless it was cut off. -/
def Transparent (w : State) : Prop :=
  ∀ request key, request.carries key → ∀ c ∈ w.shared.log, request.Makes c → ∀ pid,
    (∀ error, w.procs pid = some (request, .running (.throw error)) → error = .connectionLost) ∧
    ∀ response, w.procs pid = some (request, .running (.pure response)) →
      ∃ t, w.shared.db.keyed key = [t] ∧ response.Shows t

theorem retries_agree_replayed : ∃ w, Reachable w ∧
    (∃ response, w.procs 2 = some (fiveFor "user-alice", .running (.pure response)) ∧
      ¬ response.fresh) ∧
    RetriesAgree (fiveFor "user-alice") "key" w := by
  obtain ⟨stage, run, response, ended, replayed⟩ := Script.reaches
    (Script.history [registers "alice", (fiveFor "user-alice", initiates "deposit"),
      (fiveFor "user-alice", [.answer {}])]) anything
    (fun stage => Answered stage 2 (fiveFor "user-alice") fun response => ¬ response.fresh)
      (by decide +kernel)
  exact ⟨stage.world, run, ⟨response, System.Stage.ended_ok ended, replayed⟩, retries_agree run rfl⟩

section Refused
variable {stage : Stage}

/-- The script commits the request's transaction, and ends `pid` with the error. -/
def Refuses (pid : Nat) (request : Request) (makes : TxCall → Bool) (error : Exception)
    (stage : Stage) : Prop :=
  stage.ended pid = some (request, .error error) ∧ stage.shared.log.any makes

instance (pid : Nat) (request : Request) (makes : TxCall → Bool) (error : Exception) :
    DecidablePred (Refuses pid request makes error) :=
  fun _ => inferInstanceAs (Decidable (_ ∧ _))

theorem Refuses.refutes {pid : Nat} {request : Request} {makes : TxCall → Bool} {error : Exception}
    (refuses : Refuses pid request makes error stage) (key : String) (carries : request.carries key)
    (sub : ∀ c, makes c → request.Makes c) (own : error ≠ .connectionLost) :
    ¬ Transparent stage.world := by
  intro claim
  obtain ⟨c, made, makes⟩ := List.any_eq_true.mp refuses.2
  exact own ((claim request key carries c made (sub c makes) pid).1 error
    (System.Stage.ended_error refuses.1))

end Refused

/-- Alice asks for five dollars before she has them, and again when she has. -/
def Schedule.fiveOut : Request :=
  .withdraw "user-alice" ⟨⟨50000, Amount.fiveDollars_pos⟩, .usd, "key", none⟩

/-- The first attempt finds no balance; a later one with the same key commits. -/
theorem early_retry_refused : ¬ ∀ w, Reachable w → Transparent w := by
  intro claim
  obtain ⟨stage, run, refuses⟩ := Script.reaches
    (Script.history [registers "alice",
      (fiveOut, [.answer {}, .answer {}, .fail]), deposits "alice",
      polls (.ok charged) [.answer {}, .commit], (fiveOut, initiates "payout")]) anything
    (Refuses 1 fiveOut (fun | .withdraw userId dto _ => fiveOut = .withdraw userId dto | _ => false)
      (.unprocessableEntity "Insufficient balance.")) (by decide +kernel)
  refine refuses.refutes "key" rfl (fun c makes => ?_) (by simp) (claim _ run)
  cases c with
  | withdraw => exact of_decide_eq_true makes ▸ .withdraw
  | _ => cases makes

/-- Two requests look the key up before either commits; the index refuses the second. -/
theorem overlapping_retry_refused : ∃ w, Reachable w ∧ ¬ Transparent w ∧
    w.procs 2 = some
      (fiveFor "user-alice", .running (.throw (.uniqueViolation "idempotencyKey"))) := by
  obtain ⟨stage, run, refuses⟩ := Script.reaches
    (Script.history [registers "alice"] ++
      [.start 1 (fiveFor "user-alice"), .start 2 (fiveFor "user-alice"),
      .turn 1 (.answer {}), .turn 2 (.answer {}),
      .turn 1 (.answer { draw := .labelled "first" }), .turn 1 .commit,
      .turn 2 (.answer { draw := .labelled "second" }), .turn 2 .fail]) anything
    (Refuses 2 (fiveFor "user-alice")
      (fun | .deposit userId dto _ => fiveFor "user-alice" = .deposit userId dto | _ => false)
      (.uniqueViolation "idempotencyKey")) (by decide +kernel)
  refine ⟨stage.world, run, ?_, System.Stage.ended_error refuses.1⟩
  refine refuses.refutes "key" rfl (fun c makes => ?_) (by simp)
  cases c with
  | deposit => exact of_decide_eq_true makes ▸ .deposit
  | _ => cases makes

end PaymentWallet
