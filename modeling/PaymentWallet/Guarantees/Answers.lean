import PaymentWallet.Guarantees.Accounts
import PaymentWallet.Service.Answers

/-! Whom a money request answers about. A replay is decided by the key alone, so the
answer is about the caller's own request exactly where the key was. Retries agree on
the transaction, except those that looked their key up too early. -/
namespace PaymentWallet
open Foundation Schedule

/-- The response is about a transaction as intended. -/
def AnswersOwn (d : DB) (intent : Intent) (response : Response) : Prop :=
  ∃ t ∈ d.transactions.rows, response.Shows t ∧ intent.Met d t

/-- Each money request that has returned was answered about its own transaction. -/
def OwnAnswers (w : State) : Prop :=
  ∀ pid request intent response, w.procs pid = some (request, .running (.pure response)) →
    request.intent = some intent → AnswersOwn w.shared.db intent response

/-- Money requests with one key all ask for what the plan says. -/
def agreeing (plan : String → Intent) : Permit := fun _ label =>
  match label with
  | .start _ request => ∀ key ∈ request.key, ∀ intent ∈ request.intent, plan key = intent
  | _ => True

instance (plan : String → Intent) (σ : SharedState)
    (label : Label TxCall Outside Request Exception) :
    Decidable (agreeing plan σ label) := by
  unfold agreeing
  split <;> infer_instance

section Reached
variable {permit : Permit} {w : State} {pid : Nat} {request : Request}
  {response : Response} {key : String} {intent : Intent}

theorem shown_of_reaches (run : system.Reaches permit (World.init DB.empty Ext.idle) w)
    (ended : w.procs pid = some (request, .running (.pure response)))
    (carries : request.carries key) :
    Shown key response w.shared.db :=
  (answers_of_reaches run).procs ended _ .refl (answers_of_reaches run).inv key response carries rfl

theorem DB.mem_keyed {d : DB} {t : Transaction} :
    t ∈ d.keyed key ↔ t ∈ d.transactions.rows ∧ t.idempotencyKey = key := by
  simp [DB.keyed]

/-- The one row with a key. -/
theorem Sound.keyed_eq {σ : SharedState} (sound : Sound σ) {t : Transaction}
    (member : t ∈ σ.db.transactions.rows) (same : t.idempotencyKey = key) :
    σ.db.keyed key = [t] := by
  have here := DB.mem_keyed.mpr ⟨member, same⟩
  obtain ⟨only, single⟩ := List.length_eq_one_iff.mp
    (Nat.le_antisymm (sound.unique key) (List.length_pos_of_mem here))
  rw [single, List.mem_singleton] at here
  rw [single, here]

theorem Sound.keyed_unique {σ : SharedState} (sound : Sound σ) {t other : Transaction}
    (left : t ∈ σ.db.transactions.rows) (leftKey : t.idempotencyKey = key)
    (right : other ∈ σ.db.transactions.rows) (rightKey : other.idempotencyKey = key) :
    t = other := by
  have there := DB.mem_keyed.mpr ⟨right, rightKey⟩
  rw [sound.keyed_eq left leftKey, List.mem_singleton] at there
  exact there.symm

/-- A row with the key stands for a commit under it. -/
theorem Sound.initiated {σ : SharedState} (sound : Sound σ) :
    (∃ t ∈ σ.db.transactions.rows, t.idempotencyKey = key) ↔ ∃ c ∈ σ.log, c.carries key := by
  have count := sound.keyed key
  rw [← List.countP_pos_iff, ← count, List.length_pos_iff_exists_mem]
  simp only [DB.mem_keyed]

theorem Response.Shows.unique {d : DB} {t other : Transaction} (shows_ : response.Shows t)
    (shows' : response.Shows other) (left : t ∈ d.transactions.rows)
    (right : other ∈ d.transactions.rows) :
    t = other := by
  refine Table.eq_of_key left right ?_
  cases response with
  | mutation => exact shows_.1.symm.trans shows'.1
  | payment => exact Eq.trans (Eq.symm shows_) shows'
  | _ => cases shows_

/-- An answer is about the caller's own request exactly where the key is: whoever
initiated under it asked for the same. -/
theorem answers_own_iff (run : system.Reaches permit (World.init DB.empty Ext.idle) w)
    (ended : w.procs pid = some (request, .running (.pure response)))
    (carries : request.carries key) :
    AnswersOwn w.shared.db intent response ↔
      ∀ c ∈ w.shared.log, c.carries key → c.intent = some intent := by
  have sound := (answers_of_reaches run).inv.1
  have attributed := (answers_of_reaches run).inv.2
  obtain ⟨t, member, shows_, same⟩ := shown_of_reaches run ended carries
  -- the row with the key meets the intent of whoever initiated it
  have met : ∀ c ∈ w.shared.log, c.carries key → ∃ asked, c.intent = some asked ∧
      asked.Met w.shared.db t := by
    intro c made carries'
    obtain ⟨asked, asks⟩ := TxCall.carries_intent carries'
    obtain ⟨other, member', same', met⟩ := attributed c made key asked carries' asks
    exact ⟨asked, asks, sound.keyed_unique member same member' same' ▸ met⟩
  constructor
  · rintro ⟨other, member', shows', own⟩ c made carries'
    obtain rfl := shows'.unique shows_ member' member
    obtain ⟨asked, asks, theirs⟩ := met c made carries'
    exact own.unique theirs ▸ asks
  · intro all
    obtain ⟨c, made, carries'⟩ := sound.initiated.mp ⟨t, member, same⟩
    obtain ⟨asked, asks, theirs⟩ := met c made carries'
    cases (all c made carries').symm.trans asks
    exact ⟨t, member, shows_, theirs⟩

/-- The transactions committed agree with the plan, as the requests do. -/
theorem agreeing_log {plan : String → Intent}
    (run : system.Reaches (agreeing plan) (World.init DB.empty Ext.idle) w) :
    ∀ c ∈ w.shared.log, ∀ key intent, c.carries key → c.intent = some intent →
      plan key = intent := by
  refine System.log_allowed
    { disciplined (agreeing plan) with code := fun c _ => c.code.all_trivial, start := ?_ } run
  intro σ pid request permitted
  refine request.all_handler (fun _ _ => trivial) (fun c quiet key intent _ asks => ?_)
    (fun _ _ _ => trivial) fun c makes _ key intent carries asks => ?_
  · cases quiet.symm.trans asks
  · exact permitted key (Request.carries_iff.mp (makes.same.2 key ▸ carries)) intent
      (makes.same.1 ▸ asks)

theorem Request.intent_carries (asks : request.intent = some intent) :
    ∃ key, request.carries key := by
  cases request with
  | deposit | withdraw | transfer | confirmDeposit | createPayout => exact ⟨_, decide_eq_true rfl⟩
  | _ => cases asks

end Reached

/-- A money request is answered about the caller's own transaction, in runs where no
key is used for two different requests; and in any run exactly where the transaction
committed under its key was asked for by the same user on the same terms. -/
theorem answers_own (w : State) :
    (∀ plan, system.Reaches (agreeing plan) (World.init DB.empty Ext.idle) w → OwnAnswers w) ∧
    (Reachable w → ∀ pid request response key intent,
      w.procs pid = some (request, .running (.pure response)) → request.carries key →
        request.intent = some intent →
      (AnswersOwn w.shared.db intent response ↔ ∀ c ∈ w.shared.log, c.carries key →
        c.intent = some intent)) := by
  refine ⟨fun plan run pid request intent response ended asks => ?_,
    fun run pid request response key intent
    ended carries _ => answers_own_iff run ended carries⟩
  obtain ⟨key, carries⟩ := Request.intent_carries asks
  have planned := run.proc (F := fun _ request _ => ∀ key ∈ request.key, ∀ intent ∈ request.intent,
    plan key = intent) id (fun _ here _ => here) (fun _ _ _ none =>
      by cases none) pid request _ ended
  refine (answers_own_iff run ended carries).mpr fun c made carries' => ?_
  obtain ⟨asked, asks'⟩ := TxCall.carries_intent carries'
  rw [asks', ← agreeing_log run c made key asked carries' asks',
    planned key (Request.carries_iff.mp carries) intent asks]

section Decidable
variable {d : DB} {t : Transaction}

instance (response : Response) : Decidable (response.Shows t) := by
  unfold Response.Shows
  split <;> infer_instance

instance (userId : UserId) (id : WalletId) : Decidable (d.Owns userId id) :=
  decidable_of_iff ((d.wallets.get? id).any fun wallet => wallet.userId = userId) (by
    simp [DB.Owns, Option.any_eq_true])

instance (intent : Intent) : Decidable (intent.Met d t) :=
  decidable_of_iff (t.type = intent.type ∧ t.amount = intent.amount ∧ t.currency = intent.currency ∧
    t.initiator.any fun id => d.Owns intent.userId id) (by
    simp only [Option.any_eq_true, decide_eq_true_eq]
    exact ⟨fun ⟨type, amount, currency, initiator⟩ => ⟨type, amount, currency, initiator⟩,
      fun met => ⟨met.type, met.amount, met.currency, met.initiator⟩⟩)

instance (intent : Intent) (response : Response) : Decidable (AnswersOwn d intent response) :=
  inferInstanceAs (Decidable (∃ t ∈ d.transactions.rows, _))

end Decidable

/-- Five dollars for the user, under one key. -/
def Schedule.fiveFor (userId : UserId) : Request :=
  .deposit userId ⟨⟨50000, Amount.fiveDollars_pos⟩, .usd, "key", none⟩

def Schedule.five (userId : UserId) : Intent :=
  ⟨userId, .deposit, ⟨50000, Amount.fiveDollars_pos⟩, .usd⟩

/-- Alice repeats her deposit. -/
theorem answers_own_replayed : ∃ w, OwnAnswers w ∧ ∃ response,
    w.procs 2 = some (fiveFor "user-alice", .running (.pure response)) ∧
    (AnswersOwn w.shared.db (five "user-alice") response ↔
      ∀ c ∈ w.shared.log, c.carries "key" → c.intent = some (five "user-alice")) := by
  obtain ⟨stage, run, response, ended, _⟩ := Script.reaches
    (Script.history [registers "alice", (fiveFor "user-alice", initiates "deposit"),
      (fiveFor "user-alice", [.answer {}])]) (agreeing fun _ => five "user-alice")
    (fun stage => Answered stage 2 (fiveFor "user-alice") fun _ => True) (by decide +kernel)
  refine ⟨stage.world, (answers_own _).1 _ run, response, System.Stage.ended_ok ended, ?_⟩
  exact (answers_own _).2 (run.mono fun _ => trivial) 2 _ response "key"
    _ (System.Stage.ended_ok ended) rfl rfl

/-- Bob sends Alice's key, and is shown her deposit. -/
theorem answer_of_another_user : ¬ ∀ w, Reachable w → OwnAnswers w := by
  intro claim
  obtain ⟨stage, run, response, ended, foreign⟩ := Script.reaches
    (Script.history [registers "alice", registers "bob",
      (fiveFor "user-alice", initiates "deposit"), (fiveFor "user-bob", [.answer {}])]) anything
    (fun stage => Answered stage 3 (fiveFor "user-bob") fun response =>
      ¬ AnswersOwn stage.shared.db (five "user-bob") response) (by decide +kernel)
  exact foreign (claim _ run 3 _ _ response (System.Stage.ended_ok ended) rfl)

end PaymentWallet
