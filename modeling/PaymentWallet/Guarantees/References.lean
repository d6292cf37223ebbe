import PaymentWallet.Accounting.Delivery
import PaymentWallet.Accounting.Executions
import PaymentWallet.Guarantees.Draining
import PaymentWallet.Guarantees.Payments
import PaymentWallet.Service.Invariants

/-! Where the reference goes that a provider returns. Settling stamps it on the transaction;
marking an event delivered for a webhook does not. -/
namespace PaymentWallet
open Foundation PaymentProcessorService Schedule

/-- The transaction has the reference of a success that was returned for it. -/
def Transaction.Carries (t : Transaction) (calls : List ProviderCall) : Prop :=
  ∃ call ∈ calls, call.transactionId = t.id ∧ call.result.success ∧
    t.providerRef = call.result.providerRef

/-- A success that returns a reference is final, and the reference is not the empty text. -/
def Prompt (calls : List ProviderCall) : Prop :=
  ∀ call ∈ calls, call.result.success → ∀ r, call.result.providerRef = some r →
    call.result.requiresWebhook = false ∧ r ≠ ""

section Stamps
variable {c : TxCall} {d d' : DB} {t : Transaction}

/-- Only settling settles a deposit or a withdrawal. -/
theorem TxCall.Effect.settles (effect : c.Effect d d') (member : t ∈ d'.transactions.rows)
    (settled : t.status = .settled) (type : t.type ≠ .transfer) :
    t ∈ d.transactions.rows ∨ ∃ txCtx eventId result draw, c = .settle txCtx eventId result draw ∧
      txCtx.id = t.id := by
  have initiated : c.Initiated d d' → t ∈ d.transactions.rows := by
    rintro ⟨o, sender, receiver, entries, event, _, opened, _⟩
    rw [opened.transactions] at member
    rcases Table.mem_put.mp member with rfl | ⟨old, _⟩
    · simp [Opening.row, show o.type ≠ .transfer from type] at settled
    · exact old
  cases c with
  | deposit | withdraw | transfer | confirmDeposit | createPayout => exact .inl (initiated effect)
  | settle txCtx eventId result draw =>
    obtain ⟨old, new, entries, log, event, same, _, closed⟩ := effect
    rw [closed.transactions] at member
    rcases Table.mem_put.mp member with rfl | ⟨old, _⟩
    · exact .inr ⟨txCtx, eventId, result, draw, rfl, (closed.id.trans same).symm⟩
    · exact .inl old
  | fail =>
    obtain ⟨old, new, entries, log, event, _, failed, closed⟩ := effect
    rw [closed.transactions] at member
    rcases Table.mem_put.mp member with rfl | ⟨old, _⟩
    · simp [failed] at settled
    · exact .inl old
  | createUserWithWallet =>
    obtain ⟨user, wallet, registered⟩ := effect
    rw [registered.result] at member
    exact .inl member
  | markDelivered | incrementRetry =>
    obtain ⟨event, _, rfl⟩ := effect
    exact .inl member
  | closeAccount | updateStatusOrRole | setConnectAccountId | setPaypalEmail =>
    obtain ⟨old, tokens, _, rfl⟩ := effect
    exact .inl member

end Stamps

/-- An initiated transaction has no reference yet. -/
def Unreferenced (σ : SharedState) : Prop :=
  ∀ t ∈ σ.db.transactions.rows, t.status = .initiated → t.providerRef = none

/-- Where references come with final successes only, settled transactions carry one of them. -/
def Referenced (σ : SharedState) : Prop :=
  Prompt σ.ext.calls → ∀ t ∈ σ.db.transactions.rows, t.status = .settled → t.type ≠ .transfer →
    t.Carries σ.ext.calls

theorem Transaction.Carries.mono {t : Transaction} {calls calls' : List ProviderCall}
    (carries : t.Carries calls) (more : ∀ call ∈ calls, call ∈ calls') : t.Carries calls' := by
  obtain ⟨call, made, facts⟩ := carries
  exact ⟨call, more call made, facts⟩

theorem truthy_of_ne {value : Option String} (present : ∀ text, value = some text → text ≠ "") :
    truthy value = value := by
  cases value with
  | none => rfl
  | some text => simp [truthy, Option.filter, present text rfl]

section Commits
variable {σ : SharedState} {d' : DB}

theorem Unreferenced.commit {c : TxCall} (unstamped : Unreferenced σ) (effect : c.Effect σ.db d') :
    Unreferenced (σ.commit c d') := by
  intro t member initiated
  rcases effect.source member with ⟨old, before, same, _⟩ | ⟨o, sender, receiver, _, rfl⟩
  · have found : d'.transactions.get? old.id = some t := same ▸ Table.get?_of_mem member
    rcases effect.row (Table.get?_of_mem before) with kept | ⟨t', kept, _, closed⟩
    · obtain rfl := Option.some.inj (kept.symm.trans found)
      exact unstamped old before initiated
    · obtain rfl := Option.some.inj (kept.symm.trans found)
      rcases closed with settled | ⟨failed, _⟩
      · simp [settled] at initiated
      · simp [failed] at initiated
  · rfl

/-- Settling stamps the reference of the success that it cites. -/
theorem Referenced.settle {txCtx : TransactionContext} {eventId : EventId}
    {result : ProviderResult} {draw : Draw} (stamped : Referenced σ) (unstamped : Unreferenced σ)
    (cites : (TxCall.settle txCtx eventId result draw).Cites σ.ext.calls)
    (effect : (TxCall.settle txCtx eventId result draw).Effect σ.db d')
    (delivered : Delivered σ.db eventId draw.deliveredAt txCtx.id (settledPatch result draw) d') :
    Referenced (σ.commit (.settle txCtx eventId result draw) d') := by
  intro prompt t member settled type
  obtain ⟨open_, new, entries, log, event, same, _, closed⟩ := effect
  obtain ⟨old, found, written⟩ := delivered.transaction
  rw [show (σ.commit _ d').db = d' from rfl, written] at member
  rcases Table.mem_put.mp member with rfl | ⟨before, _⟩
  · obtain ⟨call, made, of, rfl, success⟩ := cites
    obtain rfl := Option.some.inj ((same ▸ closed.found).symm.trans found)
    have blank : open_.providerRef = none := unstamped open_ (Table.get?_mem found) closed.initiated
    refine ⟨call, made, of.trans same.symm, success, ?_⟩
    calc (truthy call.result.providerRef).or open_.providerRef =
      truthy call.result.providerRef := by rw [blank, Option.or_none]
      _ = call.result.providerRef :=
        truthy_of_ne fun text present => (prompt call made success text present).2
  · exact stamped prompt t before settled type

end Commits

theorem Reachable.stamps {w : State} (run : Reachable w) :
    Unreferenced w.shared ∧ Referenced w.shared := by
  have init : Unreferenced ⟨DB.empty, [], Ext.idle⟩ ∧ Referenced ⟨DB.empty, [], Ext.idle⟩ := by
    constructor
    · rintro t ⟨⟩
    · rintro _ t ⟨⟩
  refine invariant_of_reaches (F := fun σ => Unreferenced σ ∧ Referenced σ) init
    (fun ⟨unstamped, stamped⟩ more => ⟨unstamped, fun prompt t member settled type => ?_⟩)
    (@fun σ _ c ⟨unstamped, stamped⟩ _ _ ready cites => ?_) run
  · exact (stamped (fun call made => prompt call (more call made)) t member settled type).mono more
  · cases settles : c with
    | settle txCtx eventId result draw =>
      subst settles
      exact settle_delivered.mono fun _ d' delivered effect _ =>
        ⟨unstamped.commit effect, stamped.settle unstamped cites effect delivered⟩
    | _ =>
      subst settles
      refine Ensures.mono (Engine.wp_trivial _) fun _ d' _ effect _ =>
        ⟨unstamped.commit effect, fun prompt t member settled type => ?_⟩
      rcases effect.settles member settled type with before | ⟨_, _, _, _, same, _⟩
      · exact stamped prompt t before settled type
      · cases same

section Solo
variable {permit : Permit} {pid : Nat} {σ σ' : SharedState} {event : OutboxEvent}

/-- A draw changes nothing and does not fail. -/
theorem drawn_alone {rest : Draw → Svc Unit} {result : Except Exception Unit}
    (run : ((outside .draw).bind rest).Runs (system.Alone permit pid) σ result σ') :
    ∃ draw, (rest draw).Runs (system.Alone permit pid) σ result σ' := by
  rcases Program.runs_bind.mp run with ⟨draw, σ₁, read, rest⟩ | ⟨error, read, _⟩
  · obtain ⟨ext, ⟨rfl, _⟩, rfl⟩ := (Service.runs_outside.mp read).outside_inv
    exact ⟨draw, rest⟩
  · obtain ⟨ext, ⟨_, draw, drawn⟩, _⟩ := (Service.runs_outside.mp read).outside_inv
    cases drawn

theorem transact_alone {c : TxCall} {result : Except Exception c.Out}
    (run : (transact c).Runs (system.Alone permit pid) σ result σ') :
    σ'.ext = σ.ext := by
  rcases (Service.runs_transact.mp run).transact with ⟨_, db, _, rfl, _⟩ | ⟨rfl, _⟩ <;> rfl

/-- A success for which no webhook is awaited settles the transaction; one that awaits a webhook
leaves it. -/
theorem PaymentProcessorService.dispatch_alone {txCtx : TransactionContext}
    {result : ProviderResult}
    (run : (dispatch event txCtx result).Runs (system.Alone permit pid) σ (.ok ()) σ') :
    σ'.ext = σ.ext ∧ (result.success →
      if result.requiresWebhook then σ'.db.transactions = σ.db.transactions
      else ∃ draw, Delivered σ.db event.id draw.deliveredAt txCtx.id
        (settledPatch result draw) σ'.db) := by
  have fails (failing : (fail txCtx event.id result).Runs (system.Alone permit pid) σ (.ok ()) σ') :
      σ'.ext = σ.ext := by
    obtain ⟨draw, taken⟩ := drawn_alone failing
    exact transact_alone taken
  unfold dispatch at run
  split at run
  · rename_i accepted
    simp only [Bool.and_eq_true] at accepted
    obtain ⟨draw, taken⟩ := drawn_alone run
    refine ⟨transact_alone taken, fun _ => ?_⟩
    rw [if_pos accepted.1]
    have marks : Ensures σ.db (TxCall.markDelivered event.id draw.deliveredAt).code σ.db fun _ d' =>
        d'.transactions = σ.db.transactions := ensures_markDelivered.mpr fun _ _ => rfl
    rcases alone_transact (Service.runs_transact.mp taken) marks with ⟨_, db, same, rfl, _⟩ |
      ⟨_, _, failed, _⟩
    · exact same
    · cases failed
  split at run
  · rename_i refused
    simp only [Bool.and_eq_true, Bool.not_eq_true'] at refused
    exact ⟨fails run, by simp [refused.2]⟩
  split at run
  · rename_i others _ success
    obtain ⟨draw, taken⟩ := drawn_alone run
    refine ⟨transact_alone taken, fun _ => ?_⟩
    rw [if_neg fun webhook => others (by simp [webhook, success])]
    rcases alone_transact (Service.runs_transact.mp taken) settle_delivered with ⟨_, db, delivered,
      rfl, _⟩ | ⟨_, _, failed, _⟩
    · exact ⟨draw, delivered⟩
    · cases failed
  · rename_i failure
    exact ⟨fails run, fun success => absurd success failure⟩

/-- An attempt that makes a call goes on with its result. -/
theorem PaymentProcessorService.attempt_alone
    (run : (attempt event).Runs (system.Alone permit pid) σ (.ok ()) σ')
    (called : σ'.ext ≠ σ.ext) : ∃ txCtx call, txCtx.id = event.transactionId ∧
      (dispatch event txCtx call.result).Runs (system.Alone permit pid)
        { σ with ext := σ.ext.record call } (.ok ()) σ' := by
  unfold attempt at run
  split at run
  · exact absurd (transact_alone run) called
  rcases Program.runs_bind.mp run with ⟨selected, σ₁, read, rest⟩ | ⟨error, _, failed⟩
  · obtain ⟨ext, ⟨rfl, present | lost⟩, rfl⟩ := (Service.runs_outside.mp read).outside_inv
    · split at rest
      · exact absurd (transact_alone rest) called
      split at rest
      · exact absurd (transact_alone rest) called
      rename_i transaction _ provider provided
      have same : transaction.id = event.transactionId := by
        obtain ⟨row, found, rfl⟩ := Option.map_eq_some_iff.mp (Except.ok.inj present).symm
        have keyed : row.id = event.transactionId := Table.get?_key found
        exact keyed
      rcases Program.runs_bind.mp rest with ⟨adapter, σ₂, resolved, calls⟩ | ⟨error, _, failed⟩
      · obtain rfl := (Service.runs_resume.mp resolved).2
        rcases Program.runs_bind.mp calls with ⟨result, σ₃, processed, rest⟩ | ⟨error, _, failed⟩
        · obtain ⟨ext, answered, rfl⟩ := (Service.runs_outside.mp processed).outside_inv
          cases answered with
          | returned => exact ⟨_, ⟨_, _, _, _, result⟩, same, rest⟩
        · cases failed
      · cases failed
    · cases lost
  · cases failed

end Solo

/-- The event of a transaction is the one that was written with it. -/
theorem Reachable.eventOf {w : State} (run : Reachable w) {event : OutboxEvent}
    (member : event ∈ w.shared.db.outboxEvents.rows) :
    ∃ t, w.shared.db.transactions.get? event.transactionId = some t ∧
      event.eventType = t.type.event ∧
      (t.outcome ≠ [] → event.deliveredAt.isSome) := by
  obtain ⟨t, found⟩ := Option.isSome_iff_exists.mp (run.books.events_known event member)
  obtain ⟨only, single, type, delivers⟩ := (run.books.dossiers t (Table.get?_mem found)).event
  obtain rfl := DB.event_only single member (Table.get?_key found).symm
  exact ⟨t, found, type, delivers⟩

/-- A delivered transaction that did not fail carries a reference that was returned for it. -/
theorem Reachable.carries {w : State} (run : Reachable w) (prompt : Prompt w.shared.ext.calls)
    {event : OutboxEvent} (member : event ∈ w.shared.db.outboxEvents.rows)
    (initiates : event.eventType ≠ .transferSettled) (delivered : event.deliveredAt.isSome) :
    ∃ t, w.shared.db.transactions.get? event.transactionId = some t ∧
      (t.status ≠ .failed → t.Carries w.shared.ext.calls) := by
  obtain ⟨unstamped, stamped⟩ := run.stamps
  obtain ⟨t, found, type, _⟩ := run.eventOf member
  have here : t ∈ w.shared.db.transactions.rows := Table.get?_mem found
  refine ⟨t, found, fun unfailed => ?_⟩
  rcases (run.books.dossiers t here).staged.status with initiated | settled | failed
  · rcases run.sound.delivered event.id event (Table.get?_of_mem member) delivered with ⟨call, made,
      of, success, webhook⟩ | closed
    · refine ⟨call, made, of.trans (Table.get?_key found).symm, success, ?_⟩
      rw [unstamped t here initiated, eq_comm, Option.eq_none_iff_forall_ne_some]
      intro r returned
      rw [(prompt call made success r returned).1] at webhook
      cases webhook
    · obtain ⟨t', found', closed⟩ := closed
      obtain rfl := Option.some.inj (found'.symm.trans found)
      exact absurd initiated closed
  · refine stamped prompt t here settled fun transfer => initiates ?_
    rw [type, transfer]
    rfl
  · exact absurd failed unfailed

/-- The transaction of a pending event is open. -/
theorem Reachable.initiated {w : State} (run : Reachable w) {event : OutboxEvent}
    (pending : event ∈ w.shared.db.pending) :
    ∃ t, w.shared.db.transactions.get? event.transactionId = some t ∧ t.status = .initiated := by
  obtain ⟨member, selectable⟩ := List.mem_filter.mp pending
  simp only [OutboxEvent.selectable, Bool.and_eq_true, decide_eq_true_eq,
    Option.isNone_iff_eq_none] at selectable
  obtain ⟨t, found, type, delivers⟩ := run.eventOf member
  refine ⟨t, found, ?_⟩
  by_contra closed
  have direct : t.type ≠ .transfer := fun transfer => selectable.2 (by rw [type, transfer]; rfl)
  have outcome : t.outcome ≠ [] := by simp [Transaction.outcome, direct, closed]
  simpa [selectable.1.1] using delivers outcome

/-- A success reaches the transaction with its reference where it needs no webhook and the reference
is not empty. -/
theorem Reachable.kept {w : State} {pid : Nat} {σ' : SharedState} {event : OutboxEvent}
    {call : ProviderCall} {r : String} (run : Reachable w) (pending : event ∈ w.shared.db.pending)
    (ended : (attempt event).Runs (system.Alone anything pid) w.shared (.ok ()) σ')
    (made : σ'.ext.calls = w.shared.ext.calls ++ [call]) (success : call.result.success)
    (returned : call.result.providerRef = some r) :
    (∃ t, σ'.db.transactions.get? event.transactionId = some t ∧ t.providerRef = some r) ↔
      call.result.requiresWebhook = false ∧ r ≠ "" := by
  obtain ⟨t, found, initiated⟩ := run.initiated pending
  have blank : t.providerRef = none := run.stamps.1 t (Table.get?_mem found) initiated
  have called : σ'.ext ≠ w.shared.ext := by
    intro same
    rw [same] at made
    simpa using congrArg List.length made
  obtain ⟨txCtx, other, same, rest⟩ := attempt_alone ended called
  obtain ⟨ext, outcome⟩ := dispatch_alone rest
  obtain rfl : other = call := by
    rw [ext] at made
    simpa [Ext.record] using made
  have outcome := outcome success
  cases webhook : other.result.requiresWebhook with
  | true =>
    rw [webhook, if_pos rfl] at outcome
    change σ'.db.transactions = w.shared.db.transactions at outcome
    simp [outcome, found, blank]
  | false =>
    rw [webhook, if_neg Bool.false_ne_true] at outcome
    obtain ⟨draw, delivered⟩ := outcome
    obtain ⟨old, found', written⟩ := delivered.transaction
    obtain rfl := Option.some.inj ((same ▸ found').symm.trans found)
    have after : σ'.db.transactions.get? event.transactionId =
        some ((settledPatch other.result draw).apply old) := by
      rw [written]
      exact (Table.get?_put ..).trans (if_pos (Table.get?_key found).symm)
    have stamp : ((settledPatch other.result draw).apply old).providerRef = truthy (some r) := by
      simp [TransactionPatch.apply, settledPatch, blank, returned]
    simp [after, stamp, truthy, Option.filter]

/-- A success leaves its reference on the transaction of a pending event exactly where it needs no
webhook and the reference is not empty. Where all successes with a reference are such, the
delivered transactions carry theirs. -/
theorem reference_kept {w : State} (run : Reachable w) :
    (∀ pid, ∀ event ∈ w.shared.db.pending, ∀ σ' call r,
      (attempt event).Runs (system.Alone anything pid) w.shared (.ok ()) σ' →
      σ'.ext.calls = w.shared.ext.calls ++ [call] → call.result.success →
        call.result.providerRef = some r →
      ((∃ t, σ'.db.transactions.get? event.transactionId = some t ∧ t.providerRef = some r) ↔
        call.result.requiresWebhook = false ∧ r ≠ "")) ∧
    (Prompt w.shared.ext.calls → ∀ event ∈ w.shared.db.outboxEvents.rows,
      event.eventType ≠ .transferSettled →
      event.deliveredAt.isSome → ∃ t, w.shared.db.transactions.get? event.transactionId = some t ∧
        (t.status ≠ .failed → t.Carries w.shared.ext.calls)) :=
  ⟨fun _ _ pending _ _ _ ended made success returned =>
    run.kept pending ended made success returned,
    fun prompt _ member initiates delivered => run.carries prompt member initiates delivered⟩

instance (t : Transaction) (calls : List ProviderCall) : Decidable (t.Carries calls) :=
  inferInstanceAs (Decidable (∃ call ∈ calls, _))

/-- The deposit that PayPal charges carries the reference of the charge, right after the attempt
and in the end. -/
theorem reference_kept_charged :
    (∃ w σ', Reachable w ∧ ∃ event ∈ w.shared.db.pending,
      (attempt event).Runs (system.Alone anything 2) w.shared (.ok ()) σ' ∧
      ∃ t, σ'.db.transactions.get? event.transactionId = some t ∧
        t.providerRef = some "reference") ∧
    ∃ w, Reachable w ∧ ∃ event ∈ w.shared.db.outboxEvents.rows, event.deliveredAt.isSome ∧
      ∃ t, w.shared.db.transactions.get? event.transactionId = some t ∧
        (t.status ≠ .failed → t.Carries w.shared.ext.calls) := by
  constructor
  · obtain ⟨w, run, event, pending, ends⟩ := Schedule.reachable
      [registers "alice", deposits "alice"]
      (fun σ => ∃ event ∈ σ.db.pending, (system.playOut 2 Outside.answer
        [.answer {}, .answer { provider := .ok charged }, .answer {}, .commit]
        (attempt event) σ).any fun after =>
          ∃ call ∈ after.2.ext.calls.getLast?, call.result = charged ∧
          after.2.ext.calls = σ.ext.calls ++ [call]) (by decide +kernel)
    obtain ⟨⟨done, σ'⟩, played, last⟩ := (Option.any_eq_true ..).mp ends
    obtain ⟨call, _, answered, made⟩ := of_decide_eq_true last
    have attempts : (attempt event).Runs (system.Alone anything 2) w.shared (.ok ()) σ' :=
      System.playOut_runs Outside.answer_answers (fun _ _ => trivial) played
    refine ⟨w, σ', run, event, pending, attempts, ?_⟩
    refine ((reference_kept run).1 2 event pending σ' call "reference" attempts made ?_ ?_).mpr ?_
    all_goals
      rw [answered]
      decide
  · obtain ⟨w, run, prompt, event, member, initiates, delivered⟩ := Schedule.reachable settlesOnce
      (fun σ => (∀ call ∈ σ.ext.calls, call.result = charged) ∧
        ∃ event ∈ σ.db.outboxEvents.rows, event.eventType ≠ .transferSettled ∧
          event.deliveredAt.isSome) (by decide +kernel)
    refine ⟨w, run, event, member, delivered,
      (reference_kept run).2 (fun call made _ r returned => ?_) event member initiates delivered⟩
    rw [prompt call made] at returned ⊢
    exact ⟨rfl, fun empty => by simp [charged, empty] at returned⟩

/-- The batch that PayPal accepted is delivered, and its id is nowhere on the transaction. -/
theorem reference_dropped : ¬ ∀ w, Reachable w → ∀ event ∈ w.shared.db.outboxEvents.rows,
    event.eventType ≠ .transferSettled →
    event.deliveredAt.isSome →
      ∀ t, w.shared.db.transactions.get? event.transactionId = some t → t.status ≠ .failed →
      t.Carries w.shared.ext.calls := by
  intro claim
  obtain ⟨w, run, event, member, initiates, delivered, t, present, found, unfailed, dropped⟩ :=
    Schedule.reachable
    (settlesOnce ++ [links "alice", payouts "alice", polls (.ok accepted) [.answer {}, .commit]])
    (fun σ => ∃ event ∈ σ.db.outboxEvents.rows, event.eventType ≠ .transferSettled ∧
      event.deliveredAt.isSome ∧
      ∃ t ∈ σ.db.transactions.rows, σ.db.transactions.get? event.transactionId = some t ∧
        t.status ≠ .failed ∧
        ¬ t.Carries σ.ext.calls) (by decide +kernel)
  exact dropped (claim w run event member initiates delivered t found unfailed)

end PaymentWallet
