import PaymentWallet.Accounting.Delivery
import PaymentWallet.Accounting.Executions
import PaymentWallet.Foundation.Rounds
import PaymentWallet.Foundation.Runs
import PaymentWallet.Service.Processor
import PaymentWallet.Service.Schedules

/-! Batches of the outbox processor that no other poller disturbs. Before each of their
operations others may do anything to the store except to the events. The reads and the two
markings of events reach the database; provider calls, `settle` and `fail` end as they like. -/
namespace PaymentWallet
open Foundation

/-- A transaction commits with what it ensures, whether its caller hears of it or not, or does
nothing. -/
theorem alone_transact {permit : Permit} {pid : Nat} {c : TxCall} {σ σ' : SharedState}
    {reply : Except Exception c.Out}
    {Q : c.Out → DB → Prop} (taken : system.Alone permit pid (.transact c) σ reply σ')
    (ensures : Ensures σ.db c.code σ.db Q) :
    (∃ value db, Q value db ∧ σ' = σ.commit c db ∧
      (reply = .ok value ∨ reply = .error .connectionLost)) ∨
    σ' = σ ∧ ∃ error, reply = .error error ∧
      (error = .connectionLost ∨ postgres.run σ.db c.code σ.db = .error error) := by
  refine taken.transact.imp_left ?_
  rintro ⟨value, db, ran, moved, answer⟩
  exact ⟨value, db, ensures.run ran, moved, answer⟩

abbrev OutboxEvents := Table OutboxEvent EventId OutboxEvent.id

/-- The operations that the connection never fails. -/
def Steady : ServiceOp TxCall Outside → Prop
  | .outside (.findPendingProviderEvents ..) | .outside (.findTransactionById _) => True
  | .transact (.markDelivered ..) | .transact (.incrementRetry _) => True
  | _ => False

/-- One operation of a batch, after others have moved. -/
def Quiet (pid : Nat) (op : ServiceOp TxCall Outside) (σ : SharedState)
    (reply : Except Exception (op.Result TxCall.Out Outside.Reply)) (σ' : SharedState) : Prop :=
  ∃ σ₁ : SharedState, σ₁.db.outboxEvents = σ.db.outboxEvents ∧
    system.Alone anything pid op σ₁ reply σ' ∧
    (Steady op → reply ≠ .error .connectionLost)

/-- Every operation has an outcome. -/
theorem quiet_total (pid : Nat) (op : ServiceOp TxCall Outside) (σ : SharedState) :
    ∃ reply σ', Quiet pid op σ reply σ' := by
  cases op with
  | outside x =>
    refine ⟨(x.answer {} pid σ.db σ.ext).1, _, σ, rfl,
      .outside trivial (x.answer_answers {} pid σ.db σ.ext), ?_⟩
    cases x with
    | findPendingProviderEvents | findTransactionById => exact fun _ => nofun
    | _ => exact False.elim
  | transact c =>
    cases ran : postgres.run σ.db c.code σ.db with
    | ok outcome =>
      obtain ⟨value, db⟩ := outcome
      exact ⟨_, _, σ, rfl, .commit trivial ran, fun _ => nofun⟩
    | error error =>
      refine ⟨_, _, σ, rfl, .abort trivial (.inr ran), fun steady same => ?_⟩
      obtain rfl := Except.error.inj same
      cases c with
      | markDelivered id =>
        cases found : σ.db.outboxEvents.get? id <;> simp [TxCall.code,
          run_markDelivered, found] at ran
      | incrementRetry id =>
        cases found : σ.db.outboxEvents.get? id <;> simp [TxCall.code,
          run_incrementRetry, found] at ran
      | _ => exact steady

/-- What an attempt leaves of an event. Both happen when the reply to a settlement is lost. -/
inductive Advanced (event : OutboxEvent) : OutboxEvent → Prop where
  | delivered (now : DateTime) : Advanced event { event with deliveredAt := some now }
  | retried : Advanced event { event with retryCount := event.retryCount + 1 }
  | both (now : DateTime) :
      Advanced event { event with deliveredAt := some now, retryCount := event.retryCount + 1 }

theorem Advanced.id {event event' : OutboxEvent} (advanced : Advanced event event') :
    event'.id = event.id := by
  cases advanced <;> rfl

/-- The event is marked delivered, or nothing happened to the events. -/
def Marked (event : OutboxEvent) (events events' : OutboxEvents) : Prop :=
  events' = events ∨ ∃ now, events' = events.put { event with deliveredAt := some now }

/-- What the `try` block leaves: an advanced event, or an exception that may come too late. -/
def Attempted (event : OutboxEvent) (events : OutboxEvents) :
    Except Exception Unit → OutboxEvents → Prop
  | .ok _, events' => ∃ event', Advanced event event' ∧ events' = events.put event'
  | .error _, events' => Marked event events events'

/-- A page depends on the events alone. -/
theorem PendingEvents.congr {d d' : DB} {page : List OutboxEvent}
    (pending : PendingEvents d limit maxRetries page)
    (same : d.outboxEvents = d'.outboxEvents) : PendingEvents d' limit maxRetries page := by
  unfold PendingEvents at pending ⊢
  exact same ▸ pending

section Steps
variable {pid : Nat} {σ σ' : SharedState} {event : OutboxEvent}

theorem Quiet.outside {x : Outside} {reply : Except Exception x.Reply}
    (taken : Quiet pid (.outside x) σ reply σ') :
    σ'.db.outboxEvents = σ.db.outboxEvents := by
  obtain ⟨σ₁, same, taken, _⟩ := taken
  obtain ⟨ext, _, rfl⟩ := taken.outside_inv
  exact same

theorem Quiet.page {page : List OutboxEvent}
    (taken : Quiet pid (.outside (.findPendingProviderEvents limit maxRetries)) σ (.ok page) σ') :
    PendingEvents σ.db limit maxRetries page := by
  obtain ⟨σ₁, same, taken, _⟩ := taken
  obtain ⟨ext, ⟨_, events, pending, answered | lost⟩, _⟩ := taken.outside_inv
  · cases answered
    exact pending.congr same
  · cases lost

theorem Quiet.markDelivered {now : DateTime} {reply : Except Exception Unit}
    (taken : Quiet pid (.transact (.markDelivered event.id now)) σ reply σ')
    (found : σ.db.outboxEvents.get? event.id = some event) :
    Attempted event σ.db.outboxEvents reply σ'.db.outboxEvents := by
  obtain ⟨σ₁, same, taken, steady⟩ := taken
  rw [← same] at found ⊢
  rcases taken.transact with ⟨_, db, ran, rfl, rfl | rfl⟩ | ⟨rfl, error, rfl, rfl | failed⟩
  · simp only [system, TxCall.code, run_markDelivered, found, Option.elim, Except.ok.injEq,
      Prod.mk.injEq] at ran
    exact ⟨_, .delivered now, ran.2 ▸ rfl⟩
  · exact absurd rfl (steady trivial)
  · exact absurd rfl (steady trivial)
  · simp [system, TxCall.code, run_markDelivered, found] at failed

theorem Quiet.incrementRetry {row : OutboxEvent} {id : EventId} {reply : Except Exception Unit}
    (taken : Quiet pid (.transact (.incrementRetry id)) σ reply σ')
    (found : σ.db.outboxEvents.get? id = some row) :
    reply = .ok () ∧ σ'.db.outboxEvents = σ.db.outboxEvents.put
      { row with retryCount := row.retryCount + 1 } := by
  obtain ⟨σ₁, same, taken, steady⟩ := taken
  rw [← same] at found ⊢
  rcases taken.transact with ⟨_, db, ran, rfl, rfl | rfl⟩ | ⟨rfl, error, rfl, rfl | failed⟩
  · simp only [system, TxCall.code, run_incrementRetry, found, Option.elim, Except.ok.injEq,
      Prod.mk.injEq] at ran
    exact ⟨rfl, ran.2 ▸ rfl⟩
  · exact absurd rfl (steady trivial)
  · exact absurd rfl (steady trivial)
  · simp [system, TxCall.code, run_incrementRetry, found] at failed

/-- Settling and failing deliver the event, or change nothing. -/
theorem Quiet.closes {c : TxCall} {now : DateTime} {id : TransactionId} {patch : TransactionPatch}
    {reply : Except Exception c.Out} (taken : Quiet pid (.transact c) σ reply σ')
    (found : σ.db.outboxEvents.get? event.id = some event)
    (ensures : ∀ d, Ensures d c.code d fun _ d' => Delivered d event.id now id patch d') :
    Attempted event σ.db.outboxEvents (reply.map fun _ => ()) σ'.db.outboxEvents := by
  obtain ⟨σ₁, same, taken, _⟩ := taken
  rw [← same] at found ⊢
  rcases alone_transact taken (ensures _) with ⟨value, db, delivered, rfl, answer⟩ |
    ⟨rfl, error, rfl, _⟩
  · obtain ⟨other, found', written⟩ := delivered.event
    obtain rfl := Option.some.inj (found.symm.trans found')
    rcases answer with rfl | rfl
    · exact ⟨_, .delivered now, written⟩
    · exact .inr ⟨now, written⟩
  · exact .inl rfl

end Steps

section Pages
variable {d : DB} {limit maxRetries : Nat} {page : List OutboxEvent}

theorem PendingEvents.found {event : OutboxEvent} (pending : PendingEvents d limit maxRetries page)
    (member : event ∈ page) :
    d.outboxEvents.get? event.id = some event :=
  Table.get?_of_mem (pending.row member).1

theorem PendingEvents.once (pending : PendingEvents d limit maxRetries page) :
    (page.map (·.id)).Nodup := by
  obtain ⟨ordered, perm, _, rfl⟩ := pending
  have rows := d.outboxEvents.keys_nodup.sublist
    ((List.filter_sublist (p := (·.selectable maxRetries))).map OutboxEvent.id)
  exact ((perm.map _).nodup_iff.mpr rows).sublist ((List.take_sublist _ _).map _)

theorem PendingEvents.ne_nil {event : OutboxEvent}
    (pending : PendingEvents d (limit + 1) maxRetries page)
    (member : event ∈ d.outboxEvents.rows) (selectable : event.selectable maxRetries) :
    page ≠ [] := by
  obtain ⟨ordered, perm, _, rfl⟩ := pending
  have listed : event ∈ ordered := perm.mem_iff.mpr (List.mem_filter.mpr ⟨member, selectable⟩)
  cases ordered with
  | nil => cases listed
  | cons => simp

end Pages

namespace PaymentProcessorService

/-- The events are attempted one after the other, each to its end. -/
inductive Processed (pid : Nat) : List OutboxEvent → SharedState → SharedState → Prop where
  | nil : Processed pid [] σ σ
  | cons : (processEvent event).Runs (Quiet pid) σ (.ok ()) σ₁ → Processed pid events σ₁ σ' →
      Processed pid (event :: events) σ σ'

/-- Each event of a page advances, and no other event changes. -/
structure Advances (page : List OutboxEvent) (events events' : OutboxEvents) : Prop where
  each : ∀ event ∈ page, ∃ event', events'.get? event.id = some event' ∧ Advanced event event'
  others : ∀ id, (∀ event ∈ page, event.id ≠ id) → events'.get? id = events.get? id

/-- A batch that fetched the page. -/
def Batch (pid : Nat) (σ : SharedState) (page : List OutboxEvent) (σ' : SharedState) : Prop :=
  ∃ σ₁, Quiet pid (.outside (.findPendingProviderEvents 100 5)) σ (.ok page) σ₁ ∧
    (processEvents page).Runs (Quiet pid) σ₁ (.ok ()) σ'

section
variable {pid : Nat} {σ σ' : SharedState} {event : OutboxEvent} {result : Except Exception Unit}

theorem retry_runs (run :
    (transact (.incrementRetry event.id) : Svc Unit).Runs (Quiet pid) σ result σ')
    (found : σ.db.outboxEvents.get? event.id = some event) :
    Attempted event σ.db.outboxEvents result σ'.db.outboxEvents := by
  obtain ⟨rfl, written⟩ := (Service.runs_transact.mp run).incrementRetry found
  exact ⟨_, .retried, written⟩

theorem markDelivered_runs (run : (markDelivered event.id).Runs (Quiet pid) σ result σ')
    (found : σ.db.outboxEvents.get? event.id = some event) :
    Attempted event σ.db.outboxEvents result σ'.db.outboxEvents := by
  simp only [markDelivered, Program.bind_def, Program.runs_bind, outside, transact,
    Service.runs_outside, Service.runs_transact] at run
  rcases run with ⟨draw, σ₁, drawn, taken⟩ | ⟨error, drawn, rfl⟩
  · rw [← drawn.outside] at found ⊢
    exact taken.markDelivered found
  · exact .inl drawn.outside

theorem settle_runs {txCtx : TransactionContext} {outcome : ProviderResult}
    (run : (settle txCtx event.id outcome).Runs (Quiet pid) σ result σ')
    (found : σ.db.outboxEvents.get? event.id = some event) :
    Attempted event σ.db.outboxEvents result σ'.db.outboxEvents := by
  simp only [settle, Program.bind_def, Program.runs_bind, outside, transact, Service.runs_outside,
    Service.runs_transact] at run
  rcases run with ⟨draw, σ₁, drawn, taken⟩ | ⟨error, drawn, rfl⟩
  · rw [← drawn.outside] at found ⊢
    have closes := taken.closes found fun _ => settle_delivered
    cases result <;> exact closes
  · exact .inl drawn.outside

theorem fail_runs {txCtx : TransactionContext} {outcome : ProviderResult}
    (run : (fail txCtx event.id outcome).Runs (Quiet pid) σ result σ')
    (found : σ.db.outboxEvents.get? event.id = some event) :
    Attempted event σ.db.outboxEvents result σ'.db.outboxEvents := by
  simp only [fail, Program.bind_def, Program.runs_bind, outside, transact, Service.runs_outside,
    Service.runs_transact] at run
  rcases run with ⟨draw, σ₁, drawn, taken⟩ | ⟨error, drawn, rfl⟩
  · rw [← drawn.outside] at found ⊢
    have closes := taken.closes found fun _ => fail_delivered
    cases result <;> exact closes
  · exact .inl drawn.outside

theorem dispatch_runs {txCtx : TransactionContext} {outcome : ProviderResult}
    (run : (dispatch event txCtx outcome).Runs (Quiet pid) σ result σ')
    (found : σ.db.outboxEvents.get? event.id = some event) :
    Attempted event σ.db.outboxEvents result σ'.db.outboxEvents := by
  unfold dispatch at run
  split at run
  · exact markDelivered_runs run found
  split at run
  · exact fail_runs run found
  split at run
  · exact settle_runs run found
  · exact fail_runs run found

/-- The early returns mark a retry; an exception leaves the event, unless it comes after its
delivery. -/
theorem attempt_runs (run : (attempt event).Runs (Quiet pid) σ result σ')
    (found : σ.db.outboxEvents.get? event.id = some event) :
    Attempted event σ.db.outboxEvents result σ'.db.outboxEvents := by
  unfold attempt at run
  split at run
  · exact retry_runs run found
  rcases Program.runs_bind.mp run with ⟨selected, σ₁, read, rest⟩ | ⟨error, read, rfl⟩
  · rw [← (Service.runs_outside.mp read).outside] at found ⊢
    split at rest
    · exact retry_runs rest found
    split at rest
    · exact retry_runs rest found
    rcases Program.runs_bind.mp rest with ⟨adapter, σ₂, resolved, calls⟩ | ⟨error, resolved, rfl⟩
    · obtain rfl := (Service.runs_resume.mp resolved).2
      rcases Program.runs_bind.mp calls with ⟨outcome, σ₃, processed, rest⟩ |
        ⟨error, processed, rfl⟩
      · rw [← (Service.runs_outside.mp processed).outside] at found ⊢
        exact dispatch_runs rest found
      · exact .inl (Service.runs_outside.mp processed).outside
    · obtain rfl := (Service.runs_resume.mp resolved).2
      exact .inl rfl
  · exact .inl (Service.runs_outside.mp read).outside

/-- Whatever goes wrong, the event advances and the batch goes on. -/
theorem processEvent_runs (run : (processEvent event).Runs (Quiet pid) σ result σ')
    (found : σ.db.outboxEvents.get? event.id = some event) :
    result = .ok () ∧ ∃ event', Advanced event event' ∧
      σ'.db.outboxEvents = σ.db.outboxEvents.put event' := by
  rcases Program.runs_handle.mp run with ⟨_, tried, rfl⟩ | ⟨error, σ₁, tried, caught⟩
  · exact ⟨rfl, attempt_runs tried found⟩
  · have retry := Service.runs_transact.mp caught
    rcases attempt_runs tried found with same | ⟨now, delivered⟩
    · rw [← same] at found ⊢
      obtain ⟨rfl, written⟩ := retry.incrementRetry found
      exact ⟨rfl, _, .retried, written⟩
    · have found' : σ₁.db.outboxEvents.get? event.id =
          some { event with deliveredAt := some now } := by
        rw [delivered, Table.get?_put, if_pos rfl]
      obtain ⟨rfl, written⟩ := retry.incrementRetry found'
      exact ⟨rfl, _, .both now, by rw [written, delivered, Table.put_put (by rfl)]⟩

theorem processEvents_runs {page : List OutboxEvent}
    (run : (processEvents page).Runs (Quiet pid) σ result σ')
    (rows : ∀ event ∈ page, σ.db.outboxEvents.get? event.id = some event)
    (once : (page.map (·.id)).Nodup) :
    result = .ok () ∧ Processed pid page σ σ' ∧
      Advances page σ.db.outboxEvents σ'.db.outboxEvents := by
  induction page generalizing σ with
  | nil =>
    obtain ⟨rfl, rfl⟩ := Program.runs_pure.mp run
    exact ⟨rfl, .nil, nofun, fun _ _ => rfl⟩
  | cons event page ih =>
    have here := rows event List.mem_cons_self
    obtain ⟨apart, once⟩ := List.nodup_cons.mp once
    rcases Program.runs_bind.mp run with ⟨_, σ₁, first, rest⟩ | ⟨error, first, failed⟩
    · obtain ⟨_, event', advanced, written⟩ := processEvent_runs first here
      have elsewhere : ∀ id ≠ event.id, σ₁.db.outboxEvents.get? id = σ.db.outboxEvents.get? id := by
        intro id different
        rw [written, Table.get?_put, if_neg (advanced.id ▸ different)]
      have others : ∀ other ∈ page, other.id ≠ event.id := fun other member same =>
        apart (List.mem_map.mpr ⟨other, member, same⟩)
      obtain ⟨rfl, processed, advances⟩ := ih rest
        (fun other member => (elsewhere _ (others other member)).trans
          (rows other (List.mem_cons_of_mem _ member))) once
      refine ⟨rfl, .cons first processed,
        List.forall_mem_cons.mpr ⟨⟨event', ?_, advanced⟩, advances.each⟩, fun id outside => ?_⟩
      · rw [advances.others event.id others, written, Table.get?_put, if_pos advanced.id.symm]
      · obtain ⟨different, outside⟩ := List.forall_mem_cons.mp outside
        rw [advances.others id outside, elsewhere id (Ne.symm different)]
    · exact absurd (processEvent_runs first here).1 nofun

theorem processBatch_runs : processBatch.Runs (Quiet pid) σ result σ' ↔ result = .ok () ∧
    ∃ page, Batch pid σ page σ' := by
  constructor
  · intro run
    rcases Program.runs_bind.mp run with ⟨page, σ₁, read, rest⟩ | ⟨error, read, _⟩
    · have taken := Service.runs_outside.mp read
      obtain ⟨rfl, _⟩ := processEvents_runs rest (fun event member =>
        taken.outside ▸ taken.page.found member) taken.page.once
      exact ⟨rfl, page, σ₁, taken, rest⟩
    · obtain ⟨σ₀, _, taken, steady⟩ := Service.runs_outside.mp read
      obtain ⟨_, ⟨_, _, _, answered | lost⟩, _⟩ := taken.outside_inv
      · cases answered
      · exact absurd lost (steady trivial)
  · rintro ⟨rfl, page, σ₁, taken, rest⟩
    exact Program.runs_bind.mpr (.inl ⟨page, σ₁, Service.runs_outside.mpr taken, rest⟩)

/-- A batch attempts each event of a page that is pending. -/
theorem Batch.attempts {page : List OutboxEvent} (batch : Batch pid σ page σ') :
    PendingEvents σ.db 100 5 page ∧ Advances page σ.db.outboxEvents σ'.db.outboxEvents ∧
      ∃ σ₁, σ₁.db.outboxEvents = σ.db.outboxEvents ∧ Processed pid page σ₁ σ' := by
  obtain ⟨σ₁, taken, rest⟩ := batch
  have same := taken.outside
  obtain ⟨_, processed, advances⟩ :=
    processEvents_runs rest (fun event member => same ▸ taken.page.found member) taken.page.once
  exact ⟨taken.page, same ▸ advances, σ₁, same, processed⟩

/-- A batch always ends. -/
theorem batch_ends (pid : Nat) (σ : SharedState) : ∃ page σ', Batch pid σ page σ' := by
  obtain ⟨result, σ', run⟩ := Program.runs_exist (quiet_total pid) processBatch σ
  obtain ⟨_, page, batch⟩ := processBatch_runs.mp run
  exact ⟨page, σ', batch⟩

end
end PaymentProcessorService
end PaymentWallet
