import PaymentWallet.Service.Batches

/-! The outbox drains. What an event has left of its attempts is a budget, and every batch
is a round that spends it. -/
namespace PaymentWallet
open Foundation PaymentProcessorService

def DB.pending (d : DB) : List OutboxEvent := d.outboxEvents.rows.filter (·.selectable 5)

/-- The attempts that an event has left. -/
def OutboxEvent.remaining (event : OutboxEvent) : Nat :=
  if event.selectable 5 then 5 - event.retryCount else 0

def remaining (events : OutboxEvents) (id : EventId) : Nat :=
  (events.get? id).elim 0 OutboxEvent.remaining

theorem OutboxEvent.remaining_pos {event : OutboxEvent} :
    0 < event.remaining ↔ event.selectable 5 := by
  unfold OutboxEvent.remaining
  split
  · rename_i selectable
    have retries : event.retryCount < 5 := by
      simp only [OutboxEvent.selectable, Bool.and_eq_true, decide_eq_true_eq] at selectable
      exact selectable.1.2
    exact ⟨fun _ => selectable, fun _ => Nat.sub_pos_of_lt retries⟩
  · simp_all

theorem remaining_pos {events : OutboxEvents} {id : EventId} :
    0 < remaining events id ↔ ∃ event ∈ events.rows, event.id = id ∧ event.selectable 5 := by
  constructor
  · intro left
    cases found : events.get? id with
    | none => simp [remaining, found] at left
    | some event =>
      simp only [remaining, found, Option.elim] at left
      exact ⟨event, Table.get?_mem found, Table.get?_key found, OutboxEvent.remaining_pos.mp left⟩
  · rintro ⟨event, member, rfl, selectable⟩
    simp only [remaining, Table.get?_of_mem member, Option.elim]
    exact OutboxEvent.remaining_pos.mpr selectable

theorem remaining_le (events : OutboxEvents) (id : EventId) : remaining events id ≤ 5 := by
  unfold remaining
  cases events.get? id with
  | none => exact Nat.zero_le 5
  | some event =>
    simp only [Option.elim, OutboxEvent.remaining]
    split
    · exact Nat.sub_le 5 _
    · exact Nat.zero_le 5

/-- An attempt costs an event at least one of those it has left. -/
theorem Advanced.remaining {event event' : OutboxEvent} (advanced : Advanced event event')
    (selectable : event.selectable 5) :
    event'.remaining < event.remaining := by
  have before : event.remaining = 5 - event.retryCount := if_pos selectable
  have left := OutboxEvent.remaining_pos.mpr selectable
  cases advanced with
  | delivered now => simpa [OutboxEvent.remaining, OutboxEvent.selectable] using left
  | retried =>
    rw [before] at left ⊢
    unfold OutboxEvent.remaining
    split
    · dsimp only
      omega
    · exact left
  | both now => simpa [OutboxEvent.remaining, OutboxEvent.selectable] using left

/-- A batch is a round. -/
theorem PaymentProcessorService.Batch.round {pid : Nat} {σ σ' : SharedState}
    {page : List OutboxEvent} (batch : Batch pid σ page σ') :
    Round (remaining σ.db.outboxEvents) (remaining σ'.db.outboxEvents) (page.map (·.id)) := by
  obtain ⟨pending, advances, _⟩ := batch.attempts
  refine ⟨pending.once, List.forall_mem_map.mpr fun event member => ?_,
    fun id outside => ?_, fun id left => ?_⟩
  · obtain ⟨event', found', advanced⟩ := advances.each event member
    simp only [remaining, pending.found member, found', Option.elim]
    exact advanced.remaining (pending.row member).2
  · unfold remaining
    rw [advances.others id fun event member same =>
      outside (List.mem_map.mpr ⟨event, member, same⟩)]
  · obtain ⟨event, member, _, selectable⟩ := remaining_pos.mp left
    simpa using pending.ne_nil member selectable

/-- Batches one after the other, with the pages that they fetch. -/
inductive Drains (pid : Nat) : SharedState → List (List OutboxEvent) → SharedState → Prop where
  | nil : Drains pid σ [] σ
  | cons : Batch pid σ page σ₁ → Drains pid σ₁ pages σ' → Drains pid σ (page :: pages) σ'

section
variable {pid : Nat} {σ σ' : SharedState} {page : List OutboxEvent}
  {pages : List (List OutboxEvent)}

theorem Drains.rounds (run : Drains pid σ pages σ') :
    Rounds (remaining σ.db.outboxEvents) (pages.map (·.map (·.id)))
      (remaining σ'.db.outboxEvents) := by
  induction run with
  | nil => exact .nil
  | cons batch _ ih => exact .cons batch.round ih

theorem PaymentProcessorService.Batch.keeps (batch : Batch pid σ page σ') :
    Table.Keeps OutboxEvent.eventType σ.db.outboxEvents σ'.db.outboxEvents := by
  obtain ⟨pending, advances, _⟩ := batch.attempts
  intro id event found
  by_cases attempted : ∃ other ∈ page, other.id = id
  · obtain ⟨other, member, rfl⟩ := attempted
    obtain ⟨event', found', advanced⟩ := advances.each other member
    obtain rfl := Option.some.inj ((pending.found member).symm.trans found)
    exact ⟨event', found', by cases advanced <;> rfl⟩
  · push Not at attempted
    exact ⟨event, (advances.others id attempted).trans found, rfl⟩

theorem Drains.keeps (run : Drains pid σ pages σ') :
    Table.Keeps OutboxEvent.eventType σ.db.outboxEvents σ'.db.outboxEvents := by
  induction run with
  | nil => exact .refl
  | cons batch _ ih => exact batch.keeps.trans ih

/-- Batches can go on forever. -/
theorem drains_exist (pid : Nat) (σ : SharedState) (n : Nat) :
    ∃ pages σ', Drains pid σ pages σ' ∧ pages.length = n := by
  induction n generalizing σ with
  | zero => exact ⟨[], σ, .nil, rfl⟩
  | succ n ih =>
    obtain ⟨page, σ₁, batch⟩ := batch_ends pid σ
    obtain ⟨pages, σ', rest, length⟩ := ih σ₁
    exact ⟨page :: pages, σ', .cons batch rest, by rw [List.length_cons, length]⟩

theorem remaining_sum (d : DB) :
    ∑ id ∈ (d.pending.map (·.id)).toFinset, remaining d.outboxEvents id ≤ 5 * d.pending.length := by
  calc ∑ id ∈ (d.pending.map (·.id)).toFinset, remaining d.outboxEvents id
      ≤ (d.pending.map (·.id)).toFinset.card • 5 :=
        Finset.sum_le_card_nsmul _ _ 5 fun id _ => remaining_le _ id
    _ ≤ d.pending.length * 5 :=
      Nat.mul_le_mul_right 5 ((List.toFinset_card_le _).trans (List.length_map ..).le)
    _ = 5 * d.pending.length := Nat.mul_comm ..

/-- After five batches for each pending event none is pending. -/
theorem Drains.drained (run : Drains pid σ pages σ')
    (enough : 5 * σ.db.pending.length ≤ pages.length) : σ'.db.pending = [] := by
  have support : ∀ id, 0 < remaining σ.db.outboxEvents id →
      id ∈ (σ.db.pending.map (·.id)).toFinset := by
    intro id left
    obtain ⟨event, member, rfl, selectable⟩ := remaining_pos.mp left
    exact List.mem_toFinset.mpr
      (List.mem_map.mpr ⟨event, List.mem_filter.mpr ⟨member, selectable⟩, rfl⟩)
  have drained := run.rounds.drained support ((remaining_sum σ.db).trans (by simpa using enough))
  refine List.filter_eq_nil_iff.mpr fun event member selectable => ?_
  have left := remaining_pos.mpr ⟨event, member, rfl, selectable⟩
  exact left.ne' (drained event.id)

/-- Every pending event was then delivered or has used all its attempts. -/
theorem Drains.finished (run : Drains pid σ pages σ') (drained : σ'.db.pending = [])
    {event : OutboxEvent} (pending : event ∈ σ.db.pending) :
    ∃ event', σ'.db.outboxEvents.get? event.id = some event' ∧
      (event'.deliveredAt.isSome ∨ 5 ≤ event'.retryCount) := by
  obtain ⟨member, selectable⟩ := List.mem_filter.mp pending
  obtain ⟨event', found', type⟩ := run.keeps _ _ (Table.get?_of_mem member)
  have stays := List.filter_eq_nil_iff.mp drained event' (Table.get?_mem found')
  simp only [OutboxEvent.selectable, Bool.and_eq_true, decide_eq_true_eq,
    Option.isNone_iff_eq_none] at selectable stays
  refine ⟨event', found', ?_⟩
  by_contra left
  push Not at left
  exact stays ⟨⟨by simpa using left.1, left.2⟩, type ▸ selectable.2⟩

end

/-- Every batch ends, attempts the whole page that it fetches and advances each of its events.
No event is attempted more than five times, and five batches for each pending event leave none. -/
theorem outbox_drains {pid : Nat} {σ σ' : SharedState} {pages : List (List OutboxEvent)}
    (run : Drains pid σ pages σ') :
    (∀ σ₁, (∃ result σ₂, processBatch.Runs (Quiet pid) σ₁ result σ₂) ∧
      ∀ result σ₂, processBatch.Runs (Quiet pid) σ₁ result σ₂ ↔ result = .ok () ∧
        ∃ page, Batch pid σ₁ page σ₂) ∧
    (∀ σ₁ page σ₂, Batch pid σ₁ page σ₂ → PendingEvents σ₁.db 100 5 page ∧
      (σ₁.db.pending ≠ [] → page ≠ []) ∧
      (∃ σ₀, σ₀.db.outboxEvents = σ₁.db.outboxEvents ∧ Processed pid page σ₀ σ₂) ∧
      ∀ event ∈ page, ∃ event', σ₂.db.outboxEvents.get? event.id = some event' ∧
        (event'.deliveredAt.isSome ∨ event'.retryCount = event.retryCount + 1)) ∧
    (∀ id, (pages.flatten.map (·.id)).count id ≤ 5) ∧
    (5 * σ.db.pending.length ≤ pages.length → σ'.db.pending = [] ∧ ∀ event ∈ σ.db.pending,
      ∃ event', σ'.db.outboxEvents.get? event.id = some event' ∧
        (event'.deliveredAt.isSome ∨ 5 ≤ event'.retryCount)) := by
  refine ⟨fun σ₁ => ⟨?_, fun _ _ => processBatch_runs⟩, fun σ₁ page σ₂ batch => ?_,
    fun id => ?_, fun enough => ?_⟩
  · obtain ⟨page, σ₂, batch⟩ := batch_ends pid σ₁
    exact ⟨_, σ₂, processBatch_runs.mpr ⟨rfl, page, batch⟩⟩
  · obtain ⟨pending, advances, attempted⟩ := batch.attempts
    refine ⟨pending, fun some => ?_, attempted, fun event member => ?_⟩
    · obtain ⟨event, member⟩ := List.exists_mem_of_ne_nil _ some
      exact pending.ne_nil (List.mem_filter.mp member).1 (List.mem_filter.mp member).2
    · obtain ⟨event', found', advanced⟩ := advances.each event member
      refine ⟨event', found', ?_⟩
      cases advanced with
      | delivered | both => exact .inl rfl
      | retried => exact .inr rfl
  · have counted := run.rounds.count id
    rw [← List.map_flatten] at counted
    exact (Nat.le_of_add_right_le counted).trans (remaining_le _ id)
  · exact ⟨run.drained enough, fun event pending => run.finished (run.drained enough) pending⟩

/-- Five batches after Alice's deposit, whatever the provider says. -/
theorem outbox_drains_deposited :
    ∃ σ pages σ', Drains 0 σ pages σ' ∧ σ.db.pending.length = 1 ∧ pages.length = 5 ∧
    σ'.db.pending = [] := by
  obtain ⟨w, _, pending⟩ :=
    Schedule.reachable [Schedule.registers "alice", Schedule.deposits "alice"]
    (fun σ => σ.db.pending.length = 1) (by decide +kernel)
  obtain ⟨pages, σ', run, length⟩ := drains_exist 0 w.shared 5
  have drained := (outbox_drains run).2.2.2 (by rw [pending, length])
  exact ⟨w.shared, pages, σ', run, pending, length, drained.1⟩

end PaymentWallet
