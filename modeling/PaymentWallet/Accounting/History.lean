import PaymentWallet.Accounting.Bookkeeping

/-! The tables remember the history of commits: each row with an idempotency key,
each payment log and each retry of an event stands for one committed transaction. -/
namespace PaymentWallet
open Foundation

namespace TxCall

/-- The transaction initiates under this idempotency key. -/
def carries (key : String) (c : TxCall) : Bool := c.opening.any (·.idempotencyKey = key)

/-- The transaction settles or fails this one. -/
def closes (id : TransactionId) : TxCall → Bool
  | .settle txCtx .. | .fail txCtx .. => txCtx.id = id
  | _ => false

def fails (id : TransactionId) : TxCall → Bool
  | .fail txCtx .. => txCtx.id = id
  | _ => false

def retries (id : EventId) : TxCall → Bool
  | .incrementRetry other => other = id
  | _ => false

end TxCall

def DB.keyed (d : DB) (key : String) : List Transaction :=
  d.transactions.rows.filter (·.idempotencyKey = key)

/-- Zero for an event that does not exist. -/
def DB.retryCount (d : DB) (id : EventId) : Nat :=
  ((d.outboxEvents.get? id).map (·.retryCount)).getD 0

/-- An event of the transaction is marked as delivered. -/
def DB.delivered (d : DB) (id : TransactionId) : Prop :=
  ∃ event ∈ d.outboxEvents.rows, event.transactionId = id ∧ event.deliveredAt.isSome

section
variable {d d' : DB} {c : TxCall} {t t' : Transaction}
  {entries : List LedgerEntry} {log : PaymentLog} {event : OutboxEvent}

theorem Opened.keyed (opened : Opened d t entries event d') (key : String) :
    (d'.keyed key).length = (d.keyed key).length + if t.idempotencyKey = key then 1 else 0 := by
  simp only [DB.keyed, opened.transactions,
    Table.filter_put_fresh _ opened.fresh, List.length_append]
  by_cases same : t.idempotencyKey = key <;> simp [same]

/-- The key of a new transaction was free. -/
theorem Opened.unkeyed (opened : Opened d t entries event d') : d.keyed t.idempotencyKey = [] := by
  apply List.filter_eq_nil_iff.mpr
  intro other member
  simp only [decide_eq_true_eq]
  exact fun same => opened.newKey ⟨other, member, by simp [Transaction.index, same]⟩

theorem Closed.keyed (closed : Closed d t t' entries log event d') (key : String) :
    (d'.keyed key).length = (d.keyed key).length := by
  have found : d.transactions.get? t'.id = some t := closed.id ▸ closed.found
  simp only [DB.keyed, closed.transactions]
  rw [Table.filter_put_old _ found (by simp [closed.key]), List.length_map]

theorem Closed.logged (closed : Closed d t t' entries log event d') (id : TransactionId) :
    (d'.logsOf id).length = (d.logsOf id).length + if t.id = id then 1 else 0 := by
  obtain ⟨here, elsewhere⟩ := logsOf_put closed.paymentLogs closed.newLog
  rw [closed.log_of.1] at here elsewhere
  by_cases same : t.id = id
  · rw [← same, here, if_pos rfl, List.length_append, List.length_singleton]
  · rw [elsewhere id (Ne.symm same), if_neg same, Nat.add_zero]

theorem Opened.retryCount (opened : Opened d t entries event d') (id : EventId) :
    d'.retryCount id = d.retryCount id := by
  simp only [DB.retryCount, opened.outboxEvents, Table.get?_put]
  split
  · subst id
    simp [opened.newEvent, opened.pending.2]
  · rfl

theorem Closed.retryCount (closed : Closed d t t' entries log event d') (id : EventId) :
    d'.retryCount id = d.retryCount id := by
  obtain ⟨old, found, _, _, same⟩ := closed.event_of
  simp only [DB.retryCount, closed.outboxEvents, Table.get?_put]
  split
  · subst id
    simp [found, same]
  · rfl

theorem Touched.retryCount {id : EventId} {change : OutboxEvent → OutboxEvent}
    (touched : Touched d id change d') (same : ∀ e, (change e).id = e.id) (more : Nat)
    (counts : ∀ e, (change e).retryCount = e.retryCount + more) (other : EventId) :
    d'.retryCount other = d.retryCount other + if id = other then more else 0 := by
  obtain ⟨old, found, rfl⟩ := touched
  have keyEq : old.id = id := Table.get?_key found
  simp only [DB.retryCount, Table.get?_put, same, keyEq]
  by_cases here : other = id
  · subst other
    simp [found, counts]
  · simp [here, Ne.symm here]

/-- Each commit adds the rows that its transaction stands for. -/
structure Counted (c : TxCall) (d d' : DB) : Prop where
  keyed : ∀ key, (d'.keyed key).length = (d.keyed key).length + if c.carries key then 1 else 0
  unkeyed : ∀ key, c.carries key → d.keyed key = []
  logged : ∀ id, (d'.logsOf id).length = (d.logsOf id).length + if c.closes id then 1 else 0
  retried : ∀ id, d'.retryCount id = d.retryCount id + if c.retries id then 1 else 0

/-- Commits that leave transactions and payment logs alone. -/
theorem Counted.idle (carries : ∀ key, c.carries key = false) (closes : ∀ id, c.closes id = false)
    (transactions : d'.transactions = d.transactions) (paymentLogs : d'.paymentLogs = d.paymentLogs)
    (retried : ∀ id, d'.retryCount id = d.retryCount id + if c.retries id then 1 else 0) :
    Counted c d d' := by
  refine ⟨?_, ?_, ?_, retried⟩
  · simp [carries, DB.keyed, transactions]
  · simp [carries]
  · simp [closes, DB.logsOf, paymentLogs]

theorem TxCall.Initiated.counted (initiated : c.Initiated d d') (closes : ∀ id, c.closes id = false)
    (retries : ∀ id, c.retries id = false) : Counted c d d' := by
  obtain ⟨o, sender, receiver, entries, event, asks, opened, _⟩ := initiated
  have carries : ∀ key, c.carries key = decide (o.idempotencyKey = key) := by
    simp [TxCall.carries, asks]
  constructor
  · intro key
    simp only [carries, decide_eq_true_eq]
    exact opened.keyed key
  · intro key carried
    obtain rfl : o.idempotencyKey = key := by simpa [carries] using carried
    exact opened.unkeyed
  · simp [closes, DB.logsOf, opened.paymentLogs]
  · simpa [retries] using opened.retryCount

theorem TransactionContext.Finished.counted {txCtx : TransactionContext}
    {status : TransactionStatus}
    (finished : txCtx.Finished status d d') (carries : ∀ key, c.carries key = false)
    (closes : ∀ id, c.closes id = decide (txCtx.id = id)) (retries : ∀ id, c.retries id = false) :
    Counted c d d' := by
  obtain ⟨t, t', entries, log, event, same, _, closed⟩ := finished
  constructor
  · simpa [carries] using closed.keyed
  · simp [carries]
  · simpa [closes, same] using closed.logged
  · simpa [retries] using closed.retryCount

theorem TxCall.Effect.counted (effect : c.Effect d d') : Counted c d d' := by
  cases c with
  | createUserWithWallet =>
    obtain ⟨user, wallet, rfl, _⟩ := effect
    exact .idle (fun _ => rfl) (fun _ => rfl) rfl rfl fun _ => rfl
  | deposit | withdraw | transfer | confirmDeposit | createPayout =>
    exact TxCall.Initiated.counted effect (fun _ => rfl) fun _ => rfl
  | settle | fail =>
    exact TransactionContext.Finished.counted effect (fun _ => rfl) (fun _ => rfl) fun _ => rfl
  | markDelivered id now =>
    have retried := Touched.retryCount effect (fun _ => rfl) 0 fun _ => rfl
    obtain ⟨old, found, rfl⟩ := effect
    exact .idle (fun _ => rfl) (fun _ => rfl) rfl rfl fun other =>
      by simpa [TxCall.retries] using retried other
  | incrementRetry id =>
    have retried := Touched.retryCount effect (fun _ => rfl) 1 fun _ => rfl
    obtain ⟨old, found, rfl⟩ := effect
    exact .idle (fun _ => rfl) (fun _ => rfl) rfl rfl fun other =>
      by simpa [TxCall.retries] using retried other
  | closeAccount | updateStatusOrRole | setConnectAccountId | setPaypalEmail =>
    obtain ⟨old, tokens, _, rfl⟩ := effect
    exact .idle (fun _ => rfl) (fun _ => rfl) rfl rfl fun _ => rfl

/-- What a commit does to a transaction row: nothing, or it closes an open one. -/
theorem TxCall.Effect.row (effect : c.Effect d d') {id : TransactionId}
    (found : d.transactions.get? id = some t) : d'.transactions.get? id = some t ∨
      ∃ t', d'.transactions.get? id = some t' ∧ t.status = .initiated ∧
        (t'.status = .settled ∨ t'.status = .failed ∧ c.fails id) := by
  have initiated : c.Initiated d d' → d'.transactions.get? id = some t := by
    rintro ⟨o, sender, receiver, entries, event, _, opened, _⟩
    have different : id ≠ (o.row sender receiver).id := by
      rintro rfl
      simp [opened.fresh] at found
    simpa only [opened.transactions, Table.get?_put, if_neg different] using found
  have finished : ∀ {txCtx status}, TransactionContext.Finished txCtx status d d' →
      d'.transactions.get? id = some t ∨
        ∃ t', d'.transactions.get? id = some t' ∧ t.status = .initiated ∧ txCtx.id = id ∧
          t'.status = status := by
    rintro txCtx status ⟨old, t', entries, log, event, same, became, closed⟩
    rw [closed.transactions, Table.get?_put, closed.id]
    split
    · subst id
      cases closed.found.symm.trans found
      exact .inr ⟨t', rfl, closed.initiated, same.symm, became⟩
    · exact .inl found
  cases c with
  | createUserWithWallet =>
    obtain ⟨user, wallet, rfl, _⟩ := effect
    exact .inl found
  | deposit | withdraw | transfer | confirmDeposit | createPayout => exact .inl (initiated effect)
  | settle =>
    rcases finished effect with kept | ⟨t', found', open_, _, settled⟩
    · exact .inl kept
    · exact .inr ⟨t', found', open_, .inl settled⟩
  | fail =>
    rcases finished effect with kept | ⟨t', found', open_, same, failed⟩
    · exact .inl kept
    · exact .inr ⟨t', found', open_, .inr ⟨failed, decide_eq_true same⟩⟩
  | markDelivered | incrementRetry =>
    obtain ⟨old, _, rfl⟩ := effect
    exact .inl found
  | closeAccount | updateStatusOrRole | setConnectAccountId | setPaypalEmail =>
    obtain ⟨old, tokens, _, rfl⟩ := effect
    exact .inl found

/-- A transaction row was there before on the same terms, or was just opened. -/
theorem TxCall.Effect.source (effect : c.Effect d d') (member : t ∈ d'.transactions.rows) :
    (∃ old ∈ d.transactions.rows, old.id = t.id ∧ t.terms = old.terms) ∨
      ∃ o sender receiver, c.opening = some o ∧ t = o.row sender receiver := by
  have initiated : c.Initiated d d' →
      (∃ old ∈ d.transactions.rows, old.id = t.id ∧ t.terms = old.terms) ∨
      ∃ o sender receiver, c.opening = some o ∧ t = o.row sender receiver := by
    rintro ⟨o, sender, receiver, entries, event, asks, opened, _⟩
    rw [opened.transactions] at member
    rcases Table.mem_put.mp member with rfl | ⟨old, _⟩
    · exact .inr ⟨o, sender, receiver, asks, rfl⟩
    · exact .inl ⟨t, old, rfl, rfl⟩
  have finished : ∀ {txCtx status}, TransactionContext.Finished txCtx status d d' →
      ∃ old ∈ d.transactions.rows, old.id = t.id ∧ t.terms = old.terms := by
    rintro txCtx status ⟨before, after, entries, log, event, _, _, closed⟩
    rw [closed.transactions] at member
    rcases Table.mem_put.mp member with rfl | ⟨old, _⟩
    · exact ⟨before, Table.get?_mem closed.found, closed.id.symm, closed.terms⟩
    · exact ⟨t, old, rfl, rfl⟩
  cases c with
  | createUserWithWallet =>
    obtain ⟨user, wallet, rfl, _⟩ := effect
    exact .inl ⟨t, member, rfl, rfl⟩
  | deposit | withdraw | transfer | confirmDeposit | createPayout => exact initiated effect
  | settle | fail => exact .inl (finished effect)
  | markDelivered | incrementRetry =>
    obtain ⟨old, _, rfl⟩ := effect
    exact .inl ⟨t, member, rfl, rfl⟩
  | closeAccount | updateStatusOrRole | setConnectAccountId | setPaypalEmail =>
    obtain ⟨old, tokens, _, rfl⟩ := effect
    exact .inl ⟨t, member, rfl, rfl⟩

/-- An event is delivered because it was before, because its transaction was
closed, or because it was marked. -/
theorem TxCall.Effect.delivered (effect : c.Effect d d') {id : EventId} {event : OutboxEvent}
    (found : d'.outboxEvents.get? id = some event) (delivered : event.deliveredAt.isSome) :
    (∃ old, d.outboxEvents.get? id = some old ∧ old.transactionId = event.transactionId ∧
        ((∃ now, c = .markDelivered id now) ∨ old.deliveredAt.isSome)) ∨
      c.closes event.transactionId ∧
        ∃ t, d'.transactions.get? event.transactionId = some t ∧ t.status ≠ .initiated := by
  have initiated : c.Initiated d d' → d.outboxEvents.get? id = some event := by
    rintro ⟨o, sender, receiver, entries, new, _, opened, _⟩
    rw [opened.outboxEvents, Table.get?_put] at found
    split at found
    · cases found
      simp [opened.pending.1] at delivered
    · exact found
  have finished : ∀ {txCtx status}, TransactionContext.Finished txCtx status d d' →
      d.outboxEvents.get? id = some event ∨ txCtx.id = event.transactionId ∧
        ∃ t, d'.transactions.get? event.transactionId = some t ∧ t.status ≠ .initiated := by
    rintro txCtx status ⟨t, t', entries, log, new, same, _, closed⟩
    rw [closed.outboxEvents, Table.get?_put] at found
    split at found
    · cases found
      refine .inr ⟨same ▸ closed.event_id.symm, t', ?_,
        by rcases closed.status with h | h <;> simp [h]⟩
      rw [closed.event_id, closed.transactions, ← closed.id, Table.get?_put, if_pos rfl]
    · exact .inl found
  cases c with
  | createUserWithWallet =>
    obtain ⟨user, wallet, rfl, _⟩ := effect
    exact .inl ⟨event, found, rfl, .inr delivered⟩
  | deposit | withdraw | transfer | confirmDeposit | createPayout =>
    exact .inl ⟨event, initiated effect, rfl, .inr delivered⟩
  | settle | fail =>
    exact (finished effect).imp (fun present => ⟨event, present, rfl, .inr delivered⟩)
      fun closed => ⟨decide_eq_true closed.1, closed.2⟩
  | markDelivered other now =>
    obtain ⟨old, present, rfl⟩ := effect
    have keyEq : old.id = other := Table.get?_key present
    rw [Table.get?_put, keyEq] at found
    split at found
    · rename_i here
      subst here
      cases found
      exact .inl ⟨old, present, rfl, .inl ⟨now, rfl⟩⟩
    · exact .inl ⟨event, found, rfl, .inr delivered⟩
  | incrementRetry other =>
    obtain ⟨old, present, rfl⟩ := effect
    have keyEq : old.id = other := Table.get?_key present
    rw [Table.get?_put, keyEq] at found
    split at found
    · rename_i here
      subst here
      cases found
      exact .inl ⟨old, present, rfl, .inr delivered⟩
    · exact .inl ⟨event, found, rfl, .inr delivered⟩
  | closeAccount | updateStatusOrRole | setConnectAccountId | setPaypalEmail =>
    obtain ⟨old, tokens, _, rfl⟩ := effect
    exact .inl ⟨event, found, rfl, .inr delivered⟩

theorem delivered_put (put : d'.outboxEvents = d.outboxEvents.put event)
    (kept : ∀ old, d.outboxEvents.get? event.id = some old →
      event.transactionId = old.transactionId ∧
      (old.deliveredAt.isSome → event.deliveredAt.isSome))
    {id : TransactionId} (before : d.delivered id) : d'.delivered id := by
  obtain ⟨old, member, rfl, delivered⟩ := before
  unfold DB.delivered
  rw [put]
  by_cases same : old.id = event.id
  · obtain ⟨of, still⟩ := kept old (same ▸ Table.get?_of_mem member)
    exact ⟨event, Table.mem_put.mpr (.inl rfl), of, still delivered⟩
  · exact ⟨old, Table.mem_put.mpr (.inr ⟨member, same⟩), rfl, delivered⟩

/-- A delivery mark stays. -/
theorem TxCall.Effect.deliveredStays (effect : c.Effect d d') {id : TransactionId}
    (before : d.delivered id) :
    d'.delivered id := by
  have finished : ∀ {txCtx status}, TransactionContext.Finished txCtx status d d' →
      d'.delivered id := by
    rintro txCtx status ⟨t, t', entries, log, event, _, _, closed⟩
    obtain ⟨old, found, of, terms, _⟩ := closed.event_of
    refine delivered_put closed.outboxEvents (fun other present => ?_) before
    cases found.symm.trans present
    exact ⟨congrArg Prod.fst terms, fun _ => closed.delivered⟩
  have touched : ∀ {eventId change}, Touched d eventId change d' → (∀ e, (change e).id = e.id) →
      (∀ e, (change e).transactionId = e.transactionId) →
      (∀ e, e.deliveredAt.isSome → (change e).deliveredAt.isSome) → d'.delivered id := by
    rintro eventId change ⟨old, found, rfl⟩ same of still
    refine delivered_put rfl (fun other present => ?_) before
    cases (Table.get?_of_same found (same old)).symm.trans present
    exact ⟨of old, still old⟩
  cases c with
  | createUserWithWallet =>
    obtain ⟨user, wallet, rfl, _⟩ := effect
    exact before
  | deposit | withdraw | transfer | confirmDeposit | createPayout =>
    obtain ⟨o, sender, receiver, entries, event, _, opened, _⟩ := effect
    refine delivered_put opened.outboxEvents (fun old present => ?_) before
    cases opened.newEvent.symm.trans present
  | settle | fail => exact finished effect
  | markDelivered => exact touched effect (fun _ => rfl) (fun _ => rfl) fun _ _ => rfl
  | incrementRetry => exact touched effect (fun _ => rfl) (fun _ => rfl) fun _ still => still
  | closeAccount | updateStatusOrRole | setConnectAccountId | setPaypalEmail =>
    obtain ⟨old, tokens, _, rfl⟩ := effect
    exact before

end
end PaymentWallet
