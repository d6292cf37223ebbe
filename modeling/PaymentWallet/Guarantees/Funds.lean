import PaymentWallet.Guarantees.Accounts
import PaymentWallet.Service.Accountability

/-! Where the money of an open deposit or withdrawal waits: on an event that the
processor still picks up, on a provider that accepted it, or on a dead letter. Those
without a provider wait on nobody. -/
namespace PaymentWallet
open Foundation Schedule

/-- The registry has an adapter for the transaction's provider. -/
def Transaction.resolvable (t : Transaction) : Bool :=
  t.provider.any fun provider => (PaymentProviderRegistry.resolve provider).isOk

/-- The processor will pick the event up, or an asynchronous provider has it. -/
def Waits (σ : SharedState) (t : Transaction) (event : OutboxEvent) : Prop :=
  event.selectable 5 ∧ t.resolvable ∨ event.deliveredAt.isSome ∧ Accepted σ.ext.calls t.id

/-- Five recorded attempts have failed. -/
def DeadLetter (σ : SharedState) (event : OutboxEvent) : Prop :=
  event.deliveredAt = none ∧ 5 ≤ event.retryCount ∧
    σ.log.countP (·.retries event.id) = event.retryCount

instance (calls : List ProviderCall) (id : TransactionId) : Decidable (Accepted calls id) :=
  inferInstanceAs (Decidable (∃ call ∈ calls, _))

instance (σ : SharedState) (t : Transaction) (event : OutboxEvent) : Decidable (Waits σ t event) :=
  inferInstanceAs (Decidable (_ ∨ _))

/-- The event of an open transaction is delivered only if its provider answers later. -/
theorem Sound.accepted {σ : SharedState} (sound : Sound σ) {t : Transaction} {event : OutboxEvent}
    (member : t ∈ σ.db.transactions.rows) (initiated : t.status = .initiated)
    (single : σ.db.eventsOf t.id = [event]) (delivered : event.deliveredAt.isSome) :
    Accepted σ.ext.calls t.id := by
  obtain ⟨listed, about⟩ := DB.event_listed single
  rcases sound.delivered _ _ (Table.get?_of_mem listed) delivered with
    accepted | ⟨other, found, closed⟩
  · exact about ▸ accepted
  · rw [about, Table.get?_of_mem member] at found
    cases found
    exact absurd initiated closed

theorem Sound.waits {σ : SharedState} (sound : Sound σ) {t : Transaction}
    (member : t ∈ σ.db.transactions.rows) (type : t.type ≠ .transfer)
    (initiated : t.status = .initiated) (adapted : ¬ t.direct) :
    ∃ event, σ.db.eventsOf t.id = [event] ∧ event.eventType = t.type.event ∧
      (Waits σ t event ∨ DeadLetter σ event) := by
  have dossier := sound.books.dossiers t member
  obtain ⟨event, single, eventType, _⟩ := dossier.event
  refine ⟨event, single, eventType, ?_⟩
  cases delivered : event.deliveredAt with
  | some time =>
    have accepted := sound.accepted member initiated single (by simp [delivered])
    exact .inl (.inr ⟨by simp [delivered], accepted⟩)
  | none =>
    by_cases low : event.retryCount < 5
    · have resolvable : t.resolvable := by
        obtain ⟨provider, provided⟩ := Option.isSome_iff_exists.mp dossier.staged.provider
        cases provider with
        | stripe | paypal =>
          simp [Transaction.resolvable, provided, PaymentProviderRegistry.resolve,
            Except.isOk, Except.toBool]
        | internal => simp [Transaction.direct, provided] at adapted
      have initial : event.eventType ≠ .transferSettled := by
        cases kind : t.type <;> simp_all [TransactionType.event]
      exact .inl (.inl ⟨by simp [OutboxEvent.selectable, delivered, low, initial], resolvable⟩)
    · refine .inr ⟨delivered, Nat.not_lt.mp low, ?_⟩
      rw [← sound.retried, DB.retryCount, Table.get?_of_mem (DB.event_listed single).1]
      rfl

/-- No stranded funds, of transactions that have a provider. -/
theorem funds_wait (run : Reachable w) : ∀ t ∈ w.shared.db.transactions.rows, t.type ≠ .transfer →
    t.status = .initiated → ¬ t.direct → ∃ event, w.shared.db.eventsOf t.id = [event] ∧
      event.eventType = t.type.event ∧ (Waits w.shared t event ∨ DeadLetter w.shared event) :=
  fun _ member => run.sound.waits member

/-- A poll on which the provider cannot be reached. -/
def Schedule.fails : Request × List (Turn Choice) := polls (.error .connectionLost) [.commit]

theorem funds_wait_pending :
    ∃ w, Reachable w ∧ ∃ t ∈ w.shared.db.transactions.rows, t.type ≠ .transfer ∧
    t.status = .initiated ∧ ∃ event, w.shared.db.eventsOf t.id = [event] ∧
      event.eventType = t.type.event ∧ (Waits w.shared t event ∨ DeadLetter w.shared event) := by
  obtain ⟨w, run, t, member, type, initiated, adapted⟩ := Schedule.reachable
    [registers "alice", deposits "alice", fails]
    (fun σ => ∃ t ∈ σ.db.transactions.rows, t.type ≠ .transfer ∧ t.status = .initiated ∧ ¬ t.direct)
    (by decide +kernel)
  exact ⟨w, run, t, member, type, initiated, funds_wait run t member type initiated adapted⟩

/-- After five failed attempts the event is not picked up again. -/
theorem funds_strand :
    ¬ ∀ w, Reachable w → ∀ t ∈ w.shared.db.transactions.rows, t.type ≠ .transfer →
    t.status = .initiated → ∃ event ∈ w.shared.db.eventsOf t.id, event.eventType = t.type.event ∧
      Waits w.shared t event := by
  intro claim
  obtain ⟨w, run, t, member, type, initiated, stranded⟩ := Schedule.reachable
    [registers "alice", deposits "alice", fails, fails, fails, fails, fails]
    (fun σ => ∃ t ∈ σ.db.transactions.rows, t.type ≠ .transfer ∧ t.status = .initiated ∧
      ∀ event ∈ σ.db.eventsOf t.id, ¬ Waits σ t event)
    (by decide +kernel)
  obtain ⟨event, listed, _, waits⟩ := claim w run t member type initiated
  exact stranded event listed waits

/-- Providers are asked about the transactions that name them. -/
theorem Reachable.call_provider (run : Reachable w) {t : Transaction}
    (member : t ∈ w.shared.db.transactions.rows) {call : ProviderCall}
    (made : call ∈ w.shared.ext.calls) (about : call.transactionId = t.id) :
    t.provider = some call.adapter.toProvider := by
  obtain ⟨_, _, other, _, _, _, found, provider, _⟩ := (accountable_of_reaches run).inv.2 call made
  rw [about] at found
  cases (Table.get?_of_mem member).symm.trans found
  exact provider

/-- A deposit or withdrawal without a provider stays open: nobody is asked about it, and no
attempt of the processor gets past the registry. -/
theorem direct_funds_strand (run : Reachable w) :
    ∀ t ∈ w.shared.db.transactions.rows, t.type ≠ .transfer → t.direct →
    t.status = .initiated ∧ ∃ event, w.shared.db.eventsOf t.id = [event] ∧
      event.eventType = t.type.event ∧ event.deliveredAt = none ∧ ¬ Waits w.shared t event := by
  intro t member type direct
  have dossier := run.books.dossiers t member
  have initiated := dossier.staged.direct type direct
  have internal : t.provider = some .internal := of_decide_eq_true direct
  have unasked : ¬ Accepted w.shared.ext.calls t.id := by
    rintro ⟨call, made, about, _⟩
    have named := run.call_provider member made about
    exact call.adapter.toProvider_ne_internal (Option.some.inj (named.symm.trans internal))
  have unresolved : ¬ t.resolvable := by
    simp [Transaction.resolvable, internal, PaymentProviderRegistry.resolve, Except.isOk,
      Except.toBool]
  obtain ⟨event, single, eventType, _⟩ := dossier.event
  refine ⟨initiated, event, single, eventType, ?_, ?_⟩
  · cases delivered : event.deliveredAt with
    | none => rfl
    | some time =>
      exact absurd (run.sound.accepted member initiated single (by simp [delivered])) unasked
  · rintro (⟨_, resolvable⟩ | ⟨_, accepted⟩)
    · exact unresolved resolvable
    · exact unasked accepted

/-- A poll whose one event names no adapter. -/
def Schedule.unresolved : Request × List (Turn Choice) :=
  (.processOutbox, [.answer {}, .answer {}, .answer {}, .commit, .answer {}])

/-- Five dollars that Alice deposits through no provider end on a dead letter. -/
theorem direct_funds_strand_dead : ∃ w, Reachable w ∧ ∃ t ∈ w.shared.db.transactions.rows,
    t.type = .deposit ∧ t.direct ∧ ∃ event, w.shared.db.eventsOf t.id = [event] ∧
      event.deliveredAt = none ∧ event.retryCount = 5 ∧ ¬ Waits w.shared t event := by
  obtain ⟨w, run, t, member, type, direct, spent⟩ := Schedule.reachable
    [registers "alice", (.deposit "user-alice"
      ⟨⟨50000, Amount.fiveDollars_pos⟩, .usd, "key", none⟩, initiates "deposit"),
      unresolved, unresolved, unresolved, unresolved, unresolved]
    (fun σ => ∃ t ∈ σ.db.transactions.rows, t.type = .deposit ∧ t.direct ∧
      ∀ event ∈ σ.db.eventsOf t.id, event.retryCount = 5) (by decide +kernel)
  obtain ⟨_, event, single, _, undelivered, stranded⟩ :=
    direct_funds_strand run t member (by simp [type]) direct
  exact ⟨w, run, t, member, type, direct, event, single, undelivered,
    spent event (by simp [single]), stranded⟩

end PaymentWallet
