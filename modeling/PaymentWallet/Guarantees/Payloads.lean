import PaymentWallet.Accounting.Payloads
import PaymentWallet.Guarantees.Payments
import PaymentWallet.Service.Invariants

/-! What the outbox tells the adapters about a transaction, and what they send of it. -/
namespace PaymentWallet
open Foundation Schedule

/-- Every transaction of an adapter has an event for it. -/
def Billed (σ : SharedState) : Prop :=
  ∀ t ∈ σ.db.transactions.rows, ∀ adapter : Adapter, t.provider = some adapter.toProvider →
    ∃ event ∈ σ.db.outboxEvents.rows, event.transactionId = t.id ∧
      Payable σ.db t adapter event.payload

theorem Billed.commit {σ : SharedState} {d' : DB} (billed : Billed σ) (keeps : σ.db.Keeps d')
    (bills : Bills σ.db d') :
    Billed (σ.commit c d') := by
  intro t member adapter provider
  have found : d'.transactions.get? t.id = some t := Table.get?_of_mem member
  cases before : σ.db.transactions.get? t.id with
  | none => exact bills t found before adapter provider
  | some old =>
    obtain ⟨new, found', same⟩ := keeps.transactions _ _ before
    cases found.symm.trans found'
    have sameProvider : t.provider = old.provider := congrArg (·.2.2.2.1) same
    have sameId : old.id = t.id := Table.get?_key before
    obtain ⟨event, listed, of, payable⟩ :=
      billed old (Table.get?_mem before) adapter (sameProvider ▸ provider)
    obtain ⟨event', found', terms⟩ := keeps.outboxEvents _ _ (Table.get?_of_mem listed)
    have samePayload : event'.payload = event.payload := congrArg (·.2.2) terms
    exact ⟨event', Table.get?_mem found', (congrArg Prod.fst terms).trans (of.trans sameId),
      samePayload ▸ payable.keeps keeps same⟩

theorem Reachable.billed {w : State} (run : Reachable w) : Billed w.shared :=
  invariant_of_reaches (fun _ member => by cases member) (fun billed _ => billed)
    (fun billed _ _ ready _ => ready.bills.mono fun _ _ bills effect keeps =>
      billed.commit keeps (bills effect keeps)) run

def JsonValue.text : JsonValue → Option String
  | .string text => some text
  | _ => none

/-- The texts of the metadata but for `source`, which is the adapter's own. -/
def Record.texts (metadata : Record) : List String :=
  (metadata.filter (·.1 ≠ "source")).filterMap (·.2.text)

/-- The texts of a payload that a request carries. -/
def ProviderRequest.texts : ProviderRequest → List String
  | .createIntent _ currency metadata => currency :: metadata.texts
  | .retrieveIntent paymentIntentId => [paymentIntentId]
  | .createPayout _ currency destination metadata => currency :: destination :: metadata.texts
  | .generateClientToken customerId => customerId.toList
  | .sale amount paymentMethodNonce customerId =>
    amount :: paymentMethodNonce :: (customerId.bind (·.text)).toList
  | .accessToken => []
  | .payouts value currency receiver walletId userId =>
    [value, currency, receiver, walletId, userId]

/-- The text is a field of the payload, perhaps in other letters. -/
def Record.Shows (payload : Record) (text : String) : Prop :=
  ∃ name value, payload.field name = some (.string value) ∧
    (text = value ∨ text = value.toLower ∨ text = value.toUpper)

section Sending
variable {payload : Record} {name : String}

theorem Record.Shows.of_field {text : String} (found : payload.field name = some (.string text)) :
    payload.Shows (stringOf (payload.field name)) ∧
      payload.Shows (stringOf (payload.field name)).toLower ∧
      payload.Shows (stringOf (payload.field name)).toUpper := by
  rw [found]
  exact ⟨⟨name, text, found, .inl rfl⟩, ⟨name, text, found, .inr (.inl rfl)⟩,
    ⟨name, text, found, .inr (.inr rfl)⟩⟩

theorem Record.Shows.of_truthy {text : String}
    (member : text ∈ ((truthyValue (payload.field name)).bind (·.text)).toList) :
    payload.Shows text := by
  obtain ⟨value, truthy, same⟩ := Option.bind_eq_some_iff.mp (Option.mem_toList.mp member)
  have found := (Option.filter_eq_some_iff.mp truthy).1
  cases value with
  | string value => exact ⟨name, value, found, .inl (Option.some.inj same).symm⟩
  | _ => cases same

/-- An adapter sends nothing but fields of the payload. -/
theorem Payable.sends (other : String → Option ℚ) {d : DB} {t : Transaction} {adapter : Adapter}
    (payable : Payable d t adapter payload) :
    (adapter.process other payload t.type).All fun request => ∀ text ∈ request.texts,
      payload.Shows text := by
  obtain ⟨userId, walletId, user, wallet, _⟩ := payable.owner
  have user := Record.Shows.of_field user
  have wallet := Record.Shows.of_field wallet
  have shown : ∀ name ∈ adapter.reads t.type, payload.Shows (stringOf (payload.field name)) ∧
      payload.Shows (stringOf (payload.field name)).toLower ∧
        payload.Shows (stringOf (payload.field name)).toUpper := by
    intro name member
    obtain ⟨text, found, _⟩ := payable.fields name member
    exact Record.Shows.of_field found
  cases type : t.type with
  | transfer => cases adapter <;> trivial
  | deposit =>
    cases adapter with
    | stripe =>
      simp only [SupportedProvider.reads, type, List.forall_mem_cons, List.not_mem_nil,
        false_implies, implies_true, and_true] at shown
      refine StripeProvider.confirmDeposit_all ?_
      simpa [ProviderRequest.texts] using shown.1
    | paypal =>
      simp only [SupportedProvider.reads, type, List.forall_mem_cons, List.not_mem_nil,
        false_implies, implies_true, and_true] at shown
      refine PaypalProvider.confirmDeposit_all ?_
      refine List.forall_mem_cons.mpr ⟨shown.2.1.1, List.forall_mem_cons.mpr ⟨shown.1.1, ?_⟩⟩
      exact fun text member => .of_truthy member
  | withdrawal =>
    cases adapter with
    | stripe =>
      simp only [SupportedProvider.reads, type, List.forall_mem_cons, List.not_mem_nil,
        false_implies, implies_true, and_true] at shown
      refine StripeProvider.createPayout_all ?_
      simpa [ProviderRequest.texts, Record.texts, JsonValue.text] using
        ⟨shown.2.1.2.1, shown.2.2.1, user.1⟩
    | paypal =>
      simp only [SupportedProvider.reads, type, List.forall_mem_cons, List.not_mem_nil,
        false_implies, implies_true, and_true] at shown
      refine PaypalProvider.createPayout_all (by simp [ProviderRequest.texts]) ?_
      simpa [ProviderRequest.texts] using ⟨shown.1.1, shown.2.1.2.2, shown.2.2.1, wallet.1, user.1⟩

end Sending

/-- The one event of a transaction. -/
theorem Reachable.event {w : State} (run : Reachable w) {t : Transaction}
    (member : t ∈ w.shared.db.transactions.rows) :
    ∃ event, w.shared.db.eventsOf t.id = [event] ∧ event.eventType = t.type.event := by
  obtain ⟨event, single, type, _⟩ := (run.books.dossiers t member).event
  exact ⟨event, single, type⟩

/-- The event of an adapter's transaction tells what the transaction is. -/
theorem Reachable.payable {w : State} (run : Reachable w) {event : OutboxEvent}
    (member : event ∈ w.shared.db.outboxEvents.rows)
    {t : Transaction} (found : w.shared.db.transactions.get? event.transactionId = some t)
    {adapter : Adapter} (provider : t.provider = some adapter.toProvider) :
    Payable w.shared.db t adapter event.payload := by
  have here : t ∈ w.shared.db.transactions.rows := Table.get?_mem found
  have of : t.id = event.transactionId := Table.get?_key found
  obtain ⟨other, listed, ofOther, payable⟩ := run.billed t here adapter provider
  obtain ⟨single, only, _⟩ := run.event here
  have same : ∀ e ∈ w.shared.db.outboxEvents.rows, e.transactionId = t.id →
      e = single := fun e inRows ofT =>
    List.mem_singleton.mp (only ▸ List.mem_filter.mpr ⟨inRows, by simpa using ofT⟩)
  obtain rfl := (same event member of.symm).trans (same other listed ofOther).symm
  exact payable

/-- The event of an adapter's transaction agrees with it and with what the adapter reads;
every transaction has one event, which is written by the commit that creates it. -/
theorem payload_agrees {w : State} (run : Reachable w) :
    (∀ event ∈ w.shared.db.outboxEvents.rows, ∀ t,
      w.shared.db.transactions.get? event.transactionId = some t →
      ∀ adapter : Adapter, t.provider = some adapter.toProvider →
        Payable w.shared.db t adapter event.payload ∧
        ∀ other, (adapter.process other event.payload t.type).All fun request =>
          ∀ text ∈ request.texts, event.payload.Shows text) ∧
    (∀ t ∈ w.shared.db.transactions.rows, ∃ event, w.shared.db.eventsOf t.id = [event] ∧
      event.eventType = t.type.event) ∧
    ∀ w', system.Step anything w w' → ∀ t ∈ w'.shared.db.transactions.rows,
      w.shared.db.transactions.get? t.id = none →
      w.shared.db.eventsOf t.id = [] ∧ ∃ event, w'.shared.db.eventsOf t.id = [event] ∧
        event.eventType = t.type.event := by
  refine ⟨fun event member t found adapter provider => ?_, fun t member => run.event member,
    fun w' taken t member fresh => ?_⟩
  · have payable := run.payable member found provider
    exact ⟨payable, fun other => payable.sends other⟩
  · exact ⟨eventsOf_unknown run.books fresh, Reachable.event (run.tail taken) member⟩

/-- Alice's deposit with PayPal, before the first poll. -/
theorem payload_agrees_deposited : ∃ w, Reachable w ∧
    (∃ event ∈ w.shared.db.outboxEvents.rows, ∃ t,
      w.shared.db.transactions.get? event.transactionId = some t ∧ t.type = .deposit ∧
      Payable w.shared.db t .paypal event.payload ∧
      ∀ other, (Adapter.process other .paypal event.payload .deposit).All fun request =>
        ∀ text ∈ request.texts, event.payload.Shows text) ∧
    ∀ t ∈ w.shared.db.transactions.rows, ∃ event, w.shared.db.eventsOf t.id = [event] ∧
      event.eventType = t.type.event := by
  obtain ⟨w, run, event, listed, present⟩ := Schedule.reachable
    [registers "alice", deposits "alice"]
    (fun σ => ∃ event ∈ σ.db.outboxEvents.rows, (σ.db.transactions.get? event.transactionId).any
      fun t => t.provider = some .paypal ∧ t.type = .deposit) (by decide +kernel)
  obtain ⟨t, found, terms⟩ := (Option.any_eq_true ..).mp present
  obtain ⟨provider, type⟩ := of_decide_eq_true terms
  obtain ⟨payable, sends⟩ := (payload_agrees run).1 event listed t found .paypal provider
  exact ⟨w, run, ⟨event, listed, t, found, type, payable, type ▸ sends⟩, (payload_agrees run).2.1⟩

end PaymentWallet
