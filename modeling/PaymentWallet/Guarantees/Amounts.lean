import PaymentWallet.Guarantees.Payloads
import PaymentWallet.Providers.Intents

/-! What is moved outside and what is moved inside. The wallets move by the amount of a
transaction; PayPal is asked for that amount, and Stripe for its nearest number of cents. -/
namespace PaymentWallet
open Foundation Schedule

section Requests
variable {other : String → Option ℚ} {d : DB} {t : Transaction} {adapter : Adapter}
  {payload : Record} {good : ProviderRequest → Prop}

/-- Only the retrieval of an intent names no amount. -/
theorem Payable.asks (payable : Payable d t adapter payload)
    (silent : ∀ request, request.asked = none → good request)
    (asks : (adapter = .stripe → t.type = .withdrawal) →
      ∀ request, request.asked = some (some (t.amount.sent adapter)) → good request) :
    (adapter.process other payload t.type).All good := by
  obtain ⟨text, field, read⟩ := payable.amount
  have shown : Numeral.read (stringOf (payload.field "amount")).toList =
    some t.amount.number := by rw [field]; exact read
  cases adapter with
  | stripe =>
    cases type : t.type with
    | deposit => exact StripeProvider.confirmDeposit_all (silent _ rfl)
    | withdrawal =>
      have value : numberOf other (payload.field "amount") = some t.amount.number := by
        rw [field, numberOf, read, Option.some_or]
        rfl
      refine StripeProvider.createPayout_all (asks (fun _ => type) _ ?_)
      rw [ProviderRequest.asked, value, Option.map_some, Option.map_some, minorUnits_number]
    | transfer => trivial
  | paypal =>
    cases type : t.type with
    | deposit => exact PaypalProvider.confirmDeposit_all (asks nofun _ (congrArg some shown))
    | withdrawal =>
      exact PaypalProvider.createPayout_all (silent _ rfl) (asks nofun _ (congrArg some shown))
    | transfer => trivial

/-- A Stripe payout asks for cents. -/
theorem Payable.asks_cents (payable : Payable d t .stripe payload)
    (withdrawal : t.type = .withdrawal)
    (all : (Adapter.process other .stripe payload t.type).All good) :
    ∃ request, good request ∧ request.asked = some (some (t.amount.sent .stripe)) := by
  obtain ⟨text, field, read⟩ := payable.amount
  have value : numberOf other (payload.field "amount") = some t.amount.number := by
    rw [field, numberOf, read, Option.some_or]
    rfl
  rw [withdrawal] at all
  refine ⟨_, all.1, ?_⟩
  rw [ProviderRequest.asked, value, Option.map_some, Option.map_some, minorUnits_number]

/-- The amount that is asked for is that of the transaction. -/
theorem Payable.moves (payable : Payable d t adapter payload) :
    (adapter.process other payload t.type).All (·.Moves t.amount) ↔
      (adapter = .stripe → t.type = .withdrawal → 100 ∣ t.amount.units) := by
  constructor
  · rintro all rfl withdrawal
    obtain ⟨request, moves, asked⟩ := payable.asks_cents withdrawal all
    exact (sent_eq t.amount).mp (Option.some.inj (moves _ asked))
  · refine fun whole => payable.asks (fun request none value asked => ?_)
      fun type request some value asked => ?_
    · rw [none] at asked
      cases asked
    · rw [some] at asked
      obtain rfl := Option.some.inj asked
      cases adapter with
      | stripe => exact congrArg _ ((sent_eq t.amount).mpr (whole rfl (type rfl)))
      | paypal => rfl

/-- No more is asked for than the transaction moves, and never nothing. -/
theorem Payable.within (payable : Payable d t adapter payload) :
    (adapter.process other payload t.type).All (·.Within t.amount) ↔
      (adapter = .stripe → t.type = .withdrawal → 50 ≤ t.amount.units ∧
        t.amount.units % 100 < 50) := by
  constructor
  · rintro all rfl withdrawal
    obtain ⟨request, within, asked⟩ := payable.asks_cents withdrawal all
    obtain ⟨value, same, positive, below⟩ := within _ asked
    obtain rfl := Option.some.inj same
    exact ⟨(sent_pos t.amount).mp positive, (sent_le t.amount).mp below⟩
  · refine fun bounds =>
      payable.asks (fun request none value asked => ?_) fun type request some value asked => ?_
    · rw [none] at asked
      cases asked
    · rw [some] at asked
      obtain rfl := Option.some.inj asked
      cases adapter with
      | stripe =>
        obtain ⟨positive, below⟩ := bounds rfl (type rfl)
        exact ⟨_, rfl, (sent_pos t.amount).mpr positive, (sent_le t.amount).mpr below⟩
      | paypal => exact ⟨_, rfl, t.amount.number_pos, le_rfl⟩

end Requests

/-- The intent of a deposit is for the amount of the request. -/
theorem intent_moves {userId : UserId} {dto : CreateDepositIntentDto} {wallet : Option Wallet}
    {customerId : Option String} {intent : Api DepositIntentResult}
    (created : PaymentService.createDepositIntent userId dto wallet customerId = .pure intent) :
    intent.All (·.Moves dto.amount) ↔ (dto.provider = .stripe → 100 ∣ dto.amount.units) := by
  obtain ⟨row, rfl⟩ : ∃ row, wallet = some row := by
    cases wallet with
    | none => cases created
    | some row => exact ⟨row, rfl⟩
  simp only [PaymentService.createDepositIntent, WalletRepository.assertActive,
    WalletRepository.assertCurrencyMatch, Program.bind_def, Program.pure_def] at created
  split at created
  · cases created
  split at created
  · cases created
  cases provider : dto.provider with
  | stripe =>
    rw [provider] at created
    cases created
    constructor
    · exact fun all _ => (sent_eq dto.amount).mp (Option.some.inj (all.1
        _ (by rw [ProviderRequest.asked, Option.map_some, minorUnits_number])))
    · refine fun whole => ⟨fun asked same => ?_, fun reply => by cases reply <;> trivial⟩
      rw [ProviderRequest.asked, Option.map_some, minorUnits_number] at same
      exact (Option.some.inj same).symm.trans (congrArg _ ((sent_eq dto.amount).mpr (whole rfl)))
  | paypal =>
    rw [provider] at created
    cases created
    exact ⟨fun _ => nofun, fun _ => ⟨fun _ => nofun, fun reply => by cases reply <;> trivial⟩⟩

/-- An initiation moves the wallets by the amount that it asks for. -/
theorem Reachable.opens {w w' : State} (run : Reachable w) (taken : system.Step anything w w')
    {c : TxCall} {o : Opening}
    (committed : w'.shared.log = w.shared.log ++ [c]) (asks : c.opening = some o) :
    ∃ t, w'.shared.db.transactions.get? t.id = some t ∧ t.amount = o.amount ∧
      Moves w.shared.db.wallets w'.shared.db.wallets t.effect := by
  rcases happens_of_reaches run taken with ⟨ext, shared, _⟩ |
    ⟨pid, made, value, d', _, ready, _, shared, body⟩
  · rw [shared] at committed
    simp at committed
  · rw [shared] at committed ⊢
    obtain rfl : made = c := by simpa [Shared.commit] using committed
    obtain ⟨other, sender, receiver, entries, event, asks', opened, _⟩ :=
      body _ (ready.initiates (by rw [asks]; rfl))
    obtain rfl := Option.some.inj (asks'.symm.trans asks)
    refine ⟨other.row sender receiver, ?_, rfl, opened.wallets⟩
    rw [show (w.shared.commit made d').db = d' from rfl, opened.transactions,
      Table.get?_put, if_pos rfl]

/-- The wallets move by the amounts of the transactions, which are those of the requests. The
provider is asked for
the same amount exactly where Stripe is not asked for one with more than two decimals. -/
theorem amount_sent {w : State} (run : Reachable w) (other : String → Option ℚ) :
    Balanced w.shared.db.transactions Transaction.effect w.shared.db.balance ∧
    (∀ w', system.Step anything w w' →
      ∀ c o, w'.shared.log = w.shared.log ++ [c] → c.opening = some o →
      ∃ t, w'.shared.db.transactions.get? t.id = some t ∧ t.amount = o.amount ∧
        Moves w.shared.db.wallets w'.shared.db.wallets t.effect) ∧
    (∀ event ∈ w.shared.db.outboxEvents.rows, ∀ t,
      w.shared.db.transactions.get? event.transactionId = some t →
      ∀ adapter : Adapter, t.provider = some adapter.toProvider →
        ((adapter.process other event.payload t.type).All (·.Moves t.amount) ↔
          (adapter = .stripe → t.type = .withdrawal → 100 ∣ t.amount.units)) ∧
        ((adapter.process other event.payload t.type).All (·.Within t.amount) ↔
          (adapter = .stripe → t.type = .withdrawal → 50 ≤ t.amount.units ∧
            t.amount.units % 100 < 50))) ∧
    ∀ userId dto wallet customerId intent,
      PaymentService.createDepositIntent userId dto wallet customerId = .pure intent →
      (intent.All (·.Moves dto.amount) ↔ (dto.provider = .stripe → 100 ∣ dto.amount.units)) := by
  refine ⟨run.books.balances, fun w' taken c o => run.opens taken,
    fun event member t found adapter provider => ?_, fun _ _ _ _ _ => intent_moves⟩
  have payable := run.payable member found provider
  exact ⟨payable.moves, payable.within⟩

/-- Alice's payout to PayPal is for the five dollars that it takes from her wallet. -/
theorem amount_sent_paypal : ∃ w, Reachable w ∧ ∃ event ∈ w.shared.db.outboxEvents.rows,
    ∃ t, w.shared.db.transactions.get? event.transactionId = some t ∧ t.type = .withdrawal ∧
      (Adapter.process (fun _ => none) .paypal event.payload t.type).All (·.Moves t.amount) := by
  obtain ⟨w, run, event, member, t, _, found, withdrawal, provider⟩ := Schedule.reachable
    (settlesOnce ++ [links "alice", payouts "alice"])
    (fun σ => ∃ event ∈ σ.db.outboxEvents.rows, ∃ t ∈ σ.db.transactions.rows,
      σ.db.transactions.get? event.transactionId = some t ∧
      t.type = .withdrawal ∧ t.provider = some .paypal) (by decide +kernel)
  have moves := ((amount_sent run fun _ => none).2.2.1 event member t found .paypal provider).1
  exact ⟨w, run, event, member, t, found, withdrawal, moves.mpr nofun⟩

def Schedule.connects (name : String) : Request × List (Turn Choice) :=
  (.setConnectAccountId ("user-" ++ name) (some "account"), [.commit])

/-- A cent and a half to a Stripe account. -/
def Schedule.cashes (name : String) : Request × List (Turn Choice) :=
  (.createPayout ("user-" ++ name) ⟨.stripe, ⟨150, by decide⟩, .usd, "payout-" ++ name, none⟩,
    initiates ("payout-" ++ name))

/-- Stripe is asked for two cents. -/
theorem amount_rounded : ¬ ∀ w, Reachable w → ∀ event ∈ w.shared.db.outboxEvents.rows, ∀ t,
    w.shared.db.transactions.get? event.transactionId = some t → ∀ adapter : Adapter,
      t.provider = some adapter.toProvider →
      ∀ other, (adapter.process other event.payload t.type).All (·.Moves t.amount) := by
  intro claim
  obtain ⟨w, run, event, member, t, _, found, withdrawal, provider, units⟩ := Schedule.reachable
    (settlesOnce ++ [connects "alice", cashes "alice"])
    (fun σ => ∃ event ∈ σ.db.outboxEvents.rows, ∃ t ∈ σ.db.transactions.rows,
      σ.db.transactions.get? event.transactionId = some t ∧
      t.type = .withdrawal ∧ t.provider = some .stripe ∧ t.amount.units = 150) (by decide +kernel)
  have exact_ := (run.payable member found
    (show t.provider = some SupportedProvider.stripe.toProvider from provider)).moves.mp
    (claim w run event member t found .stripe provider fun _ => none) rfl withdrawal
  rw [units] at exact_
  revert exact_
  decide

end PaymentWallet
