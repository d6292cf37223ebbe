import PaymentWallet.Guarantees.Payloads

/-! What backs a Stripe deposit. A client names an intent, an amount and a currency on its
own, and the adapter looks only at the status of the intent: an intent backs a deposit
where the request names one that was made for it and that no other deposit names. -/
namespace PaymentWallet
open Foundation Schedule

/-- The intent was made for this amount, in this currency, by this user. -/
def PaymentIntent.Backs (intent : PaymentIntent) (amount : Amount) (currency : Currency)
    (userId : UserId) : Prop :=
  intent.amount * 100 = amount.units ∧ intent.currency = currency.name.toLower ∧
    intent.metadata.field "userId" = some (.string userId)

instance (intent : PaymentIntent) (amount : Amount) (currency : Currency) (userId : UserId) :
    Decidable (intent.Backs amount currency userId) := inferInstanceAs (Decidable (_ ∧ _ ∧ _))

/-- The intents at Stripe, by their ids. -/
abbrev Intents := String → Option PaymentIntent

/-- Stripe retrieves an intent as it was made; its status may have changed. -/
def Exchange.Honest (answers : Exchange) (intents : Intents) : Prop :=
  ∀ id intent, answers (.retrieveIntent id) = .ok intent → ∃ made, intents id = some made ∧
    intent.amount = made.amount ∧ intent.currency = made.currency ∧ intent.metadata = made.metadata

def Transaction.ViaStripe (t : Transaction) : Prop := t.provider = some .stripe ∧ t.type = .deposit

instance (t : Transaction) : Decidable t.ViaStripe := inferInstanceAs (Decidable (_ ∧ _))

/-- The event of the transaction names the intent. -/
def DB.Names (d : DB) (t : Transaction) (id : String) : Prop :=
  ∃ event ∈ d.outboxEvents.rows, event.transactionId = t.id ∧
    event.payload.field "paymentIntentId" = some (.string id)

instance (d : DB) (t : Transaction) (id : String) : Decidable (d.Names t id) :=
  inferInstanceAs (Decidable (∃ event ∈ d.outboxEvents.rows, _))

/-- The intent of a request was made for it, and no deposit names it that did not fail. -/
def ConfirmDepositDto.Own (dto : ConfirmDepositDto) (intents : Intents) (d : DB)
    (userId : UserId) : Prop :=
  dto.provider = .stripe → ∀ id ∈ dto.paymentIntentId,
    (∀ intent ∈ intents id, intent.Backs dto.amount dto.currency userId) ∧
      ∀ t ∈ d.transactions.rows, t.ViaStripe → t.status ≠ .failed → ¬ d.Names t id

instance (dto : ConfirmDepositDto) (intents : Intents) (d : DB) (userId : UserId) :
    Decidable (dto.Own intents d userId) :=
  inferInstanceAs (Decidable (_ → _))

/-- Deposits are confirmed with intents of their own. -/
def backed (intents : Intents) : Permit := fun σ label =>
  match label with
  | .commit _ (.confirmDeposit userId dto _) | .lost _ (.confirmDeposit userId dto _) =>
    dto.Own intents σ.db userId
  | _ => True

instance (intents : Intents) (σ : SharedState) (label : Label TxCall Outside Request Exception) :
    Decidable (backed intents σ label) := by
  rcases label with _ | _ | ⟨pid, c⟩ | ⟨pid, c⟩ | _ | _
  · exact isTrue trivial
  · exact isTrue trivial
  · unfold backed
    split <;> infer_instance
  · unfold backed
    split <;> infer_instance
  · exact isTrue trivial
  · exact isTrue trivial

/-- The intents that Stripe deposits name back them, and each backs one that did not fail. -/
structure Backing (intents : Intents) (d : DB) : Prop where
  matched : ∀ t ∈ d.transactions.rows, t.ViaStripe → ∀ id, d.Names t id → ∀ intent ∈ intents id,
    ∃ userId walletId, t.receiverWalletId = some walletId ∧ d.Owns userId walletId ∧
      intent.Backs t.amount t.currency userId
  single : ∀ t ∈ d.transactions.rows, ∀ t' ∈ d.transactions.rows, t.ViaStripe →
    t'.ViaStripe → t.status ≠ .failed →
    t'.status ≠ .failed → ∀ id, d.Names t id → d.Names t' id → t.id = t'.id

section Commits
variable {intents : Intents} {d d' : DB} {c : TxCall} {t : Transaction} {id : String}

/-- What a transaction named before, and nothing else, it names after a commit. -/
theorem DB.Names.back {old : Transaction} (names : d'.Names t id) (consistent : Consistent d)
    (consistent' : Consistent d') (keeps : d.Keeps d') (before : old ∈ d.transactions.rows)
    (same : old.id = t.id) : d.Names old id := by
  obtain ⟨event, listed, of, field⟩ := names
  obtain ⟨first, single, _⟩ := (consistent.dossiers old before).event
  obtain ⟨present, ofOld⟩ := DB.event_listed single
  obtain ⟨kept, found, terms⟩ := keeps.outboxEvents _ _ (Table.get?_of_mem present)
  have ofT : kept.transactionId = t.id := (congrArg Prod.fst terms).trans (ofOld.trans same)
  obtain rfl := consistent'.event_unique listed (Table.get?_mem found) (of.trans ofT.symm)
  have payload : event.payload = first.payload := congrArg (·.2.2) terms
  exact ⟨first, present, ofOld, payload ▸ field⟩

/-- A new deposit names an intent that backs it and that no deposit names which did not fail. -/
def Backs (intents : Intents) (d d' : DB) : Prop :=
  ∀ t, d'.transactions.get? t.id = some t → d.transactions.get? t.id = none → t.ViaStripe →
    ∀ id, d'.Names t id →
    (∀ intent ∈ intents id, ∃ userId walletId, t.receiverWalletId = some walletId ∧
      d'.Owns userId walletId ∧
      intent.Backs t.amount t.currency userId) ∧
    ∀ old ∈ d.transactions.rows, old.ViaStripe → old.status ≠ .failed → ¬ d.Names old id

theorem Transaction.ViaStripe.congr {old : Transaction} (via : t.ViaStripe)
    (same : t.terms = old.terms) : old.ViaStripe :=
  ⟨(congrArg (·.2.2.2.1) same).symm.trans via.1, (congrArg (·.1) same).symm.trans via.2⟩

/-- A deposit that has not failed had not failed before. -/
theorem TxCall.Effect.unfailed {old : Transaction} (effect : c.Effect d d')
    (before : old ∈ d.transactions.rows)
    (found : d'.transactions.get? old.id = some t) (unfailed : t.status ≠ .failed) :
    old.status ≠ .failed := by
  intro failed
  rcases effect.row (Table.get?_of_mem before) with kept | ⟨_, _, initiated, _⟩
  · obtain rfl := Option.some.inj (kept.symm.trans found)
    exact unfailed failed
  · simp [failed] at initiated

theorem Backing.commit (backing : Backing intents d) (consistent : Consistent d)
    (effect : c.Effect d d') (keeps : d.Keeps d')
    (backs : Backs intents d d') : Backing intents d' := by
  have consistent' := effect.consistent consistent
  have old : ∀ t ∈ d'.transactions.rows, t.ViaStripe → ∀ id, d'.Names t id →
      d.transactions.get? t.id = none ∨ ∃ old ∈ d.transactions.rows, old.id = t.id ∧
        t.terms = old.terms ∧ old.ViaStripe ∧
        d.Names old id ∧ (t.status ≠ .failed → old.status ≠ .failed) := by
    intro t member via id names
    cases before : d.transactions.get? t.id with
    | none => exact .inl rfl
    | some old =>
      have here := Table.get?_mem before
      have same : old.id = t.id := Table.get?_key before
      obtain ⟨t', found, terms⟩ := keeps.transactions _ _ before
      obtain rfl := Option.some.inj (found.symm.trans (Table.get?_of_mem member))
      exact .inr ⟨old, here, same, terms, via.congr terms,
        names.back consistent consistent' keeps here same,
        effect.unfailed here (same ▸ found)⟩
  constructor
  · intro t member via id names intent made
    rcases old t member via id names with fresh | ⟨before, here, _, terms, via', names', _⟩
    · exact (backs t (Table.get?_of_mem member) fresh via id names).1 intent made
    · obtain ⟨userId, walletId, receiver, owns, match_⟩ :=
        backing.matched before here via' id names' intent made
      simp only [Transaction.terms, Prod.mk.injEq] at terms
      obtain ⟨_, amount, currency, _, _, same⟩ := terms
      exact ⟨userId, walletId, same.trans receiver, owns.keeps keeps,
        by rw [amount, currency]; exact match_⟩
  · intro t member t' member' via via' unfailed unfailed' id names names'
    rcases old t member via id names with fresh | ⟨before, here, same, _, viaOld, namesOld, still⟩
    · rcases old t' member' via' id names' with fresh' | ⟨before', here', same', _,
        viaOld', namesOld', still'⟩
      · obtain ⟨o, sender, receiver, entries, event, _, opened, _⟩ :=
          effect.initiates (Table.get?_of_mem member) fresh
        have new : ∀ u ∈ d'.transactions.rows, d.transactions.get? u.id = none →
            u = o.row sender receiver := by
          intro u inRows unknown
          rw [opened.transactions] at inRows
          rcases Table.mem_put.mp inRows with new | ⟨known, _⟩
          · exact new
          · rw [Table.get?_of_mem known] at unknown
            cases unknown
        rw [new t member fresh, new t' member' fresh']
      · exact absurd namesOld'
          ((backs t (Table.get?_of_mem member) fresh via id names).2 before' here'
          viaOld' (still' unfailed'))
    · rcases old t' member' via' id names' with fresh' | ⟨before', here', same', _,
        viaOld', namesOld', still'⟩
      · exact absurd namesOld
          ((backs t' (Table.get?_of_mem member') fresh' via' id names').2 before here
          viaOld (still unfailed))
      · rw [← same, ← same']
        exact backing.single before here before' here' viaOld viaOld' (still unfailed)
          (still' unfailed') id namesOld namesOld'

/-- A new row of an adapter's deposit comes with its event. -/
theorem Backs.of_row {row : Transaction} {event : OutboxEvent} (consistent : Consistent d')
    (transactions : d'.transactions = d.transactions.put row)
    (events : d'.outboxEvents = d.outboxEvents.put event) (of : event.transactionId = row.id)
    (backs : row.ViaStripe → ∀ id, event.payload.field "paymentIntentId" = some (.string id) →
      (∀ intent ∈ intents id, ∃ userId walletId, row.receiverWalletId = some walletId ∧
        d'.Owns userId walletId ∧
        intent.Backs row.amount row.currency userId) ∧
      ∀ old ∈ d.transactions.rows, old.ViaStripe → old.status ≠ .failed → ¬ d.Names old id) :
        Backs intents d d' := by
  intro t found fresh via id names
  have member := Table.get?_mem found
  rw [transactions] at member
  rcases Table.mem_put.mp member with rfl | ⟨known, _⟩
  · obtain ⟨other, listed, ofOther, field⟩ := names
    have new : event ∈ d'.outboxEvents.rows := events ▸ Table.mem_put.mpr (.inl rfl)
    obtain rfl := consistent.event_unique listed new (ofOther.trans of.symm)
    exact backs via id field
  · rw [Table.get?_of_mem known] at fresh
    cases fresh

theorem confirmDeposit_backs {userId : UserId} {dto : ConfirmDepositDto} {draw : Draw}
    (own : dto.Own intents d userId) :
    Ensures d (PaymentService.confirmDepositTx userId dto draw) d fun _ d' => d.Keeps d' →
      Consistent d' → Backs intents d d' := by
  simp only [PaymentService.confirmDepositTx, WalletRepository.creditPending, Program.bind_def,
    Program.pure_def, Program.throw_def, ensures_bind, WalletRepository.ensures_findByUserId]
  rintro (_ | walletId) learned
  · trivial
  have owns := learned walletId rfl
  simp only [ensures_bind, WalletRepository.ensures_lockWallet,
    WalletRepository.ensures_assertActive, WalletRepository.ensures_assertCurrencyMatch,
    ensures_updateWallet, ensures_pure, ensures_createTransaction, ensures_createOutboxEvent]
  intro wallet found _ _ _ _ _ _ _ _ _ keeps consistent
  obtain rfl := Table.get?_key found
  refine .of_row consistent rfl rfl rfl fun via id field => ?_
  have stripe : dto.provider = .stripe :=
    SupportedProvider.toProvider_injective (Option.some.inj via.1)
  have cited : dto.paymentIntentId = some id := by
    cases cited : truthy dto.paymentIntentId with
    | none =>
      simp [PaymentService.depositFields, stripe, cited, TransactionService.outboxPayload,
        Record.field] at field
    | some other =>
      obtain rfl : other = id := by
        simpa [PaymentService.depositFields, stripe, cited, TransactionService.outboxPayload,
          Record.field] using field
      exact (Option.filter_eq_some_iff.mp cited).1
  obtain ⟨matched, unused⟩ := own stripe id cited
  exact ⟨fun intent made => ⟨userId, wallet.id, rfl, owns.keeps keeps, matched intent made⟩, unused⟩

/-- Nothing else opens a deposit with Stripe. -/
theorem TxCall.Effect.backs (effect : c.Effect d d')
    (others : ∀ userId dto draw, c ≠ .confirmDeposit userId dto draw) :
    Backs intents d d' := by
  intro t found fresh via
  obtain ⟨o, sender, receiver, entries, event, asks, opened, _⟩ := effect.initiates found fresh
  have row : t = o.row sender receiver := by
    rw [opened.transactions, Table.get?_put] at found
    split at found
    · exact (Option.some.inj found).symm
    · cases found.symm.trans fresh
  obtain ⟨provider, type⟩ := row ▸ via
  cases c with
  | confirmDeposit userId dto draw => exact absurd rfl (others userId dto draw)
  | deposit | withdraw | transfer => cases asks; cases provider
  | createPayout => cases asks; cases type
  | _ => cases asks

theorem backing_of_reaches {w : State}
    (run : system.Reaches (backed intents) (World.init DB.empty Ext.idle) w) :
    Backing intents w.shared.db := by
  have init : Backing intents DB.empty :=
    ⟨fun _ member => (by cases member), fun _ member => (by cases member)⟩
  refine invariant_of_reaches (F := fun σ => Backing intents σ.db) init (fun backing _ => backing)
    (@fun σ pid c backing answerable permitted ready _ => ?_) run
  have consistent := answerable.1.books
  by_cases confirms : ∃ userId dto draw, c = .confirmDeposit userId dto draw
  · obtain ⟨userId, dto, draw, rfl⟩ := confirms
    have own : dto.Own intents σ.db userId := permitted.elim id id
    refine (confirmDeposit_backs own).mono fun _ d' backs effect keeps => ?_
    exact backing.commit consistent effect keeps (backs keeps (effect.consistent consistent))
  · refine Ensures.mono (Engine.wp_trivial _) fun _ d' _ effect keeps => ?_
    exact backing.commit consistent effect keeps (effect.backs fun userId dto draw same =>
      confirms ⟨userId, dto, draw, same⟩)

end Commits

/-- The processor accepted the deposit: the call succeeded, and the event is delivered. -/
structure ProviderCall.Accepts (call : ProviderCall) (σ : SharedState)
    (t : Transaction) : Prop where
  made : call ∈ σ.ext.calls
  adapter : call.adapter = .stripe
  type : call.type = .deposit
  success : call.result.success
  found : σ.db.transactions.get? call.transactionId = some t
  delivered : σ.db.delivered t.id

/-- Each accepted deposit is backed by the intent that was retrieved for it, and this backs no
other that did not fail. -/
def Vouched (intents : Intents) (other : String → Option ℚ) (σ : SharedState) : Prop :=
  ∀ (call : ProviderCall) (t : Transaction), call.Accepts σ t →
    (∀ answers : Exchange, answers.Honest intents →
      (call.adapter.process other call.payload call.type).eval answers = .ok call.result →
      ∃ id intent, call.payload.field "paymentIntentId" = some (.string id) ∧
        answers (.retrieveIntent id) = .ok intent ∧
        ∃ userId walletId, t.receiverWalletId = some walletId ∧ σ.db.Owns userId walletId ∧
          intent.Backs t.amount t.currency userId) ∧
    (t.status ≠ .failed → ∀ (call' : ProviderCall) (t' : Transaction), call'.Accepts σ t' →
      t'.status ≠ .failed →
      call'.payload.field "paymentIntentId" = call.payload.field "paymentIntentId" → t'.id = t.id)

/-- An accepted deposit names the intent that its call retrieved. -/
theorem ProviderCall.Accepts.names {w : State} (run : Reachable w)
    {call : ProviderCall} {t : Transaction}
    (accepts : call.Accepts w.shared t) : t ∈ w.shared.db.transactions.rows ∧ t.ViaStripe ∧
      ∃ id, call.payload.field "paymentIntentId" = some (.string id) ∧ w.shared.db.Names t id := by
  obtain ⟨eventId, event, t', listed, of, payload, found, provider, type⟩ :=
    (accountable_of_reaches run).inv.2 call accepts.made
  obtain rfl := Option.some.inj (found.symm.trans accepts.found)
  have member := Table.get?_mem listed
  have stripe : t'.provider = some SupportedProvider.stripe.toProvider := accepts.adapter ▸ provider
  have deposit : t'.type = .deposit := type.trans accepts.type
  have payable := run.payable member (of ▸ found) stripe
  obtain ⟨id, field, _⟩ :=
    payable.fields "paymentIntentId" (by rw [deposit]; exact List.mem_singleton_self _)
  refine ⟨Table.get?_mem found, ⟨stripe, deposit⟩, id, payload ▸ field, event, member, ?_, field⟩
  exact of.trans (Table.get?_key found).symm

/-- Where deposits are confirmed with intents of their own, accepted deposits are backed by them. -/
theorem deposit_vouched {intents : Intents} {w : State}
    (run : system.Reaches (backed intents) (World.init DB.empty Ext.idle) w)
    (other : String → Option ℚ) : Vouched intents other w.shared := by
  have reached : Reachable w := run.mono fun _ => trivial
  have backing := backing_of_reaches run
  intro call t accepts
  obtain ⟨member, via, id, field, names⟩ := accepts.names reached
  constructor
  · intro answers honest returned
    rw [accepts.adapter, accepts.type] at returned
    obtain ⟨intent, retrieved, _⟩ := StripeProvider.confirmDeposit_success returned accepts.success
    rw [field] at retrieved
    obtain ⟨made, stored, amount, currency, metadata⟩ := honest _ _ retrieved
    obtain ⟨userId, walletId, receiver, owns, match_⟩ :=
      backing.matched t member via id names made stored
    refine ⟨id, intent, field, retrieved, userId, walletId, receiver, owns, ?_⟩
    rw [PaymentIntent.Backs, amount, currency, metadata]
    exact match_
  · intro unfailed call' t' accepts' unfailed' same
    obtain ⟨member', via', id', field', names'⟩ := accepts'.names reached
    obtain rfl : id' = id := by
      rw [field, field'] at same
      simpa using same
    exact backing.single t' member' t member via' via unfailed' unfailed id' names' names

/-- Five dollars that Alice pays. -/
def Schedule.paid : PaymentIntent :=
  ⟨"intent", none, "processing", 500, "usd", [("userId", .string "user-alice")]⟩

def Schedule.intents : Intents := fun id => if id = "intent" then some paid else none

/-- Five dollars from Stripe, for Alice's intent. -/
def Schedule.confirms (name : String) : Request × List (Turn Choice) :=
  (.confirmDeposit ("user-" ++ name) ⟨.stripe, ⟨50000, Amount.fiveDollars_pos⟩, .usd,
    "deposit-" ++ name, none, some "intent",
    none, none, by decide, by decide⟩, initiates ("deposit-" ++ name))

/-- The poll that accepts them. -/
def Schedule.accepts : Request × List (Turn Choice) :=
  polls (.ok ⟨true, true, some paid.id, none, StripeProvider.intentResponse paid⟩)
  [.answer {}, .commit]

instance (call : ProviderCall) (σ : SharedState) (t : Transaction) : Decidable (call.Accepts σ t) :=
  decidable_of_iff (call ∈ σ.ext.calls ∧ call.adapter = .stripe ∧ call.type = .deposit ∧
    call.result.success ∧
      σ.db.transactions.get? call.transactionId = some t ∧ σ.db.delivered t.id) (by
    constructor
    · rintro ⟨made, adapter, type, success, found, delivered⟩
      exact ⟨made, adapter, type, success, found, delivered⟩
    · rintro ⟨made, adapter, type, success, found, delivered⟩
      exact ⟨made, adapter, type, success, found, delivered⟩)

theorem deposit_vouched_accepted :
    ∃ w, system.Reaches (backed intents) (World.init DB.empty Ext.idle) w ∧
    (∃ (call : ProviderCall) (t : Transaction), call.Accepts w.shared t ∧ t.status ≠ .failed) ∧
      Vouched intents (fun _ => none) w.shared := by
  obtain ⟨w, run, call, _, t, _, accepts⟩ :=
    Schedule.reaches [registers "alice", confirms "alice", Schedule.accepts]
    (backed intents) DB.empty
    (fun σ => ∃ call ∈ σ.ext.calls,
      ∃ t ∈ σ.db.transactions.rows, call.Accepts σ t ∧ t.status ≠ .failed) (by decide +kernel)
  exact ⟨w, run, ⟨call, t, accepts⟩, deposit_vouched run _⟩

/-- Bob's deposit is accepted for Alice's intent, as hers was before. -/
theorem intent_shared : ¬ ∀ intents w, Reachable w → ∀ other, Vouched intents other w.shared := by
  intro claim
  obtain ⟨w, run, call, _, t, _, call', _, t', _, accepts, unfailed, accepts', unfailed', same,
    different⟩ := Schedule.reachable
    [registers "alice", registers "bob", confirms "alice", Schedule.accepts,
      confirms "bob", Schedule.accepts]
    (fun σ => ∃ call ∈ σ.ext.calls, ∃ t ∈ σ.db.transactions.rows,
      ∃ call' ∈ σ.ext.calls, ∃ t' ∈ σ.db.transactions.rows, call.Accepts σ t ∧
        t.status ≠ .failed ∧ call'.Accepts σ t' ∧ t'.status ≠ .failed ∧
        call'.payload.field "paymentIntentId" = call.payload.field "paymentIntentId" ∧
          t'.id ≠ t.id) (by decide +kernel)
  exact different ((claim intents w run (fun _ => none) call t accepts).2 unfailed call' t' accepts'
    unfailed' same)

end PaymentWallet
