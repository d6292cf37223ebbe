import PaymentWallet.Accounting.Ownership
import PaymentWallet.Providers.Adapters

/-! The payloads of the events for the providers. An initiation writes what the adapter of
its provider will read: the owner, the amount and the currency of the transaction, and the
field that this provider asks for. -/
namespace PaymentWallet
open Foundation

/-- The field is a text, and not an empty one. -/
def Record.Present (payload : Record) (name : String) : Prop :=
  ∃ text, payload.field name = some (.string text) ∧ text ≠ ""

/-- The fields that an adapter reads without an optional marker, besides the ids. -/
def SupportedProvider.reads : SupportedProvider → TransactionType → List String
  | .stripe, .deposit => ["paymentIntentId"]
  | .stripe, .withdrawal => ["amount", "currency", "stripeConnectedAccountId"]
  | .paypal, .deposit => ["nonce", "amount", "currency"]
  | .paypal, .withdrawal => ["amount", "currency", "paypalEmail"]
  | _, .transfer => []

/-- The payload tells what the transaction is, in the way that the adapter reads it. -/
structure Payable (d : DB) (t : Transaction) (adapter : Adapter) (payload : Record) : Prop where
  owner : ∃ userId walletId, payload.field "userId" = some (.string userId) ∧
    payload.field "walletId" = some (.string walletId) ∧ t.initiator = some walletId ∧
      d.Owns userId walletId
  amount : ∃ text, payload.field "amount" = some (.string text) ∧
    Numeral.read text.toList = some ((t.amount.units : ℚ) / 10000)
  currency : payload.field "currency" = some (.string t.currency.name)
  fields : ∀ name ∈ adapter.reads t.type, payload.Present name

theorem Payable.keeps {d d' : DB} {t t' : Transaction} {adapter : Adapter} {payload : Record}
    (payable : Payable d t adapter payload) (keeps : d.Keeps d') (same : t'.terms = t.terms) :
    Payable d' t' adapter payload := by
  obtain ⟨userId, walletId, user, wallet, initiator, owns⟩ := payable.owner
  have terms := same
  simp only [Transaction.terms, Prod.mk.injEq] at terms
  obtain ⟨type, amount, currency, _⟩ := terms
  exact ⟨⟨userId, walletId, user, wallet,
    (Transaction.initiator_congr same).trans initiator, owns.keeps keeps⟩,
    amount ▸ payable.amount, currency ▸ payable.currency, type ▸ payable.fields⟩

theorem Amount.toString_ne_empty (amount : Amount) : amount.toString ≠ "" := by
  intro empty
  have read := amount.read_toString
  rw [empty] at read
  cases read

theorem Currency.name_ne_empty (currency : Currency) :
    currency.name ≠ "" := by cases currency <;> decide

/-- What all payloads for the providers have in common. -/
theorem Payable.of_base {d : DB} {t : Transaction} {adapter : Adapter} {userId : UserId}
    {walletId : WalletId} {extra : Record}
    (initiator : t.initiator = some walletId) (owns : d.Owns userId walletId)
    (fields : ∀ name ∈ adapter.reads t.type, name ≠ "amount" → name ≠ "currency" →
      (TransactionService.outboxPayload walletId userId t.amount t.currency ++
        extra).Present name) :
    Payable d t adapter (TransactionService.outboxPayload walletId userId t.amount
      t.currency ++ extra) where
  owner := ⟨userId, walletId, rfl, rfl, initiator, owns⟩
  amount := ⟨_, rfl, t.amount.read_toString⟩
  currency := rfl
  fields name member := by
    by_cases amount : name = "amount"
    · exact amount ▸ ⟨_, rfl, t.amount.toString_ne_empty⟩
    by_cases currency : name = "currency"
    · exact currency ▸ ⟨_, rfl, t.currency.name_ne_empty⟩
    exact fields name member amount currency

/-- Each new transaction of an adapter has an event for it. -/
def Bills (d d' : DB) : Prop :=
  ∀ t, d'.transactions.get? t.id = some t → d.transactions.get? t.id = none →
    ∀ adapter : Adapter, t.provider = some adapter.toProvider →
      ∃ event ∈ d'.outboxEvents.rows, event.transactionId = t.id ∧
        Payable d' t adapter event.payload

section
variable {d d' : DB} {row : Transaction} {event : OutboxEvent} {adapter : Adapter}

theorem SupportedProvider.toProvider_injective {first second : SupportedProvider}
    (same : first.toProvider = second.toProvider) : first = second := by
  cases first <;> cases second <;> first | rfl | cases same

theorem Bills.of_row (transactions : d'.transactions = d.transactions.put row)
    (events : d'.outboxEvents = d.outboxEvents.put event) (of : event.transactionId = row.id)
    (provider : row.provider = some adapter.toProvider)
    (payable : Payable d' row adapter event.payload) : Bills d d' := by
  intro t found fresh other provided
  rw [transactions, Table.get?_put] at found
  split at found
  · obtain rfl := Option.some.inj found
    obtain rfl := SupportedProvider.toProvider_injective
      (Option.some.inj (provider.symm.trans provided))
    exact ⟨event, Table.get?_mem (k := event.id) (by rw [events, Table.get?_put, if_pos rfl]), of,
      payable⟩
  · cases found.symm.trans fresh

/-- Commits that leave the transactions of the adapters as they are. -/
theorem Bills.of_kept (kept : ∀ t, d'.transactions.get? t.id = some t →
    d.transactions.get? t.id = none →
    t.provider = some .internal) : Bills d d' := by
  intro t found fresh adapter provided
  exact absurd (Option.some.inj (provided.symm.trans (kept t found fresh)))
    adapter.toProvider_ne_internal

end

section Bodies
variable {d : DB} {userId : UserId} {walletId : WalletId} {draw : Draw}

theorem depositFields_present (dto : ConfirmDepositDto) :
    ∀ name ∈ dto.provider.reads .deposit, name ≠ "amount" → name ≠ "currency" →
    (TransactionService.outboxPayload walletId userId dto.amount dto.currency ++
      PaymentService.depositFields dto).Present name := by
  intro name member amount currency
  cases provider : dto.provider with
  | stripe =>
    obtain ⟨intent, some_⟩ := Option.isSome_iff_exists.mp (dto.intent_valid provider)
    simp only [provider, SupportedProvider.reads, List.mem_singleton] at member
    subst member
    refine ⟨intent, ?_, by simpa using (Option.filter_eq_some_iff.mp some_).2⟩
    simp [PaymentService.depositFields, provider, some_,
      TransactionService.outboxPayload, Record.field]
  | paypal =>
    obtain ⟨nonce, some_⟩ := Option.isSome_iff_exists.mp (dto.nonce_valid provider)
    simp only [provider, SupportedProvider.reads, List.mem_cons, amount, currency,
      List.not_mem_nil, or_false] at member
    subst member
    refine ⟨nonce, ?_, by simpa using (Option.filter_eq_some_iff.mp some_).2⟩
    simp [PaymentService.depositFields, provider, some_,
      TransactionService.outboxPayload, Record.field]

/-- The payee that a payout finds is not empty. -/
theorem ensures_payoutFields_present {provider : SupportedProvider} {v : DB}
    {Q : Record → DB → Prop}
    (holds : ∀ fields, (∀ base : Record, base.field "stripeConnectedAccountId" = none →
      base.field "paypalEmail" = none →
      ∀ name ∈ provider.reads .withdrawal, name ≠ "amount" → name ≠ "currency" →
        (base ++ fields).Present name) → Q fields v) :
    Ensures d (PaymentService.payoutFields userId provider) v Q := by
  have present : ∀ {base : Record} {name value : String}, base.field name = none → value ≠ "" →
      (base ++ [(name, .string value)] : Record).Present name := by
    intro base name value free nonempty
    refine ⟨value, ?_, nonempty⟩
    simp only [Record.field, Option.map_eq_none_iff] at free
    simp [Record.field, List.find?_append, free]
  cases provider with
  | stripe =>
    simp only [PaymentService.payoutFields, PaymentService.resolveStripeConnectAccount,
      StripeConnectRepository.findById, Program.bind_def, ensures_bind,
        ensures_read (s := .findConnectAccount _) rfl]
    intro reply _
    cases account : truthy reply.join with
    | none => trivial
    | some account_ =>
      refine holds _ fun base stripe _ name member amount currency => ?_
      simp only [SupportedProvider.reads, List.mem_cons, amount, currency, List.not_mem_nil,
        or_false, false_or] at member
      subst member
      exact present stripe (by simpa using (Option.filter_eq_some_iff.mp account).2)
  | paypal =>
    simp only [PaymentService.payoutFields, PaymentService.resolvePaypalEmail,
      PaymentRepository.findUserById, Program.bind_def, ensures_bind,
        ensures_read (s := .findPaypalEmail _) rfl]
    intro reply _
    cases reply with
    | none => trivial
    | some email =>
      dsimp only
      cases linked : truthy email with
      | none => trivial
      | some email_ =>
        refine holds _ fun base _ paypal name member amount currency => ?_
        simp only [SupportedProvider.reads, List.mem_cons, amount, currency, List.not_mem_nil,
          or_false, false_or] at member
        subst member
        exact present paypal (by simpa using (Option.filter_eq_some_iff.mp linked).2)

theorem confirmDeposit_bills {dto : ConfirmDepositDto} :
    Ensures d (PaymentService.confirmDepositTx userId dto draw) d fun _ d' =>
      d.Keeps d' → Bills d d' := by
  simp only [PaymentService.confirmDepositTx, WalletRepository.creditPending, Program.bind_def,
    Program.pure_def, Program.throw_def, ensures_bind, WalletRepository.ensures_findByUserId]
  rintro (_ | id) learned
  · trivial
  have owns := learned id rfl
  simp only [ensures_bind, WalletRepository.ensures_lockWallet,
    WalletRepository.ensures_assertActive, WalletRepository.ensures_assertCurrencyMatch,
    ensures_updateWallet, ensures_pure, ensures_createTransaction, ensures_createOutboxEvent]
  intro wallet found _ _ _ _ _ _ _ _ _ keeps
  obtain rfl := Table.get?_key found
  exact .of_row rfl rfl rfl rfl (.of_base rfl (owns.keeps keeps) (depositFields_present dto))

theorem createPayout_bills {dto : CreatePayoutDto} :
    Ensures d (PaymentService.createPayoutTx userId dto draw) d fun _ d' =>
      d.Keeps d' → Bills d d' := by
  simp only [PaymentService.createPayoutTx, WalletRepository.debitAvailableAndLock,
    Program.bind_def, Program.pure_def, Program.throw_def, ensures_bind,
    WalletRepository.ensures_findByUserId]
  rintro (_ | id) learned
  · trivial
  have owns := learned id rfl
  simp only [ensures_bind, WalletRepository.ensures_lockWallet,
    WalletRepository.ensures_assertActive, WalletRepository.ensures_assertCurrencyMatch]
  intro wallet found _ _
  obtain rfl := Table.get?_key found
  by_cases short : wallet.availableBalance < dto.amount.decimal
  · simp [short]
  simp only [if_neg short, ensures_bind, ensures_pure, ensures_updateWallet]
  intro _ _ _
  refine ensures_payoutFields_present fun fields present => ?_
  simp only [ensures_createTransaction, ensures_createOutboxEvent]
  intro _ _ _ _ keeps
  exact .of_row rfl rfl rfl rfl (.of_base rfl (owns.keeps keeps) (present _ rfl rfl))

end Bodies

section Commits
variable {d d' : DB} {c : TxCall}

/-- A row of a transaction that was not there before was initiated. -/
theorem TxCall.Effect.initiates (effect : c.Effect d d') {t : Transaction}
    (found : d'.transactions.get? t.id = some t)
    (fresh : d.transactions.get? t.id = none) : c.Initiated d d' := by
  have closed : ∀ {txCtx : TransactionContext} {status}, txCtx.Finished status d d' → False := by
    rintro txCtx status ⟨old, new, entries, log, event, _, _, closed⟩
    rw [closed.transactions, Table.get?_put, closed.id] at found
    split at found
    · rename_i same
      rw [same, closed.found] at fresh
      cases fresh
    · cases found.symm.trans fresh
  cases c with
  | deposit | withdraw | transfer | confirmDeposit | createPayout => exact effect
  | settle | fail => exact (closed effect).elim
  | createUserWithWallet =>
    obtain ⟨user, wallet, rfl, _⟩ := effect
    cases found.symm.trans fresh
  | markDelivered | incrementRetry =>
    obtain ⟨old, _, rfl⟩ := effect
    cases found.symm.trans fresh
  | closeAccount | updateStatusOrRole | setConnectAccountId | setPaypalEmail =>
    obtain ⟨old, tokens, _, rfl⟩ := effect
    cases found.symm.trans fresh

/-- Every commit bills the transactions that it creates. -/
theorem TxCall.Ready.bills {σ : SharedState} (ready : c.Ready σ) :
    Ensures σ.db c.code σ.db fun _ d' => c.Effect σ.db d' → σ.db.Keeps d' → Bills σ.db d' := by
  have direct : (∀ o, c.opening = some o → o.provider = .internal) →
      Ensures σ.db c.code σ.db fun _ d' => c.Effect σ.db d' → σ.db.Keeps d' → Bills σ.db d' := by
    intro internal
    refine Ensures.mono (Engine.wp_trivial c.code) fun _ d' _ effect _ =>
      .of_kept fun t found fresh => ?_
    obtain ⟨o, sender, receiver, entries, event, asks, opened, _⟩ := effect.initiates found fresh
    rw [opened.transactions, Table.get?_put] at found
    split at found
    · obtain rfl := Option.some.inj found
      exact congrArg some (internal o asks)
    · cases found.symm.trans fresh
  cases c with
  | confirmDeposit => exact Ensures.mono confirmDeposit_bills fun _ _ bills _ => bills
  | createPayout => exact Ensures.mono createPayout_bills fun _ _ bills _ => bills
  | deposit | withdraw | transfer => exact direct fun o asks => by cases asks; rfl
  | _ => exact direct fun o asks => by cases asks

end Commits
end PaymentWallet
