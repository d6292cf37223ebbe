import PaymentWallet.Accounting.Commits

/-! Every commit keeps the books: it touches the records of one transaction, and
moves balances and ledger by what that transaction changed. -/
namespace PaymentWallet
open Foundation

theorem LedgerEntry.net_eq (e : LedgerEntry) (id : WalletId) : e.posting.net id =
    (if e.walletId = id ∧ e.direction = .credit then e.amount.decimal else 0) -
      if e.walletId = id ∧ e.direction = .debit then e.amount.decimal else 0 := by
  by_cases here : e.walletId = id <;> cases direction : e.direction <;>
    simp [Posting.net, LedgerEntry.posting, here, direction]

/-- The ledger balance is the sum of the postings. -/
theorem DB.net_eq (d : DB) (id : WalletId) :
    d.net id = (d.ledgerEntries.rows.map fun e => e.posting.net id).sum := by
  simp only [DB.net, ← sum_ite, LedgerEntry.net_eq]
  generalize d.ledgerEntries.rows = rows
  induction rows with
  | nil => rfl
  | cons e rest ih =>
    simp only [List.map_cons, List.sum_cons, ← ih]
    ring

namespace Transaction
variable {t t' : Transaction}

theorem shaped_congr (same : t'.terms = t.terms) : t'.Shaped ↔ t.Shaped := by
  simp only [terms, Prod.mk.injEq] at same
  simp only [Shaped, same]

theorem parties_congr (same : t'.terms = t.terms) : t'.parties = t.parties := by
  simp only [terms, Prod.mk.injEq] at same
  simp only [parties, same]

/-- A transaction holds nothing in the wallets it does not name. -/
theorem effect_stranger {id : WalletId} (stranger : id ∉ t.parties) (b : Bucket) :
    t.effect id b = 0 := by
  simp only [parties, List.mem_append, Option.mem_toList, not_or] at stranger
  cases b <;> cases type : t.type <;> cases status : t.status <;>
    simp [effect, type, status, received, sent, stranger]

theorem received_nonneg (t : Transaction) (id : WalletId) : 0 ≤ t.received id := by
  unfold received
  split
  · exact Int.natCast_nonneg _
  · exact Int.le_refl 0

theorem sent_nonneg (t : Transaction) (id : WalletId) : 0 ≤ t.sent id := by
  unfold sent
  split
  · exact Int.natCast_nonneg _
  · exact Int.le_refl 0

end Transaction

/-- Other transactions, and what a dossier says of them, are not affected. -/
theorem Dossier.frame (dossier : Dossier d t)
    (wallets : ∀ id wallet, d.wallets.get? id = some wallet →
      ∃ wallet', d'.wallets.get? id = some wallet' ∧ wallet'.currency = wallet.currency)
    (entries : d'.entriesOf t.id = d.entriesOf t.id) (logs : d'.logsOf t.id = d.logsOf t.id)
    (events : d'.eventsOf t.id = d.eventsOf t.id) : Dossier d' t where
  shaped := dossier.shaped
  staged := dossier.staged
  known id member := by
    obtain ⟨wallet, present, currency⟩ := dossier.known id member
    obtain ⟨wallet', present', same⟩ := wallets id wallet present
    exact ⟨wallet', present', same.trans currency⟩
  entries := by rw [entries, dossier.entries]
  logs := by rw [logs, dossier.logs]
  event := by rw [events]; exact dossier.event

section Frames
variable {d d' : DB} {id : TransactionId}

theorem entriesOf_append (appended : d'.ledgerEntries.rows = d.ledgerEntries.rows ++ entries)
    (posted : ∀ e ∈ entries, e.transactionId = id) :
    d'.entriesOf id = d.entriesOf id ++ entries ∧
      ∀ other ≠ id, d'.entriesOf other = d.entriesOf other := by
  simp only [DB.entriesOf, appended, List.filter_append]
  refine ⟨congrArg _ (List.filter_eq_self.mpr fun e member => ?_), fun other different => ?_⟩
  · simpa using posted e member
  · rw [List.append_right_eq_self, List.filter_eq_nil_iff]
    intro e member
    simpa [posted e member] using different.symm

theorem logsOf_put (put : d'.paymentLogs = d.paymentLogs.put log)
    (fresh : d.paymentLogs.get? log.id = none) :
    d'.logsOf log.transactionId = d.logsOf log.transactionId ++ [log] ∧
      ∀ other ≠ log.transactionId, d'.logsOf other = d.logsOf other := by
  simp only [DB.logsOf, put, Table.filter_put_fresh _ fresh]
  refine ⟨by simp, fun other different => ?_⟩
  simp [different.symm]

theorem eventsOf_put_fresh (put : d'.outboxEvents = d.outboxEvents.put event)
    (fresh : d.outboxEvents.get? event.id = none) :
    d'.eventsOf event.transactionId = d.eventsOf event.transactionId ++ [event] ∧
      ∀ other ≠ event.transactionId, d'.eventsOf other = d.eventsOf other := by
  simp only [DB.eventsOf, put, Table.filter_put_fresh _ fresh]
  refine ⟨by simp, fun other different => ?_⟩
  simp [different.symm]

/-- Writing an event replaces it among the events of its transaction. -/
theorem eventsOf_put_old (put : d'.outboxEvents = d.outboxEvents.put event)
    (found : d.outboxEvents.get? event.id = some old)
    (same : event.transactionId = old.transactionId) :
    (∀ e, d.eventsOf event.transactionId = [e] → e = old ∧
      d'.eventsOf event.transactionId = [event]) ∧
      ∀ other ≠ event.transactionId, d'.eventsOf other = d.eventsOf other := by
  have mapped : ∀ of, d'.eventsOf of =
      (d.eventsOf of).map fun other => if other.id = event.id then event else other := by
    intro of
    simp only [DB.eventsOf, put]
    exact Table.filter_put_old _ found (by simp [same])
  obtain ⟨member, keyEq⟩ := Table.get?_some.mp found
  refine ⟨fun e single => ?_, fun other different => ?_⟩
  · obtain rfl := DB.event_only single member same.symm
    rw [mapped, single]
    exact ⟨rfl, by simp [keyEq]⟩
  · rw [mapped]
    conv_rhs => rw [← List.map_id (d.eventsOf other)]
    apply List.map_congr_left
    intro row listed
    have of := List.mem_filter.mp listed
    have distinct : row.id ≠ event.id := by
      intro clash
      have equal := Table.eq_of_key of.1 member (clash.trans keyEq.symm)
      exact different (by simpa [equal, same, eq_comm] using of.2)
    rw [if_neg distinct, id]

theorem entriesOf_unknown (consistent : Consistent d) (fresh : d.transactions.get? id = none) :
    d.entriesOf id = [] := by
  refine List.filter_eq_nil_iff.mpr fun e member => ?_
  have known := consistent.entries_known e member
  rintro of
  simp_all

theorem logsOf_unknown (consistent : Consistent d) (fresh : d.transactions.get? id = none) :
    d.logsOf id = [] := by
  refine List.filter_eq_nil_iff.mpr fun log member => ?_
  have known := consistent.logs_known log member
  rintro of
  simp_all

theorem eventsOf_unknown (consistent : Consistent d) (fresh : d.transactions.get? id = none) :
    d.eventsOf id = [] := by
  refine List.filter_eq_nil_iff.mpr fun e member => ?_
  have known := consistent.events_known e member
  rintro of
  simp_all

end Frames

section Balances
variable {d d' : DB}

/-- Balances move with the wallets; nothing moves where there is no wallet. -/
theorem Moves.balance {δ : WalletId → Bucket → Decimal} (moves : Moves d.wallets d'.wallets δ)
    (known : ∀ id, d.wallets.get? id = none → ∀ b, δ id b = 0) (id : WalletId) :
    d'.balance id = d.balance id + δ id := by
  unfold DB.balance
  rw [moves id]
  cases found : d.wallets.get? id with
  | none => exact funext fun b => by simp [known id found b]
  | some wallet => exact funext fun b => by simp

theorem Moves.currency {δ : WalletId → Bucket → Decimal} (moves : Moves d.wallets d'.wallets δ)
    (id : WalletId) (wallet : Wallet) (found : d.wallets.get? id = some wallet) :
    ∃ wallet', d'.wallets.get? id = some wallet' ∧ wallet'.currency = wallet.currency :=
  ⟨_, moves.found found, rfl⟩

theorem net_append {t : Transaction}
    (appended : d'.ledgerEntries.rows = d.ledgerEntries.rows ++ entries)
    (image : entries.map (·.posting) = t.image) (id : WalletId) :
    d'.net id = d.net id + t.net id := by
  rw [DB.net_eq, DB.net_eq, appended, List.map_append, List.sum_append, Transaction.net,
    ← image, List.map_map]
  rfl

end Balances

/-- A transaction row that was just written. -/
theorem Opening.staged {c : TxCall} {o : Opening} (asks : c.opening = some o)
    (sender receiver : Option WalletId) :
    (o.row sender receiver).Staged := by
  have internal : o.type = .transfer → o.provider = .internal := by
    cases c <;> simp only [TxCall.opening, Option.some.injEq,
      reduceCtorEq] at asks <;> subst asks <;> simp
  by_cases type : o.type = .transfer
  · have provider := internal type
    constructor <;> simp [Opening.row, Transaction.direct, type, provider]
  · constructor <;> simp [Opening.row, type]

theorem Opening.outcome (o : Opening) (sender receiver : Option WalletId) :
    (o.row sender receiver).outcome = [] := by
  by_cases type : o.type = .transfer <;> simp [Transaction.outcome, Opening.row, type]

section Opened
variable {d d' : DB} {t : Transaction} {entries : List LedgerEntry} {event : OutboxEvent}

theorem Opened.dossier (opened : Opened d t entries event d') (consistent : Consistent d)
    (staged : t.Staged) (outcome : t.outcome = []) : Dossier d' t where
  shaped := opened.shaped
  staged := staged
  known id member := by
    obtain ⟨wallet, present, _, currency⟩ := opened.parties id member
    exact ⟨_, opened.wallets.found present, currency⟩
  entries := by
    rw [(entriesOf_append opened.ledgerEntries opened.posted).1,
      entriesOf_unknown consistent opened.fresh, List.nil_append, opened.image]
  logs := by
    have none := logsOf_unknown consistent opened.fresh
    simp only [DB.logsOf, opened.paymentLogs] at none ⊢
    simp [none, outcome]
  event := by
    have added := (eventsOf_put_fresh opened.outboxEvents opened.newEvent).1
    rw [opened.event_of.1, eventsOf_unknown consistent opened.fresh, List.nil_append] at added
    exact ⟨event, added, opened.event_of.2, fun closed => absurd outcome closed⟩

theorem Opened.consistent (opened : Opened d t entries event d') (consistent : Consistent d)
    (staged : t.Staged) (outcome : t.outcome = []) : Consistent d' where
  nonneg wallet member := by
    obtain ⟨old, present, moved⟩ := opened.wallets.source (Table.get?_of_mem member)
    rw [moved]
    exact opened.covered _ old present (consistent.nonneg old (Table.get?_mem present))
  balances := by
    rw [opened.transactions]
    refine consistent.balances.put fun id => ?_
    rw [difference_fresh opened.fresh]
    refine opened.wallets.balance (fun other absent =>
      Transaction.effect_stranger fun party => ?_) id
    obtain ⟨wallet, present, _⟩ := opened.parties other party
    simp [absent] at present
  ledger := by
    rw [opened.transactions]
    refine consistent.ledger.put fun id => ?_
    rw [difference_fresh opened.fresh]
    exact net_append opened.ledgerEntries opened.image id
  dossiers other member := by
    rw [opened.transactions] at member
    rcases Table.mem_put.mp member with rfl | ⟨present, different⟩
    · exact opened.dossier consistent staged outcome
    · refine (consistent.dossiers other present).frame (opened.wallets.currency)
        ((entriesOf_append opened.ledgerEntries opened.posted).2 _ different) ?_
        ((eventsOf_put_fresh opened.outboxEvents opened.newEvent).2
          _ (opened.event_of.1 ▸ different))
      simp only [DB.logsOf, opened.paymentLogs]
  entries_known e member := by
    rw [opened.ledgerEntries] at member
    rw [opened.transactions, Table.get?_put]
    rcases List.mem_append.mp member with old | new
    · split
      · rfl
      · exact consistent.entries_known e old
    · rw [if_pos (opened.posted e new)]
      rfl
  logs_known log member := by
    rw [opened.paymentLogs] at member
    rw [opened.transactions, Table.get?_put]
    split
    · rfl
    · exact consistent.logs_known log member
  events_known e member := by
    rw [opened.outboxEvents] at member
    rw [opened.transactions, Table.get?_put]
    rcases Table.mem_put.mp member with rfl | ⟨old, _⟩
    · rw [if_pos opened.event_of.1]
      rfl
    · split
      · rfl
      · exact consistent.events_known e old

end Opened

section Closed
variable {d d' : DB} {t t' : Transaction} {entries : List LedgerEntry} {log : PaymentLog}
  {event : OutboxEvent}

/-- Before it is closed, a transaction has no entries, no log and one event. -/
theorem Closed.before (closed : Closed d t t' entries log event d') (consistent : Consistent d) :
    d.entriesOf t.id = [] ∧ d.logsOf t.id = [] ∧
      ∃ e, d.eventsOf t.id = [e] ∧ e.eventType = t.type.event := by
  have dossier := consistent.dossiers t (Table.get?_mem closed.found)
  have image : t.image = [] := by
    simp [Transaction.image, Transaction.posts, closed.initiated, closed.adapted]
  have outcome : t.outcome = [] := by simp [Transaction.outcome, closed.initiated]
  obtain ⟨e, single, type, _⟩ := dossier.event
  exact ⟨List.map_eq_nil_iff.mp (image ▸ dossier.entries),
    List.map_eq_nil_iff.mp (outcome ▸ dossier.logs), e, single, type⟩

theorem Closed.event_id (closed : Closed d t t' entries log event d') :
    event.transactionId = t.id := by
  obtain ⟨old, _, of, terms, _⟩ := closed.event_of
  exact (congrArg Prod.fst terms).trans of

/-- The event is replaced by its delivered copy, and no other event changes. -/
theorem Closed.events (closed : Closed d t t' entries log event d') (consistent : Consistent d) :
    d'.eventsOf t.id = [event] ∧ event.eventType = t.type.event ∧
      ∀ other ≠ t.id, d'.eventsOf other = d.eventsOf other := by
  obtain ⟨_, _, e, single, type⟩ := closed.before consistent
  obtain ⟨old, found, _, terms, _⟩ := closed.event_of
  obtain ⟨replaced, others⟩ := eventsOf_put_old closed.outboxEvents found (congrArg Prod.fst terms)
  rw [closed.event_id] at replaced others
  obtain ⟨rfl, single'⟩ := replaced _ single
  exact ⟨single', (congrArg (·.2.1) terms).trans type, others⟩

theorem Closed.dossier (closed : Closed d t t' entries log event d') (consistent : Consistent d) :
    Dossier d' t' := by
  have dossier := consistent.dossiers t (Table.get?_mem closed.found)
  have terms := closed.terms
  simp only [Transaction.terms, Prod.mk.injEq] at terms
  obtain ⟨type, _, currency, provider, _, _⟩ := terms
  obtain ⟨unposted, unlogged, _⟩ := closed.before consistent
  obtain ⟨events, eventType, _⟩ := closed.events consistent
  refine ⟨(Transaction.shaped_congr closed.terms).mpr dossier.shaped,
    ⟨?_, ?_, ?_, .inr closed.status,
    closed.settledAt⟩, fun id member => ?_, ?_, ?_, event, ?_, ?_, fun _ => closed.delivered⟩
  · rw [provider]
    exact dossier.staged.provider
  · exact fun transfer => absurd (type.symm.trans transfer) closed.type
  · intro _ direct
    exact absurd (by simpa only [Transaction.direct, provider] using direct) closed.adapted
  · obtain ⟨wallet, present, same⟩ :=
      dossier.known id (Transaction.parties_congr closed.terms ▸ member)
    exact ⟨_, closed.wallets.found present, same.trans currency.symm⟩
  · rw [closed.id, (entriesOf_append closed.ledgerEntries closed.posted).1, unposted,
      List.nil_append, closed.image]
  · have added := (logsOf_put closed.paymentLogs closed.newLog).1
    rw [closed.log_of.1, unlogged, List.nil_append] at added
    have finished : t'.status ≠ .initiated := by rcases closed.status with h | h <;> simp [h]
    simp [closed.id, added, Transaction.outcome, type, closed.type, finished, closed.log_of.2]
  · rw [closed.id, events]
  · rw [eventType, type]

/-- Closing never takes from the available balance. -/
theorem Closed.gains (closed : Closed d t t' entries log event d') (id : WalletId) :
    0 ≤ t'.effect id .available - t.effect id .available := by
  have terms := closed.terms
  simp only [Transaction.terms, Prod.mk.injEq] at terms
  obtain ⟨type, amount, _, _, sender, receiver⟩ := terms
  have received := t.received_nonneg id
  have sent := t.sent_nonneg id
  have same : t'.received id = t.received id ∧ t'.sent id = t.sent id := by
    simp only [Transaction.received, Transaction.sent, amount, sender, receiver, and_self]
  cases kind : t.type with
  | transfer => exact absurd kind closed.type
  | deposit | withdrawal =>
    rcases closed.status with status | status <;>
      simp [Transaction.effect, type, kind, status, closed.initiated, same, received, sent]

theorem Closed.consistent (closed : Closed d t t' entries log event d')
    (consistent : Consistent d) : Consistent d' := by
  have dossier := consistent.dossiers t (Table.get?_mem closed.found)
  have found : d.transactions.get? t'.id = some t := closed.id ▸ closed.found
  have known : ∀ id, (d.transactions.get? id).isSome → (d'.transactions.get? id).isSome := by
    intro id present
    rw [closed.transactions, Table.get?_put]
    split
    · rfl
    · exact present
  have here : (d.transactions.get? t.id).isSome := by simp [closed.found]
  have stranger : ∀ id, d.wallets.get? id = none → id ∉ t.parties := by
    intro id absent party
    obtain ⟨wallet, present, _⟩ := dossier.known id party
    simp [absent] at present
  constructor
  · intro wallet member
    obtain ⟨old, present, moved⟩ := closed.wallets.source (Table.get?_of_mem member)
    rw [moved]
    exact add_nonneg (consistent.nonneg old (Table.get?_mem present)) (closed.gains _)
  · rw [closed.transactions]
    refine consistent.balances.put fun id => ?_
    rw [difference_old found]
    refine closed.wallets.balance (fun other absent b => ?_) id
    rw [Transaction.effect_stranger (stranger other absent), Transaction.effect_stranger, sub_zero]
    exact Transaction.parties_congr closed.terms ▸ stranger other absent
  · rw [closed.transactions]
    refine consistent.ledger.put fun id => ?_
    have image : t.image = [] := by
      simp [Transaction.image, Transaction.posts, closed.initiated, closed.adapted]
    rw [difference_old found, Transaction.net.eq_def t, image, List.map_nil, List.sum_nil, sub_zero]
    exact net_append closed.ledgerEntries closed.image id
  · intro other member
    rw [closed.transactions] at member
    rcases Table.mem_put.mp member with rfl | ⟨present, different⟩
    · exact closed.dossier consistent
    · rw [closed.id] at different
      refine (consistent.dossiers other present).frame closed.wallets.currency
        ((entriesOf_append closed.ledgerEntries closed.posted).2 _ different)
        ((logsOf_put closed.paymentLogs closed.newLog).2 _ (closed.log_of.1 ▸ different))
        ((closed.events consistent).2.2 _ different)
  · intro e member
    rw [closed.ledgerEntries] at member
    rcases List.mem_append.mp member with old | new
    · exact known _ (consistent.entries_known e old)
    · exact known _ (closed.posted e new ▸ here)
  · intro log' member
    rw [closed.paymentLogs] at member
    rcases Table.mem_put.mp member with rfl | ⟨old, _⟩
    · exact known _ (closed.log_of.1 ▸ here)
    · exact known _ (consistent.logs_known log' old)
  · intro e member
    rw [closed.outboxEvents] at member
    rcases Table.mem_put.mp member with rfl | ⟨old, _⟩
    · exact known _ (closed.event_id ▸ here)
    · exact known _ (consistent.events_known e old)

end Closed

section Others
variable {d d' : DB}

theorem Registered.consistent {user : User} {wallet : Wallet}
    (registered : Registered d user wallet d') (consistent : Consistent d) : Consistent d' := by
  obtain ⟨rfl, _, fresh, _, empty⟩ := registered
  have kept : ∀ id w, d.wallets.get? id = some w → (d.wallets.put wallet).get? id = some w := by
    intro id w present
    have different : id ≠ wallet.id := by
      rintro rfl
      simp [fresh] at present
    simpa [different] using present
  constructor
  · intro w member
    rcases Table.mem_put.mp member with rfl | ⟨old, _⟩
    · exact (empty .available).ge
    · exact consistent.nonneg w old
  · intro id
    rw [← consistent.balances id]
    funext b
    simp only [DB.balance, Table.get?_put]
    split
    · subst id
      simp [fresh, empty]
    · rfl
  · exact consistent.ledger
  · intro t member
    refine (consistent.dossiers t member).frame (fun id w present => ?_) rfl rfl rfl
    exact ⟨w, kept id w present, rfl⟩
  · exact consistent.entries_known
  · exact consistent.logs_known
  · exact consistent.events_known

/-- An event keeps its dossier when its terms and a delivery mark stay. -/
theorem Touched.consistent {id : EventId} {change : OutboxEvent → OutboxEvent}
    (touched : Touched d id change d') (consistent : Consistent d)
    (same : ∀ e, (change e).id = e.id) (terms : ∀ e, (change e).terms = e.terms)
    (delivered : ∀ e, e.deliveredAt.isSome → (change e).deliveredAt.isSome) : Consistent d' := by
  obtain ⟨old, found, rfl⟩ := touched
  have present : d.outboxEvents.get? (change old).id = some old :=
    Table.get?_of_same found (same old)
  have of : (change old).transactionId = old.transactionId := congrArg Prod.fst (terms old)
  have put : ({ d with outboxEvents := d.outboxEvents.put (change old) } : DB).outboxEvents =
      d.outboxEvents.put (change old) := rfl
  obtain ⟨here, elsewhere⟩ := eventsOf_put_old put present of
  refine ⟨consistent.nonneg, consistent.balances, consistent.ledger, fun t member => ?_,
    consistent.entries_known, consistent.logs_known, fun e member => ?_⟩
  · have dossier := consistent.dossiers t member
    by_cases mine : t.id = (change old).transactionId
    · obtain ⟨e, single, type, closed⟩ := dossier.event
      obtain ⟨rfl, single'⟩ := here _ (mine ▸ single)
      exact ⟨dossier.shaped, dossier.staged, dossier.known, dossier.entries, dossier.logs, change e,
        mine ▸ single', (congrArg (·.2.1) (terms e)).trans type,
          fun done => delivered e (closed done)⟩
    · exact dossier.frame (fun _ w present => ⟨w, present, rfl⟩) rfl rfl (elsewhere _ mine)
  · rcases Table.mem_put.mp member with rfl | ⟨known, _⟩
    · exact of ▸ consistent.events_known old (Table.get?_mem found)
    · exact consistent.events_known e known

theorem Patched.consistent {id : UserId} {patch : UserPatch} (patched : Patched d id patch d')
    (consistent : Consistent d) : Consistent d' := by
  obtain ⟨old, tokens, _, rfl⟩ := patched
  exact ⟨consistent.nonneg, consistent.balances, consistent.ledger, fun t member =>
    (consistent.dossiers t member).frame (fun _ w present => ⟨w, present, rfl⟩) rfl rfl rfl,
    consistent.entries_known, consistent.logs_known, consistent.events_known⟩

theorem TxCall.Initiated.consistent {c : TxCall} (initiated : c.Initiated d d')
    (consistent : Consistent d) : Consistent d' := by
  obtain ⟨o, sender, receiver, entries, event, asks, opened, _⟩ := initiated
  exact opened.consistent consistent (Opening.staged asks sender receiver)
    (o.outcome sender receiver)

theorem TransactionContext.Finished.consistent {txCtx : TransactionContext}
    {status : TransactionStatus}
    (finished : txCtx.Finished status d d') (consistent : Consistent d) : Consistent d' := by
  obtain ⟨t, t', entries, log, event, _, _, closed⟩ := finished
  exact closed.consistent consistent

/-- The books are kept by every commit. -/
theorem TxCall.Effect.consistent {c : TxCall} (effect : c.Effect d d') (consistent : Consistent d) :
    Consistent d' := by
  cases c with
  | createUserWithWallet =>
    obtain ⟨user, wallet, registered⟩ := effect
    exact registered.consistent consistent
  | deposit | withdraw | transfer | confirmDeposit | createPayout =>
    exact TxCall.Initiated.consistent effect consistent
  | settle | fail => exact TransactionContext.Finished.consistent effect consistent
  | markDelivered =>
    exact Touched.consistent effect consistent (fun _ => rfl) (fun _ => rfl) fun _ _ => rfl
  | incrementRetry =>
    exact Touched.consistent effect consistent (fun _ => rfl) (fun _ => rfl) fun _ delivered =>
      delivered
  | closeAccount | updateStatusOrRole | setConnectAccountId | setPaypalEmail =>
    exact Patched.consistent effect consistent

end Others

theorem Consistent.empty : Consistent DB.empty where
  nonneg := by simp [DB.empty]
  balances := .empty
  ledger := fun _ => rfl
  dossiers := by simp [DB.empty]
  entries_known := by simp [DB.empty]
  logs_known := by simp [DB.empty]
  events_known := by simp [DB.empty]

end PaymentWallet
