import PaymentWallet.Accounting.Commits
import PaymentWallet.Accounting.Delivery

/-! What is on record stays there. Ledger entries and payment logs are appended and never
touched again; of a transaction only the outcome is filled in, of an event only the mark and
the number of retries, and of a wallet only the balances. -/
namespace PaymentWallet
open Foundation

/-- The columns of a transaction that its outcome does not touch. -/
def Transaction.origin (t : Transaction) := (t.idempotencyKey, t.terms, t.description, t.createdAt)

/-- The columns of an event that its delivery does not touch. -/
def OutboxEvent.origin (e : OutboxEvent) := (e.terms, e.createdAt)

/-- The row stays, with an outcome if it had none. -/
def Transaction.Outlasts (t t' : Transaction) : Prop :=
  t'.origin = t.origin ∧
    (t' = t ∨ t.status = .initiated ∧ (t'.status = .settled ∨ t'.status = .failed))

/-- The row stays; retries are counted up, and a mark stays. -/
def OutboxEvent.Outlasts (e e' : OutboxEvent) : Prop :=
  e'.origin = e.origin ∧ e.retryCount ≤ e'.retryCount ∧
    (e.deliveredAt.isSome → e'.deliveredAt.isSome)

structure DB.Extends (d d' : DB) : Prop where
  users : ∀ id, (d.users.get? id).isSome → (d'.users.get? id).isSome
  wallets : Table.Keeps (fun wallet =>
    (wallet.userId, wallet.currency, wallet.status, wallet.createdAt)) d.wallets d'.wallets
  transactions : ∀ id t, d.transactions.get? id = some t →
    ∃ t', d'.transactions.get? id = some t' ∧ t.Outlasts t'
  ledgerEntries : d.ledgerEntries.rows <+: d'.ledgerEntries.rows
  paymentLogs : d.paymentLogs.rows <+: d'.paymentLogs.rows
  outboxEvents : ∀ id e, d.outboxEvents.get? id = some e →
    ∃ e', d'.outboxEvents.get? id = some e' ∧ e.Outlasts e'

theorem Transaction.Outlasts.refl (t : Transaction) : t.Outlasts t := ⟨rfl, .inl rfl⟩

theorem Transaction.Outlasts.trans {a b c : Transaction} (first : a.Outlasts b)
    (second : b.Outlasts c) : a.Outlasts c := by
  refine ⟨second.1.trans first.1, ?_⟩
  rcases first.2 with rfl | ⟨initiated, closed⟩
  · exact second.2
  · rcases second.2 with rfl | ⟨initiated', _⟩
    · exact .inr ⟨initiated, closed⟩
    · simp [initiated'] at closed

theorem OutboxEvent.Outlasts.refl (e : OutboxEvent) : e.Outlasts e :=
  ⟨rfl, Nat.le_refl _, fun mark => mark⟩

theorem OutboxEvent.Outlasts.trans {a b c : OutboxEvent} (first : a.Outlasts b)
    (second : b.Outlasts c) : a.Outlasts c :=
  ⟨second.1.trans first.1, first.2.1.trans second.2.1, second.2.2 ∘ first.2.2⟩

namespace DB.Extends
variable {d d' d'' : DB}

theorem refl (d : DB) : d.Extends d where
  users _ known := known
  wallets := .refl
  transactions _ t found := ⟨t, found, .refl t⟩
  ledgerEntries := List.prefix_refl _
  paymentLogs := List.prefix_refl _
  outboxEvents _ e found := ⟨e, found, .refl e⟩

theorem trans (first : d.Extends d') (second : d'.Extends d'') : d.Extends d'' where
  users id known := second.users id (first.users id known)
  wallets := first.wallets.trans second.wallets
  transactions id t found := by
    obtain ⟨t', found', outlasts⟩ := first.transactions id t found
    obtain ⟨t'', found'', outlasts'⟩ := second.transactions id t' found'
    exact ⟨t'', found'', outlasts.trans outlasts'⟩
  ledgerEntries := first.ledgerEntries.trans second.ledgerEntries
  paymentLogs := first.paymentLogs.trans second.paymentLogs
  outboxEvents id e found := by
    obtain ⟨e', found', outlasts⟩ := first.outboxEvents id e found
    obtain ⟨e'', found'', outlasts'⟩ := second.outboxEvents id e' found'
    exact ⟨e'', found'', outlasts.trans outlasts'⟩

end DB.Extends

section Rows
variable {R K : Type} {key : R → K} [DecidableEq K] {t : Table R K key} {row old : R}

theorem prefix_put (fresh : t.get? (key row) = none) : t.rows <+: (t.put row).rows := by
  rw [Table.rows_put_fresh fresh]
  exact List.prefix_append _ _

/-- A written row outlasts the one it replaces, and the others stay. -/
theorem outlasts_put {outlasts : R → R → Prop} (refl : ∀ other, outlasts other other)
    (replaced : ∀ old, t.get? (key row) = some old → outlasts old row) (k : K) (other : R)
    (found : t.get? k = some other) :
    ∃ other', (t.put row).get? k = some other' ∧ outlasts other other' := by
  rw [Table.get?_put]
  split
  · rename_i same
    subst same
    exact ⟨row, rfl, replaced other found⟩
  · exact ⟨other, found, refl other⟩

theorem Moves.keeps {t t' : Table Wallet WalletId Wallet.id} {δ : WalletId → Bucket → Decimal}
    (moves : Moves t t' δ) :
    Table.Keeps (fun wallet =>
      (wallet.userId, wallet.currency, wallet.status, wallet.createdAt)) t t' :=
  fun _ _ found => ⟨_, moves.found found, rfl⟩

end Rows

section Commits
variable {d d' : DB} {c : TxCall} {σ : SharedState}

theorem TxCall.Initiated.extends (initiated : c.Initiated d d') : d.Extends d' := by
  obtain ⟨o, sender, receiver, entries, event, _, opened, _⟩ := initiated
  constructor
  · exact fun id known => opened.users ▸ known
  · exact opened.wallets.keeps
  · rw [opened.transactions]
    apply outlasts_put .refl
    intro old found
    cases opened.fresh.symm.trans found
  · exact opened.ledgerEntries ▸ List.prefix_append _ _
  · exact opened.paymentLogs ▸ List.prefix_refl _
  · rw [opened.outboxEvents]
    apply outlasts_put .refl
    intro old found
    cases opened.newEvent.symm.trans found

theorem Touched.extends {id : EventId} {change : OutboxEvent → OutboxEvent}
    (touched : Touched d id change d')
    (outlasts : ∀ e, e.id = (change e).id ∧ e.Outlasts (change e)) : d.Extends d' := by
  obtain ⟨event, found, rfl⟩ := touched
  refine { DB.Extends.refl d with outboxEvents := outlasts_put .refl fun old there => ?_ }
  rw [← (outlasts event).1, Table.get?_key found, found] at there
  cases there
  exact (outlasts event).2

theorem Patched.extends {id : UserId} {patch : UserPatch} (patched : Patched d id patch d') :
    d.Extends d' := by
  obtain ⟨old, tokens, found, rfl⟩ := patched
  refine { DB.Extends.refl d with users := fun other known => ?_ }
  simp only [Table.get?_put]
  split
  · rfl
  · exact known

/-- A closed transaction was open, and kept its origin. -/
theorem TransactionContext.Finished.extends {txCtx : TransactionContext}
    {status : TransactionStatus} {eventId : EventId} {now : DateTime}
    {patch : TransactionPatch} (finished : txCtx.Finished status d d')
    (delivered : Delivered d eventId now txCtx.id patch d') :
    d.Extends d' := by
  obtain ⟨t, t', entries, log, event, same, _, closed⟩ := finished
  obtain ⟨old, there, patched⟩ := delivered.transaction
  obtain ⟨before, listed, marked⟩ := delivered.event
  obtain rfl : t = old := Option.some.inj ((same ▸ closed.found).symm.trans there)
  have rows : d.transactions.put t' = d.transactions.put (patch.apply t) :=
    closed.transactions.symm.trans patched
  obtain rfl : t' = patch.apply t := by
    have found := congrArg (·.get? t.id) rows
    simpa [closed.id, TransactionPatch.apply] using found
  constructor
  · intro id known
    rw [← Option.isSome_map (f := User.status), closed.users id, Option.isSome_map]
    exact known
  · exact closed.wallets.keeps
  · rw [closed.transactions]
    apply outlasts_put .refl
    intro other found
    cases closed.found.symm.trans found
    exact ⟨rfl, .inr ⟨closed.initiated, closed.status⟩⟩
  · exact closed.ledgerEntries ▸ List.prefix_append _ _
  · exact closed.paymentLogs ▸ prefix_put closed.newLog
  · rw [marked]
    apply outlasts_put .refl
    intro other found
    obtain rfl := Table.get?_key listed
    cases listed.symm.trans found
    exact ⟨rfl, Nat.le_refl _, fun _ => rfl⟩

/-- Every commit extends what is on record. -/
theorem TxCall.Ready.extends (ready : c.Ready σ) (books : Consistent σ.db) :
    Ensures σ.db c.code σ.db fun _ d' => σ.db.Extends d' := by
  have ensures := ready.ensures books
  cases c with
  | createUserWithWallet =>
    apply ensures.mono
    intro _ d' effect
    obtain ⟨user, wallet, rfl, newUser, newWallet, _⟩ := effect
    refine { DB.Extends.refl σ.db with
      users := fun id known => ?_, wallets := .put_fresh newWallet }
    simp only [Table.get?_put]
    split
    · rfl
    · exact known
  | deposit | withdraw | transfer | confirmDeposit | createPayout =>
    exact (ready.initiates rfl).mono fun _ _ initiated => initiated.extends
  | settle =>
    exact Ensures.mono (Engine.wp_and ensures settle_delivered) fun _ _ both =>
      both.1.extends both.2
  | fail =>
    exact Ensures.mono (Engine.wp_and ensures fail_delivered) fun _ _ both =>
      both.1.extends both.2
  | markDelivered =>
    exact ensures.mono fun _ _ touched =>
      touched.extends fun e => ⟨rfl, rfl, Nat.le_refl _, fun _ => rfl⟩
  | incrementRetry =>
    exact ensures.mono fun _ _ touched =>
      touched.extends fun e => ⟨rfl, rfl, Nat.le_succ _, fun mark => mark⟩
  | closeAccount | updateStatusOrRole | setConnectAccountId | setPaypalEmail =>
    exact ensures.mono fun _ _ patched => patched.extends

end Commits
end PaymentWallet
