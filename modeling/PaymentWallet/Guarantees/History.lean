import PaymentWallet.Accounting.Records
import PaymentWallet.Accounting.Snapshots
import PaymentWallet.Guarantees.Settlement
import PaymentWallet.Service.Invariants

/-! What can be found out afterwards. The records of a run are never rewritten, the ledger
tells what the balances were, and the payment logs tell what the providers answered. -/
namespace PaymentWallet
open Foundation Schedule

variable {w w' : State}

theorem Reachable.extends (run : Reachable w) (later : system.Reaches anything w w') :
    w.shared.db.Extends w'.shared.db := by
  induction later with
  | refl => exact .refl _
  | tail earlier last ih =>
    have before := run.trans earlier
    apply ih.trans
    rcases happens_of_reaches before last with ⟨ext, shared, _⟩ |
      ⟨_, c, value, d', _, ready, _, shared, body⟩
    · exact shared ▸ .refl _
    · exact shared ▸ body _ (ready.extends (Reachable.books before))

/-- Whatever happens later, the records stay. -/
theorem history_kept (run : Reachable w) (later : system.Reaches anything w w') :
    w.shared.db.Extends w'.shared.db :=
  run.extends later

theorem history_kept_settled : ∃ w w', Reachable w ∧ system.Reaches anything w w' ∧
    w.shared.db.ledgerEntries.rows.length < w'.shared.db.ledgerEntries.rows.length ∧
      w.shared.db.Extends w'.shared.db := by
  obtain ⟨stage, stage', run, later, longer⟩ :=
    Script.continues (.history [registers "alice", deposits "alice"])
    (.serve 2 (polls (.ok charged) [.answer {}, .commit]))
    (fun stage stage' => stage.shared.db.ledgerEntries.rows.length <
      stage'.shared.db.ledgerEntries.rows.length) (by decide +kernel)
  exact ⟨stage.world, stage'.world, run, later, longer, history_kept run later⟩

/-- The step between the two states writes the entry. -/
structure Writes (e : LedgerEntry) (w w' : State) : Prop where
  reached : Reachable w
  step : system.Step anything w w'
  new : e ∉ w.shared.db.ledgerEntries.rows
  member : e ∈ w'.shared.db.ledgerEntries.rows

/-- An entry was written in one step. Whichever writes it, it says then what its wallet
holds, and stays, so no later step writes it again. -/
structure WrittenOnce (e : LedgerEntry) (w : State) : Prop where
  written : ∃ w₁ w₂, Writes e w₁ w₂ ∧ system.Reaches anything w₂ w
  current : ∀ w₁ w₂, Writes e w₁ w₂ → e.Current w₂.shared.db
  stays : ∀ w₁ w₂, Writes e w₁ w₂ → ∀ w₃, system.Reaches anything w₂ w₃ →
    e ∈ w₃.shared.db.ledgerEntries.rows

section Entries
variable {e : LedgerEntry}

theorem Writes.current (writes : Writes e w w') : e.Current w'.shared.db := by
  have member := writes.member
  rcases happens_of_reaches writes.reached writes.step with ⟨ext, shared, _⟩ |
    ⟨_, c, value, d', _, ready, _, shared, body⟩
  · rw [shared] at member
    exact absurd member writes.new
  · have dated := body _ (ready.dated (Reachable.books writes.reached))
    rw [shared] at member ⊢
    exact (dated e member).resolve_left writes.new

theorem Writes.stays (writes : Writes e w w') {w₃ : State}
    (later : system.Reaches anything w' w₃) : e ∈ w₃.shared.db.ledgerEntries.rows :=
  (Reachable.extends (writes.reached.tail writes.step) later).ledgerEntries.subset writes.member

/-- Before an entry there is a step that writes it. -/
theorem Reachable.written (run : Reachable w) (member : e ∈ w.shared.db.ledgerEntries.rows) :
    ∃ w₁ w₂, Writes e w₁ w₂ ∧ system.Reaches anything w₂ w := by
  induction run with
  | refl => cases member
  | @tail w w' earlier last ih =>
    by_cases before : e ∈ w.shared.db.ledgerEntries.rows
    · obtain ⟨w₁, w₂, writes, later⟩ := ih before
      exact ⟨w₁, w₂, writes, later.tail last⟩
    · exact ⟨w, w', ⟨earlier, last, before, member⟩, .refl⟩

end Entries

/-- The ledger is a history of balances. -/
theorem balances_recorded (run : Reachable w) :
    ∀ e ∈ w.shared.db.ledgerEntries.rows, WrittenOnce e w :=
  fun _ member => ⟨run.written member, fun _ _ writes => writes.current,
    fun _ _ writes _ later => writes.stays later⟩

theorem balances_recorded_settled :
    ∃ w, Reachable w ∧ (∃ e ∈ w.shared.db.ledgerEntries.rows, e.balanceAfter = 50000) ∧
    ∀ e ∈ w.shared.db.ledgerEntries.rows, WrittenOnce e w := by
  obtain ⟨w, run, entered⟩ := Schedule.reachable
    [registers "alice", deposits "alice", polls (.ok charged) [.answer {}, .commit]]
    (fun σ => ∃ e ∈ σ.db.ledgerEntries.rows, e.balanceAfter = 50000) (by decide +kernel)
  exact ⟨w, run, entered, balances_recorded run⟩

/-- The log repeats the answer of a call, and has the status that follows from it. -/
structure PaymentLog.Repeats (log : PaymentLog) (call : ProviderCall) : Prop where
  transactionId : log.transactionId = call.transactionId
  provider : log.provider = call.adapter.toProvider
  providerRef : log.providerRef = call.result.providerRef
  payload : log.payload = call.result.rawResponse
  status : log.status = if call.result.success then .settled else .failed

/-- Every payment log repeats a call that was made. -/
def Backed (σ : SharedState) : Prop :=
  ∀ log ∈ σ.db.paymentLogs.rows, ∃ call ∈ σ.ext.calls, log.Repeats call

section Backing
variable {σ : SharedState} {d' : DB} {c : TxCall} {txCtx : TransactionContext} {eventId : EventId}
  {result : ProviderResult} {status : TransactionStatus}

/-- A reported answer is that of a call made for the transaction, by its provider. -/
theorem PaymentLog.Reports.repeats {log : PaymentLog} (reports : log.Reports txCtx result status)
    (matched : txCtx.Matches eventId σ.db)
    (asked : ∀ call ∈ σ.ext.calls, call.Asked σ.db) {call : ProviderCall}
    (made : call ∈ σ.ext.calls)
    (for_ : call.transactionId = txCtx.id) (answered : call.result = result)
    (follows : status = if call.result.success then .settled else .failed) : log.Repeats call := by
  obtain ⟨t, found, terms⟩ := matched.row
  obtain ⟨_, _, t', _, _, _, found', provider, _⟩ := asked call made
  rw [for_] at found'
  cases found.symm.trans found'
  simp only [Transaction.terms, Prod.mk.injEq] at terms
  have same : some log.provider =
    some call.adapter.toProvider := by rw [← reports.provider, ← provider, terms.2.2.2.1]
  exact ⟨reports.transactionId.trans for_.symm, Option.some.inj same,
    answered ▸ reports.providerRef, answered ▸ reports.payload, reports.status.trans follows⟩

theorem Backed.new (backed : Backed σ) (reported : Reported txCtx result status σ.db d')
    (matched : txCtx.Matches eventId σ.db)
    (asked : ∀ call ∈ σ.ext.calls, call.Asked σ.db) {call : ProviderCall}
    (made : call ∈ σ.ext.calls)
    (for_ : call.transactionId = txCtx.id) (answered : call.result = result)
    (follows : status = if call.result.success then .settled else .failed) :
    Backed (σ.commit c d') := by
  intro log member
  rcases reported log member with before | reports
  · exact backed log before
  · exact ⟨call, made, reports.repeats matched asked made for_ answered follows⟩

theorem Backed.commit (backed : Backed σ) (ready : c.Ready σ) (books : Consistent σ.db)
    (cites : c.Cites σ.ext.calls)
    (asked : ∀ call ∈ σ.ext.calls, call.Asked σ.db) :
    Ensures σ.db c.code σ.db fun _ d' => Backed (σ.commit c d') := by
  have ensures := ready.ensures books
  cases c with
  | settle =>
    obtain ⟨call, made, for_, answered, success⟩ := cites
    refine Ensures.mono settle_reported fun _ _ reported =>
      backed.new reported ready asked made for_ answered ?_
    rw [answered, success, if_pos rfl]
  | fail =>
    obtain ⟨call, made, for_, answered, failure⟩ := cites
    refine Ensures.mono fail_reported fun _ _ reported =>
      backed.new reported ready asked made for_ answered ?_
    rw [answered, failure, if_neg Bool.false_ne_true]
  | createUserWithWallet =>
    apply ensures.mono
    intro _ _ effect
    obtain ⟨user, wallet, rfl, _⟩ := effect
    exact backed
  | deposit | withdraw | transfer | confirmDeposit | createPayout =>
    apply ensures.mono
    intro _ _ effect log member
    obtain ⟨o, sender, receiver, entries, event, _, opened, _⟩ := effect
    exact backed log (opened.paymentLogs ▸ member)
  | markDelivered | incrementRetry =>
    apply ensures.mono
    intro _ _ effect
    obtain ⟨old, _, rfl⟩ := effect
    exact backed
  | closeAccount | updateStatusOrRole | setConnectAccountId | setPaypalEmail =>
    apply ensures.mono
    intro _ _ effect
    obtain ⟨old, tokens, _, rfl⟩ := effect
    exact backed

end Backing

theorem Reachable.backed (run : Reachable w) : Backed w.shared := by
  refine invariant_of_reaches (F := Backed) ?_ ?_ ?_ run
  · intro log member
    cases member
  · intro σ ext backed more log member
    obtain ⟨call, made, repeats⟩ := backed log member
    exact ⟨call, more call made, repeats⟩
  · intro σ pid c backed answerable _ ready cites
    have commits := backed.commit ready answerable.1.books cites answerable.2
    exact commits.mono fun _ _ still _ _ => still

/-- The one log of the transaction repeats a call made for it: to its provider, for its type
and with the payload of its event. -/
def Testified (σ : SharedState) (t : Transaction) : Prop :=
  ∃ log event, σ.db.logsOf t.id = [log] ∧ σ.db.eventsOf t.id = [event] ∧
    ∃ call ∈ σ.ext.calls, log.Repeats call ∧
    call.transactionId = t.id ∧ t.provider = some call.adapter.toProvider ∧ call.type = t.type ∧
      call.payload = event.payload ∧
    t.status = if call.result.success then .settled else .failed

/-- Nothing is settled or failed but on the word of the provider that was asked. -/
theorem outcomes_testified (run : Reachable w) :
    ∀ t ∈ w.shared.db.transactions.rows, t.type ≠ .transfer → t.status ≠ .initiated →
    Testified w.shared t := by
  intro t member type closed
  have once := run.sound.settled_once member type
  have finished := once.status.resolve_left closed
  obtain ⟨log, logs, logged⟩ := once.logged.mp finished
  obtain ⟨event, events, _⟩ := once.delivered finished
  have listed : log ∈ w.shared.db.paymentLogs.rows ∧ log.transactionId = t.id := by
    have inside : log ∈ w.shared.db.logsOf t.id := by simp [logs]
    simpa [DB.logsOf] using inside
  obtain ⟨call, made, repeats⟩ := run.backed log listed.1
  have for_ : call.transactionId = t.id := repeats.transactionId.symm.trans listed.2
  obtain ⟨id, other, t', found, of, payload, there, provider, kind⟩ :=
    (accountable_of_reaches run).inv.2 call made
  rw [for_] at of there
  cases (Table.get?_of_mem member).symm.trans there
  obtain rfl := DB.event_only events (Table.get?_mem found) of
  exact ⟨log, other, logs, events, call, made, repeats, for_, provider, kind.symm, payload.symm,
    logged.symm.trans repeats.status⟩

theorem outcomes_testified_settled : ∃ w, Reachable w ∧ ∃ t ∈ w.shared.db.transactions.rows,
    t.status = .settled ∧ Testified w.shared t := by
  obtain ⟨w, run, t, member, type, settled⟩ := Schedule.reachable
    [registers "alice", deposits "alice", polls (.ok charged) [.answer {}, .commit]]
    (fun σ => ∃ t ∈ σ.db.transactions.rows, t.type ≠ .transfer ∧
      t.status = .settled) (by decide +kernel)
  exact ⟨w, run, t, member, settled, outcomes_testified run t member type (by simp [settled])⟩

end PaymentWallet
