import PaymentWallet.Service.Processor

/-! Runs in which the Redis key excludes. Whoever calls a provider has the key until
the outcome is committed, and the outcome of a success is committed at the first
attempt. Nothing in the code makes all runs so; in these, the outbox and the
providers agree. -/
namespace PaymentWallet
open Foundation

/-- The call succeeded for this transaction. -/
def ProviderCall.pays (id : TransactionId) (call : ProviderCall) : Bool :=
  call.transactionId = id && call.result.success

/-- The outcome of every success is committed. -/
def Recorded (σ : SharedState) : Prop :=
  ∀ call ∈ σ.ext.calls, call.result.success → σ.db.delivered call.transactionId

/-- Providers are called and outcomes are committed with the key in hand; the key
goes when all successes are committed; committing a success does not fail; and
events are processed in batches only. -/
def exclusive : Permit := fun σ label =>
  match label with
  | .start _ (.processEvent _) => False
  | .outside pid (.process ..) => σ.ext.lock = some ⟨pid, true⟩
  | .outside _ .delLock | .drift => Recorded σ
  | .commit pid c | .lost pid c => c.concludes → σ.ext.lock = some ⟨pid, true⟩
  | .abort _ (.settle ..) _ | .abort _ (.markDelivered ..) _ => False
  | _ => True

section Outbox
variable {d d' : DB}

theorem Consistent.event_unique (consistent : Consistent d) {event other : OutboxEvent}
    (member : event ∈ d.outboxEvents.rows) (member' : other ∈ d.outboxEvents.rows)
    (same : event.transactionId = other.transactionId) : event = other := by
  obtain ⟨t, found⟩ := Option.isSome_iff_exists.mp (consistent.events_known event member)
  obtain ⟨single, listed, _⟩ := (consistent.dossiers t (Table.get?_mem found)).event
  have about : event.transactionId = t.id := (Table.get?_key found).symm
  have first := DB.event_only listed member about
  exact first.trans (DB.event_only listed member' (same.symm.trans about)).symm

theorem Consistent.failed_delivered (consistent : Consistent d) {t : Transaction}
    (member : t ∈ d.transactions.rows) (failed : t.status = .failed) : d.delivered t.id := by
  have dossier := consistent.dossiers t member
  have type : t.type ≠ .transfer := by
    intro transfer
    have settled := (dossier.staged.transfer transfer).1
    simp [failed] at settled
  obtain ⟨event, single, _, closed⟩ := dossier.event
  obtain ⟨listed, about⟩ := DB.event_listed single
  exact ⟨event, listed, about, closed (by simp [Transaction.outcome, type, failed])⟩

/-- The events of a page are undelivered, and no two are of one transaction. -/
theorem PendingEvents.fresh (consistent : Consistent d)
    (pending : PendingEvents d limit maxRetries events) :
    (∀ id ∈ events.map (·.transactionId), ¬ d.delivered id) ∧
      (events.map (·.transactionId)).Nodup := by
  constructor
  · rintro id listed ⟨other, member', rfl, delivered⟩
    obtain ⟨event, member, same⟩ := List.mem_map.mp listed
    obtain ⟨present, selectable⟩ := pending.row member
    obtain rfl := consistent.event_unique present member' same
    simp only [OutboxEvent.selectable, Bool.and_eq_true, Option.isNone_iff_eq_none] at selectable
    simp [selectable.1.1] at delivered
  · refine List.Nodup.map_on (fun event member other member' => ?_) ?_
    · exact consistent.event_unique (pending.row member).1 (pending.row member').1
    · obtain ⟨ordered, perm, _, rfl⟩ := pending
      have distinct : d.outboxEvents.rows.Nodup := d.outboxEvents.keys_nodup.of_map
      exact ((perm.nodup_iff.mpr (distinct.filter _)).sublist (List.take_sublist ..))

/-- Only the outcome of a call delivers, and only the event of its transaction. -/
theorem TxCall.Effect.delivers {c : TxCall} (effect : c.Effect d d') {id : TransactionId}
    (after : d'.delivered id) : d.delivered id ∨
      c.concludes ∧ ∀ call, c.Records call d → id = call.transactionId := by
  obtain ⟨event, member, rfl, delivered⟩ := after
  rcases effect.delivered (Table.get?_of_mem member) delivered with ⟨old, found, of, marked |
    before⟩ | ⟨closes, _⟩
  · obtain ⟨now, rfl⟩ := marked
    refine .inr ⟨rfl, fun call records => ?_⟩
    obtain ⟨_, row, present, same⟩ := records
    cases found.symm.trans present
    exact of.symm.trans same
  · exact .inl ⟨old, Table.get?_mem found, of, before⟩
  · refine .inr ?_
    cases c with
    | settle | fail =>
      exact ⟨rfl, fun call records => (of_decide_eq_true closes).symm.trans records.1⟩
    | _ => cases closes

/-- The outcome of a call delivers. -/
theorem TxCall.Effect.concludes {c : TxCall} {call : ProviderCall} (effect : c.Effect d d')
    (records : c.Records call d) : d'.delivered call.transactionId := by
  have finished : ∀ {txCtx status}, TransactionContext.Finished txCtx status d d' →
      txCtx.id = call.transactionId → d'.delivered call.transactionId := by
    rintro txCtx status ⟨t, t', entries, log, event, same, _, closed⟩ of
    have listed : event ∈ d'.outboxEvents.rows := closed.outboxEvents ▸ Table.mem_put.mpr (.inl rfl)
    exact ⟨event, listed, (closed.event_id.trans same).trans of, closed.delivered⟩
  cases c with
  | settle | fail => exact finished effect records.1
  | markDelivered =>
    obtain ⟨_, event, found, of⟩ := records
    obtain ⟨old, present, rfl⟩ := effect
    cases found.symm.trans present
    exact ⟨_, Table.mem_put.mpr (.inl rfl), of, rfl⟩
  | _ => cases records

/-- Only failing makes a transaction FAILED. -/
theorem TxCall.Effect.failed {c : TxCall} (effect : c.Effect d d') {t : Transaction}
    (member : t ∈ d'.transactions.rows) (failed : t.status = .failed) :
    (∃ old ∈ d.transactions.rows, old.id = t.id ∧ old.status = .failed) ∨ c.fails t.id := by
  rcases effect.source member with ⟨old, present, same, _⟩ | ⟨o, sender, receiver, _, rfl⟩
  · have found := Table.get?_of_mem present
    have after := Table.get?_of_mem member
    rcases effect.row (same ▸ found) with kept | ⟨t', became, _, settled | ⟨_, fails⟩⟩
    · cases after.symm.trans kept
      exact .inl ⟨t, present, rfl, failed⟩
    · cases after.symm.trans became
      simp [failed] at settled
    · exact .inr fails
  · cases type : o.type <;> simp [Opening.row, type] at failed

end Outbox

/-- What holds between any two steps of such a run. -/
structure Paid (σ : SharedState) : Prop where
  sound : Sound σ
  recorded : σ.ext.lock = none → Recorded σ
  once : ∀ id, σ.ext.calls.countP (·.pays id) ≤ 1
  unfailed : ∀ t ∈ σ.db.transactions.rows, t.status = .failed → σ.ext.calls.countP (·.pays t.id) = 0

/-- One move of the shared state in such a run. -/
inductive Payment (pid : Nat) (σ : SharedState) : SharedState → Prop where
  | commit : (c.concludes → σ.ext.lock = some ⟨pid, true⟩) → c.Ready σ →
      c.Effect σ.db d' → σ.db.Keeps d' →
      (∀ id, c.fails id → σ.ext.calls.countP (·.pays id) = 0) → Payment pid σ (σ.commit c d')
  | call : σ.ext.lock = some ⟨pid, true⟩ → ¬ σ.db.delivered call.transactionId →
      σ.ext.calls.countP (·.pays call.transactionId) = 0 →
        Payment pid σ { σ with ext := σ.ext.record call }
  | lock : σ.ext.lock = none →
      Payment pid σ { σ with ext := { σ.ext with lock := some ⟨pid, busy⟩ } }
  | unlock : Recorded σ → Payment pid σ { σ with ext := { σ.ext with lock := none } }
  | leave : Payment pid σ { σ with ext := σ.ext.leave pid }
  | stay : Payment pid σ σ

section Payments
variable {pid : Nat} {σ σ' : SharedState} {call : ProviderCall}

theorem Recorded.commit {c : TxCall} (recorded : Recorded σ) (effect : c.Effect σ.db d') :
    Recorded (σ.commit c d') :=
  fun call made success => effect.deliveredStays (recorded call made success)

theorem pays_record (ext : Ext) (call : ProviderCall) (id : TransactionId) :
    (ext.record call).calls.countP (·.pays id) = ext.calls.countP (·.pays id) +
      if call.pays id then 1 else 0 := by
  simp [Ext.record, List.countP_singleton]

/-- A success that was delivered cannot be for a transaction that was not. -/
theorem unpaid_of_pending {id : TransactionId}
    (recorded : ∀ call ∈ σ.ext.calls, call.transactionId = id →
    call.result.success → σ.db.delivered id) (pending : ¬ σ.db.delivered id) :
    σ.ext.calls.countP (·.pays id) = 0 := by
  refine List.countP_eq_zero.mpr fun call made pays => ?_
  simp only [ProviderCall.pays, Bool.and_eq_true, decide_eq_true_eq] at pays
  exact pending (recorded call made pays.1 pays.2)

theorem Ext.leave_none {ext : Ext} : (ext.leave pid).lock = none ↔ ext.lock = none :=
  Option.map_eq_none_iff

/-- Leaving a batch takes the key from nobody else. -/
theorem Ext.leave_held {ext : Ext} {other : Nat} : (ext.leave pid).lock = some ⟨other, true⟩ →
    ext.lock = some ⟨other, true⟩ := by
  cases held : ext.lock with
  | none => simp [Ext.leave, held]
  | some lock =>
    simp only [Ext.leave, held, Option.map_some, Option.some.injEq]
    split
    · exact fun same => by cases same
    · exact id

theorem Paid.step (paid : Paid σ) (move : Payment pid σ σ') : Paid σ' := by
  cases move with
  | @commit c d' _ ready effect _ fails =>
    refine ⟨paid.sound.commit ready effect, fun free =>
      (paid.recorded free).commit effect, paid.once, ?_⟩
    intro t member failed
    rcases effect.failed member failed with ⟨old, present, same, before⟩ | closes
    · exact same ▸ paid.unfailed old present before
    · exact fails t.id closes
  | @call call held pending unpaid =>
    have more : ∀ other ∈ σ.ext.calls, other ∈ (σ.ext.record call).calls :=
      fun _ => List.mem_append_left _
    refine ⟨paid.sound.calls more, fun free => ?_, fun id => ?_, fun t member failed => ?_⟩
    · cases held.symm.trans free
    · rw [pays_record]
      split
      · rename_i pays
        simp only [ProviderCall.pays, Bool.and_eq_true, decide_eq_true_eq] at pays
        rw [← pays.1, unpaid]
      · exact paid.once id
    · rw [pays_record, paid.unfailed t member failed, if_neg]
      intro pays
      simp only [ProviderCall.pays, Bool.and_eq_true, decide_eq_true_eq] at pays
      exact pending (pays.1 ▸ paid.sound.books.failed_delivered member failed)
  | lock =>
    exact ⟨paid.sound.calls fun _ => id, (fun free => by cases free), paid.once, paid.unfailed⟩
  | unlock recorded =>
    exact ⟨paid.sound.calls fun _ => id, fun _ => recorded, paid.once, paid.unfailed⟩
  | leave =>
    exact ⟨paid.sound.calls fun _ => id, fun free => paid.recorded (Ext.leave_none.mp free),
      paid.once, paid.unfailed⟩
  | stay => exact paid

theorem Paid.init : Paid ⟨DB.empty, [], Ext.idle⟩ where
  sound := .init
  recorded _ := by simp [Recorded, Ext.idle]
  once := by simp [Ext.idle]
  unfailed _ member := by cases member

def payments : Protocol system exclusive where
  Inv := Paid
  Guar := Payment
  Post _ _ _ _ := True
  guar_inv := Paid.step
  drift_inv paid recorded expired := by
    cases expired with
    | lock => exact @Paid.step 0 _ _ paid (.unlock recorded)

theorem Payment.grown (move : Payment pid σ σ') : Grown σ σ' := by
  cases move with
  | commit _ _ _ keeps => exact ⟨keeps, fun _ => id⟩
  | call => exact ⟨.refl _, fun _ => List.mem_append_left _⟩
  | lock | unlock | leave | stay => exact ⟨.refl _, fun _ => id⟩

theorem payments_admits : Admits payments fun c => c.concludes = false where
  stutter _ := .stay
  grows := by
    rintro who σ σ' ⟨_, ⟨pid, _, move⟩ | ⟨ext, _, expired, rfl⟩⟩
    · exact Payment.grown move
    · cases expired with
      | lock => exact ⟨.refl _, fun _ => id⟩
  commits pid c σ idle paid ready := (ready.commits paid.sound.books).mono fun _ d' post _ => by
    refine .commit (fun concludes => ?_) ready post.1 post.2 fun id fails => ?_
    · simp [idle] at concludes
    · cases c with
      | fail => cases idle
      | _ => cases fails

/-- What a process knows during its batch: no success is open but that of the call
at hand, and the rest of the page is undelivered. -/
structure Working (called : Option ProviderCall) (todo : List TransactionId)
    (σ : SharedState) : Prop where
  recorded : ∀ call ∈ σ.ext.calls, call.result.success →
    σ.db.delivered call.transactionId ∨ called = some call
  pending : ∀ id ∈ todo, ¬ σ.db.delivered id
  distinct : todo.Nodup

/-- It knows this as long as it has the key. -/
def Holding (pid : Nat) (called : Option ProviderCall) (todo : List TransactionId)
    (σ : SharedState) : Prop :=
  σ.ext.lock = some ⟨pid, true⟩ → Working called todo σ

theorem Working.unpaid {id : TransactionId} (working : Working none todo σ) (member : id ∈ todo) :
    σ.ext.calls.countP (·.pays id) = 0 := by
  refine unpaid_of_pending (fun call made of success => ?_) (working.pending id member)
  rcases working.recorded call made success with delivered | none
  · exact of ▸ delivered
  · cases none

theorem Working.idle {c : TxCall} {called : Option ProviderCall} {todo : List TransactionId}
    (working : Working called todo σ) (effect : c.Effect σ.db d') (idle : c.concludes = false) :
    Working called todo (σ.commit c d') where
  recorded call made success := (working.recorded call made success).imp_left effect.deliveredStays
  pending id member delivered := by
    rcases effect.delivers delivered with before | ⟨concludes, _⟩
    · exact working.pending id member before
    · simp [idle] at concludes
  distinct := working.distinct

theorem Working.skip {called : Option ProviderCall} {id : TransactionId} {todo : List TransactionId}
    (working : Working called (id :: todo) σ) : Working called todo σ :=
  ⟨working.recorded, fun other member => working.pending other (List.mem_cons_of_mem _ member),
    working.distinct.of_cons⟩

/-- A call that did not succeed leaves nothing to record. -/
theorem Working.refused {todo : List TransactionId} (working : Working (some call) todo σ)
    (refused : call.result.success = false) : Working none todo σ := by
  refine ⟨fun other made success => .inl ?_, working.pending, working.distinct⟩
  rcases working.recorded other made success with delivered | same
  · exact delivered
  · cases same
    simp [refused] at success

theorem Working.record {c : TxCall} {todo : List TransactionId}
    (working : Working (some call) (call.transactionId :: todo) σ) (records : c.Records call σ.db)
    (effect : c.Effect σ.db d') : Working none todo (σ.commit c d') := by
  refine ⟨fun other made success => .inl ?_, fun id member delivered => ?_,
    working.distinct.of_cons⟩
  · rcases working.recorded other made success with delivered | same
    · exact effect.deliveredStays delivered
    · cases same
      exact effect.concludes records
  · rcases effect.delivers delivered with before | ⟨_, only⟩
    · exact working.pending id (List.mem_cons_of_mem _ member) before
    · exact (List.nodup_cons.mp working.distinct).1 (only call records ▸ member)

theorem TxCall.Records.concludes {c : TxCall} (records : c.Records call d) : c.concludes := by
  cases c with
  | settle | fail | markDelivered => rfl
  | _ => cases records

/-- The key keeps everybody else away from the batch. -/
theorem Holding.stable {called : Option ProviderCall} {todo : List TransactionId}
    (holding : Holding pid called todo σ) (move : payments.Moves (· ≠ pid) σ σ') :
    Holding pid called todo σ' := by
  intro held
  obtain ⟨_, ⟨other, different, step⟩ | ⟨ext, _, expired, rfl⟩⟩ := move
  · have apart : σ.ext.lock ≠ some ⟨other, true⟩ ∨ σ.ext.lock ≠ some ⟨pid, true⟩ := by
      refine or_iff_not_imp_left.mpr fun theirs ours => ?_
      have same := (not_not.mp theirs).symm.trans ours
      exact different (congrArg ProcessorLock.holder (Option.some.inj same))
    cases step with
    | @commit c d' theirs _ effect _ _ =>
      refine (holding held).idle effect (Bool.eq_false_iff.mpr fun concludes => ?_)
      exact apart.elim (fun h => h (theirs concludes)) fun h => h held
    | call theirs => exact absurd held (apart.resolve_left (not_not.mpr theirs))
    | lock => exact absurd (congrArg ProcessorLock.holder (Option.some.inj held)) different
    | unlock => cases held
    | leave =>
      have working := holding (Ext.leave_held held)
      exact ⟨working.recorded, working.pending, working.distinct⟩
    | stay => exact holding held
  · cases expired with
    | lock => cases held

theorem payments_follows (pid : Nat) : Follows payments pid (Holding pid) where
  admits := payments_admits
  sound := Paid.sound
  stable := Holding.stable
  acquires paid replied := by
    cases replied with
    | acquired free =>
      exact ⟨.lock free, fun _ _ =>
        ⟨fun call made success => .inl (paid.recorded free call made success), by simp, .nil⟩⟩
    | taken => exact ⟨.stay, fun other => by cases other⟩
    | failed => exact ⟨.stay, fun other => by cases other⟩
    | unheard free => exact ⟨.lock free, fun other => by cases other⟩
  releases _ recorded replied := by
    cases replied with
    | deleted | unheard => exact .unlock recorded
    | failed => exact .leave
  selects paid holding pending held := by
    obtain ⟨fresh, distinct⟩ := pending.fresh paid.sound.books
    exact ⟨(holding held).recorded, fresh, distinct⟩
  resumes never := never.elim
  calls {σ todo} call paid holding held := by
    have working := holding held
    refine ⟨.call held (working.pending _ List.mem_cons_self) (working.unpaid List.mem_cons_self),
      fun _ => ?_⟩
    refine ⟨fun other made success => ?_, working.pending, working.distinct⟩
    rcases List.mem_append.mp made with old | new
    · exact .inl ((working.recorded other old success).resolve_right fun none => by cases none)
    · exact .inr (congrArg some (List.mem_singleton.mp new).symm)
  skips holding held := (holding held).skip
  retries _ holding effect keeps _ := by
    refine ⟨.commit (fun idle => ?_) trivial effect keeps fun _ idle => ?_,
      fun held => (holding held).idle effect rfl⟩
    · cases idle
    · cases idle
  records {σ call todo c d'} paid holding records ready effect keeps permitted := by
    have held : σ.ext.lock = some ⟨pid, true⟩ :=
      permitted.elim (· records.concludes) (· records.concludes)
    refine ⟨.commit (fun _ => held) ready effect keeps fun id fails => ?_, fun _ =>
      (holding held).record records effect⟩
    cases c with
    | fail =>
      obtain rfl := of_decide_eq_true fails
      exact records.1 ▸ ((holding held).refused records.2).unpaid List.mem_cons_self
    | _ => cases fails
  forgets {σ call todo c error} holding records permitted held := by
    cases c with
    | fail => exact ((holding held).refused records.2).skip
    | settle | markDelivered => cases permitted
    | _ => cases records

end Payments

theorem paid_of_reaches {w : State}
    (run : system.Reaches exclusive (World.init DB.empty Ext.idle) w) :
    Paid w.shared :=
  ((Protocol.Safe.init (P := payments) .init).reaches (disciplined exclusive)
    (fun paid permitted => (payments_follows _).starts _ paid permitted) run).1.inv

end PaymentWallet
