import PaymentWallet.Service.Accounts

/-! The outbox processor, for any protocol that follows it. An event tells which
transaction it is for, a provider's reply is on record before anything is committed
for it, and the row read for it still has the same terms when it is settled or failed. -/
namespace PaymentWallet
open Foundation

/-- The event is in the outbox, perhaps with another delivery mark or retry count by now. -/
def Known (event : OutboxEvent) (σ : SharedState) : Prop :=
  ∃ row, σ.db.outboxEvents.get? event.id = some row ∧ row.terms = event.terms

theorem Known.grown {event : OutboxEvent} {σ σ' : SharedState} (known : Known event σ)
    (grown : Grown σ σ') :
    Known event σ' := by
  obtain ⟨row, found, terms⟩ := known
  obtain ⟨row', found', same⟩ := grown.rows.outboxEvents _ _ found
  exact ⟨row', found', same.trans terms⟩

theorem Known.of_mem {event : OutboxEvent} {σ : SharedState}
    (member : event ∈ σ.db.outboxEvents.rows) :
    Known event σ := ⟨event, Table.get?_of_mem member, rfl⟩

/-- The events of a page are rows that can be selected. -/
theorem PendingEvents.row {d : DB} {event : OutboxEvent}
    (pending : PendingEvents d limit maxRetries events)
    (member : event ∈ events) : event ∈ d.outboxEvents.rows ∧ event.selectable maxRetries := by
  obtain ⟨ordered, perm, _, rfl⟩ := pending
  exact List.mem_filter.mp (perm.mem_iff.mp (List.mem_of_mem_take member))

theorem pending_of_answers {σ : SharedState} (answers : (Outside.findPendingProviderEvents limit
    maxRetries).Answers pid σ.db σ.ext (.ok events) σ.ext) :
      PendingEvents σ.db limit maxRetries events := by
  obtain ⟨_, page, pending, same | lost⟩ := answers
  · cases same
    exact pending
  · cases lost

theorem selected_of_answers {σ : SharedState} {id : TransactionId}
    {transaction : SelectedTransaction}
    (answers : (Outside.findTransactionById id).Answers pid σ.db σ.ext
      (.ok (some transaction)) σ.ext) :
    ∃ t, σ.db.transactions.get? id = some t ∧ transaction = t.selected ∧ t.id = id := by
  rcases answers.2 with found | lost
  · obtain ⟨t, present, same⟩ := Option.map_eq_some_iff.mp (Except.ok.inj found).symm
    exact ⟨t, present, same.symm, Table.get?_key present⟩
  · cases lost

/-- `INTERNAL` transactions have no adapter. -/
theorem resolve_ne_internal (resolved : PaymentProviderRegistry.resolve provider = .ok adapter) :
    provider ≠ .internal := by
  rintro rfl
  cases resolved

theorem Known.matches {event : OutboxEvent} {σ : SharedState} {transaction : SelectedTransaction}
    (known : Known event σ)
    (answers : (Outside.findTransactionById event.transactionId).Answers pid σ.db
      σ.ext (.ok (some transaction)) σ.ext) (provided : transaction.provider = some provider)
    (resolved : PaymentProviderRegistry.resolve provider = .ok adapter) (userId : UserId) :
    TransactionContext.Matches { transaction with userId := userId } event.id σ.db := by
  obtain ⟨row, present, terms⟩ := known
  obtain ⟨t, found, rfl, keyEq⟩ := selected_of_answers answers
  refine ⟨⟨t, Table.get?_of_same found rfl, rfl⟩, ⟨row, present, ?_⟩, ?_⟩
  · exact (congrArg Prod.fst terms).trans keyEq.symm
  · rw [provided]
    simpa using resolve_ne_internal resolved

/-- The transaction commits the outcome of a provider call. -/
def TxCall.concludes : TxCall → Bool
  | .settle .. | .fail .. | .markDelivered .. => true
  | _ => false

/-- The transaction commits the outcome of this call. -/
def TxCall.Records (c : TxCall) (call : ProviderCall) (d : DB) : Prop :=
  match c with
  | .settle txCtx .. => txCtx.id = call.transactionId ∧ call.result.success = true
  | .fail txCtx .. => txCtx.id = call.transactionId ∧ call.result.success = false
  | .markDelivered id _ => call.result.success = true ∧
      ∃ event, d.outboxEvents.get? id = some event ∧ event.transactionId = call.transactionId
  | _ => False

theorem TxCall.Records.keeps {c : TxCall} {call : ProviderCall} (records : c.Records call d)
    (keeps : d.Keeps d') : c.Records call d' := by
  cases c with
  | settle | fail => exact records
  | markDelivered =>
    obtain ⟨accepted, event, found, of⟩ := records
    obtain ⟨event', found', terms⟩ := keeps.outboxEvents _ _ found
    exact ⟨accepted, event', found', (congrArg Prod.fst terms).trans of⟩
  | _ => cases records

def Ext.record (ext : Ext) (call : ProviderCall) : Ext := { ext with calls := ext.calls ++ [call] }

/-- How a protocol follows process `pid` through a batch. The process `Knows called
todo` while it may still call a provider for the transactions `todo`; `called` is
the call it made for the first of them, until the outcome is committed. -/
structure Follows {permit : Permit} (P : Protocol system permit) (pid : Nat)
    (Knows : Option ProviderCall → List TransactionId → SharedState → Prop) : Prop where
  admits : Admits P fun c => c.concludes = false
  sound : ∀ {σ}, P.Inv σ → Sound σ
  stable : ∀ {called todo σ σ'}, Knows called todo σ → P.Moves (· ≠ pid) σ σ' → Knows called todo σ'
  acquires : ∀ {σ reply ext}, P.Inv σ → SetLock pid σ.ext reply ext →
    P.Guar pid σ { σ with ext := ext } ∧ (reply = .ok true → Knows none [] { σ with ext := ext })
  releases : ∀ {σ reply ext}, P.Inv σ → permit σ (.outside pid .delLock) →
    DelLock pid σ.ext reply ext →
    P.Guar pid σ { σ with ext := ext }
  selects : ∀ {σ events}, P.Inv σ → Knows none [] σ → PendingEvents σ.db 100 5 events →
    Knows none (events.map (·.transactionId)) σ
  resumes : ∀ {σ₀ id}, permit σ₀ (.start pid (.processEvent id)) → ∀ id σ, Knows none [id] σ
  calls : ∀ {σ todo} (call : ProviderCall), P.Inv σ → Knows none (call.transactionId :: todo) σ →
    permit σ (.outside pid (.process call.transactionId call.adapter call.payload call.type)) →
    P.Guar pid σ { σ with ext := σ.ext.record call } ∧
      Knows (some call) (call.transactionId :: todo) { σ with ext := σ.ext.record call }
  skips : ∀ {id todo σ}, Knows none (id :: todo) σ → Knows none todo σ
  retries : ∀ {σ todo id d'}, P.Inv σ → Knows none todo σ →
    (TxCall.incrementRetry id).Effect σ.db d' →
    σ.db.Keeps d' → permit σ (.commit pid (.incrementRetry id)) ∨
      permit σ (.lost pid (.incrementRetry id)) →
    P.Guar pid σ (σ.commit (.incrementRetry id) d') ∧
      Knows none todo (σ.commit (.incrementRetry id) d')
  records : ∀ {σ call todo c d'}, P.Inv σ → Knows (some call) (call.transactionId :: todo) σ →
    c.Records call σ.db → c.Ready σ → c.Effect σ.db d' → σ.db.Keeps d' →
    permit σ (.commit pid c) ∨ permit σ (.lost pid c) →
    P.Guar pid σ (σ.commit c d') ∧ Knows none todo (σ.commit c d')
  forgets : ∀ {σ call todo c error}, Knows (some call) (call.transactionId :: todo) σ →
    c.Records call σ.db → permit σ (.abort pid c error) → Knows none todo σ

namespace Follows
variable {permit : Permit} {P : Protocol system permit} {pid : Nat}
  {Knows : Option ProviderCall → List TransactionId → SharedState → Prop} {σ : SharedState}
  {todo : List TransactionId} (follows : Follows P pid Knows)
include follows

/-- A transaction between two facts that survive interference. -/
theorem wp_transact {c : TxCall} {A B : SharedState → Prop} (ready : c.Ready σ) (before : A σ)
    (keeps : ∀ {σ σ'}, A σ → P.Moves (· ≠ pid) σ σ' → A σ')
    (keeps' : ∀ {σ σ'}, B σ → P.Moves (· ≠ pid) σ σ' → B σ')
    (commits : ∀ {σ d'}, P.Inv σ → A σ → c.Ready σ → c.Effect σ.db d' → σ.db.Keeps d' →
      permit σ (.commit pid c) ∨ permit σ (.lost pid c) →
      P.Guar pid σ (σ.commit c d') ∧ B (σ.commit c d'))
    (aborts : ∀ {σ error}, A σ → permit σ (.abort pid c error) → B σ) :
    P.wp Statement.Learned pid (transact c) (fun _ σ' => B σ') σ := by
  have ends : ∀ (result : Except Exception c.Out) {σ}, B σ →
      P.wp Statement.Learned pid (Service.resume result : Svc c.Out) (fun _ σ' => B σ') σ := by
    intro result σ after
    cases result <;> exact fun σ' rely _ => rely.stable keeps' after
  intro σ' rely inv
  have here := rely.stable keeps before
  have ready' : c.Ready σ' := ready.grown (follows.admits.rely rely)
  refine ⟨(ready'.commits (follows.sound inv).books).mono fun value d' post =>
    ⟨fun permitted => ?_, fun permitted => ?_⟩,
      fun error permitted => ends _ (aborts here permitted)⟩
  · have promised := commits inv here ready' post.1 post.2 (.inl permitted)
    exact ⟨promised.1, ends _ promised.2⟩
  · have promised := commits inv here ready' post.1 post.2 (.inr permitted)
    exact ⟨promised.1, ends _ promised.2⟩

theorem wp_retry {id : EventId} (knows : Knows none todo σ) :
    P.wp Statement.Learned pid (transact (.incrementRetry id)) (fun _ => Knows none todo) σ :=
  follows.wp_transact trivial knows follows.stable follows.stable
    (fun inv knows _ => follows.retries inv knows) fun knows _ => knows

theorem wp_record {c : TxCall} {call : ProviderCall}
    (knows : Knows (some call) (call.transactionId :: todo) σ)
    (records : c.Records call σ.db) (ready : c.Ready σ) :
    P.wp Statement.Learned pid (transact c) (fun _ => Knows none todo) σ :=
  follows.wp_transact (A := fun σ => Knows (some call) (call.transactionId :: todo) σ ∧
    c.Records call σ.db)
    ready ⟨knows, records⟩
    (fun before move => ⟨follows.stable before.1 move,
      before.2.keeps (follows.admits.grows move).rows⟩)
    follows.stable (fun inv before => follows.records inv before.1 before.2)
    fun before => follows.forgets before.1 before.2

/-- A program whose end does not matter, after one that ends in a fact. -/
theorem wp_sequel {p : Svc α} {f : α → Svc β} {F : SharedState → Prop} (inv : P.Inv σ)
    (first : P.wp Statement.Learned pid p (fun _ σ' => F σ') σ)
    (rest : ∀ value σ', P.Inv σ' → Grown σ σ' → F σ' →
      P.wp Statement.Learned pid (f value) (fun _ _ => True) σ') :
    P.wp Statement.Learned pid (p.bind f) (fun _ _ => True) σ := by
  have framed := Protocol.wp_frame (F := Grown σ)
    (fun grown move => grown.trans (follows.admits.grows move)) first inv (.refl σ)
  refine Protocol.wp_bind inv (Protocol.wp_mono framed fun result σ' inv' post => ?_)
  cases result with
  | ok value => exact rest value σ' inv' post.2 post.1
  | error error => exact fun _ _ _ => trivial

omit follows in
theorem wp_caught {p : Svc α} {h : Exception → Svc α} {F : SharedState → Prop} (inv : P.Inv σ)
    (keeps : ∀ {σ σ'}, F σ → P.Moves (· ≠ pid) σ σ' → F σ')
    (first : P.wp Statement.Learned pid p (fun _ σ' => F σ') σ)
    (caught : ∀ error σ', F σ' → P.wp Statement.Learned pid (h error) (fun _ σ' => F σ') σ') :
    P.wp Statement.Learned pid (p.handle h) (fun _ σ' => F σ') σ := by
  refine Protocol.wp_handle inv (Protocol.wp_mono first fun result σ' _ post => ?_)
  cases result with
  | ok value => exact fun _ rely _ => rely.stable keeps post
  | error error => exact caught error σ' post

theorem wp_throw (knows : Knows none todo σ) (error : Exception) :
    P.wp Statement.Learned pid (.throw error : Svc α) (fun _ => Knows none todo) σ :=
  fun _ rely _ => rely.stable follows.stable knows

variable {event : OutboxEvent}

theorem wp_dispatch {txCtx : TransactionContext} {call : ProviderCall} (known : Known event σ)
    (matched : txCtx.Matches event.id σ.db) (made : call ∈ σ.ext.calls)
    (ofEvent : call.transactionId = event.transactionId) (ofRow : txCtx.id = call.transactionId)
    (knows : Knows (some call) (call.transactionId :: todo) σ) :
    P.wp Statement.Learned pid (PaymentProcessorService.dispatch event txCtx call.result)
      (fun _ => Knows none todo) σ := by
  have drawn : ∀ {c : Draw → TxCall}, (∀ draw, (c draw).Records call σ.db) →
      (∀ draw, (c draw).Ready σ) →
      ∀ draw σ', P.Rely pid σ σ' →
        P.wp Statement.Learned pid (transact (c draw)) (fun _ => Knows none todo) σ' := by
    intro c records ready draw σ' rely
    have grown := follows.admits.rely rely
    exact follows.wp_record (rely.stable follows.stable knows) ((records draw).keeps grown.rows)
      ((ready draw).grown grown)
  unfold PaymentProcessorService.dispatch
  split
  · rename_i accepted
    simp only [Bool.and_eq_true] at accepted
    obtain ⟨row, found, terms⟩ := known
    have same : row.transactionId = call.transactionId :=
      (congrArg Prod.fst terms).trans ofEvent.symm
    exact follows.admits.draw fun σ' draw rely _ =>
      drawn (c := fun draw => .markDelivered event.id draw.deliveredAt)
      (fun _ => ⟨accepted.2, row, found, same⟩)
      (fun _ => ⟨row, found, call, made, same.symm, accepted.2, accepted.1⟩) draw σ' rely
  split
  · rename_i refused
    simp only [Bool.and_eq_true, Bool.not_eq_true'] at refused
    exact follows.admits.draw fun σ' draw rely _ =>
      drawn (c := fun draw => .fail txCtx event.id call.result draw)
      (fun _ => ⟨ofRow, refused.2⟩) (fun _ => matched) draw σ' rely
  split
  · rename_i success
    exact follows.admits.draw fun σ' draw rely _ =>
      drawn (c := fun draw => .settle txCtx event.id call.result draw)
      (fun _ => ⟨ofRow, success⟩) (fun _ => matched) draw σ' rely
  · rename_i failure
    exact follows.admits.draw fun σ' draw rely _ =>
      drawn (c := fun draw => .fail txCtx event.id call.result draw)
      (fun _ => ⟨ofRow, Bool.eq_false_iff.mpr failure⟩) (fun _ => matched) draw σ' rely

theorem wp_attempt (known : Known event σ) (knows : Knows none (event.transactionId :: todo) σ) :
    P.wp Statement.Learned pid (PaymentProcessorService.attempt event)
      (fun _ => Knows none todo) σ := by
  have stays : ∀ {σ σ'}, Knows none (event.transactionId :: todo) σ → P.Rely pid σ σ' →
      Knows none (event.transactionId :: todo) σ' :=
        fun knows rely => rely.stable follows.stable knows
  have retry : ∀ {σ}, Knows none (event.transactionId :: todo) σ → P.wp Statement.Learned pid
      (transact (.incrementRetry event.id)) (fun _ => Knows none todo) σ :=
    fun knows => follows.wp_retry (follows.skips knows)
  have failed : ∀ {σ} (error : Exception), Knows none (event.transactionId :: todo) σ →
      P.wp Statement.Learned pid (.throw error : Svc Unit) (fun _ => Knows none todo) σ :=
    fun error knows => follows.wp_throw (follows.skips knows) error
  unfold PaymentProcessorService.attempt
  cases PaymentProcessorService.payloadUserId event.payload with
  | none => exact retry knows
  | some userId =>
    refine follows.admits.ask rfl (fun σ₁ transaction rely _ answers => ?_) fun _ error rely =>
      failed error (stays knows rely)
    have knows₁ := stays knows rely
    cases transaction with
    | none => exact retry knows₁
    | some transaction =>
      dsimp only
      cases provided : transaction.provider with
      | none => exact retry knows₁
      | some provider =>
        dsimp only
        cases resolved : PaymentProviderRegistry.resolve provider with
        | error error => exact failed error knows₁
        | ok adapter =>
          have matched := (known.grown (follows.admits.rely rely)).matches answers
            provided resolved userId
          obtain ⟨t, _, rfl, of⟩ := selected_of_answers answers
          intro σ₂ rely' inv₂ permitted reply ext replied
          have knows₂ := stays knows₁ rely'
          cases replied with
          | threw => exact ⟨follows.admits.stutter inv₂, failed _ knows₂⟩
          | @returned result =>
            have head : Knows none (t.id :: todo) σ₂ := of.symm ▸ knows₂
            obtain ⟨promised, called⟩ :=
              follows.calls ⟨t.id, adapter, event.payload, t.type, result⟩ inv₂ head
              permitted
            have made : Grown σ₂ _ := follows.admits.own inv₂ promised
            refine ⟨promised, follows.wp_dispatch ?_ ?_
              (List.mem_append_right _ (List.mem_singleton_self _)) of rfl
              called⟩
            · exact ((known.grown (follows.admits.rely rely)).grown
                (follows.admits.rely rely')).grown made
            · exact (matched.keeps (follows.admits.rely rely').rows).keeps made.rows

theorem wp_processEvent (inv : P.Inv σ) (known : Known event σ)
    (knows : Knows none (event.transactionId :: todo) σ) :
    P.wp Statement.Learned pid (PaymentProcessorService.processEvent event)
      (fun _ => Knows none todo) σ :=
  wp_caught inv follows.stable (follows.wp_attempt known knows) fun _ _ knows =>
    follows.wp_retry knows

/-- The page is worked off from its head. -/
theorem wp_processEvents {events : List OutboxEvent} (inv : P.Inv σ)
    (known : ∀ event ∈ events, Known event σ)
    (knows : Knows none (events.map (·.transactionId)) σ) :
    P.wp Statement.Learned pid (PaymentProcessorService.processEvents events)
      (fun _ _ => True) σ := by
  induction events generalizing σ with
  | nil => exact fun _ _ _ => trivial
  | cons event events ih =>
    refine follows.wp_sequel inv
      (follows.wp_processEvent inv (known event List.mem_cons_self) knows)
      fun _ σ' inv' grown rest => ?_
    exact ih inv' (fun other member =>
      (known other (List.mem_cons_of_mem _ member)).grown grown) rest

theorem wp_processBatch (knows : Knows none [] σ) :
    P.wp Statement.Learned pid PaymentProcessorService.processBatch (fun _ _ => True) σ := by
  refine follows.admits.ask rfl (fun σ' events rely inv answers => ?_) fun _ _ _ _ _ _ => trivial
  have pending := pending_of_answers answers
  refine follows.wp_processEvents inv (fun event member => .of_mem (pending.row member).1) ?_
  exact follows.selects inv (rely.stable follows.stable knows) pending

theorem wp_delLock : P.wp Statement.Learned pid (outside .delLock) (fun _ _ => True) σ := by
  intro σ' _ inv permitted reply ext replied
  exact ⟨follows.releases inv permitted replied, follows.admits.harmless (all_resume reply)⟩

theorem wp_processOutbox :
    P.wp Statement.Learned pid PaymentProcessorService.processOutbox (fun _ _ => True) σ := by
  have ends : ∀ {α : Type} (result : Except Exception α) {σ : SharedState},
      P.wp Statement.Learned pid (Service.resume result : Svc α) (fun _ _ => True) σ :=
    fun result => follows.admits.harmless (all_resume result)
  have batch : ∀ {σ}, P.Inv σ → Knows none [] σ → P.wp Statement.Learned pid
      ((PaymentProcessorService.processBatch.handle fun _ => .pure ()).bind
        fun _ => outside .delLock)
      (fun _ _ => True) σ := fun inv knows =>
    follows.wp_sequel (F := fun _ => True) inv (wp_caught inv (fun _ _ => trivial)
      (follows.wp_processBatch knows) fun _ _ _ => ends (.ok ())) fun _ _ _ _ _ =>
        follows.wp_delLock
  intro σ' _ inv' _ reply ext replied
  obtain ⟨promised, acquired⟩ := follows.acquires inv' replied
  refine ⟨promised, ?_⟩
  cases reply with
  | error error => exact ends (.error error)
  | ok taken =>
    cases taken with
    | false => exact ends (.ok ())
    | true => exact batch (P.guar_inv inv' promised) (acquired rfl)

/-- Every request follows the protocol. -/
theorem starts (request : Request) (inv : P.Inv σ) {σ₀ : SharedState}
    (permitted : permit σ₀ (.start pid request)) :
    P.wp Statement.Learned pid request.handler (fun _ _ => True) σ := by
  have admits := follows.admits
  have done : ∀ (response : Response) (σ' : SharedState),
      P.wp Statement.Learned pid (.pure response) (fun _ _ => True) σ' := fun _ _ _ _ _ => trivial
  cases request with
  | register => exact admits.harmless (all_register fun _ => rfl)
  | deposit => exact admits.harmless (all_deposit fun _ => rfl)
  | withdraw => exact admits.harmless (all_withdraw fun _ => rfl)
  | transfer => exact admits.transfer (fun _ _ _ => rfl) inv
  | confirmDeposit => exact admits.harmless (all_confirmDeposit fun _ => rfl)
  | createPayout => exact admits.harmless (all_createPayout fun _ => rfl)
  | processOutbox =>
    exact follows.wp_sequel (F := fun _ => True) inv follows.wp_processOutbox fun _ σ' _ _ _ =>
      done _ σ'
  | processEvent id =>
    refine admits.ask rfl (fun σ₁ event _ inv₁ answers => ?_) fun _ _ _ _ _ _ => trivial
    cases event with
    | none => exact done _ σ₁
    | some event =>
      have found : σ₁.db.outboxEvents.get? id = some event := by
        rcases answers.2 with found | lost
        · exact (Except.ok.inj found).symm
        · cases lost
      have alone : Knows none [event.transactionId] σ₁ := follows.resumes permitted _ _
      exact follows.wp_sequel inv₁
        (follows.wp_processEvent inv₁ (.of_mem (Table.get?_mem found)) alone)
        fun _ σ' _ _ _ => done _ σ'
  | closeAccount => exact admits.harmless (all_closeAccount fun _ => rfl)
  | updateUserStatus => exact admits.harmless (all_updateUserStatus (fun _ => rfl) rfl)
  | setConnectAccountId => exact admits.harmless (all_setConnectAccountId rfl)
  | setPaypalEmail => exact admits.harmless (all_setPaypalEmail rfl)

end Follows

theorem accounts_follows (permit : Permit) (pid : Nat) :
    Follows (accounts permit) pid fun _ _ _ => True where
  admits := { accounts_admits permit with
    commits := fun pid _ _ _ => (accounts_admits permit).commits pid trivial }
  sound := id
  stable _ _ := trivial
  acquires _ replied := ⟨.call (by cases replied <;> exact fun _ => id), fun _ => trivial⟩
  releases _ _ replied := .call (by cases replied <;> exact fun _ => id)
  selects _ _ _ := trivial
  resumes _ _ _ := trivial
  calls _ _ _ _ := ⟨.call fun _ => List.mem_append_left _, trivial⟩
  skips _ := trivial
  retries _ _ effect keeps permitted := ⟨.commit permitted trivial effect keeps, trivial⟩
  records _ _ _ ready effect keeps permitted := ⟨.commit permitted ready effect keeps, trivial⟩
  forgets _ _ _ := trivial

/-- The statements lock what they depend on, whatever runs are considered. -/
theorem disciplined (permit : Permit) : system.Disciplined permit (fun _ => True) (fun _ => True)
    LockKey.Same Statement.Learned DB.Keeps where
  locking := postgres_locking
  stability := postgres_stability
  code c _ := c.code.all_trivial
  start {_ _ request} _ := by
    have every : Calls (fun _ => True) = fun _ : ServiceOp TxCall Outside => True := by
      funext op
      cases op <;> rfl
    exact every ▸ request.handler.all_trivial

/-- The runs from an empty database: every process keeps its promises, so the
shared state evolves by promised moves only. -/
theorem safe_of_reaches {permit : Permit} {w : State}
    (run : system.Reaches permit (World.init DB.empty Ext.idle) w) :
    (accounts permit).Safe (fun _ => True) Statement.Learned w ∧
      Relation.ReflTransGen ((accounts permit).Moves fun _ => True) ⟨DB.empty, [],
        Ext.idle⟩ w.shared :=
  (Protocol.Safe.init (P := accounts permit) .init).reaches (disciplined permit)
    (fun inv permitted => (accounts_follows permit _).starts _ inv permitted) run

theorem sound_of_reaches {permit : Permit} {w : State}
    (run : system.Reaches permit (World.init DB.empty Ext.idle) w) : Sound w.shared :=
  (safe_of_reaches run).1.inv

/-- A relation of shared states that every promised move respects holds between
the ends of every run. -/
theorem related_of_reaches {permit : Permit} {w w' : State} {F : SharedState → SharedState → Prop}
    (refl : ∀ σ, F σ σ) (trans : ∀ {σ₁ σ₂ σ₃}, F σ₁ σ₂ → F σ₂ σ₃ → F σ₁ σ₃)
    (moved : ∀ {pid σ σ'}, Sound σ → Move permit pid σ σ' → F σ σ')
    (run : system.Reaches permit (World.init DB.empty Ext.idle) w)
    (later : system.Reaches permit w w') :
    F w.shared w'.shared := by
  have moves := ((safe_of_reaches run).1.reaches (disciplined permit)
    (fun inv permitted => (accounts_follows permit _).starts _ inv permitted) later).2
  generalize w'.shared = σ' at moves
  induction moves with
  | refl => exact refl _
  | tail _ move ih =>
    refine trans ih ?_
    obtain ⟨sound, ⟨pid, _, promised⟩ | ⟨ext, _, expired, rfl⟩⟩ := move
    · exact moved sound promised
    · cases expired with
      | lock => exact @moved 0 _ _ sound (.call fun _ => id)

end PaymentWallet
