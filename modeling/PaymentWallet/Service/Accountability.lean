import PaymentWallet.Service.Processor

/-! The protocol by which processes account for what they do with a provider: a call asks
for what the event and its transaction say, and an outcome is committed as it was returned. -/
namespace PaymentWallet
open Foundation

/-- The call is made for an event, with the adapter of its transaction. -/
def ProviderCall.Asked (call : ProviderCall) (d : DB) : Prop :=
  ∃ id event t, d.outboxEvents.get? id = some event ∧ event.transactionId = call.transactionId ∧
    event.payload = call.payload ∧ d.transactions.get? call.transactionId = some t ∧
    t.provider = some call.adapter.toProvider ∧ t.type = call.type

theorem ProviderCall.Asked.keeps {call : ProviderCall} {d d' : DB} (asked : call.Asked d)
    (keeps : d.Keeps d') : call.Asked d' := by
  obtain ⟨id, event, t, listed, of, payload, found, provider, type⟩ := asked
  obtain ⟨event', listed', same⟩ := keeps.outboxEvents _ _ listed
  obtain ⟨t', found', terms⟩ := keeps.transactions _ _ found
  refine ⟨id, event', t', listed', (congrArg Prod.fst same).trans of,
    (congrArg (·.2.2) same).trans payload, found', ?_, ?_⟩
  · exact (congrArg (·.2.2.2.1) terms).trans provider
  · exact (congrArg (·.1) terms).trans type

theorem resolve_adapter {provider : Provider} {adapter : Adapter}
    (resolved : PaymentProviderRegistry.resolve provider = .ok adapter) :
    provider = adapter.toProvider := by
  cases provider <;> cases resolved <;> rfl

/-- Settling and failing commit the result of a call. -/
def TxCall.Cites (c : TxCall) (calls : List ProviderCall) : Prop :=
  match c with
  | .settle txCtx _ result _ =>
    ∃ call ∈ calls, call.transactionId = txCtx.id ∧ call.result = result ∧ result.success
  | .fail txCtx _ result _ =>
    ∃ call ∈ calls, call.transactionId = txCtx.id ∧ call.result = result ∧ result.success = false
  | _ => True

theorem TxCall.Cites.mono {c : TxCall} {calls calls' : List ProviderCall} (cites : c.Cites calls)
    (more : ∀ call ∈ calls, call ∈ calls') : c.Cites calls' := by
  cases c with
  | settle | fail =>
    obtain ⟨call, made, facts⟩ := cites
    exact ⟨call, more call made, facts⟩
  | _ => trivial

/-- One move of the shared state by an accountable process. -/
inductive Account (permit : Permit) (pid : Nat) (σ : SharedState) : SharedState → Prop where
  | commit : permit σ (.commit pid c) ∨ permit σ (.lost pid c) → c.Ready σ →
      c.Cites σ.ext.calls → c.Effect σ.db d' →
      σ.db.Keeps d' → Account permit pid σ (σ.commit c d')
  | call : call.Asked σ.db → Account permit pid σ { σ with ext := σ.ext.record call }
  | other : ext.calls = σ.ext.calls → Account permit pid σ { σ with ext := ext }

def Answerable (σ : SharedState) : Prop := Sound σ ∧ ∀ call ∈ σ.ext.calls, call.Asked σ.db

theorem Account.grown {permit : Permit} {σ σ' : SharedState} (move : Account permit pid σ σ') :
    Grown σ σ' := by
  cases move with
  | commit _ _ _ _ keeps => exact ⟨keeps, fun _ => id⟩
  | call => exact ⟨.refl _, fun _ => List.mem_append_left _⟩
  | other same => exact ⟨.refl _, fun call made => same.symm ▸ made⟩

theorem Answerable.move {permit : Permit} {σ σ' : SharedState} (answerable : Answerable σ)
    (move : Account permit pid σ σ') :
    Answerable σ' := by
  obtain ⟨sound, asked⟩ := answerable
  cases move with
  | commit _ ready _ effect keeps =>
    exact ⟨sound.commit ready effect, fun call made => (asked call made).keeps keeps⟩
  | call new =>
    refine ⟨sound.calls fun _ => List.mem_append_left _, fun call made => ?_⟩
    rcases List.mem_append.mp made with before | last
    · exact asked call before
    · exact List.mem_singleton.mp last ▸ new
  | other same =>
    exact ⟨sound.calls fun call made => same.symm ▸ made, fun call made => asked call (same ▸ made)⟩

def accountable (permit : Permit) : Protocol system permit where
  Inv := Answerable
  Guar := Account permit
  Post _ _ _ _ := True
  guar_inv := Answerable.move
  drift_inv answerable _ expired := by
    cases expired with
    | lock => exact ⟨answerable.1.calls fun _ => id, answerable.2⟩

theorem accountable_admits (permit : Permit) :
    Admits (accountable permit) fun c => ∀ calls, c.Cites calls where
  stutter _ := .other rfl
  grows := by
    rintro who σ σ' ⟨_, ⟨pid, _, move⟩ | ⟨ext, _, expired, rfl⟩⟩
    · exact Account.grown move
    · cases expired with
      | lock => exact ⟨.refl _, fun _ => id⟩
  commits pid c σ cites answerable ready :=
    (ready.commits answerable.1.books).mono fun _ d' post permitted =>
      .commit permitted ready (cites _) post.1 post.2

/-- A program after one whose result does not matter. -/
theorem Admits.sequel {permit : Permit} {P : Protocol system permit} {ok : TxCall → Prop}
    (admits : Admits P ok) {σ : SharedState} {p : Svc α} {f : α → Svc β} (inv : P.Inv σ)
    (first : P.wp Statement.Learned pid p (fun _ _ => True) σ)
    (rest : ∀ value σ', P.Inv σ' → Grown σ σ' →
      P.wp Statement.Learned pid (f value) (fun _ _ => True) σ') :
    P.wp Statement.Learned pid (p.bind f) (fun _ _ => True) σ := by
  have framed := Protocol.wp_frame (F := Grown σ)
    (fun grown move => grown.trans (admits.grows move)) first inv (.refl σ)
  refine Protocol.wp_bind inv (Protocol.wp_mono framed fun result σ' inv' post => ?_)
  cases result with
  | ok value => exact rest value σ' inv' post.2
  | error error => exact fun _ _ _ => trivial

section Processor
variable {permit : Permit} {pid : Nat} {σ : SharedState} {event : OutboxEvent}

theorem accountable_returns (value : α) :
    (accountable permit).wp Statement.Learned pid (.pure value : Svc α) (fun _ _ => True) σ :=
      fun _ _ _ => trivial

theorem accountable_throws (error : Exception) :
    (accountable permit).wp Statement.Learned pid (.throw error : Svc α) (fun _ _ => True) σ :=
      fun _ _ _ => trivial

theorem accountable_resumes (result : Except Exception α) :
    (accountable permit).wp Statement.Learned pid (Service.resume result :
      Svc α) (fun _ _ => True) σ := by
  cases result <;> exact fun _ _ _ => trivial

/-- Whoever is ready for a transaction and has what it cites may commit it. -/
theorem accountable_transact {c : TxCall} (ready : c.Ready σ) (cites : c.Cites σ.ext.calls) :
    (accountable permit).wp Statement.Learned pid (transact c) (fun _ _ => True) σ := by
  intro σ' rely inv
  have grown := (accountable_admits permit).rely rely
  have ready' := ready.grown grown
  refine ⟨(ready'.commits inv.1.books).mono fun value d' post =>
    ⟨fun permitted => ?_, fun permitted => ?_⟩, fun error _ => accountable_resumes _⟩
  · exact ⟨.commit (.inl permitted) ready' (cites.mono grown.calls) post.1 post.2,
      accountable_resumes _⟩
  · exact ⟨.commit (.inr permitted) ready' (cites.mono grown.calls) post.1 post.2,
      accountable_resumes _⟩

theorem accountable_dispatch {txCtx : TransactionContext} {call : ProviderCall}
    (known : Known event σ) (matched : txCtx.Matches event.id σ.db) (made : call ∈ σ.ext.calls)
    (ofEvent : call.transactionId = event.transactionId) (ofRow : call.transactionId = txCtx.id) :
    (accountable permit).wp Statement.Learned pid
      (PaymentProcessorService.dispatch event txCtx call.result) (fun _ _ => True) σ := by
  have admits := accountable_admits permit
  have fails : call.result.success = false → (accountable permit).wp Statement.Learned pid
      (PaymentProcessorService.fail txCtx event.id call.result) (fun _ _ => True) σ := by
    refine fun refused => admits.draw fun σ' draw rely _ => ?_
    have grown := admits.rely rely
    exact accountable_transact (c := .fail txCtx event.id call.result draw)
      (matched.keeps grown.rows)
      ⟨call, grown.calls call made, ofRow, rfl, refused⟩
  unfold PaymentProcessorService.dispatch
  split
  · rename_i accepted
    simp only [Bool.and_eq_true] at accepted
    obtain ⟨row, found, terms⟩ := known
    have same : call.transactionId = row.transactionId :=
      ofEvent.trans (congrArg Prod.fst terms).symm
    refine admits.draw fun σ' draw rely _ => ?_
    have ready : (TxCall.markDelivered event.id draw.deliveredAt).Ready σ :=
      ⟨row, found, call, made, same, accepted.2, accepted.1⟩
    exact accountable_transact (ready.grown (admits.rely rely)) trivial
  split
  · rename_i refused
    simp only [Bool.and_eq_true, Bool.not_eq_true'] at refused
    exact fails refused.2
  split
  · rename_i success
    refine admits.draw fun σ' draw rely _ => ?_
    have grown := admits.rely rely
    exact accountable_transact (c := .settle txCtx event.id call.result draw)
      (matched.keeps grown.rows)
      ⟨call, grown.calls call made, ofRow, rfl, success⟩
  · rename_i failure
    exact fails (Bool.eq_false_iff.mpr failure)

theorem accountable_attempt (known : Known event σ) :
    (accountable permit).wp Statement.Learned pid (PaymentProcessorService.attempt event)
      (fun _ _ => True) σ := by
  have admits := accountable_admits permit
  have retry : ∀ {σ}, (accountable permit).wp Statement.Learned pid
    (transact (.incrementRetry event.id)) (fun _ _ => True) σ :=
    accountable_transact trivial trivial
  unfold PaymentProcessorService.attempt
  cases PaymentProcessorService.payloadUserId event.payload with
  | none => exact retry
  | some userId =>
    refine admits.ask rfl (fun σ₁ transaction rely _ answers => ?_) fun _ error _ =>
      accountable_throws error
    cases transaction with
    | none => exact retry
    | some transaction =>
      dsimp only
      cases provided : transaction.provider with
      | none => exact retry
      | some provider =>
        dsimp only
        cases resolved : PaymentProviderRegistry.resolve provider with
        | error error => exact accountable_throws error
        | ok adapter =>
          have known₁ := known.grown (admits.rely rely)
          have matched := known₁.matches answers provided resolved userId
          obtain ⟨t, found, rfl, of⟩ := selected_of_answers answers
          intro σ₂ rely' inv₂ permitted reply ext replied
          have grown := admits.rely rely'
          cases replied with
          | threw => exact ⟨.other rfl, accountable_throws _⟩
          | @returned result =>
            have asked : (ProviderCall.mk t.id adapter event.payload t.type
                result).Asked σ₂.db := by
              obtain ⟨row, listed, terms⟩ := known₁
              refine ProviderCall.Asked.keeps ⟨event.id, row, t, listed, ?_, congrArg (·.2.2) terms,
                of ▸ found, ?_, rfl⟩ grown.rows
              · exact (congrArg Prod.fst terms).trans of.symm
              · exact provided.trans (congrArg some (resolve_adapter resolved))
            have made : Grown σ₂ { σ₂ with ext := σ₂.ext.record ⟨t.id, adapter,
              event.payload, t.type, result⟩ } :=
              ⟨.refl _, fun _ => List.mem_append_left _⟩
            exact ⟨.call asked, accountable_dispatch ((known₁.grown grown).grown made)
              (matched.keeps grown.rows)
              (List.mem_append_right _ (List.mem_singleton_self _)) of rfl⟩

theorem accountable_processEvent (inv : Answerable σ) (known : Known event σ) :
    (accountable permit).wp Statement.Learned pid (PaymentProcessorService.processEvent event)
      (fun _ _ => True) σ := by
  refine Protocol.wp_handle inv
    (Protocol.wp_mono (accountable_attempt known) fun result σ' _ _ => ?_)
  cases result with
  | ok value => exact accountable_returns value
  | error error => exact accountable_transact trivial trivial

theorem accountable_processEvents {events : List OutboxEvent} (inv : Answerable σ)
    (known : ∀ event ∈ events, Known event σ) :
    (accountable permit).wp Statement.Learned pid (PaymentProcessorService.processEvents events)
      (fun _ _ => True) σ := by
  induction events generalizing σ with
  | nil => exact accountable_returns ()
  | cons event events ih =>
    refine (accountable_admits permit).sequel inv
      (accountable_processEvent inv (known event List.mem_cons_self))
      fun _ σ' inv' grown => ?_
    exact ih inv' fun other member => (known other (List.mem_cons_of_mem _ member)).grown grown

theorem accountable_processBatch :
    (accountable permit).wp Statement.Learned pid PaymentProcessorService.processBatch
      (fun _ _ => True) σ := by
  refine (accountable_admits permit).ask rfl (fun σ' events _ inv answers => ?_) fun _ error _ =>
    accountable_throws error
  exact accountable_processEvents inv fun event member =>
    .of_mem ((pending_of_answers answers).row member).1

theorem accountable_processOutbox :
    (accountable permit).wp Statement.Learned pid PaymentProcessorService.processOutbox
      (fun _ _ => True) σ := by
  intro σ' _ inv' _ reply ext replied
  have same : ext.calls = σ'.ext.calls := by cases replied <;> rfl
  refine ⟨.other same, ?_⟩
  cases reply with
  | error error => exact accountable_throws error
  | ok taken =>
    cases taken with
    | false => exact accountable_returns ()
    | true =>
      have inv := inv'.move (Account.other same : Account permit pid σ' _)
      have batch : (accountable permit).wp Statement.Learned pid
          ((PaymentProcessorService.processBatch.handle fun _ => .pure ()).bind fun _ => outside
            .delLock) (fun _ _ => True)
          { σ' with ext := ext } := by
        refine (accountable_admits permit).sequel inv ?_ fun _ σ₁ _ _ => ?_
        · refine Protocol.wp_handle inv
            (Protocol.wp_mono accountable_processBatch fun result σ₁ _ _ => ?_)
          cases result with
          | ok value => exact accountable_returns value
          | error error => exact accountable_returns ()
        · intro σ₂ _ _ _ reply ext replied
          exact ⟨.other (by cases replied <;> rfl), accountable_resumes reply⟩
      exact batch

/-- Every request is accountable. -/
theorem accountable_starts (request : Request) (inv : Answerable σ) :
    (accountable permit).wp Statement.Learned pid request.handler (fun _ _ => True) σ := by
  have admits := accountable_admits permit
  cases request with
  | register => exact admits.harmless (all_register fun _ _ => trivial)
  | deposit => exact admits.harmless (all_deposit fun _ _ => trivial)
  | withdraw => exact admits.harmless (all_withdraw fun _ _ => trivial)
  | transfer => exact admits.transfer (fun _ _ _ _ => trivial) inv
  | confirmDeposit => exact admits.harmless (all_confirmDeposit fun _ _ => trivial)
  | createPayout => exact admits.harmless (all_createPayout fun _ _ => trivial)
  | processOutbox =>
    exact admits.sequel inv accountable_processOutbox fun _ _ _ _ => accountable_returns _
  | processEvent id =>
    refine admits.ask rfl (fun σ₁ event _ inv₁ answers => ?_) fun _ error _ =>
      accountable_throws error
    cases event with
    | none => exact accountable_returns _
    | some event =>
      have found : σ₁.db.outboxEvents.get? id = some event := by
        rcases answers.2 with found | lost
        · exact (Except.ok.inj found).symm
        · cases lost
      exact admits.sequel inv₁ (accountable_processEvent inv₁ (.of_mem (Table.get?_mem found)))
        fun _ _ _ _ => accountable_returns _
  | closeAccount => exact admits.harmless (all_closeAccount fun _ _ => trivial)
  | updateUserStatus =>
    exact admits.harmless (all_updateUserStatus (fun _ _ => trivial) fun _ => trivial)
  | setConnectAccountId => exact admits.harmless (all_setConnectAccountId fun _ => trivial)
  | setPaypalEmail => exact admits.harmless (all_setPaypalEmail fun _ => trivial)

theorem accountable_of_reaches {w : State}
    (run : system.Reaches permit (World.init DB.empty Ext.idle) w) :
    (accountable permit).Safe (fun _ => True) Statement.Learned w :=
  ((Protocol.Safe.init (P := accountable permit) ⟨.init, nofun⟩).reaches (disciplined permit)
    (fun inv _ => accountable_starts _ inv) run).1

end Processor
end PaymentWallet
