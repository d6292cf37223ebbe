import PaymentWallet.Accounting.Commits
import PaymentWallet.Foundation.RelyGuarantee

/-! The requests that only read and then run one database transaction. Their
preconditions are computed for every protocol that admits the transaction, so
each protocol has to look at the outbox processor alone. -/
namespace PaymentWallet
open Foundation

/-- A money request with this key. -/
def Request.carries (key : String) : Request → Bool
  | .deposit _ dto | .withdraw _ dto => dto.idempotencyKey = key
  | .transfer _ dto => dto.idempotencyKey = key
  | .confirmDeposit _ dto => dto.idempotencyKey = key
  | .createPayout _ dto => dto.idempotencyKey = key
  | _ => false

/-- What no step takes back. -/
structure Grown (σ σ' : SharedState) : Prop where
  rows : σ.db.Keeps σ'.db
  calls : ∀ call ∈ σ.ext.calls, call ∈ σ'.ext.calls

theorem Grown.refl (σ : SharedState) : Grown σ σ := ⟨.refl σ.db, fun _ => id⟩

theorem Grown.trans {σ₁ σ₂ σ₃ : SharedState} (first : Grown σ₁ σ₂) (second : Grown σ₂ σ₃) :
    Grown σ₁ σ₃ :=
  ⟨first.rows.trans second.rows, fun call made => second.calls call (first.calls call made)⟩

theorem Accepted.mono {calls calls' : List ProviderCall} {id : TransactionId}
    (accepted : Accepted calls id) (sub : ∀ call ∈ calls, call ∈ calls') : Accepted calls' id := by
  obtain ⟨call, made, facts⟩ := accepted
  exact ⟨call, sub call made, facts⟩

theorem TxCall.Ready.grown {c : TxCall} {σ σ' : SharedState} (ready : c.Ready σ)
    (grown : Grown σ σ') :
    c.Ready σ' := by
  cases c with
  | transfer => exact ⟨ready.1, ready.2.1.keeps grown.rows, ready.2.2.keeps grown.rows⟩
  | settle | fail => exact TransactionContext.Matches.keeps ready grown.rows
  | markDelivered =>
    obtain ⟨event, found, accepted⟩ := ready
    obtain ⟨event', found', terms⟩ := grown.rows.outboxEvents _ _ found
    have of : event'.transactionId = event.transactionId := congrArg Prod.fst terms
    exact ⟨event', found', of ▸ accepted.mono grown.calls⟩
  | updateStatusOrRole => exact ready
  | _ => trivial

/-- The steps that leave the external state alone. -/
def Outside.reads : Outside → Bool
  | .process .. | .setLock | .delLock => false
  | _ => true

theorem Outside.Answers.same {x : Outside} {reply : Except Exception x.Reply} (reads : x.reads)
    (answers : x.Answers pid d ext reply ext') : ext' = ext := by
  cases x with
  | process | setLock | delLock => cases reads
  | _ => exact answers.1

/-- The protocol admits these transactions: whoever is ready for one may commit it. -/
structure Admits {permit : Permit} (P : Protocol system permit) (ok : TxCall → Prop) : Prop where
  stutter : ∀ {pid σ}, P.Inv σ → P.Guar pid σ σ
  grows : ∀ {who σ σ'}, P.Moves who σ σ' → Grown σ σ'
  commits : ∀ pid {c σ}, ok c → P.Inv σ → c.Ready σ → Ensures σ.db c.code σ.db fun _ d' =>
    permit σ (.commit pid c) ∨ permit σ (.lost pid c) → P.Guar pid σ (σ.commit c d')

section Admits
variable {permit : Permit} {P : Protocol system permit} {ok : TxCall → Prop} {pid : Nat}
  {σ : SharedState} {Q : Except Exception α → SharedState → Prop}

theorem Admits.rely (admits : Admits P ok) {σ' : SharedState} (rely : P.Rely pid σ σ') :
    Grown σ σ' := by
  induction rely with
  | refl => exact .refl σ
  | tail _ move ih => exact ih.trans (admits.grows move)

/-- Between two steps of a process nothing is taken back. -/
theorem Admits.own (admits : Admits P ok) {σ' : SharedState} (inv : P.Inv σ)
    (guar : P.Guar pid σ σ') :
    Grown σ σ' :=
  admits.grows (⟨inv, .inl ⟨pid, trivial, guar⟩⟩ : P.Moves (fun _ => True) σ σ')

theorem Admits.read (admits : Admits P ok) {x : Outside} (reads : x.reads)
    {next : Except Exception x.Reply → Svc α}
    (rest : ∀ σ' reply, P.Rely pid σ σ' → P.Inv σ' → x.Answers pid σ'.db σ'.ext reply σ'.ext →
      P.wp Statement.Learned pid (next reply) Q σ') :
    P.wp Statement.Learned pid (.call (.outside x) next) Q σ := by
  intro σ' rely inv _ reply ext answers
  obtain rfl := Outside.Answers.same reads answers
  exact ⟨admits.stutter inv, rest σ' reply rely inv answers⟩

theorem Admits.ask (admits : Admits P ok) {x : Outside} (reads : x.reads) {f : x.Reply → Svc α}
    (replied : ∀ σ' value, P.Rely pid σ σ' → P.Inv σ' →
      x.Answers pid σ'.db σ'.ext (.ok value) σ'.ext →
      P.wp Statement.Learned pid (f value) Q σ')
    (failed : ∀ σ' error, P.Rely pid σ σ' →
      P.wp Statement.Learned pid (.throw error : Svc α) Q σ') :
    P.wp Statement.Learned pid ((outside x).bind f) Q σ := by
  refine admits.read reads fun σ' reply rely inv answers => ?_
  cases reply with
  | ok value => exact replied σ' value rely inv answers
  | error error => exact failed σ' error rely

/-- Drawing never fails. -/
theorem Admits.draw (admits : Admits P ok) {f : Draw → Svc α}
    (rest : ∀ σ' draw, P.Rely pid σ σ' → P.Inv σ' → P.wp Statement.Learned pid (f draw) Q σ') :
    P.wp Statement.Learned pid ((outside .draw).bind f) Q σ := by
  refine admits.read rfl fun σ' reply rely inv answers => ?_
  obtain ⟨_, draw, rfl⟩ := answers
  exact rest σ' draw rely inv

theorem Admits.transact (admits : Admits P ok) {c : TxCall} (allowed : ok c) (ready : c.Ready σ)
    {next : Except Exception c.Out → Svc α}
    (rest : ∀ σ' result, Grown σ σ' → P.Inv σ' → P.wp Statement.Learned pid (next result) Q σ') :
    P.wp Statement.Learned pid (.call (.transact c) next) Q σ := by
  intro σ' rely inv
  have grown := admits.rely rely
  refine ⟨(admits.commits pid allowed inv (ready.grown grown)).mono fun value d' promised =>
    ⟨fun permitted => ?_, fun permitted => ?_⟩, fun error _ => rest σ' _ grown inv⟩
  · have guar := promised (.inl permitted)
    exact ⟨guar, rest _ _ (grown.trans (admits.own inv guar)) (P.guar_inv inv guar)⟩
  · have guar := promised (.inr permitted)
    exact ⟨guar, rest _ _ (grown.trans (admits.own inv guar)) (P.guar_inv inv guar)⟩

/-- A read, or a transaction that anyone is ready for. -/
def Harmless (ok : TxCall → Prop) : ServiceOp TxCall Outside → Prop
  | .transact c => ok c ∧ ∀ σ, c.Ready σ
  | .outside x => x.reads

theorem Admits.harmless (admits : Admits P ok) {p : Svc α} (uses : p.All (Harmless ok)) :
    P.wp Statement.Learned pid p (fun _ _ => True) σ := by
  induction p generalizing σ with
  | pure value => exact fun _ _ _ => trivial
  | throw error => exact fun _ _ _ => trivial
  | call op next ih =>
    cases op with
    | outside x => exact admits.read uses.1 fun _ reply _ _ _ => ih reply (uses.2 reply)
    | transact c =>
      exact admits.transact uses.1.1 (uses.1.2 σ) fun _ result _ _ => ih result (uses.2 result)

end Admits

section Uses
variable {good : ServiceOp TxCall Outside → Prop}

theorem all_resume (result : Except Exception α) : (Service.resume result : Svc α).All good := by
  cases result <;> trivial

@[simp] theorem all_outside {x : Outside} : (outside x).All good ↔ good (.outside x) :=
  and_iff_left all_resume

@[simp] theorem all_transact {c : TxCall} : (transact c).All good ↔ good (.transact c) :=
  and_iff_left all_resume

variable {ok : TxCall → Prop}

theorem all_lookup {key : String} {p : Option Transaction → Svc α}
    (replays : ∀ t, (p (some t)).All (Harmless ok)) (initiates : (p none).All (Harmless ok)) :
    ((outside (.findByIdempotencyKey key)).bind p).All (Harmless ok) := by
  refine .bind (all_outside.mpr rfl) fun existing => ?_
  cases existing with
  | some t => exact replays t
  | none => exact initiates

theorem all_initiate {c : Draw → TxCall} {done : (draw : Draw) → (c draw).Out → α}
    (allowed : ∀ draw, ok (c draw)) (ready : ∀ draw σ, (c draw).Ready σ) :
    ((outside .draw).bind fun draw => (transact (c draw)).bind fun out =>
      (Program.pure (done draw out) : Svc α)).All (Harmless ok) := by
  refine .bind (all_outside.mpr rfl) fun draw => ?_
  exact .bind (all_transact.mpr ⟨allowed draw, ready draw⟩) fun _ => trivial

variable {userId : UserId}

theorem all_register {data : CreateUserInput}
    (allowed : ∀ draw, ok (.createUserWithWallet data draw)) :
    (Request.register data).handler.All (Harmless ok) := by
  refine .bind (.handle (.bind (all_outside.mpr rfl) fun draw => ?_) fun error => ?_) fun _ =>
    trivial
  · exact all_transact.mpr ⟨allowed draw, fun _ => trivial⟩
  · cases error <;> trivial

theorem all_deposit {dto : DepositDto} (allowed : ∀ draw, ok (.deposit userId dto draw)) :
    (Request.deposit userId dto).handler.All (Harmless ok) :=
  .bind (all_lookup (fun _ => trivial) (all_initiate allowed fun _ _ => trivial)) fun _ => trivial

theorem all_withdraw {dto : WithdrawalDto} (allowed : ∀ draw, ok (.withdraw userId dto draw)) :
    (Request.withdraw userId dto).handler.All (Harmless ok) :=
  .bind (all_lookup (fun _ => trivial) (all_initiate allowed fun _ _ => trivial)) fun _ => trivial

theorem all_confirmDeposit {dto : ConfirmDepositDto}
    (allowed : ∀ draw, ok (.confirmDeposit userId dto draw)) :
    (Request.confirmDeposit userId dto).handler.All (Harmless ok) :=
  .bind (all_lookup (fun _ => trivial) (all_initiate allowed fun _ _ => trivial)) fun _ => trivial

theorem all_createPayout {dto : CreatePayoutDto}
    (allowed : ∀ draw, ok (.createPayout userId dto draw)) :
    (Request.createPayout userId dto).handler.All (Harmless ok) :=
  .bind (all_lookup (fun _ => trivial) (all_initiate allowed fun _ _ => trivial)) fun _ => trivial

theorem all_closeUser (allowed : ∀ draw, ok (.closeAccount userId draw)) :
    (UsersService.closeUser userId).All (Harmless ok) :=
  .bind (all_outside.mpr rfl) fun draw => all_transact.mpr ⟨allowed draw, fun _ => trivial⟩

theorem all_closeAccount (allowed : ∀ draw, ok (.closeAccount userId draw)) :
    (Request.closeAccount userId).handler.All (Harmless ok) := by
  refine .bind (.bind (all_outside.mpr rfl) fun user => ?_) fun _ => trivial
  cases user with
  | none => trivial
  | some user => exact .bind (all_closeUser allowed) fun _ => all_outside.mpr rfl

/-- CLOSED goes the way of `closeAccount`; any other status is written as it is. -/
theorem all_updateUserStatus {requesterId targetId : UserId} {status : Option AccountStatus}
    {role : Option Role} (closes : ∀ draw, ok (.closeAccount targetId draw))
    (updates : ok (.updateStatusOrRole targetId status role)) :
    (Request.updateUserStatus requesterId targetId status role).handler.All (Harmless ok) := by
  refine .bind ?_ fun _ => trivial
  unfold UsersService.updateUserStatus
  split
  · trivial
  split
  · trivial
  refine .bind (all_outside.mpr rfl) fun user => ?_
  cases user with
  | none => trivial
  | some user =>
    dsimp only
    split
    · exact .bind (all_closeUser closes) fun _ => all_outside.mpr rfl
    · rename_i open_
      exact .bind (all_transact.mpr ⟨updates, fun _ => open_⟩) fun _ => all_outside.mpr rfl

theorem all_setConnectAccountId {account : Option String}
    (allowed : ok (.setConnectAccountId userId account)) :
    (Request.setConnectAccountId userId account).handler.All (Harmless ok) :=
  .bind (all_transact.mpr ⟨allowed, fun _ => trivial⟩) fun _ => trivial

theorem all_setPaypalEmail {email : Option String} (allowed : ok (.setPaypalEmail userId email)) :
    (Request.setPaypalEmail userId email).handler.All (Harmless ok) :=
  .bind (all_transact.mpr ⟨allowed, fun _ => trivial⟩) fun _ => trivial

end Uses

theorem findByUserId_owns {σ : SharedState} {userId : UserId} {id : WalletId}
    (answers : (Outside.findByUserId userId).Answers pid σ.db σ.ext (.ok (some id)) σ.ext) :
    σ.db.Owns userId id := by
  rcases answers.2 with found | lost
  · exact find_owner (by simpa using found.symm)
  · cases lost

/-- Both wallets of a transfer are read before its transaction, and stay owned. -/
theorem Admits.transfer {permit : Permit} {P : Protocol system permit}
    {ok : TxCall → Prop} {σ : SharedState}
    (admits : Admits P ok) {userId : UserId} {dto : TransferDto}
    (allowed : ∀ sender receiver draw, ok (.transfer userId dto sender receiver draw))
    (inv : P.Inv σ) :
    P.wp Statement.Learned pid (Request.transfer userId dto).handler (fun _ _ => True) σ := by
  have ends : ∀ {α : Type} (result : Except Exception α) {σ : SharedState},
      P.wp Statement.Learned pid (Service.resume result : Svc α) (fun _ _ => True) σ :=
    fun result => admits.harmless (all_resume result)
  refine Protocol.wp_bind inv (Protocol.wp_mono (Q := fun _ _ => True) ?_ fun result σ _ _ => ?_)
  · unfold TransactionService.transfer
    split
    · exact ends (.error _)
    rename_i other
    refine admits.ask rfl (fun σ₁ existing _ _ _ => ?_) fun _ error _ => ends (.error error)
    cases existing with
    | some existing => exact ends (.ok _)
    | none =>
      refine admits.ask rfl (fun σ₂ sender _ _ sent => ?_) fun _ error _ => ends (.error error)
      refine admits.ask rfl (fun σ₃ receiver rely _ received => ?_) fun _ error _ =>
        ends (.error error)
      cases sender with
      | none => exact ends (.error _)
      | some sender =>
        cases receiver with
        | none => exact ends (.error _)
        | some receiver =>
          refine admits.draw fun σ₄ draw later _ => ?_
          refine admits.transact (allowed sender receiver draw) ⟨other, ?_,
            ?_⟩ fun _ result _ _ => ?_
          · exact (findByUserId_owns sent).keeps (admits.rely (rely.trans later)).rows
          · exact (findByUserId_owns received).keeps (admits.rely later).rows
          · cases result <;> exact fun _ _ _ => trivial
  · cases result <;> exact fun _ _ _ => trivial

end PaymentWallet
