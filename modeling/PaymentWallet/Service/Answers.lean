import PaymentWallet.Service.Money
import PaymentWallet.Service.Processor

/-! What money requests answer: the row that they find or enter has their key, and the
log of commits tells who asked for it. -/
namespace PaymentWallet
open Foundation

/-- The response shows a transaction with the key. -/
def Shown (key : String) (response : Response) (d : DB) : Prop :=
  ∃ t ∈ d.transactions.rows, response.Shows t ∧ t.idempotencyKey = key

/-- Each committed initiation has its row. -/
def Attributed (σ : SharedState) : Prop :=
  ∀ c ∈ σ.log, ∀ key intent, c.carries key → c.intent = some intent →
    ∃ t ∈ σ.db.transactions.rows, t.idempotencyKey = key ∧ intent.Met σ.db t

section
variable {d d' : DB} {c : TxCall} {t t' : Transaction} {response : Response} {key : String}

theorem Response.Shows.congr (shows_ : response.Shows t) (id : t'.id = t.id)
    (same : t'.idempotencyKey = t.idempotencyKey) (terms : t'.terms = t.terms) :
    response.Shows t' := by
  simp only [Transaction.terms, Prod.mk.injEq] at terms
  obtain ⟨type, amount, currency, _⟩ := terms
  cases response with
  | mutation result =>
    obtain ⟨ofId, ofKey, ofType, ofAmount, ofCurrency⟩ := shows_
    exact ⟨ofId.trans id.symm, ofKey.trans same.symm, ofType.trans type.symm,
      ofAmount.trans amount.symm, ofCurrency.trans currency.symm⟩
  | payment response => exact Eq.trans shows_ id.symm
  | _ => cases shows_

/-- A row stays, with its key and its terms. -/
theorem TxCall.Effect.stays (effect : c.Effect d d') (keeps : d.Keeps d')
    (member : t ∈ d.transactions.rows) :
    ∃ t' ∈ d'.transactions.rows, t'.id = t.id ∧ t'.idempotencyKey = t.idempotencyKey ∧
      t'.terms = t.terms := by
  obtain ⟨t', found, terms⟩ := keeps.transactions _ _ (Table.get?_of_mem member)
  obtain ⟨other, found', same⟩ := effect.keepsKey _ _ (Table.get?_of_mem member)
  cases found.symm.trans found'
  exact ⟨t', Table.get?_mem found, Table.get?_key found, same, terms⟩

theorem Shown.commit (shown : Shown key response d) (effect : c.Effect d d') (keeps : d.Keeps d') :
    Shown key response d' := by
  obtain ⟨t, member, shows_, rfl⟩ := shown
  obtain ⟨t', member', id, same, terms⟩ := effect.stays keeps member
  exact ⟨t', member', shows_.congr id same terms, same⟩

theorem TxCall.Entered.row {value : c.Out} (entered : c.Entered value d) {intent : Intent}
    (carries : c.carries key) (asks : c.intent = some intent) :
    ∃ t ∈ d.transactions.rows, t.idempotencyKey = key ∧ intent.Met d t := by
  obtain ⟨t, _, found, same, met⟩ := entered key intent carries asks
  exact ⟨t, Table.get?_mem found, same, met⟩

theorem Attributed.commit {σ : SharedState} (attributed : Attributed σ) (effect : c.Effect σ.db d')
    (keeps : σ.db.Keeps d') (entered : ∀ key intent, c.carries key → c.intent = some intent →
      ∃ t ∈ d'.transactions.rows, t.idempotencyKey = key ∧ intent.Met d' t) :
    Attributed (σ.commit c d') := by
  intro call made key intent carries asks
  rcases List.mem_append.mp made with old | new
  · obtain ⟨t, member, rfl, met⟩ := attributed call old key intent carries asks
    obtain ⟨t', member', id, same, terms⟩ := effect.stays keeps member
    exact ⟨t', member', same, met.keeps keeps terms⟩
  · obtain rfl := List.mem_singleton.mp new
    exact entered key intent carries asks

end

/-- The books are kept, and each money request answers under its own key. -/
def answers (permit : Permit) : Protocol system permit where
  Inv σ := Sound σ ∧ Attributed σ
  Guar pid σ σ' := Move permit pid σ σ' ∧ (Attributed σ → Attributed σ')
  Post _ request result σ := ∀ key response, request.carries key → result = .ok response →
    Shown key response σ.db
  guar_inv inv guar := ⟨inv.1.move guar.1, guar.2 inv.2⟩
  drift_inv inv _ expired := by
    cases expired with
    | lock => exact ⟨inv.1.calls fun _ => id, inv.2⟩

section Answers
variable {permit : Permit} {pid : Nat} {σ σ' : SharedState}

/-- What a commit did, and the row that an initiation returned. -/
theorem TxCall.Ready.answers {c : TxCall} (pid : Nat) (ready : c.Ready σ)
    (inv : (answers permit).Inv σ) :
    Ensures σ.db c.code σ.db fun value d' => c.Entered value d' ∧
      (permit σ (.commit pid c) ∨ permit σ (.lost pid c) →
        (answers permit).Guar pid σ (σ.commit c d')) := by
  refine Ensures.mono (Engine.wp_and (ready.commits inv.1.books) ready.enters) ?_
  rintro value d' ⟨⟨effect, keeps⟩, entered⟩
  exact ⟨entered, fun permitted => ⟨.commit permitted ready effect keeps, fun attributed =>
    attributed.commit effect keeps fun _ _ => entered.row⟩⟩

theorem answers_admits (permit : Permit) : Admits (answers permit) fun _ => True where
  stutter _ := ⟨.call fun _ => id, id⟩
  grows := by
    rintro who σ σ' ⟨_, ⟨pid, _, move, _⟩ | ⟨ext, _, expired, rfl⟩⟩
    · exact move.grown
    · cases expired with
      | lock => exact ⟨.refl _, fun _ => id⟩
  commits pid c σ _ inv ready := (ready.answers pid inv).mono fun _ _ post => post.2

/-- A commit that initiates nothing. -/
theorem answers_quiet {c : TxCall} {d' : DB} (quiet : c.intent = none) (ready : c.Ready σ)
    (effect : c.Effect σ.db d') (keeps : σ.db.Keeps d')
    (permitted : permit σ (.commit pid c) ∨ permit σ (.lost pid c)) :
    (answers permit).Guar pid σ (σ.commit c d') :=
  ⟨.commit permitted ready effect keeps, fun attributed =>
    attributed.commit effect keeps fun _ _ _ asks => by
    cases quiet.symm.trans asks⟩

theorem TxCall.Records.quiet {c : TxCall} {call : ProviderCall} {d : DB}
    (records : c.Records call d) :
    c.intent = none := by
  cases c with
  | settle | fail | markDelivered => rfl
  | _ => cases records

theorem answers_follows (permit : Permit) (pid : Nat) :
    Follows (answers permit) pid fun _ _ _ => True where
  admits := { answers_admits permit with
    commits := fun pid _ _ _ => (answers_admits permit).commits pid trivial }
  sound inv := inv.1
  stable _ _ := trivial
  acquires _ replied := ⟨⟨.call (by cases replied <;> exact fun _ => id), id⟩, fun _ => trivial⟩
  releases _ _ replied := ⟨.call (by cases replied <;> exact fun _ => id), id⟩
  selects _ _ _ := trivial
  resumes _ _ _ := trivial
  calls _ _ _ _ := ⟨⟨.call fun _ => List.mem_append_left _, id⟩, trivial⟩
  skips _ := trivial
  retries _ _ effect keeps permitted := ⟨answers_quiet rfl trivial effect keeps permitted, trivial⟩
  records _ _ records ready effect keeps permitted :=
    ⟨answers_quiet records.quiet ready effect keeps permitted, trivial⟩
  forgets _ _ _ := trivial

theorem Shown.move {key : String} {response : Response} {who : Nat → Prop}
    (shown : Shown key response σ.db)
    (move : (answers permit).Moves who σ σ') : Shown key response σ'.db := by
  obtain ⟨_, ⟨pid, _, moved, _⟩ | ⟨ext, _, _, rfl⟩⟩ := move
  · cases moved with
    | commit _ _ effect keeps => exact shown.commit effect keeps
    | call => exact shown
  · exact shown

/-- Every response shows a transaction with the key. -/
def Answering (key : String) (result : Except Exception Response) (σ : SharedState) : Prop :=
  ∀ response, result = .ok response → Shown key response σ.db

variable {key : String}

theorem wp_answer {response : Response} (shown : Shown key response σ.db) :
    (answers permit).wp Statement.Learned pid (.pure response) (Answering key) σ := by
  rintro σ' rely _ response ⟨⟩
  exact rely.stable (F := fun σ => Shown key response σ.db) Shown.move shown

theorem wp_refuse (error : Exception) :
    (answers permit).wp Statement.Learned pid (.throw error) (Answering key) σ := by
  rintro σ' _ _ response ⟨⟩

variable (answer : Transaction → Response)

theorem wp_initiation {c : TxCall} {next : Except Exception c.Out → Svc Response}
    (announces : Announces key answer (.call (.transact c) next)) (shows_ : ∀ t, (answer t).Shows t)
    (ready : c.Ready σ) :
    (answers permit).wp Statement.Learned pid (.call (.transact c) next) (Answering key) σ := by
  obtain ⟨carries, announced, refused⟩ := announces
  obtain ⟨intent, asks⟩ := TxCall.carries_intent carries
  intro σ' rely inv
  have ready' : c.Ready σ' := ready.grown ((answers_admits permit).rely rely)
  have failed : ∀ {σ₁} error,
    (answers permit).wp Statement.Learned pid (next (.error error)) (Answering key) σ₁ :=
    fun error => refused error ▸ wp_refuse error
  refine ⟨(ready'.answers pid inv).mono ?_, fun error _ => failed error⟩
  rintro value d' ⟨entered, promised⟩
  obtain ⟨t, row, found, same, _⟩ := entered key intent carries asks
  obtain ⟨t', row', next_⟩ := announced value
  cases row.symm.trans row'
  refine ⟨fun permitted => ⟨promised (.inl permitted), ?_⟩, fun permitted =>
    ⟨promised (.inr permitted), failed _⟩⟩
  exact next_ ▸ wp_answer ⟨t, Table.get?_mem found, shows_ t, same⟩

/-- Where anyone is ready for the transaction. -/
theorem wp_announces {p : Svc Response} (announces : Announces key answer p)
    (shows_ : ∀ t, (answer t).Shows t) (harmless : p.All (Harmless fun _ => True)) :
    (answers permit).wp Statement.Learned pid p (Answering key) σ := by
  induction p generalizing σ with
  | pure value => cases announces
  | throw error => exact wp_refuse error
  | call op next ih =>
    cases op with
    | outside x =>
      exact (answers_admits permit).read harmless.1 fun _ reply _ _ _ =>
        ih reply (announces reply) (harmless.2 reply)
    | transact c => exact wp_initiation answer announces shows_ (harmless.1.2 σ)

end Answers

section Starts
variable {permit : Permit} {pid : Nat} {σ : SharedState} {key : String} {userId : UserId}

theorem found_of_answers {existing : Option Transaction}
    (answers : (Outside.findByIdempotencyKey key).Answers pid σ.db σ.ext (.ok existing) σ.ext) :
    existing = σ.db.transactions.rows.find? fun row => row.idempotencyKey = key := by
  rcases answers.2 with found | lost
  · exact Except.ok.inj found
  · cases lost

theorem wp_lookup {replay : Transaction → Response} {rest : Svc Response}
    (shows_ : ∀ t, (replay t).Shows t)
    (new : ∀ σ', (answers permit).Inv σ' →
      (answers permit).wp Statement.Learned pid rest (Answering key) σ') :
    (answers permit).wp Statement.Learned pid (lookup key replay rest) (Answering key) σ := by
  refine (answers_admits permit).ask rfl (fun σ' existing _ inv replied => ?_) fun _ error _ =>
    wp_refuse error
  have found := found_of_answers replied
  cases existing with
  | none => exact new σ' inv
  | some t => exact wp_answer ⟨t, List.mem_of_find?_eq_some found.symm, shows_ t,
      by simpa using List.find?_some found.symm⟩

theorem wp_transferring {dto : TransferDto} (other : userId ≠ dto.recipientUserId) :
    (answers permit).wp Statement.Learned pid (transferring userId dto)
      (Answering dto.idempotencyKey) σ := by
  have admits := answers_admits permit
  refine admits.ask rfl (fun σ₁ sender _ _ sent => ?_) fun _ error _ => wp_refuse error
  refine admits.ask rfl (fun σ₂ receiver rely _ received => ?_) fun _ error _ => wp_refuse error
  cases sender with
  | none => exact wp_refuse _
  | some sender =>
    cases receiver with
    | none => exact wp_refuse _
    | some receiver =>
      refine admits.draw fun σ₃ draw later _ => ?_
      refine wp_initiation ((Request.transfer userId dto).answer false)
        ⟨decide_eq_true rfl, fun t => ⟨t, rfl, rfl⟩,
          fun _ => rfl⟩ (Request.answer_shows _ _) ⟨other, ?_, ?_⟩
      · exact (findByUserId_owns sent).keeps (admits.rely (rely.trans later)).rows
      · exact (findByUserId_owns received).keeps (admits.rely later).rows

/-- The request looks its key up; where the key is new, `rest` is left of it. -/
structure Request.LooksUp (request : Request) (key : String) (rest : Svc Response) : Prop where
  handler : request.handler = lookup key (request.answer true) rest
  announces : Announces key (request.answer false) rest
  answers : ∀ {permit pid σ}, (answers permit).wp Statement.Learned pid rest (Answering key) σ

theorem initiate_looks_up {request : Request} {c : Draw → TxCall}
    {done : ∀ draw, (c draw).Out → Response}
    (handler : request.handler = lookup key (request.answer true) (initiate c done))
    (carries : ∀ draw, (c draw).carries key) (ready : ∀ draw σ, (c draw).Ready σ)
    (done_eq : ∀ draw out, ∃ t, (c draw).entered out = some t ∧
      done draw out = request.answer false t) :
    request.LooksUp key (initiate c done) :=
  ⟨handler, initiate_announces carries done_eq, wp_announces _ (initiate_announces carries done_eq)
    (request.answer_shows false) (all_initiate (fun _ => trivial) ready)⟩

theorem Request.looks_up {request : Request} (carries : request.carries key)
    (other : ¬ request.selfTransfer) :
    ∃ rest, request.LooksUp key rest := by
  cases request with
  | deposit =>
    obtain rfl := of_decide_eq_true carries
    exact ⟨_, initiate_looks_up deposit_handler (fun _ => decide_eq_true rfl) (fun _ _ => trivial)
      fun _ t => ⟨t, rfl, rfl⟩⟩
  | withdraw =>
    obtain rfl := of_decide_eq_true carries
    exact ⟨_, initiate_looks_up withdraw_handler (fun _ => decide_eq_true rfl) (fun _ _ => trivial)
      fun _ t => ⟨t, rfl, rfl⟩⟩
  | confirmDeposit =>
    obtain rfl := of_decide_eq_true carries
    exact ⟨_, initiate_looks_up confirmDeposit_handler
      (fun _ => decide_eq_true rfl) (fun _ _ => trivial)
      fun _ t => ⟨t, rfl, rfl⟩⟩
  | createPayout =>
    obtain rfl := of_decide_eq_true carries
    exact ⟨_, initiate_looks_up createPayout_handler
      (fun _ => decide_eq_true rfl) (fun _ _ => trivial)
      fun _ t => ⟨t, rfl, rfl⟩⟩
  | transfer userId dto =>
    obtain rfl := of_decide_eq_true carries
    have different : userId ≠ dto.recipientUserId := fun same => other (decide_eq_true same)
    exact ⟨_, transfer_handler different, transferring_announces, wp_transferring different⟩
  | _ => cases carries

theorem answers_starts {σ₀ : SharedState} (request : Request) (inv : (answers permit).Inv σ)
    (permitted : permit σ₀ (.start pid request)) :
    (answers permit).wp Statement.Learned pid request.handler
      ((answers permit).Post pid request) σ := by
  by_cases money : ∃ key, request.carries key
  · obtain ⟨key, carries⟩ := money
    have answered : (answers permit).wp Statement.Learned pid request.handler
        (Answering key) σ := by
      by_cases self : request.selfTransfer
      · exact Request.refused self ▸ wp_refuse _
      · obtain ⟨rest, looksUp⟩ := Request.looks_up carries self
        exact looksUp.handler ▸ wp_lookup (request.answer_shows true) fun _ _ => looksUp.answers
    refine Protocol.wp_mono answered fun result σ' _ post other response carries' same => ?_
    exact Request.carries_unique carries carries' ▸ post response same
  · refine Protocol.wp_mono ((answers_follows permit pid).starts request inv permitted) ?_
    exact fun _ _ _ _ key _ carries => absurd ⟨key, carries⟩ money

/-- The runs from an empty database. -/
theorem answers_of_reaches {w : State}
    (run : system.Reaches permit (World.init DB.empty Ext.idle) w) :
    (answers permit).Safe (fun _ => True) Statement.Learned w :=
  ((Protocol.Safe.init (P := answers permit) ⟨.init, fun _ made => by cases made⟩).reaches
    (disciplined permit) (fun inv permitted => answers_starts _ inv permitted) run).1

end Starts
end PaymentWallet
