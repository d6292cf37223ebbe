import PaymentWallet.Accounting.Ownership
import PaymentWallet.Service.Requests

/-! The shape of money requests. Each looks its key up first, answers from the row that
it finds there, and otherwise initiates one transaction and answers from its row. No
other request initiates anything. -/
namespace PaymentWallet
open Foundation

def Request.key : Request → Option String
  | .deposit _ dto | .withdraw _ dto => some dto.idempotencyKey
  | .transfer _ dto => some dto.idempotencyKey
  | .confirmDeposit _ dto => some dto.idempotencyKey
  | .createPayout _ dto => some dto.idempotencyKey
  | _ => none

def Request.intent : Request → Option Intent
  | .deposit userId dto => some ⟨userId, .deposit, dto.amount, dto.currency⟩
  | .withdraw userId dto => some ⟨userId, .withdrawal, dto.amount, dto.currency⟩
  | .transfer userId dto => some ⟨userId, .transfer, dto.amount, dto.currency⟩
  | .confirmDeposit userId dto => some ⟨userId, .deposit, dto.amount, dto.currency⟩
  | .createPayout userId dto => some ⟨userId, .withdrawal, dto.amount, dto.currency⟩
  | _ => none

/-- The transaction that a money request initiates, with some draw. -/
inductive Request.Makes : Request → TxCall → Prop where
  | deposit : Makes (.deposit userId dto) (.deposit userId dto draw)
  | withdraw : Makes (.withdraw userId dto) (.withdraw userId dto draw)
  | transfer : Makes (.transfer userId dto) (.transfer userId dto sender receiver draw)
  | confirmDeposit : Makes (.confirmDeposit userId dto) (.confirmDeposit userId dto draw)
  | createPayout : Makes (.createPayout userId dto) (.createPayout userId dto draw)

theorem Request.Makes.same {request : Request} {c : TxCall} (makes : request.Makes c) :
    c.intent = request.intent ∧ ∀ key, c.carries key = request.carries key := by
  cases makes <;> exact ⟨rfl, fun _ => rfl⟩

/-- The response describes this transaction, or names it. -/
def Response.Shows (response : Response) (t : Transaction) : Prop :=
  match response with
  | .mutation result => result.data.id = t.id ∧ result.data.idempotencyKey = t.idempotencyKey ∧
      result.data.type = t.type ∧ result.data.amount = t.amount ∧ result.data.currency = t.currency
  | .payment response => response.transactionId = t.id
  | _ => False

/-- Whatever it reads, the program throws, or it initiates under the key and answers
from the row that it entered. -/
def Announces (key : String) (answer : Transaction → Response) : Svc Response → Prop
  | .pure _ => False
  | .throw _ => True
  | .call (.outside _) next => ∀ reply, Announces key answer (next reply)
  | .call (.transact c) next => c.carries key ∧
      (∀ value, ∃ t, c.entered value = some t ∧ next (.ok value) = .pure (answer t)) ∧
      ∀ error, next (.error error) = .throw error

/-- The lookup of the key, before anything else. -/
def lookup (key : String) (replay : Transaction → Response) (rest : Svc Response) : Svc Response :=
  (outside (.findByIdempotencyKey key)).bind fun
    | some existing => .pure (replay existing)
    | none => rest

/-- A draw, and the transaction that is initiated with it. -/
def initiate (c : Draw → TxCall) (done : ∀ draw, (c draw).Out → Response) : Svc Response :=
  (outside .draw).bind fun draw => (transact (c draw)).bind fun out => .pure (done draw out)

/-- The service's answer to a money request. -/
def Request.answer (replayed : Bool) : Request → Transaction → Response
  | .deposit .., t | .withdraw .., t | .transfer .., t =>
    .mutation ⟨TransactionService.toResult t, replayed⟩
  | _, t => .payment ⟨t.id, t.status⟩

/-- A transfer to oneself is refused before the lookup. -/
def Request.selfTransfer : Request → Bool
  | .transfer userId dto => userId = dto.recipientUserId
  | _ => false

section Handlers
variable {key : String} {answer : Transaction → Response} {userId : UserId}

theorem TxCall.carries_intent {c : TxCall} (carries : c.carries key) :
    ∃ intent, c.intent = some intent := by
  cases c with
  | deposit | withdraw | transfer | confirmDeposit | createPayout => exact ⟨_, rfl⟩
  | _ => cases carries

theorem announces_ask {x : Outside} {f : x.Reply → Svc Response}
    (rest : ∀ value, Announces key answer (f value)) :
    Announces key answer ((outside x).bind f) := by
  intro reply
  cases reply with
  | ok value => exact rest value
  | error error => trivial

theorem initiate_announces {c : Draw → TxCall} {done : ∀ draw, (c draw).Out → Response}
    (carries : ∀ draw, (c draw).carries key)
    (done_eq : ∀ draw out, ∃ t, (c draw).entered out = some t ∧ done draw out = answer t) :
    Announces key answer (initiate c done) := by
  refine announces_ask fun draw => ⟨carries draw, fun out => ?_, fun _ => rfl⟩
  obtain ⟨t, entered, same⟩ := done_eq draw out
  exact ⟨t, entered, congrArg Program.pure same⟩

/-- What is left of a transfer whose key is new. -/
def transferring (userId : UserId) (dto : TransferDto) : Svc Response :=
  (outside (.findByUserId userId)).bind fun sender =>
    (outside (.findByUserId dto.recipientUserId)).bind fun receiver =>
      match sender, receiver with
      | none, _ => .throw (.forbidden "Sender wallet not found")
      | some _, none => .throw (.forbidden "Recipient wallet not found")
      | some sender, some receiver =>
        initiate (fun draw => .transfer userId dto sender receiver draw)
          fun _ => (Request.transfer userId dto).answer false

theorem transferring_announces {dto : TransferDto} :
    Announces dto.idempotencyKey ((Request.transfer userId dto).answer false)
      (transferring userId dto) := by
  refine announces_ask fun sender => announces_ask fun receiver => ?_
  cases sender with
  | none => trivial
  | some sender =>
    cases receiver with
    | none => trivial
    | some receiver =>
      exact initiate_announces (fun _ => decide_eq_true rfl) fun _ t => ⟨t, rfl, rfl⟩

theorem deposit_handler {dto : DepositDto} : (Request.deposit userId dto).handler =
    lookup dto.idempotencyKey ((Request.deposit userId dto).answer true)
      (initiate (fun draw => .deposit userId dto draw) fun _ =>
        (Request.deposit userId dto).answer false) := by
  simp only [Request.handler, TransactionService.deposit, lookup, initiate, Request.answer,
    Program.bind_def, Program.pure_def, Program.bind_assoc]
  congr 1
  funext existing
  cases existing <;> simp only [Program.pure_bind, Program.bind_assoc]

theorem withdraw_handler {dto : WithdrawalDto} : (Request.withdraw userId dto).handler =
    lookup dto.idempotencyKey ((Request.withdraw userId dto).answer true)
      (initiate (fun draw => .withdraw userId dto draw) fun _ =>
        (Request.withdraw userId dto).answer false) := by
  simp only [Request.handler, TransactionService.withdraw, lookup, initiate, Request.answer,
    Program.bind_def, Program.pure_def, Program.bind_assoc]
  congr 1
  funext existing
  cases existing <;> simp only [Program.pure_bind, Program.bind_assoc]

theorem confirmDeposit_handler {dto : ConfirmDepositDto} :
    (Request.confirmDeposit userId dto).handler =
    lookup dto.idempotencyKey ((Request.confirmDeposit userId dto).answer true)
      (initiate (fun draw => .confirmDeposit userId dto draw)
        fun _ => (Request.confirmDeposit userId dto).answer false) := by
  simp only [Request.handler, PaymentService.confirmDeposit, lookup, initiate, Request.answer,
    Program.bind_def, Program.pure_def, Program.bind_assoc]
  congr 1
  funext existing
  cases existing <;> simp only [Program.pure_bind, Program.bind_assoc]

theorem createPayout_handler {dto : CreatePayoutDto} : (Request.createPayout userId dto).handler =
    lookup dto.idempotencyKey ((Request.createPayout userId dto).answer true)
      (initiate (fun draw => .createPayout userId dto draw)
        fun _ => (Request.createPayout userId dto).answer false) := by
  simp only [Request.handler, PaymentService.createPayout, lookup, initiate, Request.answer,
    Program.bind_def, Program.pure_def, Program.bind_assoc]
  congr 1
  funext existing
  cases existing <;> simp only [Program.pure_bind, Program.bind_assoc]

theorem transfer_handler {dto : TransferDto} (other : userId ≠ dto.recipientUserId) :
    (Request.transfer userId dto).handler =
      lookup dto.idempotencyKey ((Request.transfer userId dto).answer true)
        (transferring userId dto) := by
  simp only [Request.handler, TransactionService.transfer, if_neg other, lookup, transferring,
    initiate, Request.answer, Program.bind_def, Program.pure_def,
    Program.throw_def, Program.bind_assoc]
  congr 1
  funext existing
  cases existing with
  | some existing => rfl
  | none =>
    simp only [Program.bind_assoc]
    congr 1
    funext sender
    congr 1
    funext receiver
    cases sender with
    | none => rfl
    | some sender =>
      cases receiver with
      | none => rfl
      | some receiver => simp only [Program.bind_assoc, Program.pure_bind]

theorem Request.answer_shows (request : Request) (replayed : Bool) (t : Transaction) :
    (request.answer replayed t).Shows t := by
  cases request with
  | deposit | withdraw | transfer => exact ⟨rfl, rfl, rfl, rfl, rfl⟩
  | _ => exact Eq.refl t.id

theorem Request.refused {request : Request} (self : request.selfTransfer) :
    request.handler = .throw (.badRequest "Cannot transfer to yourself.") := by
  cases request with
  | transfer userId dto =>
    simp only [Request.handler, TransactionService.transfer, if_pos (of_decide_eq_true self)]
    rfl
  | _ => cases self

theorem Request.carries_iff {request : Request} : request.carries key ↔ request.key = some key := by
  cases request <;> simp [carries, Request.key]

theorem Request.carries_unique {request : Request} {other : String} (carries : request.carries key)
    (carries' : request.carries other) : key = other :=
  Option.some.inj ((carries_iff.mp carries).symm.trans (carries_iff.mp carries'))

end Handlers

/-- The operations on the lock key. -/
def Outside.locks : Outside → Bool
  | .setLock | .delLock => true
  | _ => false

section Transactions
variable {good : ServiceOp TxCall Outside → Prop}
  (outside_ : ∀ x, x.locks = false → good (.outside x))
include outside_

theorem all_ask {x : Outside} {f : x.Reply → Svc α} (rest : ∀ value, (f value).All good)
    (free : x.locks = false := by rfl) : ((outside x).bind f).All good :=
  .bind (all_outside.mpr (outside_ x free)) rest

theorem all_draw {c : Draw → TxCall} {f : ∀ draw, (c draw).Out → Svc α}
    (here : ∀ draw, good (.transact (c draw))) (rest : ∀ draw out, (f draw out).All good) :
    ((outside .draw).bind fun draw => (transact (c draw)).bind (f draw)).All good :=
  all_ask outside_ fun draw => .bind (all_transact.mpr (here draw)) (rest draw)

variable (quiet : ∀ c, c.intent = none → good (.transact c))
include quiet

theorem all_dispatch {event : OutboxEvent} {txCtx : TransactionContext} {result : ProviderResult} :
    (PaymentProcessorService.dispatch event txCtx result).All good := by
  unfold PaymentProcessorService.dispatch
  split
  · exact all_ask outside_ fun draw => all_transact.mpr (quiet _ rfl)
  split
  · exact all_ask outside_ fun draw => all_transact.mpr (quiet _ rfl)
  split
  · exact all_ask outside_ fun draw => all_transact.mpr (quiet _ rfl)
  · exact all_ask outside_ fun draw => all_transact.mpr (quiet _ rfl)

theorem all_processEvent {event : OutboxEvent} :
    (PaymentProcessorService.processEvent event).All good := by
  have retry : (transact (.incrementRetry event.id)).All good := all_transact.mpr (quiet _ rfl)
  refine .handle ?_ fun _ => retry
  unfold PaymentProcessorService.attempt
  cases PaymentProcessorService.payloadUserId event.payload with
  | none => exact retry
  | some userId =>
    refine all_ask outside_ fun transaction => ?_
    cases transaction with
    | none => exact retry
    | some transaction =>
      dsimp only
      cases transaction.provider with
      | none => exact retry
      | some provider =>
        exact .bind (all_resume _) fun adapter => all_ask outside_ fun result =>
          all_dispatch outside_ quiet

theorem all_processBatch : PaymentProcessorService.processBatch.All good := by
  refine all_ask outside_ fun events => ?_
  induction events with
  | nil => trivial
  | cons event events ih => exact .bind (all_processEvent outside_ quiet) fun _ => ih

theorem all_processOutbox (locks : ∀ x, x.locks → good (.outside x)) :
    PaymentProcessorService.processOutbox.All good := by
  refine .bind (all_outside.mpr (locks _ rfl)) fun acquired => ?_
  cases acquired with
  | false => trivial
  | true =>
    exact .bind (.handle (all_processBatch outside_ quiet) fun _ => trivial) fun _ =>
      all_outside.mpr (locks _ rfl)

/-- The transactions of a request: it initiates what it asks for, under its own key. -/
theorem Request.all_handler (request : Request)
    (locks : request = .processOutbox → ∀ x, x.locks → good (.outside x))
    (initiates : ∀ c, request.Makes c → ¬ request.selfTransfer → good (.transact c)) :
    request.handler.All good := by
  have looks : ∀ {key replay rest}, rest.All good → (lookup key replay rest).All good :=
    fun rest => all_ask outside_ fun existing => by cases existing with
      | none => exact rest
      | some t => trivial
  have closes : ∀ {userId}, (UsersService.closeUser userId).All good :=
    all_ask outside_ fun draw => all_transact.mpr (quiet _ rfl)
  cases request with
  | register =>
    refine .bind (.handle (all_ask outside_ fun draw => all_transact.mpr (quiet _ rfl))
      fun error => ?_) fun _ => trivial
    cases error <;> trivial
  | deposit =>
    rw [deposit_handler]
    exact looks (all_draw outside_ (fun _ =>
      initiates _ .deposit Bool.false_ne_true) fun _ _ => trivial)
  | withdraw =>
    rw [withdraw_handler]
    exact looks (all_draw outside_ (fun _ =>
      initiates _ .withdraw Bool.false_ne_true) fun _ _ => trivial)
  | confirmDeposit =>
    rw [confirmDeposit_handler]
    exact looks (all_draw outside_ (fun _ =>
      initiates _ .confirmDeposit Bool.false_ne_true) fun _ _ => trivial)
  | createPayout =>
    rw [createPayout_handler]
    exact looks (all_draw outside_ (fun _ =>
      initiates _ .createPayout Bool.false_ne_true) fun _ _ => trivial)
  | transfer userId dto =>
    by_cases self : (Request.transfer userId dto).selfTransfer
    · rw [Request.refused self]
      trivial
    rw [transfer_handler fun same => self (decide_eq_true same)]
    refine looks (all_ask outside_ fun sender => all_ask outside_ fun receiver => ?_)
    cases sender with
    | none => trivial
    | some sender =>
      cases receiver with
      | none => trivial
      | some receiver =>
        exact all_draw outside_ (fun _ => initiates _ .transfer self) fun _ _ => trivial
  | processOutbox => exact .bind (all_processOutbox outside_ quiet (locks rfl)) fun _ => trivial
  | processEvent id =>
    refine all_ask outside_ fun event => ?_
    cases event with
    | none => trivial
    | some event => exact .bind (all_processEvent outside_ quiet) fun _ => trivial
  | closeAccount userId =>
    refine .bind (all_ask outside_ fun user => ?_) fun _ => trivial
    cases user with
    | none => trivial
    | some user => exact .bind closes fun _ => all_outside.mpr (outside_ _ rfl)
  | updateUserStatus requesterId targetId status role =>
    refine .bind ?_ fun _ => trivial
    unfold UsersService.updateUserStatus
    split
    · trivial
    split
    · trivial
    refine all_ask outside_ fun user => ?_
    cases user with
    | none => trivial
    | some user =>
      dsimp only
      split
      · exact .bind closes fun _ => all_outside.mpr (outside_ _ rfl)
      · exact .bind (all_transact.mpr (quiet _ rfl)) fun _ => all_outside.mpr (outside_ _ rfl)
  | setConnectAccountId | setPaypalEmail =>
    exact .bind (all_transact.mpr (quiet _ rfl)) fun _ => trivial

end Transactions
end PaymentWallet
