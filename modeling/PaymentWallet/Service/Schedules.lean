import PaymentWallet.Foundation.Interleaving
import PaymentWallet.Model.Services
import Mathlib.Data.List.Sort

/-! Computed runs of the service: reads answer what the store holds, and a schedule
chooses the draws, the provider's replies and which transactions break. -/
namespace PaymentWallet
open Foundation

/-- What the outside decides at one step. -/
structure Choice where
  draw : Draw := ⟨"", "", "", "", "", "", "", 0, 0, 0, 0⟩
  provider : Except Exception ProviderResult := .error .connectionLost

def Outside.answer (choice : Choice) (pid : Nat) :
    (x : Outside) → DB → Ext → Except Exception x.Reply × Ext
  | .findByIdempotencyKey key, d, ext =>
    (.ok (d.transactions.rows.find? fun row => row.idempotencyKey = key), ext)
  | .findByUserId userId, d, ext =>
    (.ok ((d.wallets.rows.find? fun row => row.userId = userId).map (·.id)), ext)
  | .findUser id, d, ext => (.ok (d.users.get? id), ext)
  | .findOutboxEvent id, d, ext => (.ok (d.outboxEvents.get? id), ext)
  | .findPendingProviderEvents limit maxRetries, d, ext =>
    (.ok (((d.outboxEvents.rows.filter (·.selectable maxRetries)).insertionSort
      fun first second => first.createdAt ≤ second.createdAt).take limit), ext)
  | .findTransactionById id, d, ext => (.ok ((d.transactions.get? id).map (·.selected)), ext)
  | .draw, _, ext => (.ok choice.draw, ext)
  | .process id adapter payload type, _, ext =>
    match choice.provider with
    | .ok result =>
      (.ok result, { ext with calls := ext.calls ++ [⟨id, adapter, payload, type, result⟩] })
    | .error error => (.error error, ext)
  | .setLock, _, ext =>
    match ext.lock with
    | none => (.ok true, { ext with lock := some ⟨pid, true⟩ })
    | some _ => (.ok false, ext)
  | .delLock, _, ext => (.ok (), { ext with lock := none })
  | .revokeToken, _, ext => (.ok (), ext)

theorem Outside.answer_answers (choice : Choice) (pid : Nat) (x : Outside) (d : DB) (ext : Ext) :
    x.Answers pid d ext (x.answer choice pid d ext).1 (x.answer choice pid d ext).2 := by
  cases x with
  | draw => exact ⟨rfl, _, rfl⟩
  | findPendingProviderEvents limit maxRetries =>
    refine ⟨rfl, _, ⟨_, List.perm_insertionSort _ _, ?_, rfl⟩, .inl rfl⟩
    have total : Std.Total fun first second : OutboxEvent => first.createdAt ≤ second.createdAt :=
      ⟨fun first second => Nat.le_total _ _⟩
    have trans : IsTrans OutboxEvent fun first second => first.createdAt ≤ second.createdAt :=
      ⟨fun _ _ _ => Nat.le_trans⟩
    exact List.pairwise_insertionSort _ _
  | process =>
    simp only [Outside.Answers, Outside.answer]
    cases choice.provider with
    | ok result => exact .returned
    | error error => exact .threw
  | setLock =>
    simp only [Outside.Answers, Outside.answer]
    cases held : ext.lock with
    | none => exact .acquired held
    | some lock => exact .taken held
  | delLock => exact .deleted
  | _ => exact ⟨rfl, .inl rfl⟩

/-- Requests with the turns that serve them. -/
abbrev Schedule := List (Request × List (Turn Choice))

/-- The shared state that a schedule leads to. -/
def Schedule.outcome (schedule : Schedule) (permit : Permit) [∀ σ label, Decidable (permit σ label)]
    (d₀ : DB) : Option SharedState :=
  system.serve Outside.answer (fun σ label => permit σ label) 0 schedule ⟨d₀, [], Ext.idle⟩

/-- A property that a schedule ends in holds in a reached state. -/
theorem Schedule.reaches (schedule : Schedule) (permit : Permit)
    [∀ σ label, Decidable (permit σ label)]
    (d₀ : DB) (P : SharedState → Prop) [DecidablePred P]
    (ends : (schedule.outcome permit d₀).any P) :
    ∃ w, system.Reaches permit (World.init d₀ Ext.idle) w ∧ P w.shared := by
  obtain ⟨σ, served, holds⟩ := (Option.any_eq_true ..).mp ends
  have free : ∀ other k, ¬ (World.init d₀ Ext.idle : State).Holds other k := by
    rintro other k ⟨request, phase, found, _⟩
    cases found
  obtain ⟨w, run, shared⟩ := System.serve_reaches (M := system) (w := World.init d₀ Ext.idle)
    postgres_unread Outside.answer_answers of_decide_eq_true (fun _ _ => rfl) free served
  exact ⟨w, run, shared ▸ of_decide_eq_true holds⟩

instance (σ : SharedState) (label : Label TxCall Outside Request Exception) :
    Decidable (anything σ label) :=
  inferInstanceAs (Decidable True)

theorem Schedule.reachable (schedule : Schedule) (P : SharedState → Prop) [DecidablePred P]
    (ends : (schedule.outcome anything DB.empty).any P) : ∃ w, Reachable w ∧ P w.shared :=
  schedule.reaches anything DB.empty P ends

/-- The store that an unrestricted schedule leads to. -/
def Schedule.store (schedule : Schedule) : DB :=
  ((schedule.outcome anything DB.empty).map (·.db)).getD DB.empty

/-- Ids drawn under a label. -/
def Draw.labelled (label : String) : Draw where
  userId := "user-" ++ label
  walletId := "wallet-" ++ label
  transactionId := "transaction-" ++ label
  ledgerEntryId := "entry-" ++ label
  secondLedgerEntryId := "second-entry-" ++ label
  paymentLogId := "log-" ++ label
  outboxEventId := "event-" ++ label
  createdAt := 0
  settledAt := 0
  deliveredAt := 0
  revokedAt := 0

namespace Schedule

/-- The turns of a lookup, a draw and a transaction that commits. -/
def initiates (label : String) : List (Turn Choice) :=
  [.answer {}, .answer { draw := .labelled label }, .commit]

def registers (name : String) : Request × List (Turn Choice) :=
  (.register ⟨name, name, name, ""⟩, [.answer { draw := .labelled name }, .commit])

/-- Five dollars from PayPal. -/
def deposits (name : String) : Request × List (Turn Choice) :=
  (.confirmDeposit ("user-" ++ name) ⟨.paypal, ⟨50000, Amount.fiveDollars_pos⟩, .usd,
    "deposit-" ++ name, none, none,
    some "nonce", none, by decide, by decide⟩, initiates ("deposit-" ++ name))

/-- A poll that finds one event; `ends` are the turns after the provider's reply. -/
def polls (provider : Except Exception ProviderResult) (ends : List (Turn Choice)) :
    Request × List (Turn Choice) :=
  (.processOutbox, [.answer {}, .answer {}, .answer {}, .answer { provider := provider }] ++
    ends ++ [.answer {}])

/-- The provider has charged the customer. -/
def charged : ProviderResult := ⟨true, false, some "reference", none, []⟩

end Schedule

/-- Requests in any interleaving of their steps. -/
abbrev Script := List (Cue Request Choice)

abbrev Stage := System.Stage Request TxCall Outside TxCall.Out Outside.Reply
    Exception Response DB Ext

def Ext.expire (ext : Ext) : Option Ext := ext.lock.map fun _ => { ext with lock := none }

theorem Ext.expires {ext ext' : Ext} (expired : ext.expire = some ext') : Expire ext ext' := by
  obtain ⟨lock, held, rfl⟩ := Option.map_eq_some_iff.mp expired
  exact .lock held

/-- Where a script leads to from an empty database. -/
def Script.outcome (script : Script) (permit : Permit) [∀ σ label, Decidable (permit σ label)] :
    Option Stage :=
  System.enact system Outside.answer (fun σ label => permit σ label) Ext.expire
    ⟨fun _ => none, DB.empty, [], Ext.idle⟩ script

theorem Script.reaches (script : Script) (permit : Permit) [∀ σ label, Decidable (permit σ label)]
    (P : Stage → Prop) [DecidablePred P] (ends : (script.outcome permit).any P) :
    ∃ stage : Stage, system.Reaches permit (World.init DB.empty Ext.idle) stage.world ∧
      P stage := by
  obtain ⟨stage, enacted, holds⟩ := (Option.any_eq_true ..).mp ends
  exact ⟨stage, System.enact_reaches postgres_unread Outside.answer_answers
    of_decide_eq_true Ext.expires enacted, of_decide_eq_true holds⟩

/-- What an unrestricted script leads to, and another one after it. -/
theorem Script.continues (first second : Script) (P : Stage → Stage → Prop)
    [∀ stage stage', Decidable (P stage stage')] (ends : (first.outcome anything).any fun stage =>
      (System.enact system Outside.answer (fun _ _ => true) Ext.expire stage
        second).any (P stage)) :
    ∃ stage stage' : Stage, Reachable stage.world ∧
      system.Reaches anything stage.world stage'.world ∧ P stage stage' := by
  obtain ⟨stage, run, later⟩ := first.reaches anything
    (fun stage => (System.enact system Outside.answer (fun _ _ => true) Ext.expire stage second).any
      (P stage)) (by simpa using ends)
  obtain ⟨stage', enacted, holds⟩ := (Option.any_eq_true ..).mp later
  exact ⟨stage, stage', run, System.enact_reaches postgres_unread Outside.answer_answers
    (fun _ => trivial) Ext.expires enacted, of_decide_eq_true holds⟩

/-- The process has answered its request as `P` says. -/
def Answered (stage : Stage) (pid : Nat) (request : Request) (P : Response → Prop) : Prop :=
  ∃ response, stage.ended pid = some (request, .ok response) ∧ P response

instance (stage : Stage) (pid : Nat) (request : Request) (P : Response → Prop) [DecidablePred P] :
    Decidable (Answered stage pid request P) :=
  decidable_of_iff ((stage.ended pid).any fun (other, result) => other = request &&
      match result with | .ok response => decide (P response) | .error _ => false) (by
    unfold Answered
    rcases stage.ended pid with _ | ⟨other, _ | response⟩ <;> simp)

namespace Script

/-- One process serves a request from beginning to end. -/
def serve (pid : Nat) (request : Request × List (Turn Choice)) : Script :=
  .start pid request.1 :: request.2.map (.turn pid)

/-- Processes serve their requests one after the other. -/
def history (schedule : Schedule) : Script :=
  schedule.zipIdx.flatMap fun (request, pid) => serve pid request

end Script
end PaymentWallet
