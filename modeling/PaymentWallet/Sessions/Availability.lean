import PaymentWallet.Sessions.Services
import PaymentWallet.Foundation.Runs

/-! One request alone, while Redis and the database answer: how its operations end, at once
or with time passing between them. -/
namespace PaymentWallet.Sessions
open Foundation

/-- How an operation ends while Redis and the database answer. -/
def Available (config : Config) (pid : Nat) (op : ServiceOp TxCall Outside) (σ : SharedState)
    (reply : Except Exception (op.Result TxCall.Out Outside.Reply)) (σ' : SharedState) : Prop :=
  (sessions config).Alone anything pid op σ reply σ' ∧ reply ≠ .error .connectionLost

/-- The state after some time. -/
def after (σ : SharedState) (elapsed : Nat) : SharedState :=
  { σ with db := { σ.db with now := σ.db.now + elapsed } }

/-- Time passes before each operation. -/
def Clocked (config : Config) (pid : Nat) (op : ServiceOp TxCall Outside) (σ : SharedState)
    (reply : Except Exception (op.Result TxCall.Out Outside.Reply)) (σ' : SharedState) : Prop :=
  ∃ elapsed, Available config pid op (after σ elapsed) reply σ'

/-- Steps outside end as they may; where `sure`, the connection holds. -/
def Answering (config : Config) (pid : Nat) (sure : Prop)
    (step : (op : ServiceOp TxCall Outside) → SharedState →
      Except Exception (op.Result TxCall.Out Outside.Reply) →
      SharedState → Prop) : Prop :=
  ∀ {x σ reply σ'}, step (.outside x) σ reply σ' → (sure → reply ≠ .error .connectionLost) ∧
    ∃ ext, x.Answers config pid σ.db σ.ext reply ext ∧ σ' = { σ with ext := ext }

section Runs
variable {config : Config} {pid : Nat} {σ σ' : SharedState}
  {step : (op : ServiceOp TxCall Outside) → SharedState →
    Except Exception (op.Result TxCall.Out Outside.Reply) →
    SharedState → Prop}

theorem answering_alone : Answering config pid False ((sessions config).Alone anything pid) :=
  fun taken => ⟨nofun, taken.outside_inv⟩

theorem answering_available : Answering config pid True (Available config pid) :=
  fun taken => ⟨fun _ => taken.2, taken.1.outside_inv⟩

theorem Available.transact {c : TxCall} {value : c.Out} {d' : Store}
    {reply : Except Exception c.Out} (taken : Available config pid (.transact c) σ reply σ')
    (ran : postgres.run σ.db c.code σ.db = .ok (value, d')) :
    reply = .ok value ∧ σ' = σ.commit c d' := by
  obtain ⟨taken, held⟩ := taken
  rcases taken.transact with ⟨other, db, ran', rfl, rfl | rfl⟩ | ⟨_, error, rfl, rfl | failed⟩
  · cases ran.symm.trans ran'
    exact ⟨rfl, rfl⟩
  · exact absurd rfl held
  · exact absurd rfl held
  · cases ran.symm.trans failed

theorem available_transact {c : TxCall} {value : c.Out} {d' : Store}
    {reply : Except Exception c.Out} (run : (transact c).Runs (Available config pid) σ reply σ')
    (ran : postgres.run σ.db c.code σ.db = .ok (value, d')) :
    reply = .ok value ∧ σ' = σ.commit c d' :=
  (Service.runs_transact.mp run).transact ran

variable {sure : Prop} (answering : Answering config pid sure step)
include answering

theorem runs_ask {x : Outside} {f : x.Reply → Svc α} {result : Except Exception α}
    (run : ((outside x).bind f).Runs step σ result σ') :
    (∃ value ext, x.Answers config pid σ.db σ.ext (.ok value) ext ∧
      (f value).Runs step { σ with ext := ext } result σ') ∨
    ∃ error ext, x.Answers config pid σ.db σ.ext (.error error) ext ∧
      (sure → error ≠ .connectionLost) ∧
      result = .error error ∧ σ' = { σ with ext := ext } := by
  rcases Program.runs_bind.mp run with ⟨value, σ₁, read, rest⟩ | ⟨error, read, failed⟩
  · obtain ⟨_, ext, answers, rfl⟩ := answering (Service.runs_outside.mp read)
    exact .inl ⟨value, ext, answers, rest⟩
  · obtain ⟨held, ext, answers, rfl⟩ := answering (Service.runs_outside.mp read)
    exact .inr ⟨error, ext, answers, fun sure lost => held sure (congrArg _ lost), failed, rfl⟩

end Runs
end PaymentWallet.Sessions
