import PaymentWallet.Foundation.Program
import Mathlib.Logic.Relation

/-! Programs that only read, beside others that write. Each query is answered by the store of
its own moment, and others move in between. When what a program goes on with does not change
any more, it reads as if at one moment. -/
namespace Foundation

/-- `moves` are the steps of the others. A query whose answer does not arrive ends the program
with `lost`. -/
structure Observer (St Q : Type) (Reply : Q → Type) (ε : Type) where
  moves : St → St → Prop
  answer : St → (q : Q) → Reply q
  lost : ε

namespace Observer
variable {St Q ε α : Type} {Reply : Q → Type} (O : Observer St Q Reply ε)

def Later : St → St → Prop := Relation.ReflTransGen O.moves

/-- A program, begun at one state, ends with a result at another. -/
inductive Observes : Program Q Reply ε α → St → Except ε α → St → Prop where
  | pure : O.Later σ σ' → Observes (.pure value) σ (.ok value) σ'
  | throw : O.Later σ σ' → Observes (.throw error) σ (.error error) σ'
  | read {next : Reply q → Program Q Reply ε α} : O.Later σ σ₁ →
      Observes (next (O.answer σ₁ q)) σ₁ result σ' →
      Observes (.call q next) σ result σ'
  | lost : O.Later σ σ' → Observes (.call q next) σ (.error O.lost) σ'

/-- The result is lost, or it is the result of reading everything at one state on the way. -/
def Atomic (p : Program Q Reply ε α) (σ : St) (result : Except ε α) (σ' : St) : Prop :=
  result = .error O.lost ∨ ∃ σ₁, O.Later σ σ₁ ∧ O.Later σ₁ σ' ∧ result = p.eval (O.answer σ₁)

def Ends : Program Q Reply ε α → Prop
  | .pure _ | .throw _ => True
  | .call _ _ => False

/-- Whenever the program goes on to another query, every later answer makes it go on alike. -/
def Lasting : Program Q Reply ε α → St → Prop
  | .pure _, _ | .throw _, _ => True
  | .call q next, σ => ∀ σ₁, O.Later σ σ₁ → Ends (next (O.answer σ₁ q)) ∨
      ((∀ σ₂, O.Later σ₁ σ₂ → next (O.answer σ₂ q) = next (O.answer σ₁ q)) ∧
        Lasting (next (O.answer σ₁ q)) σ₁)

variable {O} {p : Program Q Reply ε α} {σ σ' : St} {result : Except ε α}

theorem Observes.later (observed : O.Observes p σ result σ') : O.Later σ σ' := by
  induction observed with
  | pure later | throw later | lost later => exact later
  | read earlier _ ih => exact earlier.trans ih

theorem Observes.ended (observed : O.Observes p σ result σ') (ends : Ends p)
    (answer : (q : Q) → Reply q) :
    result = p.eval answer := by
  cases observed with
  | pure | throw => rfl
  | read | lost => exact ends.elim

/-- A value comes after every query was answered. -/
theorem Observes.asked {q : Q} {next : Reply q → Program Q Reply ε α} {value : α}
    (observed : O.Observes (.call q next) σ (.ok value) σ') :
    ∃ σ₁, O.Later σ σ₁ ∧ O.Observes (next (O.answer σ₁ q)) σ₁ (.ok value) σ' := by
  cases observed with
  | read earlier rest => exact ⟨_, earlier, rest⟩

/-- The moment is that of the last query: the earlier answers are still the same there, as far
as the program goes by them. -/
theorem Observes.atomic (observed : O.Observes p σ result σ') (lasting : O.Lasting p σ) :
    O.Atomic p σ result σ' := by
  induction observed with
  | pure later | throw later => exact .inr ⟨_, .refl, later, rfl⟩
  | lost => exact .inl rfl
  | read earlier rest ih =>
    rcases lasting _ earlier with ends | ⟨same, lasting⟩
    · exact .inr ⟨_, earlier, rest.later, rest.ended ends _⟩
    · rcases ih lasting with lost | ⟨σ₂, between, after, here⟩
      · exact .inl lost
      · refine .inr ⟨σ₂, earlier.trans between, after, here.trans ?_⟩
        simp only [Program.eval, same σ₂ between]

/-- Everything may be read at one moment. -/
theorem Observes.at (earlier : O.Later σ σ₁) (later : O.Later σ₁ σ') (p : Program Q Reply ε α) :
    O.Observes p σ (p.eval (O.answer σ₁)) σ' := by
  induction p generalizing σ with
  | pure value => exact .pure (earlier.trans later)
  | throw error => exact .throw (earlier.trans later)
  | call q next ih => exact .read earlier (ih _ .refl)

/-- A reading that is not lost is that of one moment. -/
theorem Atomic.moment (atomic : O.Atomic p σ result σ') (arrived : result ≠ .error O.lost) :
    ∃ σ₁, O.Later σ σ₁ ∧ O.Later σ₁ σ' ∧ result = p.eval (O.answer σ₁) := by
  rcases atomic with lost | moment
  · exact absurd lost arrived
  · exact moment

/-- A single query is a moment. -/
theorem Lasting.single {q : Q} {next : Reply q → Program Q Reply ε α}
    (ends : ∀ reply, Ends (next reply)) :
    O.Lasting (.call q next) σ :=
  fun _ _ => .inl (ends _)

end Observer
end Foundation
