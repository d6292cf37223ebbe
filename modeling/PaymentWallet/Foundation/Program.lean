import Mathlib.Logic.Basic

/-! Finite interaction programs. A program returns, throws, or performs one
operation and continues with its reply, so every run of it visits finitely many
operations and one definition serves every semantics given to the operations. -/
namespace Foundation

/-- Programs over operations `Op` with dependent replies and exceptions `ε`. -/
inductive Program (Op : Type) (Reply : Op → Type) (ε α : Type) where
  | pure (value : α)
  | throw (error : ε)
  | call (op : Op) (next : Reply op → Program Op Reply ε α)

namespace Program
variable {Op : Type} {Reply : Op → Type} {ε α β : Type}

def bind : Program Op Reply ε α → (α → Program Op Reply ε β) → Program Op Reply ε β
  | .pure value, f => f value
  | .throw error, _ => .throw error
  | .call op next, f => .call op fun reply => (next reply).bind f

/-- Handles an exception of the program itself, as `catch` does. -/
def handle : Program Op Reply ε α → (ε → Program Op Reply ε α) → Program Op Reply ε α
  | .pure value, _ => .pure value
  | .throw error, h => h error
  | .call op next, h => .call op fun reply => (next reply).handle h

instance : Monad (Program Op Reply ε) where
  pure := .pure
  bind := bind

instance : MonadExcept ε (Program Op Reply ε) where
  throw := .throw
  tryCatch := handle

def perform (op : Op) : Program Op Reply ε (Reply op) := .call op .pure

@[simp] theorem pure_def (value : α) : (Pure.pure value : Program Op Reply ε α) = .pure value := rfl

@[simp] theorem bind_def (p : Program Op Reply ε α) (f : α → Program Op Reply ε β) :
    p >>= f = p.bind f := rfl

@[simp] theorem throw_def (error : ε) :
    (MonadExcept.throw error : Program Op Reply ε α) = .throw error := rfl

@[simp] theorem tryCatch_def (p : Program Op Reply ε α) (h : ε → Program Op Reply ε α) :
    tryCatch p h = p.handle h := rfl

@[simp] theorem pure_bind (value : α) (f : α → Program Op Reply ε β) :
    (Program.pure value).bind f = f value := rfl

@[simp] theorem throw_bind (error : ε) (f : α → Program Op Reply ε β) :
    (Program.throw error).bind f = .throw error := rfl

@[simp] theorem call_bind (op : Op) (next : Reply op → Program Op Reply ε α)
    (f : α → Program Op Reply ε β) :
    (Program.call op next).bind f = .call op fun reply => (next reply).bind f := rfl

@[simp] theorem perform_bind (op : Op) (f : Reply op → Program Op Reply ε β) :
    (perform op).bind f = .call op f := rfl

theorem bind_assoc (p : Program Op Reply ε α) (f : α → Program Op Reply ε β)
    (g : β → Program Op Reply ε γ) : (p.bind f).bind g = p.bind fun value => (f value).bind g := by
  induction p with
  | pure value => rfl
  | throw error => rfl
  | call op next ih => simp only [call_bind, ih]

theorem bind_pure (p : Program Op Reply ε α) : p.bind .pure = p := by
  induction p with
  | pure value => rfl
  | throw error => rfl
  | call op next ih => simp only [call_bind, ih]

/-- The result where each operation has one answer. -/
def eval (answer : (op : Op) → Reply op) : Program Op Reply ε α → Except ε α
  | .pure value => .ok value
  | .throw error => .error error
  | .call op next => (next (answer op)).eval answer

/-- Every operation the program can perform, under any replies, is `good`. -/
def All (good : Op → Prop) : Program Op Reply ε α → Prop
  | .pure _ => True
  | .throw _ => True
  | .call op next => good op ∧ ∀ reply, (next reply).All good

section All
variable {good : Op → Prop}

@[simp] theorem all_pure (value : α) :
    (Program.pure value : Program Op Reply ε α).All good := trivial

@[simp] theorem all_throw (error : ε) :
    (Program.throw error : Program Op Reply ε α).All good := trivial

@[simp] theorem all_call {op : Op} {next : Reply op → Program Op Reply ε α} :
    (Program.call op next).All good ↔ good op ∧ ∀ reply, (next reply).All good := Iff.rfl

theorem all_trivial (p : Program Op Reply ε α) : p.All fun _ => True := by
  induction p with
  | pure value => trivial
  | throw error => trivial
  | call op next ih => exact ⟨trivial, ih⟩

theorem All.mono {good' : Op → Prop} {p : Program Op Reply ε α} (all : p.All good)
    (weaker : ∀ op, good op → good' op) :
    p.All good' := by
  induction p with
  | pure value => trivial
  | throw error => trivial
  | call op next ih => exact ⟨weaker op all.1, fun reply => ih reply (all.2 reply)⟩

theorem All.bind {p : Program Op Reply ε α} {f : α → Program Op Reply ε β}
    (first : p.All good) (rest : ∀ value, (f value).All good) : (p.bind f).All good := by
  induction p with
  | pure value => exact rest value
  | throw error => trivial
  | call op next ih => exact ⟨first.1, fun reply => ih reply (first.2 reply)⟩

theorem All.handle {p : Program Op Reply ε α} {h : ε → Program Op Reply ε α}
    (body : p.All good) (handler : ∀ error, (h error).All good) : (p.handle h).All good := by
  induction p with
  | pure value => trivial
  | throw error => exact handler error
  | call op next ih => exact ⟨body.1, fun reply => ih reply (body.2 reply)⟩

end All

/-- Whoever returns has been given a reply that `passes`. -/
def Through (passes : (op : Op) → Reply op → Prop) : Program Op Reply ε α → Prop
  | .pure _ => False
  | .throw _ => True
  | .call op next => ∀ reply, passes op reply ∨ (next reply).Through passes

section Through
variable {passes : (op : Op) → Reply op → Prop}

theorem Through.bind {p : Program Op Reply ε α} (through : p.Through passes)
    (f : α → Program Op Reply ε β) :
    (p.bind f).Through passes := by
  induction p with
  | pure value => exact through.elim
  | throw error => trivial
  | call op next ih => exact fun reply => (through reply).imp_right (ih reply)

theorem Through.after {f : α → Program Op Reply ε β} (through : ∀ value, (f value).Through passes)
    (p : Program Op Reply ε α) : (p.bind f).Through passes := by
  induction p with
  | pure value => exact through value
  | throw error => trivial
  | call op next ih => exact fun reply => .inr (ih reply)

end Through

end Program
end Foundation
