import Mathlib.Logic.Relation

/-! Runs side by side. Each step of one system is answered by any number of steps of
another, and what is observed of the two agrees after every one. -/
namespace Foundation

variable {α β : Type} {step : α → α → Prop} {answer : β → β → Prop} {Like : α → β → Prop}

/-- A run of `step` and one of `answer` that keeps up with it. -/
inductive Beside (step : α → α → Prop) (answer : β → β → Prop) (Like : α → β → Prop) (a₀ : α)
    (b₀ : β) : α → β → Prop where
  | start : Like a₀ b₀ → Beside step answer Like a₀ b₀ a₀ b₀
  | step : Beside step answer Like a₀ b₀ a b → step a a' →
      Relation.ReflTransGen answer b b' → Like a' b' →
      Beside step answer Like a₀ b₀ a' b'

theorem Beside.like (beside : Beside step answer Like a₀ b₀ a b) : Like a b := by
  cases beside with
  | start like => exact like
  | step _ _ _ like => exact like

theorem Beside.left (beside : Beside step answer Like a₀ b₀ a b) :
    Relation.ReflTransGen step a₀ a := by
  induction beside with
  | start => exact .refl
  | step _ taken _ _ ih => exact ih.tail taken

theorem Beside.right (beside : Beside step answer Like a₀ b₀ a b) :
    Relation.ReflTransGen answer b₀ b := by
  induction beside with
  | start => exact .refl
  | step _ _ answered _ ih => exact ih.trans answered

/-- A relation that steps can be answered in, and that implies the agreement, gives every
run one beside it. -/
theorem beside_of_simulation {R : α → β → Prop} (start : R a₀ b₀) (like : ∀ {a b}, R a b → Like a b)
    (answers : ∀ {a b a'}, R a b → step a a' → ∃ b', Relation.ReflTransGen answer b b' ∧ R a' b')
    (run : Relation.ReflTransGen step a₀ a) : ∃ b, Beside step answer Like a₀ b₀ a b ∧ R a b := by
  induction run with
  | refl => exact ⟨b₀, .start (like start), start⟩
  | tail _ taken ih =>
    obtain ⟨b, beside, related⟩ := ih
    obtain ⟨b', answered, related'⟩ := answers related taken
    exact ⟨b', .step beside taken answered (like related'), related'⟩

end Foundation
