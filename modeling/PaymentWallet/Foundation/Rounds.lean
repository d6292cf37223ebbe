import Mathlib.Algebra.BigOperators.Group.Finset.Basic
import Mathlib.Algebra.Order.BigOperators.Group.Finset
import Mathlib.Data.List.Count

/-! Work in rounds. Each job has a budget of attempts. A round attempts some jobs, each
of which loses at least one attempt, and no round is empty while a job has any left. -/
namespace Foundation

/-- One round of attempts at the jobs in `page`. -/
structure Round {ι : Type} (budget budget' : ι → Nat) (page : List ι) : Prop where
  once : page.Nodup
  spent : ∀ i ∈ page, budget' i < budget i
  kept : ∀ i ∉ page, budget' i = budget i
  works : ∀ i, 0 < budget i → page ≠ []

/-- Rounds one after the other, with the jobs that each attempts. -/
inductive Rounds {ι : Type} : (ι → Nat) → List (List ι) → (ι → Nat) → Prop where
  | nil : Rounds budget [] budget
  | cons : Round budget budget₁ page → Rounds budget₁ pages budget' →
      Rounds budget (page :: pages) budget'

section
variable {ι : Type} {budget budget' : ι → Nat} {page : List ι} {pages : List (List ι)}

theorem Round.le (round : Round budget budget' page) (i : ι) : budget' i ≤ budget i := by
  by_cases member : i ∈ page
  · exact (round.spent i member).le
  · exact (round.kept i member).le

theorem Rounds.le (run : Rounds budget pages budget') (i : ι) : budget' i ≤ budget i := by
  induction run with
  | nil => exact le_rfl
  | cons round _ ih => exact ih.trans (round.le i)

theorem Round.count [DecidableEq ι] (round : Round budget budget' page) (i : ι) :
    page.count i + budget' i ≤ budget i := by
  by_cases member : i ∈ page
  · have once := List.nodup_iff_count_le_one.mp round.once i
    have spent := round.spent i member
    omega
  · rw [List.count_eq_zero_of_not_mem member, round.kept i member, Nat.zero_add]

/-- No job is attempted more often than its budget allows. -/
theorem Rounds.count [DecidableEq ι] (run : Rounds budget pages budget') (i : ι) :
    pages.flatten.count i + budget' i ≤ budget i := by
  induction run with
  | nil => simp
  | cons round _ ih =>
    have first := round.count i
    rw [List.flatten_cons, List.count_append]
    omega

/-- Every round uses up an attempt, until none is left. -/
theorem Rounds.sum {jobs : Finset ι} (run : Rounds budget pages budget')
    (support : ∀ i, 0 < budget i → i ∈ jobs) :
    (∀ i, budget' i = 0) ∨ pages.length + ∑ i ∈ jobs, budget' i ≤ ∑ i ∈ jobs, budget i := by
  induction run with
  | nil => exact .inr (by simp)
  | @cons budget budget₁ page pages budget' round rest ih =>
    by_cases spent : ∀ i, budget i = 0
    · exact .inl fun i => Nat.le_zero.mp (((rest.le i).trans (round.le i)).trans (spent i).le)
    push Not at spent
    obtain ⟨job, left⟩ := spent
    obtain ⟨i, member⟩ := List.exists_mem_of_ne_nil _ (round.works job (Nat.pos_of_ne_zero left))
    have less : ∑ i ∈ jobs, budget₁ i < ∑ i ∈ jobs, budget i :=
      Finset.sum_lt_sum (fun i _ => round.le i)
        ⟨i, support i (Nat.zero_lt_of_lt (round.spent i member)), round.spent i member⟩
    refine (ih fun i left => support i (left.trans_le (round.le i))).imp_right fun bound => ?_
    rw [List.length_cons]
    omega

/-- Enough rounds leave no attempt to any job. -/
theorem Rounds.drained {jobs : Finset ι} (run : Rounds budget pages budget')
    (support : ∀ i, 0 < budget i → i ∈ jobs)
    (enough : ∑ i ∈ jobs, budget i ≤ pages.length) (i : ι) : budget' i = 0 := by
  rcases run.sum support with spent | bound
  · exact spent i
  · have nothing : ∑ i ∈ jobs, budget' i = 0 := by omega
    by_cases member : i ∈ jobs
    · exact (Finset.sum_eq_zero_iff_of_nonneg fun _ _ => Nat.zero_le _).mp nothing i member
    · exact Nat.eq_zero_of_not_pos fun left => member (support i (left.trans_le (run.le i)))

end
end Foundation
