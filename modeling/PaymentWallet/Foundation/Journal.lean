import PaymentWallet.Foundation.Table
import Mathlib.Algebra.Order.BigOperators.Group.List
import Mathlib.Algebra.BigOperators.Group.Finset.Basic

/-! Journals. Every record of a table has an effect on every account, and a
balance is kept beside the table. The books balance when each account holds the
sum of the effects of all records on it; they stay balanced when a record is
written and the accounts move by the difference that it makes. -/
namespace Foundation

variable {R K A M : Type} {key : R → K} [AddCommGroup M]

def Balanced (t : Table R K key) (effect : R → A → M) (balance : A → M) : Prop :=
  ∀ account, balance account = (t.rows.map (effect · account)).sum

theorem Balanced.empty {effect : R → A → M} :
    Balanced (Table.empty : Table R K key) effect fun _ => 0 :=
  fun _ => rfl

section Writing
variable [DecidableEq K]

/-- What writing a record changes on an account. -/
def difference (t : Table R K key) (effect : R → A → M) (row : R) (account : A) : M :=
  effect row account - ((t.get? (key row)).map (effect · account)).getD 0

variable {t : Table R K key} {effect : R → A → M} {balance balance' : A → M} {row old : R}

theorem difference_fresh (fresh : t.get? (key row) = none) (account : A) :
    difference t effect row account = effect row account := by
  simp [difference, fresh]

theorem difference_old (found : t.get? (key row) = some old) (account : A) :
    difference t effect row account = effect row account - effect old account := by
  simp [difference, found]

theorem Balanced.put (balanced : Balanced t effect balance)
    (moves : ∀ account, balance' account = balance account + difference t effect row account) :
    Balanced (t.put row) effect balance' := by
  intro account
  rw [Table.sum_put, ← balanced account]
  exact moves account

end Writing

/-- The total of the selected records. -/
def total (t : Table R K key) (p : R → Prop) [DecidablePred p] (amount : R → M) : M :=
  ((t.rows.filter p).map amount).sum

theorem sum_ite (t : Table R K key) (p : R → Prop) [DecidablePred p] (amount : R → M) :
    (t.rows.map fun row => if p row then amount row else 0).sum = total t p amount := by
  rw [List.sum_map_ite, total]
  simp

/-- A sum over the keys is one over the rows. -/
theorem sum_keys [DecidableEq K] (t : Table R K key) (f : R → M) :
    ∑ k ∈ (t.rows.map key).toFinset, ((t.get? k).map f).getD 0 = (t.rows.map f).sum := by
  rw [List.sum_toFinset _ t.keys_nodup, List.map_map]
  congr 1
  apply List.map_congr_left
  intro row member
  simp [Table.get?_of_mem member]

theorem total_nonneg [LinearOrder M] [IsOrderedAddMonoid M] {t : Table R K key} {p : R → Prop}
    [DecidablePred p] {amount : R → M} (nonneg : ∀ row ∈ t.rows, 0 ≤ amount row) :
    0 ≤ total t p amount := by
  refine List.sum_nonneg fun m member => ?_
  obtain ⟨row, selected, rfl⟩ := List.mem_map.mp member
  exact nonneg row (List.mem_filter.mp selected).1

/-- A total of positive amounts is zero only when nothing is selected. -/
theorem total_eq_zero [LinearOrder M] [IsOrderedAddMonoid M] {t : Table R K key} {p : R → Prop}
    [DecidablePred p] {amount : R → M} (pos : ∀ row ∈ t.rows, 0 < amount row)
    (zero : total t p amount = 0) : ∀ row ∈ t.rows, ¬ p row := by
  intro row member selected
  have inside : amount row ∈ (t.rows.filter p).map amount :=
    List.mem_map_of_mem (List.mem_filter.mpr ⟨member, by simpa using selected⟩)
  have nonneg : ∀ m ∈ (t.rows.filter p).map amount, 0 ≤ m := by
    intro m listed
    obtain ⟨other, chosen, rfl⟩ := List.mem_map.mp listed
    exact (pos other (List.mem_filter.mp chosen).1).le
  have bound := List.single_le_sum nonneg _ inside
  exact absurd (pos row member) (not_lt.mpr (bound.trans zero.le))

end Foundation
