import Mathlib.Data.List.Sort
import Mathlib.Data.List.Perm.Basic
import Mathlib.Tactic.Choose

/-! Offset pagination. Every page is cut out of an ordering of its own, which the sort
column determines up to ties. The pages partition the rows exactly when no ties lie on
both sides of a page's end. -/
namespace Foundation.Offset

variable {ρ ι : Type} [LinearOrder ι] (stamp : ρ → ι)

/-- A descending order of the rows. -/
structure Orders (rows ordered : List ρ) : Prop where
  perm : ordered.Perm rows
  sorted : ordered.Pairwise fun first second => stamp second ≤ stamp first

/-- `ORDER BY stamp DESC`: what one query makes of the rows. -/
structure Sorting where
  order : List ρ → List ρ
  orders : ∀ rows, Orders stamp rows (order rows)

/-- Page `n`, counted from zero. -/
def page (ordered : List ρ) (limit n : Nat) : List ρ := (ordered.drop (n * limit)).take limit

/-- The first pages, one after the other. -/
def pages (orders : Nat → List ρ) (limit count : Nat) : List ρ :=
  (List.range count).flatMap fun n => page (orders n) limit n

def above (rows : List ρ) (least : ι) : Nat := rows.countP fun row => least < stamp row

def atLeast (rows : List ρ) (least : ι) : Nat := rows.countP fun row => least ≤ stamp row

/-- Rows with one stamp lie both before and after the position. -/
def Straddles (rows : List ρ) (position : Nat) : Prop :=
  ∃ row ∈ rows, above stamp rows (stamp row) < position ∧ position < atLeast stamp rows (stamp row)

instance (rows : List ρ) (position : Nat) : Decidable (Straddles stamp rows position) :=
  inferInstanceAs (Decidable (∃ row ∈ rows, _))

section Positions
variable {stamp} {rows ordered : List ρ} {p : ρ → Bool} {i : Nat}

/-- Among rows of different stamps no position is within a group. -/
theorem not_straddles (alone : ∀ row ∈ rows,
    atLeast stamp rows (stamp row) ≤ above stamp rows (stamp row) + 1) (position : Nat) :
    ¬ Straddles stamp rows position := by
  rintro ⟨row, member, before, after⟩
  have single := alone row member
  omega

/-- Where a predicate holds of a prefix, its count is the length of the prefix. -/
theorem lt_countP (closed : ordered.Pairwise fun first second => p second → p first)
    (bound : i < ordered.length) :
    i < ordered.countP p ↔ p ordered[i] := by
  induction ordered generalizing i with
  | nil => cases bound
  | cons row rest ih =>
    rw [List.pairwise_cons] at closed
    cases first : p row with
    | true =>
      rw [List.countP_cons_of_pos first]
      cases i with
      | zero => simp [first]
      | succ i =>
        have later := ih closed.2 (Nat.lt_of_succ_lt_succ bound)
        rw [Nat.succ_lt_succ_iff, later, List.getElem_cons_succ]
    | false =>
      have none_ : ∀ other ∈ rest, ¬ p other = true := fun other member holds => by
        rw [closed.1 other member holds] at first
        cases first
      rw [List.countP_cons_of_neg (by simp [first]), List.countP_eq_zero.mpr none_]
      apply iff_of_false (Nat.not_lt_zero i)
      cases i with
      | zero => simp [first]
      | succ i => exact none_ _ (List.getElem_mem _)

theorem Orders.lt_above (orders : Orders stamp rows ordered)
    (bound : i < ordered.length) (least : ι) :
    i < above stamp rows least ↔ least < stamp ordered[i] := by
  have closed : ordered.Pairwise fun first second => decide (least < stamp second) →
    decide (least < stamp first) :=
    orders.sorted.imp fun descends past => by
      simp only [decide_eq_true_eq] at past ⊢
      exact past.trans_le descends
  rw [above, ← orders.perm.countP_eq, lt_countP closed bound, decide_eq_true_eq]

theorem Orders.lt_atLeast (orders : Orders stamp rows ordered)
    (bound : i < ordered.length) (least : ι) :
    i < atLeast stamp rows least ↔ least ≤ stamp ordered[i] := by
  have closed : ordered.Pairwise fun first second => decide (least ≤ stamp second) →
    decide (least ≤ stamp first) :=
    orders.sorted.imp fun descends past => by
      simp only [decide_eq_true_eq] at past ⊢
      exact past.trans descends
  rw [atLeast, ← orders.perm.countP_eq, lt_countP closed bound, decide_eq_true_eq]

theorem atLeast_le (rows : List ρ) (least : ι) : atLeast stamp rows least ≤ rows.length :=
  List.countP_le_length

theorem atLeast_anti {first second : ι} (least : first ≤ second) :
    atLeast stamp rows second ≤ atLeast stamp rows first :=
  List.countP_mono_left fun row _ past => by
    simp only [decide_eq_true_eq] at past ⊢
    exact least.trans past

/-- What holds from one position to another is a part of the list. -/
theorem window_filter {start count : Nat}
    (window : ∀ i (bound : i < ordered.length), p ordered[i] ↔ start ≤ i ∧ i < start + count) :
    (ordered.drop start).take count = ordered.filter p := by
  have before : (ordered.take start).filter p = [] := by
    apply List.filter_eq_nil_iff.mpr
    intro row member
    obtain ⟨i, bound, rfl⟩ := List.mem_take_iff_getElem.mp member
    rw [window]
    omega
  have here : ((ordered.drop start).take count).filter p = (ordered.drop start).take count := by
    apply List.filter_eq_self.mpr
    intro row member
    obtain ⟨i, bound, rfl⟩ := List.mem_take_iff_getElem.mp member
    rw [List.length_drop] at bound
    rw [List.getElem_drop, window]
    omega
  have after : (((ordered.drop start).drop count)).filter p = [] := by
    apply List.filter_eq_nil_iff.mpr
    intro row member
    obtain ⟨i, bound, rfl⟩ := List.mem_drop_iff_getElem.mp member
    rw [List.length_drop] at bound
    rw [List.getElem_drop, window]
    omega
  conv_rhs => rw [← List.take_append_drop start ordered, List.filter_append,
    before, List.nil_append,
    ← List.take_append_drop count (ordered.drop start), List.filter_append, here,
      after, List.append_nil]

end Positions

section Partition
variable {stamp} {rows ordered : List ρ} {limit n : Nat}

/-- A page whose ends are not straddled shows the same rows in every order. -/
theorem Orders.page_filter (orders : Orders stamp rows ordered)
    (start : ¬ Straddles stamp rows (n * limit))
    (stop : ¬ Straddles stamp rows ((n + 1) * limit)) : page ordered limit n =
      ordered.filter fun row => n * limit < atLeast stamp rows (stamp row) ∧
        atLeast stamp rows (stamp row) ≤ (n + 1) * limit := by
  apply window_filter
  intro i bound
  have member : ordered[i] ∈ rows := orders.perm.mem_iff.mp (List.getElem_mem bound)
  have low := (orders.lt_above bound (stamp ordered[i])).not.mpr (lt_irrefl _)
  have high := (orders.lt_atLeast bound (stamp ordered[i])).mpr le_rfl
  have first : ¬ (above stamp rows (stamp ordered[i]) < n * limit ∧
    n * limit < atLeast stamp rows (stamp ordered[i])) :=
    fun both => start ⟨_, member, both⟩
  have last : ¬ (above stamp rows (stamp ordered[i]) < (n + 1) * limit ∧
    (n + 1) * limit < atLeast stamp rows (stamp ordered[i])) :=
    fun both => stop ⟨_, member, both⟩
  have next : (n + 1) * limit = n * limit + limit := Nat.succ_mul n limit
  rw [next] at last
  rw [decide_eq_true_eq, next]
  omega

theorem pages_same (ordered : List ρ) (limit count : Nat) :
    pages (fun _ => ordered) limit count = ordered.take (count * limit) := by
  induction count with
  | zero => simp [pages]
  | succ count ih =>
    rw [pages] at ih ⊢
    rw [List.range_succ, List.flatMap_append, ih, List.flatMap_singleton, page,
      Nat.succ_mul, List.take_add]

/-- The number of pages reaches the end of the rows, and no page is beyond it. -/
theorem lt_pageCount (positive : 0 < limit) (total k : Nat) :
    k < (total + limit - 1) / limit ↔ k * limit < total := by
  rw [← Nat.succ_le_iff, Nat.le_div_iff_mul_le positive, Nat.succ_mul]
  omega

/-- Unstraddled pages show all rows, in order. -/
theorem pages_partition (positive : 0 < limit) (clear : ∀ k, ¬ Straddles stamp rows (k * limit))
    {orders : Nat → List ρ} (sorted : ∀ n, Orders stamp rows (orders n)) :
    Orders stamp rows (pages orders limit ((rows.length + limit - 1) / limit)) := by
  have count : rows.length ≤ (rows.length + limit - 1) / limit * limit := by
    by_contra short
    exact absurd ((lt_pageCount positive rows.length _).mpr (Nat.lt_of_not_le short)) (lt_irrefl _)
  generalize (rows.length + limit - 1) / limit = count_ at count
  have page_ : ∀ n, page (orders n) limit n = _ :=
    fun n => (sorted n).page_filter (clear n) (clear (n + 1))
  constructor
  · have whole : pages (fun _ => orders 0) limit count_ = orders 0 := by
      rw [pages_same, List.take_of_length_le ((sorted 0).perm.length_eq.trans_le count)]
    refine List.Perm.trans ?_ (whole ▸ (sorted 0).perm)
    apply List.Perm.flatMap_left _
    intro n _
    rw [page_, (sorted 0).page_filter (clear n) (clear (n + 1))]
    exact ((sorted n).perm.trans (sorted 0).perm.symm).filter _
  · refine List.pairwise_flatMap.mpr ⟨fun n _ => ?_, ?_⟩
    · rw [page_]
      exact (sorted n).sorted.sublist List.filter_sublist
    · refine List.pairwise_lt_range.imp fun {m n} earlier first inFirst second inSecond => ?_
      rw [page_, List.mem_filter, decide_eq_true_eq] at inFirst inSecond
      have apart : (m + 1) * limit ≤ n * limit := Nat.mul_le_mul_right limit earlier
      by_contra ascends
      have fewer : atLeast stamp rows (stamp second) ≤ atLeast stamp rows (stamp first) :=
        atLeast_anti (le_of_not_ge ascends)
      omega

theorem mem_page {row : ρ} {j : Nat} (found : ordered[n * limit + j]? = some row)
    (inside : j < limit) :
    row ∈ page ordered limit n := by
  apply List.mem_of_getElem? (i := j)
  rw [page, List.getElem?_take_of_lt inside, List.getElem?_drop, found]

/-- Ties keep the places that an arrangement gives them. -/
def Sorting.arranged (stamp : ρ → ι) (arrange : List ρ → List ρ)
    (perm : ∀ rows, (arrange rows).Perm rows) : Sorting stamp where
  order rows := (arrange rows).insertionSort fun first second => stamp second ≤ stamp first
  orders rows := by
    let descends : ρ → ρ → Prop := fun first second => stamp second ≤ stamp first
    have : Std.Total descends := ⟨fun first second => le_total _ _⟩
    have : IsTrans ρ descends := ⟨fun first second third left right => right.trans left⟩
    exact ⟨(List.perm_insertionSort descends _).trans (perm rows),
      List.pairwise_insertionSort descends _⟩

theorem orders_exist (stamp : ρ → ι) (rows : List ρ) : ∃ ordered, Orders stamp rows ordered :=
  ⟨_, (Sorting.arranged stamp id fun rows => .refl rows).orders rows⟩

theorem pairwise_stamps : (ordered.Pairwise fun first second => stamp second ≤ stamp first) ↔
    (ordered.map stamp).Pairwise (· ≥ ·) := by
  rw [List.pairwise_map]

/-- Neighbours with one stamp can change places. -/
theorem Orders.swap {front back : List ρ} {first second : ρ}
    (orders : Orders stamp rows (front ++ first :: second :: back))
    (tied : stamp first = stamp second) : Orders stamp rows (front ++ second :: first :: back) := by
  refine ⟨.trans (.append_left front (.swap first second back)) orders.perm, ?_⟩
  have sorted := pairwise_stamps.mp orders.sorted
  rw [pairwise_stamps]
  simpa only [List.map_append, List.map_cons, tied] using sorted

theorem pages_disjoint {orders : Nat → List ρ} {count k : Nat}
    (unique : (pages orders limit count).Nodup)
    (below : k + 1 < count) :
    List.Disjoint (page (orders k) limit k) (page (orders (k + 1)) limit (k + 1)) := by
  have apart := (List.nodup_flatMap.mp unique).2
  rw [List.pairwise_iff_getElem] at apart
  have here := apart k (k + 1) (by rw [List.length_range]; omega)
    (by rw [List.length_range]; omega) (Nat.lt_succ_self k)
  simpa only [List.getElem_range] using here

/-- Rows with one stamp on both sides of a page's end: one of them can be shown on both pages. -/
theorem pages_repeat (positive : 0 < limit) (unique : rows.Nodup) {k : Nat}
    (straddles : Straddles stamp rows (k * limit)) :
    ∃ orders : Nat → List ρ, (∀ n, Orders stamp rows (orders n)) ∧
      ¬ Orders stamp rows (pages orders limit ((rows.length + limit - 1) / limit)) := by
  obtain ⟨row, _, before, after⟩ := straddles
  obtain ⟨ordered, sorted⟩ := orders_exist stamp rows
  have length : ordered.length = rows.length := sorted.perm.length_eq
  have inside : k * limit < rows.length := after.trans_le (atLeast_le rows _)
  obtain _ | k := k
  · simp at before
  obtain ⟨last, final⟩ : ∃ last, (k + 1) * limit = last + 1 := ⟨(k + 1) * limit - 1, by omega⟩
  have tie : ∀ i, (bound : i < ordered.length) → last ≤ i → i ≤ last + 1 →
      stamp ordered[i] = stamp row := by
    intro i bound low high
    have least := (sorted.lt_atLeast bound (stamp row)).mp (by omega)
    have most := (sorted.lt_above bound (stamp row)).not.mp (by omega)
    exact le_antisymm (le_of_not_gt most) least
  have split : ordered = ordered.take last ++ ordered[last] :: ordered[last + 1] ::
      ordered.drop (last + 2) := by
    rw [List.getElem_cons_drop, List.getElem_cons_drop, List.take_append_drop]
  let other := ordered.take last ++ ordered[last + 1] :: ordered[last] :: ordered.drop (last + 2)
  have swapped : Orders stamp rows other :=
    Orders.swap (split ▸ sorted)
      ((tie last _ le_rfl (Nat.le_succ last)).trans
      (tie (last + 1) _ (Nat.le_succ last) le_rfl).symm)
  refine ⟨fun n => if n ≤ k then ordered else other, fun n => ?_, fun whole => ?_⟩
  · by_cases early : n ≤ k
    · simpa only [early, if_true] using sorted
    · simpa only [early, if_false] using swapped
  have disjoint := pages_disjoint (whole.perm.nodup_iff.mpr unique)
    ((lt_pageCount positive rows.length (k + 1)).mpr inside)
  rw [if_pos le_rfl, if_neg (Nat.not_succ_le_self k)] at disjoint
  -- the last row of page `k` opens page `k + 1` of the other order
  have ends : ordered[k * limit + (limit - 1)]? = some ordered[last] := by
    rw [List.getElem?_eq_getElem (by rw [Nat.succ_mul] at final; omega)]
    congr 2
    rw [Nat.succ_mul] at final
    omega
  have opens : other[(k + 1) * limit + 0]? = some ordered[last] := by
    have taken : (ordered.take last).length = last := by rw [List.length_take]; omega
    have next : (k + 1) * limit + 0 - (ordered.take last).length = 1 := by omega
    rw [List.getElem?_append_right (by omega), next]
    rfl
  exact disjoint (mem_page ends (by omega)) (mem_page opens positive)

/-- A query can answer with any order of the rows. -/
theorem Orders.sorting (orders : Orders stamp rows ordered) :
    ∃ sorting : Sorting stamp, sorting.order rows = ordered := by
  classical
  choose order sorted using orders_exist stamp
  refine ⟨⟨Function.update order rows ordered, fun other => ?_⟩, Function.update_self ..⟩
  by_cases same : other = rows
  · subst same
    rwa [Function.update_self]
  · rw [Function.update_of_ne same]
    exact sorted other

/-- Pages cut out by independent queries partition the rows exactly when no page ends
within a group of equal stamps. -/
theorem pages_partition_iff (positive : 0 < limit) (unique : rows.Nodup) :
    (∀ sortings : Nat → Sorting stamp,
      Orders stamp rows (pages (fun n => (sortings n).order rows) limit
        ((rows.length + limit - 1) / limit))) ↔
    ∀ k, ¬ Straddles stamp rows (k * limit) := by
  constructor
  · intro always k straddles
    obtain ⟨orders, sorted, fails⟩ := pages_repeat positive unique straddles
    choose sortings same using fun n => (sorted n).sorting
    have shown := always sortings
    simp only [same] at shown
    exact fails shown
  · intro clear sortings
    exact pages_partition positive clear fun n => (sortings n).orders rows

end Partition

section Growth
variable {stamp} {κ : Type} {key : ρ → κ} {rows rows' ordered : List ρ} {limit n : Nat}

omit [LinearOrder ι] in
/-- Rows that only come in addition, whatever else changes in them, do
not lower a count by stamps. -/
theorem countP_grows (unique : (rows.map key).Nodup)
    (grows : ∀ row ∈ rows, ∃ row' ∈ rows', key row' = key row ∧ stamp row' = stamp row)
    (p : ι → Bool) :
    rows.countP (fun row => p (stamp row)) ≤ rows'.countP fun row => p (stamp row) := by
  have keys : ((rows.filter fun row => p (stamp row)).map key).Nodup :=
    unique.sublist (List.filter_sublist.map key)
  have kept : (rows.filter fun row => p (stamp row)).map key ⊆
      (rows'.filter fun row => p (stamp row)).map key := by
    intro k member
    obtain ⟨row, inside, rfl⟩ := List.mem_map.mp member
    obtain ⟨listed, holds⟩ := List.mem_filter.mp inside
    obtain ⟨row', listed', same, stamps⟩ := grows row listed
    exact List.mem_map.mpr ⟨row', List.mem_filter.mpr ⟨listed', stamps ▸ holds⟩, same⟩
  have fewer := (List.subperm_of_subset keys kept).length_le
  rwa [List.length_map, List.length_map, ← List.countP_eq_length_filter,
    ← List.countP_eq_length_filter] at fewer

/-- A row is never found before where it was. -/
theorem above_grows (unique : (rows.map key).Nodup)
    (grows : ∀ row ∈ rows, ∃ row' ∈ rows', key row' = key row ∧ stamp row' = stamp row)
    (least : ι) : above stamp rows least ≤ above stamp rows' least :=
  countP_grows unique grows fun value => decide (least < value)

omit [LinearOrder ι] in
theorem length_grows (unique : (rows.map key).Nodup)
    (grows : ∀ row ∈ rows, ∃ row' ∈ rows', key row' = key row ∧ stamp row' = stamp row) :
    rows.length ≤ rows'.length := by
  have more := countP_grows unique grows fun _ => true
  rwa [List.countP_true] at more

/-- A row with a stamp of its own has one place in every order. -/
theorem Orders.mem_page (orders : Orders stamp rows ordered) {row : ρ} (member : row ∈ rows)
    (own : ∀ other ∈ rows, stamp other = stamp row → other = row)
    (low : n * limit ≤ above stamp rows (stamp row))
    (high : above stamp rows (stamp row) < (n + 1) * limit) : row ∈ page ordered limit n := by
  obtain ⟨i, bound, here⟩ := List.mem_iff_getElem.mp (orders.perm.mem_iff.mpr member)
  have before : above stamp rows (stamp row) ≤ i := by
    apply le_of_not_gt
    rw [orders.lt_above bound, here]
    exact lt_irrefl _
  have after : i < atLeast stamp rows (stamp row) := (orders.lt_atLeast bound _).mpr (by rw [here])
  generalize place : above stamp rows (stamp row) = j at low high before
  have inside : j < ordered.length := before.trans_lt bound
  have least := (orders.lt_atLeast inside (stamp row)).mp (before.trans_lt after)
  have most := (orders.lt_above inside (stamp row)).not.mp (by omega)
  have found : ordered[j] = row :=
    own _ (orders.perm.mem_iff.mp (List.getElem_mem inside)) (le_antisymm (le_of_not_gt most) least)
  obtain ⟨offset, rfl⟩ := Nat.exists_eq_add_of_le low
  refine Offset.mem_page (j := offset) ?_ ?_
  · rw [List.getElem?_eq_getElem inside, found]
  · rw [Nat.succ_mul] at high
    omega

/-- The place of a row among rows of which it is one. -/
theorem Orders.above_lt {row : ρ} (orders : Orders stamp rows ordered) (member : row ∈ rows) :
    above stamp rows (stamp row) < rows.length := by
  obtain ⟨i, bound, here⟩ := List.mem_iff_getElem.mp (orders.perm.mem_iff.mpr member)
  have before : ¬ i < above stamp rows (stamp row) := by
    rw [orders.lt_above bound, here]
    exact lt_irrefl _
  have length := orders.perm.length_eq
  omega

end Growth
end Foundation.Offset
