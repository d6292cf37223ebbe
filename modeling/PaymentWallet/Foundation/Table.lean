import Mathlib.Algebra.BigOperators.Group.List.Basic
import Mathlib.Data.List.Nodup
import Mathlib.Tactic.Abel

/-! Tables of rows with a primary key. A table carries the proof that no two of
its rows share a key, so a row is found by its key and a `put` is an insert or
the replacement of exactly one row. Secondary indexes are lists of entries of a
row; `Has` says that some row carries an entry. -/
namespace Foundation

structure Table (R K : Type) (key : R → K) where
  rows : List R
  keys_nodup : (rows.map key).Nodup

namespace Table
variable {R K I M : Type} {key : R → K} [DecidableEq K]

def empty : Table R K key := ⟨[], List.nodup_nil⟩

def get? (t : Table R K key) (k : K) : Option R := t.rows.find? fun row => key row = k

variable (key) in
/-- Replaces the row with the same key, or appends the row at the end. -/
def putRows (row : R) (rows : List R) : List R :=
  if key row ∈ rows.map key then rows.map fun old => if key old = key row then row else old
  else rows ++ [row]

theorem putRows_keys (row : R) (rows : List R) :
    (putRows key row rows).map key =
      if key row ∈ rows.map key then rows.map key else rows.map key ++ [key row] := by
  unfold putRows
  split
  · simp only [List.map_map]
    apply List.map_congr_left
    intro old _
    simp only [Function.comp_apply]
    split
    · exact Eq.symm ‹_›
    · rfl
  · simp

def put (t : Table R K key) (row : R) : Table R K key where
  rows := putRows key row t.rows
  keys_nodup := by
    rw [putRows_keys]
    split
    · exact t.keys_nodup
    · exact (List.nodup_append.mpr ⟨t.keys_nodup, List.nodup_singleton _, by
        rintro a ha b hb rfl
        exact ‹key row ∉ _› (List.mem_singleton.mp hb ▸ ha)⟩)

/-- Updates every selected row in place; the update keeps the key. -/
def modify (t : Table R K key) (select : R → Bool) (f : R → R)
    (keeps : ∀ row, key (f row) = key row) :
    Table R K key where
  rows := t.rows.map fun row => if select row then f row else row
  keys_nodup := by
    have same : (t.rows.map fun row => if select row then f row
        else row).map key = t.rows.map key := by
      rw [List.map_map]
      apply List.map_congr_left
      intro row _
      simp only [Function.comp_apply]
      split
      · exact keeps row
      · rfl
    exact same ▸ t.keys_nodup

/-- Deletes the row with the key. -/
def remove (t : Table R K key) (k : K) : Table R K key where
  rows := t.rows.filter fun row => key row ≠ k
  keys_nodup := t.keys_nodup.sublist (List.filter_sublist.map key)

/-- Some row carries the entry `i` of the index. -/
def Has (index : R → List I) (t : Table R K key) (i : I) : Prop := ∃ row ∈ t.rows, i ∈ index row

instance (index : R → List I) (t : Table R K key) (i : I) [DecidableEq I] :
    Decidable (t.Has index i) := inferInstanceAs (Decidable (∃ row ∈ t.rows, _))

omit [DecidableEq K] in
@[ext] theorem ext {s t : Table R K key} (h : s.rows = t.rows) : s = t := by
  cases s
  cases t
  simpa using h

omit [DecidableEq K] in
@[simp] theorem rows_empty : (empty : Table R K key).rows = [] := rfl

@[simp] theorem get?_empty (k : K) : (empty : Table R K key).get? k = none := rfl

theorem get?_some {t : Table R K key} {k : K} {row : R} :
    t.get? k = some row ↔ row ∈ t.rows ∧ key row = k := by
  constructor
  · intro found
    exact ⟨List.mem_of_find?_eq_some found, by simpa using List.find?_some found⟩
  · rintro ⟨member, rfl⟩
    cases found : t.get? (key row) with
    | none => simpa using List.find?_eq_none.mp found row member
    | some other =>
      have same : key other = key row := by simpa using List.find?_some found
      have inj := List.inj_on_of_nodup_map t.keys_nodup
        (List.mem_of_find?_eq_some found) member same
      rw [inj]

theorem get?_none {t : Table R K key} {k : K} : t.get? k = none ↔ ∀ row ∈ t.rows, key row ≠ k := by
  simp [get?, List.find?_eq_none]

theorem get?_mem {t : Table R K key} {k : K} {row : R} (found : t.get? k = some row) :
    row ∈ t.rows := (get?_some.mp found).1

theorem get?_key {t : Table R K key} {k : K} {row : R} (found : t.get? k = some row) :
    key row = k := (get?_some.mp found).2

theorem get?_of_mem {t : Table R K key} {row : R} (member : row ∈ t.rows) :
    t.get? (key row) = some row := get?_some.mpr ⟨member, rfl⟩

theorem get?_of_same {t : Table R K key} {k : K} {row old : R} (found : t.get? k = some old)
    (same : key row = key old) : t.get? (key row) = some old := by
  rw [same, get?_key found, found]

omit [DecidableEq K] in
theorem eq_of_key {t : Table R K key} {row other : R} (left : row ∈ t.rows) (right : other ∈ t.rows)
    (same : key row = key other) : row = other :=
  List.inj_on_of_nodup_map t.keys_nodup left right same

theorem rows_put_fresh {t : Table R K key} {row : R} (fresh : t.get? (key row) = none) :
    (t.put row).rows = t.rows ++ [row] := by
  have absent : key row ∉ t.rows.map key := by
    rintro member
    obtain ⟨other, ho, same⟩ := List.mem_map.mp member
    exact get?_none.mp fresh other ho same
  simp only [put, putRows, if_neg absent]

theorem rows_put_both {t : Table R K key} {first second : R} (fresh : t.get? (key first) = none)
    (fresh' : (t.put first).get? (key second) = none) :
    ((t.put first).put second).rows = t.rows ++ [first, second] := by
  rw [rows_put_fresh fresh', rows_put_fresh fresh, List.append_assoc, List.singleton_append]

theorem rows_put_old {t : Table R K key} {row old : R} (found : t.get? (key row) = some old) :
    (t.put row).rows = t.rows.map fun other => if key other = key row then row else other := by
  obtain ⟨member, same⟩ := get?_some.mp found
  have present : key row ∈ t.rows.map key := List.mem_map.mpr ⟨old, member, same⟩
  simp only [put, putRows, if_pos present]

theorem mem_put {t : Table R K key} {row other : R} :
    other ∈ (t.put row).rows ↔ other = row ∨ other ∈ t.rows ∧ key other ≠ key row := by
  cases found : t.get? (key row) with
  | none =>
    rw [rows_put_fresh found]
    have absent := get?_none.mp found
    constructor
    · intro member
      rcases List.mem_append.mp member with old | new
      · exact .inr ⟨old, absent other old⟩
      · exact .inl (List.mem_singleton.mp new)
    · rintro (rfl | ⟨old, _⟩)
      · simp
      · exact List.mem_append_left _ old
  | some old =>
    rw [rows_put_old found]
    obtain ⟨member, same⟩ := get?_some.mp found
    constructor
    · intro mapped
      obtain ⟨source, hs, rfl⟩ := List.mem_map.mp mapped
      by_cases h : key source = key row
      · simp [h]
      · simp [h, hs]
    · rintro (rfl | ⟨kept, different⟩)
      · exact List.mem_map.mpr ⟨old, member, by simp [same]⟩
      · exact List.mem_map.mpr ⟨other, kept, by simp [different]⟩

@[simp] theorem get?_put (t : Table R K key) (row : R) (k : K) :
    (t.put row).get? k = if k = key row then some row else t.get? k := by
  split
  · subst k
    exact get?_some.mpr ⟨mem_put.mpr (.inl rfl), rfl⟩
  · rename_i different
    cases found : t.get? k with
    | none =>
      refine get?_none.mpr fun other member same => ?_
      rcases mem_put.mp member with rfl | ⟨kept, _⟩
      · exact different same.symm
      · exact get?_none.mp found other kept same
    | some old =>
      obtain ⟨member, same⟩ := get?_some.mp found
      exact get?_some.mpr ⟨mem_put.mpr (.inr ⟨member, same ▸ different⟩), same⟩

@[simp] theorem get?_remove (t : Table R K key) (gone k : K) :
    (t.remove gone).get? k = if k = gone then none else t.get? k := by
  split
  · subst k
    exact get?_none.mpr fun row member => by simpa using (List.mem_filter.mp member).2
  · rename_i different
    cases found : t.get? k with
    | none =>
      exact get?_none.mpr fun row member => get?_none.mp found row (List.mem_filter.mp member).1
    | some row =>
      obtain ⟨member, rfl⟩ := get?_some.mp found
      exact get?_of_mem (List.mem_filter.mpr ⟨member, by simpa using different⟩)

theorem put_put {t : Table R K key} {first second : R} (same : key first = key second) :
    (t.put first).put second = t.put second := by
  have absorb : ∀ rows : List R,
      (rows.map fun old => if key old = key second then first else old).map
      (fun old => if key old = key second then second else old) =
      rows.map fun old => if key old = key second then second else old := by
    intro rows
    rw [List.map_map]
    apply List.map_congr_left
    intro old _
    by_cases h : key old = key second <;> simp [h, same]
  apply ext
  have present : (t.put first).get? (key second) = some first := by simp [same]
  rw [rows_put_old present]
  cases found : t.get? (key second) with
  | none =>
    rw [rows_put_fresh found, rows_put_fresh (same ▸ found), List.map_append, List.map_singleton,
      if_pos same]
    congr 1
    conv_rhs => rw [← List.map_id t.rows]
    apply List.map_congr_left
    intro old member
    rw [if_neg (get?_none.mp found old member), id]
  | some old =>
    rw [rows_put_old found, rows_put_old (same ▸ found), same, absorb]

theorem has_put {index : R → List I} {t : Table R K key} {row : R} {i : I} :
    (t.put row).Has index i ↔ i ∈ index row ∨ ∃ other ∈ t.rows, key other ≠ key row ∧
      i ∈ index other := by
  constructor
  · rintro ⟨other, member, entry⟩
    rcases mem_put.mp member with rfl | ⟨kept, different⟩
    · exact .inl entry
    · exact .inr ⟨other, kept, different, entry⟩
  · rintro (entry | ⟨other, kept, different, entry⟩)
    · exact ⟨row, mem_put.mpr (.inl rfl), entry⟩
    · exact ⟨other, mem_put.mpr (.inr ⟨kept, different⟩), entry⟩

theorem has_put_fresh {index : R → List I} {t : Table R K key} {row : R} {i : I}
    (fresh : t.get? (key row) = none) :
    (t.put row).Has index i ↔ i ∈ index row ∨ t.Has index i := by
  rw [has_put]
  refine or_congr_right ⟨?_, ?_⟩
  · rintro ⟨other, kept, _, entry⟩
    exact ⟨other, kept, entry⟩
  · rintro ⟨other, kept, entry⟩
    exact ⟨other, kept, get?_none.mp fresh other kept, entry⟩

/-- The row at `k` carries the entry `i`. -/
def Carries (index : R → List I) (t : Table R K key) (i : I) (k : K) : Prop :=
  ∃ row, t.get? k = some row ∧ i ∈ index row

theorem has_iff {index : R → List I} {t : Table R K key} {i : I} :
    t.Has index i ↔ ∃ k, t.Carries index i k := by
  constructor
  · rintro ⟨row, member, entry⟩
    exact ⟨key row, row, get?_of_mem member, entry⟩
  · rintro ⟨k, row, found, entry⟩
    exact ⟨row, get?_mem found, entry⟩

theorem has_congr {index : R → List I} {s t : Table R K key} {i : I}
    (same : ∀ k, s.Carries index i k ↔ t.Carries index i k) : s.Has index i ↔ t.Has index i := by
  simp only [has_iff, same]

@[simp] theorem carries_put {index : R → List I} {t : Table R K key} {row : R} {i : I} {k : K} :
    (t.put row).Carries index i k ↔ if k = key row then i ∈ index row else t.Carries index i k := by
  simp only [Carries, get?_put]
  split <;> simp

theorem carries_fresh {index : R → List I} {t : Table R K key} {i : I} {k : K}
    (fresh : t.get? k = none) : ¬ t.Carries index i k := by
  rintro ⟨row, found, _⟩
  simp [fresh] at found

theorem carries_found {index : R → List I} {t : Table R K key} {i : I} {k : K} {row : R}
    (found : t.get? k = some row) : t.Carries index i k ↔ i ∈ index row := by
  simp [Carries, found]

/-- Rows stay, and so do their columns `f`. -/
def Keeps {β : Type} (f : R → β) (s t : Table R K key) : Prop :=
  ∀ k row, s.get? k = some row → ∃ row', t.get? k = some row' ∧ f row' = f row

section Keeps
variable {β : Type} {f : R → β} {s t u : Table R K key} {row old : R}

theorem Keeps.refl : Keeps f t t := fun _ row found => ⟨row, found, rfl⟩

theorem Keeps.trans (first : Keeps f s t) (second : Keeps f t u) : Keeps f s u := by
  intro k row found
  obtain ⟨row', found', same⟩ := first k row found
  obtain ⟨row'', found'', same'⟩ := second k row' found'
  exact ⟨row'', found'', same'.trans same⟩

theorem Keeps.put_fresh (fresh : t.get? (key row) = none) : Keeps f t (t.put row) := by
  intro k other found
  have different : k ≠ key row := by
    rintro rfl
    simp [fresh] at found
  exact ⟨other, by simpa [different] using found, rfl⟩

theorem Keeps.put_old (found : t.get? (key row) = some old) (same : f row = f old) :
    Keeps f t (t.put row) := by
  intro k other present
  by_cases h : k = key row
  · subst h
    cases found.symm.trans present
    exact ⟨row, by simp, same⟩
  · exact ⟨other, by simpa [h] using present, rfl⟩

end Keeps

omit [DecidableEq K] in
/-- An update that keeps the filtered column only touches the filtered rows. -/
theorem filter_modify {t : Table R K key} {select : R → Bool} {f : R → R}
    {keeps : ∀ row, key (f row) = key row} (p : R → Bool) (same : ∀ row, p (f row) = p row) :
    (t.modify select f keeps).rows.filter p =
      (t.rows.filter p).map fun row => if select row then f row else row := by
  simp only [modify, List.filter_map]
  congr 1
  apply List.filter_congr
  intro row _
  simp only [Function.comp_apply]
  split
  · exact same row
  · rfl

/-- A sum over the rows changes by the new row minus the row it replaces. -/
theorem sum_put [AddCommGroup M] (t : Table R K key) (row : R) (f : R → M) :
    ((t.put row).rows.map f).sum =
      (t.rows.map f).sum + (f row - ((t.get? (key row)).map f).getD 0) := by
  cases found : t.get? (key row) with
  | none => simp [rows_put_fresh found]
  | some old =>
    rw [rows_put_old found, Option.map_some, Option.getD_some]
    obtain ⟨member, same⟩ := get?_some.mp found
    have nodup := t.keys_nodup
    clear found
    generalize t.rows = rows at member nodup
    induction rows with
    | nil => contradiction
    | cons head tail ih =>
      simp only [List.map_cons, List.nodup_cons] at nodup
      rcases List.mem_cons.mp member with rfl | inside
      · have untouched : tail.map (fun other => if key other = key row then row
            else other) = tail := by
          conv_rhs => rw [← List.map_id tail]
          apply List.map_congr_left
          intro other ho
          rw [if_neg, id]
          intro h
          exact nodup.1 (List.mem_map.mpr ⟨other, ho, h.trans same.symm⟩)
        simp only [List.map_cons, if_pos same, untouched, List.sum_cons]
        abel
      · have different : key head ≠ key row := by
          intro h
          exact nodup.1 (List.mem_map.mpr ⟨old, inside, same.trans h.symm⟩)
        simp only [List.map_cons, if_neg different, List.sum_cons, ih inside nodup.2]
        abel

/-- Replacing a row by one the filter treats alike maps the filtered rows. -/
theorem filter_put_old {t : Table R K key} {row old : R} (p : R → Bool)
    (found : t.get? (key row) = some old) (same : p row = p old) :
    (t.put row).rows.filter p =
      (t.rows.filter p).map fun other => if key other = key row then row else other := by
  obtain ⟨member, keyEq⟩ := get?_some.mp found
  rw [rows_put_old found, List.filter_map]
  congr 1
  apply List.filter_congr
  intro other ho
  simp only [Function.comp_apply]
  split
  · rename_i h
    rw [same, eq_of_key ho member (h.trans keyEq.symm)]
  · rfl

/-- Replacing a row by one that a search treats alike finds the same columns. -/
theorem find?_put_old {β : Type} {t : Table R K key} {row old : R} (p : R → Bool) (f : R → β)
    (found : t.get? (key row) = some old) (selects : p row = p old) (same : f row = f old) :
    ((t.put row).rows.find? p).map f = (t.rows.find? p).map f := by
  obtain ⟨member, keyEq⟩ := get?_some.mp found
  have alike : ∀ other ∈ t.rows, ∀ {γ : Type} (g : R → γ), g row = g old →
      g (if key other = key row then row else other) = g other := by
    intro other ho γ g agree
    split
    · rename_i h
      rw [agree, eq_of_key ho member (h.trans keyEq.symm)]
    · rfl
  rw [rows_put_old found]
  generalize t.rows = rows at alike
  induction rows with
  | nil => rfl
  | cons head tail ih =>
    have selects' := alike head List.mem_cons_self p selects
    have same' := alike head List.mem_cons_self f same
    have rest := ih fun other ho => alike other (List.mem_cons_of_mem _ ho)
    simp only [List.map_cons, List.find?_cons, selects']
    split
    · simp only [Option.map_some, same']
    · exact rest

theorem filter_put_fresh {t : Table R K key} {row : R} (p : R → Bool)
    (fresh : t.get? (key row) = none) :
    (t.put row).rows.filter p = t.rows.filter p ++ if p row then [row] else [] := by
  rw [rows_put_fresh fresh, List.filter_append]
  cases h : p row <;> simp [h]

/-- No two rows share an entry of the index. -/
def Unique (index : R → List I) (t : Table R K key) : Prop :=
  ∀ first ∈ t.rows, ∀ second ∈ t.rows, ∀ i ∈ index first, i ∈ index second → first = second

/-- A write keeps an index unique when the entries it brings are free, or were the row's own. -/
theorem Unique.put {index : R → List I} {t : Table R K key} {row : R} (unique : t.Unique index)
    (free : ∀ i ∈ index row, t.Has index i → ∃ old, t.get? (key row) = some old ∧ i ∈ index old) :
    (t.put row).Unique index := by
  have apart : ∀ other ∈ t.rows, key other ≠ key row → ∀ i ∈ index row, i ∉ index other := by
    intro other member different i entry shared
    obtain ⟨old, found, kept⟩ := free i entry ⟨other, member, shared⟩
    have same := unique other member old (get?_mem found) i shared kept
    exact different (same ▸ get?_key found)
  intro first left second right i one two
  rcases mem_put.mp left with rfl | ⟨kept, different⟩
  · rcases mem_put.mp right with rfl | ⟨kept', different'⟩
    · rfl
    · exact absurd two (apart second kept' different' i one)
  · rcases mem_put.mp right with rfl | ⟨kept', _⟩
    · exact absurd one (apart first kept different i two)
    · exact unique first kept second kept' i one two

end Table
end Foundation
