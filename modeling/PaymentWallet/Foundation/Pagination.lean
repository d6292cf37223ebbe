import Mathlib.Data.List.Sort
import Mathlib.Data.Finset.Card

/-! Keyset pagination. A fetch sorts the rows below a cursor in descending order of
their keys, keeps as many as asked for, and tells whether there are more. Whoever
follows the cursors of a growing table sees its rows in order, each of them once. -/
namespace Foundation

/-- The items of one fetch, and the token that leads on to the next one. -/
structure Page (β τ : Type) where
  items : List β
  nextCursor : Option τ
  hasMore : Bool

namespace Keyset
variable {ρ β κ τ ε : Type} [LinearOrder κ]

/-- The cursor is above the key; no cursor is above all keys. -/
def Below (cursor : Option κ) (k : κ) : Prop := ∀ last ∈ cursor, k < last

instance (cursor : Option κ) (k : κ) : Decidable (Below cursor k) :=
  inferInstanceAs (Decidable (∀ last ∈ cursor, _))

@[simp] theorem below_none (k : κ) : Below none k := fun _ none => by cases none

@[simp] theorem below_some {last k : κ} : Below (some last) k ↔ k < last := by simp [Below]

section Window
variable (key : ρ → κ)

def descending (rows : List ρ) : List ρ :=
  rows.insertionSort fun first second => key second ≤ key first

/-- The rows below the cursor, in the order of the pages. -/
def window (cursor : Option κ) (table : List ρ) : List ρ :=
  descending key (table.filter fun row => Below cursor (key row))

/-- A fetch that reads one row more than it shows. -/
def page (token : ρ → τ) (view : ρ → β) (cursor : Option κ) (limit : Nat)
    (table : List ρ) : Page β τ :=
  let rows := (window key cursor table).take (limit + 1)
  let kept := if limit < rows.length then rows.take limit else rows
  { items := kept.map view
    nextCursor := if limit < rows.length then kept.getLast?.map token else none
    hasMore := limit < rows.length }

/-- The page by the rows that the fetch reads. -/
theorem page_read {token : ρ → τ} {view : ρ → β} {cursor : Option κ} {limit : Nat}
    {table rows : List ρ} (read : (window key cursor table).take (limit + 1) = rows) :
    page key token view cursor limit table =
      ⟨(if limit < rows.length then rows.take limit else rows).map view,
        if limit < rows.length then (rows.take limit).getLast?.map token
          else none, limit < rows.length⟩ := by
  simp only [page, read]
  split <;> rfl

end Window

section Follow
variable (fetch : Nat → Option τ → Except ε (Page β τ))

/-- Fetches page after page, the one of the given turn first, for at most `fuel` turns. -/
def follow : (fuel turn : Nat) → Option τ → Option (Except ε (List (Page β τ)))
  | 0, _, _ => none
  | fuel + 1, turn, cursor =>
    match fetch turn cursor with
    | .error error => some (.error error)
    | .ok page =>
      match page.nextCursor with
      | none => some (.ok [page])
      | some next => (follow fuel (turn + 1) (some next)).map (Except.map (page :: ·))

end Follow

section Rows
variable {key : ρ → κ} {cursor : Option κ} {table : List ρ} {limit : Nat} {row : ρ}

theorem mem_window : row ∈ window key cursor table ↔ row ∈ table ∧ Below cursor (key row) := by
  simp [window, descending, List.mem_insertionSort]

theorem window_descends (cursor : Option κ) (unique : (table.map key).Nodup) :
    (window key cursor table).Pairwise fun first second => key second < key first := by
  have total : Std.Total fun first second : ρ => key second ≤ key first :=
    ⟨fun first second => le_total _ _⟩
  have trans : IsTrans ρ fun first second => key second ≤ key first :=
    ⟨fun _ _ _ upper lower => lower.trans upper⟩
  have sorted := List.pairwise_insertionSort (fun first second => key second ≤ key first)
    (table.filter fun row => Below cursor (key row))
  have distinct : (window key cursor table).Pairwise fun first second =>
      key first ≠ key second := by
    have perm := List.perm_insertionSort (fun first second => key second ≤ key first)
      (table.filter fun row => Below cursor (key row))
    refine List.pairwise_map.mp ((perm.map key).nodup_iff.mpr ?_)
    exact unique.sublist (List.filter_sublist.map key)
  exact (sorted.and distinct).imp fun both => lt_of_le_of_ne both.1 both.2.symm

/-- A page is the last one, with all that is left, or leaves rows below its last item. -/
theorem page_cases (key : ρ → κ) (token : ρ → τ) (view : ρ → β) (cursor : Option κ) (table : List ρ)
    (positive : 0 < limit) :
    page key token view cursor limit table = ⟨(window key cursor table).map view, none, false⟩ ∨
    ∃ kept last rest, window key cursor table = kept ++ last :: rest ∧ rest ≠ [] ∧
      page key token view cursor limit table = ⟨(kept ++ [last]).map view,
        some (token last), true⟩ := by
  generalize rows : window key cursor table = all
  simp only [page, rows, List.length_take]
  by_cases more : limit < all.length
  · right
    have shown : (all.take (limit + 1)).take limit = all.take limit := by
      rw [List.take_take, Nat.min_eq_left (Nat.le_succ limit)]
    rcases List.eq_nil_or_concat (all.take limit) with none | ⟨kept, last, some⟩
    · have := congrArg List.length none
      simp only [List.length_take, List.length_nil] at this
      omega
    · refine ⟨kept, last, all.drop limit, ?_, ?_, ?_⟩
      · calc all = all.take limit ++ all.drop limit := (List.take_append_drop limit all).symm
          _ = kept ++ last :: all.drop limit := by simp [some]
      · simpa using more
      · rw [if_pos (by omega), if_pos (by omega), shown, some]
        simpa using by omega
  · left
    rw [if_neg (by omega), if_neg (by omega), List.take_of_length_le (by omega)]
    simpa using by omega

end Rows

section Walks
variable (key : ρ → κ) (shown : β → κ) (view : Nat → ρ → β) (tables : Nat → List ρ)

/-- What one page tells about the table of its fetch. -/
structure Faithful (page : Page β τ) (turn : Nat) : Prop where
  sound : ∀ item ∈ page.items, ∃ row ∈ tables turn, item = view turn row
  last : ∀ item ∈ page.items.getLast?, page.hasMore = false ↔ ∀ row ∈ tables turn,
    ¬ key row < shown item

/-- What the pages from one turn on tell about the rows below a cursor. -/
structure Walk (turn : Nat) (cursor : Option κ) (pages : List (Page β τ)) : Prop where
  descends : (pages.flatMap (·.items)).Pairwise fun first second => shown second < shown first
  within : ∀ item ∈ pages.flatMap (·.items), Below cursor (shown item)
  complete : ∀ row ∈ tables turn, Below cursor (key row) →
    ∃ item ∈ pages.flatMap (·.items), shown item = key row
  faithful : ∀ page turn', (page, turn') ∈ pages.zipIdx turn →
    Faithful key shown view tables page turn'
  empty : ∀ page ∈ pages, page.items = [] → page.hasMore = false ∧ ∀ row ∈ tables turn,
    ¬ Below cursor (key row)

/-- The service of a table that only grows, of finitely many keys in all. -/
structure Serves (token : ρ → τ) (limits : Nat → Nat) (fetch : Nat → Option τ → Except ε (Page β τ))
    (all : Finset κ) : Prop where
  shows : ∀ turn row, shown (view turn row) = key row
  unique : ∀ turn, ((tables turn).map key).Nodup
  grows : ∀ turn, ∀ row ∈ tables turn, ∃ row' ∈ tables (turn + 1), key row' = key row
  bounded : ∀ turn, ∀ row ∈ tables turn, key row ∈ all
  positive : ∀ turn, 0 < limits turn
  answers : ∀ turn (cursor : Option ρ), (∀ last ∈ cursor, ∃ earlier, last ∈ tables earlier) →
    fetch turn (cursor.map token) =
      .ok (page key token (view turn) (cursor.map key) (limits turn) (tables turn))

variable {key shown view tables} {turn limit : Nat} {cursor : Option κ} {token : ρ → τ}
  (shows : ∀ turn row, shown (view turn row) = key row) (unique : ((tables turn).map key).Nodup)
include shows unique

omit shows in
/-- The window's last row is the lowest one of it. -/
theorem window_last {kept : List ρ} {row : ρ}
    (rows : window key cursor (tables turn) = kept ++ [row]) :
    ∀ other ∈ tables turn, ¬ key other < key row := by
  intro other member lower
  have descends := window_descends cursor unique
  have below : Below cursor (key other) := by
    intro last at_
    have shown_ : row ∈ window key cursor (tables turn) :=
      rows ▸ List.mem_append_right _ List.mem_cons_self
    exact lower.trans ((mem_window.mp shown_).2 last at_)
  have listed : other ∈ kept ++ [row] := rows ▸ mem_window.mpr ⟨member, below⟩
  rw [rows] at descends
  rcases List.mem_append.mp listed with above | same
  · exact lt_asymm lower ((List.pairwise_append.mp descends).2.2 other above row List.mem_cons_self)
  · exact absurd (List.mem_singleton.mp same ▸ lower) (lt_irrefl _)

/-- The walk that ends with this page. -/
theorem walk_last : Walk key shown view tables turn cursor
    [(⟨(window key cursor (tables turn)).map (view turn), none, false⟩ : Page β τ)] where
  descends := by
    simpa [List.pairwise_map, shows] using window_descends cursor unique
  within item member := by
    obtain ⟨row, listed, rfl⟩ := List.mem_map.mp (by simpa using member)
    exact (shows turn row).symm ▸ (mem_window.mp listed).2
  complete row member below :=
    ⟨view turn row, by simpa using ⟨row, mem_window.mpr ⟨member, below⟩, rfl⟩, shows turn row⟩
  faithful page turn' member := by
    obtain ⟨rfl, rfl⟩ : page = _ ∧ turn' = turn := by simpa using member
    refine ⟨fun item shown_ => ?_, fun item last => ?_⟩
    · obtain ⟨row, listed, rfl⟩ := List.mem_map.mp shown_
      exact ⟨row, (mem_window.mp listed).1, rfl⟩
    · obtain ⟨front, shown_⟩ := List.getLast?_eq_some_iff.mp last
      obtain ⟨kept, rest, rows, rfl, single⟩ := List.map_eq_append_iff.mp shown_
      obtain ⟨row, rfl, rfl⟩ := List.map_eq_singleton_iff.mp single
      simpa [shows] using window_last unique rows
  empty page member none := by
    obtain rfl := List.mem_singleton.mp member
    refine ⟨rfl, fun row listed below => ?_⟩
    have := mem_window.mpr ⟨listed, below⟩
    rw [List.map_eq_nil_iff.mp none] at this
    cases this

/-- A page in front of the walk that goes on below its last item. -/
theorem walk_more {kept rest : List ρ} {last : ρ} {pages : List (Page β τ)}
    (rows : window key cursor (tables turn) = kept ++ last :: rest) (more : rest ≠ [])
    (grows : ∀ row ∈ tables turn, ∃ row' ∈ tables (turn + 1), key row' = key row)
    (later : Walk key shown view tables (turn + 1) (some (key last)) pages) :
    Walk key shown view tables turn cursor (⟨(kept ++ [last]).map (view turn), some (token last),
      true⟩ :: pages) := by
  have listed : ∀ row, row ∈ kept ++ [last] ∨ row ∈ rest ↔ row ∈ tables turn ∧
      Below cursor (key row) := by
    intro row
    rw [← mem_window, rows]
    simp [or_assoc]
  have descends := window_descends cursor unique
  rw [rows, List.append_cons] at descends
  obtain ⟨upper, _, across⟩ := List.pairwise_append.mp descends
  have above : ∀ row ∈ kept ++ [last], key last ≤ key row := by
    intro row member
    rcases List.mem_append.mp member with front | same
    · exact ((List.pairwise_append.mp upper).2.2 row front last List.mem_cons_self).le
    · rw [List.mem_singleton.mp same]
  -- the row that shows that there are more
  obtain ⟨next, nextIn⟩ := List.exists_mem_of_ne_nil rest more
  have lower : key next < key last := across last (by simp) next nextIn
  obtain ⟨next', nextIn', same⟩ := grows next ((listed next).mp (.inr nextIn)).1
  constructor
  · simp only [List.flatMap_cons]
    refine List.pairwise_append.mpr ⟨?_, later.descends, ?_⟩
    · simpa only [List.pairwise_map, shows] using upper
    · rintro item member item' member'
      obtain ⟨row, front, rfl⟩ := List.mem_map.mp member
      rw [shows]
      exact lt_of_lt_of_le (later.within item' member' _ rfl) (above row front)
  · intro item member bound at_
    rcases List.mem_append.mp (List.flatMap_cons ▸ member) with first | back
    · obtain ⟨row, front, rfl⟩ := List.mem_map.mp first
      rw [shows]
      exact ((listed row).mp (.inl front)).2 bound at_
    · exact (later.within item back _ rfl).trans (((listed last).mp (.inl (by simp))).2 bound at_)
  · intro row member below
    rcases (listed row).mpr ⟨member, below⟩ with front | back
    · exact ⟨view turn row, List.mem_flatMap.mpr ⟨_, List.mem_cons_self, List.mem_map_of_mem front⟩,
        shows turn row⟩
    · obtain ⟨row', member', same'⟩ := grows row member
      obtain ⟨item, shown_, keyed⟩ := later.complete row' member' fun bound at_ => by
        cases at_
        exact same' ▸ across last (by simp) row back
      exact ⟨item, by simp [shown_], keyed.trans same'⟩
  · intro page turn' member
    rcases List.mem_cons.mp (List.zipIdx_cons ▸ member) with head | tail
    · cases head
      refine ⟨fun item member => ?_, fun item at_ => ?_⟩
      · obtain ⟨row, front, rfl⟩ := List.mem_map.mp member
        exact ⟨row, ((listed row).mp (.inl front)).1, rfl⟩
      · obtain rfl : view turn last = item := by simpa using at_
        simp only [Bool.true_eq_false, false_iff, not_forall, not_not]
        exact ⟨next, ((listed next).mp (.inr nextIn)).1, (shows turn last).symm ▸ lower⟩
    · exact later.faithful page turn' tail
  · intro page member none
    rcases List.mem_cons.mp member with rfl | tail
    · simp at none
    · refine absurd (fun bound at_ => ?_) ((later.empty page tail none).2 next' nextIn')
      cases at_
      exact same ▸ lower

omit shows unique

/-- Enough turns end the walk. -/
theorem follow_walks {limits : Nat → Nat}
    {fetch : Nat → Option τ → Except ε (Page β τ)} {all : Finset κ}
    (serves : Serves key shown view tables token limits fetch all)
    (fuel turn : Nat) (cursor : Option ρ)
    (known : ∀ last ∈ cursor, ∃ earlier, last ∈ tables earlier)
    (enough : (all.filter (Below (cursor.map key))).card < fuel) :
    ∃ pages, follow fetch fuel turn (cursor.map token) = some (.ok pages) ∧
      Walk key shown view tables turn (cursor.map key) pages := by
  induction fuel generalizing turn cursor with
  | zero => omega
  | succ fuel ih =>
    have answered := serves.answers turn cursor known
    rcases page_cases key token (view turn) (cursor.map key) (tables turn)
      (serves.positive turn) with final | ⟨kept, last, rest, rows, more, shown_⟩
    · exact ⟨[_], by simp [follow, answered, final], walk_last serves.shows (serves.unique turn)⟩
    · have member : last ∈ window key (cursor.map key) (tables turn) := rows ▸ by simp
      obtain ⟨listed, below⟩ := mem_window.mp member
      -- the last item itself is no longer below the cursor
      have fewer : (all.filter (Below (some (key last)))).card <
          (all.filter (Below (cursor.map key))).card := by
        refine Finset.card_lt_card
          ((Finset.ssubset_iff_of_subset fun k lower => ?_).mpr ⟨key last, ?_, ?_⟩)
        · obtain ⟨inAll, lower⟩ := Finset.mem_filter.mp lower
          exact Finset.mem_filter.mpr ⟨inAll, fun bound at_ =>
            (lower _ rfl).trans (below bound at_)⟩
        · exact Finset.mem_filter.mpr ⟨serves.bounded turn last listed, below⟩
        · exact fun lower => lt_irrefl _ ((Finset.mem_filter.mp lower).2 _ rfl)
      obtain ⟨pages, followed, walk⟩ := ih (turn + 1) (some last) (by simpa using ⟨turn, listed⟩)
        (Nat.lt_of_lt_of_le fewer (Nat.le_of_lt_succ enough))
      refine ⟨⟨_, some (token last), _⟩ :: pages, ?_,
        walk_more serves.shows (serves.unique turn) rows more (serves.grows turn) walk⟩
      simp only [Option.map_some] at followed
      simp [follow, answered, shown_, followed, Except.map]

end Walks

section Traversals
variable (key : ρ → κ) (shown : β → κ) (view : Nat → ρ → β) (tables : Nat → List ρ)

/-- What the pages from the first to the last one tell about the rows of the first fetch. -/
structure Traversal (pages : List (Page β τ)) : Prop where
  descends : (pages.flatMap (·.items)).Pairwise fun first second => shown second < shown first
  once : ∀ row ∈ tables 0, ((pages.flatMap (·.items)).map shown).count (key row) = 1
  unrepeated : ((pages.flatMap (·.items)).map shown).Nodup
  faithful : ∀ page turn, (page, turn) ∈ pages.zipIdx → Faithful key shown view tables page turn
  empty : ∀ page ∈ pages, page.items = [] → page.hasMore = false ∧ tables 0 = []

variable {key shown view tables} {fetch : Nat → Option τ → Except ε (Page β τ)}

/-- A table that stops growing is read to its end. -/
theorem follow_traverses (token : ρ → τ) (limits : Nat → Nat) (last : Nat)
    (shows : ∀ turn row, shown (view turn row) = key row)
    (unique : ∀ turn, ((tables turn).map key).Nodup)
    (grows : ∀ turn, ∀ row ∈ tables turn, ∃ row' ∈ tables (turn + 1), key row' = key row)
    (bounded : ∀ turn, ∀ row ∈ tables turn, key row ∈ (tables last).map key)
    (positive : ∀ turn, 0 < limits turn)
    (answers : ∀ turn (cursor : Option ρ), (∀ row ∈ cursor, ∃ earlier, row ∈ tables earlier) →
      fetch turn (cursor.map token) =
        .ok (page key token (view turn) (cursor.map key) (limits turn) (tables turn))) :
    ∃ fuel pages, follow fetch fuel 0 none = some (.ok pages) ∧
      Traversal key shown view tables pages := by
  have serves : Serves key shown view tables token limits fetch ((tables last).map key).toFinset :=
    { shows, unique, grows, positive, answers, bounded := fun turn row member =>
      List.mem_toFinset.mpr (bounded turn row member) }
  obtain ⟨pages, followed, walk⟩ := follow_walks serves _ 0 none (by simp) (Nat.lt_succ_self _)
  have unrepeated : ((pages.flatMap (·.items)).map shown).Nodup :=
    List.pairwise_map.mpr (walk.descends.imp fun lower => lower.ne')
  refine ⟨_, pages, followed, walk.descends, fun row member => ?_, unrepeated, walk.faithful,
    fun page member none => ?_⟩
  · obtain ⟨item, listed, same⟩ := walk.complete row member (by simp)
    exact List.count_eq_one_of_mem unrepeated (same ▸ List.mem_map_of_mem listed)
  · obtain ⟨ends, nothing⟩ := walk.empty page member none
    exact ⟨ends, List.eq_nil_iff_forall_not_mem.mpr fun row member => nothing row member (by simp)⟩

end Traversals
end Keyset
end Foundation
