import Mathlib.Algebra.BigOperators.Pi
import Mathlib.Algebra.Order.BigOperators.Group.Finset
import Mathlib.Algebra.Order.Group.Int
import Mathlib.Tactic.Abel

/-! A bank. An owner holds one account in one currency. An order moves an amount into an
account from outside, out of an account, or from one account to another; it carries a
reference that no other order has, and what it holds in the accounts depends on how far it
has come. Only orders that an outside party decides about are ever completed or cancelled. -/
namespace Foundation

namespace Bank
variable {ι υ ο χ γ G : Type}

/-- Where an order moves its amount. -/
inductive Errand (ι : Type) where
  | payIn (receiver : ι)
  | payOut (sender : ι)
  | move (sender receiver : ι)
deriving DecidableEq

inductive Standing where
  | placed | completed | cancelled
deriving DecidableEq

inductive Pocket where
  | available | held | incoming

namespace Errand

def ends : Errand ι → List ι
  | payIn id | payOut id => [id]
  | move sender receiver => [sender, receiver]

/-- A move is completed at once. -/
def start : Errand ι → Standing
  | payIn _ | payOut _ => .placed
  | move .. => .completed

/-- The same errand, between related ends. -/
def Joins (related : ι → υ → Prop) : Errand ι → Errand υ → Prop
  | payIn id, payIn owner | payOut id, payOut owner => related id owner
  | move sender receiver, move payer payee => related sender payer ∧ related receiver payee
  | _, _ => False

theorem Joins.unique {related : ι → υ → Prop} {errand errand' : Errand ι} {asked : Errand υ}
    (joins : errand.Joins related asked)
    (joins' : errand'.Joins related asked)
    (one : ∀ id id' owner, related id owner → related id' owner → id = id') :
    errand = errand' := by
  cases asked <;> cases errand <;> cases errand' <;> simp only [Joins] at joins joins'
  · rw [one _ _ _ joins joins']
  · rw [one _ _ _ joins joins']
  · rw [one _ _ _ joins.1 joins'.1, one _ _ _ joins.2 joins'.2]

theorem Joins.ends {related : ι → υ → Prop} {errand : Errand ι} {asked : Errand υ}
    (joins : errand.Joins related asked) :
    ∀ id ∈ errand.ends, ∃ owner, related id owner := by
  cases asked <;> cases errand <;> simp only [Joins] at joins <;> simp only [Errand.ends,
    List.mem_cons, List.not_mem_nil, or_false]
  · rintro id rfl
    exact ⟨_, joins⟩
  · rintro id rfl
    exact ⟨_, joins⟩
  · rintro id (rfl | rfl)
    · exact ⟨_, joins.1⟩
    · exact ⟨_, joins.2⟩

end Errand

structure Account (υ γ G : Type) where
  owner : υ
  currency : γ
  funds : Pocket → G

structure Order (ι χ γ G : Type) where
  reference : χ
  errand : Errand ι
  amount : G
  currency : γ
  /-- Whether somebody outside decides about it. -/
  external : Bool
  standing : Standing

inductive Operation (ι υ ο χ γ G : Type) where
  | opens (id : ι) (owner : υ) (currency : γ)
  | places (id : ο) (reference : χ) (errand : Errand υ) (amount : G)
      (currency : γ) (external : Bool)
  | closes (id : ο) (standing : Standing)
deriving DecidableEq

namespace Order
variable [DecidableEq ι] [AddCommGroup G]

/-- What an order holds in an account. -/
def effect (order : Order ι χ γ G) (id : ι) : Pocket → G
  | .available =>
    match order.errand, order.standing with
    | .payIn receiver, .completed => if receiver = id then order.amount else 0
    | .payOut sender, .placed | .payOut sender, .completed =>
      -if sender = id then order.amount else 0
    | .move sender receiver, .completed =>
      (if receiver = id then order.amount else 0) - if sender = id then order.amount else 0
    | _, _ => 0
  | .held =>
    match order.errand, order.standing with
    | .payOut sender, .placed => if sender = id then order.amount else 0
    | _, _ => 0
  | .incoming =>
    match order.errand, order.standing with
    | .payIn receiver, .placed => if receiver = id then order.amount else 0
    | _, _ => 0

/-- What an order holds in all accounts together: a move nothing. -/
def worth (order : Order ι χ γ G) : Pocket → G
  | .available =>
    match order.errand, order.standing with
    | .payIn _, .completed => order.amount
    | .payOut _, .placed | .payOut _, .completed => -order.amount
    | _, _ => 0
  | .held =>
    match order.errand, order.standing with
    | .payOut _, .placed => order.amount
    | _, _ => 0
  | .incoming =>
    match order.errand, order.standing with
    | .payIn _, .placed => order.amount
    | _, _ => 0

theorem sum_effect (order : Order ι χ γ G) {ids : Finset ι}
    (within : ∀ id ∈ order.errand.ends, id ∈ ids) (p : Pocket) :
    ∑ id ∈ ids, order.effect id p = order.worth p := by
  obtain ⟨reference, errand, amount, currency, external, standing⟩ := order
  cases errand with
  | payIn receiver =>
    have there : receiver ∈ ids := within receiver List.mem_cons_self
    cases p <;> cases standing <;> simp [effect, worth, there]
  | payOut sender =>
    have there : sender ∈ ids := within sender List.mem_cons_self
    cases p <;> cases standing <;> simp [effect, worth, there]
  | move sender receiver =>
    have payer : sender ∈ ids := within sender List.mem_cons_self
    have payee : receiver ∈ ids := within receiver (List.mem_cons_of_mem _ List.mem_cons_self)
    cases p <;> cases standing <;> simp [effect, worth, payer, payee]

/-- An order holds nothing in the accounts it does not name. -/
theorem effect_stranger (order : Order ι χ γ G) {id : ι} (stranger : id ∉ order.errand.ends) :
    order.effect id = 0 := by
  obtain ⟨reference, errand, amount, currency, external, standing⟩ := order
  funext p
  cases errand with
  | payIn receiver =>
    have other : receiver ≠ id := fun same => stranger (same ▸ List.mem_cons_self)
    cases p <;> cases standing <;> simp [effect, other]
  | payOut sender =>
    have other : sender ≠ id := fun same => stranger (same ▸ List.mem_cons_self)
    cases p <;> cases standing <;> simp [effect, other]
  | move sender receiver =>
    have payer : sender ≠ id := fun same => stranger (same ▸ List.mem_cons_self)
    have payee : receiver ≠ id :=
      fun same => stranger (same ▸ List.mem_cons_of_mem _ List.mem_cons_self)
    cases p <;> cases standing <;> simp [effect, payer, payee]

end Order
end Bank

structure Bank (ι υ ο χ γ G : Type) where
  accounts : ι → Option (Bank.Account υ γ G)
  orders : ο → Option (Bank.Order ι χ γ G)

namespace Bank
variable {ι υ ο χ γ G : Type}

def empty : Bank ι υ ο χ γ G := ⟨fun _ => none, fun _ => none⟩

/-- The account is this owner's, in this currency. -/
def Holds (b : Bank ι υ ο χ γ G) (currency : γ) (id : ι) (owner : υ) : Prop :=
  ∃ account, b.accounts id = some account ∧ account.owner = owner ∧ account.currency = currency

section Steps
variable [DecidableEq ι] [DecidableEq ο] [AddCommGroup G] {b b' b'' : Bank ι υ ο χ γ G}

/-- What an order of this number holds in an account. -/
def effect (b : Bank ι υ ο χ γ G) (id : ο) (i : ι) : Pocket → G :=
  ((b.orders id).map (·.effect i)).getD 0

def open_ (b : Bank ι υ ο χ γ G) (id : ι) (owner : υ) (currency : γ) : Bank ι υ ο χ γ G :=
  { b with accounts := Function.update b.accounts id (some ⟨owner, currency, 0⟩) }

/-- Writes an order and moves the accounts by the difference that it makes. -/
def book (b : Bank ι υ ο χ γ G) (id : ο) (order : Order ι χ γ G) : Bank ι υ ο χ γ G where
  accounts i := (b.accounts i).map fun account =>
    { account with funds := account.funds + (order.effect i - b.effect id i) }
  orders := Function.update b.orders id (some order)

/-- Owners, currencies and the accounts themselves survive a booking. -/
theorem book_holds (id : ο) (order : Order ι χ γ G) (currency : γ) (i : ι) (owner : υ) :
    (b.book id order).Holds currency i owner ↔ b.Holds currency i owner := by
  simp only [Holds, book]
  cases b.accounts i <;> simp

theorem book_effect (id other : ο) (order : Order ι χ γ G) (i : ι) :
    (b.book id order).effect other i = if other = id then order.effect i else b.effect other i := by
  by_cases same : other = id
  · subst same
    simp [effect, book]
  · simp [effect, book, same]

inductive Step [LinearOrder G] : Operation ι υ ο χ γ G → Bank ι υ ο χ γ G →
    Bank ι υ ο χ γ G → Prop where
  | opens {b : Bank ι υ ο χ γ G} {id : ι} : b.accounts id = none →
      (∀ other account, b.accounts other = some account → account.owner ≠ owner) →
      Step (.opens id owner currency) b (b.open_ id owner currency)
  | places {b : Bank ι υ ο χ γ G} {id : ο} (order : Order ι χ γ G) : b.orders id = none →
      (∀ other earlier, b.orders other = some earlier → earlier.reference ≠ order.reference) →
      0 < order.amount → order.standing = order.errand.start →
        order.errand.Joins (b.Holds order.currency) asked →
      (∀ i account, b.accounts i = some account →
        0 ≤ account.funds .available + order.effect i .available) →
      Step (.places id order.reference asked order.amount order.currency order.external) b
        (b.book id order)
  | closes {b : Bank ι υ ο χ γ G} {id : ο} : b.orders id = some order → order.standing = .placed →
      order.external → standing ≠ .placed →
      Step (.closes id standing) b (b.book id { order with standing := standing })

/-- One operation after the other. -/
def Runs [LinearOrder G] : List (Operation ι υ ο χ γ G) → Bank ι υ ο χ γ G → Bank ι υ ο χ γ G → Prop
  | [], b, b' => b' = b
  | op :: ops, b, b' => ∃ next, Step op b next ∧ Runs ops next b'

theorem runs_append [LinearOrder G] {ops more : List (Operation ι υ ο χ γ G)} :
    Runs (ops ++ more) b b' ↔ ∃ next, Runs ops b next ∧ Runs more next b' := by
  induction ops generalizing b with
  | nil => simp [Runs]
  | cons op ops ih =>
    simp only [List.cons_append, Runs, ih]
    constructor
    · rintro ⟨next, step, last, runs, rest⟩
      exact ⟨last, ⟨next, step, runs⟩, rest⟩
    · rintro ⟨last, ⟨next, step, runs⟩, rest⟩
      exact ⟨next, step, last, runs, rest⟩

end Steps

section Invariants
variable [DecidableEq ι] [AddCommGroup G] [LinearOrder G] {b b' b'' : Bank ι υ ο χ γ G}

structure Sound (b : Bank ι υ ο χ γ G) : Prop where
  owners : ∀ i j account account', b.accounts i = some account → b.accounts j = some account' →
    account.owner = account'.owner → i = j
  parties : ∀ id order, b.orders id = some order → ∀ i ∈ order.errand.ends, ∃ owner,
    b.Holds order.currency i owner
  amounts : ∀ id order, b.orders id = some order → 0 < order.amount
  moved : ∀ id order, b.orders id = some order → order.errand.start = .completed →
    order.standing = .completed
  finite : ∃ ids : Finset ο, ∀ id ∉ ids, b.orders id = none
  books : ∀ ids : Finset ο, (∀ id ∉ ids, b.orders id = none) →
    ∀ i account, b.accounts i = some account →
    account.funds = ∑ id ∈ ids, b.effect id i
  covered : ∀ i account, b.accounts i = some account → 0 ≤ account.funds .available

theorem Sound.empty : (empty : Bank ι υ ο χ γ G).Sound where
  owners _ _ _ _ found := by cases found
  parties _ _ found := by cases found
  amounts _ _ found := by cases found
  moved _ _ found := by cases found
  finite := ⟨∅, fun _ _ => rfl⟩
  books _ _ _ _ found := by cases found
  covered _ _ found := by cases found

theorem Sound.booked [DecidableEq ο] (sound : b.Sound) (id : ο) (order : Order ι χ γ G)
    (amount : 0 < order.amount)
    (moved : order.errand.start = .completed → order.standing = .completed)
    (parties : ∀ i ∈ order.errand.ends, ∃ owner, b.Holds order.currency i owner)
    (covered : ∀ i account, b.accounts i = some account →
      0 ≤ account.funds .available + (order.effect i - b.effect id i) .available) :
        (b.book id order).Sound where
  owners i j account account' found found' same := by
    simp only [book, Option.map_eq_some_iff] at found found'
    obtain ⟨old, there, rfl⟩ := found
    obtain ⟨old', there', rfl⟩ := found'
    exact sound.owners i j old old' there there' same
  parties other row found i member := by
    simp only [book_holds]
    by_cases same : other = id
    · subst same
      obtain rfl : order = row := by simpa [book] using found
      exact parties i member
    · exact sound.parties other row (by simpa [book, same] using found) i member
  amounts other row found := by
    by_cases same : other = id
    · subst same
      obtain rfl : order = row := by simpa [book] using found
      exact amount
    · exact sound.amounts other row (by simpa [book, same] using found)
  moved other row found := by
    by_cases same : other = id
    · subst same
      obtain rfl : order = row := by simpa [book] using found
      exact moved
    · exact sound.moved other row (by simpa [book, same] using found)
  finite := by
    obtain ⟨ids, all⟩ := sound.finite
    refine ⟨insert id ids, fun other out => ?_⟩
    simp only [Finset.mem_insert, not_or] at out
    simpa [book, out.1] using all other out.2
  books ids all i account found := by
    simp only [book, Option.map_eq_some_iff] at found
    obtain ⟨old, there, rfl⟩ := found
    have listed : id ∈ ids := by
      by_contra out
      simpa [book] using all id out
    have before : ∀ other ∉ ids, b.orders other = none := by
      intro other out
      have different : other ≠ id := fun same => out (same ▸ listed)
      simpa [book, different] using all other out
    simp only [book_effect]
    rw [sound.books ids before i old there, Finset.sum_ite, Finset.filter_eq' ids id, if_pos listed,
      Finset.sum_singleton, ← Finset.add_sum_erase ids _ listed, Finset.filter_ne' ids id]
    simp only [effect]
    abel
  covered i account found := by
    simp only [book, Option.map_eq_some_iff] at found
    obtain ⟨old, there, rfl⟩ := found
    exact covered i old there

theorem Sound.opened (sound : b.Sound) {id : ι} {owner : υ} {currency : γ}
    (fresh : b.accounts id = none)
    (new : ∀ other account, b.accounts other = some account → account.owner ≠ owner) :
    (b.open_ id owner currency).Sound := by
  have others : ∀ {i account}, (b.open_ id owner currency).accounts i = some account →
      i = id ∧ account = ⟨owner, currency, 0⟩ ∨ i ≠ id ∧ b.accounts i = some account := by
    intro i account found
    by_cases same : i = id
    · subst same
      exact .inl ⟨rfl, by simpa [open_, eq_comm] using found⟩
    · exact .inr ⟨same, by simpa [open_, same] using found⟩
  have idle : ∀ other, b.effect other id = 0 := by
    intro other
    cases found : b.orders other with
    | none => simp [effect, found]
    | some order =>
      have stranger : id ∉ order.errand.ends := by
        intro member
        obtain ⟨_, account, there, _⟩ := sound.parties other order found id member
        cases fresh.symm.trans there
      simp [effect, found, order.effect_stranger stranger]
  constructor
  · intro i j account account' found found' same
    rcases others found with ⟨rfl, rfl⟩ |
      ⟨_, there⟩ <;> rcases others found' with ⟨rfl, rfl⟩ | ⟨_, there'⟩
    · rfl
    · exact absurd same.symm (new j account' there')
    · exact absurd same (new i account there)
    · exact sound.owners i j account account' there there' same
  · intro other order found i member
    obtain ⟨holder, account, there, terms⟩ := sound.parties other order found i member
    have different : i ≠ id := by
      rintro rfl
      cases fresh.symm.trans there
    exact ⟨holder, account, by simpa [open_, different] using there, terms⟩
  · exact sound.amounts
  · exact sound.moved
  · exact sound.finite
  · intro ids all i account found
    rcases others found with ⟨rfl, rfl⟩ | ⟨_, there⟩
    · exact (Finset.sum_eq_zero fun other _ => idle other).symm
    · exact sound.books ids all i account there
  · intro i account found
    rcases others found with ⟨rfl, rfl⟩ | ⟨_, there⟩
    · exact le_refl 0
    · exact sound.covered i account there

/-- Closing an order takes nothing from what is available. -/
theorem Order.closing_nonneg {order : Order ι χ γ G} (amount : 0 < order.amount)
    (placed : order.standing = .placed)
    (moved : order.errand.start = .completed → order.standing = .completed) (standing : Standing)
    (open_ : standing ≠ .placed) (i : ι) :
    0 ≤ ({ order with standing := standing }.effect i - order.effect i) .available := by
  obtain ⟨reference, errand, amount', currency, external, standing'⟩ := order
  cases placed
  have moves : errand.start ≠ .completed := fun start => by cases moved start
  have nonneg : 0 ≤ amount' := le_of_lt amount
  cases errand <;> cases standing <;> simp only [Errand.start, ne_eq, not_true_eq_false,
    reduceCtorEq, not_false_eq_true] at moves open_ <;>
    simp only [effect, Pi.sub_apply, sub_zero, sub_self, zero_sub, neg_neg, le_refl]
  all_goals split <;> simp [nonneg]

theorem Step.sound [DecidableEq ο] [IsOrderedAddMonoid G] {op : Operation ι υ ο χ γ G}
    (step : Step op b b') (sound : b.Sound) : b'.Sound := by
  cases step with
  | opens fresh new => exact sound.opened fresh new
  | places order fresh _ amount start joins covers =>
    refine sound.booked _ order amount (fun started => start.trans started) joins.ends
      fun i account found => ?_
    simpa [effect, fresh] using covers i account found
  | closes found placed external closed =>
    have amount := sound.amounts _ _ found
    have moved := sound.moved _ _ found
    refine sound.booked _ _ amount (fun start => ?_) (fun i => sound.parties _ _ found i)
      fun i account there => ?_
    · cases placed.symm.trans (moved start)
    · have gains := Order.closing_nonneg amount placed moved _ closed i
      simp only [effect, found, Option.map_some, Option.getD_some]
      exact add_nonneg (sound.covered i account there) gains

theorem Runs.sound [DecidableEq ο] [IsOrderedAddMonoid G] {ops : List (Operation ι υ ο χ γ G)}
    (runs : Runs ops b b') (sound : b.Sound) : b'.Sound := by
  induction ops generalizing b with
  | nil => exact runs ▸ sound
  | cons op ops ih =>
    obtain ⟨next, step, rest⟩ := runs
    exact ih rest (step.sound sound)

/-- What an operation does is determined. -/
theorem Step.unique [DecidableEq ο] {op : Operation ι υ ο χ γ G} (step : Step op b b')
    (step' : Step op b b'') (sound : b.Sound) :
    b' = b'' := by
  cases step with
  | opens => cases step'; rfl
  | places order _ _ _ start joins =>
    generalize same : Operation.places _ order.reference _ order.amount order.currency
      order.external = op at step'
    cases step' with
    | places order' _ _ _ start' joins' =>
      obtain ⟨reference, errand, amount, currency, external, standing⟩ := order
      obtain ⟨reference', errand', amount', currency', external', standing'⟩ := order'
      cases same
      obtain rfl : errand = errand' := by
        apply joins.unique joins'
        rintro i j owner ⟨account, found, rfl, _⟩ ⟨account', found', owner', _⟩
        exact sound.owners i j account account' found found' owner'.symm
      obtain rfl : standing = standing' := start.trans start'.symm
      rfl
    | _ => cases same
  | closes found =>
    cases step' with
    | closes found' =>
      cases found.symm.trans found'
      rfl

/-- What is left after the operations depends on nothing else. -/
theorem Runs.unique [DecidableEq ο] [IsOrderedAddMonoid G] {ops : List (Operation ι υ ο χ γ G)}
    (runs : Runs ops b b') (runs' : Runs ops b b'') (sound : b.Sound) : b' = b'' := by
  induction ops generalizing b with
  | nil => exact Eq.trans runs runs'.symm
  | cons op ops ih =>
    obtain ⟨next, step, rest⟩ := runs
    obtain ⟨next', step', rest'⟩ := runs'
    obtain rfl := step.unique step' sound
    exact ih rest rest' (step.sound sound)

section Totals
variable [DecidableEq γ]

/-- The funds of an account in this currency. -/
def funds (b : Bank ι υ ο χ γ G) (currency : γ) (i : ι) (p : Pocket) : G :=
  ((b.accounts i).map fun account => if account.currency = currency then account.funds p
    else 0).getD 0

/-- What an order in this currency holds in all accounts together. -/
def worth (b : Bank ι υ ο χ γ G) (currency : γ) (id : ο) (p : Pocket) : G :=
  ((b.orders id).map fun order => if order.currency = currency then order.worth p else 0).getD 0

/-- What an order in this currency holds in an account. -/
def share (b : Bank ι υ ο χ γ G) (currency : γ) (id : ο) (i : ι) (p : Pocket) : G :=
  ((b.orders id).map fun order => if order.currency = currency then order.effect i p else 0).getD 0

/-- Orders are in the currency of the accounts they name. -/
theorem Sound.share_eq (sound : b.Sound) {i : ι} {account : Account υ γ G}
    (found : b.accounts i = some account) (currency : γ)
    (id : ο) (p : Pocket) :
    b.share currency id i p = if account.currency = currency then b.effect id i p else 0 := by
  cases placed : b.orders id with
  | none => simp [share, effect, placed]
  | some order =>
    by_cases member : i ∈ order.errand.ends
    · obtain ⟨_, other, there, _, terms⟩ := sound.parties id order placed i member
      cases found.symm.trans there
      simp [share, effect, placed, terms]
    · simp [share, effect, placed, order.effect_stranger member]

theorem Sound.shares (sound : b.Sound) {orders : Finset ο}
    (every : ∀ id ∉ orders, b.orders id = none) (currency : γ) (i : ι)
    (p : Pocket) : b.funds currency i p = ∑ id ∈ orders, b.share currency id i p := by
  cases found : b.accounts i with
  | none =>
    refine Eq.trans (by simp [funds, found]) (Finset.sum_eq_zero fun id _ => ?_).symm
    cases placed : b.orders id with
    | none => simp [share, placed]
    | some order =>
      have stranger : i ∉ order.errand.ends := by
        intro member
        obtain ⟨_, account, there, _⟩ := sound.parties id order placed i member
        cases found.symm.trans there
      simp [share, placed, order.effect_stranger stranger]
  | some account =>
    have held : b.funds currency i p = if account.currency = currency then account.funds p
      else 0 := by simp [funds, found]
    simp only [held, sound.share_eq found,
      sound.books orders every i account found, Finset.sum_apply]
    split
    · rfl
    · exact Finset.sum_const_zero.symm

/-- All accounts of a currency together hold what its orders are worth: moves between
accounts create nothing and lose nothing. -/
theorem Sound.conserved (sound : b.Sound) {accounts : Finset ι}
    (all : ∀ i ∉ accounts, b.accounts i = none) {orders : Finset ο}
    (every : ∀ id ∉ orders, b.orders id = none) (currency : γ) (p : Pocket) :
    ∑ i ∈ accounts, b.funds currency i p = ∑ id ∈ orders, b.worth currency id p := by
  calc ∑ i ∈ accounts, b.funds currency i p
      = ∑ i ∈ accounts, ∑ id ∈ orders, b.share currency id i p :=
        Finset.sum_congr rfl fun i _ => sound.shares every currency i p
    _ = ∑ id ∈ orders, ∑ i ∈ accounts, b.share currency id i p := Finset.sum_comm
    _ = ∑ id ∈ orders, b.worth currency id p := Finset.sum_congr rfl fun id _ => ?_
  cases placed : b.orders id with
  | none => simp [share, worth, placed]
  | some order =>
    have within : ∀ i ∈ order.errand.ends, i ∈ accounts := by
      intro i member
      obtain ⟨_, account, there, _⟩ := sound.parties id order placed i member
      by_contra out
      cases (all i out).symm.trans there
    by_cases same : order.currency = currency
    · simp [share, worth, placed, same, order.sum_effect within]
    · simp [share, worth, placed, same]

end Totals

end Invariants
end Bank
end Foundation
