import PaymentWallet.Guarantees.Readings

/-! Numbered pages of a history that grows while it is read. Every request lists the newest
transactions of its own moment, so that a page may show again what the page before has shown. -/
namespace PaymentWallet
open Foundation Foundation.Offset Schedule

/-- Page after page, until one says that it is the last. -/
inductive Walks (platform : Platform) (userId : UserId) (limit : Nat) :
    Nat → State → List PaginatedTransactions → State → Prop where
  | last : (readers platform).Observes
      (TransactionService.readTransactionHistory sorting userId ⟨n + 1, limit⟩) w (.ok answer) w' →
      answer.totalPages ≤ answer.page → Walks platform userId limit n w [answer] w'
  | more : (readers platform).Observes
      (TransactionService.readTransactionHistory sorting userId ⟨n + 1, limit⟩) w (.ok answer) w₁ →
      Walks platform userId limit (n + 1) w₁ shown w' →
        Walks platform userId limit n w (answer :: shown) w'

variable {platform : Platform} {w w' w'' : State} {userId : UserId} {walletId : WalletId}
  {limit n : Nat} {t : Transaction}
  {shown : List PaginatedTransactions} {answer : PaginatedTransactions}
  {sorting : Sorting Transaction.createdAt}

section Rows
variable {d : DB}

theorem mem_involving : t ∈ d.involving walletId ↔ t ∈ d.transactions.rows ∧
    walletId ∈ t.parties := by
  rw [DB.involving, List.mem_filter, TransactionRepository.involves, Transaction.parties,
    List.mem_append, Option.mem_toList, Option.mem_toList, Bool.or_eq_true,
    decide_eq_true_eq, decide_eq_true_eq]

theorem involving_unique : ((d.involving walletId).map (·.id)).Nodup :=
  d.transactions.keys_nodup.sublist (List.filter_sublist.map _)

theorem involving_eq {other : Transaction} (member : t ∈ d.involving walletId)
    (listed : other ∈ d.involving walletId) (same : other.id = t.id) : other = t := by
  have found := Table.get?_of_mem (mem_involving.mp member).1
  have found' := Table.get?_of_mem (mem_involving.mp listed).1
  rw [same] at found'
  exact Option.some.inj (found'.symm.trans found)

end Rows

/-- A wallet keeps its transactions, with their times. -/
theorem Reachable.involving_grows (run : Reachable w) (later : system.Reaches anything w w')
    (member : t ∈ w.shared.db.involving walletId) :
    ∃ t' ∈ w'.shared.db.involving walletId, t'.id = t.id ∧
      t'.createdAt = t.createdAt ∧ t.Outlasts t' := by
  obtain ⟨listed, part⟩ := mem_involving.mp member
  obtain ⟨t', found, outlasts⟩ := (run.extends later).transactions _ _ (Table.get?_of_mem listed)
  refine ⟨t', mem_involving.mpr ⟨Table.get?_mem found, outlasts.parties ▸ part⟩,
    Table.get?_key found, ?_, outlasts⟩
  have origin := outlasts.1
  simp only [Transaction.origin, Prod.mk.injEq] at origin
  exact origin.2.2.2

theorem Reachable.involving_rows (run : Reachable w) (later : system.Reaches anything w w') :
    ∀ t ∈ w.shared.db.involving walletId, ∃ t' ∈ w'.shared.db.involving walletId, t'.id = t.id ∧
      t'.createdAt = t.createdAt := by
  intro t member
  obtain ⟨t', listed, same, created, _⟩ := run.involving_grows later member
  exact ⟨t', listed, same, created⟩

/-- What an answer was put together from, and when. -/
theorem history_moments
    (observed : (readers platform).Observes
      (TransactionService.readTransactionHistory sorting userId ⟨n + 1, limit⟩)
      w (.ok answer) w') :
    ∃ wallet w₁ w₂ w₃, system.Reaches anything w w₁ ∧ system.Reaches anything w₁ w₂ ∧
      system.Reaches anything w₂ w₃ ∧
      system.Reaches anything w₃ w' ∧
        w₁.shared.db.wallets.rows.find? (fun row => row.userId = userId) = some wallet ∧
      answer.items = (page (sorting.order (w₂.shared.db.involving wallet.id)) limit n).map
        TransactionService.toResult ∧
      answer.page = n + 1 ∧ answer.totalPages =
        totalPages (w₃.shared.db.involving wallet.id).length limit := by
  obtain ⟨w₁, first, observed⟩ := Observer.Observes.asked observed
  cases found : w₁.shared.db.wallets.rows.find? fun row => row.userId = userId with
  | none =>
    simp only [readers, Query.answer, found] at observed
    cases observed
  | some wallet =>
    simp only [readers, Query.answer, found] at observed
    obtain ⟨w₂, second, observed⟩ := Observer.Observes.asked observed
    obtain ⟨w₃, third, observed⟩ := Observer.Observes.asked observed
    cases observed with
    | pure fourth => exact ⟨wallet, w₁, w₂, w₃, first, second, third, fourth, found, rfl, rfl, rfl⟩

theorem TransactionResult.Outlasts.trans {first second third : TransactionResult}
    (left : first.Outlasts second) (right : second.Outlasts third) : first.Outlasts third where
  id := right.id.trans left.id
  key := right.key.trans left.key
  type := right.type.trans left.type
  amount := right.amount.trans left.amount
  currency := right.currency.trans left.currency
  outcome := by
    rcases left.outcome with rfl | ⟨initiated, closed⟩
    · exact right.outcome
    · rcases right.outcome with rfl | ⟨initiated', _⟩
      · exact .inr ⟨initiated, closed⟩
      · simp [initiated'] at closed

/-- A transaction that no page so far has reached is on this page, or more pages are announced and
it is still to come. -/
theorem history_step (positive : 0 < limit) (run : Reachable w)
    (observed : (readers platform).Observes
      (TransactionService.readTransactionHistory sorting userId ⟨n + 1, limit⟩) w (.ok answer) w')
    (later : system.Reaches anything w' w'') (owns : w.shared.db.Owns userId walletId)
    (member : t ∈ w.shared.db.involving walletId)
    (own : ∀ other ∈ w''.shared.db.involving walletId,
      other.createdAt = t.createdAt → other.id = t.id)
    (ahead : n * limit ≤ above Transaction.createdAt (w.shared.db.involving walletId) t.createdAt) :
    (∃ item ∈ answer.items, (TransactionService.toResult t).Outlasts item) ∨
      answer.page < answer.totalPages ∧
      (n + 1) * limit ≤ above Transaction.createdAt
        (w'.shared.db.involving walletId) t.createdAt := by
  obtain ⟨wallet, w₁, w₂, w₃, first, second, third, fourth, found, items, number, pages⟩ :=
    history_moments observed
  have run₁ : Reachable w₁ := run.trans first
  have run₂ : Reachable w₂ := run₁.trans second
  have mine : wallet.id = walletId :=
    run₁.owns_one (owner_of_find found) (owns.keeps (grown_of_reaches run first).rows)
  rw [mine] at items pages
  obtain ⟨t₂, listed, same, created, outlasts⟩ := run.involving_grows (first.trans second) member
  have alone : ∀ other ∈ w₂.shared.db.involving walletId,
      other.createdAt = t₂.createdAt → other = t₂ := by
    intro other there tied
    obtain ⟨other', there', same', created', _⟩ :=
      run₂.involving_grows (third.trans (fourth.trans later)) there
    have meant := own other' there' (created'.trans (tied.trans created))
    exact involving_eq listed there (same'.symm.trans (meant.trans same.symm))
  have orders := sorting.orders (w₂.shared.db.involving walletId)
  have place : n * limit ≤ above Transaction.createdAt
      (w₂.shared.db.involving walletId) t₂.createdAt := by
    rw [created]
    exact ahead.trans (above_grows involving_unique (run.involving_rows (first.trans second)) _)
  by_cases high : above Transaction.createdAt (w₂.shared.db.involving walletId)
    t₂.createdAt < (n + 1) * limit
  · left
    have here := orders.mem_page listed alone place high
    exact ⟨_, items ▸ List.mem_map_of_mem here, outlasts.shown same⟩
  · right
    have beyond := Nat.le_of_not_lt high
    have inside := orders.above_lt listed
    have longer : (w₂.shared.db.involving walletId).length ≤
      (w₃.shared.db.involving walletId).length :=
      length_grows involving_unique (run₂.involving_rows third)
    constructor
    · rw [number, pages, totalPages, lt_pageCount positive]
      omega
    · rw [created] at beyond
      exact beyond.trans (above_grows involving_unique (run₂.involving_rows (third.trans fourth)) _)

theorem Walks.later (walk : Walks platform userId limit n w shown w') :
    system.Reaches anything w w' := by
  induction walk with
  | last observed _ => exact observed.later
  | more observed _ ih => exact observed.later.trans ih

/-- A transaction that no page so far has reached is on one of those that follow. -/
theorem Walks.meets (walk : Walks platform userId limit n w shown w')
    (positive : 0 < limit) (run : Reachable w)
    (owns : w.shared.db.Owns userId walletId) (member : t ∈ w.shared.db.involving walletId)
    (own : ∀ other ∈ w'.shared.db.involving walletId,
      other.createdAt = t.createdAt → other.id = t.id)
    (ahead : n * limit ≤ above Transaction.createdAt (w.shared.db.involving walletId) t.createdAt) :
    ∃ answer ∈ shown, ∃ item ∈ answer.items, (TransactionService.toResult t).Outlasts item := by
  induction walk generalizing t with
  | last observed final =>
    rcases history_step positive run observed .refl owns member own ahead with here | ⟨announced, _⟩
    · exact ⟨_, List.mem_singleton_self _, here⟩
    · exact absurd final (Nat.not_le_of_lt announced)
  | more observed rest ih =>
    have step := history_step positive run observed rest.later owns member own ahead
    rcases step with here | ⟨_, beyond⟩
    · exact ⟨_, List.mem_cons_self, here⟩
    · have run₁ := run.trans observed.later
      obtain ⟨t', listed, same, created, outlasts⟩ := run.involving_grows observed.later member
      rw [← created] at beyond own
      rw [← same] at own
      obtain ⟨answer, among, item, inside, kept⟩ :=
        ih run₁ (owns.keeps (grown_of_reaches run observed.later).rows) listed own beyond
      exact ⟨answer, List.mem_cons_of_mem _ among, item, inside, (outlasts.shown same).trans kept⟩

/-- Whatever a page shows is a transaction of the user, as it was at a moment of the request. -/
theorem history_shows (run : Reachable w)
    (observed : (readers platform).Observes
      (TransactionService.readTransactionHistory sorting userId ⟨n + 1, limit⟩) w (.ok answer) w')
    (later : system.Reaches anything w' w'') {item : TransactionResult}
    (inside : item ∈ answer.items) :
    ∃ t, w''.shared.db.transactions.get? item.id = some t ∧ w''.shared.db.Party userId t ∧
      item.Outlasts (TransactionService.toResult t) := by
  obtain ⟨wallet, w₁, w₂, w₃, first, second, third, fourth, found, items, _, _⟩ :=
    history_moments observed
  have run₁ : Reachable w₁ := run.trans first
  have run₂ : Reachable w₂ := run₁.trans second
  rw [items] at inside
  obtain ⟨t, paged, rfl⟩ := List.mem_map.mp inside
  have orders := sorting.orders (w₂.shared.db.involving wallet.id)
  obtain ⟨listed, part⟩ :=
    mem_involving.mp (orders.perm.mem_iff.mp (List.mem_of_mem_drop (List.mem_of_mem_take paged)))
  have since : system.Reaches anything w₂ w'' := third.trans (fourth.trans later)
  obtain ⟨t', found', outlasts⟩ := (run₂.extends since).transactions _ _ (Table.get?_of_mem listed)
  have owns := (owner_of_find found).keeps (grown_of_reaches run₁ second).rows
  have party : w₂.shared.db.Party userId t := ⟨wallet.id, part, owns⟩
  exact ⟨t', found', party.outlasts (grown_of_reaches run₂ since).rows outlasts,
    outlasts.shown (Table.get?_key found')⟩

theorem Walks.shows (walk : Walks platform userId limit n w shown w') (run : Reachable w) :
    ∀ answer ∈ shown, ∀ item ∈ answer.items, ∃ t, w'.shared.db.transactions.get? item.id = some t ∧
      w'.shared.db.Party userId t ∧ item.Outlasts (TransactionService.toResult t) := by
  induction walk with
  | last observed _ =>
    intro answer among item inside
    obtain rfl := List.mem_singleton.mp among
    exact history_shows run observed .refl inside
  | more observed rest ih =>
    intro answer among item inside
    rcases List.mem_cons.mp among with rfl | among
    · exact history_shows run observed rest.later inside
    · exact ih (run.trans observed.later) answer among item inside

/-- Turning over the pages of one's history while transactions come in loses none that was there at
the start, unless another was created at the same time, and shows nothing of others. A page that
says it is the last is so, as long as nothing comes in. -/
theorem history_walk (platform : Platform) (positive : 0 < limit) (run : Reachable w)
    (walk : Walks platform userId limit 0 w shown w') :
    (∀ t ∈ w.shared.db.transactions.rows, w.shared.db.Party userId t →
      (∀ other ∈ w'.shared.db.transactions.rows, w'.shared.db.Party userId other →
        other.createdAt = t.createdAt → other.id = t.id) →
      ∃ answer ∈ shown, ∃ item ∈ answer.items, (TransactionService.toResult t).Outlasts item) ∧
    (∀ answer ∈ shown, ∀ item ∈ answer.items, ∃ t, w'.shared.db.transactions.get? item.id = some t ∧
      w'.shared.db.Party userId t ∧ item.Outlasts (TransactionService.toResult t)) ∧
    ∀ d sorting sorting' n answer next,
      (TransactionService.readTransactionHistory sorting userId ⟨n + 1, limit⟩).eval
        (Query.answer platform d) = .ok answer →
      (TransactionService.readTransactionHistory sorting' userId ⟨n + 2, limit⟩).eval
        (Query.answer platform d) = .ok next →
      (answer.totalPages ≤ answer.page ↔ next.items = []) := by
  refine ⟨?_, walk.shows run, ?_⟩
  · rintro t listed ⟨walletId, part, owns⟩ own
    refine walk.meets positive run owns (mem_involving.mpr ⟨listed, part⟩)
      (fun other there tied => ?_) (by simp)
    obtain ⟨listed', part'⟩ := mem_involving.mp there
    exact own other listed' ⟨walletId, part',
      owns.keeps (grown_of_reaches run walk.later).rows⟩ tied
  · intro d sorting sorting' n answer next answered follows
    rw [TransactionService.readTransactionHistory_eval] at answered follows
    exact getTransactionHistory_last positive answered follows

/-- Five dollars for Alice at a time. -/
def depositsAt (label : String) (createdAt : DateTime) : Request × List (Turn Choice) :=
  (.deposit "user-alice" ⟨⟨50000, Amount.fiveDollars_pos⟩, .usd, label, none⟩,
    [.answer {}, .answer { draw := { Draw.labelled label with createdAt := createdAt } }, .commit])

/-- Pages of one, ties in the order of insertion. -/
def turns (n : Nat) : Reading PaginatedTransactions :=
  TransactionService.readTransactionHistory (.arranged _ id fun rows => .refl rows)
    "user-alice" ⟨n + 1, 1⟩

/-- A deposit comes in after the first of two pages: the second page
repeats it, and a third one follows. -/
theorem history_walk_grown :
    ∃ w w' shown t, Reachable w ∧ Walks samplePlatform "user-alice" 1 0 w shown w' ∧
    (shown.flatMap (·.items)).map (·.id) = ["transaction-second", "transaction-second",
      "transaction-first"] ∧
    t ∈ w.shared.db.transactions.rows ∧ t.id = "transaction-first" ∧
    ∃ answer ∈ shown, ∃ item ∈ answer.items, (TransactionService.toResult t).Outlasts item := by
  obtain ⟨stage, stage', run, later, shown₁, shown₂, shown₃, t, listed, named, part, owned, own⟩ :=
    Script.continues
    (.history [registers "alice", depositsAt "first" 1, depositsAt "second" 2])
      (.serve 3 (depositsAt "third" 3))
    (fun stage stage' =>
      ((turns 0).eval (Query.answer samplePlatform stage.shared.db)).toOption.any
        (·.items.map (·.id) = ["transaction-second"]) ∧
      ((turns 1).eval (Query.answer samplePlatform stage'.shared.db)).toOption.any
        (·.items.map (·.id) = ["transaction-second"]) ∧
      ((turns 2).eval (Query.answer samplePlatform stage'.shared.db)).toOption.any (fun answer =>
        answer.items.map (·.id) = ["transaction-first"] ∧ answer.totalPages ≤ answer.page) ∧
      ∃ t ∈ stage.shared.db.transactions.rows, t.id = "transaction-first" ∧
        "wallet-alice" ∈ t.parties ∧
        (stage.shared.db.wallets.get? "wallet-alice").any (·.userId = "user-alice") ∧
        ∀ other ∈ stage'.shared.db.transactions.rows, other.createdAt = t.createdAt →
          other.id = t.id) (by decide +kernel)
  obtain ⟨first, ok₁, ids₁⟩ := ok_of_any shown₁
  obtain ⟨second, ok₂, ids₂⟩ := ok_of_any shown₂
  obtain ⟨third, ok₃, ends⟩ := ok_of_any shown₃
  obtain ⟨ids₃, final⟩ := of_decide_eq_true ends
  obtain ⟨wallet, found, owner⟩ := (Option.any_eq_true ..).mp owned
  have party : stage.shared.db.Party "user-alice" t :=
    ⟨"wallet-alice", part, wallet, found, by simpa using owner⟩
  have walk : Walks samplePlatform "user-alice" 1 0 stage.world
      [first, second, third] stage'.world := by
    apply Walks.more (observes_at .refl later ok₁)
    apply Walks.more (observes_at .refl .refl ok₂)
    exact Walks.last (observes_at .refl .refl ok₃) final
  refine ⟨stage.world, stage'.world, [first, second, third], t, run, walk, ?_, listed, named,
    (history_walk samplePlatform Nat.one_pos run walk).1 t listed party fun other there _ tied =>
      own other there tied⟩
  simp only [decide_eq_true_eq] at ids₁ ids₂
  simp [ids₁, ids₂, ids₃]

end PaymentWallet
