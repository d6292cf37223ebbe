import PaymentWallet.Accounting.Banking
import PaymentWallet.Guarantees.Accounts
import PaymentWallet.Service.Invariants

/-! The services are a bank: whatever requests are served and however their transactions
interleave, the committed ones are operations of the bank, one after the other, and what is
stored is what the bank makes of them. What is known of the bank holds of the services. -/
namespace PaymentWallet
open Foundation Schedule

variable {w w' : State}

/-- What is stored is what the bank makes of the commits. -/
theorem bank_replays (run : Reachable w) :
    Bank.Runs (w.shared.log.filterMap TxCall.operation) Bank.empty w.shared.db.bank := by
  refine invariant_of_reaches (F := fun σ =>
    Bank.Runs (σ.log.filterMap TxCall.operation) Bank.empty σ.db.bank) rfl
    (fun runs _ => runs) ?_ run
  intro σ pid c runs answerable _ ready _
  apply (ready.operates answerable.1.books).mono
  intro _ d' operates _ _
  simp only [Shared.commit, List.filterMap_append, Bank.runs_append]
  refine ⟨σ.db.bank, runs, ?_⟩
  cases operation : c.operation with
  | none => simpa [TxCall.Operates, operation, Bank.Runs] using operates
  | some op => simpa [TxCall.Operates, operation, Bank.Runs] using operates

theorem bank_replays_settled :
    ∃ w, Reachable w ∧ w.shared.db.balance "wallet-alice" .available = 50000 ∧
    Bank.Runs (w.shared.log.filterMap TxCall.operation) Bank.empty w.shared.db.bank := by
  obtain ⟨w, run, credited⟩ := Schedule.reachable
    [registers "alice", deposits "alice", polls (.ok charged) [.answer {}, .commit]]
    (fun σ => σ.db.balance "wallet-alice" .available = 50000) (by decide +kernel)
  exact ⟨w, run, credited, bank_replays run⟩

theorem Reachable.bank (run : Reachable w) : w.shared.db.bank.Sound :=
  (bank_replays run).sound .empty

theorem DB.balance_bank (d : DB) (id : WalletId) (p : Bank.Pocket) :
    d.balance id (.of p) = ((d.bank.accounts id).map (·.funds p)).getD 0 := by
  simp only [DB.balance, DB.bank, Option.map_map]
  cases d.wallets.get? id <;> rfl

theorem Consistent.order {d : DB} (books : Consistent d) {t : Transaction}
    (found : d.transactions.get? t.id = some t) :
    ∃ order, t.order = some order ∧ d.bank.orders t.id = some order := by
  obtain ⟨errand, named, _⟩ := (books.dossiers t (Table.get?_mem found)).shaped.names
  exact ⟨_, by rw [Transaction.order, named, Option.map_some],
    by simp [DB.bank, found, Transaction.order, named]⟩

/-- A transaction's status is its order's standing. -/
theorem Dossier.standing {d d' : DB} {t t' : Transaction} (dossier : Dossier d t)
    (dossier' : Dossier d' t')
    (same : t.status.standing = t'.status.standing) : t.status = t'.status := by
  rcases dossier.staged.status with status | status |
    status <;> rcases dossier'.staged.status with status' | status' | status' <;>
    simp_all [TransactionStatus.standing]

/-- Rows that one bank shows have one status. -/
theorem Consistent.status {d d' : DB} (books : Consistent d) (books' : Consistent d')
    (same : d.bank = d'.bank) {t : Transaction}
    (found : d.transactions.get? t.id = some t) : ∃ t', d'.transactions.get? t.id = some t' ∧
      t'.status = t.status := by
  obtain ⟨order, known, there⟩ := books.order found
  rw [same] at there
  obtain ⟨t', found', known'⟩ := Option.bind_eq_some_iff.mp there
  refine ⟨t', found', ?_⟩
  have dossier := books.dossiers t (Table.get?_mem found)
  have dossier' := books'.dossiers t' (Table.get?_mem found')
  obtain ⟨_, _, rfl⟩ := Option.map_eq_some_iff.mp known
  obtain ⟨_, _, equal⟩ := Option.map_eq_some_iff.mp known'
  exact dossier'.standing dossier (congrArg Bank.Order.standing equal)

/-- The committed operations alone determine balances and statuses: polls, lost replies,
failed attempts and the interleaving leave no trace in them. -/
theorem log_determines (run : Reachable w) (run' : Reachable w')
    (same : w.shared.log.filterMap TxCall.operation = w'.shared.log.filterMap TxCall.operation) :
    w.shared.db.balance = w'.shared.db.balance ∧
      ∀ id, (w.shared.db.transactions.get? id).map (·.status) =
        (w'.shared.db.transactions.get? id).map (·.status) := by
  have equal : w.shared.db.bank = w'.shared.db.bank :=
    (bank_replays run).unique (same ▸ bank_replays run') .empty
  constructor
  · funext id b
    have pocket : ∃ p, Bucket.of p = b := by
      cases b
      · exact ⟨.available, rfl⟩
      · exact ⟨.held, rfl⟩
      · exact ⟨.incoming, rfl⟩
    obtain ⟨p, rfl⟩ := pocket
    rw [DB.balance_bank, DB.balance_bank, equal]
  · intro id
    cases found : w.shared.db.transactions.get? id with
    | some t =>
      obtain rfl := Table.get?_key found
      obtain ⟨t', found', status⟩ := run.books.status run'.books equal found
      simp [found', status]
    | none =>
      cases found' : w'.shared.db.transactions.get? id with
      | none => rfl
      | some t' =>
        obtain rfl := Table.get?_key found'
        obtain ⟨t, there, _⟩ := run'.books.status run.books equal.symm found'
        cases found.symm.trans there

/-- A deposit that the provider was asked for twice, and one that it was asked for once. -/
theorem log_determines_retry :
    ∃ w w', Reachable w ∧ Reachable w' ∧ w.shared.log.length ≠ w'.shared.log.length ∧
    w.shared.db.balance = w'.shared.db.balance ∧
      ∀ id, (w.shared.db.transactions.get? id).map (·.status) =
        (w'.shared.db.transactions.get? id).map (·.status) := by
  let ops : List WalletOperation := [.opens "wallet-alice" "user-alice" .usd,
    .places "transaction-deposit-alice" "deposit-alice" (.payIn "user-alice") 50000 .usd true,
    .closes "transaction-deposit-alice" .completed]
  obtain ⟨w, run, served, length⟩ := Schedule.reachable
    [registers "alice", deposits "alice", polls (.ok charged) [.answer {}, .commit]]
    (fun σ => σ.log.filterMap TxCall.operation = ops ∧ σ.log.length = 3) (by decide +kernel)
  obtain ⟨w', run', served', length'⟩ := Schedule.reachable
    [registers "alice", deposits "alice", polls (.error .connectionLost) [.commit],
      polls (.ok charged) [.answer {}, .commit]]
    (fun σ => σ.log.filterMap TxCall.operation = ops ∧ σ.log.length = 4) (by decide +kernel)
  exact ⟨w, w', run, run', by omega, log_determines run run' (served.trans served'.symm)⟩

/-- The totals of all wallets in a currency, computed from the transactions in it. -/
structure Conserved (d : DB) (currency : Currency) : Prop where
  available : total d.wallets (·.currency = currency) (·.availableBalance) =
    total d.transactions (fun t => t.currency = currency ∧ t.type = .deposit ∧
      t.status = .settled) (·.amount.decimal) -
    total d.transactions (fun t => t.currency = currency ∧ t.type = .withdrawal ∧
      (t.status = .initiated ∨ t.status = .settled)) (·.amount.decimal)
  locked : total d.wallets (·.currency = currency) (·.lockedBalance) =
    total d.transactions (fun t => t.currency = currency ∧ t.type = .withdrawal ∧
      t.status = .initiated) (·.amount.decimal)
  pending : total d.wallets (·.currency = currency) (·.pendingBalance) =
    total d.transactions (fun t => t.currency = currency ∧ t.type = .deposit ∧
      t.status = .initiated) (·.amount.decimal)

section Totals
variable {d : DB} {currency : Currency}

theorem DB.bank_funds (d : DB) (currency : Currency) (p : Bank.Pocket) :
    ∑ id ∈ (d.wallets.rows.map (·.id)).toFinset, d.bank.funds currency id p =
      total d.wallets (·.currency = currency) (·.balance (.of p)) := by
  rw [← sum_ite, ← sum_keys]
  apply Finset.sum_congr rfl
  intro id _
  simp only [Bank.funds, DB.bank, Option.map_map]
  rfl

/-- What a transaction in the currency is worth to all wallets together. -/
def Transaction.worth (t : Transaction) : Bank.Pocket → Decimal
  | .available =>
    if t.type = .deposit ∧ t.status = .settled then t.amount.decimal
    else if t.type = .withdrawal ∧
      (t.status = .initiated ∨ t.status = .settled) then -t.amount.decimal else 0
  | .held => if t.type = .withdrawal ∧ t.status = .initiated then t.amount.decimal else 0
  | .incoming => if t.type = .deposit ∧ t.status = .initiated then t.amount.decimal else 0

theorem Dossier.worth {t : Transaction} (dossier : Dossier d t)
    {order : Bank.Order WalletId String Currency Decimal}
    (known : t.order = some order) (p : Bank.Pocket) : order.worth p = t.worth p := by
  obtain ⟨errand, found, rfl⟩ := Option.map_eq_some_iff.mp known
  cases type : t.type <;> cases sender : t.senderWalletId <;> cases receiver :
    t.receiverWalletId <;>
    simp only [Transaction.errand, type, sender, receiver, reduceCtorEq,
      Option.some.injEq] at found <;> subst found <;>
    rcases dossier.staged.status with status | status | status <;> cases p <;>
    simp [Bank.Order.worth, Transaction.worth, type, status, TransactionStatus.standing]

theorem Consistent.bank_worth (books : Consistent d) (currency : Currency) (p : Bank.Pocket) :
    ∑ id ∈ (d.transactions.rows.map (·.id)).toFinset, d.bank.worth currency id p =
      total d.transactions (·.currency = currency) (·.worth p) := by
  rw [← sum_ite, ← sum_keys]
  apply Finset.sum_congr rfl
  intro id _
  cases found : d.transactions.get? id with
  | none => simp [Bank.worth, DB.bank, found]
  | some t =>
    obtain rfl := Table.get?_key found
    obtain ⟨order, known, there⟩ := books.order found
    have worth := (books.dossiers t (Table.get?_mem found)).worth known p
    obtain ⟨_, _, rfl⟩ := Option.map_eq_some_iff.mp known
    simp only [Bank.worth, there, Option.map_some, Option.getD_some, worth]

theorem Reachable.totals (run : Reachable w) (currency : Currency) (p : Bank.Pocket) :
    total w.shared.db.wallets (·.currency = currency) (·.balance (.of p)) =
      total w.shared.db.transactions (·.currency = currency) (·.worth p) := by
  rw [← DB.bank_funds, ← run.books.bank_worth]
  refine run.bank.conserved (fun id out => ?_) (fun id out => ?_) currency p
  · cases found : w.shared.db.wallets.get? id with
    | none => simp [DB.bank, found]
    | some wallet =>
      exact absurd (List.mem_toFinset.mpr (List.mem_map.mpr ⟨wallet, Table.get?_mem found,
        Table.get?_key found⟩)) out
  · cases found : w.shared.db.transactions.get? id with
    | none => simp [DB.bank, found]
    | some t =>
      exact absurd (List.mem_toFinset.mpr
        (List.mem_map.mpr ⟨t, Table.get?_mem found, Table.get?_key found⟩)) out

end Totals

/-- Transfers create no money and lose none: all wallets of a currency together have what
settled deposits brought in and withdrawals have not taken out. -/
theorem funds_conserved (run : Reachable w) (currency : Currency) :
    Conserved w.shared.db currency where
  available := by
    have split : ∀ t : Transaction, (if t.currency = currency then t.worth .available else 0) =
        (if t.currency = currency ∧ t.type = .deposit ∧
          t.status = .settled then t.amount.decimal else 0) -
        (if t.currency = currency ∧ t.type = .withdrawal ∧
          (t.status = .initiated ∨ t.status = .settled)
          then t.amount.decimal else 0) := by
      intro t
      by_cases same : t.currency = currency
      · cases type : t.type <;> simp [Transaction.worth, same, type]
        split <;> simp
      · simp [same]
    apply (run.totals currency .available).trans
    simp only [← sum_ite, split]
    generalize w.shared.db.transactions.rows = rows
    induction rows with
    | nil => rfl
    | cons t rest ih =>
      simp only [List.map_cons, List.sum_cons, ih]
      ring
  locked := by
    apply (run.totals currency .held).trans
    simp only [← sum_ite, Transaction.worth, ite_and]
  pending := by
    apply (run.totals currency .incoming).trans
    simp only [← sum_ite, Transaction.worth, ite_and]

theorem funds_conserved_transfer :
    ∃ w, Reachable w ∧ w.shared.db.balance "wallet-bob" .available = 10000 ∧
    ∀ currency, Conserved w.shared.db currency := by
  obtain ⟨w, run, transferred⟩ := Schedule.reachable
    [registers "alice", registers "bob", deposits "alice",
      polls (.ok charged) [.answer {}, .commit],
      (.transfer "user-alice" ⟨⟨10000, Amount.dollar_pos⟩, .usd, "transfer", "user-bob", none⟩,
        [.answer {}, .answer {}, .answer {}, .answer { draw := .labelled "transfer" }, .commit])]
    (fun σ => σ.db.balance "wallet-bob" .available = 10000) (by decide +kernel)
  exact ⟨w, run, transferred, funds_conserved run⟩

end PaymentWallet
