import PaymentWallet.Foundation.Bank
import PaymentWallet.Accounting.Ownership

/-! What the database is as a bank, and which operation of the bank each commit is. Users
own accounts, idempotency keys are references, and the payment providers are the outside
parties; the ledger, the payment logs and the outbox are not part of the picture. -/
namespace PaymentWallet
open Foundation

abbrev WalletBank := Bank WalletId UserId TransactionId String Currency Decimal

abbrev WalletOperation := Bank.Operation WalletId UserId TransactionId String Currency Decimal

def Bucket.of : Bank.Pocket → Bucket
  | .available => .available
  | .held => .locked
  | .incoming => .pending

def Wallet.account (wallet : Wallet) : Bank.Account UserId Currency Decimal :=
  ⟨wallet.userId, wallet.currency, fun p => wallet.balance (.of p)⟩

def TransactionStatus.standing : TransactionStatus → Bank.Standing
  | .settled => .completed
  | .failed | .reversed => .cancelled
  | .initiated | .authorized | .processing => .placed

def Transaction.errand (t : Transaction) : Option (Bank.Errand WalletId) :=
  match t.type, t.senderWalletId, t.receiverWalletId with
  | .deposit, _, some receiver => some (.payIn receiver)
  | .withdrawal, some sender, _ => some (.payOut sender)
  | .transfer, some sender, some receiver => some (.move sender receiver)
  | _, _, _ => none

def Transaction.order (t : Transaction) : Option (Bank.Order WalletId String Currency Decimal) :=
  t.errand.map fun errand =>
    ⟨t.idempotencyKey, errand, t.amount.decimal, t.currency, !t.direct, t.status.standing⟩

def DB.bank (d : DB) : WalletBank where
  accounts id := (d.wallets.get? id).map (·.account)
  orders id := (d.transactions.get? id).bind (·.order)

/-- The operation that a commit is for the bank. -/
def TxCall.operation : TxCall → Option WalletOperation
  | .createUserWithWallet _ draw => some (.opens draw.walletId draw.userId .usd)
  | .deposit userId dto draw =>
    some (.places draw.transactionId dto.idempotencyKey (.payIn userId)
      dto.amount.decimal dto.currency false)
  | .withdraw userId dto draw =>
    some (.places draw.transactionId dto.idempotencyKey (.payOut userId)
      dto.amount.decimal dto.currency false)
  | .transfer userId dto _ _ draw =>
    some (.places draw.transactionId dto.idempotencyKey (.move userId dto.recipientUserId)
      dto.amount.decimal dto.currency false)
  | .confirmDeposit userId dto draw =>
    some (.places draw.transactionId dto.idempotencyKey (.payIn userId)
      dto.amount.decimal dto.currency true)
  | .createPayout userId dto draw =>
    some (.places draw.transactionId dto.idempotencyKey (.payOut userId)
      dto.amount.decimal dto.currency true)
  | .settle txCtx .. => some (.closes txCtx.id .completed)
  | .fail txCtx .. => some (.closes txCtx.id .cancelled)
  | _ => none

/-- The bank did what the commit is for it. -/
def TxCall.Operates (c : TxCall) (d d' : DB) : Prop :=
  match c.operation with
  | none => d'.bank = d.bank
  | some op => Bank.Step op d.bank d'.bank

section Orders
variable {t : Transaction} {errand : Bank.Errand WalletId}
  {order : Bank.Order WalletId String Currency Decimal}

theorem Transaction.Shaped.names (shaped : t.Shaped) :
    ∃ errand, t.errand = some errand ∧ errand.ends = t.parties := by
  cases type : t.type <;> simp only [Transaction.Shaped, type] at shaped
  · obtain ⟨none, some⟩ := shaped
    obtain ⟨receiver, there⟩ := Option.isSome_iff_exists.mp some
    exact ⟨.payIn receiver,
      by simp [Transaction.errand, type, there],
      by simp [Transaction.parties, none, there, Bank.Errand.ends]⟩
  · obtain ⟨some, none⟩ := shaped
    obtain ⟨sender, there⟩ := Option.isSome_iff_exists.mp some
    exact ⟨.payOut sender,
      by simp [Transaction.errand, type, there],
      by simp [Transaction.parties, none, there, Bank.Errand.ends]⟩
  · obtain ⟨some, some', _⟩ := shaped
    obtain ⟨sender, there⟩ := Option.isSome_iff_exists.mp some
    obtain ⟨receiver, there'⟩ := Option.isSome_iff_exists.mp some'
    exact ⟨.move sender receiver, by simp [Transaction.errand, type, there, there'],
      by simp [Transaction.parties, there, there', Bank.Errand.ends]⟩

theorem Transaction.order_effect (known : t.order = some order)
    (staged : t.status = .initiated ∨ t.status = .settled ∨ t.status = .failed)
    (id : WalletId) (p : Bank.Pocket) : order.effect id p = t.effect id (.of p) := by
  obtain ⟨errand, found, rfl⟩ := Option.map_eq_some_iff.mp known
  cases type : t.type <;> cases sender : t.senderWalletId <;> cases receiver :
    t.receiverWalletId <;>
    simp only [Transaction.errand, type, sender, receiver, reduceCtorEq,
      Option.some.injEq] at found <;> subst found <;>
    rcases staged with status | status | status <;> cases p <;>
    simp [Bank.Order.effect, Transaction.effect, type, status, sender, receiver,
      TransactionStatus.standing, Transaction.sent, Transaction.received, Bucket.of]

end Orders

section Commits
variable {d d' : DB} {t t' : Transaction} {order : Bank.Order WalletId String Currency Decimal}
  {entries : List LedgerEntry} {event : OutboxEvent} {log : PaymentLog}

theorem DB.bank_accounts {id : WalletId} {account : Bank.Account UserId Currency Decimal} :
    d.bank.accounts id = some account ↔ ∃ wallet, d.wallets.get? id = some wallet ∧
      wallet.account = account :=
  Option.map_eq_some_iff

theorem DB.bank_holds {currency : Currency} {id : WalletId} {owner : UserId} :
    d.bank.Holds currency id owner ↔
    ∃ wallet, d.wallets.get? id = some wallet ∧ wallet.userId = owner ∧
      wallet.currency = currency := by
  simp only [Bank.Holds, DB.bank_accounts]
  constructor
  · rintro ⟨_, ⟨wallet, found, rfl⟩, terms⟩
    exact ⟨wallet, found, terms⟩
  · rintro ⟨wallet, found, terms⟩
    exact ⟨_, ⟨wallet, found, rfl⟩, terms⟩

/-- A row is written, and the wallets move by what its order holds now and did not before. -/
theorem DB.bank_book {δ : WalletId → Bucket → Decimal} (known : t.order = some order)
    (wallets : Moves d.wallets d'.wallets δ) (transactions : d'.transactions = d.transactions.put t)
    (moved : ∀ i p, δ i (.of p) = order.effect i p - d.bank.effect t.id i p) :
    d'.bank = d.bank.book t.id order := by
  simp only [DB.bank, Bank.book, Bank.mk.injEq]
  constructor
  · funext i
    rw [wallets i]
    cases d.wallets.get? i with
    | none => rfl
    | some wallet =>
      simp only [Option.map_some, Wallet.account, Option.some.injEq, Bank.Account.mk.injEq]
      refine ⟨rfl, rfl, funext fun p => ?_⟩
      rw [Wallet.balance_move, moved i p]
      rfl
  · funext id
    rw [transactions, Table.get?_put]
    by_cases same : id = t.id
    · subst same
      simp [known]
    · simp [same]

theorem Opened.places (opened : Opened d t entries event d')
    (nonneg : ∀ wallet ∈ d.wallets.rows, 0 ≤ wallet.availableBalance)
    (staged : t.status = .initiated ∨ t.status = .settled ∨ t.status = .failed)
    (known : t.order = some order)
    (start : order.standing = order.errand.start) {asked : Bank.Errand UserId}
    (joins : order.errand.Joins (d.bank.Holds t.currency) asked) :
    Bank.Step (.places t.id t.idempotencyKey asked t.amount.decimal t.currency !t.direct) d.bank
      d'.bank := by
  have effect := Transaction.order_effect known staged
  have fresh : d.bank.orders t.id = none := by simp [DB.bank, opened.fresh]
  have booked : d'.bank = d.bank.book t.id order := by
    apply DB.bank_book known opened.wallets opened.transactions
    intro i p
    simp [Bank.effect, fresh, effect]
  obtain ⟨errand, named, rfl⟩ := Option.map_eq_some_iff.mp known
  rw [booked]
  refine .places _ fresh ?_ (Int.natCast_pos.mpr t.amount.pos) start joins ?_
  · intro other earlier there same
    obtain ⟨row, found, ordered⟩ := Option.bind_eq_some_iff.mp there
    obtain ⟨_, _, rfl⟩ := Option.map_eq_some_iff.mp ordered
    exact opened.newKey ⟨row, Table.get?_mem found, by simpa [Transaction.index] using same.symm⟩
  · intro i account there
    obtain ⟨wallet, found, rfl⟩ := DB.bank_accounts.mp there
    rw [effect]
    exact opened.covered i wallet found (nonneg wallet (Table.get?_mem found))

theorem Closed.closes (closed : Closed d t t' entries log event d') (shaped : t.Shaped) :
    Bank.Step (.closes t.id t'.status.standing) d.bank d'.bank := by
  obtain ⟨errand, named, _⟩ := shaped.names
  have terms := closed.terms
  simp only [Transaction.terms, Prod.mk.injEq] at terms
  have named' : t'.errand = some errand := by simpa [Transaction.errand, terms] using named
  have known : t.order = some ⟨t.idempotencyKey, errand, t.amount.decimal, t.currency,
      !t.direct, .placed⟩ := by
    simp [Transaction.order, named, closed.initiated, TransactionStatus.standing]
  have known' : t'.order = some ⟨t.idempotencyKey, errand, t.amount.decimal, t.currency, !t.direct,
      t'.status.standing⟩ := by
    simp [Transaction.order, named', closed.key, terms, Transaction.direct]
  have there : d.bank.orders t.id = some ⟨t.idempotencyKey, errand, t.amount.decimal, t.currency,
      !t.direct, .placed⟩ := by
    simp [DB.bank, closed.found, known]
  have booked : d'.bank = d.bank.book t.id ⟨t.idempotencyKey, errand, t.amount.decimal, t.currency,
      !t.direct, t'.status.standing⟩ := by
    rw [← closed.id]
    apply DB.bank_book known' closed.wallets closed.transactions
    intro i p
    rw [Transaction.order_effect known' (.inr closed.status), closed.id]
    simp only [Bank.effect, there, Option.map_some, Option.getD_some]
    rw [Transaction.order_effect known (.inl closed.initiated)]
  rw [booked]
  refine .closes there rfl (by simpa using closed.adapted) ?_
  rcases closed.status with status | status <;> simp [status, TransactionStatus.standing]

/-- The row that an initiation returns is the one it wrote: no other has its key. -/
theorem Opened.entered (opened : Opened d t entries event d')
    (found : d'.transactions.get? t'.id = some t')
    (key : t'.idempotencyKey = t.idempotencyKey) : t' = t := by
  have member := Table.get?_mem found
  rw [opened.transactions, Table.mem_put] at member
  rcases member with same | ⟨earlier, _⟩
  · exact same
  · exact absurd ⟨t', earlier, by simp [Transaction.index, key]⟩ opened.newKey

/-- Its initiating wallet belongs to the user who asked. -/
theorem Opened.initiator (opened : Opened d t entries event d') {c : TxCall} {value : c.Out}
    (entered : c.Entered value d')
    {intent : Intent} (asks : c.intent = some intent) (carries : c.carries t.idempotencyKey) :
    ∃ id, t.initiator = some id ∧ d.Owns intent.userId id := by
  obtain ⟨t', _, found, key, met⟩ := entered t.idempotencyKey intent carries asks
  obtain rfl := opened.entered found key
  obtain ⟨id, initiator, wallet, there, owner⟩ := met.initiator
  obtain ⟨old, before, rfl⟩ := opened.wallets.source there
  exact ⟨id, initiator, old, before, owner⟩

theorem Opened.holds (opened : Opened d t entries event d') {id : WalletId} {userId : UserId}
    (party : id ∈ t.parties) (owns : d.Owns userId id) : d.bank.Holds t.currency id userId := by
  obtain ⟨wallet, found, _, currency⟩ := opened.parties id party
  obtain ⟨other, there, owner⟩ := owns
  cases found.symm.trans there
  exact DB.bank_holds.mpr ⟨wallet, found, owner, currency⟩

theorem Opened.paid (opened : Opened d t entries event d') {id : WalletId} {userId : UserId}
    (party : id ∈ t.parties)
    (owner : ∀ wallet, d.wallets.get? id = some wallet → some userId = some wallet.userId) :
    d.bank.Holds t.currency id userId := by
  obtain ⟨wallet, found, _⟩ := opened.parties id party
  exact opened.holds party ⟨wallet, found, (Option.some.inj (owner wallet found)).symm⟩

end Commits

section Bodies
variable {d : DB} {σ : SharedState} {c : TxCall}

theorem createUserWithWallet_opens {data : CreateUserInput} {draw : Draw} :
    Ensures d (AuthRepository.createUserWithWalletTx data draw) d
      fun _ d' => Bank.Step (.opens draw.walletId draw.userId .usd) d.bank d'.bank := by
  simp only [AuthRepository.createUserWithWalletTx, Program.bind_def, Program.pure_def,
    ensures_bind, ensures_createUser, ensures_createWallet, ensures_pure]
  intro _ _ newWallet newOwner
  have opened : ∀ users wallet, wallet.id = draw.walletId →
      wallet.account = ⟨draw.userId, .usd, 0⟩ →
      DB.bank { d with users := users, wallets := d.wallets.put wallet } =
        d.bank.open_ draw.walletId draw.userId .usd := by
    intro users wallet id account
    simp only [DB.bank, Bank.open_, Bank.mk.injEq, and_true]
    funext i
    rw [Table.get?_put, id]
    by_cases same : i = draw.walletId
    · simp [same, account]
    · simp [same]
  have empty : Wallet.account ⟨draw.walletId, draw.userId, .usd, .active, 0, 0, 0, draw.createdAt⟩ =
      ⟨draw.userId, .usd, 0⟩ := by
    simp only [Wallet.account, Bank.Account.mk.injEq, true_and]
    funext p
    cases p <;> rfl
  rw [opened _ _ rfl empty]
  refine .opens (by simpa [DB.bank] using newWallet) fun other account there owner => ?_
  obtain ⟨wallet, found, rfl⟩ := DB.bank_accounts.mp there
  exact newOwner ⟨wallet, Table.get?_mem found,
    by simpa [Wallet.index, Wallet.account] using owner.symm⟩

theorem Opening.row_staged (o : Opening) (sender receiver : Option WalletId) :
    (o.row sender receiver).status = .initiated ∨
    (o.row sender receiver).status = .settled ∨ (o.row sender receiver).status = .failed := by
  simp only [Opening.row]
  split
  · exact .inr (.inl rfl)
  · exact .inl rfl

theorem Opened.step {d' : DB} {o : Opening} {sender receiver : Option WalletId}
    {entries : List LedgerEntry} {event : OutboxEvent}
    (opened : Opened d (o.row sender receiver) entries event d')
    (nonneg : ∀ wallet ∈ d.wallets.rows, 0 ≤ wallet.availableBalance)
    (asked : Bank.Errand UserId) {errand : Bank.Errand WalletId}
    (named : (o.row sender receiver).errand = some errand)
    (start : (o.row sender receiver).status.standing = errand.start)
    (joins : errand.Joins (d.bank.Holds o.currency) asked) {external : Bool}
    (direct : decide (o.provider = .internal) = !external) :
    Bank.Step (.places o.draw.transactionId o.idempotencyKey asked o.amount.decimal o.currency
      external) d.bank d'.bank := by
  have same : (!(o.row sender receiver).direct) =
    external := by simp [Transaction.direct, Opening.row, direct]
  have known : (o.row sender receiver).order = some ⟨o.idempotencyKey, errand, o.amount.decimal,
      o.currency, external, (o.row sender receiver).status.standing⟩ := by
    rw [Transaction.order, named, Option.map_some, same]
    rfl
  have step := opened.places nonneg (o.row_staged sender receiver) known start joins
  exact same ▸ step

/-- An initiation places the order that it was asked for. -/
theorem TxCall.Initiated.operates {d' : DB} {value : c.Out} (initiated : c.Initiated d d')
    (entered : c.Entered value d')
    (nonneg : ∀ wallet ∈ d.wallets.rows, 0 ≤ wallet.availableBalance) : c.Operates d d' := by
  obtain ⟨o, sender, receiver, entries, event, asks, opened, payee⟩ := initiated
  have shaped := opened.shaped
  cases c with
  | deposit userId dto draw =>
    cases asks
    obtain ⟨rfl, known⟩ := shaped
    obtain ⟨id, rfl⟩ := Option.isSome_iff_exists.mp known
    exact opened.step nonneg (.payIn userId) rfl rfl
      (opened.paid List.mem_cons_self fun wallet => payee id wallet rfl) rfl
  | withdraw userId dto draw =>
    cases asks
    obtain ⟨known, rfl⟩ := shaped
    obtain ⟨id, rfl⟩ := Option.isSome_iff_exists.mp known
    obtain ⟨_, ⟨rfl⟩, owns⟩ := opened.initiator entered rfl (decide_eq_true rfl)
    exact opened.step nonneg (.payOut userId) rfl rfl (opened.holds List.mem_cons_self owns) rfl
  | transfer userId dto senderWalletId receiverWalletId draw =>
    cases asks
    obtain ⟨known, known', _⟩ := shaped
    obtain ⟨id, rfl⟩ := Option.isSome_iff_exists.mp known
    obtain ⟨other, rfl⟩ := Option.isSome_iff_exists.mp known'
    obtain ⟨_, ⟨rfl⟩, owns⟩ := opened.initiator entered rfl (decide_eq_true rfl)
    have payer := opened.holds List.mem_cons_self owns
    have payee := opened.paid (List.mem_cons_of_mem _ List.mem_cons_self) fun wallet =>
      payee other wallet rfl
    exact opened.step nonneg (.move userId dto.recipientUserId) rfl rfl ⟨payer, payee⟩ rfl
  | confirmDeposit userId dto draw =>
    cases asks
    obtain ⟨rfl, known⟩ := shaped
    obtain ⟨id, rfl⟩ := Option.isSome_iff_exists.mp known
    refine opened.step nonneg (.payIn userId) rfl rfl
      (opened.paid List.mem_cons_self fun wallet => payee id wallet rfl) ?_
    simp [SupportedProvider.toProvider_ne_internal]
  | createPayout userId dto draw =>
    cases asks
    obtain ⟨known, rfl⟩ := shaped
    obtain ⟨id, rfl⟩ := Option.isSome_iff_exists.mp known
    obtain ⟨_, ⟨rfl⟩, owns⟩ := opened.initiator entered rfl (decide_eq_true rfl)
    apply opened.step nonneg (.payOut userId) rfl rfl (opened.holds List.mem_cons_self owns)
    simp [SupportedProvider.toProvider_ne_internal]
  | _ => cases asks

theorem TxCall.Ready.operates (ready : c.Ready σ) (books : Consistent σ.db) :
    Ensures σ.db c.code σ.db fun _ d' => c.Operates σ.db d' := by
  have nonneg := books.nonneg
  have initiates : c.opening.isSome → Ensures σ.db c.code σ.db fun _ d' =>
      c.Operates σ.db d' := fun asks =>
    Ensures.mono (Engine.wp_and (ready.initiates asks) ready.enters) fun value d' both =>
      both.1.operates both.2 nonneg
  have finished : ∀ {txCtx : TransactionContext} {status d'}, txCtx.Finished status σ.db d' →
      Bank.Step (.closes txCtx.id status.standing) σ.db.bank d'.bank := by
    rintro txCtx status d' ⟨t, t', entries, log, event, same, rfl, closed⟩
    exact same ▸ closed.closes (books.dossiers t (Table.get?_mem closed.found)).shaped
  have ensures := ready.ensures books
  cases c with
  | createUserWithWallet => exact createUserWithWallet_opens
  | deposit | withdraw | transfer | confirmDeposit | createPayout => exact initiates rfl
  | settle | fail => exact ensures.mono fun _ _ effect => finished effect
  | markDelivered | incrementRetry =>
    apply ensures.mono
    intro _ _ effect
    obtain ⟨old, _, rfl⟩ := effect
    rfl
  | closeAccount | updateStatusOrRole | setConnectAccountId | setPaypalEmail =>
    apply ensures.mono
    intro _ _ effect
    obtain ⟨old, tokens, _, rfl⟩ := effect
    rfl

end Bodies
end PaymentWallet
