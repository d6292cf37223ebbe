import PaymentWallet.Wallets.Readings
import PaymentWallet.Guarantees.Answers
import PaymentWallet.Guarantees.Pages
import PaymentWallet.Guarantees.Directory
import PaymentWallet.Guarantees.History

/-! What users read while others write. A read of several queries is a view of one moment, it
shows its user nothing of others, and it shows him what he was told of his own requests. -/
namespace PaymentWallet
open Foundation Schedule

variable {platform : Platform} {w w₁ w' : State} {userId : UserId} {id : String}

/-- Readers see the committed store; everyone else goes on. -/
def readers (platform : Platform) : Observer State Query Query.Reply Exception where
  moves := system.Step anything
  answer w q := q.answer platform w.shared.db
  lost := .connectionLost

theorem owner_of_find {d : DB} {wallet : Wallet}
    (found : d.wallets.rows.find? (fun row => row.userId = userId) = some wallet) :
    d.Owns userId wallet.id :=
  ⟨wallet, Table.get?_of_mem (List.mem_of_find?_eq_some found),
    by simpa using List.find?_some found⟩

/-- The wallet that is found for a user is the one he owns. -/
theorem Reachable.find_wallet (run : Reachable w) {walletId : WalletId}
    (owns : w.shared.db.Owns userId walletId) :
    ∃ wallet, w.shared.db.wallets.rows.find? (fun row => row.userId = userId) = some wallet ∧
      wallet.id = walletId := by
  obtain ⟨wallet, found, owner⟩ := owns
  have listed := Table.get?_mem found
  obtain ⟨wallet', found'⟩ : ∃ wallet',
      w.shared.db.wallets.rows.find? (fun row => row.userId = userId) = some wallet' := by
    apply Option.isSome_iff_exists.mp
    exact List.find?_isSome.mpr ⟨wallet, listed, by simp [owner]⟩
  have owner' : wallet'.userId = userId := by simpa using List.find?_some found'
  have same := run.directory.1.wallets wallet'
    (List.mem_of_find?_eq_some found') wallet listed userId
    (by simp [Wallet.index, owner']) (by simp [Wallet.index, owner])
  exact ⟨wallet', found', same ▸ Table.get?_key found⟩

/-- A user's wallet is still found later, whatever it holds by then. -/
theorem Reachable.wallet_stays (run : Reachable w) (later : system.Reaches anything w w')
    {wallet : Wallet}
    (found : w.shared.db.wallets.rows.find? (fun row => row.userId = userId) = some wallet) :
    ∃ wallet', w'.shared.db.wallets.rows.find? (fun row => row.userId = userId) = some wallet' ∧
      wallet'.id = wallet.id := by
  have owns := (owner_of_find found).keeps (grown_of_reaches run later).rows
  exact Reachable.find_wallet (run.trans later) owns

/-- A reading that goes by the id of a user's wallet alone can do so at any later moment. -/
theorem Reachable.by_wallet {α : Type} (run : Reachable w) {next : Option Wallet → Reading α}
    (refuses : Observer.Ends (next none))
    (ids : ∀ wallet wallet', wallet.id = wallet'.id → next (some wallet) = next (some wallet'))
    (rest : ∀ w wallet, (readers platform).Lasting (next (some wallet)) w) :
    (readers platform).Lasting (.call (.findByUserId userId) next) w := by
  intro w₁ earlier
  cases found : (readers platform).answer w₁ (.findByUserId userId) with
  | none => exact .inl refuses
  | some wallet =>
    refine .inr ⟨fun w₂ later => ?_, rest w₁ wallet⟩
    obtain ⟨wallet', found', same⟩ := Reachable.wallet_stays (run.trans earlier) later found
    have here : (readers platform).answer w₂ (.findByUserId userId) = some wallet' := found'
    rw [here]
    exact ids _ _ same

theorem readLedgerPage_lasting (walletId : WalletId) (query : LedgerQueryDto) :
    (readers platform).Lasting (WalletService.readLedgerPage walletId query) w := by
  apply Observer.Lasting.single
  intro reply
  cases reply <;> trivial

theorem getMyLedger_lasting (run : Reachable w) (query : LedgerQueryDto) :
    (readers platform).Lasting (WalletService.getMyLedger userId query) w := by
  apply run.by_wallet
  · trivial
  · rintro ⟨id⟩ ⟨id'⟩ rfl
    rfl
  · exact fun w wallet => readLedgerPage_lasting wallet.id query

theorem getTransaction_lasting (run : Reachable w) :
    (readers platform).Lasting (TransactionService.getTransaction userId id) w := by
  apply run.by_wallet
  · trivial
  · rintro ⟨id⟩ ⟨id'⟩ rfl
    rfl
  · intro w wallet
    apply Observer.Lasting.single
    intro reply
    cases reply with
    | none => trivial
    | some t =>
      change Observer.Ends (if t.senderWalletId ≠ some wallet.id ∧
        t.receiverWalletId ≠ some wallet.id then
        throw (.forbidden "Transaction not found.") else Pure.pure (TransactionService.toResult t) :
        Reading TransactionResult)
      split <;> trivial

theorem getWalletLedger_lasting (run : Reachable w) (query : LedgerQueryDto) :
    (readers platform).Lasting (WalletService.getWalletLedger id query) w := by
  intro w₁ earlier
  cases found : (readers platform).answer w₁ (.findWallet id) with
  | none => exact .inl trivial
  | some wallet =>
    refine .inr ⟨fun w₂ later => ?_, readLedgerPage_lasting id query⟩
    have grown := grown_of_reaches (run.trans earlier) later
    obtain ⟨wallet', found', _⟩ := grown.rows.wallets id wallet found
    have here : (readers platform).answer w₂ (.findWallet id) = some wallet' := found'
    rw [here]
    rfl

/-- The readings of two queries are views of one moment. -/
theorem readings_atomic (platform : Platform) (run : Reachable w) :
    (∀ userId query result w',
      (readers platform).Observes (WalletService.getMyLedger userId query) w result w' →
      (readers platform).Atomic (WalletService.getMyLedger userId query) w result w') ∧
    (∀ walletId query result w',
      (readers platform).Observes (WalletService.getWalletLedger walletId query) w result w' →
      (readers platform).Atomic (WalletService.getWalletLedger walletId query) w result w') ∧
    ∀ userId transactionId result w',
    (readers platform).Observes
      (TransactionService.getTransaction userId transactionId) w result w' →
      (readers platform).Atomic
        (TransactionService.getTransaction userId transactionId) w result w' := by
  constructor
  · exact fun userId query result w' observed => observed.atomic (getMyLedger_lasting run query)
  constructor
  · exact fun walletId query result w' observed =>
      observed.atomic (getWalletLedger_lasting run query)
  · exact fun userId transactionId result w' observed =>
      observed.atomic (getTransaction_lasting run)

/-- What is read at one moment may be what is observed. -/
theorem observes_at {α : Type} {p : Reading α} {value : α} (earlier : system.Reaches anything w w₁)
    (later : system.Reaches anything w₁ w')
    (read : p.eval (Query.answer platform w₁.shared.db) = .ok value) :
    (readers platform).Observes p w (.ok value) w' :=
  read ▸ Observer.Observes.at (O := readers platform) earlier later p

theorem ok_of_any {ε α : Type} {result : Except ε α} {p : α → Bool}
    (holds : result.toOption.any p) :
    ∃ value, result = .ok value ∧ p value := by
  cases result with
  | error error => cases holds
  | ok value => exact ⟨value, rfl, holds⟩

/-- Alice asks for her deposit, and it is settled before she is answered. -/
theorem alice_reads : ∃ w w' response shown, Reachable w ∧
    w.procs 1 = some ((deposits "alice").1, .running (.pure response)) ∧
    (∀ c ∈ w.shared.log, c.carries "deposit-alice" → c.intent = some (five "user-alice")) ∧
    (readers samplePlatform).Observes
      (TransactionService.getTransaction "user-alice" "transaction-deposit-alice")
      w (.ok shown) w' ∧
    shown.status = .settled := by
  obtain ⟨stage, stage', run, later, ⟨response, ended, _⟩, own, settled⟩ := Script.continues
    (.history [registers "alice", deposits "alice"])
      (.serve 2 (polls (.ok charged) [.answer {}, .commit]))
    (fun stage stage' => Answered stage 1 (deposits "alice").1 (fun _ => True) ∧
      (∀ c ∈ stage.shared.log, c.carries "deposit-alice" → c.intent = some (five "user-alice")) ∧
      ((TransactionService.getTransaction "user-alice" "transaction-deposit-alice").eval
        (Query.answer samplePlatform stage'.shared.db)).toOption.any (·.status = .settled))
          (by decide +kernel)
  obtain ⟨shown, read, closed⟩ := ok_of_any settled
  exact ⟨stage.world, stage'.world, response, shown, run, System.Stage.ended_ok ended, own,
    observes_at later .refl read, by simpa using closed⟩

theorem readings_atomic_settled : ∃ w w' shown, Reachable w ∧
    (readers samplePlatform).Observes
      (TransactionService.getTransaction "user-alice" "transaction-deposit-alice")
      w (.ok shown) w' ∧
    shown.status = .settled ∧
    (readers samplePlatform).Atomic
      (TransactionService.getTransaction "user-alice" "transaction-deposit-alice")
      w (.ok shown) w' := by
  obtain ⟨w, w', response, shown, run, ended, own, observed, settled⟩ := alice_reads
  exact ⟨w, w', shown, run, observed, settled,
    (readings_atomic samplePlatform run).2.2 _ _ _ _ observed⟩

/-- The user's wallet has a part in the transaction. -/
def DB.Party (d : DB) (userId : UserId) (t : Transaction) : Prop :=
  ∃ walletId ∈ t.parties, d.Owns userId walletId

section Moments
variable {d : DB}

theorem involved {walletId : WalletId} {t : Transaction} :
    ¬ (t.senderWalletId ≠ some walletId ∧ t.receiverWalletId ≠ some walletId) ↔
      walletId ∈ t.parties := by
  rw [Transaction.parties, List.mem_append, Option.mem_toList, Option.mem_toList,
    not_and_or, not_not, not_not]

/-- What a user with a wallet is answered at one moment. -/
theorem getTransaction_eval {wallet : Wallet}
    (found : d.wallets.rows.find? (fun row => row.userId = userId) = some wallet) :
    (TransactionService.getTransaction userId id).eval (Query.answer platform d) =
      match d.transactions.get? id with
      | none => .error (.forbidden "Transaction not found.")
      | some t =>
        if wallet.id ∈ t.parties then .ok (TransactionService.toResult t)
          else .error (.forbidden "Transaction not found.") := by
  simp only [TransactionService.getTransaction, ask, Program.bind_def, Program.perform_bind,
    Program.eval, Query.answer, found]
  cases d.transactions.get? id with
  | none => rfl
  | some t =>
    by_cases part : wallet.id ∈ t.parties
    · have takes := involved.mpr part
      simp only [takes, part, if_true, if_false]
      rfl
    · have apart := not_not.mp (mt involved.mp part)
      simp only [ne_eq, not_false_eq_true, and_self, apart, part, if_true, if_false]
      rfl

end Moments

/-- What the user may be answered about a transaction. -/
def DB.Answers (d : DB) (userId : UserId) (transactionId : TransactionId)
    (result : Except Exception TransactionResult) : Prop :=
  (∃ t, d.transactions.get? transactionId = some t ∧ d.Party userId t ∧
    result = .ok (TransactionService.toResult t)) ∨
  ((¬ ∃ t, d.transactions.get? transactionId = some t ∧ d.Party userId t) ∧
    (∃ walletId, d.Owns userId walletId) ∧
    result = .error (.forbidden "Transaction not found.")) ∨
  ((∀ walletId, ¬ d.Owns userId walletId) ∧ result = .error (.forbidden "Wallet not found"))

/-- A ledger page lists entries of the user's wallet, as they are. -/
def DB.Lists (d : DB) (userId : UserId) (page : Page LedgerEntryResponse String) : Prop :=
  ∃ walletId, d.Owns userId walletId ∧ ∀ item ∈ page.items,
    ∃ e ∈ d.ledger walletId, item = e.response d

theorem Reachable.owns_one (run : Reachable w) {first second : WalletId}
    (left : w.shared.db.Owns userId first)
    (right : w.shared.db.Owns userId second) : first = second := by
  obtain ⟨wallet, found, rfl⟩ := run.find_wallet left
  obtain ⟨wallet', found', rfl⟩ := run.find_wallet right
  cases found.symm.trans found'
  rfl

theorem Reachable.answers_moment (run : Reachable w) :
    w.shared.db.Answers userId id
      ((TransactionService.getTransaction userId id).eval (Query.answer platform w.shared.db)) := by
  cases found : w.shared.db.wallets.rows.find? fun row => row.userId = userId with
  | none =>
    refine .inr (.inr ⟨fun walletId owns => ?_, ?_⟩)
    · obtain ⟨wallet, there, _⟩ := run.find_wallet owns
      cases found.symm.trans there
    · simp only [TransactionService.getTransaction, ask, Program.bind_def, Program.perform_bind,
        Program.eval, Query.answer, found, Program.throw_def]
  | some wallet =>
    have owns := owner_of_find found
    -- the wallet that was found is the only one the user can be a party with
    have party : ∀ t, w.shared.db.Party userId t ↔ wallet.id ∈ t.parties := by
      intro t
      constructor
      · rintro ⟨walletId, part, owns'⟩
        exact run.owns_one owns' owns ▸ part
      · exact fun part => ⟨wallet.id, part, owns⟩
    rw [getTransaction_eval found, DB.Answers]
    cases there : w.shared.db.transactions.get? id with
    | none => exact .inr (.inl ⟨by simp, ⟨wallet.id, owns⟩, rfl⟩)
    | some t =>
      by_cases part : wallet.id ∈ t.parties
      · exact .inl ⟨t, rfl, (party t).mpr part, if_pos part⟩
      · refine .inr (.inl ⟨?_, ⟨wallet.id, owns⟩, if_neg part⟩)
        rintro ⟨t', same, takes⟩
        cases same
        exact part ((party t).mp takes)

theorem lists_moment {d : DB} {query : LedgerQueryDto} {page : Page LedgerEntryResponse String}
    (read : .ok page = (WalletService.getMyLedger userId query).eval (Query.answer platform d)) :
    d.Lists userId page := by
  simp only [WalletService.getMyLedger, WalletService.readLedgerPage, ask, Program.bind_def,
    Program.perform_bind, Program.eval, Query.answer] at read
  cases found : d.wallets.rows.find? fun row => row.userId = userId with
  | none => simp [found, Program.eval] at read
  | some wallet =>
    simp only [found, Program.eval] at read
    cases fetched : WalletService.fetchLedgerPage platform d wallet.id query with
    | error error => simp [fetched, Program.eval, Query.answer] at read
    | ok shown =>
      simp only [fetched, Program.eval, Program.pure_def, Query.answer, Except.ok.injEq] at read
      exact ⟨wallet.id, owner_of_find found, read ▸ findLedgerPage_lists fetched⟩

theorem shows_moment {d : DB} {wallet : WalletResponse}
    (read : .ok wallet = (WalletService.getMyWallet userId).eval (Query.answer platform d)) :
    wallet.userId = userId := by
  simp only [WalletService.getMyWallet, ask, Program.bind_def, Program.perform_bind, Program.eval,
    Query.answer] at read
  cases found : d.wallets.rows.find? fun row => row.userId = userId with
  | none => simp [found, Program.eval] at read
  | some row =>
    simp only [found, Program.pure_def, Program.eval, Except.ok.injEq] at read
    subst read
    simpa [WalletService.serializeWallet] using List.find?_some found

/-- A user is shown his own wallet, entries of its ledger, and transactions that it has a part in.
A transaction of others is answered for as if it did not exist. -/
theorem readings_private (platform : Platform) (run : Reachable w) (userId : UserId) :
    (∀ wallet w', (readers platform).Observes (WalletService.getMyWallet userId) w (.ok wallet) w' →
      wallet.userId = userId) ∧
    (∀ query page w', (readers platform).Observes
      (WalletService.getMyLedger userId query) w (.ok page) w' →
      ∃ w₁, system.Reaches anything w w₁ ∧ system.Reaches anything w₁ w' ∧
        w₁.shared.db.Lists userId page) ∧
    ∀ transactionId result w',
    (readers platform).Observes
      (TransactionService.getTransaction userId transactionId) w result w' →
      result ≠ .error .connectionLost →
      ∃ w₁, system.Reaches anything w w₁ ∧ system.Reaches anything w₁ w' ∧
        w₁.shared.db.Answers userId transactionId result := by
  constructor
  · intro wallet w' observed
    have single : (readers platform).Lasting (WalletService.getMyWallet userId) w := by
      apply Observer.Lasting.single
      intro reply
      cases reply <;> trivial
    obtain ⟨w₁, _, _, read⟩ := (observed.atomic single).moment (by simp)
    exact shows_moment read
  constructor
  · intro query page w' observed
    obtain ⟨w₁, earlier, later, read⟩ :=
      (observed.atomic (getMyLedger_lasting run query)).moment (by simp)
    exact ⟨w₁, earlier, later, lists_moment read⟩
  · intro transactionId result w' observed arrived
    obtain ⟨w₁, earlier, later, rfl⟩ :=
      (observed.atomic (getTransaction_lasting run)).moment arrived
    exact ⟨w₁, earlier, later, Reachable.answers_moment (run.trans earlier)⟩

theorem readings_private_settled : ∃ w w' shown, Reachable w ∧
    (readers samplePlatform).Observes
      (TransactionService.getTransaction "user-alice" "transaction-deposit-alice")
      w (.ok shown) w' ∧
    ∃ w₁, system.Reaches anything w w₁ ∧ system.Reaches anything w₁ w' ∧
      w₁.shared.db.Answers "user-alice" "transaction-deposit-alice" (.ok shown) := by
  obtain ⟨w, w', response, shown, run, ended, own, observed, settled⟩ := alice_reads
  exact ⟨w, w', shown, run, observed,
    (readings_private samplePlatform run "user-alice").2.2 _ _ _ observed (by simp)⟩

theorem Transaction.initiator_party {t : Transaction} {walletId : WalletId}
    (initiates : t.initiator = some walletId) :
    walletId ∈ t.parties := by
  unfold Transaction.initiator at initiates
  split at initiates <;> simp [Transaction.parties, initiates]

theorem Transaction.Outlasts.terms {t t' : Transaction} (outlasts : t.Outlasts t') :
    t'.terms = t.terms :=
  congrArg (·.2.1) outlasts.1

theorem Transaction.Outlasts.parties {t t' : Transaction} (outlasts : t.Outlasts t') :
    t'.parties = t.parties := by
  have terms := outlasts.terms
  simp only [Transaction.terms, Prod.mk.injEq] at terms
  rw [Transaction.parties, Transaction.parties, terms.2.2.2.2.1, terms.2.2.2.2.2]

theorem DB.Party.outlasts {d d' : DB} {t t' : Transaction} (party : d.Party userId t)
    (keeps : d.Keeps d') (outlasts : t.Outlasts t') :
    d'.Party userId t' := by
  obtain ⟨walletId, part, owns⟩ := party
  exact ⟨walletId, outlasts.parties ▸ part, owns.keeps keeps⟩

/-- A user who has a part in a transaction is shown it, as it is by then. -/
theorem Reachable.reads_part (run : Reachable w) {t : Transaction}
    (found : w.shared.db.transactions.get? id = some t)
    (party : w.shared.db.Party userId t) {result : Except Exception TransactionResult}
    (observed : (readers platform).Observes
      (TransactionService.getTransaction userId id) w result w')
    (arrived : result ≠ .error .connectionLost) :
    ∃ w₁ t', system.Reaches anything w₁ w' ∧ Reachable w₁ ∧
      w₁.shared.db.transactions.get? id = some t' ∧
      w₁.shared.db.Party userId t' ∧ t.Outlasts t' ∧
        result = .ok (TransactionService.toResult t') := by
  obtain ⟨w₁, earlier, later, rfl⟩ := (observed.atomic (getTransaction_lasting run)).moment arrived
  have reached : Reachable w₁ := run.trans earlier
  have grown := grown_of_reaches run earlier
  obtain ⟨t', found', outlasts⟩ := (run.extends earlier).transactions id t found
  have party' := party.outlasts grown.rows outlasts
  refine ⟨w₁, t', later, reached, found', party', outlasts, ?_⟩
  have answers : w₁.shared.db.Answers userId id
    ((TransactionService.getTransaction userId id).eval (Query.answer platform w₁.shared.db)) :=
    reached.answers_moment
  rcases answers with ⟨t₁, found₁, _, shown⟩ | refused | refused
  · cases found'.symm.trans found₁
    exact shown
  · exact absurd ⟨t', found', party'⟩ refused.1
  · obtain ⟨walletId, _, owns⟩ := party'
    exact absurd owns (refused.1 walletId)

/-- What is shown of a transaction later: the same, with an outcome if it had none. -/
structure TransactionResult.Outlasts (shown again : TransactionResult) : Prop where
  id : again.id = shown.id
  key : again.idempotencyKey = shown.idempotencyKey
  type : again.type = shown.type
  amount : again.amount = shown.amount
  currency : again.currency = shown.currency
  outcome : again = shown ∨ shown.status = .initiated ∧
    (again.status = .settled ∨ again.status = .failed)

theorem Transaction.Outlasts.shown {t t' : Transaction} (outlasts : t.Outlasts t')
    (id : t'.id = t.id) :
    (TransactionService.toResult t).Outlasts (TransactionService.toResult t') := by
  have terms := outlasts.terms
  simp only [Transaction.terms, Prod.mk.injEq] at terms
  constructor
  · exact id
  · exact congrArg (·.1) outlasts.1
  · exact terms.1
  · exact terms.2.1
  · exact terms.2.2.1
  · rcases outlasts.2 with rfl | closed
    · exact .inl rfl
    · exact .inr closed

/-- The transaction is shown as it was asked for. -/
structure Intent.Seen (intent : Intent) (key : String) (shown : TransactionResult) : Prop where
  key : shown.idempotencyKey = key
  type : shown.type = intent.type
  amount : shown.amount = intent.amount
  currency : shown.currency = intent.currency

/-- Whoever has been answered about his own request finds the transaction from then on, as he
asked for it, and never sees an outcome taken back. -/
theorem reads_own_writes (platform : Platform) (run : Reachable w) {pid : Nat} {request : Request}
    {response : Response} {key : String}
    {intent : Intent} (ended : w.procs pid = some (request, .running (.pure response)))
    (carries : request.carries key)
    (own : ∀ c ∈ w.shared.log, c.carries key → c.intent = some intent) :
    ∃ t, response.Shows t ∧ ∀ w₁ result w₂, system.Reaches anything w w₁ →
      (readers platform).Observes
        (TransactionService.getTransaction intent.userId t.id) w₁ result w₂ →
      result = .error .connectionLost ∨ ∃ shown, result = .ok shown ∧ shown.id = t.id ∧
        intent.Seen key shown ∧
        ∀ w₃ result' w₄, system.Reaches anything w₂ w₃ →
          (readers platform).Observes
            (TransactionService.getTransaction intent.userId t.id) w₃ result' w₄ →
          result' = .error .connectionLost ∨ ∃ again, result' = .ok again ∧
            shown.Outlasts again := by
  obtain ⟨t, member, shows_, met⟩ := (answers_own_iff run ended carries).mpr own
  obtain ⟨other, listed, shows', same⟩ := shown_of_reaches run ended carries
  obtain rfl := shows'.unique shows_ listed member
  obtain ⟨walletId, initiates, owns⟩ := met.initiator
  have party : w.shared.db.Party intent.userId other :=
    ⟨walletId, Transaction.initiator_party initiates, owns⟩
  refine ⟨other, shows_, fun w₁ result w₂ since observed => ?_⟩
  by_cases arrived : result = .error .connectionLost
  · exact .inl arrived
  have grown := grown_of_reaches run since
  obtain ⟨t₁, found₁, outlasts₁⟩ := (run.extends since).transactions _ _ (Table.get?_of_mem listed)
  obtain ⟨m, t₂, after, reached, found₂, party₂, outlasts₂, rfl⟩ :=
    Reachable.reads_part (run.trans since) found₁
      (party.outlasts grown.rows outlasts₁) observed arrived
  have outlasts := outlasts₁.trans outlasts₂
  have seen := outlasts.shown (Table.get?_key found₂)
  refine .inr ⟨_, rfl, seen.id,
    ⟨seen.key.trans same, seen.type.trans met.type, seen.amount.trans met.amount,
    seen.currency.trans met.currency⟩, fun w₃ result' w₄ later observed' => ?_⟩
  by_cases arrived' : result' = .error .connectionLost
  · exact .inl arrived'
  have since' : system.Reaches anything m w₃ := after.trans later
  have grown' := grown_of_reaches reached since'
  obtain ⟨t₃, found₃, outlasts₃⟩ := (reached.extends since').transactions _ _ found₂
  obtain ⟨_, t₄, _, _, found₄, _, outlasts₄, rfl⟩ :=
    Reachable.reads_part (reached.trans since') found₃
      (party₂.outlasts grown'.rows outlasts₃) observed' arrived'
  exact .inr ⟨_, rfl, (outlasts₃.trans outlasts₄).shown
    ((Table.get?_key found₄).trans (Table.get?_key found₂).symm)⟩

theorem reads_own_writes_settled : ∃ w w' response shown, Reachable w ∧
    w.procs 1 = some ((deposits "alice").1, .running (.pure response)) ∧
    (readers samplePlatform).Observes
      (TransactionService.getTransaction "user-alice" "transaction-deposit-alice")
      w (.ok shown) w' ∧
    shown.status = .settled ∧ ∃ t, response.Shows t ∧ ∀ w₁ result w₂, system.Reaches anything w w₁ →
      (readers samplePlatform).Observes
        (TransactionService.getTransaction "user-alice" t.id) w₁ result w₂ →
      result = .error .connectionLost ∨ ∃ shown, result = .ok shown ∧ shown.id = t.id ∧
        (five "user-alice").Seen "deposit-alice" shown ∧ ∀ w₃ result' w₄,
          system.Reaches anything w₂ w₃ →
          (readers samplePlatform).Observes
            (TransactionService.getTransaction "user-alice" t.id) w₃ result' w₄ →
          result' = .error .connectionLost ∨ ∃ again, result' = .ok again ∧
            shown.Outlasts again := by
  obtain ⟨w, w', response, shown, run, ended, own, observed, settled⟩ := alice_reads
  exact ⟨w, w', response, shown, run, ended, observed, settled,
    reads_own_writes samplePlatform run ended rfl own⟩

end PaymentWallet
