import PaymentWallet.Concurrency.Movements
import PaymentWallet.Foundation.Deadlock

/-! The order in which movements take their locks: wallets by id, the transaction
and its idempotency key, the payment log, the event, the user. The keys of new
ledger entries are outside the order: they are generated, and asked for by one
transaction only. -/
namespace PaymentWallet
open Foundation

/-- Primary keys of ledger entries. -/
def LockKey.generated : LockKey → Bool
  | .ledgerEntry _ => true
  | _ => false

def LockKey.rank : LockKey → Nat
  | .wallet _ | .walletOf _ => 0
  | .transaction _ | .idempotencyKey _ => 1
  | .ledgerEntry _ => 2
  | .paymentLog _ | .paymentLogOf _ => 3
  | .outboxEvent _ => 4
  | .user _ | .userIndex _ | .refreshTokensOf _ => 5

def LockKey.Below (h k : LockKey) : Prop :=
  h.rank < k.rank ∨ ∃ a b, h = .wallet a ∧ k = .wallet b ∧ a < b

theorem LockKey.Below.trans {h k l : LockKey} (first : h.Below k) (second : k.Below l) :
    h.Below l := by
  rcases first with lower | ⟨a, b, rfl, rfl, ab⟩
  · rcases second with higher | ⟨a, b, rfl, rfl, _⟩
    · exact .inl (lower.trans higher)
    · exact .inl lower
  · rcases second with higher | ⟨_, c, same, rfl, bc⟩
    · exact .inl higher
    · cases same
      exact .inr ⟨a, c, rfl, rfl, String.lt_trans ab bc⟩

theorem LockKey.Below.irrefl (k : LockKey) : ¬ k.Below k := by
  rintro (lower | ⟨a, b, rfl, same, lower⟩)
  · exact Nat.lt_irrefl _ lower
  · cases same
    exact String.lt_irrefl _ lower

/-- The ids of the ledger entries that a transaction inserts. -/
def TxCall.entryIds : TxCall → List String
  | .deposit _ _ draw | .withdraw _ _ draw | .settle _ _ _ draw => [draw.ledgerEntryId]
  | .transfer _ _ _ _ draw => [draw.ledgerEntryId, draw.secondLedgerEntryId]
  | _ => []

/-- A lock that the holder of `held` may ask for: an entry of its own, a lock
that it has, or one above all that it has. -/
def Fits (entryIds : List String) (held : List LockKey) (k : LockKey) : Prop :=
  if k.generated then ∃ id ∈ entryIds, k = .ledgerEntry id
  else k ∈ held ∨ ∀ h ∈ held, ¬ h.generated → h.Below k

/-- Apart from ledger entries, nothing above a rank is held. -/
def Within (n : Nat) (held : List LockKey) : Prop := ∀ h ∈ held, ¬ h.generated → h.rank ≤ n

abbrev Climbing (entryIds : List String) (p : Tx α) (held : List LockKey)
    (Q : α → List LockKey → Prop) : Prop :=
  postgres.Takes (Fits entryIds) p held Q

section Rules
variable {entryIds : List String} {held : List LockKey} {n m : Nat} {α β : Type}

theorem Within.mono (within : Within n held) (le : n ≤ m) : Within m held :=
  fun h member ordered => (within h member ordered).trans le

theorem Climbing.bind {p : Tx α} {f : α → Tx β} {P : α → List LockKey → Prop}
    {Q : β → List LockKey → Prop} (first : Climbing entryIds p held P)
    (rest : ∀ value held', P value held' → Climbing entryIds (f value) held' Q) :
    Climbing entryIds (p.bind f) held Q :=
  Engine.takes_bind.mpr (first.mono rest)

/-- A statement whose locks are held already, or above rank `n` and up to `m`. -/
theorem climbing_query {s : Statement} {Q : s.Reply → List LockKey → Prop}
    (locked : s.plain = false) (within : Within n held) (le : n ≤ m)
    (keys : ∀ d, ∀ k ∈ s.keys d, if k.generated then ∃ id ∈ entryIds, k = .ledgerEntry id
      else k ∈ held ∨ n < k.rank ∧ k.rank ≤ m)
    (post : ∀ reply d, Within m (held ++ s.keys d) → Q reply (held ++ s.keys d)) :
    Climbing entryIds (query s) held Q := by
  simp only [Climbing, query, Program.perform, Engine.Takes, postgres, locked,
    Bool.false_eq_true, if_false]
  refine fun d => ⟨fun k member => ?_, fun reply writes _ =>
    post reply d fun k member ordered => ?_⟩
  · have key := keys d k member
    unfold Fits
    split
    · rwa [if_pos ‹_›] at key
    · rw [if_neg ‹_›] at key
      exact key.imp_right fun above h holds ordered =>
        .inl ((within h holds ordered).trans_lt above.1)
  · rcases List.mem_append.mp member with old | new
    · exact within.mono le k old ordered
    · have key := keys d k new
      rw [if_neg ordered] at key
      exact key.elim (fun old => within.mono le k old ordered) fun above => above.2

/-- A statement with locks above all that are held. -/
theorem climbing_above {s : Statement} (locked : s.plain = false)
    (within : Within n held) (above : n < m)
    (keys : ∀ d, ∀ k ∈ s.keys d, k.rank = m ∧ k.generated = false) :
    Climbing entryIds (query s) held fun _ held' => Within m held' := by
  refine climbing_query locked within above.le (fun d k member => ?_) fun _ _ => id
  obtain ⟨rank, ordered⟩ := keys d k member
  simp only [ordered, Bool.false_eq_true, if_false]
  exact .inr ⟨rank ▸ above, rank.le⟩

/-- A statement with locks that are held already. -/
theorem climbing_again {s : Statement} (locked : s.plain = false) (within : Within n held)
    (keys : ∀ d, ∀ k ∈ s.keys d, k.generated = false ∧ k ∈ held) :
    Climbing entryIds (query s) held fun _ held' => Within n held' ∧ ∀ k ∈ held, k ∈ held' := by
  refine climbing_query locked within le_rfl (fun d k member => ?_) fun _ _ within' =>
    ⟨within', fun k member => List.mem_append_left _ member⟩
  obtain ⟨ordered, holds⟩ := keys d k member
  simp only [ordered, Bool.false_eq_true, if_false]
  exact .inl holds

theorem climbing_plain {s : Statement} {Q : s.Reply → List LockKey → Prop} (plain : s.plain = true)
    (post : ∀ reply, Q reply held) : Climbing entryIds (query s) held Q := by
  simpa only [Climbing, query, Program.perform, Engine.Takes, postgres, plain, if_true] using post

theorem climbing_guard {p : Prop} [Decidable p] {error : Exception} :
    Climbing entryIds (if p then .throw error else .pure () : Tx Unit) held fun _ held' =>
      held' = held := by
  split
  · trivial
  · rfl

theorem climbing_required {value : Option α} :
    Climbing entryIds (required value) held fun _ held' => held' = held := by
  cases value <;> trivial

end Rules

section Bodies
variable {entryIds : List String} {held : List LockKey} {draw : Draw}
  {userId : UserId} {id : WalletId}
  {txCtx : TransactionContext} {eventId : EventId} {result : ProviderResult} {n : Nat} {α : Type}

theorem climbing_lockWallet (below : ∀ h ∈ held, ∃ a, h = .wallet a ∧ (a = id ∨ a < id)) :
    Climbing entryIds (WalletRepository.lockWallet id) held fun row held' =>
      row.id = id ∧ held' = held ++ [.wallet id] := by
  simp only [WalletRepository.lockWallet, Program.bind_def, query, Program.perform_bind, Climbing,
    Engine.Takes, postgres, Statement.plain, Bool.false_eq_true, if_false]
  refine fun d => ⟨fun k member => ?_, fun reply writes exec => ?_⟩
  · obtain rfl := List.mem_singleton.mp member
    by_cases mine : .wallet id ∈ held
    · exact .inl mine
    · refine .inr fun h holds _ => ?_
      obtain ⟨a, rfl, rfl | lower⟩ := below h holds
      · exact absurd holds mine
      · exact .inr ⟨a, id, rfl, rfl, lower⟩
  · obtain ⟨rfl, _⟩ := exec_lockWallet.mp exec
    cases found : d.wallets.get? id with
    | none => trivial
    | some row => exact ⟨Table.get?_key found, rfl⟩

theorem climbing_updateWallet {change : BalanceChange} {f : Wallet → α} (within : Within n held)
    (holds : .wallet id ∈ held) :
    Climbing entryIds ((query (.updateWallet id change)).bind fun row => .pure (f row)) held
      fun _ held' => Within n held' ∧ ∀ k ∈ held, k ∈ held' := by
  refine .bind (climbing_again rfl within fun _ k member => ?_) fun _ _ post => post
  obtain rfl := List.mem_singleton.mp member
  exact ⟨rfl, holds⟩

theorem climbing_createTransaction {row : Transaction} (within : Within 0 held) :
    Climbing entryIds (query (.createTransaction row)) held fun _ held' => Within 1 held' := by
  refine climbing_above rfl within Nat.one_pos fun _ k member => ?_
  rcases List.mem_pair.mp member with rfl | rfl <;> exact ⟨rfl, rfl⟩

theorem climbing_createLedgerEntry {row : LedgerEntry} (within : Within n held)
    (own : row.id ∈ entryIds) :
    Climbing entryIds (query (.createLedgerEntry row)) held fun _ held' => Within n held' := by
  refine climbing_query rfl within le_rfl (fun _ k member => ?_) fun _ _ => id
  obtain rfl := List.mem_singleton.mp member
  exact ⟨row.id, own, rfl⟩

theorem climbing_createOutboxEvent {row : OutboxEvent} (within : Within 1 held) :
    Climbing entryIds (query (.createOutboxEvent row)) held fun _ held' => Within 4 held' := by
  refine climbing_above rfl within (by omega) fun _ k member => ?_
  obtain rfl := List.mem_singleton.mp member
  exact ⟨rfl, rfl⟩

theorem climbing_initiateDeposit {input : CreateTransactionInput}
    {after : Decimal} {payload : Record}
    (within : Within 0 held) (own : draw.ledgerEntryId ∈ entryIds) :
    Climbing entryIds (TransactionRepository.initiateDeposit input after payload draw) held
      fun _ _ => True := by
  refine .bind (climbing_createTransaction within) fun _ _ within =>
    .bind climbing_required fun _ _ same => ?_
  refine .bind (climbing_createLedgerEntry (same ▸ within) own) fun _ _ within => ?_
  exact .bind (climbing_createOutboxEvent within) fun _ _ _ => trivial

theorem climbing_initiateWithdrawal {input : CreateTransactionInput}
    {after : Decimal} {payload : Record}
    (within : Within 0 held) (own : draw.ledgerEntryId ∈ entryIds) :
    Climbing entryIds (TransactionRepository.initiateWithdrawal input after payload draw) held
      fun _ _ => True := by
  refine .bind (climbing_createTransaction within) fun _ _ within =>
    .bind climbing_required fun _ _ same => ?_
  refine .bind (climbing_createLedgerEntry (same ▸ within) own) fun _ _ within => ?_
  exact .bind (climbing_createOutboxEvent within) fun _ _ _ => trivial

theorem climbing_executeTransfer {input : CreateTransactionInput}
    {sent received : Decimal} {payload : Record}
    (within : Within 0 held) (first : draw.ledgerEntryId ∈ entryIds)
    (second : draw.secondLedgerEntryId ∈ entryIds) :
    Climbing entryIds (TransactionRepository.executeTransfer input sent received payload draw) held
      fun _ _ => True := by
  refine .bind (climbing_createTransaction within) fun _ _ within =>
    .bind climbing_required fun _ _ same => ?_
  refine .bind (climbing_createLedgerEntry (same ▸ within) first) fun _ _ within =>
    .bind climbing_required fun _ _ same => ?_
  refine .bind (climbing_createLedgerEntry (same ▸ within) second) fun _ _ within => ?_
  exact .bind (climbing_createOutboxEvent within) fun _ _ _ => trivial

theorem climbing_findByUserId {f : Option WalletId → Tx α} {Q : α → List LockKey → Prop}
    (none : Climbing entryIds (f none) held Q)
    (some : ∀ id, Climbing entryIds (f (some id)) held Q) :
    Climbing entryIds ((WalletRepository.findByUserId userId).bind f) held Q := by
  refine .bind (P := fun _ held' => held' = held) (climbing_plain rfl fun _ => rfl) ?_
  rintro (_ | id) _ rfl
  · exact none
  · exact some id

/-- The lock and the checks that the initiations from the user's own wallet share:
they go on with that wallet locked and nothing above it. -/
theorem climbing_locked {currency : Currency} {f : Wallet → Tx α}
    (rest : ∀ wallet held, Within 0 held → .wallet wallet.id ∈ held →
      Climbing entryIds (f wallet) held fun _ _ => True) :
    Climbing entryIds ((WalletRepository.lockWallet id).bind fun locked =>
      (WalletRepository.assertActive locked).bind fun _ =>
        (WalletRepository.assertCurrencyMatch locked currency).bind fun _ =>
          f locked) [] fun _ _ => True := by
  refine .bind (climbing_lockWallet (by simp)) ?_
  rintro wallet _ ⟨rfl, rfl⟩
  refine .bind climbing_guard fun _ _ same => .bind climbing_guard fun _ _ same' => ?_
  obtain rfl := same'.trans same
  refine rest wallet _ (fun h member _ => ?_) List.mem_cons_self
  obtain rfl := List.mem_singleton.mp member
  exact le_rfl

theorem climbing_depositTx {dto : DepositDto} (own : draw.ledgerEntryId ∈ entryIds) :
    Climbing entryIds (TransactionService.depositTx userId dto draw) [] fun _ _ => True := by
  refine climbing_findByUserId trivial fun _ => climbing_locked fun wallet held within holds => ?_
  exact .bind (climbing_updateWallet within holds) fun _ _ post =>
    climbing_initiateDeposit post.1 own

theorem climbing_withdrawTx {dto : WithdrawalDto} (own : draw.ledgerEntryId ∈ entryIds) :
    Climbing entryIds (TransactionService.withdrawTx userId dto draw) [] fun _ _ => True := by
  refine climbing_findByUserId trivial fun _ => climbing_locked fun wallet held within holds => ?_
  refine .bind climbing_guard fun _ _ same => ?_
  subst same
  exact .bind (climbing_updateWallet within holds) fun _ _ post =>
    climbing_initiateWithdrawal post.1 own

theorem climbing_confirmDepositTx {dto : ConfirmDepositDto} :
    Climbing entryIds (PaymentService.confirmDepositTx userId dto draw) [] fun _ _ => True := by
  refine climbing_findByUserId trivial fun _ => climbing_locked fun wallet held within holds => ?_
  refine .bind (climbing_updateWallet within holds) fun _ _ post => ?_
  refine .bind (climbing_createTransaction post.1) fun _ _ within => ?_
  exact .bind (climbing_createOutboxEvent within) fun _ _ _ => trivial

theorem climbing_payoutFields {provider : SupportedProvider} :
    Climbing entryIds (PaymentService.payoutFields userId provider) held fun _ held' =>
      held' = held := by
  cases provider with
  | stripe =>
    refine .bind (.bind (P := fun _ held' => held' = held) (climbing_plain rfl fun _ => rfl) ?_)
      fun _ _ same => same
    rintro account _ rfl
    split
    · trivial
    · rfl
  | paypal =>
    refine .bind (.bind (P := fun _ held' => held' = held) (climbing_plain rfl fun _ => rfl) ?_)
      fun _ _ same => same
    rintro user _ rfl
    split
    · trivial
    · split
      · trivial
      · rfl

theorem climbing_createPayoutTx {dto : CreatePayoutDto} :
    Climbing entryIds (PaymentService.createPayoutTx userId dto draw) [] fun _ _ => True := by
  refine climbing_findByUserId trivial fun _ => climbing_locked fun wallet held within holds => ?_
  split
  · trivial
  · refine .bind (climbing_updateWallet within holds) fun _ _ post => ?_
    refine .bind climbing_payoutFields fun _ _ same => ?_
    subst same
    refine .bind (climbing_createTransaction post.1) fun _ _ within => ?_
    exact .bind (climbing_createOutboxEvent within) fun _ _ _ => trivial

/-- A transfer from where both wallets are locked. -/
theorem climbing_transferring {dto : TransferDto} {sender receiver : Wallet} {payload : Record}
    (within : Within 0 held) (sends : .wallet sender.id ∈ held)
    (receives : .wallet receiver.id ∈ held)
    (first : draw.ledgerEntryId ∈ entryIds) (second : draw.secondLedgerEntryId ∈ entryIds) :
    Climbing entryIds ((WalletRepository.assertActive sender).bind fun _ =>
      (WalletRepository.assertActive receiver).bind fun _ =>
      (WalletRepository.assertCurrencyMatch sender dto.currency).bind fun _ =>
      (WalletRepository.assertCurrencyMatch receiver dto.currency).bind fun _ =>
      (TransactionService.assertSufficientBalance sender.availableBalance dto.amount).bind fun _ =>
      (WalletRepository.debitAvailable sender.id dto.amount).bind fun sent =>
      (WalletRepository.creditAvailable receiver.id dto.amount).bind fun received =>
      TransactionRepository.executeTransfer
        ⟨dto.idempotencyKey, dto.amount, dto.currency, dto.description, some sender.id,
          some receiver.id, none⟩
        sent received payload draw) held fun _ _ => True := by
  refine .bind climbing_guard fun _ _ same => ?_
  subst same
  refine .bind climbing_guard fun _ _ same => ?_
  subst same
  refine .bind climbing_guard fun _ _ same => ?_
  subst same
  refine .bind climbing_guard fun _ _ same => ?_
  subst same
  refine .bind climbing_guard fun _ _ same => ?_
  subst same
  refine .bind (climbing_updateWallet within sends) fun _ _ debited => ?_
  refine .bind (climbing_updateWallet debited.1 (debited.2 _ receives)) fun _ _ credited => ?_
  exact climbing_executeTransfer credited.1 first second

/-- The wallets are locked in the order of their ids, whichever of them pays. -/
theorem climbing_transferTx {dto : TransferDto} {sender receiver : WalletId}
    (first : draw.ledgerEntryId ∈ entryIds) (second : draw.secondLedgerEntryId ∈ entryIds) :
    Climbing entryIds (TransactionService.transferTx userId dto sender receiver draw)
    [] fun _ _ => True := by
  unfold TransactionService.transferTx
  generalize pair : (if sender < receiver then (sender, receiver) else (receiver, sender)) = ids
  obtain ⟨low, high⟩ := ids
  have ordered : low = high ∨ low < high := by
    split at pair <;> cases pair
    · exact .inr ‹_›
    · exact or_iff_not_imp_right.mpr fun notAbove =>
        String.le_antisymm (String.not_lt.mp ‹_›) (String.not_lt.mp notAbove)
  refine .bind (climbing_lockWallet (by simp)) ?_
  rintro lowRow _ ⟨rfl, rfl⟩
  refine .bind (climbing_lockWallet fun h member => ⟨_, List.mem_singleton.mp member, ordered⟩) ?_
  rintro highRow _ ⟨rfl, rfl⟩
  have locked : ∀ id, .wallet (if lowRow.id = id then lowRow else highRow).id ∈
      [LockKey.wallet lowRow.id] ++ [LockKey.wallet highRow.id] := by
    intro id
    split <;> simp
  refine climbing_transferring (fun h member _ => ?_) (locked sender) (locked receiver) first second
  rcases List.mem_pair.mp member with rfl | rfl <;> exact le_rfl

/-- Settlements change their wallet before anything else. -/
theorem climbing_firstWallet {change : BalanceChange} :
    Climbing entryIds (query (.updateWallet id change)) [] fun _ held => Within 0 held := by
  simp only [Climbing, query, Program.perform, Engine.Takes, postgres, Statement.plain,
    Bool.false_eq_true, if_false]
  refine fun d => ⟨fun k member => ?_, fun _ _ _ h member _ => ?_⟩
  · obtain rfl := List.mem_singleton.mp member
    exact .inr fun _ none => absurd none List.not_mem_nil
  · obtain rfl := List.mem_singleton.mp member
    exact le_rfl

theorem climbing_updateTransaction {patch : TransactionPatch} (within : Within 0 held) :
    Climbing entryIds (query (.updateTransaction txCtx.id patch)) held fun _ held' =>
      Within 1 held' ∧ .transaction txCtx.id ∈ held' := by
  refine climbing_query rfl within (Nat.zero_le 1) (fun _ k member => ?_) fun _ _ within' =>
    ⟨within', List.mem_append_right _ List.mem_cons_self⟩
  obtain rfl := List.mem_singleton.mp member
  exact .inr ⟨Nat.one_pos, le_rfl⟩

theorem climbing_markSettled (within : Within 0 held) :
    Climbing entryIds (PaymentSettlementService.markSettled txCtx result draw) held fun _ held' =>
      Within 1 held' := by
  unfold PaymentSettlementService.markSettled
  split
  · refine .bind (climbing_updateTransaction within) fun _ _ stamped => ?_
    refine (climbing_again rfl stamped.1 fun _ k member => ?_).mono fun _ _ post => post.1
    obtain rfl := List.mem_singleton.mp member
    exact ⟨rfl, stamped.2⟩
  · exact (climbing_updateTransaction within).mono fun _ _ post => post.1

theorem climbing_record {status : TransactionStatus} (within : Within 1 held) :
    Climbing entryIds (PaymentSettlementService.record txCtx eventId result status draw) held
      fun _ held' => Within 4 held' := by
  refine .bind climbing_required fun _ _ same => ?_
  subst same
  refine .bind (P := fun _ held' => Within 3 held')
    (climbing_above rfl within (by omega) fun _ k member => ?_) ?_
  · rcases List.mem_pair.mp member with rfl | rfl <;> exact ⟨rfl, rfl⟩
  · intro _ _ within
    refine climbing_above rfl within (by omega) fun _ k member => ?_
    obtain rfl := List.mem_singleton.mp member
    exact ⟨rfl, rfl⟩

theorem climbing_vault {customerId : String} (within : Within 4 held) :
    Climbing entryIds (UsersRepository.upsertBraintreeCustomerId userId customerId) held fun _ _ =>
      True := by
  refine (climbing_above (m := 5) rfl within (by omega) fun d k member => ?_).mono fun _ _ _ =>
    trivial
  simp only [Statement.keys, userKeys] at member
  split at member
  · obtain rfl := List.mem_singleton.mp member
    exact ⟨rfl, rfl⟩
  · rcases List.mem_cons.mp member with rfl | entry
    · exact ⟨rfl, rfl⟩
    · obtain ⟨_, _, rfl⟩ := List.mem_map.mp entry
      exact ⟨rfl, rfl⟩

theorem climbing_settleTx (own : draw.ledgerEntryId ∈ entryIds) :
    Climbing entryIds (PaymentSettlementService.settleTx txCtx eventId result draw)
    [] fun _ _ => True := by
  unfold PaymentSettlementService.settleTx
  split
  · refine .bind climbing_required fun _ _ same => ?_
    subst same
    refine .bind (P := fun _ held' => Within 0 held')
      (.bind climbing_firstWallet fun _ _ within => within)
      fun _ _ within => ?_
    refine .bind (climbing_markSettled within) fun _ _ within => ?_
    refine .bind (climbing_createLedgerEntry within own) fun _ _ within => ?_
    refine .bind (climbing_record within) fun _ _ within => ?_
    split
    · exact climbing_vault within
    · trivial
  · refine .bind climbing_required fun _ _ same => ?_
    subst same
    refine .bind (P := fun _ held' => Within 0 held')
      (.bind climbing_firstWallet fun _ _ within => within)
      fun _ _ within => ?_
    refine .bind (climbing_markSettled within) fun _ _ within => ?_
    refine .bind (climbing_createLedgerEntry within own) fun _ _ within => ?_
    exact (climbing_record within).mono fun _ _ _ => trivial
  · trivial

theorem climbing_failTx :
    Climbing entryIds (PaymentSettlementService.failTx txCtx eventId result draw)
    [] fun _ _ => True := by
  have ends : ∀ {held}, Within 0 held →
      Climbing entryIds ((query (.updateTransaction txCtx.id { status := some .failed })).bind
      fun _ => PaymentSettlementService.record txCtx eventId result .failed draw) held fun _ _ =>
        True :=
    fun within => .bind (climbing_updateTransaction within) fun _ _ post =>
      (climbing_record post.1).mono fun _ _ _ => trivial
  unfold PaymentSettlementService.failTx
  split
  · refine .bind climbing_required fun _ _ same => ?_
    subst same
    exact .bind climbing_firstWallet fun _ _ within => ends within
  · refine .bind climbing_required fun _ _ same => ?_
    subst same
    exact .bind climbing_firstWallet fun _ _ within => ends within
  · trivial

end Bodies

/-- Every movement climbs the order, apart from ledger entries of its own. -/
theorem TxCall.climbing {c : TxCall} (moves : c.moves) :
    Climbing c.entryIds c.code [] fun _ _ => True := by
  cases c with
  | deposit => exact climbing_depositTx List.mem_cons_self
  | withdraw => exact climbing_withdrawTx List.mem_cons_self
  | transfer =>
    exact climbing_transferTx List.mem_cons_self (List.mem_cons_of_mem _ List.mem_cons_self)
  | confirmDeposit => exact climbing_confirmDepositTx
  | createPayout => exact climbing_createPayoutTx
  | settle => exact climbing_settleTx List.mem_cons_self
  | fail => exact climbing_failTx
  | _ => cases moves

end PaymentWallet
