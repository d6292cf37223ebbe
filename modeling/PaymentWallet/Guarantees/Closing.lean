import PaymentWallet.Guarantees.Accounts

/-! Closed accounts. Nothing in the code ties `User.status` to the money guards, so
a closed account stays empty only in runs that happen not to pay into it and whose
closings commit while the wallet is still empty. -/
namespace PaymentWallet
open Foundation Schedule

def DB.closed (d : DB) (userId : UserId) : Bool := (d.users.get? userId).any (·.status = .closed)

def Wallet.empty (wallet : Wallet) : Bool :=
  wallet.availableBalance = 0 && wallet.lockedBalance = 0 && wallet.pendingBalance = 0

/-- A closed account holds no money. -/
def ClosedEmpty (d : DB) : Prop := ∀ wallet ∈ d.wallets.rows, d.closed wallet.userId → wallet.empty

instance (d : DB) : Decidable (ClosedEmpty d) :=
  inferInstanceAs (Decidable (∀ wallet ∈ d.wallets.rows, _))

/-- On the store before its commit: the transaction pays into no closed account,
and closes only an empty one. -/
def TxCall.spares (c : TxCall) (d : DB) : Bool :=
  c.payee.all (fun userId => !d.closed userId) &&
    match c with
    | .closeAccount userId _ =>
      d.wallets.rows.all fun wallet => wallet.userId ≠ userId || wallet.empty
    | _ => true

def sparing : Permit := fun σ label =>
  match label with
  | .commit _ c | .lost _ c => c.spares σ.db
  | _ => True

instance (σ : SharedState) (label : Label TxCall Outside Request Exception) :
    Decidable (sparing σ label) :=
  match label with
  | .commit _ c | .lost _ c => inferInstanceAs (Decidable (c.spares σ.db = true))
  | .start .. | .outside .. | .abort .. | .drift => .isTrue trivial

theorem Wallet.empty_iff {wallet : Wallet} : wallet.empty ↔ ∀ b, wallet.balance b = 0 := by
  simp only [empty, Bool.and_eq_true, decide_eq_true_eq]
  constructor
  · rintro ⟨⟨available, locked⟩, pending⟩ b
    cases b <;> assumption
  · exact fun zero => ⟨⟨zero .available, zero .locked⟩, zero .pending⟩

theorem Wallet.empty_move {wallet : Wallet} {δ : Bucket → Decimal} (empty : wallet.empty)
    (still : ∀ b, δ b = 0) :
    (wallet.move δ).empty := by
  rw [empty_iff] at empty ⊢
  simp [empty, still]

section Moves
variable {d d' : DB} {wallet : Wallet}

/-- An initiation takes nothing from an empty wallet. -/
theorem Opened.spares {o : Opening} {sender receiver : Option WalletId}
    (opened : Opened d (o.row sender receiver) entries event d')
    (found : d.wallets.get? wallet.id = some wallet)
    (empty : wallet.empty) (unpaid : receiver ≠ some wallet.id) (b : Bucket) :
    (o.row sender receiver).effect wallet.id b = 0 := by
  refine Transaction.effect_stranger (fun party => ?_) b
  have sends : sender = some wallet.id := by
    simpa [Transaction.parties, Opening.row, unpaid] using party
  have amount : 0 < o.amount.decimal := Int.natCast_pos.mpr o.amount.pos
  have zero := Wallet.empty_iff.mp empty .available
  have covered := opened.covered _ wallet found zero.ge
  have shaped := opened.shaped
  simp only [Wallet.balance] at zero
  cases type : o.type <;>
    simp [Transaction.Shaped, Transaction.effect, Transaction.received, Transaction.sent,
      Opening.row, type, sends, unpaid, Wallet.move, Wallet.shift,
      zero] at covered shaped <;> linarith

/-- No open transaction holds money in an empty wallet. -/
theorem Closed.spares (closed : Closed d t t' entries log event d') (consistent : Consistent d)
    (member : wallet ∈ d.wallets.rows) (empty : wallet.empty) (b : Bucket) :
    t'.effect wallet.id b - t.effect wallet.id b = 0 := by
  have zero := Wallet.empty_iff.mp empty
  have accounted := consistent.accounted member
  have pending := zero .pending
  have locked := zero .locked
  have present := Table.get?_mem closed.found
  have positive : ∀ row ∈ d.transactions.rows, 0 < row.amount.decimal :=
    fun row _ => Int.natCast_pos.mpr row.amount.pos
  simp only [Wallet.balance, accounted.pending, accounted.locked] at pending locked
  have noDeposit := total_eq_zero positive pending t present
  have noWithdrawal := total_eq_zero positive locked t present
  have stranger : wallet.id ∉ t.parties := by
    have shaped := (consistent.dossiers t present).shaped
    cases type : t.type with
    | transfer => exact absurd type closed.type
    | deposit =>
      simp_all [Transaction.Shaped, Transaction.parties, closed.initiated]
    | withdrawal =>
      simp_all [Transaction.Shaped, Transaction.parties, closed.initiated]
  rw [Transaction.effect_stranger stranger, Transaction.effect_stranger, sub_zero]
  exact Transaction.parties_congr closed.terms ▸ stranger

theorem DB.closed_congr
    (same : ∀ id, (d'.users.get? id).map (·.status) = (d.users.get? id).map (·.status))
    (userId : UserId) : d'.closed userId = d.closed userId := by
  have any : ∀ user : Option User, user.any (fun row => decide (row.status = .closed)) =
      (user.map (·.status)).any fun status => decide (status = .closed) := by
    intro user
    cases user <;> rfl
  rw [DB.closed, DB.closed, any, any, same]

theorem Patched.closed {id : UserId} {patch : UserPatch}
    (patched : Patched d id patch d') {userId : UserId}
    (closed : d'.closed userId) : patch.status = some .closed ∧ userId = id ∨ d.closed userId := by
  obtain ⟨old, tokens, found, rfl⟩ := patched
  have keyEq : old.id = id := Table.get?_key found
  rw [DB.closed, Table.get?_put] at closed
  split at closed
  · rename_i here
    obtain rfl : userId = id := here.trans keyEq
    cases status : patch.status with
    | none =>
      refine .inr ?_
      simpa [DB.closed, found, UserPatch.apply, status] using closed
    | some status' =>
      refine .inl ⟨?_, rfl⟩
      simpa [UserPatch.apply, status] using closed
  · exact .inr closed

theorem Patched.closedEmpty {id : UserId} {patch : UserPatch} (patched : Patched d id patch d')
    (kept : ClosedEmpty d) (closes : patch.status = some .closed →
      ∀ wallet ∈ d.wallets.rows, wallet.userId = id → wallet.empty) : ClosedEmpty d' := by
  intro wallet member closed
  have member' : wallet ∈ d.wallets.rows := by
    obtain ⟨old, tokens, _, rfl⟩ := patched
    exact member
  rcases patched.closed closed with ⟨status, owner⟩ | before
  · exact closes status wallet member' owner
  · exact kept wallet member' before

theorem TxCall.Initiated.closedEmpty {c : TxCall} (initiated : c.Initiated d d')
    (spares : c.spares d) (kept : ClosedEmpty d) : ClosedEmpty d' := by
  obtain ⟨o, sender, receiver, entries, event, _, opened, payee⟩ := initiated
  intro wallet member closed
  obtain ⟨old, found, moved⟩ := opened.wallets.source (Table.get?_of_mem member)
  have keyEq : old.id = wallet.id := Table.get?_key found
  have owner : wallet.userId = old.userId := by rw [moved]; rfl
  rw [owner, DB.closed, opened.users] at closed
  have empty := kept old (Table.get?_mem found) closed
  rw [← keyEq] at moved found
  refine moved ▸ Wallet.empty_move empty (opened.spares found empty fun paid => ?_)
  have paysInto := payee old.id old paid found
  simp only [TxCall.spares, paysInto, Option.all_some, Bool.and_eq_true] at spares
  exact absurd closed (by simpa [DB.closed] using spares.1)

theorem TransactionContext.Finished.closedEmpty {txCtx : TransactionContext}
    {status : TransactionStatus}
    (finished : txCtx.Finished status d d') (consistent : Consistent d) (kept : ClosedEmpty d) :
    ClosedEmpty d' := by
  obtain ⟨t, t', entries, log, event, _, _, finished⟩ := finished
  intro wallet member closed
  obtain ⟨old, found, moved⟩ := finished.wallets.source (Table.get?_of_mem member)
  have keyEq : old.id = wallet.id := Table.get?_key found
  have owner : wallet.userId = old.userId := by rw [moved]; rfl
  rw [owner, DB.closed_congr finished.users] at closed
  have empty := kept old (Table.get?_mem found) closed
  rw [← keyEq] at moved
  exact moved ▸ Wallet.empty_move empty (finished.spares consistent (Table.get?_mem found) empty)

/-- A commit that spares closed accounts leaves them empty. -/
theorem TxCall.Effect.closedEmpty {c : TxCall} {σ : SharedState} (effect : c.Effect σ.db d')
    (ready : c.Ready σ) (spares : c.spares σ.db) (consistent : Consistent σ.db)
    (kept : ClosedEmpty σ.db) :
    ClosedEmpty d' := by
  cases c with
  | createUserWithWallet =>
    obtain ⟨user, wallet, rfl, newUser, _, active, empty⟩ := effect
    intro other member closed
    rcases Table.mem_put.mp member with rfl | ⟨old, _⟩
    · exact Wallet.empty_iff.mpr empty
    · rw [DB.closed, Table.get?_put] at closed
      split at closed
      · simp [active] at closed
      · exact kept other old closed
  | deposit | withdraw | transfer | confirmDeposit | createPayout =>
    exact TxCall.Initiated.closedEmpty effect spares kept
  | settle | fail => exact TransactionContext.Finished.closedEmpty effect consistent kept
  | markDelivered | incrementRetry =>
    obtain ⟨old, _, rfl⟩ := effect
    exact kept
  | closeAccount =>
    refine Patched.closedEmpty effect kept fun _ wallet member owner => ?_
    simp only [TxCall.spares, TxCall.payee, Option.all_none, Bool.true_and,
      List.all_eq_true] at spares
    simpa [owner] using spares wallet member
  | updateStatusOrRole => exact Patched.closedEmpty effect kept fun closes => absurd closes ready
  | setConnectAccountId | setPaypalEmail =>
    exact Patched.closedEmpty effect kept fun closes => by cases closes

end Moves

/-- A closed account holds no money, where every commit spares closed accounts. -/
theorem closed_account_empty {w : State}
    (run : system.Reaches sparing (World.init DB.empty Ext.idle) w) :
    ClosedEmpty w.shared.db := by
  refine related_of_reaches (F := fun σ σ' => ClosedEmpty σ.db → ClosedEmpty σ'.db) (fun _ => id)
    (fun first second => second ∘ first) (fun sound move kept => ?_) .refl run
      (fun _ none => by cases none)
  cases move with
  | commit permitted ready effect _ =>
    exact effect.closedEmpty ready (permitted.elim id id) sound.books kept
  | call => exact kept

def Schedule.closes (name : String) : Request × List (Turn Choice) :=
  (.closeAccount ("user-" ++ name), [.answer {}, .answer {}, .commit, .answer {}])

/-- Alice has five dollars and Bob has left. -/
def bobLeft : Schedule := [registers "alice", registers "bob", deposits "alice",
  polls (.ok charged) [.answer {}, .commit], closes "bob"]

theorem closed_account_empty_bob : ∃ w, system.Reaches sparing (World.init DB.empty Ext.idle) w ∧
    (∃ wallet ∈ w.shared.db.wallets.rows, w.shared.db.closed wallet.userId) ∧
      ClosedEmpty w.shared.db := by
  obtain ⟨w, run, left⟩ := bobLeft.reaches sparing DB.empty
    (fun σ => ∃ wallet ∈ σ.db.wallets.rows, σ.db.closed wallet.userId) (by decide +kernel)
  exact ⟨w, run, left, closed_account_empty run⟩

def Schedule.gift : Request × List (Turn Choice) :=
  (.transfer "user-alice" ⟨⟨50000, Amount.fiveDollars_pos⟩, .usd, "gift", "user-bob", none⟩,
    [.answer {}, .answer {}, .answer {}, .answer { draw := .labelled "gift" }, .commit])

/-- Alice sends her money to Bob's closed account. -/
theorem closed_account_paid : ¬ ∀ w, Reachable w → ClosedEmpty w.shared.db := by
  intro claim
  obtain ⟨w, run, paid⟩ := Schedule.reachable (bobLeft ++ [gift])
    (fun σ => ¬ ClosedEmpty σ.db) (by decide +kernel)
  exact paid (claim w run)

end PaymentWallet
