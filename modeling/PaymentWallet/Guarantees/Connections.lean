import PaymentWallet.Concurrency.Movements
import PaymentWallet.Foundation.Pool
import PaymentWallet.Service.Schedules

/-! The connection pool under requests that initiate transactions. Deposits,
withdrawals and payouts query through the root client within their transactions,
so that enough of them at once are stuck; transfers do so before theirs. -/
namespace PaymentWallet
open Foundation

/-- Queries through the root client. -/
def rootQueries : Queries Statement Outside where
  outside
    | .findByIdempotencyKey _ | .findByUserId _ | .findUser _ | .findOutboxEvent _
    | .findPendingProviderEvents .. | .findTransactionById _ => true
    | .draw | .process .. | .setLock | .delLock | .revokeToken => false
  statement
    | .findByUserId _ | .findConnectAccount _ | .findPaypalEmail _ => true
    | _ => false

/-- Runs of requests that initiate transactions. -/
def initiations : Permit
  | _, .start _ request =>
    match request with
    | .deposit .. | .withdraw .. | .transfer .. | .confirmDeposit .. | .createPayout .. => True
    | _ => False
  | _, _ => True

abbrev PoolState := Pool DB Write Statement Statement.Reply LockKey Exception
    TxCall TxCall.Out Outside
  Outside.Reply Ext Request Response

/-- States of a pool of `size` connections, where transactions open as `allow` allows. -/
def Pooled (size : Nat) (allow : PoolState → TxCall → Prop) (d₀ : DB) (p : PoolState) : Prop :=
  Pool.Reaches system initiations rootQueries size allow (Pool.init d₀ Ext.idle) p

section Transfers
variable {userId : UserId} {dto : TransferDto} {sender receiver : WalletId} {draw : Draw}

abbrev Rooted (p : Tx α) : Prop := Ahead rootQueries p

theorem guard_unrooted {p : Prop} [Decidable p] {error : Exception} :
    (if p then .throw error else .pure () : Tx Unit).All fun s =>
      rootQueries.statement s = false := by
  split <;> trivial

theorem lockWallet_unrooted {id : WalletId} :
    (WalletRepository.lockWallet id).All fun s => rootQueries.statement s = false := by
  refine .bind (all_query.mpr rfl) fun row => ?_
  cases row <;> trivial

theorem updateWallet_unrooted {id : WalletId} {change : BalanceChange} {f : Wallet → α} :
    ((query (.updateWallet id change)).bind fun row => .pure (f row) : Tx α).All
      fun s => rootQueries.statement s = false :=
  .bind (all_query.mpr rfl) fun _ => trivial

/-- Transfers look their wallets up before their transaction. -/
theorem transfer_unrooted : ¬ Rooted (TxCall.transfer userId dto sender receiver draw).code := by
  refine not_not.mpr <| .bind lockWallet_unrooted fun _ => .bind lockWallet_unrooted fun _ =>
    .bind guard_unrooted fun _ => .bind guard_unrooted fun _ => .bind guard_unrooted fun _ =>
    .bind guard_unrooted fun _ => .bind guard_unrooted fun _ => .bind updateWallet_unrooted fun _ =>
    .bind updateWallet_unrooted fun _ => ?_
  exact .bind (all_query.mpr rfl) fun _ => .bind (all_required _) fun _ =>
      .bind (all_query.mpr rfl) fun _ =>
    .bind (all_required _) fun _ => .bind (all_query.mpr rfl) fun _ =>
      .bind (all_query.mpr rfl) fun _ => trivial

end Transfers

section Deposits
variable (size : Nat) (allow : PoolState → TxCall → Prop) (pid : Nat) {p : PoolState}

def depositing : Request := .deposit "user" ⟨⟨1, by decide⟩, .usd, "key", none⟩

def depositCall : TxCall :=
  .deposit "user" ⟨⟨1, by decide⟩, .usd, "key", none⟩ (.labelled "deposit")

/-- A lookup that finds nothing, a draw and the transaction. -/
theorem depositing_handler :
    ∃ found drawn done, depositing.handler = .call (.outside (.findByIdempotencyKey "key")) found ∧
    found (.ok none) = .call (.outside .draw) drawn ∧
    drawn (.ok (.labelled "deposit")) = .call (.transact depositCall) done :=
  ⟨_, _, _, rfl, rfl, rfl⟩

/-- Where a connection is free, a deposit comes to hold it. -/
theorem deposit_opens (idle : p.world.procs pid = none)
    (fresh : p.world.shared.db.transactions = .empty)
    (room : p.holders.length < size) (unheld : (pid, .query) ∉ p.holders)
    (admits : ∀ w, w.shared = p.world.shared →
      (∀ other ≠ pid, w.procs other = p.world.procs other) →
      allow ⟨w, p.holders⟩ depositCall) :
    ∃ done w, Pool.Reaches system initiations rootQueries size allow p ⟨w,
      (pid, .transaction) :: p.holders⟩ ∧
      w.procs pid = some (depositing, .inTx depositCall depositCall.code [] [] done) ∧
      w.shared = p.world.shared ∧ ∀ other ≠ pid, w.procs other = p.world.procs other := by
  obtain ⟨found, drawn, done, handler, answered, drawing⟩ := depositing_handler
  let w₁ : State := p.world.set pid depositing
    (.running (.call (.outside (.findByIdempotencyKey "key")) found))
  let w₂ : State := w₁.set pid depositing (.running (.call (.outside .draw) drawn))
  let w₃ : State := w₂.set pid depositing (.running (.call (.transact depositCall) done))
  let w₄ : State := w₃.set pid depositing (.inTx depositCall depositCall.code [] [] done)
  have starts : system.Step initiations p.world
    (p.world.set pid depositing (.running depositing.handler)) :=
    .start idle trivial
  have answers : system.Step initiations w₁
      (w₁.set pid depositing (.running (found (.ok none)))) := by
    refine .outside (World.set_same ..) trivial ⟨rfl, .inl ?_⟩
    show Except.ok none = Except.ok (p.world.shared.db.transactions.rows.find? _)
    rw [fresh]
    rfl
  have draws : system.Step initiations w₂
    (w₂.set pid depositing (.running (drawn (.ok (.labelled "deposit"))))) :=
    .outside (World.set_same ..) trivial ⟨rfl, _, rfl⟩
  have begins : system.Step initiations w₃ w₄ := .begin (World.set_same ..)
  rw [handler] at starts
  rw [answered] at answers
  rw [drawing] at draws
  have others : ∀ other ≠ pid, w₃.procs other = p.world.procs other := by
    intro other different
    simp only [w₃, w₂, w₁, World.set_other _ _ _ different]
  have started : Pool.Step system initiations rootQueries size allow p ⟨w₁, p.holders⟩ :=
    .idle starts fun other was => World.set_other _ _ _ fun same => was (same ▸ idle)
  have taken : Pool.Step system initiations rootQueries size allow ⟨w₁, p.holders⟩ ⟨w₁,
    (pid, .query) :: p.holders⟩ :=
    .take (World.set_same ..) rfl unheld room
  have returned : Pool.Step system initiations rootQueries size allow ⟨w₁,
      (pid, .query) :: p.holders⟩ ⟨w₂, p.holders⟩ := by
    refine .move answers (World.set_same ..) (World.set_same ..) (by simp) (by simp) ?_
    have erased : ((pid, Use.query) :: p.holders).erase (pid, .query) = p.holders :=
      List.erase_cons_head ..
    exact (congrArg (Pool.Exchange rootQueries size pid _ _ _) erased).mp
      (.answer rfl rfl List.mem_cons_self)
  have drew : Pool.Step system initiations rootQueries size allow ⟨w₂, p.holders⟩ ⟨w₃, p.holders⟩ :=
    .move draws (World.set_same ..) (World.set_same ..) (by simp) (by simp)
      (.keep rfl Bool.false_ne_true)
  have opened : Pool.Step system initiations rootQueries size allow ⟨w₃, p.holders⟩ ⟨w₄,
      (pid, .transaction) :: p.holders⟩ := by
    refine .move begins (World.set_same ..) (World.set_same ..) (by simp) ?_ (.opens rfl rfl room)
    rintro c next ⟨⟩
    exact admits w₃ rfl others
  refine ⟨done, w₄, .tail (.tail (.tail (.tail (.single started) taken) returned) drew) opened,
    World.set_same .., rfl, ?_⟩
  exact fun other different => (World.set_other _ _ _ different).trans (others other different)

/-- As many deposits as there are connections hold them all, each about to look
its wallet up. -/
theorem deposits_exhaust (size : Nat) :
    ∀ count ≤ size, ∃ p, Pooled size (fun _ _ => True) DB.empty p ∧
    p.world.shared.db = DB.empty ∧ p.holders.length = count ∧
      (∀ pid ≥ count, p.world.procs pid = none) ∧
    ∀ holder ∈ p.holders, holder.1 < count ∧ holder.2 = .transaction ∧ ∃ done,
      p.world.procs holder.1 = some (depositing,
        .inTx depositCall depositCall.code [] [] done) := by
  intro count
  induction count with
  | zero =>
    exact fun _ => ⟨Pool.init DB.empty Ext.idle, .refl, rfl, rfl,
      fun _ _ => rfl, by simp [Pool.init]⟩
  | succ count ih =>
    intro room
    obtain ⟨p, run, store, full, idle, holding⟩ := ih (by omega)
    obtain ⟨done, w, opens, mine, shared, others⟩ :=
      deposit_opens size (fun _ _ => True) count (idle count le_rfl)
      (store ▸ rfl) (by omega) (fun held => by cases (holding _ held).2.1) fun _ _ _ => trivial
    refine ⟨_, run.trans opens, shared ▸ store, congrArg (· + 1) full, fun pid above => ?_, ?_⟩
    · exact (others pid (by omega)).trans (idle pid (by omega))
    · rintro holder member
      rcases List.mem_cons.mp member with rfl | old
      · exact ⟨Nat.lt_succ_self _, rfl, done, mine⟩
      · obtain ⟨below, kind, done', found⟩ := holding holder old
        exact ⟨by omega, kind, done', (others _ (by omega)).trans found⟩

end Deposits

/-- Where a transaction with a root query ahead opens only while the others of that
kind leave two connections, the pool is never stuck; transfers open at any time. -/
theorem pool_never_stuck (size : Nat) (room : 1 ≤ size) :
    (∀ d₀ p, Pooled size (fun p c => p.Spares system rootQueries size c) d₀ p →
      ¬ p.Stuck rootQueries size) ∧
    ∀ (p : PoolState) userId dto sender receiver draw,
      p.Spares system rootQueries size (.transfer userId dto sender receiver draw) :=
  ⟨fun _ _ run => Pool.never_stuck id room run,
    fun _ _ _ _ _ _ rooted => absurd rooted transfer_unrooted⟩

/-- Of two connections a deposit may take one. -/
theorem pool_never_stuck_two :
    ∃ p : PoolState, Pooled 2 (fun p c => p.Spares system rootQueries 2 c) DB.empty p ∧
    (0, .transaction) ∈ p.holders ∧ ¬ p.Stuck rootQueries 2 ∧
    ∀ (p : PoolState) userId dto sender receiver draw,
      p.Spares system rootQueries 2 (.transfer userId dto sender receiver draw) := by
  obtain ⟨done, w, opens, _⟩ := deposit_opens 2 (fun p c => p.Spares system rootQueries 2 c) 0
    (p := Pool.init DB.empty Ext.idle) rfl rfl (by decide) (by simp [Pool.init]) fun _ _ _ _ => by
      simp [Pool.blocked, Pool.init]
  obtain ⟨never, transfers⟩ := pool_never_stuck 2 (by decide)
  exact ⟨_, opens, List.mem_cons_self, never _ _ opens, transfers⟩

/-- Ten deposits at once get the default pool of ten connections stuck. -/
theorem pool_stuck : ¬ ∀ size ≥ 1, ∀ p, Pooled size (fun _ _ => True) DB.empty p →
    ¬ p.Stuck rootQueries size := by
  intro claim
  obtain ⟨p, run, _, full, _, holding⟩ := deposits_exhaust 10 10 le_rfl
  refine claim 10 (by decide) p run ⟨full, fun holder member => ?_⟩
  obtain ⟨_, kind, done, found⟩ := holding holder member
  exact ⟨kind, _, _, found, rfl, rfl⟩

end PaymentWallet
