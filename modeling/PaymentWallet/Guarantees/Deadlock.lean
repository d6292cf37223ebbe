import PaymentWallet.Concurrency.LockOrder
import PaymentWallet.Service.Schedules

/-! Movements never deadlock, over any wallets and idempotency keys, in any
number and any interleaving. -/
namespace PaymentWallet
open Foundation Schedule

/-- All locks but the primary keys of ledger entries. -/
def LockKey.Ordered (k : LockKey) : Prop := ¬ k.generated

/-- The runs in which ledger entries have generated ids: `owner` is the process
that generated each. -/
def Drawn (owner : String → Nat) :
    Shared DB TxCall Unit → Label TxCall Empty Movement Exception → Prop
  | _, .start pid c => ∀ id ∈ c.1.entryIds, owner id = pid
  | _, _ => True

abbrev Moving.State :=
  World DB Write Statement Statement.Reply LockKey Exception TxCall TxCall.Out Empty
  (fun _ => Empty) Unit Movement Unit

section Runs
variable {d₀ : DB} {w : Moving.State} {owner : String → Nat} {pid other : Nat} {k : LockKey}

theorem movements_calls (request : Movement) :
    (movements.handler request).All (Calls fun c => c = request.1) :=
  ⟨rfl, fun result => by cases result <;> trivial⟩

theorem movements_fitting (run : movements.Reaches (fun _ _ => True) (World.init d₀ ()) w) :
    ∀ pid request phase, w.procs pid = some (request, phase) →
      phase.Fitting postgres (Fits request.1.entryIds) := by
  refine System.Reaches.fitting (fun _ request => Fits request.1.entryIds)
    (fun _ request c => c = request.1) (fun {_ _ request} _ => movements_calls request) ?_ run
  rintro pid request c rfl
  exact TxCall.climbing request.2

theorem movements_exclusive (run : movements.Reaches (fun _ _ => True) (World.init d₀ ()) w) :
    w.Exclusive :=
  ((World.Orderly.init d₀ ()).reaches movements_disciplined run).exclusive

theorem needs_fits (run : movements.Reaches (fun _ _ => True) (World.init d₀ ()) w)
    (needs : w.Needs movements pid k) :
    ∃ request phase, w.procs pid = some (request, phase) ∧
      Fits request.1.entryIds phase.held k := by
  obtain ⟨request, c, s, rest, writes, held, next, found, locked, needed⟩ := needs
  have fitting := (movements_fitting run _ _ _ found).1
  simp only [Engine.Takes, show postgres.plain s = false from locked,
    Bool.false_eq_true, if_false] at fitting
  exact ⟨request, _, found, (fitting _).1 k needed⟩

theorem movements_climb (run : movements.Reaches (fun _ _ => True) (World.init d₀ ()) w) :
    w.Climbs movements LockKey.Below LockKey.Ordered := by
  intro pid h k orderedHeld ordered holds needs
  obtain ⟨request, phase, found, fits⟩ := needs_fits run needs
  obtain ⟨request', phase', found', member⟩ := holds
  cases found.symm.trans found'
  rw [Fits, if_neg ordered] at fits
  exact fits.imp (fun mine => ⟨request, phase, found, mine⟩) fun above => above h member orderedHeld

theorem movements_acyclic (run : movements.Reaches (fun _ _ => True) (World.init d₀ ()) w) :
    w.Acyclic movements LockKey.Ordered :=
  World.Climbs.acyclic (movements_climb run) (movements_exclusive run)
    LockKey.Below.trans LockKey.Below.irrefl

theorem movements_started (run : movements.Reaches (fun _ _ => True) (World.init d₀ ()) w) :
    {pid | w.procs pid ≠ none}.Finite :=
  System.Reaches.started run (by simp [World.init])

/-- Only its own process asks for the key of a generated entry. -/
theorem drawn_own (run : movements.Reaches (Drawn owner) (World.init d₀ ()) w)
    {request : Movement} {phase} (found : w.procs pid = some (request, phase)) {held : List LockKey}
    (fits : Fits request.1.entryIds held k)
    (generated : k.generated) : ∃ id, k = .ledgerEntry id ∧ owner id = pid := by
  rw [Fits, if_pos generated] at fits
  obtain ⟨id, own, rfl⟩ := fits
  have drawn := run.proc (F := fun pid request _ => ∀ id ∈ request.1.entryIds, owner id = pid)
    (fun permitted => permitted) (fun _ own _ => own) (by rintro _ _ _ ⟨⟩)
  exact ⟨id, rfl, drawn _ _ _ found id own⟩

/-- With generated ids, the keys of entries are never waited for. -/
theorem drawn_waits (run : movements.Reaches (Drawn owner) (World.init d₀ ()) w)
    (waits : w.WaitsFor movements (fun _ => True) pid other) :
    w.WaitsFor movements LockKey.Ordered pid other := by
  have plain : movements.Reaches (fun _ _ => True) (World.init d₀ ()) w := run.mono fun _ => trivial
  obtain ⟨different, k, _, needs, holds⟩ := waits
  refine ⟨different, k, fun generated => different ?_, needs, holds⟩
  obtain ⟨request, phase, found, fits⟩ := needs_fits plain needs
  obtain ⟨id, rfl, mine⟩ := drawn_own run found fits generated
  obtain ⟨request', phase', found', member⟩ := holds
  have fitting := movements_fitting plain _ _ _ found'
  cases phase' with
  | running program => cases member
  | inTx c body writes held next =>
    obtain ⟨before, fits'⟩ := fitting.2 _ member
    obtain ⟨_, ⟨⟩, theirs⟩ := drawn_own run found' fits' generated
    exact theirs.symm.trans mine

end Runs

/-- Nobody waits in a circle, and somebody who has not finished waits for nobody:
over the locks on wallets, idempotency keys and all others but the keys of new
ledger entries, and over all locks where these keys are generated. -/
theorem movements_deadlock_free {d₀ : DB} {w : Moving.State}
    (run : movements.Reaches (fun _ _ => True) (World.init d₀ ()) w) :
    w.Acyclic movements LockKey.Ordered ∧ w.Flows movements LockKey.Ordered ∧
    ∀ owner, movements.Reaches (Drawn owner) (World.init d₀ ()) w →
      w.Acyclic movements (fun _ => True) ∧
      ∀ first, w.Unfinished first → ∃ pid, w.CanProceed movements (Drawn owner) pid := by
  have acyclic := movements_acyclic run
  have flows := acyclic.flows (movements_started run)
  refine ⟨acyclic, flows, fun owner drawn => ⟨fun pid cycle => ?_, fun first unfinished => ?_⟩⟩
  · exact acyclic pid (Relation.TransGen.mono (fun _ _ => drawn_waits drawn) _ _ cycle)
  · obtain ⟨pid, unfinished, free⟩ := flows first unfinished
    refine ⟨pid, System.proceeds (fun {σ label} other => ?_) (fun _ x => x.elim) unfinished
      fun other waits => free other (drawn_waits drawn waits)⟩
    cases label with
    | start pid request => exact absurd rfl (other pid request)
    | _ => trivial

/-- A cent from one user to another. -/
def pays (sender receiver : UserId) (senderWalletId receiverWalletId : WalletId) : Movement :=
  ⟨.transfer sender ⟨⟨100, by decide⟩, .usd, sender, receiver, none⟩ senderWalletId receiverWalletId
    (.labelled sender), rfl⟩

theorem pays_code {sender receiver : UserId} (from_ to_ low high : WalletId)
    (sorted : (if from_ < to_ then (from_, to_) else (to_, from_)) = (low, high)) :
    ∃ rest, (pays sender receiver from_ to_).1.code = .call (.lockWallet low) rest := by
  simp only [pays, TxCall.code, TransactionService.transferTx, sorted]
  exact ⟨_, rfl⟩

def couple : DB := Schedule.store [registers "alice", registers "bob"]

/-- Alice and Bob pay each other. One transfer has her wallet, the other waits for it. -/
theorem movements_deadlock_free_crossing : ∃ w : Moving.State,
    movements.Reaches (fun _ _ => True) (World.init couple ()) w ∧
      w.WaitsFor movements LockKey.Ordered 1 0 ∧
    w.Acyclic movements LockKey.Ordered ∧ w.Flows movements LockKey.Ordered ∧
    ∀ owner, movements.Reaches (Drawn owner) (World.init couple ()) w →
      w.Acyclic movements (fun _ => True) ∧
      ∀ first, w.Unfinished first → ∃ pid, w.CanProceed movements (Drawn owner) pid := by
  let there := pays "user-alice" "user-bob" "wallet-alice" "wallet-bob"
  let back := pays "user-bob" "user-alice" "wallet-bob" "wallet-alice"
  obtain ⟨rest, thereCode⟩ : ∃ rest, there.1.code = .call (.lockWallet "wallet-alice") rest :=
    pays_code _ _ _ "wallet-bob" (by decide +kernel)
  obtain ⟨rest', backCode⟩ : ∃ rest, back.1.code = .call (.lockWallet "wallet-alice") rest :=
    pays_code _ _ _ "wallet-bob" (by decide +kernel)
  let next : ∀ c : TxCall, Except Exception c.Out →
    Service TxCall Empty TxCall.Out (fun _ => Empty) Exception Unit :=
    fun c result => (Service.resume result).bind fun _ => .pure ()
  have begins : ∀ {w : Moving.State} {pid} (c : Movement) {body},
      w.procs pid = some (c, .running (movements.handler c)) →
      c.1.code = body → movements.Step (fun _ _ => True) w
        (w.set pid c (.inTx c.1 body [] [] (next c.1))) := by
    rintro w pid c body found rfl
    exact .begin found
  let w₁ : Moving.State := (World.init couple ()).set 0 there (.running (movements.handler there))
  let w₂ : Moving.State :=
    w₁.set 0 there (.inTx there.1 (.call (.lockWallet "wallet-alice") rest) [] [] (next _))
  let w₃ : Moving.State := w₂.set 0 there
    (.inTx there.1 (rest (couple.wallets.get? "wallet-alice")) [] [.wallet "wallet-alice"] (next _))
  let w₄ : Moving.State := w₃.set 1 back (.running (movements.handler back))
  let w₅ : Moving.State :=
    w₄.set 1 back (.inTx back.1 (.call (.lockWallet "wallet-alice") rest') [] [] (next _))
  have locks : movements.Step (fun _ _ => True) w₂ w₃ := by
    refine .write (World.set_same ..) rfl (fun k member other different => ?_) rfl
    rintro ⟨request, phase, found, member⟩
    rw [World.set_other _ _ _ different, World.set_other _ _ _ different] at found
    cases found
  have run : movements.Reaches (fun _ _ => True) (World.init couple ()) w₅ :=
    (((Relation.ReflTransGen.single (.start rfl trivial)).tail
      (begins there (World.set_same ..) thereCode)).tail
      locks).tail (.start rfl trivial) |>.tail (begins back (World.set_same ..) backCode)
  refine ⟨w₅, run, ⟨by decide, .wallet "wallet-alice", Bool.false_ne_true, ?_, ?_⟩,
    movements_deadlock_free run⟩
  · exact ⟨_, _, _, _, _, _, _, World.set_same .., rfl, List.mem_cons_self⟩
  · exact ⟨_, _, (World.set_other _ _ _ (by decide)).trans
      ((World.set_other _ _ _ (by decide)).trans (World.set_same ..)), List.mem_cons_self⟩

end PaymentWallet
