import PaymentWallet.Foundation.Lease
import PaymentWallet.Service.Money
import PaymentWallet.Service.Schedules
import PaymentWallet.Sessions.Requests
import PaymentWallet.Sessions.Schedules

/-! The Redis locks of the scheduled jobs. A key expires under a job that takes longer
than its lifetime, and `DEL` asks for no owner; jobs exclude each other where the
keys outlive them. -/
namespace PaymentWallet
open Foundation Schedule

def ProcessorLock.held (lock : ProcessorLock) : Nat × Bool := (lock.holder, lock.busy)

/-- `locks:payment_processor`. -/
def processorLease : Lease Outside Outside.Reply Exception Ext :=
  .onKey .setLock .delLock true fun ext => ext.lock.map (·.held)

/-- Runs in which the key does not expire while its setter is within its batch. -/
abbrev steady : Permit := processorLease.steady

section Processor

theorem quiet (x : Outside) (free : x.locks = false) :
    processorLease.Quiet (C := TxCall) (.outside x) :=
  Lease.quiet_outside _ (by rintro rfl; cases free) (by rintro rfl; cases free)

theorem processOutbox_job : processorLease.Job Request.processOutbox.handler := by
  have quiet : processorLease.Free PaymentProcessorService.processBatch :=
    all_processBatch quiet fun c _ => Lease.quiet_transact _ c
  refine .asks (fun reply got => ?_) fun reply refused => ?_
  · obtain rfl := got
    show processorLease.Working
      (((PaymentProcessorService.processBatch.handle fun _ => .pure ()).bind
      fun _ => outside .delLock).bind fun _ => .pure Response.done)
    rw [Program.bind_assoc]
    exact Lease.working_caught quiet fun _ => Lease.working_release fun _ => trivial
  · rcases reply with error | _ | _
    · trivial
    · trivial
    · exact absurd rfl refused

theorem processor_starts (request : Request) :
    processorLease.Job request.handler ∨ processorLease.Free request.handler := by
  by_cases scheduled : request = .processOutbox
  · exact .inl (scheduled ▸ processOutbox_job)
  · exact .inr <| request.all_handler quiet (fun c _ => Lease.quiet_transact _ c)
      (fun same => absurd same scheduled) fun c _ _ => Lease.quiet_transact _ c

theorem processor_lawful : processorLease.Lawful system steady where
  distinct := by simp [processorLease, Lease.onKey]
  starts _ := processor_starts _
  acquires answered got := by
    cases answered with
    | acquired idle => exact ⟨by simp [processorLease, Lease.onKey, idle], rfl⟩
    | _ => cases got
  refused answered refused held := by
    cases answered with
    | acquired => exact absurd rfl refused
    | taken | failed => exact held
    | unheard idle => simp [processorLease, Lease.onKey, idle] at held
  others {_ x} _ _ _ _ acquire release answered := by
    cases x with
    | setLock => exact absurd rfl acquire
    | delLock => exact absurd rfl release
    | process =>
      cases answered with
      | returned | threw => rfl
    | _ => exact congrArg processorLease.lock answered.1
  stays permitted _ held := absurd held (permitted _)

end Processor

namespace Sessions

/-- `locks:token_cleanup`. -/
def cleanupLease : Lease Outside Outside.Reply Exception Ext :=
  .onKey .setLock .delLock true fun ext => ext.lock.map (·.held)

/-- Runs in which the key does not expire while its setter is within its sweep. -/
abbrev steady : Permit := cleanupLease.steady

section Cleanup
variable {config : Config}

theorem quiet_admits : Admits (cleanupLease.Quiet (C := TxCall)) where
  outside x common := Lease.quiet_outside _ (by rintro rfl; cases common)
    (by rintro rfl; cases common)
  ends c _ := Lease.quiet_transact _ c

theorem cleanupExpiredTokens_job (config : Config) (batches : Nat) :
    cleanupLease.Job (Request.handler config (.cleanupExpiredTokens batches)) := by
  have free : cleanupLease.Free (AuthRepository.deleteAllExpiredTokens cleanupBatchSize batches) :=
    all_deleteAllExpiredTokens quiet_admits _ batches
  refine .asks (fun reply got => ?_) fun reply refused => ?_
  · obtain rfl := got
    show cleanupLease.Working
      (((((AuthRepository.deleteAllExpiredTokens cleanupBatchSize batches).bind
      fun _ => .pure ()).handle
      fun _ => .pure ()).bind fun _ => outside .delLock).bind fun _ => .pure Response.done)
    rw [Program.bind_assoc]
    exact Lease.working_caught (.bind free fun _ => trivial) fun _ =>
      Lease.working_release fun _ => trivial
  · rcases reply with error | _ | _
    · trivial
    · trivial
    · exact absurd rfl refused

theorem cleanup_starts (request : Request) :
    cleanupLease.Job (request.handler config) ∨ cleanupLease.Free (request.handler config) := by
  have transacts : ∀ c, cleanupLease.Quiet (.transact c : ServiceOp TxCall Outside) :=
    Lease.quiet_transact _
  have looks : ∀ token revokedAt,
    cleanupLease.Quiet (C := TxCall) (.outside (.withinGrace token revokedAt)) :=
    fun _ _ => Lease.quiet_outside _ nofun nofun
  by_cases scheduled : ∃ batches, request = .cleanupExpiredTokens batches
  · obtain ⟨batches, rfl⟩ := scheduled
    exact .inl (cleanupExpiredTokens_job config batches)
  by_cases refreshes : ∃ refreshToken, request = .refresh refreshToken
  · obtain ⟨refreshToken, rfl⟩ := refreshes
    exact .inr <| .bind (all_refresh quiet_admits looks (fun _ _ => transacts _)
      (fun _ _ => Lease.quiet_outside _ nofun nofun) refreshToken) fun _ => trivial
  · exact .inr <| all_handler quiet_admits request
      (fun refreshToken same => refreshes ⟨refreshToken, same⟩)
      (fun _ _ _ => transacts _) (fun _ => looks) fun same => absurd same scheduled

theorem cleanup_lawful : cleanupLease.Lawful (sessions config) steady where
  distinct := by simp [cleanupLease, Lease.onKey]
  starts _ := cleanup_starts _
  acquires answered got := by
    cases answered with
    | acquired idle => exact ⟨by simp [cleanupLease, Lease.onKey, idle], rfl⟩
    | _ => cases got
  refused answered refused held := by
    cases answered with
    | acquired => exact absurd rfl refused
    | taken | failed => exact held
    | unheard idle => simp [cleanupLease, Lease.onKey, idle] at held
  others {_ x} _ _ _ _ acquire release answered := by
    cases x with
    | setLock => exact absurd rfl acquire
    | delLock => exact absurd rfl release
    | generateTokenPair =>
      rcases answered with ⟨pair, jti, lifetime, _, _, _, _, rfl⟩ | ⟨_, rfl⟩ <;> rfl
    | setCache | delCache | denylist => cases answered <;> rfl
    | _ => exact congrArg cleanupLease.lock answered.1
  stays permitted _ held := absurd held (permitted _)

/-- A sweep that finds the key free is at work. -/
theorem sweep_enters (config : Config) :
    ∃ w, (sessions config).Reaches steady (World.init Store.empty Ext.idle) w ∧
    cleanupLease.Inside w 0 := by
  have answered : (sessions config).outside 0 cleanupLease.acquire Store.empty Ext.idle (.ok true)
      { Ext.idle with lock := some ⟨0, true⟩ } := SetLock.acquired rfl
  have job : cleanupLease.Job ((sessions config).handler (.cleanupExpiredTokens 1)) :=
    cleanupExpiredTokens_job config 1
  have asks := (rfl : (sessions config).handler (.cleanupExpiredTokens 1) =
    .call (.outside cleanupLease.acquire) _)
  have start : (sessions config).Reaches steady (World.init Store.empty Ext.idle)
    (World.init Store.empty Ext.idle) := .refl
  obtain ⟨w, run, inside, _⟩ :=
    Lease.enters start rfl job asks ⟨trivial, trivial⟩ answered rfl nofun
  exact ⟨w, run, inside⟩

end Cleanup
end Sessions

/-- Both jobs exclude each other and release their own key, as long as the key stays
with its setter until he deletes it. -/
theorem locks_exclude (w : State) (config : Sessions.Config) (w' : Sessions.State) :
    (system.Reaches steady (World.init DB.empty Ext.idle) w → processorLease.Excludes w) ∧
    ((Sessions.sessions config).Reaches Sessions.steady
      (World.init Sessions.Store.empty Sessions.Ext.idle) w' →
      Sessions.cleanupLease.Excludes w') :=
  ⟨Lease.excludes processor_lawful, Lease.excludes Sessions.cleanup_lawful⟩

/-- A poll after it has got the lock. -/
def pollBatch : Svc Response := do
  (do
    tryCatch PaymentProcessorService.processBatch fun _ => pure ()
    outside .delLock)
  return .done

section Schedules
variable {permit : Permit} {w : State}

/-- A poll that finds the key free is in its batch. -/
theorem poll_enters (pid : Nat) (run : system.Reaches permit (World.init DB.empty Ext.idle) w)
    (unstarted : w.procs pid = none)
    (permitted : ∀ σ label, label ≠ .drift → permit σ label) (free : w.shared.ext.lock = none) :
    ∃ w', system.Reaches permit (World.init DB.empty Ext.idle) w' ∧ processorLease.Inside w' pid ∧
      w'.procs pid = some (.processOutbox, .running pollBatch) ∧
        (∀ other ≠ pid, w'.procs other = w.procs other) ∧
      w'.shared = { w.shared with ext := { w.shared.ext with lock := some ⟨pid, true⟩ } } := by
  have answered : system.outside pid processorLease.acquire w.shared.db w.shared.ext (.ok true)
      { w.shared.ext with lock := some ⟨pid, true⟩ } := SetLock.acquired free
  have asks := (rfl : system.handler .processOutbox = .call (.outside processorLease.acquire) _)
  exact Lease.enters run unstarted processOutbox_job asks ⟨permitted _ _ nofun,
    permitted _ _ nofun⟩ answered rfl nofun

/-- The first batch is still running when the key expires and a second one starts. When
the first is through, it deletes the key of the second. -/
theorem locks_overlap : (∃ w, Reachable w ∧ processorLease.Inside w 0 ∧ processorLease.Inside w 1) ∧
    ∃ w lock, Reachable w ∧ processorLease.Releases w 0 ∧ w.shared.ext.lock = some lock ∧
      lock.holder = 1 := by
  have anywhere : ∀ σ label, label ≠ .drift → anything σ label := fun _ _ _ => trivial
  obtain ⟨w₁, run, inside, first, others, shared⟩ :=
    poll_enters (w := World.init DB.empty Ext.idle) 0 .refl rfl
    anywhere rfl
  have expired : system.Step anything w₁
    { w₁ with shared := { w₁.shared with ext := { w₁.shared.ext with lock := none } } } :=
    .drift trivial (.lock (by rw [shared]))
  obtain ⟨w₂, run₂, inside₂, _, others₂, shared₂⟩ := poll_enters 1 (.tail run expired)
    (others 1 (by decide)) anywhere rfl
  have waits := (others₂ 0 (by decide)).trans first
  refine ⟨⟨w₂, run₂, .same inside (others₂ 0 (by decide)), inside₂⟩, ?_⟩
  have none_due : PendingEvents w₂.shared.db 100 5 [] := by
    rw [shared₂, shared]
    exact ⟨[], .refl _, .nil, rfl⟩
  have found : system.outside 0 (.findPendingProviderEvents 100 5) w₂.shared.db w₂.shared.ext
    (.ok []) w₂.shared.ext :=
    ⟨rfl, [], none_due, .inl rfl⟩
  refine ⟨_, ⟨1, true⟩, .tail run₂ (.outside waits trivial found),
    ⟨_, _, World.set_same ..⟩, ?_, rfl⟩
  show w₂.shared.ext.lock = _
  rw [shared₂]

/-- One instance of each job at work. -/
theorem locks_exclude_one : (∃ w : State, processorLease.Inside w 0 ∧ processorLease.Excludes w) ∧
    ∃ w : Sessions.State, Sessions.cleanupLease.Inside w 0 ∧ Sessions.cleanupLease.Excludes w := by
  have steadily : ∀ σ label, label ≠ .drift → steady σ label := by
    intro σ label moves
    cases label with
    | drift => exact absurd rfl moves
    | _ => trivial
  obtain ⟨w, run, inside, _⟩ :=
    poll_enters (w := World.init DB.empty Ext.idle) 0 .refl rfl steadily rfl
  obtain ⟨w', run', inside'⟩ := Sessions.sweep_enters (.sample 5)
  have excludes := locks_exclude w (.sample 5) w'
  exact ⟨⟨w, inside, excludes.1 run⟩, w', inside', excludes.2 run'⟩

end Schedules
end PaymentWallet
