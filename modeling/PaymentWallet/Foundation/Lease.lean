import PaymentWallet.Foundation.World

/-! Leases. A job takes a lock in the external state by an operation whose reply says
whether it got it, works, and gives the lock up by another operation. The lock knows
no owner and can go by itself. Where it stays as long as its taker works, jobs
exclude each other and give up no lock but their own. -/
namespace Foundation
variable {D W S K ε C X Ext Req Resp α β : Type} {R : S → Type} {Out : C → Type} {Y : X → Type}

/-- `lock` tells who took the lock and whether he still works under it. -/
structure Lease (X : Type) (Y : X → Type) (ε Ext : Type) where
  acquire : X
  release : X
  acquired : Except ε (Y acquire) → Prop
  lock : Ext → Option (Nat × Bool)

namespace Lease

/-- A key that `acquire` sets where it is free, answering whether it did, and `release` deletes. -/
def onKey (acquire release : X) (granted : Y acquire) (key : Ext → Option (Nat × Bool)) :
    Lease X Y ε Ext where
  acquire := acquire
  release := release
  acquired := fun reply => reply = .ok granted
  lock := key

variable (lease : Lease X Y ε Ext)

/-- Runs in which the lock does not go while its taker works under it. -/
def steady : Shared D C Ext → Label C X Req ε → Prop
  | σ, .drift => ∀ pid, lease.lock σ.ext ≠ some (pid, true)
  | _, _ => True

section Programs

def Quiet (op : ServiceOp C X) : Prop := op ≠ .outside lease.acquire ∧ op ≠ .outside lease.release

/-- The program never touches the lock. -/
abbrev Free (p : Service C X Out Y ε α) : Prop := p.All lease.Quiet

/-- The lock is taken, and given up once on every way to the end. -/
def Working : Service C X Out Y ε α → Prop
  | .pure _ => False
  | .throw _ => False
  | .call op next => lease.Quiet op ∧ (∀ reply, Working (next reply)) ∨
      op = .outside lease.release ∧ ∀ reply, lease.Free (next reply)

/-- The program asks for the lock, and works only if it gets it. -/
inductive Job : Service C X Out Y ε α → Prop where
  | asks : (∀ reply, lease.acquired reply → lease.Working (next reply)) →
      (∀ reply, ¬ lease.acquired reply → lease.Free (next reply)) →
        Job (.call (.outside lease.acquire) next)

theorem quiet_transact (c : C) : lease.Quiet (.transact c : ServiceOp C X) := ⟨nofun, nofun⟩

theorem quiet_outside {x : X} (acquire : x ≠ lease.acquire) (release : x ≠ lease.release) :
    lease.Quiet (.outside x : ServiceOp C X) :=
  ⟨fun same => acquire (ServiceOp.outside.inj same), fun same =>
    release (ServiceOp.outside.inj same)⟩

variable {lease}

/-- Work that catches its own exceptions leads to what follows. -/
theorem working_caught {p : Service C X Out Y ε α} {f : α → Service C X Out Y ε β} {value : α}
    (free : lease.Free p) (rest : ∀ value, lease.Working (f value)) :
    lease.Working ((p.handle fun _ => .pure value).bind f) := by
  induction p with
  | pure value => exact rest value
  | throw error => exact rest value
  | call op next ih => exact .inl ⟨free.1, fun reply => ih reply (free.2 reply)⟩

theorem working_release {f : Y lease.release → Service C X Out Y ε α}
    (rest : ∀ value, lease.Free (f value)) :
    lease.Working ((Service.outside lease.release).bind f) := by
  refine .inr ⟨rfl, fun reply => ?_⟩
  cases reply with
  | ok value => exact rest value
  | error error => trivial

theorem Job.first {x : X} {next : Except ε (Y x) → Service C X Out Y ε α}
    (job : lease.Job (.call (.outside x) next)) :
    x = lease.acquire := by
  cases job with
  | asks => rfl

theorem Job.works {next : Except ε (Y lease.acquire) → Service C X Out Y ε α}
    (job : lease.Job (.call (.outside lease.acquire) next)) {reply : Except ε (Y lease.acquire)}
    (got : lease.acquired reply) : lease.Working (next reply) := by
  cases job with
  | asks works => exact works reply got

theorem Job.not_working {p : Service C X Out Y ε α} (job : lease.Job p)
    (distinct : lease.acquire ≠ lease.release) :
    ¬ lease.Working p := by
  cases job with
  | asks =>
    rintro (⟨quiet, _⟩ | ⟨same, _⟩)
    · exact quiet.1 rfl
    · exact distinct (ServiceOp.outside.inj same)

/-- Work comes to giving the lock up. -/
theorem Working.not_free (error : ε) {p : Service C X Out Y ε α} (working : lease.Working p) :
    ¬ lease.Free p := by
  induction p with
  | pure value => exact working.elim
  | throw error => exact working.elim
  | call op next ih =>
    rintro ⟨quiet, free⟩
    rcases working with ⟨_, working⟩ | ⟨release, _⟩
    · exact ih (.error error) (working _) (free _)
    · exact quiet.2 release

end Programs

section Worlds
variable (w : World D W S R K ε C Out X Y Ext Req Resp) (pid : Nat)

/-- The process is about to give the lock up. -/
def Releases : Prop :=
  ∃ request next, w.procs pid = some (request, .running (.call (.outside lease.release) next))

/-- The process works: it has got the lock, and has not come to giving it up. -/
def Inside : Prop :=
  (∃ request phase, w.procs pid = some (request, phase) ∧ lease.Working phase.residual) ∧
    ¬ lease.Releases w pid

/-- One process works at a time, and who gives the lock up gives up his own. -/
structure Excludes : Prop where
  one : ∀ pid other, lease.Inside w pid → lease.Inside w other → pid = other
  own : ∀ pid, lease.Releases w pid → ∀ lock, lease.lock w.shared.ext = some lock → lock.1 = pid

/-- What a system has to do with a lease. The lock does not go under a working holder. -/
structure Lawful (M : System D W S R K ε C Out X Y Ext Req Resp)
    (permit : Shared D C Ext → Label C X Req ε → Prop) : Prop where
  distinct : lease.acquire ≠ lease.release
  starts : ∀ {σ pid request}, permit σ (.start pid request) →
    lease.Job (M.handler request) ∨ lease.Free (M.handler request)
  acquires : ∀ {pid d ext reply ext'}, M.outside pid lease.acquire d ext reply ext' →
    lease.acquired reply →
    lease.lock ext = none ∧ lease.lock ext' = some (pid, true)
  refused : ∀ {pid d ext reply ext' lock}, M.outside pid lease.acquire d ext reply ext' →
    ¬ lease.acquired reply →
    lease.lock ext = some lock → lease.lock ext' = some lock
  others : ∀ {pid x d ext reply ext'}, x ≠ lease.acquire → x ≠ lease.release →
    M.outside pid x d ext reply ext' →
    lease.lock ext' = lease.lock ext
  stays : ∀ {σ ext pid}, permit σ .drift → M.drift σ.ext ext → lease.lock σ.ext = some (pid, true) →
    lease.lock ext = some (pid, true)

end Worlds

section Runs
variable {lease} {M : System D W S R K ε C Out X Y Ext Req Resp}
  {permit : Shared D C Ext → Label C X Req ε → Prop}
  {w w' : World D W S R K ε C Out X Y Ext Req Resp} {pid other : Nat}

/-- A program has not asked for the lock, works under its own, or is done with it. -/
def Stands (lease : Lease X Y ε Ext) (ext : Ext) (pid : Nat) (p : Service C X Out Y ε α) : Prop :=
  lease.Job p ∨ lease.Free p ∨ lease.Working p ∧ lease.lock ext = some (pid, true)

def Stand (lease : Lease X Y ε Ext) (w : World D W S R K ε C Out X Y Ext Req Resp) : Prop :=
  ∀ pid request phase, w.procs pid = some (request, phase) →
    lease.Stands w.shared.ext pid phase.residual

theorem Stands.transact {ext : Ext} {c : C} {next : Except ε (Out c) → Service C X Out Y ε α}
    (stands : lease.Stands ext pid (.call (.transact c) next)) (result : Except ε (Out c)) :
    lease.Stands ext pid (next result) := by
  rcases stands with ⟨⟨⟩⟩ | free | ⟨⟨_, working⟩ | ⟨⟨⟩, _⟩, mine⟩
  · exact .inr (.inl (free.2 result))
  · exact .inr (.inr ⟨working result, mine⟩)

/-- A step outside takes the process where it should be, and nobody else's lock. -/
theorem Stands.outside (lawful : lease.Lawful M permit) {x : X}
    {next : Except ε (Y x) → Service C X Out Y ε Resp} {reply : Except ε (Y x)} {ext ext' : Ext}
    (stands : lease.Stands ext pid (.call (.outside x) next))
    (answered : M.outside pid x d ext reply ext') :
    lease.Stands ext' pid (next reply) ∧
      ∀ other ≠ pid, lease.lock ext = some (other, true) →
        lease.lock ext' = some (other, true) := by
  rcases stands with ⟨works, frees⟩ | free | ⟨⟨quiet, working⟩ | ⟨same, frees⟩, mine⟩
  · by_cases got : lease.acquired reply
    · obtain ⟨idle, taken⟩ := lawful.acquires answered got
      refine ⟨.inr (.inr ⟨works reply got, taken⟩), fun other _ held => ?_⟩
      rw [idle] at held
      cases held
    · exact ⟨.inr (.inl (frees reply got)), fun other _ held => lawful.refused answered got held⟩
  · have same := lawful.others (fun same => free.1.1 (congrArg _ same))
      (fun same => free.1.2 (congrArg _ same)) answered
    exact ⟨.inr (.inl (free.2 reply)), fun other _ held => same.trans held⟩
  · have same := lawful.others (fun same => quiet.1 (congrArg _ same))
      (fun same => quiet.2 (congrArg _ same)) answered
    exact ⟨.inr (.inr ⟨working reply, same.trans mine⟩), fun other _ held => same.trans held⟩
  · refine ⟨.inr (.inl (frees reply)), fun other different held => ?_⟩
    cases mine.symm.trans held
    exact absurd rfl different

theorem Stand.set (stand : lease.Stand w) (request : Req)
    {phase : Phase W S R K ε C Out X Y Resp} (σ : Shared D C Ext)
    (mine : lease.Stands σ.ext pid phase.residual)
    (stays : ∀ other ≠ pid, lease.lock w.shared.ext = some (other, true) →
      lease.lock σ.ext = some (other, true)) :
    lease.Stand (World.set { w with shared := σ } pid request phase) := by
  intro other request' phase' found
  by_cases here : other = pid
  · subst here
    cases (World.set_same ..).symm.trans found
    exact mine
  · rw [World.set_other _ _ _ here] at found
    exact (stand other request' phase' found).imp_right <| .imp_right <| .imp_right
      (stays other here)

theorem Stand.step (lawful : lease.Lawful M permit) (stand : lease.Stand w)
    (taken : M.Step permit w w') :
    lease.Stand w' := by
  cases taken with
  | start idle permitted =>
    exact stand.set _ w.shared ((lawful.starts permitted).imp_right .inl) fun _ _ => id
  | outside found permitted answered =>
    obtain ⟨mine, stays⟩ := (stand _ _ _ found).outside lawful answered
    exact stand.set _ _ mine stays
  | begin found | read found | write found =>
    have mine := stand _ _ _ found
    exact stand.set _ w.shared mine fun _ _ => id
  | commit found permitted | lost found permitted =>
    exact stand.set _ _ ((stand _ _ _ found).transact _) fun _ _ => id
  | abort found aborts permitted =>
    exact stand.set _ w.shared ((stand _ _ _ found).transact _) fun _ _ => id
  | drift permitted drifted =>
    intro pid request phase found
    exact (stand pid request phase found).imp_right <| .imp_right <| .imp_right
      (lawful.stays permitted drifted)

/-- Mutual exclusion, in all runs in which the lock stays with its working holder. -/
theorem excludes (lawful : lease.Lawful M permit) (run : M.Reaches permit (World.init db ext) w) :
    lease.Excludes w := by
  have stand : lease.Stand w := by
    induction run with
    | refl => exact fun pid request phase found => by cases found
    | tail _ last ih => exact ih.step lawful last
  have holds : ∀ {pid}, lease.Inside w pid → lease.lock w.shared.ext = some (pid, true) := by
    rintro pid ⟨⟨request, phase, found, working⟩, _⟩
    rcases stand pid request phase found with job | free | ⟨_, mine⟩
    · exact absurd working (job.not_working lawful.distinct)
    · exact absurd free (working.not_free M.lost)
    · exact mine
  refine ⟨fun pid other inside inside' => ?_, ?_⟩
  · cases (holds inside).symm.trans (holds inside')
    rfl
  · rintro pid ⟨request, next, found⟩ lock held
    rcases stand pid request _ found with job | free | ⟨_, mine⟩
    · exact absurd job.first.symm lawful.distinct
    · exact absurd rfl free.1.2
    · cases mine.symm.trans held
      rfl

/-- A process that starts and gets the lock is inside, with the others where they were. -/
theorem enters (run : M.Reaches permit (World.init db ext) w)
    (idle : w.procs pid = none) {request : Req}
    {next : Except ε (Y lease.acquire) → Service C X Out Y ε Resp}
    {reply : Except ε (Y lease.acquire)} {ext' : Ext} (job : lease.Job (M.handler request))
    (asks : M.handler request = .call (.outside lease.acquire) next)
    (permitted : permit w.shared (.start pid request) ∧
      permit w.shared (.outside pid lease.acquire))
    (answered : M.outside pid lease.acquire w.shared.db w.shared.ext reply ext')
    (got : lease.acquired reply)
    (works : ∀ after, next reply ≠ .call (.outside lease.release) after) :
    ∃ w', M.Reaches permit (World.init db ext) w' ∧ lease.Inside w' pid ∧
      w'.procs pid = some (request, .running (next reply)) ∧
      (∀ other ≠ pid, w'.procs other = w.procs other) ∧
        w'.shared = { w.shared with ext := ext' } := by
  have started := Relation.ReflTransGen.tail run (.start idle permitted.1)
  rw [asks] at started job
  have entered := Relation.ReflTransGen.tail started
    (.outside (World.set_same ..) permitted.2 answered)
  refine ⟨_, entered, ⟨⟨request, _, World.set_same .., job.works got⟩, ?_⟩, World.set_same ..,
    fun other different => ?_, rfl⟩
  · rintro ⟨_, after, found⟩
    have same := Option.some.inj ((World.set_same ..).symm.trans found)
    exact works after (Phase.running.inj (congrArg Prod.snd same))
  · exact (World.set_other _ _ _ different).trans (World.set_other _ _ _ different)

theorem Inside.same (inside : lease.Inside w pid) (same : w'.procs pid = w.procs pid) :
    lease.Inside w' pid := by
  obtain ⟨⟨request, phase, found, working⟩, first⟩ := inside
  refine ⟨⟨request, phase, same.trans found, working⟩, ?_⟩
  rintro ⟨request', next, found'⟩
  exact first ⟨request', next, same.symm.trans found'⟩

end Runs
end Lease
end Foundation
