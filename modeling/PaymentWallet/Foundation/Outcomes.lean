import PaymentWallet.Foundation.World

/-! How requests fail. A program throws what it raises itself and what the replies it is given
carry; once it has committed it may be left with nothing to throw but a broken connection. Both
are facts about the program alone, and they hold wherever a run has got to. -/
namespace Foundation

namespace Program
variable {Op : Type} {Reply : Op → Type} {ε α β : Type} {expected : (op : Op) → Reply op → Prop}
  {allowed raised : ε → Prop}

/-- Given replies that are expected, the program throws only what is allowed. -/
def Throws (expected : (op : Op) → Reply op → Prop) (allowed : ε → Prop) :
    Program Op Reply ε α → Prop
  | .pure _ => True
  | .throw error => allowed error
  | .call op next => ∀ reply, expected op reply → (next reply).Throws expected allowed

theorem Throws.bind {p : Program Op Reply ε α} {f : α → Program Op Reply ε β}
    (first : p.Throws expected allowed)
    (rest : ∀ value, (f value).Throws expected allowed) : (p.bind f).Throws expected allowed := by
  induction p with
  | pure value => exact rest value
  | throw error => exact first
  | call op next ih => exact fun reply known => ih reply (first reply known)

theorem Throws.handle {p : Program Op Reply ε α} {h : ε → Program Op Reply ε α}
    (body : p.Throws expected raised)
    (handler : ∀ error, raised error → (h error).Throws expected allowed) :
    (p.handle h).Throws expected allowed := by
  induction p with
  | pure value => trivial
  | throw error => exact handler error body
  | call op next ih => exact fun reply known => ih reply (body reply known)

theorem Throws.mono {p : Program Op Reply ε α} (throws : p.Throws expected raised)
    (weaker : ∀ error, raised error → allowed error) :
    p.Throws expected allowed := by
  induction p with
  | pure value => trivial
  | throw error => exact weaker error throws
  | call op next ih => exact fun reply known => ih reply (throws reply known)

theorem throws_trivial (p : Program Op Reply ε α) : p.Throws expected fun _ => True := by
  induction p with
  | pure value => trivial
  | throw error => trivial
  | call op next ih => exact fun reply _ => ih reply

end Program

variable {D W S K ε C X Ext Req Resp α β : Type} {R : S → Type} {Out : C → Type} {Y : X → Type}

/-- The reply of an operation that has changed the store for good, which its sender may not know. -/
def Committed (Out : C → Type) (Y : X → Type) (lost : ε) :
    (op : ServiceOp C X) → Except ε (op.Result Out Y) → Prop
  | .transact _, .ok _ => True
  | .transact _, .error error => error = lost
  | .outside _, _ => False

namespace Service

/-- After any commit the program throws nothing but `lost`. -/
def Final (expected : (op : ServiceOp C X) → Except ε (op.Result Out Y) → Prop) (lost : ε) :
    Service C X Out Y ε α → Prop
  | .pure _ | .throw _ => True
  | .call op next =>
    (∀ reply, Committed Out Y lost op reply → (next reply).Throws expected (· = lost)) ∧
      ∀ reply, expected op reply → Final expected lost (next reply)

variable {expected : (op : ServiceOp C X) → Except ε (op.Result Out Y) → Prop} {lost : ε}

/-- A program without transactions, and what comes after it. -/
theorem Final.after {p : Service C X Out Y ε α} {f : α → Service C X Out Y ε β}
    (reads : p.All fun op => ∀ reply, ¬ Committed Out Y lost op reply)
    (rest : ∀ value, Final expected lost (f value)) :
    Final expected lost (p.bind f) := by
  induction p with
  | pure value => exact rest value
  | throw error => trivial
  | call op next ih =>
    constructor
    · exact fun reply committed => absurd committed (reads.1 reply)
    · exact fun reply _ => ih reply (reads.2 reply)

/-- What follows a committing program throws only `lost` as well. -/
theorem Final.bind {p : Service C X Out Y ε α} {f : α → Service C X Out Y ε β}
    (final : Final expected lost p)
    (rest : ∀ value, (f value).Throws expected (· = lost))
    (still : ∀ value, Final expected lost (f value)) :
    Final expected lost (p.bind f) := by
  induction p with
  | pure value => exact still value
  | throw error => trivial
  | call op next ih =>
    constructor
    · exact fun reply committed => (final.1 reply committed).bind rest
    · exact fun reply known => ih reply (final.2 reply known)

theorem Final.handle {p : Service C X Out Y ε α} {h : ε → Service C X Out Y ε α}
    (final : Final expected lost p)
    (passes : (h lost).Throws expected (· = lost))
    (still : ∀ error, Final expected lost (h error)) :
    Final expected lost (p.handle h) := by
  induction p with
  | pure value => trivial
  | throw error => exact still error
  | call op next ih =>
    constructor
    · exact fun reply committed => (final.1 reply committed).handle fun error same => same ▸ passes
    · exact fun reply known => ih reply (final.2 reply known)

/-- A transaction by itself. -/
theorem final_transact (c : C) :
    Final expected lost (transact c : Service C X Out Y ε (Out c)) := by
  constructor
  · intro reply committed
    cases reply with
    | ok value => trivial
    | error error => exact committed
  · intro reply known
    cases reply <;> trivial

end Service

/-- An open transaction raises only what is expected of it. -/
def Phase.Raises (expected : (op : ServiceOp C X) → Except ε (op.Result Out Y) → Prop) :
    Phase W S R K ε C Out X Y Resp → Prop
  | .running _ => True
  | .inTx c body _ _ _ =>
    body.Throws (fun _ _ => True) fun error => expected (.transact c) (.error error)

namespace System
variable (M : System D W S R K ε C Out X Y Ext Req Resp)

/-- The replies that a run can give. -/
structure Expects (expected : (op : ServiceOp C X) → Except ε (op.Result Out Y) → Prop) : Prop where
  outside : ∀ {pid x d ext reply ext'}, M.outside pid x d ext reply ext' →
    expected (.outside x) reply
  value : ∀ c value, expected (.transact c) (.ok value)
  lost : ∀ c, expected (.transact c) (.error M.lost)
  fails : ∀ c {s d error}, M.engine.exec s d = .error error → expected (.transact c) (.error error)
  throws : ∀ c, (M.code c).Throws (fun _ _ => True) fun error =>
    expected (.transact c) (.error error)

/-- A step of the process that commits, whether or not the process learns it. -/
structure Commits (permit : Shared D C Ext → Label C X Req ε → Prop) (pid : Nat)
    (w w' : World D W S R K ε C Out X Y Ext Req Resp) : Prop where
  step : M.Step permit w w'
  own : w'.procs pid ≠ w.procs pid
  logged : w'.shared.log ≠ w.shared.log

section Runs
variable {M} {expected : (op : ServiceOp C X) → Except ε (op.Result Out Y) → Prop}
  {permit : Shared D C Ext → Label C X Req ε → Prop}
  {w w' w'' : World D W S R K ε C Out X Y Ext Req Resp} {pid : Nat} {request : Req}
  {phase : Phase W S R K ε C Out X Y Resp}

/-- What has committed was an open transaction at its end, and the
process goes on with its outcome. -/
theorem Commits.outcome (commits : M.Commits permit pid w w') :
    ∃ request c value writes held next reply,
    w.procs pid = some (request, .inTx c (.pure value) writes held next) ∧
      w'.procs pid = some (request, .running (next reply)) ∧
    Committed Out Y M.lost (.transact c) reply := by
  obtain ⟨taken, own, logged⟩ := commits
  have mover : ∀ {σ other request phase},
      w' = World.set { w with shared := σ } other request phase → pid = other := by
    rintro σ other request phase rfl
    by_contra different
    exact own (World.set_other _ _ _ different)
  cases taken with
  | start | outside | begin | read | write | abort | drift => exact absurd rfl logged
  | commit found permitted =>
    obtain rfl := mover rfl
    exact ⟨_, _, _, _, _, _, .ok _, found, World.set_same .., trivial⟩
  | lost found permitted =>
    obtain rfl := mover rfl
    exact ⟨_, _, _, _, _, _, .error M.lost, found, World.set_same .., rfl⟩

/-- What is closed under expected replies stays true of what a process has left to do. -/
theorem Step.follows {G : Service C X Out Y ε Resp → Prop} (expects : M.Expects expected)
    (closed : ∀ {op next reply}, G (.call op next) → expected op reply → G (next reply))
    (taken : M.Step permit w w')
    (found : w.procs pid = some (request, phase)) (raises : phase.Raises expected)
    (holds : G phase.residual) :
    ∃ phase', w'.procs pid = some (request, phase') ∧ phase'.Raises expected ∧
      G phase'.residual := by
  have moves : ∀ {σ other request' old new},
      w' = World.set { w with shared := σ } other request' new →
      w.procs other = some (request', old) →
        (old.Raises expected → G old.residual → new.Raises expected ∧ G new.residual) →
      ∃ phase', w'.procs pid = some (request, phase') ∧ phase'.Raises expected ∧
        G phase'.residual := by
    rintro σ other request' old new rfl was own
    by_cases here : pid = other
    · subst here
      cases found.symm.trans was
      exact ⟨new, World.set_same .., own raises holds⟩
    · exact ⟨phase, (World.set_other _ _ _ here).trans found, raises, holds⟩
  cases taken with
  | @start other _ _ idle permitted =>
    have here : pid ≠ other := by
      rintro rfl
      cases idle.symm.trans found
    exact ⟨phase, (World.set_other _ _ _ here).trans found, raises, holds⟩
  | outside was permitted replied =>
    exact moves rfl was fun _ g => ⟨trivial, closed g (expects.outside replied)⟩
  | begin was => exact moves rfl was fun _ g => ⟨expects.throws _, g⟩
  | read was plain exec => exact moves rfl was fun throws g => ⟨throws _ trivial, g⟩
  | write was locked free exec => exact moves rfl was fun throws g => ⟨throws _ trivial, g⟩
  | commit was permitted => exact moves rfl was fun _ g => ⟨trivial, closed g (expects.value _ _)⟩
  | lost was permitted => exact moves rfl was fun _ g => ⟨trivial, closed g (expects.lost _)⟩
  | abort was aborts permitted =>
    refine moves rfl was fun throws g => ⟨trivial, closed g ?_⟩
    rcases aborts with rfl | failed
    · exact expects.lost _
    · split at failed
      · exact failed.elim
      · exact failed ▸ throws
      · exact expects.fails _ failed
  | drift permitted drifted => exact ⟨phase, found, raises, holds⟩

theorem Reaches.follows {G : Service C X Out Y ε Resp → Prop} (expects : M.Expects expected)
    (closed : ∀ {op next reply}, G (.call op next) → expected op reply → G (next reply))
    (run : M.Reaches permit w w')
    (found : w.procs pid = some (request, phase)) (raises : phase.Raises expected)
    (holds : G phase.residual) :
    ∃ phase', w'.procs pid = some (request, phase') ∧ phase'.Raises expected ∧
      G phase'.residual := by
  induction run with
  | refl => exact ⟨phase, found, raises, holds⟩
  | tail _ last ih =>
    obtain ⟨phase', found', raises', holds'⟩ := ih
    exact last.follows expects closed found' raises' holds'

/-- What is closed under expected replies, and true of a handler, is
true of the process that serves the request. -/
theorem Reaches.outcomes {G : Service C X Out Y ε Resp → Prop} (expects : M.Expects expected)
    (closed : ∀ {op next reply}, G (.call op next) → expected op reply → G (next reply))
    (run : M.Reaches permit (World.init db ext) w) (starts : G (M.handler request))
    (found : w.procs pid = some (request, phase)) :
    phase.Raises expected ∧ G phase.residual := by
  induction run generalizing phase with
  | refl => cases found
  | tail _ last ih =>
    rcases last.proc pid with same | ⟨_, _, _, started⟩ | ⟨_, old, new, was, now, _⟩
    · exact ih (same ▸ found)
    · cases started.symm.trans found
      exact ⟨trivial, starts⟩
    · cases now.symm.trans found
      obtain ⟨raises, holds⟩ := ih was
      obtain ⟨phase', found', after⟩ := last.follows expects closed was raises holds
      cases now.symm.trans found'
      exact after

/-- A process throws what its handler may throw. -/
theorem Reaches.throws {allowed : ε → Prop} (expects : M.Expects expected)
    (run : M.Reaches permit (World.init db ext) w)
    (starts : (M.handler request).Throws expected allowed) {error : ε}
    (ended : w.procs pid = some (request, .running (.throw error))) : allowed error :=
  (run.outcomes (G := fun p => p.Throws expected allowed) expects
    (fun throws known => throws _ known) starts ended).2

/-- After a commit of its own a process can only lose the connection. -/
theorem Reaches.committed (expects : M.Expects expected)
    (run : M.Reaches permit (World.init db ext) w)
    (starts : Service.Final expected M.lost (M.handler request))
    (commits : M.Commits permit pid w w') (later : M.Reaches permit w' w'')
    {error : ε} (ended : w''.procs pid = some (request, .running (.throw error))) :
    error = M.lost := by
  obtain ⟨request', c, value, writes, held, next, reply, was, now, committed⟩ := commits.outcome
  have same : request' = request := by
    obtain ⟨_, there, _⟩ :=
      later.follows (G := fun _ => True) expects (fun _ _ => trivial) now trivial trivial
    cases there.symm.trans ended
    rfl
  subst same
  have final := (run.outcomes (G := Service.Final expected M.lost) expects
    (fun final known => final.2 _ known) starts was).2
  have throws := final.1 reply committed
  obtain ⟨_, there, _, left⟩ := later.follows (G := fun p => p.Throws expected (· = M.lost)) expects
    (fun throws known => throws _ known) now trivial throws
  cases there.symm.trans ended
  exact left

end Runs
end System
end Foundation
