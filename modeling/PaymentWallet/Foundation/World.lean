import PaymentWallet.Foundation.Engine
import Mathlib.Logic.Function.Basic
import Mathlib.Logic.Relation

/-! Concurrent service processes over one database. A process serves one request
by a program whose steps are database transactions and steps outside the
database. Transactions of different processes interleave statement by statement
under the engine's locks; any of them can abort, and the reply of a commit can
be lost. `log` records the committed transactions in commit order. -/
namespace Foundation

inductive ServiceOp (C X : Type) where
  | transact (c : C)
  | outside (x : X)

@[reducible] def ServiceOp.Result {C X : Type} (Out : C → Type) (Y : X → Type) :
    ServiceOp C X → Type
  | .transact c => Out c
  | .outside x => Y x

/-- Service programs: every operation can throw into the program. -/
abbrev Service (C X : Type) (Out : C → Type) (Y : X → Type) (ε α : Type) :=
  Program (ServiceOp C X) (fun op => Except ε (op.Result Out Y)) ε α

namespace Service
variable {C X ε : Type} {Out : C → Type} {Y : X → Type}

def resume {α : Type} : Except ε α → Service C X Out Y ε α
  | .ok value => .pure value
  | .error error => .throw error

def transact (c : C) : Service C X Out Y ε (Out c) := .call (.transact c) resume

def outside (x : X) : Service C X Out Y ε (Y x) := .call (.outside x) resume

end Service

/-- `outside` relates a step outside the database to its reply and the external
state it leaves; `drift` are the external state's own changes. `lost` is the
error a caller sees when the connection breaks. -/
structure System (D W S : Type) (R : S → Type) (K ε C : Type) (Out : C → Type) (X : Type)
    (Y : X → Type) (Ext Req Resp : Type) where
  engine : Engine D W S R K ε
  code : (c : C) → Program S R ε (Out c)
  outside : Nat → (x : X) → D → Ext → Except ε (Y x) → Ext → Prop
  drift : Ext → Ext → Prop
  handler : Req → Service C X Out Y ε Resp
  lost : ε

structure Shared (D C Ext : Type) where
  db : D
  log : List C
  ext : Ext

def Shared.commit {D C Ext : Type} (σ : Shared D C Ext) (c : C) (db : D) : Shared D C Ext :=
  { σ with db := db, log := σ.log ++ [c] }

/-- A process runs its program, or waits on its own open transaction. -/
inductive Phase (W S : Type) (R : S → Type) (K ε C : Type) (Out : C → Type) (X : Type)
    (Y : X → Type) (Resp : Type) where
  | running (program : Service C X Out Y ε Resp)
  | inTx (c : C) (body : Program S R ε (Out c)) (writes : List W) (held : List K)
      (next : Except ε (Out c) → Service C X Out Y ε Resp)

structure World (D W S : Type) (R : S → Type) (K ε C : Type) (Out : C → Type) (X : Type)
    (Y : X → Type) (Ext Req Resp : Type) where
  shared : Shared D C Ext
  procs : Nat → Option (Req × Phase W S R K ε C Out X Y Resp)

/-- What is observable of a step. -/
inductive Label (C X Req ε : Type) where
  | start (pid : Nat) (request : Req)
  | outside (pid : Nat) (x : X)
  | commit (pid : Nat) (c : C)
  | lost (pid : Nat) (c : C)
  | abort (pid : Nat) (c : C) (error : ε)
  | drift

variable {D W S K ε C X Ext Req Resp : Type} {R : S → Type} {Out : C → Type} {Y : X → Type}

/-- The program a process resumes with if its open transaction is taken back. -/
def Phase.residual : Phase W S R K ε C Out X Y Resp → Service C X Out Y ε Resp
  | .running program => program
  | .inTx c _ _ _ next => .call (.transact c) next

def Phase.held : Phase W S R K ε C Out X Y Resp → List K
  | .running _ => []
  | .inTx _ _ _ held _ => held

namespace World

def init (db : D) (ext : Ext) : World D W S R K ε C Out X Y Ext Req Resp :=
  ⟨⟨db, [], ext⟩, fun _ => none⟩

def set (w : World D W S R K ε C Out X Y Ext Req Resp) (pid : Nat) (request : Req)
    (phase : Phase W S R K ε C Out X Y Resp) : World D W S R K ε C Out X Y Ext Req Resp :=
  { w with procs := Function.update w.procs pid (some (request, phase)) }

def Holds (w : World D W S R K ε C Out X Y Ext Req Resp) (pid : Nat) (k : K) : Prop :=
  ∃ request phase, w.procs pid = some (request, phase) ∧ k ∈ phase.held

theorem set_same (w : World D W S R K ε C Out X Y Ext Req Resp) (pid : Nat) (request : Req)
    (phase : Phase W S R K ε C Out X Y Resp) :
    (w.set pid request phase).procs pid = some (request, phase) :=
  Function.update_self ..

theorem set_other (w : World D W S R K ε C Out X Y Ext Req Resp) (request : Req)
    (phase : Phase W S R K ε C Out X Y Resp) (different : other ≠ pid) :
    (w.set pid request phase).procs other = w.procs other :=
  Function.update_of_ne different ..

end World

namespace System
variable (M : System D W S R K ε C Out X Y Ext Req Resp)

/-- Why an open transaction ends without a commit: the body throws, a statement
fails, or the connection breaks. -/
def Aborts (d v : D) (body : Program S R ε α) (error : ε) : Prop :=
  error = M.lost ∨ match body with
    | .pure _ => False
    | .throw thrown => error = thrown
    | .call s _ => M.engine.exec s (M.engine.source s d v) = .error error

/-- One step, of one process or of the external state. `permit` restricts the
runs considered; a statement waits until no other process holds its keys. -/
inductive Step (permit : Shared D C Ext → Label C X Req ε → Prop) :
    World D W S R K ε C Out X Y Ext Req Resp → World D W S R K ε C Out X Y Ext Req Resp → Prop where
  | start : w.procs pid = none → permit w.shared (.start pid request) →
      Step permit w (w.set pid request (.running (M.handler request)))
  | outside : w.procs pid = some (request, .running (.call (.outside x) next)) →
      permit w.shared (.outside pid x) → M.outside pid x w.shared.db w.shared.ext reply ext →
      Step permit w
        (World.set { w with shared := { w.shared with ext := ext } } pid request
          (.running (next reply)))
  | begin : w.procs pid = some (request, .running (.call (.transact c) next)) →
      Step permit w (w.set pid request (.inTx c (M.code c) [] [] next))
  | read : w.procs pid = some (request, .inTx c (.call s rest) writes held next) →
      M.engine.plain s = true → M.engine.exec s w.shared.db = .ok (reply, ignored) →
      Step permit w (w.set pid request (.inTx c (rest reply) writes held next))
  | write : w.procs pid = some (request, .inTx c (.call s rest) writes held next) →
      M.engine.plain s = false →
      (∀ k ∈ M.engine.keys s (M.engine.view w.shared.db writes),
        ∀ other, other ≠ pid → ¬ w.Holds other k) →
      M.engine.exec s (M.engine.view w.shared.db writes) = .ok (reply, more) →
      Step permit w (w.set pid request (.inTx c (rest reply) (writes ++ more)
        (held ++ M.engine.keys s (M.engine.view w.shared.db writes)) next))
  | commit : w.procs pid = some (request, .inTx c (.pure value) writes held next) →
      permit w.shared (.commit pid c) →
      Step permit w (World.set
        { w with shared := w.shared.commit c (M.engine.view w.shared.db writes) } pid request
        (.running (next (.ok value))))
  | lost : w.procs pid = some (request, .inTx c (.pure value) writes held next) →
      permit w.shared (.lost pid c) →
      Step permit w (World.set
        { w with shared := w.shared.commit c (M.engine.view w.shared.db writes) } pid request
        (.running (next (.error M.lost))))
  | abort {c : C} {body : Program S R ε (Out c)}
      {next : Except ε (Out c) → Service C X Out Y ε Resp} :
      w.procs pid = some (request, .inTx c body writes held next) →
      M.Aborts w.shared.db (M.engine.view w.shared.db writes) body error →
      permit w.shared (.abort pid c error) →
      Step permit w (w.set pid request (.running (next (.error error))))
  | drift : permit w.shared .drift → M.drift w.shared.ext ext →
      Step permit w { w with shared := { w.shared with ext := ext } }

/-- Runs of any length. -/
def Reaches (permit : Shared D C Ext → Label C X Req ε → Prop) :
    World D W S R K ε C Out X Y Ext Req Resp → World D W S R K ε C Out X Y Ext Req Resp → Prop :=
  Relation.ReflTransGen (M.Step permit)

/-- Runs whose steps all meet a condition, which may look at the processes as well. -/
def Traces (permit : Shared D C Ext → Label C X Req ε → Prop)
    (Good : World D W S R K ε C Out X Y Ext Req Resp →
      World D W S R K ε C Out X Y Ext Req Resp → Prop) :
    World D W S R K ε C Out X Y Ext Req Resp → World D W S R K ε C Out X Y Ext Req Resp → Prop :=
  Relation.ReflTransGen fun w w' => M.Step permit w w' ∧ Good w w'

section Runs
variable {M} {permit permit' : Shared D C Ext → Label C X Req ε → Prop}
  {w w' : World D W S R K ε C Out X Y Ext Req Resp}

theorem Step.mono (weaker : ∀ {σ label}, permit σ label → permit' σ label)
    (taken : M.Step permit w w') :
    M.Step permit' w w' := by
  cases taken with
  | start idle permitted => exact .start idle (weaker permitted)
  | outside found permitted replied => exact .outside found (weaker permitted) replied
  | begin found => exact .begin found
  | read found plain exec => exact .read found plain exec
  | write found locked free exec => exact .write found locked free exec
  | commit found permitted => exact .commit found (weaker permitted)
  | lost found permitted => exact .lost found (weaker permitted)
  | abort found aborts permitted => exact .abort found aborts (weaker permitted)
  | drift permitted drifted => exact .drift (weaker permitted) drifted

theorem Reaches.mono (weaker : ∀ {σ label}, permit σ label → permit' σ label)
    (run : M.Reaches permit w w') :
    M.Reaches permit' w w' := by
  induction run with
  | refl => exact .refl
  | tail _ last ih => exact ih.tail (last.mono weaker)

theorem Traces.reaches {Good : World D W S R K ε C Out X Y Ext Req Resp →
      World D W S R K ε C Out X Y Ext Req Resp → Prop}
    (run : M.Traces permit Good w w') : M.Reaches permit w w' := by
  induction run with
  | refl => exact .refl
  | tail _ last ih => exact ih.tail last.1

theorem Traces.mono {Good Good' : World D W S R K ε C Out X Y Ext Req Resp →
      World D W S R K ε C Out X Y Ext Req Resp → Prop}
    (weaker : ∀ {w w'}, Good w w' → Good' w w') (run : M.Traces permit Good w w') :
    M.Traces permit Good' w w' := by
  induction run with
  | refl => exact .refl
  | tail _ last ih => exact ih.tail ⟨last.1, weaker last.2⟩

/-- Steps within transactions, which are all that no permission is needed for, leave the
shared state alone. -/
theorem Reaches.quiet (run : M.Reaches (fun _ _ => False) w w') : w'.shared = w.shared := by
  induction run with
  | refl => rfl
  | tail _ last ih =>
    cases last with
    | begin | read | write => exact ih
    | start _ denied | outside _ denied | commit _ denied | lost _ denied | abort _ _ denied
      | drift denied => exact denied.elim

theorem Reaches.traces {Good : World D W S R K ε C Out X Y Ext Req Resp →
      World D W S R K ε C Out X Y Ext Req Resp → Prop}
    (calm : ∀ {w w'}, M.Step (fun _ _ => False) w w' → Good w w')
    (run : M.Reaches (fun _ _ => False) w w') :
    M.Traces permit Good w w' := by
  induction run with
  | refl => exact .refl
  | tail _ last ih => exact ih.tail ⟨last.mono False.elim, calm last⟩

/-- What a step of its own does to process `pid`. -/
inductive Next (pid : Nat) (σ : Shared D C Ext) :
    Phase W S R K ε C Out X Y Resp → Phase W S R K ε C Out X Y Resp → Prop where
  | outside : M.outside pid x σ.db σ.ext reply ext →
      Next pid σ (.running (.call (.outside x) next)) (.running (next reply))
  | begin : Next pid σ (.running (.call (.transact c) next)) (.inTx c (M.code c) [] [] next)
  | read : M.engine.plain s = true → M.engine.exec s σ.db = .ok (reply, ignored) →
      Next pid σ (.inTx c (.call s rest) writes held next) (.inTx c (rest reply) writes held next)
  | write : M.engine.plain s = false →
      M.engine.exec s (M.engine.view σ.db writes) = .ok (reply, more) →
      Next pid σ (.inTx c (.call s rest) writes held next) (.inTx c (rest reply) (writes ++ more)
        (held ++ M.engine.keys s (M.engine.view σ.db writes)) next)
  | commit : Next pid σ (.inTx c (.pure value) writes held next) (.running (next (.ok value)))
  | fail : Next pid σ (.inTx c body writes held next) (.running (next (.error error)))

/-- A step starts one process, moves one process, or moves none. -/
theorem Step.proc (taken : M.Step permit w w') (pid : Nat) :
    w'.procs pid = w.procs pid ∨
    (∃ request, w.procs pid = none ∧ permit w.shared (.start pid request) ∧
      w'.procs pid = some (request, .running (M.handler request))) ∨
    ∃ request phase phase', w.procs pid = some (request, phase) ∧
      w'.procs pid = some (request, phase') ∧ M.Next pid w.shared phase phase' := by
  have elsewhere : ∀ {σ other request phase},
      w' = World.set { w with shared := σ } other request phase →
      pid ≠ other → w'.procs pid = w.procs pid := by
    rintro σ other request phase rfl different
    exact World.set_other _ _ _ different
  have moves : ∀ {σ other request phase phase'},
      w' = World.set { w with shared := σ } other request phase' →
      w.procs other = some (request, phase) → M.Next other w.shared phase phase' →
      w'.procs pid = w.procs pid ∨ ∃ request phase phase', w.procs pid = some (request, phase) ∧
        w'.procs pid = some (request, phase') ∧ M.Next pid w.shared phase phase' := by
    intro σ other request phase phase' same found next
    by_cases here : pid = other
    · subst here same
      exact .inr ⟨request, phase, phase', found, World.set_same .., next⟩
    · exact .inl (elsewhere same here)
  cases taken with
  | @start other request _ idle permitted =>
    by_cases here : pid = other
    · subst here
      exact .inr (.inl ⟨request, idle, permitted, World.set_same ..⟩)
    · exact .inl (World.set_other _ _ _ here)
  | outside found permitted replied => exact (moves rfl found (.outside replied)).imp_right .inr
  | begin found => exact (moves rfl found .begin).imp_right .inr
  | read found plain exec => exact (moves rfl found (.read plain exec)).imp_right .inr
  | write found locked free exec => exact (moves rfl found (.write locked exec)).imp_right .inr
  | commit found permitted => exact (moves rfl found .commit).imp_right .inr
  | lost found permitted => exact (moves rfl found .fail).imp_right .inr
  | abort found aborts permitted => exact (moves rfl found .fail).imp_right .inr
  | drift permitted drifted => exact .inl rfl

/-- What a step of its own does to process `pid`, and to the shared state. -/
inductive Acts (pid : Nat) (σ : Shared D C Ext) :
    Phase W S R K ε C Out X Y Resp → Shared D C Ext → Phase W S R K ε C Out X Y Resp → Prop where
  | outside : M.outside pid x σ.db σ.ext reply ext →
      Acts pid σ (.running (.call (.outside x) next)) { σ with ext := ext } (.running (next reply))
  | begin : Acts pid σ (.running (.call (.transact c) next)) σ (.inTx c (M.code c) [] [] next)
  | read : M.engine.plain s = true → M.engine.exec s σ.db = .ok (reply, ignored) →
      Acts pid σ (.inTx c (.call s rest) writes held next) σ (.inTx c (rest reply) writes held next)
  | write : M.engine.plain s = false →
      M.engine.exec s (M.engine.view σ.db writes) = .ok (reply, more) →
      Acts pid σ (.inTx c (.call s rest) writes held next) σ (.inTx c (rest reply) (writes ++ more)
        (held ++ M.engine.keys s (M.engine.view σ.db writes)) next)
  | commit : Acts pid σ (.inTx c (.pure value) writes held next)
      (σ.commit c (M.engine.view σ.db writes)) (.running (next (.ok value)))
  | lost : Acts pid σ (.inTx c (.pure value) writes held next)
      (σ.commit c (M.engine.view σ.db writes)) (.running (next (.error M.lost)))
  | abort : Acts pid σ (.inTx c body writes held next) σ (.running (next (.error error)))

/-- Others leave a process where it is. -/
theorem Step.acts (taken : M.Step permit w w') (pid : Nat) :
    w'.procs pid = w.procs pid ∨
    (∃ request, permit w.shared (.start pid request) ∧ w'.shared = w.shared ∧
      w'.procs pid = some (request, .running (M.handler request))) ∨
    ∃ request phase phase', w.procs pid = some (request, phase) ∧
      w'.procs pid = some (request, phase') ∧ M.Acts pid w.shared phase w'.shared phase' := by
  have moves : ∀ {σ other request phase phase'},
      w' = World.set { w with shared := σ } other request phase' →
      w.procs other = some (request, phase) → M.Acts other w.shared phase σ phase' →
      w'.procs pid = w.procs pid ∨ ∃ request phase phase', w.procs pid = some (request, phase) ∧
        w'.procs pid = some (request, phase') ∧ M.Acts pid w.shared phase w'.shared phase' := by
    rintro σ other request phase phase' rfl found acts
    by_cases here : pid = other
    · subst here
      exact .inr ⟨request, phase, phase', found, World.set_same .., acts⟩
    · exact .inl (World.set_other _ _ _ here)
  cases taken with
  | @start other request _ idle permitted =>
    by_cases here : pid = other
    · subst here
      exact .inr (.inl ⟨request, permitted, rfl, World.set_same ..⟩)
    · exact .inl (World.set_other _ _ _ here)
  | outside found permitted replied => exact (moves rfl found (.outside replied)).imp_right .inr
  | begin found => exact (moves rfl found .begin).imp_right .inr
  | read found plain exec => exact (moves rfl found (.read plain exec)).imp_right .inr
  | write found locked free exec => exact (moves rfl found (.write locked exec)).imp_right .inr
  | commit found permitted => exact (moves rfl found .commit).imp_right .inr
  | lost found permitted => exact (moves rfl found .lost).imp_right .inr
  | abort found aborts permitted => exact (moves rfl found .abort).imp_right .inr
  | drift permitted drifted => exact .inl rfl

/-- Only commits change the store and the log. -/
theorem Step.commits (taken : M.Step permit w w') :
    w'.shared.db = w.shared.db ∧ w'.shared.log = w.shared.log ∨
    ∃ pid request c value writes held next program,
      w.procs pid = some (request, .inTx c (.pure value) writes held next) ∧
      w'.procs pid = some (request, .running program) ∧
        w'.shared = w.shared.commit c (M.engine.view w.shared.db writes) := by
  cases taken with
  | start | outside | begin | read | write | abort | drift => exact .inl ⟨rfl, rfl⟩
  | commit found _ => exact .inr ⟨_, _, _, _, _, _, _, _, found, World.set_same .., rfl⟩
  | lost found _ => exact .inr ⟨_, _, _, _, _, _, _, _, found, World.set_same .., rfl⟩

/-- A step moves one process at most. -/
theorem Step.alone (taken : M.Step permit w w') {pid other : Nat}
    (moved : w'.procs pid ≠ w.procs pid)
    (different : other ≠ pid) : w'.procs other = w.procs other := by
  have set : ∀ (σ : Shared D C Ext) {who request phase},
      w' = World.set { w with shared := σ } who request phase →
      w'.procs other = w.procs other := by
    rintro σ who request phase rfl
    by_cases here : pid = who
    · exact World.set_other _ _ _ (here ▸ different)
    · exact absurd (World.set_other _ _ _ here) moved
  cases taken with
  | start => exact set w.shared rfl
  | outside => exact set _ rfl
  | begin => exact set w.shared rfl
  | read => exact set w.shared rfl
  | write => exact set w.shared rfl
  | commit => exact set _ rfl
  | lost => exact set _ rfl
  | abort => exact set w.shared rfl
  | drift => exact absurd rfl moved

/-- What holds of a process from its start on, whatever step it takes. -/
theorem Reaches.proc {F : Nat → Req → Phase W S R K ε C Out X Y Resp → Prop}
    (starts : ∀ {σ pid request}, permit σ (.start pid request) →
      F pid request (.running (M.handler request)))
    (steps : ∀ {w₁ pid request phase phase'}, M.Reaches permit w w₁ → F pid request phase →
      M.Next pid w₁.shared phase phase' → F pid request phase')
    (run : M.Reaches permit w w')
    (before : ∀ pid request phase, w.procs pid = some (request, phase) → F pid request phase) :
    ∀ pid request phase, w'.procs pid = some (request, phase) → F pid request phase := by
  induction run with
  | refl => exact before
  | tail earlier last ih =>
    intro pid request phase found
    rcases last.proc pid with same | ⟨_, _, permitted, started⟩ | ⟨_, old, new, was, now, next⟩
    · exact ih pid request phase (same ▸ found)
    · cases started.symm.trans found
      exact starts permitted
    · cases now.symm.trans found
      exact steps earlier (ih _ _ _ was) next

/-- What holds of a process and the shared state, whoever takes the steps. -/
theorem Reaches.keeps {F : Shared D C Ext → Nat → Req → Phase W S R K ε C Out X Y Resp → Prop}
    (starts : ∀ {σ pid request}, permit σ (.start pid request) →
      F σ pid request (.running (M.handler request)))
    (stays : ∀ {w₁ w₂ pid request phase}, M.Reaches permit w w₁ → M.Step permit w₁ w₂ →
      F w₁.shared pid request phase →
      F w₂.shared pid request phase)
    (acts : ∀ {w₁ w₂ pid request phase phase'}, M.Reaches permit w w₁ → M.Step permit w₁ w₂ →
      w₁.procs pid = some (request, phase) → F w₁.shared pid request phase →
        M.Acts pid w₁.shared phase w₂.shared phase' →
      F w₂.shared pid request phase')
    (run : M.Reaches permit w w')
    (before : ∀ pid request phase, w.procs pid = some (request, phase) →
      F w.shared pid request phase) :
    ∀ pid request phase, w'.procs pid = some (request, phase) → F w'.shared pid request phase := by
  induction run with
  | refl => exact before
  | tail earlier last ih =>
    intro pid request phase found
    rcases last.acts pid with same | ⟨_, permitted, shared, started⟩ |
      ⟨_, old, new, was, now, taken⟩
    · exact stays earlier last (ih pid request phase (same ▸ found))
    · cases started.symm.trans found
      exact shared ▸ starts permitted
    · cases now.symm.trans found
      exact acts earlier last was (ih _ _ _ was) taken

theorem Reaches.log (run : M.Reaches permit w w') : ∀ c ∈ w.shared.log, c ∈ w'.shared.log := by
  induction run with
  | refl => exact fun _ => id
  | tail _ last ih =>
    intro c member
    cases last with
    | start | outside | begin | read | write | abort | drift => exact ih c member
    | commit | lost => exact List.mem_append_left _ (ih c member)

end Runs
end System
end Foundation
