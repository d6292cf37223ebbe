import PaymentWallet.Foundation.Serializability
import Mathlib.Data.Fintype.Card
import Mathlib.Order.WellFounded
import Mathlib.Data.Set.Finite.Basic

/-! Deadlock freedom by an order on locks. Where every process asks only for
locks above those it holds, the waits-for graph has no cycle, and some process
that is not done waits for nobody. `Takes` follows the locks of one transaction
body, with the store left open at every statement. -/
namespace Foundation
variable {D W S K ε C X Ext Req Resp : Type} {R : S → Type} {Out : C → Type} {Y : X → Type}

/-- Every lock of the body fits what is held when its turn comes. -/
def Engine.Takes (E : Engine D W S R K ε) (fits : List K → K → Prop) {α : Type} :
    Program S R ε α → List K → (α → List K → Prop) → Prop
  | .pure value, held, Q => Q value held
  | .throw _, _, _ => True
  | .call s next, held, Q =>
    if E.plain s then ∀ reply, E.Takes fits (next reply) held Q
    else ∀ d, (∀ k ∈ E.keys s d, fits held k) ∧ ∀ reply writes, E.exec s d = .ok (reply, writes) →
      E.Takes fits (next reply) (held ++ E.keys s d) Q

section Takes
variable {E : Engine D W S R K ε} {fits : List K → K → Prop} {α β : Type} {held : List K}

theorem Engine.takes_bind {p : Program S R ε α} {f : α → Program S R ε β} {Q : β → List K → Prop} :
    E.Takes fits (p.bind f) held Q ↔ E.Takes fits p held fun value held' =>
      E.Takes fits (f value) held' Q := by
  induction p generalizing held with
  | pure value => rfl
  | throw error => rfl
  | call s next ih => simp only [Program.call_bind, Takes, ih]

theorem Engine.Takes.mono {p : Program S R ε α} {P Q : α → List K → Prop}
    (takes : E.Takes fits p held P)
    (weaker : ∀ value held', P value held' → Q value held') : E.Takes fits p held Q := by
  induction p generalizing held with
  | pure value => exact weaker _ _ takes
  | throw error => trivial
  | call s next ih =>
    simp only [Takes] at takes ⊢
    split
    · rw [if_pos ‹_›] at takes
      exact fun reply => ih reply (takes reply)
    · rw [if_neg ‹_›] at takes
      exact fun d => ⟨(takes d).1, fun reply writes exec =>
        ih reply ((takes d).2 reply writes exec)⟩

end Takes

/-- The process has more to do. -/
def Phase.Unfinished : Phase W S R K ε C Out X Y Resp → Prop
  | .running (.call _ _) => True
  | .running _ => False
  | .inTx .. => True

/-- A step that a process takes of its own accord: the connection does not break. -/
inductive System.Proceeds (M : System D W S R K ε C Out X Y Ext Req Resp) (pid : Nat)
    (σ : Shared D C Ext) :
    Phase W S R K ε C Out X Y Resp → Phase W S R K ε C Out X Y Resp → Prop where
  | outside : M.outside pid x σ.db σ.ext reply ext →
      M.Proceeds pid σ (.running (.call (.outside x) next)) (.running (next reply))
  | begin : M.Proceeds pid σ (.running (.call (.transact c) next)) (.inTx c (M.code c) [] [] next)
  | read : M.engine.plain s = true → M.engine.exec s σ.db = .ok (reply, ignored) →
      M.Proceeds pid σ (.inTx c (.call s rest) writes held next)
        (.inTx c (rest reply) writes held next)
  | write : M.engine.plain s = false →
      M.engine.exec s (M.engine.view σ.db writes) = .ok (reply, more) →
      M.Proceeds pid σ (.inTx c (.call s rest) writes held next)
        (.inTx c (rest reply) (writes ++ more)
        (held ++ M.engine.keys s (M.engine.view σ.db writes)) next)
  | refuse : M.engine.exec s (M.engine.source s σ.db (M.engine.view σ.db writes)) = .error error →
      M.Proceeds pid σ (.inTx c (.call s rest) writes held next) (.running (next (.error error)))
  | throw : M.Proceeds pid σ (.inTx c (.throw error) writes held next)
      (.running (next (.error error)))
  | commit : M.Proceeds pid σ (.inTx c (.pure value) writes held next) (.running (next (.ok value)))

/-- The locks of an open transaction fit, those taken and those to come. -/
def Phase.Fitting (E : Engine D W S R K ε) (fits : List K → K → Prop) :
    Phase W S R K ε C Out X Y Resp → Prop
  | .running _ => True
  | .inTx _ body _ held _ =>
    E.Takes fits body held (fun _ _ => True) ∧ ∀ k ∈ held, ∃ before, fits before k

namespace World
variable (M : System D W S R K ε C Out X Y Ext Req Resp)
  (w : World D W S R K ε C Out X Y Ext Req Resp)

def Unfinished (pid : Nat) : Prop :=
  ∃ request phase, w.procs pid = some (request, phase) ∧ phase.Unfinished

/-- The next statement of the process has to lock the key. -/
def Needs (pid : Nat) (k : K) : Prop :=
  ∃ request c s rest writes held next,
    w.procs pid = some (request, .inTx c (.call s rest) writes held next) ∧
    M.engine.plain s = false ∧ k ∈ M.engine.keys s (M.engine.view w.shared.db writes)

/-- The other process holds a lock, one of those considered, that the process needs. -/
def WaitsFor (among : K → Prop) (pid other : Nat) : Prop :=
  other ≠ pid ∧ ∃ k, among k ∧ w.Needs M pid k ∧ w.Holds other k

/-- Of the locks considered, each process needs only some that it has or that
are above all it has. -/
def Climbs (lt : K → K → Prop) (among : K → Prop) : Prop :=
  ∀ pid h k, among h → among k → w.Holds pid h → w.Needs M pid k → w.Holds pid k ∨ lt h k

def Exclusive : Prop := ∀ {pid other k}, other ≠ pid → w.Holds pid k → ¬ w.Holds other k

def Acyclic (among : K → Prop) : Prop := ∀ pid, ¬ Relation.TransGen (w.WaitsFor M among) pid pid

/-- While anybody is unfinished, somebody unfinished waits for nobody. -/
def Flows (among : K → Prop) : Prop :=
  ∀ first, w.Unfinished first → ∃ pid, w.Unfinished pid ∧ ∀ other, ¬ w.WaitsFor M among pid other

/-- The process can take its next step. -/
def CanProceed (permit : Shared D C Ext → Label C X Req ε → Prop) (pid : Nat) : Prop :=
  ∃ request phase phase' w', w.procs pid = some (request, phase) ∧
    M.Proceeds pid w.shared phase phase' ∧
    M.Step permit w w' ∧ w'.procs pid = some (request, phase')

section Order
variable {M w} {among : K → Prop} {lt : K → K → Prop}

theorem Holds.unfinished {pid : Nat} {k : K} (holds : w.Holds pid k) : w.Unfinished pid := by
  obtain ⟨request, phase, found, member⟩ := holds
  cases phase with
  | running program => cases member
  | inTx => exact ⟨request, _, found, trivial⟩

/-- Along a path of waits, the last lock held is the first one waited for, or above it. -/
theorem Climbs.path (climbs : w.Climbs M lt among) (exclusive : w.Exclusive)
    (trans : ∀ {a b c}, lt a b → lt b c → lt a c) {pid last : Nat}
    (path : Relation.TransGen (w.WaitsFor M among) pid last) :
    ∃ wanted held other, other ≠ pid ∧ among wanted ∧ w.Needs M pid wanted ∧ w.Holds other wanted ∧
      among held ∧ w.Holds last held ∧ (held = wanted ∨ lt wanted held) := by
  induction path with
  | single waits =>
    obtain ⟨different, k, considered, needs, holds⟩ := waits
    exact ⟨k, k, _, different, considered, needs, holds, considered, holds, .inl rfl⟩
  | tail _ waits ih =>
    obtain ⟨wanted, held, other, different, amongWanted, needs, blocked, amongHeld, holds, above⟩ :=
      ih
    obtain ⟨apart, k, considered, wants, taken⟩ := waits
    refine ⟨wanted, k, other, different, amongWanted, needs, blocked, considered, taken, ?_⟩
    rcases climbs _ _ _ amongHeld considered holds wants with mine | higher
    · exact absurd taken (exclusive apart mine)
    · rcases above with rfl | above
      · exact .inr higher
      · exact .inr (trans above higher)

/-- No cycle: a process in one would need a lock below one that it holds. -/
theorem Climbs.acyclic (climbs : w.Climbs M lt among) (exclusive : w.Exclusive)
    (trans : ∀ {a b c}, lt a b → lt b c → lt a c) (irrefl : ∀ k, ¬ lt k k) : w.Acyclic M among := by
  intro pid cycle
  obtain ⟨wanted, held, other, different, amongWanted, needs, blocked, amongHeld, holds, above⟩ :=
    climbs.path exclusive trans cycle
  have mine : ¬ w.Holds pid wanted := fun mine => exclusive different mine blocked
  rcases climbs _ _ _ amongHeld amongWanted holds needs with own | higher
  · exact mine own
  · rcases above with rfl | above
    · exact mine holds
    · exact irrefl _ (trans above higher)

/-- Where finitely many processes have started, one that waits for nobody is left. -/
theorem Acyclic.flows (acyclic : w.Acyclic M among) (started : {pid | w.procs pid ≠ none}.Finite) :
    w.Flows M among := by
  intro first unfinished
  let Started := {pid // w.procs pid ≠ none}
  let later : Started → Started → Prop := fun p q => Relation.TransGen (w.WaitsFor M among) q p
  have : Finite Started := started
  have : IsTrans Started later := ⟨fun _ _ _ first second => second.trans first⟩
  have : Std.Irrefl later := ⟨fun p => acyclic p⟩
  have present : ∀ {pid}, w.Unfinished pid → w.procs pid ≠ none := by
    rintro pid ⟨request, phase, found, _⟩
    simp [found]
  obtain ⟨⟨pid, _⟩, busy, least⟩ := (Finite.wellFounded_of_trans_of_irrefl later).has_min
    {p | w.Unfinished p.1} ⟨⟨first, present unfinished⟩, unfinished⟩
  refine ⟨pid, busy, fun other waits => ?_⟩
  have held : w.Unfinished other := waits.2.elim fun _ blocked => blocked.2.2.unfinished
  exact least ⟨other, present held⟩ held (.single waits)

end Order
end World

namespace System
variable {M : System D W S R K ε C Out X Y Ext Req Resp}
  {permit : Shared D C Ext → Label C X Req ε → Prop}
  {w w' : World D W S R K ε C Out X Y Ext Req Resp}

theorem Reaches.started (run : M.Reaches permit w w') (before : {pid | w.procs pid ≠ none}.Finite) :
    {pid | w'.procs pid ≠ none}.Finite := by
  induction run with
  | refl => exact before
  | @tail w₁ w₂ _ last ih =>
    have set : ∀ (σ : Shared D C Ext) pid request (phase : Phase W S R K ε C Out X Y Resp),
        {other | (World.set { w₁ with shared := σ } pid request phase).procs
          other ≠ none}.Finite := by
      intro σ pid request phase
      refine (ih.insert pid).subset fun other started => ?_
      by_cases here : other = pid
      · exact .inl here
      · rw [Set.mem_ofPred_eq, World.set_other _ _ _ here] at started
        exact .inr started
    cases last with
    | start | outside | begin | read | write | commit | lost | abort => exact set ..
    | drift => exact ih

/-- Where the locks of a process's transactions fit, so do those of its open ones. -/
theorem Reaches.fitting (fits : Nat → Req → List K → K → Prop) (allowed : Nat → Req → C → Prop)
    (starts : ∀ {σ pid request}, permit σ (.start pid request) →
      (M.handler request).All (Calls (allowed pid request)))
    (takes : ∀ {pid request c}, allowed pid request c →
      M.engine.Takes (fits pid request) (M.code c) [] fun _ _ => True)
    (run : M.Reaches permit (World.init d₀ ext₀) w) :
    ∀ pid request phase, w.procs pid = some (request, phase) →
      phase.Fitting M.engine (fits pid request) := by
  have kept := run.proc (F := fun pid request phase =>
    phase.residual.All (Calls (allowed pid request)) ∧
    phase.Fitting M.engine (fits pid request)) (fun permitted => ⟨starts permitted, trivial⟩) ?_ ?_
  · exact fun pid request phase found => (kept pid request phase found).2
  · intro w₁ pid request phase phase' _ ⟨calls, fitting⟩ next
    cases next with
    | outside | commit | fail => exact ⟨calls.2 _, trivial⟩
    | begin => exact ⟨calls, takes calls.1, fun k member => by cases member⟩
    | read plain exec =>
      simp only [Phase.Fitting, Engine.Takes, plain, if_true] at fitting
      exact ⟨calls, fitting.1 _, fitting.2⟩
    | write locked exec =>
      simp only [Phase.Fitting, Engine.Takes, locked, Bool.false_eq_true, if_false] at fitting
      refine ⟨calls, (fitting.1 _).2 _ _ exec, fun k member => ?_⟩
      rcases List.mem_append.mp member with old | new
      · exact fitting.2 k old
      · exact ⟨_, (fitting.1 _).1 k new⟩
  · intro pid request phase found
    cases found

/-- Where steps outside are always answered, a process that waits for nobody proceeds. -/
theorem proceeds (permits : ∀ {σ label},
    (∀ pid request, label ≠ .start pid request) → permit σ label)
    (answers : ∀ pid x d ext, ∃ reply ext', M.outside pid x d ext reply ext')
    (unfinished : w.Unfinished pid)
    (free : ∀ other, ¬ w.WaitsFor M (fun _ => True) pid other) : w.CanProceed M permit pid := by
  obtain ⟨request, phase, found, unfinished⟩ := unfinished
  have takes : ∀ (σ : Shared D C Ext) phase', M.Proceeds pid w.shared phase phase' →
      M.Step permit w (World.set { w with shared := σ } pid request phase') →
        w.CanProceed M permit pid :=
    fun σ phase' own taken => ⟨request, phase, phase', _, found, own, taken, World.set_same ..⟩
  cases phase with
  | running program =>
    cases program with
    | pure | throw => cases unfinished
    | call op next =>
      cases op with
      | outside x =>
        obtain ⟨reply, ext', replied⟩ := answers pid x w.shared.db w.shared.ext
        exact takes _ _ (.outside replied) (.outside found (permits (by simp)) replied)
      | transact c => exact takes w.shared _ .begin (.begin found)
  | inTx c body writes held next =>
    cases body with
    | pure value => exact takes _ _ .commit (.commit found (permits (by simp)))
    | throw error => exact takes w.shared _ .throw (.abort found (.inr rfl) (permits (by simp)))
    | call s rest =>
      cases result : M.engine.exec s
        (M.engine.source s w.shared.db (M.engine.view w.shared.db writes)) with
      | error error =>
        exact takes w.shared _ (.refuse result) (.abort found (.inr result) (permits (by simp)))
      | ok reply =>
        cases plain : M.engine.plain s with
        | true =>
          simp only [Engine.source, plain, if_true] at result
          exact takes w.shared _ (.read plain result) (.read found plain result)
        | false =>
          simp only [Engine.source, plain, Bool.false_eq_true, if_false] at result
          refine takes w.shared _ (.write plain result)
            (.write found plain (fun k needed other different holds => ?_) result)
          exact free other ⟨different, k, trivial,
            ⟨request, c, s, rest, writes, held, next, found, plain, needed⟩, holds⟩

end System
end Foundation
