import PaymentWallet.Foundation.Schedule

/-! Big-step runs. A program runs alone from one state to a result and another state, by
a relation that tells how each of its operations may end. A service program that runs
alone in this sense is one process of the concurrent system while all others rest. -/
namespace Foundation

namespace Program
variable {Op ε α β γ : Type} {Reply : Op → Type}

inductive Runs (step : (op : Op) → γ → Reply op → γ → Prop) :
    Program Op Reply ε α → γ → Except ε α → γ → Prop where
  | pure : Runs step (.pure value) s (.ok value) s
  | throw : Runs step (.throw error) s (.error error) s
  | call : step op s reply s₁ → Runs step (next reply) s₁ result s' →
      Runs step (.call op next) s result s'

section Rules
variable {step step' : (op : Op) → γ → Reply op → γ → Prop} {p : Program Op Reply ε α} {s s' : γ}

@[simp] theorem runs_pure {value : α} {result : Except ε α} :
    (Program.pure value : Program Op Reply ε α).Runs step s result s' ↔
      result = .ok value ∧ s' = s := by
  constructor
  · rintro ⟨⟩
    exact ⟨rfl, rfl⟩
  · rintro ⟨rfl, rfl⟩
    exact .pure

@[simp] theorem runs_throw {error : ε} {result : Except ε α} :
    (Program.throw error : Program Op Reply ε α).Runs step s result s' ↔
      result = .error error ∧ s' = s := by
  constructor
  · rintro ⟨⟩
    exact ⟨rfl, rfl⟩
  · rintro ⟨rfl, rfl⟩
    exact .throw

theorem runs_call {op : Op} {next : Reply op → Program Op Reply ε α} {result : Except ε α} :
    (Program.call op next).Runs step s result s' ↔ ∃ reply s₁, step op s reply s₁ ∧
      (next reply).Runs step s₁ result s' := by
  constructor
  · rintro (_ | _ | ⟨taken, rest⟩)
    exact ⟨_, _, taken, rest⟩
  · rintro ⟨reply, s₁, taken, rest⟩
    exact .call taken rest

/-- A sequence runs to its end, or its first part throws. -/
theorem runs_bind {f : α → Program Op Reply ε β} {result : Except ε β} :
    (p.bind f).Runs step s result s' ↔
      (∃ value s₁, p.Runs step s (.ok value) s₁ ∧ (f value).Runs step s₁ result s') ∨
      ∃ error, p.Runs step s (.error error) s' ∧ result = .error error := by
  induction p generalizing s with
  | pure value =>
    simp only [pure_bind, runs_pure, Except.ok.injEq, reduceCtorEq, false_and,
      exists_false, or_false]
    exact ⟨fun rest => ⟨value, s, ⟨rfl, rfl⟩, rest⟩, fun ⟨_, _, ⟨rfl, rfl⟩, rest⟩ => rest⟩
  | throw error =>
    simp only [throw_bind, runs_throw, Except.error.injEq, reduceCtorEq, false_and,
      exists_false, false_or]
    exact ⟨fun ⟨failed, here⟩ => ⟨error, ⟨rfl, here⟩, failed⟩,
      fun ⟨_, ⟨rfl, here⟩, failed⟩ => ⟨failed, here⟩⟩
  | call op next ih =>
    simp only [call_bind, runs_call, ih]
    constructor
    · rintro ⟨reply, s₁, taken, ⟨value, s₂, first, rest⟩ | ⟨error, first, failed⟩⟩
      · exact .inl ⟨value, s₂, ⟨reply, s₁, taken, first⟩, rest⟩
      · exact .inr ⟨error, ⟨reply, s₁, taken, first⟩, failed⟩
    · rintro (⟨value, s₂, ⟨reply, s₁, taken, first⟩, rest⟩ | ⟨error,
        ⟨reply, s₁, taken, first⟩, failed⟩)
      · exact ⟨reply, s₁, taken, .inl ⟨value, s₂, first, rest⟩⟩
      · exact ⟨reply, s₁, taken, .inr ⟨error, first, failed⟩⟩

/-- A handled program returns, or its handler runs where it threw. -/
theorem runs_handle {h : ε → Program Op Reply ε α} {result : Except ε α} :
    (p.handle h).Runs step s result s' ↔
      (∃ value, p.Runs step s (.ok value) s' ∧ result = .ok value) ∨
      ∃ error s₁, p.Runs step s (.error error) s₁ ∧ (h error).Runs step s₁ result s' := by
  induction p generalizing s with
  | pure value =>
    simp only [handle, runs_pure, Except.ok.injEq, reduceCtorEq, false_and, exists_false, or_false]
    exact ⟨fun ⟨done, here⟩ => ⟨value, ⟨rfl, here⟩, done⟩,
      fun ⟨_, ⟨rfl, here⟩, done⟩ => ⟨done, here⟩⟩
  | throw error =>
    simp only [handle, runs_throw, Except.error.injEq, reduceCtorEq, false_and,
      exists_false, false_or]
    exact ⟨fun rest => ⟨error, s, ⟨rfl, rfl⟩, rest⟩, fun ⟨_, _, ⟨rfl, rfl⟩, rest⟩ => rest⟩
  | call op next ih =>
    simp only [handle, runs_call, ih]
    constructor
    · rintro ⟨reply, s₁, taken, ⟨value, first, done⟩ | ⟨error, s₂, first, rest⟩⟩
      · exact .inl ⟨value, ⟨reply, s₁, taken, first⟩, done⟩
      · exact .inr ⟨error, s₂, ⟨reply, s₁, taken, first⟩, rest⟩
    · rintro (⟨value, ⟨reply, s₁, taken, first⟩, done⟩ | ⟨error, s₂,
        ⟨reply, s₁, taken, first⟩, rest⟩)
      · exact ⟨reply, s₁, taken, .inl ⟨value, first, done⟩⟩
      · exact ⟨reply, s₁, taken, .inr ⟨error, s₂, first, rest⟩⟩

theorem Runs.mono {result : Except ε α} (run : p.Runs step s result s')
    (weaker : ∀ {op s reply s'}, step op s reply s' → step' op s reply s') :
    p.Runs step' s result s' := by
  induction run with
  | pure => exact .pure
  | throw => exact .throw
  | call taken _ ih => exact .call (weaker taken) ih

/-- What every step keeps, a run keeps. -/
theorem Runs.keeps {result : Except ε α} {F : γ → Prop} (run : p.Runs step s result s')
    (keeps : ∀ {op s reply s'}, step op s reply s' → F s → F s') (holds : F s) : F s' := by
  induction run with
  | pure | throw => exact holds
  | call taken _ ih => exact ih (keeps taken holds)

/-- A program whose operations always end has a run. -/
theorem runs_exist (total : ∀ op s, ∃ reply s', step op s reply s')
    (p : Program Op Reply ε α) (s : γ) :
    ∃ result s', p.Runs step s result s' := by
  induction p generalizing s with
  | pure value => exact ⟨_, _, .pure⟩
  | throw error => exact ⟨_, _, .throw⟩
  | call op next ih =>
    obtain ⟨reply, s₁, taken⟩ := total op s
    obtain ⟨result, s', rest⟩ := ih reply s₁
    exact ⟨result, s', .call taken rest⟩

end Rules
end Program

namespace Service
variable {C X ε α γ : Type} {Out : C → Type} {Y : X → Type}
  {step : (op : ServiceOp C X) → γ → Except ε (op.Result Out Y) → γ → Prop} {s s' : γ}

@[simp] theorem runs_resume {reply result : Except ε α} :
    (resume reply : Service C X Out Y ε α).Runs step s result s' ↔ result = reply ∧ s' = s := by
  cases reply <;> simp [resume]

theorem runs_operation {op : ServiceOp C X} {result : Except ε (op.Result Out Y)} :
    (Program.call op resume : Service C X Out Y ε (op.Result Out Y)).Runs step s result s' ↔
      step op s result s' := by
  simp only [Program.runs_call, runs_resume]
  constructor
  · rintro ⟨reply, s₁, taken, rfl, rfl⟩
    exact taken
  · exact fun taken => ⟨result, s', taken, rfl, rfl⟩

@[simp] theorem runs_transact {c : C} {result : Except ε (Out c)} :
    (transact c : Service C X Out Y ε (Out c)).Runs step s result s' ↔
      step (.transact c) s result s' :=
  runs_operation

@[simp] theorem runs_outside {x : X} {result : Except ε (Y x)} :
    (outside x : Service C X Out Y ε (Y x)).Runs step s result s' ↔ step (.outside x) s result s' :=
  runs_operation

end Service

namespace System
variable {D W S K ε C X Ext Req Resp : Type} {R : S → Type} {Out : C → Type} {Y : X → Type}
  (M : System D W S R K ε C Out X Y Ext Req Resp)
  (permit : Shared D C Ext → Label C X Req ε → Prop) (pid : Nat)

/-- How an operation of process `pid` may end while no other process moves. -/
inductive Alone : (op : ServiceOp C X) → Shared D C Ext → Except ε (op.Result Out Y) →
    Shared D C Ext → Prop where
  | outside : permit σ (.outside pid x) → M.outside pid x σ.db σ.ext reply ext →
      Alone (.outside x) σ reply { σ with ext := ext }
  | commit : permit σ (.commit pid c) → M.engine.run σ.db (M.code c) σ.db = .ok (value, db) →
      Alone (.transact c) σ (.ok value) (σ.commit c db)
  | lost : permit σ (.lost pid c) → M.engine.run σ.db (M.code c) σ.db = .ok (value, db) →
      Alone (.transact c) σ (.error M.lost) (σ.commit c db)
  | abort : permit σ (.abort pid c error) → error = M.lost ∨
      M.engine.run σ.db (M.code c) σ.db = .error error →
      Alone (.transact c) σ (.error error) σ

variable {M permit pid} {w w' : World D W S R K ε C Out X Y Ext Req Resp}
  {σ σ' : Shared D C Ext} {request : Req}

/-- A transaction commits, whether its caller hears of it or not, or does nothing. -/
theorem Alone.transact {c : C} {reply : Except ε (Out c)}
    (taken : M.Alone permit pid (.transact c) σ reply σ') :
    (∃ value db, M.engine.run σ.db (M.code c) σ.db = .ok (value, db) ∧ σ' = σ.commit c db ∧
      (reply = .ok value ∨ reply = .error M.lost)) ∨
    σ' = σ ∧ ∃ error, reply = .error error ∧
      (error = M.lost ∨ M.engine.run σ.db (M.code c) σ.db = .error error) := by
  cases taken with
  | commit permitted ran => exact .inl ⟨_, _, ran, rfl, .inl rfl⟩
  | lost permitted ran => exact .inl ⟨_, _, ran, rfl, .inr rfl⟩
  | abort permitted why => exact .inr ⟨rfl, _, rfl, why⟩

theorem Alone.outside_inv {x : X} {reply : Except ε (Y x)}
    (taken : M.Alone permit pid (.outside x) σ reply σ') :
    ∃ ext, M.outside pid x σ.db σ.ext reply ext ∧ σ' = { σ with ext := ext } := by
  cases taken with
  | outside permitted replied => exact ⟨_, replied, rfl⟩

variable (M pid) in
/-- What a program returns that works alone, each of its steps ending as its turn says. -/
def playOut (answer : A → Nat → (x : X) → D → Ext → Except ε (Y x) × Ext) :
    List (Turn A) → Service C X Out Y ε α → Shared D C Ext → Option (α × Shared D C Ext)
  | [], .pure value, σ => some (value, σ)
  | .answer choice :: turns, .call (.outside x) next, σ =>
    playOut answer turns (next (answer choice pid x σ.db σ.ext).1)
      { σ with ext := (answer choice pid x σ.db σ.ext).2 }
  | .commit :: turns, .call (.transact c) next, σ =>
    match M.engine.run σ.db (M.code c) σ.db with
    | .ok (value, db) => playOut answer turns (next (.ok value)) (σ.commit c db)
    | .error _ => none
  | _, _, _ => none

theorem playOut_runs {answer : A → Nat → (x : X) → D → Ext → Except ε (Y x) × Ext}
    (answers : ∀ choice pid x d ext,
      M.outside pid x d ext (answer choice pid x d ext).1 (answer choice pid x d ext).2)
    (permits : ∀ σ label, permit σ label) {turns : List (Turn A)} {p : Service C X Out Y ε α}
    {value : α} (played : M.playOut pid answer turns p σ = some (value, σ')) :
    p.Runs (M.Alone permit pid) σ (.ok value) σ' := by
  induction turns generalizing p σ with
  | nil =>
    cases p with
    | pure =>
      cases played
      exact .pure
    | throw | call => cases played
  | cons turn turns ih =>
    cases p with
    | pure | throw => cases turn <;> cases played
    | call op next =>
      cases op with
      | outside x =>
        cases turn with
        | answer choice => exact .call (.outside (permits _ _) (answers ..)) (ih played)
        | _ => cases played
      | transact c =>
        cases turn with
        | commit =>
          simp only [playOut] at played
          split at played
          · exact .call (.commit (permits _ _) ‹_›) (ih played)
          · cases played
        | _ => cases played

/-- The operation takes such locks only. -/
def Locks (M : System D W S R K ε C Out X Y Ext Req Resp) (Takes : K → Prop) : ServiceOp C X → Prop
  | .transact c => (M.code c).All fun s => ∀ d, ∀ k ∈ M.engine.keys s d, Takes k
  | .outside _ => True

/-- A run alone is a run of the system in which the other processes rest, as long as they
hold none of the locks that it takes. -/
theorem Solo.runs {Takes : K → Prop} (unread : ∀ {s d reply ws}, M.engine.plain s = true →
      M.engine.exec s d = .ok (reply, ws) → ws = [])
    (free : ∀ other ≠ pid, ∀ k, Takes k → ¬ w.Holds other k) {p : Service C X Out Y ε Resp}
    {result : Except ε Resp}
    (takes : p.All (M.Locks Takes)) (run : p.Runs (M.Alone permit pid) σ result σ')
    (solo : Solo (M := M) permit w pid request (.running p) σ w') :
    ∃ w', Solo (M := M) permit w pid request (.running (Service.resume result)) σ' w' := by
  induction run generalizing w' with
  | pure | throw => exact ⟨w', solo⟩
  | call taken _ ih =>
    cases taken with
    | outside permitted replied =>
      obtain ⟨_, solo⟩ := solo.ask permitted replied
      exact ih (takes.2 _) solo
    | commit permitted ran =>
      obtain ⟨_, _, _, _, open_, ended⟩ := (solo.stay (.begin solo.phase)).body unread free takes.1
      obtain rfl := open_.shared
      rw [M.engine.view_nil, ran] at ended
      obtain ⟨rfl, rfl⟩ := ended
      exact ih (takes.2 _) (open_.step (.commit open_.phase permitted))
    | lost permitted ran =>
      obtain ⟨_, _, _, _, open_, ended⟩ := (solo.stay (.begin solo.phase)).body unread free takes.1
      obtain rfl := open_.shared
      rw [M.engine.view_nil, ran] at ended
      obtain ⟨rfl, rfl⟩ := ended
      exact ih (takes.2 _) (open_.step (.lost open_.phase permitted))
    | abort permitted why =>
      obtain ⟨_, _, _, _, open_, ended⟩ := (solo.stay (.begin solo.phase)).body unread free takes.1
      obtain rfl := open_.shared
      rcases why with rfl | failed
      · exact ih (takes.2 _) (open_.stay (.abort open_.phase (.inl rfl) permitted))
      · rw [M.engine.view_nil, failed] at ended
        exact ih (takes.2 _) (open_.stay (.abort open_.phase ended permitted))

end System
end Foundation
