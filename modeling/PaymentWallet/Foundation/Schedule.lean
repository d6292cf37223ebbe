import PaymentWallet.Foundation.World

/-! Computed runs. A schedule lets one process after the other work alone and says
how each of its steps ends. What it computes is reached by a run of the system. -/
namespace Foundation

/-- How one step of a process ends. An outside step is answered by a choice; a
transaction commits, with its reply arriving or not, is cut off, or fails by itself. -/
inductive Turn (A : Type) where
  | answer (choice : A)
  | commit
  | lost
  | cut
  | fail

namespace System
variable {D W S K ε C X Ext Req Resp A : Type} {R : S → Type} {Out : C → Type} {Y : X → Type}
  (M : System D W S R K ε C Out X Y Ext Req Resp)

section Play
variable (answer : A → Nat → (x : X) → D → Ext → Except ε (Y x) × Ext)
  (allow : Shared D C Ext → Label C X Req ε → Bool)

/-- The shared state after the scheduled steps of one program. -/
def play (pid : Nat) : List (Turn A) → Service C X Out Y ε Resp → Shared D C Ext →
    Option (Shared D C Ext)
  | [], _, σ => some σ
  | .answer choice :: turns, .call (.outside x) next, σ =>
    if allow σ (.outside pid x) then
      play pid turns (next (answer choice pid x σ.db σ.ext).1)
        { σ with ext := (answer choice pid x σ.db σ.ext).2 }
    else none
  | .commit :: turns, .call (.transact c) next, σ =>
    match M.engine.run σ.db (M.code c) σ.db with
    | .ok (value, db) =>
      if allow σ (.commit pid c) then play pid turns (next (.ok value)) (σ.commit c db) else none
    | .error _ => none
  | .lost :: turns, .call (.transact c) next, σ =>
    match M.engine.run σ.db (M.code c) σ.db with
    | .ok (_, db) =>
      if allow σ (.lost pid c) then play pid turns (next (.error M.lost)) (σ.commit c db) else none
    | .error _ => none
  | .cut :: turns, .call (.transact c) next, σ =>
    if allow σ (.abort pid c M.lost) then play pid turns (next (.error M.lost)) σ else none
  | .fail :: turns, .call (.transact c) next, σ =>
    match M.engine.run σ.db (M.code c) σ.db with
    | .ok _ => none
    | .error error =>
      if allow σ (.abort pid c error) then play pid turns (next (.error error)) σ else none
  | _, _, _ => none

/-- Requests served one after the other, by processes numbered from `pid` on. -/
def serve (pid : Nat) : List (Req × List (Turn A)) → Shared D C Ext → Option (Shared D C Ext)
  | [], σ => some σ
  | (request, turns) :: rest, σ =>
    if allow σ (.start pid request) then
      (M.play answer allow pid turns (M.handler request) σ).bind (serve (pid + 1) rest)
    else none

end Play

section Reaching
variable {M} {permit : Shared D C Ext → Label C X Req ε → Prop}
  {w : World D W S R K ε C Out X Y Ext Req Resp}

/-- Only process `pid` has moved since `w`, and it is at `phase` now. -/
structure Solo (permit : Shared D C Ext → Label C X Req ε → Prop)
    (w : World D W S R K ε C Out X Y Ext Req Resp) (pid : Nat) (request : Req)
    (phase : Phase W S R K ε C Out X Y Resp) (σ : Shared D C Ext)
    (w' : World D W S R K ε C Out X Y Ext Req Resp) : Prop where
  run : M.Reaches permit w w'
  phase : w'.procs pid = some (request, phase)
  shared : w'.shared = σ
  others : ∀ other ≠ pid, w'.procs other = w.procs other

variable {pid : Nat} {request : Req} {phase phase' : Phase W S R K ε C Out X Y Resp}
  {σ σ' : Shared D C Ext} {w' : World D W S R K ε C Out X Y Ext Req Resp}

theorem Solo.refl (found : w.procs pid = some (request, phase)) :
    Solo (M := M) permit w pid request phase w.shared w :=
  ⟨.refl, found, rfl, fun _ _ => rfl⟩

theorem Solo.step (solo : Solo (M := M) permit w pid request phase σ w')
    (taken : M.Step permit w' (World.set { w' with shared := σ' } pid request phase')) :
    Solo (M := M) permit w pid request phase' σ'
      (World.set { w' with shared := σ' } pid request phase') :=
  ⟨solo.run.tail taken, World.set_same .., rfl, fun other different =>
    (World.set_other _ _ _ different).trans (solo.others other different)⟩

theorem Solo.stay (solo : Solo (M := M) permit w pid request phase σ w')
    (taken : M.Step permit w' (w'.set pid request phase')) :
    Solo (M := M) permit w pid request phase' σ (w'.set pid request phase') :=
  ⟨solo.run.tail taken, World.set_same .., solo.shared, fun other different =>
    (World.set_other _ _ _ different).trans (solo.others other different)⟩

theorem Solo.start (idle : w.procs pid = none) (permitted : permit w.shared (.start pid request)) :
    Solo (M := M) permit w pid request (.running (M.handler request)) w.shared
      (w.set pid request (.running (M.handler request))) :=
  ⟨.single (.start idle permitted), World.set_same .., rfl,
    fun _ different => World.set_other _ _ _ different⟩

theorem Solo.ask {x : X} {next : Except ε (Y x) → Service C X Out Y ε Resp}
    {reply : Except ε (Y x)} {ext : Ext}
    (solo : Solo (M := M) permit w pid request (.running (.call (.outside x) next)) σ w')
    (permitted : permit σ (.outside pid x)) (replied : M.outside pid x σ.db σ.ext reply ext) :
    ∃ w', Solo (M := M) permit w pid request (.running (next reply)) { σ with ext := ext } w' := by
  obtain rfl := solo.shared
  exact ⟨_, solo.step (.outside solo.phase permitted replied)⟩

theorem Solo.mono {permit' : Shared D C Ext → Label C X Req ε → Prop}
    (weaker : ∀ {σ label}, permit σ label → permit' σ label)
    (solo : Solo (M := M) permit w pid request phase σ w') :
    Solo (M := M) permit' w pid request phase σ w' :=
  ⟨solo.run.mono weaker, solo.phase, solo.shared, solo.others⟩

/-- How a transaction body stands when it has run as far as it can. -/
def Ends (M : System D W S R K ε C Out X Y Ext Req Resp) (d : D) {α : Type} :
    Except ε (α × D) → Program S R ε α → List W → Prop
  | .ok (value, d'), body, writes => body = .pure value ∧ M.engine.view d writes = d'
  | .error error, body, writes => M.Aborts d (M.engine.view d writes) body error

/-- Where nobody else holds a lock that it takes, a transaction runs to its end. -/
theorem Solo.body {Takes : K → Prop}
    (unread : ∀ {s d reply ws}, M.engine.plain s = true → M.engine.exec s d = .ok (reply, ws) →
      ws = [])
    (free : ∀ other ≠ pid, ∀ k, Takes k → ¬ w.Holds other k) {c : C}
    {body : Program S R ε (Out c)} {writes : List W}
    {held : List K} {next : Except ε (Out c) → Service C X Out Y ε Resp}
    (takes : body.All fun s => ∀ d, ∀ k ∈ M.engine.keys s d, Takes k)
    (solo : Solo (M := M) permit w pid request (.inTx c body writes held next) σ w') :
    ∃ body' writes' held' w',
      Solo (M := M) permit w pid request (.inTx c body' writes' held' next) σ w' ∧
      Ends M σ.db (M.engine.run σ.db body (M.engine.view σ.db writes)) body' writes' := by
  induction body generalizing writes held w' with
  | pure value => exact ⟨_, _, _, _, solo, rfl, rfl⟩
  | throw error => exact ⟨_, _, _, _, solo, .inr rfl⟩
  | call s rest ih =>
    have holds : ∀ k, Takes k → ∀ other, other ≠ pid → ¬ w'.Holds other k := by
      rintro k taken other different ⟨req, ph, found, member⟩
      exact free other different k taken ⟨req, ph, (solo.others other different) ▸ found, member⟩
    have same : w'.shared = σ := solo.shared
    cases exec : M.engine.exec s (M.engine.source s σ.db (M.engine.view σ.db writes)) with
    | error error =>
      refine ⟨_, _, _, _, solo, ?_⟩
      simp only [Engine.run, exec]
      exact .inr exec
    | ok result =>
      obtain ⟨reply, more⟩ := result
      simp only [Engine.run, exec]
      cases plain : M.engine.plain s with
      | true =>
        simp only [Engine.source, plain, if_true] at exec
        obtain rfl := unread plain exec
        exact ih reply (takes.2 reply) (solo.stay (.read solo.phase plain (same ▸ exec)))
      | false =>
        simp only [Engine.source, plain, Bool.false_eq_true, if_false] at exec
        rw [← M.engine.view_append]
        exact ih reply (takes.2 reply) (solo.stay (.write solo.phase plain
          (fun k key => holds k (takes.1 _ k key)) (same ▸ exec)))

/-- Where nobody else holds a lock, every transaction does. -/
theorem Solo.alone (unread : ∀ {s d reply ws}, M.engine.plain s = true →
    M.engine.exec s d = .ok (reply, ws) → ws = [])
    (free : ∀ other ≠ pid, ∀ k, ¬ w.Holds other k) {c : C}
    {body : Program S R ε (Out c)} {writes : List W}
    {held : List K} {next : Except ε (Out c) → Service C X Out Y ε Resp}
    (solo : Solo (M := M) permit w pid request (.inTx c body writes held next) σ w') :
    ∃ body' writes' held' w',
      Solo (M := M) permit w pid request (.inTx c body' writes' held' next) σ w' ∧
      Ends M σ.db (M.engine.run σ.db body (M.engine.view σ.db writes)) body' writes' :=
  solo.body unread (fun other different k _ => free other different k)
    (body.all_trivial.mono fun _ _ _ _ _ => trivial)

theorem play_reaches {answer : A → Nat → (x : X) → D → Ext → Except ε (Y x) × Ext}
    {allow : Shared D C Ext → Label C X Req ε → Bool} {turns : List (Turn A)}
    {p : Service C X Out Y ε Resp}
    (unread : ∀ {s d reply ws}, M.engine.plain s = true →
      M.engine.exec s d = .ok (reply, ws) → ws = [])
    (answers : ∀ choice pid x d ext,
      M.outside pid x d ext (answer choice pid x d ext).1 (answer choice pid x d ext).2)
    (permits : ∀ {σ label}, allow σ label = true → permit σ label)
    (free : ∀ other ≠ pid, ∀ k, ¬ w.Holds other k)
    (solo : Solo (M := M) permit w pid request (.running p) σ w')
    (played : M.play answer allow pid turns p σ = some σ') :
    ∃ p' w', Solo (M := M) permit w pid request (.running p') σ' w' := by
  have body : ∀ {c : C} {next σ w'},
      Solo (M := M) permit w pid request (.running (.call (.transact c) next)) σ w' →
      ∃ body' writes' held' w',
        Solo (M := M) permit w pid request (.inTx c body' writes' held' next) σ w' ∧
        Ends M σ.db (M.engine.run σ.db (M.code c) σ.db) body' writes' := by
    intro c next σ w' solo
    exact Solo.alone unread free (solo.stay (.begin solo.phase))
  induction turns generalizing p σ w' with
  | nil =>
    cases played
    exact ⟨p, w', solo⟩
  | cons turn turns ih =>
    cases p with
    | pure value => cases turn <;> cases played
    | throw error => cases turn <;> cases played
    | call op next =>
      cases op with
      | outside x =>
        cases turn with
        | answer choice =>
          simp only [play] at played
          split at played
          · rename_i allowed
            obtain ⟨_, solo⟩ := solo.ask (permits allowed) (answers choice pid x _ _)
            exact ih solo played
          · cases played
        | commit | lost | cut | fail => cases played
      | transact c =>
        obtain ⟨body', writes', held', w₁, open_, ended⟩ := body solo
        obtain rfl := open_.shared
        cases turn with
        | answer choice => cases played
        | commit =>
          simp only [play] at played
          split at played
          · rename_i value db result
            simp only [result, Ends] at ended
            obtain ⟨rfl, rfl⟩ := ended
            split at played
            · exact ih (open_.step (.commit open_.phase (permits ‹_›))) played
            · cases played
          · cases played
        | lost =>
          simp only [play] at played
          split at played
          · rename_i value db result
            simp only [result, Ends] at ended
            obtain ⟨rfl, rfl⟩ := ended
            split at played
            · exact ih (open_.step (.lost open_.phase (permits ‹_›))) played
            · cases played
          · cases played
        | cut =>
          simp only [play] at played
          split at played
          · exact ih (open_.stay (.abort open_.phase (.inl rfl) (permits ‹_›))) played
          · cases played
        | fail =>
          simp only [play] at played
          split at played
          · cases played
          · rename_i error result
            simp only [result, Ends] at ended
            split at played
            · exact ih (open_.stay (.abort open_.phase ended (permits ‹_›))) played
            · cases played

/-- What is served from the initial state is reached. -/
theorem serve_reaches {answer : A → Nat → (x : X) → D → Ext → Except ε (Y x) × Ext}
    {allow : Shared D C Ext → Label C X Req ε → Bool} {requests : List (Req × List (Turn A))}
    (unread : ∀ {s d reply ws}, M.engine.plain s = true →
      M.engine.exec s d = .ok (reply, ws) → ws = [])
    (answers : ∀ choice pid x d ext,
      M.outside pid x d ext (answer choice pid x d ext).1 (answer choice pid x d ext).2)
    (permits : ∀ {σ label}, allow σ label = true → permit σ label)
    (idle : ∀ other ≥ pid, w.procs other = none) (free : ∀ other k, ¬ w.Holds other k)
    (served : M.serve answer allow pid requests w.shared = some σ) :
    ∃ w', M.Reaches permit w w' ∧ w'.shared = σ := by
  induction requests generalizing pid w with
  | nil =>
    cases served
    exact ⟨w, .refl, rfl⟩
  | cons head rest ih =>
    obtain ⟨request, turns⟩ := head
    simp only [serve] at served
    split at served
    · rename_i allowed
      obtain ⟨σ₁, played, later⟩ := Option.bind_eq_some_iff.mp served
      have started : Solo (M := M) permit w pid request (.running (M.handler request)) w.shared _ :=
        .start (idle pid (Nat.le_refl pid)) (permits allowed)
      obtain ⟨p', w₁, solo⟩ :=
        play_reaches unread answers permits (fun other _ => free other) started played
      obtain rfl := solo.shared
      have idle' : ∀ other ≥ pid + 1, w₁.procs other = none := fun other later =>
        (solo.others other (by omega)).trans (idle other (by omega))
      have free' : ∀ other k, ¬ w₁.Holds other k := by
        rintro other k ⟨req, ph, found, member⟩
        by_cases same : other = pid
        · subst other
          cases solo.phase.symm.trans found
          cases member
        · exact free other k ⟨req, ph, (solo.others other same) ▸ found, member⟩
      obtain ⟨w₂, run, shared⟩ := ih idle' free' later
      exact ⟨w₂, solo.run.trans run, shared⟩
    · cases served

end Reaching
end System
end Foundation
