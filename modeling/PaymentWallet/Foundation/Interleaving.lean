import PaymentWallet.Foundation.Schedule

/-! Computed interleavings. A script says which process moves next and how its step
ends; processes wait between their own steps with no transaction open. -/
namespace Foundation

/-- One line of a script. -/
inductive Cue (Req A : Type) where
  | start (pid : Nat) (request : Req)
  | turn (pid : Nat) (turn : Turn A)
  | drift

/-- The process that a cue is about. -/
def Cue.pid : Cue Req A → Option Nat
  | .start pid _ | .turn pid _ => some pid
  | .drift => none

namespace System
variable {D W S K ε C X Ext Req Resp A : Type} {R : S → Type} {Out : C → Type} {Y : X → Type}
  (M : System D W S R K ε C Out X Y Ext Req Resp)

section Play
variable (answer : A → Nat → (x : X) → D → Ext → Except ε (Y x) × Ext)
  (allow : Shared D C Ext → Label C X Req ε → Bool) (change : Ext → Option Ext)

/-- One scheduled step of one program. -/
def advance (pid : Nat) : Turn A → Service C X Out Y ε Resp → Shared D C Ext →
    Option (Service C X Out Y ε Resp × Shared D C Ext)
  | .answer choice, .call (.outside x) next, σ =>
    if allow σ (.outside pid x) then
      some (next (answer choice pid x σ.db σ.ext).1,
        { σ with ext := (answer choice pid x σ.db σ.ext).2 })
    else none
  | .commit, .call (.transact c) next, σ =>
    match M.engine.run σ.db (M.code c) σ.db with
    | .ok (value, db) =>
      if allow σ (.commit pid c) then some (next (.ok value), σ.commit c db) else none
    | .error _ => none
  | .lost, .call (.transact c) next, σ =>
    match M.engine.run σ.db (M.code c) σ.db with
    | .ok (_, db) =>
      if allow σ (.lost pid c) then some (next (.error M.lost), σ.commit c db) else none
    | .error _ => none
  | .cut, .call (.transact c) next, σ =>
    if allow σ (.abort pid c M.lost) then some (next (.error M.lost), σ) else none
  | .fail, .call (.transact c) next, σ =>
    match M.engine.run σ.db (M.code c) σ.db with
    | .ok _ => none
    | .error error => if allow σ (.abort pid c error) then some (next (.error error), σ) else none
  | _, _, _ => none

/-- What every process still has to do, and the shared state. -/
structure Stage (Req C X : Type) (Out : C → Type) (Y : X → Type) (ε Resp D Ext : Type) where
  procs : Nat → Option (Req × Service C X Out Y ε Resp)
  shared : Shared D C Ext

def Stage.set (stage : Stage Req C X Out Y ε Resp D Ext) (pid : Nat) (request : Req)
    (program : Service C X Out Y ε Resp) (σ : Shared D C Ext) : Stage Req C X Out Y ε Resp D Ext :=
  ⟨Function.update stage.procs pid (some (request, program)), σ⟩

def perform (stage : Stage Req C X Out Y ε Resp D Ext) :
    Cue Req A → Option (Stage Req C X Out Y ε Resp D Ext)
  | .start pid request =>
    if (stage.procs pid).isNone && allow stage.shared (.start pid request) then
      some (stage.set pid request (M.handler request) stage.shared)
    else none
  | .turn pid turn =>
    (stage.procs pid).bind fun (request, program) =>
      (M.advance answer allow pid turn program stage.shared).map fun (rest, σ) =>
        stage.set pid request rest σ
  | .drift =>
    if allow stage.shared .drift then
      (change stage.shared.ext).map fun ext =>
        { stage with shared := { stage.shared with ext := ext } }
    else none

/-- The stage after a script. -/
def enact (stage : Stage Req C X Out Y ε Resp D Ext) :
    List (Cue Req A) → Option (Stage Req C X Out Y ε Resp D Ext)
  | [] => some stage
  | cue :: cues => (perform M answer allow change stage cue).bind fun stage => enact stage cues

end Play

/-- The world in which no transaction is open. -/
def Stage.world (stage : Stage Req C X Out Y ε Resp D Ext) :
    World D W S R K ε C Out X Y Ext Req Resp :=
  ⟨stage.shared, fun pid =>
    (stage.procs pid).map fun (request, program) => (request, .running program)⟩

/-- How a process has ended. -/
def Stage.ended (stage : Stage Req C X Out Y ε Resp D Ext) (pid : Nat) :
    Option (Req × Except ε Resp) :=
  match stage.procs pid with
  | some (request, .pure response) => some (request, .ok response)
  | some (request, .throw error) => some (request, .error error)
  | _ => none

section Reaching
variable {M} {permit : Shared D C Ext → Label C X Req ε → Prop}
  {answer : A → Nat → (x : X) → D → Ext → Except ε (Y x) × Ext}
  {allow : Shared D C Ext → Label C X Req ε → Bool} {change : Ext → Option Ext}
  {stage stage' : Stage Req C X Out Y ε Resp D Ext} {σ : Shared D C Ext} {pid : Nat} {request : Req}

theorem Stage.ended_ok {response : Resp} (ended : stage.ended pid = some (request, .ok response)) :
    (stage.world : World D W S R K ε C Out X Y Ext Req Resp).procs pid =
      some (request, .running (.pure response)) := by
  unfold Stage.ended at ended
  split at ended
  · rename_i found
    cases ended
    simp [Stage.world, found]
  · cases ended
  · cases ended

theorem Stage.ended_error {error : ε} (ended : stage.ended pid = some (request, .error error)) :
    (stage.world : World D W S R K ε C Out X Y Ext Req Resp).procs pid =
      some (request, .running (.throw error)) := by
  unfold Stage.ended at ended
  split at ended
  · cases ended
  · rename_i found
    cases ended
    simp [Stage.world, found]
  · cases ended

theorem Stage.free (stage : Stage Req C X Out Y ε Resp D Ext) (other : Nat) (k : K) :
    ¬ (stage.world : World D W S R K ε C Out X Y Ext Req Resp).Holds other k := by
  rintro ⟨request, phase, found, member⟩
  obtain ⟨⟨request', program⟩, _, same⟩ := Option.map_eq_some_iff.mp found
  cases same
  cases member

theorem Stage.set_world (program : Service C X Out Y ε Resp) :
    ((stage.set pid request program σ).world : World D W S R K ε C Out X Y Ext Req Resp) =
      World.set { stage.world with shared := σ } pid request (.running program) := by
  simp only [Stage.set, Stage.world, World.set, World.mk.injEq, true_and]
  funext other
  by_cases same : other = pid
  · subst same
    simp
  · simp [same]

/-- A process that moved alone has left the stage with its new program. -/
theorem Stage.solo {program : Service C X Out Y ε Resp}
    {w : World D W S R K ε C Out X Y Ext Req Resp}
    (solo : Solo (M := M) permit stage.world pid request (.running program) σ w) :
    w = (stage.set pid request program σ).world := by
  obtain ⟨shared, procs⟩ := w
  rw [Stage.set_world]
  obtain rfl : shared = σ := solo.shared
  simp only [World.set, World.mk.injEq, true_and]
  funext other
  by_cases same : other = pid
  · subst same
    rw [Function.update_self]
    exact solo.phase
  · rw [Function.update_of_ne same]
    exact solo.others other same

/-- A process runs its transaction, if it has one, up to the one step that others notice. -/
theorem advance_step {turn : Turn A} {program rest : Service C X Out Y ε Resp}
    (unread : ∀ {s d reply ws}, M.engine.plain s = true →
      M.engine.exec s d = .ok (reply, ws) → ws = [])
    (answers : ∀ choice pid x d ext,
      M.outside pid x d ext (answer choice pid x d ext).1 (answer choice pid x d ext).2)
    (permits : ∀ {σ label}, allow σ label = true → permit σ label)
    (found : stage.procs pid = some (request, program))
    (advanced : M.advance answer allow pid turn program stage.shared = some (rest, σ)) :
    ∃ phase w, Solo (M := M) (fun _ _ => False) stage.world pid request phase stage.shared w ∧
      phase.residual = program ∧
      M.Step permit w (World.set { w with shared := σ } pid request (.running rest)) := by
  have here : Solo (M := M) (fun _ _ => False) stage.world pid request (.running program)
    stage.shared stage.world :=
    .refl (by simp [Stage.world, found])
  have body : ∀ {c : C} {next}, program = .call (.transact c) next →
      ∃ body' writes' held' w',
        Solo (M := M) (fun _ _ => False) stage.world pid request (.inTx c body' writes' held' next)
        stage.shared w' ∧
        Ends M stage.shared.db
          (M.engine.run stage.shared.db (M.code c) stage.shared.db) body' writes' := by
    rintro c next rfl
    exact Solo.alone unread (fun other _ => stage.free other) (here.stay (.begin here.phase))
  cases program with
  | pure value => cases turn <;> cases advanced
  | throw error => cases turn <;> cases advanced
  | call op next =>
    cases op with
    | outside x =>
      cases turn with
      | answer choice =>
        simp only [advance] at advanced
        split at advanced
        · cases advanced
          exact ⟨_, _, here, rfl, .outside here.phase (permits ‹_›) (answers choice pid x _ _)⟩
        · cases advanced
      | commit | lost | cut | fail => cases advanced
    | transact c =>
      obtain ⟨body', writes', held', w₁, open_, ended⟩ := body rfl
      refine ⟨_, w₁, open_, rfl, ?_⟩
      have found₁ := open_.phase
      obtain ⟨shared, procs⟩ := w₁
      obtain rfl : shared = stage.shared := open_.shared
      cases turn with
      | answer choice => cases advanced
      | commit =>
        simp only [advance] at advanced
        split at advanced
        · rename_i value db result
          simp only [result, Ends] at ended
          obtain ⟨rfl, rfl⟩ := ended
          split at advanced
          · cases advanced
            exact .commit found₁ (permits ‹_›)
          · cases advanced
        · cases advanced
      | lost =>
        simp only [advance] at advanced
        split at advanced
        · rename_i value db result
          simp only [result, Ends] at ended
          obtain ⟨rfl, rfl⟩ := ended
          split at advanced
          · cases advanced
            exact .lost found₁ (permits ‹_›)
          · cases advanced
        · cases advanced
      | cut =>
        simp only [advance] at advanced
        split at advanced
        · cases advanced
          exact .abort found₁ (.inl rfl) (permits ‹_›)
        · cases advanced
      | fail =>
        simp only [advance] at advanced
        split at advanced
        · cases advanced
        · rename_i error result
          simp only [result, Ends] at ended
          split at advanced
          · cases advanced
            exact .abort found₁ ended (permits ‹_›)
          · cases advanced

theorem Solo.last {phase : Phase W S R K ε C Out X Y Resp} {rest : Service C X Out Y ε Resp}
    {w : World D W S R K ε C Out X Y Ext Req Resp}
    (solo : Solo (M := M) (fun _ _ => False) stage.world pid request phase stage.shared w)
    (last : M.Step permit w (World.set { w with shared := σ } pid request (.running rest))) :
    World.set { w with shared := σ } pid request (.running rest) =
      (stage.set pid request rest σ).world :=
  Stage.solo ((solo.mono False.elim).step last)

theorem advance_reaches {turn : Turn A} {program rest : Service C X Out Y ε Resp}
    (unread : ∀ {s d reply ws}, M.engine.plain s = true →
      M.engine.exec s d = .ok (reply, ws) → ws = [])
    (answers : ∀ choice pid x d ext,
      M.outside pid x d ext (answer choice pid x d ext).1 (answer choice pid x d ext).2)
    (permits : ∀ {σ label}, allow σ label = true → permit σ label)
    (found : stage.procs pid = some (request, program))
    (advanced : M.advance answer allow pid turn program stage.shared = some (rest, σ)) :
    M.Reaches permit stage.world (stage.set pid request rest σ).world := by
  obtain ⟨phase, w, solo, _, last⟩ := advance_step unread answers permits found advanced
  rw [← solo.last last]
  exact (solo.run.mono False.elim).tail last

/-- What a script leads to is reached. -/
theorem enact_reaches {cues : List (Cue Req A)}
    (unread : ∀ {s d reply ws}, M.engine.plain s = true →
      M.engine.exec s d = .ok (reply, ws) → ws = [])
    (answers : ∀ choice pid x d ext,
      M.outside pid x d ext (answer choice pid x d ext).1 (answer choice pid x d ext).2)
    (permits : ∀ {σ label}, allow σ label = true → permit σ label)
    (drifts : ∀ {ext ext'}, change ext = some ext' → M.drift ext ext')
    (enacted : enact M answer allow change stage cues = some stage') :
    M.Reaches permit stage.world stage'.world := by
  induction cues generalizing stage with
  | nil =>
    cases enacted
    exact .refl
  | cons cue cues ih =>
    obtain ⟨stage₁, performed, later⟩ := Option.bind_eq_some_iff.mp enacted
    refine Relation.ReflTransGen.trans ?_ (ih later)
    cases cue with
    | start pid request =>
      simp only [perform] at performed
      split at performed
      · rename_i idle
        simp only [Bool.and_eq_true, Option.isNone_iff_eq_none] at idle
        cases performed
        rw [Stage.set_world]
        exact .single (.start (by simp [Stage.world, idle.1]) (permits idle.2))
      · cases performed
    | turn pid turn =>
      obtain ⟨⟨request, program⟩, found, taken⟩ := Option.bind_eq_some_iff.mp performed
      obtain ⟨⟨rest, σ⟩, advanced, rfl⟩ := Option.map_eq_some_iff.mp taken
      exact advance_reaches unread answers permits found advanced
    | drift =>
      simp only [perform] at performed
      split at performed
      · rename_i allowed
        obtain ⟨ext, changed, rfl⟩ := Option.map_eq_some_iff.mp performed
        exact .single (.drift (permits allowed) (drifts changed))
      · cases performed

/-- A condition on steps that a check of the stages before and after a cue establishes:
steps within transactions meet it, and what a cue does at last meets it wherever the check
succeeds. Only the processes in `pids` have started. -/
structure Checks (M : System D W S R K ε C Out X Y Ext Req Resp) (pids : List Nat)
    (Good : World D W S R K ε C Out X Y Ext Req Resp →
      World D W S R K ε C Out X Y Ext Req Resp → Prop)
    (check : Stage Req C X Out Y ε Resp D Ext → Stage Req C X Out Y ε Resp D Ext → Bool) :
    Prop where
  calm : ∀ {w w'}, M.Step (fun _ _ => False) w w' → Good w w'
  last : ∀ {stage stage' : Stage Req C X Out Y ε Resp D Ext}
    {w : World D W S R K ε C Out X Y Ext Req Resp},
    check stage stage' → (∀ pid ∉ pids, stage.procs pid = none) → w.shared = stage.shared →
    (∀ pid, (w.procs pid).map (fun entry => (entry.1, entry.2.residual)) = stage.procs pid) →
      Good w stage'.world

/-- Enacts a script, with a check after every cue. -/
def enactAll (M : System D W S R K ε C Out X Y Ext Req Resp)
    (answer : A → Nat → (x : X) → D → Ext → Except ε (Y x) × Ext)
    (allow : Shared D C Ext → Label C X Req ε → Bool) (change : Ext → Option Ext)
    (check : Stage Req C X Out Y ε Resp D Ext → Stage Req C X Out Y ε Resp D Ext → Bool)
    (stage : Stage Req C X Out Y ε Resp D Ext) :
    List (Cue Req A) → Option (Stage Req C X Out Y ε Resp D Ext)
  | [] => some stage
  | cue :: cues => (perform M answer allow change stage cue).bind fun stage' =>
      if check stage stage' then enactAll M answer allow change check stage' cues else none

theorem Solo.residuals {phase : Phase W S R K ε C Out X Y Resp} {program : Service C X Out Y ε Resp}
    {w : World D W S R K ε C Out X Y Ext Req Resp}
    (solo : Solo (M := M) permit stage.world pid request phase σ w)
    (found : stage.procs pid = some (request, program))
    (same : phase.residual = program) (other : Nat) :
    (w.procs other).map (fun entry => (entry.1, entry.2.residual)) = stage.procs other := by
  by_cases here : other = pid
  · subst here
    simp [solo.phase, found, same]
  · rw [solo.others other here, Stage.world, Option.map_map]
    cases stage.procs other <;> rfl

theorem Stage.residuals (stage : Stage Req C X Out Y ε Resp D Ext) (pid : Nat) :
    ((stage.world : World D W S R K ε C Out X Y Ext Req Resp).procs pid).map
      (fun entry => (entry.1, entry.2.residual)) =
      stage.procs pid := by
  rw [Stage.world, Option.map_map]
  cases stage.procs pid <;> rfl

/-- The steps of a checked script meet the condition. -/
theorem enactAll_traces {pids : List Nat} {cues : List (Cue Req A)}
    {Good : World D W S R K ε C Out X Y Ext Req Resp →
      World D W S R K ε C Out X Y Ext Req Resp → Prop}
    {check : Stage Req C X Out Y ε Resp D Ext → Stage Req C X Out Y ε Resp D Ext → Bool}
    (unread : ∀ {s d reply ws}, M.engine.plain s = true →
      M.engine.exec s d = .ok (reply, ws) → ws = [])
    (answers : ∀ choice pid x d ext,
      M.outside pid x d ext (answer choice pid x d ext).1 (answer choice pid x d ext).2)
    (permits : ∀ {σ label}, allow σ label = true → permit σ label)
    (drifts : ∀ {ext ext'}, change ext = some ext' → M.drift ext ext')
    (checks : Checks M pids Good check)
    (listed : ∀ cue ∈ cues, ∀ pid, cue.pid = some pid → pid ∈ pids)
    (idle : ∀ pid ∉ pids, stage.procs pid = none)
    (enacted : enactAll M answer allow change check stage cues = some stage') :
    M.Traces permit Good stage.world stage'.world := by
  induction cues generalizing stage with
  | nil =>
    cases enacted
    exact .refl
  | cons cue cues ih =>
    obtain ⟨stage₁, performed, later⟩ := Option.bind_eq_some_iff.mp enacted
    split at later
    · rename_i checked
      have listed' := fun cue' member => listed cue' (List.mem_cons_of_mem cue member)
      have idle_set : ∀ {pid request program σ}, pid ∈ pids → ∀ other ∉ pids,
          (stage.set pid request program σ).procs other = none := by
        intro pid request program σ member other outside
        show Function.update stage.procs pid _ other = none
        rw [Function.update_of_ne]
        · exact idle other outside
        · rintro rfl
          exact outside member
      cases cue with
      | start pid request =>
        simp only [perform] at performed
        split at performed
        · rename_i free
          simp only [Bool.and_eq_true, Option.isNone_iff_eq_none] at free
          cases performed
          have good := checks.last checked idle rfl stage.residuals
          refine .trans ?_ (ih listed' (idle_set (listed _ List.mem_cons_self pid rfl)) later)
          rw [Stage.set_world] at good ⊢
          exact .single ⟨.start (by simp [Stage.world, free.1]) (permits free.2), good⟩
        · cases performed
      | turn pid turn =>
        obtain ⟨⟨request, program⟩, found, taken⟩ := Option.bind_eq_some_iff.mp performed
        obtain ⟨⟨rest, σ⟩, advanced, rfl⟩ := Option.map_eq_some_iff.mp taken
        obtain ⟨phase, w, solo, same, last⟩ := advance_step unread answers permits found advanced
        have good := checks.last checked idle solo.shared (solo.residuals found same)
        refine .trans (.tail (solo.run.traces checks.calm) (?_ : _ ∧ _))
          (ih listed' (idle_set (listed _ List.mem_cons_self pid rfl)) later)
        rw [← solo.last last] at good ⊢
        exact ⟨last, good⟩
      | drift =>
        simp only [perform] at performed
        split at performed
        · rename_i allowed
          obtain ⟨ext, changed, rfl⟩ := Option.map_eq_some_iff.mp performed
          have good := checks.last checked idle rfl stage.residuals
          refine .trans (.single ⟨.drift (permits allowed) (drifts changed), good⟩)
            (ih listed' ?_ later)
          exact idle
        · cases performed
    · cases later

end Reaching
end System
end Foundation
