import PaymentWallet.Foundation.World

/-! Strict two-phase locking is serializable in commit order. The invariant of
every reachable world: no two processes hold one key, and each open transaction
replays alone from the store committed so far. A commit therefore is the run of
that transaction alone, whatever was interleaved with it. -/
namespace Foundation

/-- The operation is outside the database or an allowed transaction. -/
def Calls {C X : Type} (allowed : C → Prop) : ServiceOp C X → Prop
  | .transact c => allowed c
  | .outside _ => True

variable {D W S K ε C X Ext Req Resp : Type} {R : S → Type} {Out : C → Type} {Y : X → Type}

/-- An open transaction replays alone from the committed store `d`. -/
def Phase.Follows (M : System D W S R K ε C Out X Y Ext Req Resp)
    (Valid : (s : S) → R s → D → Prop) (d : D) : Phase W S R K ε C Out X Y Resp → Prop
  | .running _ => True
  | .inTx c body writes held _ => Engine.Replay M.engine Valid (M.code c) d held body writes

structure World.Orderly (M : System D W S R K ε C Out X Y Ext Req Resp) (allowed : C → Prop)
    (Valid : (s : S) → R s → D → Prop) (w : World D W S R K ε C Out X Y Ext Req Resp) : Prop where
  calls : ∀ {pid request phase}, w.procs pid = some (request, phase) →
    phase.residual.All (Calls allowed)
  follows : ∀ {pid request phase}, w.procs pid = some (request, phase) →
    phase.Follows M Valid w.shared.db
  exclusive : ∀ {pid other k}, other ≠ pid → w.Holds pid k → ¬ w.Holds other k

/-- What the theory asks of a system: locks that protect, plain reads that stay
valid, and processes that run allowed transactions only. -/
structure System.Disciplined (M : System D W S R K ε C Out X Y Ext Req Resp)
    (permit : Shared D C Ext → Label C X Req ε → Prop) (allowed : C → Prop) (good : S → Prop)
    (Same : K → D → D → Prop) (Valid : (s : S) → R s → D → Prop) (Grows : D → D → Prop) : Prop where
  locking : M.engine.Locking Same
  stability : M.engine.Stability good Valid Grows
  code : ∀ c, allowed c → (M.code c).All good
  start : ∀ {σ pid request}, permit σ (.start pid request) → (M.handler request).All (Calls allowed)

namespace World.Orderly
variable {M : System D W S R K ε C Out X Y Ext Req Resp}
  {permit : Shared D C Ext → Label C X Req ε → Prop} {allowed : C → Prop} {good : S → Prop}
  {Same : K → D → D → Prop} {Valid : (s : S) → R s → D → Prop} {Grows : D → D → Prop}
  {w w' : World D W S R K ε C Out X Y Ext Req Resp}

theorem init (db : D) (ext : Ext) :
    Orderly M allowed Valid (World.init db ext : World D W S R K ε C Out X Y Ext Req Resp) where
  calls h := by cases h
  follows h := by cases h
  exclusive := by
    rintro pid other k _ ⟨request, phase, h, _⟩
    cases h

/-- One process moves to `phase`, and the committed store to one that every other
open transaction still replays from. -/
theorem move (orderly : Orderly M allowed Valid w) (request : Req)
    {phase : Phase W S R K ε C Out X Y Resp} (σ : Shared D C Ext)
    (calls : phase.residual.All (Calls allowed)) (follows : phase.Follows M Valid σ.db)
    (free : ∀ k ∈ phase.held, ∀ other, other ≠ pid → ¬ w.Holds other k)
    (others : ∀ {other request phase}, other ≠ pid → w.procs other = some (request, phase) →
      phase.Follows M Valid σ.db) :
    Orderly M allowed Valid (World.set { w with shared := σ } pid request phase) := by
  have holds : ∀ {other k}, (World.set { w with shared := σ } pid request phase).Holds other k →
      (other = pid ∧ k ∈ phase.held) ∨ (other ≠ pid ∧ w.Holds other k) := by
    rintro other k ⟨req, ph, found, member⟩
    by_cases h : other = pid
    · subst other
      cases (World.set_same _ _ _ _).symm.trans found
      exact .inl ⟨rfl, member⟩
    · rw [World.set_other _ _ _ h] at found
      exact .inr ⟨h, req, ph, found, member⟩
  constructor
  · intro other req ph found
    by_cases h : other = pid
    · subst other
      cases (World.set_same _ _ _ _).symm.trans found
      exact calls
    · rw [World.set_other _ _ _ h] at found
      exact orderly.calls found
  · intro other req ph found
    by_cases h : other = pid
    · subst other
      cases (World.set_same _ _ _ _).symm.trans found
      exact follows
    · rw [World.set_other _ _ _ h] at found
      exact others h found
  · intro first second k different left right
    rcases holds left with ⟨rfl, hl⟩ | ⟨nl, hl⟩ <;> rcases holds right with ⟨rfl, hr⟩ | ⟨nr, hr⟩
    · exact different rfl
    · exact free k hl second nr hr
    · exact free k hr first nl hl
    · exact orderly.exclusive different hl hr

/-- A commit leaves every other open transaction replayable: it wrote only
within keys that it alone held. -/
theorem commit_others (orderly : Orderly M allowed Valid w)
    (disciplined : M.Disciplined permit allowed good Same Valid Grows)
    (found : w.procs pid = some (request, .inTx c body writes held next))
    (different : other ≠ pid) (open_ : w.procs other = some (req, phase)) :
    phase.Follows M Valid (M.engine.view w.shared.db writes) := by
  cases phase with
  | running program => trivial
  | inTx c' body' writes' held' next' =>
    have mine := orderly.follows found
    have yours := orderly.follows open_
    have allowedMine : allowed c := (orderly.calls found).1
    have allowedYours : allowed c' := (orderly.calls open_).1
    refine (yours.frame disciplined.locking disciplined.stability (disciplined.code _ allowedYours)
      (fun k hk => ?_) (mine.grows disciplined.stability (disciplined.code _ allowedMine))).1
    refine mine.write_local disciplined.locking fun hp => ?_
    exact orderly.exclusive different ⟨_, _, found, hp⟩ ⟨_, _, open_, hk⟩

theorem step (disciplined : M.Disciplined permit allowed good Same Valid Grows)
    (orderly : Orderly M allowed Valid w) (taken : M.Step permit w w') :
    Orderly M allowed Valid w' := by
  have stay : ∀ {pid other : Nat} {request phase}, other ≠ pid →
      w.procs other = some (request, phase) → phase.Follows M Valid w.shared.db :=
    fun _ found => orderly.follows found
  have keep : ∀ {pid request c body writes held next},
      w.procs pid = some (request, .inTx c body writes held next) →
      ∀ k ∈ held, ∀ other, other ≠ pid → ¬ w.Holds other k :=
    fun found k hk other different => orderly.exclusive different ⟨_, _, found, hk⟩
  cases taken with
  | start idle permitted =>
    exact orderly.move _ w.shared (disciplined.start permitted) trivial (by simp [Phase.held]) stay
  | outside found permitted replied =>
    exact orderly.move _ _ ((orderly.calls found).2 _) trivial (by simp [Phase.held]) stay
  | begin found =>
    have calls := orderly.calls found
    exact orderly.move _ w.shared calls .start (by simp [Phase.held]) stay
  | read found plain exec =>
    have calls := orderly.calls found
    have good := disciplined.code _ calls.1
    have replay := orderly.follows found
    exact orderly.move _ w.shared calls
      (.read replay plain (disciplined.stability.read_valid (replay.all good).1 plain exec))
      (keep found) stay
  | write found locked free exec =>
    have calls := orderly.calls found
    have replay := orderly.follows found
    refine orderly.move _ w.shared calls ?_ ?_ stay
    · refine .write (replay.weaken fun k hk => List.mem_append_left _ hk) locked ?_ exec
      exact fun k hk => List.mem_append_right _ hk
    · intro k hk other different
      rcases List.mem_append.mp hk with old | new
      · exact keep found k old other different
      · exact free k new other different
  | commit found permitted =>
    exact orderly.move _ _ ((orderly.calls found).2 _) trivial (by simp [Phase.held])
      fun different open_ => orderly.commit_others disciplined found different open_
  | lost found permitted =>
    exact orderly.move _ _ ((orderly.calls found).2 _) trivial (by simp [Phase.held])
      fun different open_ => orderly.commit_others disciplined found different open_
  | abort found aborts permitted =>
    exact orderly.move _ w.shared ((orderly.calls found).2 _) trivial (by simp [Phase.held]) stay
  | drift permitted drifted =>
    exact ⟨orderly.calls, orderly.follows, orderly.exclusive⟩

theorem reaches (disciplined : M.Disciplined permit allowed good Same Valid Grows)
    (orderly : Orderly M allowed Valid w) (run : M.Reaches permit w w') :
    Orderly M allowed Valid w' := by
  induction run with
  | refl => exact orderly
  | tail _ last ih => exact ih.step disciplined last

end World.Orderly

section Serial
variable {M : System D W S R K ε C Out X Y Ext Req Resp}
  {permit : Shared D C Ext → Label C X Req ε → Prop} {allowed : C → Prop} {good : S → Prop}
  {Same : K → D → D → Prop} {Valid : (s : S) → R s → D → Prop} {Grows : D → D → Prop}
  {w w' : World D W S R K ε C Out X Y Ext Req Resp}

theorem Engine.runAll_snoc (E : Engine D W S R K ε) (code : (c : C) → Program S R ε (Out c))
    {calls : List C} {c : C} {d₀ d d' : D} {value : Out c} (before : E.runAll code calls d₀ = .ok d)
    (last : E.run d (code c) d = .ok (value, d')) : E.runAll code (calls ++ [c]) d₀ = .ok d' := by
  induction calls generalizing d₀ with
  | nil =>
    cases before
    simp only [List.nil_append, runAll, last]
  | cons head tail ih =>
    simp only [List.cons_append, runAll] at before ⊢
    split at before
    · contradiction
    · exact ih before

/-- Strict two-phase locking: where plain reads are exact, the committed store of
every reachable world is that of the committed transactions run one after the
other in commit order. -/
theorem System.serializable (disciplined : M.Disciplined permit allowed good Same Valid Grows)
    (exact : ∀ s reply d, M.engine.plain s = true → Valid s reply d →
      M.engine.exec s d = .ok (reply, []))
    (run : M.Reaches permit (World.init d₀ ext₀) w) :
    M.engine.runAll M.code w.shared.log d₀ = .ok w.shared.db := by
  induction run with
  | refl => rfl
  | @tail w w' before last ih =>
    have orderly : World.Orderly M allowed Valid w :=
      (World.Orderly.init d₀ ext₀).reaches disciplined before
    have alone : ∀ {pid request c value writes held next},
        w.procs pid = some (request, .inTx c (.pure value) writes held next) →
        M.engine.runAll M.code (w.shared.log ++
          [c]) d₀ = .ok (M.engine.view w.shared.db writes) := by
      intro pid request c value writes held next found
      have replay := orderly.follows found
      exact M.engine.runAll_snoc M.code ih (replay.run fun s reply => exact s reply _)
    cases last with
    | start | outside | begin | read | write | abort | drift => exact ih
    | commit found _ => exact alone found
    | lost found _ => exact alone found

/-- Only allowed transactions commit. -/
theorem System.log_allowed (disciplined : M.Disciplined permit allowed good Same Valid Grows)
    (run : M.Reaches permit (World.init d₀ ext₀) w) : ∀ c ∈ w.shared.log, allowed c := by
  induction run with
  | refl => exact fun c member => by cases member
  | @tail w w' before last ih =>
    have orderly : World.Orderly M allowed Valid w :=
      (World.Orderly.init d₀ ext₀).reaches disciplined before
    have added : ∀ {pid request c value writes held next},
        w.procs pid = some (request, .inTx c (.pure value) writes held next) →
        ∀ other ∈ w.shared.log ++ [c], allowed other := by
      intro pid request c value writes held next found other member
      rcases List.mem_append.mp member with old | new
      · exact ih other old
      · exact List.mem_singleton.mp new ▸ (orderly.calls found).1
    cases last with
    | start | outside | begin | read | write | abort | drift => exact ih
    | commit found _ => exact added found
    | lost found _ => exact added found

end Serial
section Keys
variable {M : System D W S R K ε C Out X Y Ext Req Resp}
  {permit : Shared D C Ext → Label C X Req ε → Prop} {w : World D W S R K ε C Out X Y Ext Req Resp}

/-- Whoever returns has taken the key on the way. -/
def Engine.Acquires (E : Engine D W S R K ε) (k : K) (body : Program S R ε α) : Prop :=
  body.Through fun s _ => E.plain s = false ∧ ∀ d, k ∈ E.keys s d

/-- The key is held, or still to be taken. -/
def Phase.Acquiring (M : System D W S R K ε C Out X Y Ext Req Resp) (k : K) :
    Phase W S R K ε C Out X Y Resp → Prop
  | .running _ => True
  | .inTx c body _ held _ => M.engine.Acquires k (M.code c) → k ∈ held ∨ M.engine.Acquires k body

/-- A key that every run of a transaction takes is held when it commits. -/
theorem System.held_at_commit {db : D} {ext : Ext} (run : M.Reaches permit (World.init db ext) w)
    {k : K} {c : C} {value : Out c}
    {writes : List W} {held : List K} {next : Except ε (Out c) → Service C X Out Y ε Resp}
    {pid : Nat} {request : Req} (takes : M.engine.Acquires k (M.code c))
    (found : w.procs pid = some (request, .inTx c (.pure value) writes held next)) : k ∈ held := by
  have taking : ∀ pid request phase, w.procs pid = some (request, phase) → phase.Acquiring M k := by
    refine run.proc (F := fun _ _ phase => phase.Acquiring M k) (fun _ => trivial)
      (fun _ before taken => ?_) ?_
    · cases taken with
      | outside | commit | fail => trivial
      | begin => exact fun takes => .inr takes
      | read plain exec =>
        intro takes
        exact (before takes).imp_right fun body => (body _).resolve_left fun passes =>
          Bool.false_ne_true (passes.1.symm.trans plain)
      | write locked exec =>
        intro takes
        rcases before takes with mine | body
        · exact .inl (List.mem_append_left _ mine)
        · exact (body _).imp_left fun passes => List.mem_append_right _ (passes.2 _)
    · rintro pid request phase ⟨⟩
  exact (taking pid request _ found takes).resolve_right id

end Keys
end Foundation
