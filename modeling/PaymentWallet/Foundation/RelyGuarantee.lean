import PaymentWallet.Foundation.Serializability

/-! Rely-guarantee reasoning for service programs. Each process promises that its
commits and outside steps move the shared state by `Guar`; what it knows between
two of its own steps has to survive the promises of all others. The weakest
precondition of a program is taken step by step over its finite tree, and every
transaction of it through the precondition of its body. -/
namespace Foundation

variable {D W S K ε C X Ext Req Resp α β : Type} {R : S → Type} {Out : C → Type} {Y : X → Type}

/-- `Inv` holds between any two steps, `Guar pid` bounds what process `pid` does
to the shared state, and `Post` is what its response promises. -/
structure Protocol (M : System D W S R K ε C Out X Y Ext Req Resp)
    (permit : Shared D C Ext → Label C X Req ε → Prop) where
  Inv : Shared D C Ext → Prop
  Guar : Nat → Shared D C Ext → Shared D C Ext → Prop
  Post : Nat → Req → Except ε Resp → Shared D C Ext → Prop
  guar_inv : ∀ {pid σ σ'}, Inv σ → Guar pid σ σ' → Inv σ'
  drift_inv : ∀ {σ ext}, Inv σ → permit σ .drift → M.drift σ.ext ext → Inv { σ with ext := ext }

namespace Protocol
variable {M : System D W S R K ε C Out X Y Ext Req Resp}
  {permit : Shared D C Ext → Label C X Req ε → Prop} (P : Protocol M permit)

/-- One move of the shared state, by a process satisfying `who` or by drift. -/
def Moves (who : Nat → Prop) (σ σ' : Shared D C Ext) : Prop :=
  P.Inv σ ∧ ((∃ pid, who pid ∧ P.Guar pid σ σ') ∨
    ∃ ext, permit σ .drift ∧ M.drift σ.ext ext ∧ σ' = { σ with ext := ext })

/-- What process `pid` has to expect between two of its own steps. -/
def Rely (pid : Nat) : Shared D C Ext → Shared D C Ext → Prop :=
  Relation.ReflTransGen (P.Moves (· ≠ pid))

def wp (Valid : (s : S) → R s → D → Prop) (pid : Nat) :
    Service C X Out Y ε α → (Except ε α → Shared D C Ext → Prop) → Shared D C Ext → Prop
  | .pure value, Q, σ => ∀ σ', P.Rely pid σ σ' → P.Inv σ' → Q (.ok value) σ'
  | .throw error, Q, σ => ∀ σ', P.Rely pid σ σ' → P.Inv σ' → Q (.error error) σ'
  | .call (.outside x) next, Q, σ => ∀ σ', P.Rely pid σ σ' → P.Inv σ' →
      permit σ' (.outside pid x) → ∀ reply ext, M.outside pid x σ'.db σ'.ext reply ext →
        P.Guar pid σ' { σ' with ext := ext } ∧ wp Valid pid (next reply) Q { σ' with ext := ext }
  | .call (.transact c) next, Q, σ => ∀ σ', P.Rely pid σ σ' → P.Inv σ' →
      M.engine.wp Valid σ'.db (M.code c) σ'.db (fun value db =>
        (permit σ' (.commit pid c) → P.Guar pid σ' (σ'.commit c db) ∧
          wp Valid pid (next (.ok value)) Q (σ'.commit c db)) ∧
        (permit σ' (.lost pid c) → P.Guar pid σ' (σ'.commit c db) ∧
          wp Valid pid (next (.error M.lost)) Q (σ'.commit c db))) ∧
      ∀ error, permit σ' (.abort pid c error) → wp Valid pid (next (.error error)) Q σ'

variable {P} {Valid : (s : S) → R s → D → Prop} {pid : Nat}
  {Q : Except ε α → Shared D C Ext → Prop} {σ σ' : Shared D C Ext}

theorem Rely.refl : P.Rely pid σ σ := Relation.ReflTransGen.refl

/-- A fact that every foreign move keeps survives interference. -/
theorem Rely.stable {F : Shared D C Ext → Prop} (rely : P.Rely pid σ σ')
    (keeps : ∀ {σ σ'}, F σ → P.Moves (· ≠ pid) σ σ' → F σ') (holds : F σ) : F σ' := by
  induction rely with
  | refl => exact holds
  | tail _ move ih => exact keeps ih move

theorem wp_rely {p : Service C X Out Y ε α} (h : P.wp Valid pid p Q σ) (rely : P.Rely pid σ σ') :
    P.wp Valid pid p Q σ' := by
  match p with
  | .pure _ => exact fun σ₁ later => h σ₁ (rely.trans later)
  | .throw _ => exact fun σ₁ later => h σ₁ (rely.trans later)
  | .call (.outside _) _ => exact fun σ₁ later => h σ₁ (rely.trans later)
  | .call (.transact _) _ => exact fun σ₁ later => h σ₁ (rely.trans later)

theorem wp_mono {p : Service C X Out Y ε α} {Q' : Except ε α → Shared D C Ext → Prop}
    (h : P.wp Valid pid p Q σ) (weaker : ∀ result σ, P.Inv σ → Q result σ → Q' result σ) :
    P.wp Valid pid p Q' σ := by
  induction p generalizing σ with
  | pure value => exact fun σ' rely inv => weaker _ _ inv (h σ' rely inv)
  | throw error => exact fun σ' rely inv => weaker _ _ inv (h σ' rely inv)
  | call op next ih =>
    cases op with
    | outside x =>
      intro σ' rely inv permitted reply ext replied
      obtain ⟨guar, rest⟩ := h σ' rely inv permitted reply ext replied
      exact ⟨guar, ih _ rest⟩
    | transact c =>
      intro σ' rely inv
      obtain ⟨body, failed⟩ := h σ' rely inv
      refine ⟨M.engine.wp_mono body fun value db post =>
        ⟨fun permitted => ?_, fun permitted => ?_⟩, ?_⟩
      · exact ⟨(post.1 permitted).1, ih _ (post.1 permitted).2⟩
      · exact ⟨(post.2 permitted).1, ih _ (post.2 permitted).2⟩
      · exact fun error permitted => ih _ (failed error permitted)

/-- Sequencing and handling at once: `g` continues after a value, `h` after an
exception, and neither is entered outside the invariant. -/
theorem wp_continue {p : Service C X Out Y ε α} {q : Service C X Out Y ε β}
    {Q : Except ε β → Shared D C Ext → Prop}
    (f : Service C X Out Y ε α → Service C X Out Y ε β) (same : f p = q)
    (call : ∀ op next, f (.call op next) = .call op fun reply => f (next reply))
    (h : P.wp Valid pid p (fun result σ' => P.wp Valid pid
      (f (match result with | .ok value => .pure value | .error error => .throw error)) Q σ') σ)
    (inv : P.Inv σ) : P.wp Valid pid q Q σ := by
  subst same
  induction p generalizing σ with
  | pure value => exact h σ .refl inv
  | throw error => exact h σ .refl inv
  | call op next ih =>
    rw [call]
    cases op with
    | outside x =>
      intro σ' rely inv' permitted reply ext replied
      obtain ⟨guar, rest⟩ := h σ' rely inv' permitted reply ext replied
      exact ⟨guar, ih reply rest (P.guar_inv inv' guar)⟩
    | transact c =>
      intro σ' rely inv'
      obtain ⟨body, failed⟩ := h σ' rely inv'
      refine ⟨M.engine.wp_mono body fun value db post =>
        ⟨fun permitted => ?_, fun permitted => ?_⟩, ?_⟩
      · obtain ⟨guar, rest⟩ := post.1 permitted
        exact ⟨guar, ih _ rest (P.guar_inv inv' guar)⟩
      · obtain ⟨guar, rest⟩ := post.2 permitted
        exact ⟨guar, ih _ rest (P.guar_inv inv' guar)⟩
      · exact fun error permitted => ih _ (failed error permitted) inv'

theorem wp_bind {p : Service C X Out Y ε α} {f : α → Service C X Out Y ε β}
    {Q : Except ε β → Shared D C Ext → Prop} (inv : P.Inv σ)
    (h : P.wp Valid pid p (fun
      | .ok value, σ' => P.wp Valid pid (f value) Q σ'
      | .error error, σ' => P.wp Valid pid (.throw error) Q σ') σ) :
    P.wp Valid pid (p.bind f) Q σ := by
  refine wp_continue (fun p => p.bind f) rfl (fun _ _ => rfl) (wp_mono h ?_) inv
  intro result σ _ post
  cases result <;> exact post

theorem wp_handle {p : Service C X Out Y ε α} {h : ε → Service C X Out Y ε α} (inv : P.Inv σ)
    (body : P.wp Valid pid p (fun
      | .ok value, σ' => P.wp Valid pid (.pure value) Q σ'
      | .error error, σ' => P.wp Valid pid (h error) Q σ') σ) :
    P.wp Valid pid (p.handle h) Q σ := by
  refine wp_continue (fun p => p.handle h) rfl (fun _ _ => rfl) (wp_mono body ?_) inv
  intro result σ _ post
  cases result <;> exact post

/-- The frame rule: a fact that every promised move keeps holds to the end. -/
theorem wp_frame {p : Service C X Out Y ε α} {F : Shared D C Ext → Prop}
    (keeps : ∀ {σ σ'}, F σ → P.Moves (fun _ => True) σ σ' → F σ') (h : P.wp Valid pid p Q σ)
    (inv : P.Inv σ) (holds : F σ) : P.wp Valid pid p (fun result σ' => Q result σ' ∧ F σ') σ := by
  have foreign : ∀ {σ σ'}, F σ → P.Moves (· ≠ pid) σ σ' → F σ' := by
    intro σ σ' here move
    refine keeps here ⟨move.1, move.2.imp_left ?_⟩
    rintro ⟨other, _, guar⟩
    exact ⟨other, trivial, guar⟩
  have own : ∀ {σ σ'}, P.Inv σ → F σ → P.Guar pid σ σ' → F σ' :=
    fun inv here guar => keeps here ⟨inv, .inl ⟨pid, trivial, guar⟩⟩
  induction p generalizing σ with
  | pure value => exact fun σ' rely inv' => ⟨h σ' rely inv', rely.stable foreign holds⟩
  | throw error => exact fun σ' rely inv' => ⟨h σ' rely inv', rely.stable foreign holds⟩
  | call op next ih =>
    cases op with
    | outside x =>
      intro σ' rely inv' permitted reply ext replied
      obtain ⟨guar, rest⟩ := h σ' rely inv' permitted reply ext replied
      exact ⟨guar, ih _ rest (P.guar_inv inv' guar) (own inv' (rely.stable foreign holds) guar)⟩
    | transact c =>
      intro σ' rely inv'
      have here := rely.stable foreign holds
      obtain ⟨body, failed⟩ := h σ' rely inv'
      refine ⟨M.engine.wp_mono body fun value db post =>
        ⟨fun permitted => ?_, fun permitted => ?_⟩, ?_⟩
      · obtain ⟨guar, rest⟩ := post.1 permitted
        exact ⟨guar, ih _ rest (P.guar_inv inv' guar) (own inv' here guar)⟩
      · obtain ⟨guar, rest⟩ := post.2 permitted
        exact ⟨guar, ih _ rest (P.guar_inv inv' guar) (own inv' here guar)⟩
      · exact fun error permitted => ih _ (failed error permitted) inv' here

/-- Every process behaves: the invariant holds and each residual program meets
its precondition. -/
structure Safe (P : Protocol M permit) (allowed : C → Prop) (Valid : (s : S) → R s → D → Prop)
    (w : World D W S R K ε C Out X Y Ext Req Resp) : Prop where
  orderly : w.Orderly M allowed Valid
  inv : P.Inv w.shared
  procs : ∀ {pid request phase}, w.procs pid = some (request, phase) →
    P.wp Valid pid phase.residual (P.Post pid request) w.shared

variable {allowed : C → Prop} {good : S → Prop} {Same : K → D → D → Prop} {Grows : D → D → Prop}
  {w w' : World D W S R K ε C Out X Y Ext Req Resp}

/-- The shared state stays, or process `pid` moves it by its guarantee. -/
theorem Safe.update (safe : P.Safe allowed Valid w) {phase : Phase W S R K ε C Out X Y Resp}
    (orderly : (World.set { w with shared := σ } pid request phase).Orderly M allowed Valid)
    (moved : σ = w.shared ∨ P.Guar pid w.shared σ)
    (own : P.wp Valid pid phase.residual (P.Post pid request) σ) :
    P.Safe allowed Valid (World.set { w with shared := σ } pid request phase) := by
  refine ⟨orderly, ?_, ?_⟩
  · rcases moved with rfl | guar
    · exact safe.inv
    · exact P.guar_inv safe.inv guar
  · intro other req ph found
    by_cases h : other = pid
    · subst other
      cases (World.set_same _ _ _ _).symm.trans found
      exact own
    · rw [World.set_other _ _ _ h] at found
      rcases moved with rfl | guar
      · exact safe.procs found
      · exact wp_rely (safe.procs found) (.single ⟨safe.inv, .inl ⟨pid, Ne.symm h, guar⟩⟩)

/-- Each step of a safe world is safe, and moves the shared state as promised. -/
theorem Safe.step (disciplined : M.Disciplined permit allowed good Same Valid Grows)
    (starts : ∀ {σ pid request}, P.Inv σ → permit σ (.start pid request) →
      P.wp Valid pid (M.handler request) (P.Post pid request) σ)
    (safe : P.Safe allowed Valid w) (taken : M.Step permit w w') :
    P.Safe allowed Valid w' ∧
      (w'.shared = w.shared ∨ P.Moves (fun _ => True) w.shared w'.shared) := by
  have orderly := safe.orderly.step disciplined taken
  have committed : ∀ {pid request c value writes held next},
      w.procs pid = some (request, .inTx c (.pure value) writes held next) →
      (permit w.shared (.commit pid c) →
        P.Guar pid w.shared (w.shared.commit c (M.engine.view w.shared.db writes)) ∧
        P.wp Valid pid (next (.ok value)) (P.Post pid request)
          (w.shared.commit c (M.engine.view w.shared.db writes))) ∧
      (permit w.shared (.lost pid c) →
        P.Guar pid w.shared (w.shared.commit c (M.engine.view w.shared.db writes)) ∧
        P.wp Valid pid (next (.error M.lost)) (P.Post pid request)
          (w.shared.commit c (M.engine.view w.shared.db writes))) := by
    intro pid request c value writes held next found
    exact (safe.orderly.follows found).wp (safe.procs found _ .refl safe.inv).1
  cases taken with
  | start idle permitted =>
    exact ⟨safe.update orderly (.inl rfl) (starts safe.inv permitted), .inl rfl⟩
  | outside found permitted replied =>
    obtain ⟨guar, rest⟩ := safe.procs found _ .refl safe.inv permitted _ _ replied
    exact ⟨safe.update orderly (.inr guar) rest, .inr ⟨safe.inv, .inl ⟨_, trivial, guar⟩⟩⟩
  | begin found =>
    have own := safe.procs found
    exact ⟨safe.update orderly (.inl rfl) own, .inl rfl⟩
  | read found plain exec =>
    have own := safe.procs found
    exact ⟨safe.update orderly (.inl rfl) own, .inl rfl⟩
  | write found locked free exec =>
    have own := safe.procs found
    exact ⟨safe.update orderly (.inl rfl) own, .inl rfl⟩
  | commit found permitted =>
    obtain ⟨guar, rest⟩ := (committed found).1 permitted
    exact ⟨safe.update orderly (.inr guar) rest, .inr ⟨safe.inv, .inl ⟨_, trivial, guar⟩⟩⟩
  | lost found permitted =>
    obtain ⟨guar, rest⟩ := (committed found).2 permitted
    exact ⟨safe.update orderly (.inr guar) rest, .inr ⟨safe.inv, .inl ⟨_, trivial, guar⟩⟩⟩
  | abort found aborts permitted =>
    have rest := (safe.procs found _ .refl safe.inv).2 _ permitted
    exact ⟨safe.update orderly (.inl rfl) rest, .inl rfl⟩
  | drift permitted drifted =>
    rename_i ext
    have move : P.Moves (fun _ => True) w.shared { w.shared with ext := ext } :=
      ⟨safe.inv, .inr ⟨ext, permitted, drifted, rfl⟩⟩
    refine ⟨⟨orderly, P.drift_inv safe.inv permitted drifted,
      fun {other req ph} found => ?_⟩, .inr move⟩
    exact wp_rely (safe.procs found) (.single ⟨safe.inv, .inr ⟨ext, permitted, drifted, rfl⟩⟩)

/-- Soundness: every world reachable from a safe one is safe, and its shared
state evolved by promised moves only. -/
theorem Safe.reaches (disciplined : M.Disciplined permit allowed good Same Valid Grows)
    (starts : ∀ {σ pid request}, P.Inv σ → permit σ (.start pid request) →
      P.wp Valid pid (M.handler request) (P.Post pid request) σ)
    (safe : P.Safe allowed Valid w) (run : M.Reaches permit w w') :
    P.Safe allowed Valid w' ∧
      Relation.ReflTransGen (P.Moves fun _ => True) w.shared w'.shared := by
  induction run with
  | refl => exact ⟨safe, .refl⟩
  | tail _ last ih =>
    obtain ⟨next, moved⟩ := ih.1.step disciplined starts last
    refine ⟨next, ?_⟩
    rcases moved with same | move
    · exact same ▸ ih.2
    · exact ih.2.tail move

/-- What a step of a safe world did to the shared state: it left store and log alone, or
it committed what the transaction does alone on the store before. -/
theorem Safe.committed (safe : P.Safe allowed Valid w) (taken : M.Step permit w w') :
    w'.shared.db = w.shared.db ∧ w'.shared.log = w.shared.log ∨
    ∃ pid c value db, (permit w.shared (.commit pid c) ∨ permit w.shared (.lost pid c)) ∧
      w'.shared = w.shared.commit c db ∧ P.Guar pid w.shared (w.shared.commit c db) ∧
      ∀ Q, M.engine.wp Valid w.shared.db (M.code c) w.shared.db Q → Q value db := by
  cases taken with
  | start | outside | begin | read | write | abort | drift => exact .inl ⟨rfl, rfl⟩
  | commit found permitted =>
    have follows := safe.orderly.follows found
    exact .inr ⟨_, _, _, _, .inl permitted, rfl,
      ((follows.wp (safe.procs found _ .refl safe.inv).1).1 permitted).1,
        fun _ body => follows.wp body⟩
  | lost found permitted =>
    have follows := safe.orderly.follows found
    exact .inr ⟨_, _, _, _, .inr permitted, rfl,
      ((follows.wp (safe.procs found _ .refl safe.inv).1).2 permitted).1,
        fun _ body => follows.wp body⟩

theorem Safe.init (inv : P.Inv ⟨db, [], ext⟩) :
    P.Safe allowed Valid (World.init db ext : World D W S R K ε C Out X Y Ext Req Resp) :=
  ⟨.init db ext, inv, fun h => by cases h⟩

end Protocol
end Foundation
