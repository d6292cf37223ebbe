import PaymentWallet.Guarantees.Rotation
import PaymentWallet.Sessions.Revocations

/-! When a presented token is taken for a stolen one. The class of a token depends on
when it was revoked, not on what revoked it, so a session that was ended by a logout
or an eviction counts as reused once the grace period is over. -/
namespace PaymentWallet.Sessions
open Foundation

/-- The next transaction, open or not, revokes all sessions of a user. -/
def RevokesAll (p : Svc α) : Prop :=
  ∃ userId next, p = .call (.transact (.revokeAllUserTokens userId)) next

/-- Whoever revokes all sessions over a presented token does so after its rotation. -/
def Justified (config : Config) (w : State) : Prop :=
  ∀ pid request phase refreshToken, w.procs pid = some (request, phase) →
    request.presents = some refreshToken →
    RevokesAll phase.residual → ∃ c ∈ w.shared.log, c.exchanges (config.hashToken refreshToken)

/-- Runs in which a token that no rotation revoked is looked at within the grace
period of its revocation, or once it has expired. -/
def presented : Permit
  | σ, .outside _ (.withinGrace token revokedAt) =>
    σ.db.now - revokedAt ≤ gracePeriodSeconds * 1000 ∨ ∃ c ∈ σ.log, c.exchanges token.tokenHash
  | _, _ => True

instance (σ : SharedState) (label : Label TxCall Outside Request Exception) :
    Decidable (presented σ label) := by
  unfold presented
  split <;> infer_instance

/-- The program is in no position to revoke all sessions, except that it continues
with `Late` where a token with the hash is out of its grace period. Elsewhere it
returns with `Q`. -/
def Warranted (hash : String) (Late : Svc α → Prop) (Q : α → Prop) : Svc α → Prop
  | .pure value => Q value
  | .throw _ => True
  | .call (.transact c) next =>
    (∀ userId, c ≠ .revokeAllUserTokens userId) ∧ ∀ result, Warranted hash Late Q (next result)
  | .call (.outside (.withinGrace token _)) next =>
    token.tokenHash = hash ∧ Late (next (.ok false)) ∧ ∀ reply, reply ≠ .ok false →
      Warranted hash Late Q (next reply)
  | .call (.outside (.findToken tokenHash)) next => ∀ reply,
    (∀ token, reply = .ok (some token) → token.tokenHash = tokenHash) →
      Warranted hash Late Q (next reply)
  | .call (.outside _) next => ∀ reply, Warranted hash Late Q (next reply)

/-- No look at a grace period. -/
def Blind : ServiceOp TxCall Outside → Prop
  | .transact _ => True
  | .outside x => ∀ token revokedAt, x ≠ .withinGrace token revokedAt

theorem blind_admits : Admits Blind where
  outside x common := by
    cases x with
    | withinGrace => cases common
    | _ => exact nofun
  ends _ _ := trivial

theorem blind_handler {config : Config} {request : Request} (presents : request.presents = none) :
    (request.handler config).All Blind := by
  refine all_handler blind_admits request ?_ (fun _ _ _ => trivial) ?_ fun _ => ⟨nofun, nofun⟩
  · rintro refreshToken rfl
    cases presents
  · rintro ⟨_, _, _, rfl⟩
    cases presents

section Looks
variable {config : Config} {w : State} {pid : Nat} {request : Request} {token : RefreshToken}
  {revokedAt : DateTime} {next : Except Exception Bool → Svc Response}

def Caused (token : RefreshToken) (σ : SharedState) : Prop :=
  ∃ c ∈ σ.log, c.Revokes token.userId token.tokenHash

/-- Who finds a revoked token knows that there is something that revoked it. -/
def Tells : (op : ServiceOp TxCall Outside) →
    Except Exception (op.Result TxCall.Out Outside.Reply) → SharedState → Prop
  | .outside (.findToken _), .ok (some token), σ => token.revokedAt.isSome → Caused token σ
  | _, _, _ => True

/-- Only tokens that something revoked are looked at. -/
def Looks : ServiceOp TxCall Outside → SharedState → Prop
  | .outside (.withinGrace token _), σ => Caused token σ
  | _, _ => True

theorem Caused.later {σ σ' : SharedState} (caused : Caused token σ)
    (log : ∀ c ∈ σ.log, c ∈ σ'.log) : Caused token σ' := by
  obtain ⟨c, member, revokes⟩ := caused
  exact ⟨c, log c member, revokes⟩

theorem teaches_tells :
    (sessions config).Teaches anything (World.init Store.empty Ext.idle) Tells where
  lasts op reply w w' run taken tells := by
    have log := System.Reaches.log (.single taken)
    cases op with
    | transact => trivial
    | outside x =>
      cases x with
      | findToken =>
        rcases reply with _ | _ | token
        · trivial
        · trivial
        · exact fun revoked => (tells revoked).later log
      | _ => trivial
  outside {w pid x reply ext} run answers := by
    cases x with
    | findToken tokenHash =>
      rcases reply with _ | _ | token
      · trivial
      · trivial
      · intro revoked
        obtain ⟨rfl, read | lost⟩ := answers
        · have found := (Except.ok.inj read).symm
          have key : token.tokenHash = tokenHash := Table.get?_key found
          obtain ⟨c, member, revokes⟩ := Reachable.revoked_by run found revoked
          exact ⟨c, member, key.symm ▸ revokes⟩
        · cases lost
    | _ => trivial
  commit _ _ := trivial
  failed := trivial

theorem blind_looks {p : Svc α} {facts : SharedState → Prop} (blind : p.All Blind) :
    p.Informed Tells Looks (fun _ _ => True) facts := by
  have looks : p.All fun op => ∀ σ, Looks op σ := blind.mono fun op blind σ => by
    rcases op with c | x
    · trivial
    · cases x with
      | withinGrace token revokedAt => exact absurd rfl (blind token revokedAt)
      | _ => trivial
  exact (Program.Informed.of_all looks).mono (fun _ => id) fun _ _ _ _ => trivial

theorem informed_find (tokenHash : String) :
    (AuthRepository.findRefreshTokenWithGrace tokenHash).Informed Tells Looks (fun _ _ => True)
      fun _ => True := by
  refine ⟨fun _ _ => trivial, fun reply => ?_⟩
  rcases reply with error | _ | token
  · exact fun _ _ => trivial
  · exact fun _ _ => trivial
  refine ⟨fun _ _ => trivial, fun expired => ?_⟩
  rcases expired with error | _ | _
  · exact fun _ _ => trivial
  · cases revoked : token.revokedAt with
    | none => exact fun _ _ => trivial
    | some revokedAt =>
      refine ⟨fun σ known => known.1.2 (by simp [revoked]), fun within => ?_⟩
      rcases within with error | _ | _ <;> exact fun _ _ => trivial
  · exact fun _ _ => trivial

theorem informed_handler (request : Request) :
    (request.handler config).Informed Tells Looks (fun _ _ => True) fun _ => True := by
  cases presents : request.presents with
  | none => exact blind_looks (blind_handler presents)
  | some refreshToken =>
    cases request with
    | refresh refreshToken =>
      obtain ⟨rest, same, blind⟩ := all_refresh_found config blind_admits
        (fun _ _ => trivial) (fun _ _ => nofun) refreshToken
      have refreshes : (AuthService.refresh config refreshToken).Informed Tells Looks
          (fun _ _ => True) fun _ => True :=
        same ▸ (informed_find _).bind (fun status => blind_looks (blind status))
          fun _ _ _ => trivial
      exact refreshes.bind (fun _ _ _ => trivial) fun _ _ _ => trivial
    | logout refreshToken userId jti =>
      obtain ⟨rest, same, blind⟩ :=
        all_logout_found config blind_admits refreshToken userId jti
      have logsOut : (AuthService.logout config refreshToken userId jti).Informed Tells Looks
          (fun _ _ => True) fun _ => True :=
        same ▸ (informed_find _).bind (fun status => blind_looks (blind status))
          fun _ _ _ => trivial
      exact logsOut.bind (fun _ _ _ => trivial) fun _ _ _ => trivial
    | _ => cases presents

/-- A token that is looked at was revoked by one of these transactions. -/
theorem looks_caused (run : Reachable config w) (found : w.procs pid = some (request,
    .running (.call (.outside (.withinGrace token revokedAt)) next))) :
    Caused token w.shared := by
  obtain ⟨facts, known, _, informed⟩ := teaches_tells.knows (fun _ => rfl)
    informed_handler run pid request _ found
  exact informed.1 _ known

/-- A look outside the condition is at a token that was ended otherwise. -/
theorem unpresented_ended (run : Reachable config w) (found : w.procs pid = some (request,
    .running (.call (.outside (.withinGrace token revokedAt)) next)))
    (refused : ¬ presented w.shared (.outside pid (.withinGrace token revokedAt))) :
    ∃ c ∈ w.shared.log, c.rotates = none ∧ c.Revokes token.userId token.tokenHash := by
  obtain ⟨c, member, revokes⟩ := looks_caused run found
  refine ⟨c, member, ?_, revokes⟩
  cases revokes with
  | exchange => exact absurd (.inr ⟨_, member, decide_eq_true rfl⟩) refused
  | _ => rfl

end Looks

/-- The program goes on to revoke all sessions, and looks at no token again. -/
def Sweeps (p : Svc α) : Prop := RevokesAll p ∧ p.All Blind

/-- Neither a look at the grace period nor the revocation of all sessions. -/
def Plain : ServiceOp TxCall Outside → Prop
  | .transact c => ∀ userId, c ≠ .revokeAllUserTokens userId
  | .outside x => ∀ token revokedAt, x ≠ .withinGrace token revokedAt

section Programs
variable {config : Config} {hash : String} {Late : Svc α → Prop} {Q : α → Prop}

theorem Warranted.bind {p : Svc α} {f : α → Svc β} {Late' : Svc β → Prop} {Q' : β → Prop}
    (warranted : Warranted hash Late Q p) (late : ∀ q, Late q → Late' (q.bind f))
    (rest : ∀ value, Q value → Warranted hash Late' Q' (f value)) :
    Warranted hash Late' Q' (p.bind f) := by
  induction p with
  | pure value => exact rest value warranted
  | throw error => trivial
  | call op next ih =>
    cases op with
    | transact c => exact ⟨warranted.1, fun result => ih result (warranted.2 result)⟩
    | outside x =>
      cases x with
      | withinGrace token revokedAt =>
        exact ⟨warranted.1, late _ warranted.2.1, fun reply other =>
          ih reply (warranted.2.2 reply other)⟩
      | findToken tokenHash => exact fun reply found => ih reply (warranted reply found)
      | _ => exact fun reply => ih reply (warranted reply)

theorem Warranted.plain {p : Svc α} (plain : p.All Plain) :
    Warranted hash Late (fun _ => True) p := by
  induction p with
  | pure value => trivial
  | throw error => trivial
  | call op next ih =>
    cases op with
    | transact c => exact ⟨plain.1, fun result => ih result (plain.2 result)⟩
    | outside x =>
      cases x with
      | withinGrace token revokedAt => exact absurd rfl (plain.1 token revokedAt)
      | findToken tokenHash => exact fun reply _ => ih reply (plain.2 reply)
      | _ => exact fun reply => ih reply (plain.2 reply)

/-- Only a look at the grace period takes a token for reused. -/
theorem warranted_find : Warranted hash (fun q => ∃ token, q = .pure (.reuseDetected token))
    (fun status => ∀ token, status ≠ .reuseDetected token)
      (AuthRepository.findRefreshTokenWithGrace hash) := by
  intro reply found
  rcases reply with error | _ | token
  · trivial
  · rintro token ⟨⟩
  · intro expired
    rcases expired with error | _ | _
    · trivial
    · cases token.revokedAt with
      | none => rintro token ⟨⟩
      | some revokedAt =>
        refine ⟨found token rfl, ⟨token, rfl⟩, fun reply other => ?_⟩
        rcases reply with error | _ | _
        · trivial
        · exact absurd rfl other
        · rintro token ⟨⟩
    · rintro token ⟨⟩

theorem Sweeps.bind {p : Svc α} {f : α → Svc β} (sweeps : Sweeps p)
    (rest : ∀ value, (f value).All Blind) :
    Sweeps (p.bind f) := by
  obtain ⟨⟨userId, next, rfl⟩, blind⟩ := sweeps
  exact ⟨⟨userId, _, rfl⟩, blind.bind rest⟩

theorem sweeps_revokeAll (userId : UserId) : Sweeps (SessionService.revokeAllTokens userId) :=
  ⟨⟨userId, _, rfl⟩, all_revokeAll blind_admits userId⟩

theorem plain_clear (tokenHash : String) :
    (SessionService.clearRotationCache tokenHash).All Plain :=
  .handle (all_outside.mpr nofun) fun _ => trivial

theorem plain_exchange (token : RefreshToken) :
    (AuthService.exchange config hash token).All Plain := by
  refine .bind (all_outside.mpr nofun) fun user => ?_
  cases user with
  | none => trivial
  | some user =>
    show Program.All Plain (if user.status ≠ .active then _ else _)
    split
    · trivial
    · refine .bind (all_outside.mpr nofun) fun tokens =>
        .bind (all_outside.mpr nofun) fun expiresAt => ?_
      refine .bind (all_outside.mpr nofun) fun draw =>
        .bind (.bind (all_transact.mpr nofun) fun _ => ?_) fun _ => trivial
      exact .handle (all_outside.mpr nofun) fun _ => trivial

theorem plain_replay : (SessionService.getRotationCache config hash).All Plain := by
  refine .handle (.bind (all_outside.mpr nofun) fun cached => ?_) fun _ => trivial
  cases cached <;> trivial

theorem plain_endSession (userId jti : String) (token : RefreshToken) (isActive : Bool) :
    (AuthService.endSession hash userId jti token isActive).All Plain := by
  unfold AuthService.endSession
  split
  · trivial
  · refine .bind (plain_clear hash) fun _ =>
      .bind (.handle (all_outside.mpr nofun) fun _ => trivial) fun _ => ?_
    cases isActive with
    | true => exact .bind (all_transact.mpr nofun) fun _ => trivial
    | false => trivial

theorem warranted_refresh (refreshToken : String) :
    Warranted (config.hashToken refreshToken) Sweeps (fun _ => True)
    (AuthService.refresh config refreshToken) := by
  refine warranted_find.bind ?_ fun status unused => ?_
  · rintro _ ⟨token, rfl⟩
    exact (sweeps_revokeAll token.userId).bind fun _ =>
      .bind (all_clear blind_admits _) fun _ => trivial
  · cases status with
    | notFound | expired => trivial
    | reuseDetected token => exact absurd rfl (unused token)
    | gracePeriod token =>
      refine .plain (.bind plain_replay fun cached => ?_)
      cases cached with
      | none => exact .bind (plain_clear _) fun _ => trivial
      | some pair => trivial
    | active token => exact .plain (plain_exchange token)

theorem warranted_logout (refreshToken userId jti : String) :
    Warranted (config.hashToken refreshToken) Sweeps
    (fun _ => True) (AuthService.logout config refreshToken userId jti) := by
  refine warranted_find.bind ?_ fun status unused => ?_
  · rintro _ ⟨token, rfl⟩
    exact sweeps_revokeAll token.userId
  · cases status with
    | notFound => trivial
    | reuseDetected token => exact absurd rfl (unused token)
    | active token | expired token | gracePeriod token => exact .plain (plain_endSession ..)

theorem warranted_handler {request : Request} {refreshToken : String}
    (presents : request.presents = some refreshToken) :
    Warranted (config.hashToken refreshToken) Sweeps (fun _ => True) (request.handler config) := by
  cases request with
  | refresh =>
    cases presents
    exact (warranted_refresh refreshToken).bind
      (fun _ sweeps => sweeps.bind fun _ => trivial) fun _ _ => trivial
  | logout presented userId jti =>
    cases presents
    show Warranted _ _ _ ((AuthService.logout config refreshToken userId jti).bind
      fun _ => .pure Response.done)
    exact (warranted_logout refreshToken userId jti).bind
      (fun _ sweeps => sweeps.bind fun _ => trivial) fun _ _ => trivial
  | _ => cases presents

theorem Warranted.not_revokes {p : Svc α} (warranted : Warranted hash Late Q p) :
    ¬ RevokesAll p := by
  rintro ⟨userId, next, rfl⟩
  exact warranted.1 userId rfl

end Programs

/-- A program that presents the token is in no position to revoke all sessions, or
the token was exchanged and is not looked at again. -/
def Clears (hash : String) (σ : SharedState) (p : Svc Response) : Prop :=
  Warranted hash Sweeps (fun _ => True) p ∨ p.All Blind ∧ ∃ c ∈ σ.log, c.exchanges hash

def Cleared (config : Config) (w : State) : Prop :=
  ∀ pid request phase refreshToken, w.procs pid = some (request, phase) →
    request.presents = some refreshToken →
    Clears (config.hashToken refreshToken) w.shared phase.residual

section Runs
variable {config : Config} {w w' : State}

theorem Cleared.justified (cleared : Cleared config w) : Justified config w := by
  intro pid request phase refreshToken found presents revokes
  rcases cleared pid request phase refreshToken found presents with warranted | ⟨_, exchanged⟩
  · exact absurd revokes warranted.not_revokes
  · exact exchanged

theorem Cleared.set (cleared : Cleared config w) {pid : Nat} {request : Request}
    {phase : Phase Write Statement Statement.Reply LockKey Exception TxCall TxCall.Out Outside
      Outside.Reply Response}
    (σ : SharedState) (log : ∀ c ∈ w.shared.log, c ∈ σ.log)
    (own : ∀ refreshToken, request.presents = some refreshToken →
      Clears (config.hashToken refreshToken) σ phase.residual) :
    Cleared config (World.set { w with shared := σ } pid request phase) := by
  intro other request' phase' refreshToken found presents
  by_cases here : other = pid
  · subst here
    cases (World.set_same ..).symm.trans found
    exact own refreshToken presents
  · rw [World.set_other _ _ _ here] at found
    refine (cleared other request' phase' refreshToken found presents).imp_right ?_
    rintro ⟨blind, c, member, exchanges⟩
    exact ⟨blind, c, log c member, exchanges⟩

/-- A look at the grace period in the condition is no reason to revoke all sessions. -/
theorem Clears.outside {σ : SharedState} {hash : String} {x : Outside}
    {next : Except Exception x.Reply → Svc Response} {reply : Except Exception x.Reply} {ext : Ext}
    (clears : Clears hash σ (.call (.outside x) next)) (permitted : presented σ (.outside pid x))
    (answers : x.Answers config pid σ.db σ.ext reply ext) :
    Clears hash σ (next reply) := by
  rcases clears with warranted | ⟨blind, exchanged⟩
  · cases x with
    | withinGrace token revokedAt =>
      obtain ⟨rfl, sweeps, later⟩ := warranted
      obtain ⟨_, rfl⟩ := answers
      by_cases within : σ.db.now - revokedAt ≤ gracePeriodSeconds * 1000
      · exact .inl (later _ (by simp [within]))
      · simp only [within, decide_false]
        exact .inr ⟨sweeps.2, permitted.resolve_left within⟩
    | findToken tokenHash =>
      refine .inl (warranted reply ?_)
      rintro token rfl
      rcases answers.2 with found | lost
      · exact Table.get?_key (Except.ok.inj found).symm
      · cases lost
    | _ => exact .inl (warranted reply)
  · exact .inr ⟨blind.2 reply, exchanged⟩

theorem Clears.transact {σ σ' : SharedState} {hash : String} {c : TxCall}
    {next : Except Exception c.Out → Svc Response}
    (clears : Clears hash σ (.call (.transact c) next)) (log : ∀ c ∈ σ.log, c ∈ σ'.log)
    (result : Except Exception c.Out) :
    Clears hash σ' (next result) := by
  rcases clears with warranted | ⟨blind, old, member, exchanges⟩
  · exact .inl (warranted.2 result)
  · exact .inr ⟨blind.2 result, old, log old member, exchanges⟩

theorem Cleared.step (cleared : Cleared config w) (taken : (sessions config).Step presented w w') :
    Cleared config w' := by
  have more : ∀ c, ∀ old ∈ w.shared.log, old ∈ w.shared.log ++ [c] :=
    fun _ _ member => List.mem_append_left _ member
  cases taken with
  | start idle permitted =>
    exact cleared.set w.shared (fun _ => id) fun _ presents => .inl (warranted_handler presents)
  | outside found permitted answers =>
    have own := fun refreshToken presents =>
      (cleared _ _ _ refreshToken found presents).outside permitted answers
    exact cleared.set _ (fun _ => id) own
  | begin found | read found | write found =>
    have own := fun refreshToken => cleared _ _ _ refreshToken found
    exact cleared.set w.shared (fun _ => id) own
  | commit found | lost found =>
    refine cleared.set _ (more _) fun refreshToken presents => ?_
    exact (cleared _ _ _ refreshToken found presents).transact (more _) _
  | abort found =>
    refine cleared.set w.shared (fun _ => id) fun refreshToken presents => ?_
    exact (cleared _ _ _ refreshToken found presents).transact (fun _ => id) _
  | drift => exact cleared

theorem cleared_of_reaches
    (run : (sessions config).Reaches presented (World.init Store.empty Ext.idle) w) :
    Cleared config w := by
  induction run with
  | refl =>
    intro pid request phase refreshToken found
    cases found
  | tail _ last ih => exact ih.step last

/-- Who looks at a grace period has presented a token. -/
theorem looks_presents
    (run : (sessions config).Reaches presented (World.init Store.empty Ext.idle) w) {pid : Nat}
    {request : Request} {token : RefreshToken} {revokedAt : DateTime}
    {next : Except Exception Bool → Svc Response}
    (found : w.procs pid = some (request,
      .running (.call (.outside (.withinGrace token revokedAt)) next))) :
    ∃ refreshToken, request.presents = some refreshToken := by
  have blind := run.proc (F := fun _ request phase => request.presents = none →
    phase.residual.All Blind)
    (fun _ => blind_handler) ?_ (fun _ _ _ none => by cases none) pid _ _ found
  · cases presents : request.presents with
    | some refreshToken => exact ⟨refreshToken, rfl⟩
    | none => exact absurd rfl ((blind presents).1 token revokedAt)
  · intro w₁ pid request phase phase' _ kept next unpresented
    have all := kept unpresented
    cases next with
    | outside | commit | fail => exact all.2 _
    | begin | read | write => exact all

/-- In runs that meet the condition every revocation of all sessions is justified,
and a step that does not meet it leads to one that is not. -/
theorem reuse_justified
    (run : (sessions config).Reaches presented (World.init Store.empty Ext.idle) w) :
    Justified config w ∧
      ∀ w', (sessions config).Step anything w w' → Justified config w' →
        (sessions config).Step presented w w' := by
  have cleared := cleared_of_reaches run
  refine ⟨cleared.justified, fun w' taken justified => ?_⟩
  cases taken with
  | start idle => exact .start idle trivial
  | begin found => exact .begin found
  | read found plain exec => exact .read found plain exec
  | write found locked free exec => exact .write found locked free exec
  | commit found => exact .commit found trivial
  | lost found => exact .lost found trivial
  | abort found aborts => exact .abort found aborts trivial
  | drift _ drifted => exact .drift trivial drifted
  | outside found _ answers =>
    rename_i request pid x reply ext next _
    refine .outside found ?_ answers
    cases x with
    | withinGrace token revokedAt =>
      by_contra refused
      simp only [presented, not_or, not_exists, not_and] at refused
      obtain ⟨refreshToken, presents⟩ := looks_presents run found
      rcases cleared pid request _ refreshToken found presents with ⟨hash, sweeps, _⟩ | ⟨blind, _⟩
      · obtain ⟨_, rfl⟩ := answers
        have revokes : RevokesAll
            (next (.ok (decide (w.shared.db.now - revokedAt ≤ gracePeriodSeconds * 1000)))) := by
          simpa [refused.1] using sweeps.1
        obtain ⟨c, member, exchanges⟩ :=
          justified pid request _ refreshToken (World.set_same ..) presents revokes
        exact refused.2 c member (hash ▸ exchanges)
      · exact absurd rfl (blind.1 token revokedAt)
    | _ => trivial

end Runs

namespace Script

def logsIn (pid : Nat) (name token : String) : Script :=
  .start pid (.login name "secret") ::
    [.answer {}, .answer {}, generates token, .answer {}, draws token, .commit].map (.turn pid)

/-- A logout of an ACTIVE token. -/
def logsOut (pid : Nat) (name token : String) : Script :=
  .start pid (.logout token name "jti") ::
    [.answer {}, .answer {}, .answer {}, .answer {}, .commit].map (.turn pid)

def waits (pid elapsed : Nat) : Script := [.start pid (.tick elapsed), .turn pid .commit]

/-- Alice's first refresh looks her token up a millisecond before the token expires, and goes on
some time later. -/
def looksLate (pid elapsed : Nat) : Script :=
  registers 0 "alice" "first" ++ waits 1 604799999 ++
    .start pid (.refresh "first") :: [.answer {}, .answer {}].map (.turn pid) ++ waits 2 elapsed

/-- What is left of a refresh that has looked its token up. -/
def exchanges (pid : Nat) (token : String) : Script :=
  [.answer {}, generates token, .answer {}, draws token, .commit, .answer {}].map (.turn pid)

/-- The process has found a revoked token, and looked at its grace period. -/
def presents (pid : Nat) (token : String) : Script :=
  .start pid (.refresh token) :: [.answer {}, .answer {}, .answer {}].map (.turn pid)

end Script

/-- The next step of the process opens the revocation of all sessions. -/
def Stage.sweeps (stage : Stage) (pid : Nat) (request : Request) : Bool :=
  match stage.procs pid with
  | some (other, .call (.transact (.revokeAllUserTokens _)) _) => other = request
  | _ => false

theorem Stage.sweeps_found {stage : Stage} {pid : Nat} {request : Request}
    (sweeps : stage.sweeps pid request) :
    ∃ p, (stage.world : State).procs pid = some (request, .running p) ∧ RevokesAll p := by
  unfold Stage.sweeps at sweeps
  split at sweeps
  · rename_i other userId next found
    obtain rfl : other = request := of_decide_eq_true sweeps
    exact ⟨_, by simp [System.Stage.world, found], userId, next, rfl⟩
  · cases sweeps

/-- Alice logs out of one of her two sessions, and its device asks for a refresh
eleven seconds later. -/
def reuseScript : Script :=
  Script.registers 0 "alice" "first" ++ Script.logsIn 1 "alice" "second" ++
    Script.logsOut 2 "alice" "first" ++
    Script.waits 3 11000 ++ Script.presents 4 "first"

/-- She is about to lose her other session; and a moment later she has. -/
theorem reuse_unjustified :
    (∃ w, Reachable (Config.sample 10) w ∧ ¬ Justified (Config.sample 10) w ∧
      ∃ row, w.shared.db.refreshTokens.get? "hash-second" = some row ∧ row.active w.shared.db.now) ∧
    ∃ w, Reachable (Config.sample 10) w ∧ (∀ c ∈ w.shared.log, c.rotates = none) ∧
      ∃ row, w.shared.db.refreshTokens.get? "hash-second" = some row ∧ row.revokedAt.isSome := by
  constructor
  · obtain ⟨stage, run, sweeps, unrotated, active⟩ :=
      reuseScript.reaches (Config.sample 10) anything
      (fun stage => stage.sweeps 4 (.refresh "first") ∧ (∀ c ∈ stage.shared.log, c.rotates = none) ∧
        (stage.shared.db.refreshTokens.get? "hash-second").any (·.active stage.shared.db.now))
          (by decide +kernel)
    obtain ⟨p, found, revokes⟩ := Stage.sweeps_found sweeps
    refine ⟨stage.world, run, fun justified => ?_, (Option.any_eq_true ..).mp active⟩
    obtain ⟨c, member, exchanges⟩ := justified 4 _ _ "first" found rfl revokes
    simp [TxCall.exchanges, unrotated c member] at exchanges
  · obtain ⟨stage, run, unrotated, revoked⟩ :=
      Script.reaches (reuseScript ++ [.turn 4 .commit]) (Config.sample 10) anything
      (fun stage => (∀ c ∈ stage.shared.log, c.rotates = none) ∧
        (stage.shared.db.refreshTokens.get? "hash-second").any (·.revokedAt.isSome))
          (by decide +kernel)
    exact ⟨stage.world, run, unrotated, (Option.any_eq_true ..).mp revoked⟩

/-- A stolen token is presented after its rotation, and all sessions go. -/
theorem reuse_justified_stolen :
    ∃ w, (sessions (Config.sample 10)).Reaches presented (World.init Store.empty Ext.idle) w ∧
    (∃ request p, w.procs 3 = some (request, .running p) ∧ RevokesAll p) ∧
      Justified (Config.sample 10) w ∧
    ∀ w', (sessions (Config.sample 10)).Step anything w w' → Justified (Config.sample 10) w' →
      (sessions (Config.sample 10)).Step presented w w' := by
  obtain ⟨stage, run, sweeps⟩ := Script.reaches (Script.registers 0 "alice" "first" ++
      Script.refreshes 1 "first" "second" ++ Script.waits 2 11000 ++ Script.presents 3 "first")
        (Config.sample 10) presented
    (fun stage => stage.sweeps 3 (.refresh "first")) (by decide +kernel)
  obtain ⟨p, found, revokes⟩ := Stage.sweeps_found sweeps
  exact ⟨stage.world, run, ⟨_, p, found, revokes⟩, reuse_justified run⟩

end PaymentWallet.Sessions
