import PaymentWallet.Sessions.Invariants
import PaymentWallet.Guarantees.Rotation

/-! Revoked access tokens. The denylist entry of a token is written when the token is
revoked, and lives as long from then on as the token does from when it was signed. -/
namespace PaymentWallet.Sessions
open Foundation

/-- No token lives longer than an entry of the denylist that is written now. -/
def Timely (config : Config) (σ : SharedState) : Prop :=
  ∀ accessToken token, σ.ext.signed accessToken = some token →
    token.exp ≤ σ.db.now / 1000 + config.getAccessTokenTtlSeconds

/-- The denylist entry of the token outlives it. -/
structure Outlived (accessToken : String) (token : AccessToken) (σ : SharedState) : Prop where
  signed : σ.ext.signed accessToken = some token
  entry : ∃ expiresAt, σ.ext.denylist token.payload.jti = some expiresAt ∧
    token.exp * 1000 ≤ expiresAt

/-- The step writes the denylist entry of the jti. Its process may hear of that or not. -/
structure Revokes (config : Config) (jti : String) (w w₁ : State) : Prop where
  step : (sessions config).Step anything w w₁
  written : w₁.shared = { w.shared with
    ext := w.shared.ext.deny jti w.shared.db.now config.getAccessTokenTtlSeconds }

section Lives
variable {config : Config} {σ σ' : SharedState} {accessToken : String} {token : AccessToken}

theorem Timely.outlives (timely : Timely config σ)
    (signed : σ.ext.signed accessToken = some token) :
    token.exp * 1000 ≤ σ.db.now + config.getAccessTokenTtlSeconds * 1000 := by
  calc token.exp * 1000 ≤ (σ.db.now / 1000 + config.getAccessTokenTtlSeconds) * 1000 :=
        Nat.mul_le_mul_right 1000 (timely accessToken token signed)
    _ = σ.db.now / 1000 * 1000 + config.getAccessTokenTtlSeconds * 1000 := Nat.add_mul ..
    _ ≤ σ.db.now + config.getAccessTokenTtlSeconds * 1000 :=
      Nat.add_le_add_right (Nat.div_mul_le_self ..) _

theorem Timely.advance (timely : Timely config σ) (advances : Advances config permit σ σ') :
    Timely config σ' := by
  intro accessToken token signed
  have later := advances.now
  cases advances with
  | rest => exact timely accessToken token signed
  | commit =>
    have bound := timely accessToken token signed
    exact bound.trans (Nat.add_le_add_right (Nat.div_le_div_right later) _)
  | drift expired =>
    cases expired with
    | lock => exact timely accessToken token signed
  | outside permitted answers =>
    cases answers.changes with
    | kept _ same _ => exact timely accessToken token (same ▸ signed)
    | denied => exact timely accessToken token signed
    | signed unsigned read =>
      simp only [Ext.sign, Function.update_apply] at signed
      split at signed
      · obtain rfl := Option.some.inj signed
        exact (congrArg _ (config.lifetime_seconds read)).le
      · exact timely accessToken token signed

theorem Outlived.denied (outlived : Outlived accessToken token σ)
    (verified : σ.ext.verified σ.db.now accessToken = some token) :
    σ.ext.denied σ.db.now token.payload.jti := by
  obtain ⟨expiresAt, entry, bound⟩ := outlived.entry
  obtain ⟨_, unexpired⟩ := Option.filter_eq_some_iff.mp verified
  have before : σ.db.now / 1000 < token.exp := of_decide_eq_true unexpired
  have open_ : σ.db.now < expiresAt :=
    ((Nat.div_lt_iff_lt_mul (by decide)).mp before).trans_le bound
  simp [Ext.denied, entry, open_]

theorem Outlived.advance (outlived : Outlived accessToken token σ) (timely : Timely config σ)
    (advances : Advances config permit σ σ') :
    Outlived accessToken token σ' := by
  obtain ⟨here, expiresAt, entry, bound⟩ := outlived
  refine ⟨advances.signed here, ?_⟩
  cases advances with
  | rest | commit => exact ⟨expiresAt, entry, bound⟩
  | drift expired =>
    cases expired with
    | lock => exact ⟨expiresAt, entry, bound⟩
  | outside permitted answers =>
    cases answers.changes with
    | kept _ _ same => exact ⟨expiresAt, same ▸ entry, bound⟩
    | signed => exact ⟨expiresAt, entry, bound⟩
    | @denied jti =>
      by_cases again : token.payload.jti = jti
      · exact ⟨_, by simp only [Ext.deny, again, Function.update_self], timely.outlives here⟩
      · exact ⟨expiresAt, by simp only [Ext.deny, Function.update_of_ne again, entry], bound⟩

end Lives

section Runs
variable {config : Config} {w w' : State} {accessToken : String} {token : AccessToken}

theorem Reachable.timely (run : Reachable config w) : Timely config w.shared :=
  kept_of_reaches (w := World.init Store.empty Ext.idle) .refl
    (fun advances timely => timely.advance advances) nofun run

theorem Outlived.reaches (run : Reachable config w)
    (later : (sessions config).Reaches anything w w')
    (outlived : Outlived accessToken token w.shared) : Outlived accessToken token w'.shared :=
  (kept_of_reaches (F := fun σ => Timely config σ ∧ Outlived accessToken token σ) run
    (fun advances ⟨timely, outlived⟩ => ⟨timely.advance advances, outlived.advance timely advances⟩)
      ⟨run.timely, outlived⟩ later).2

/-- All reads of a validation take place at one time, amid the steps of others. -/
theorem Outlived.rejected {pid : Nat} {result : Except Exception JwtPayload}
    (run : Reachable config w) (outlived : Outlived accessToken token w.shared)
    (validates : (JwtStrategy.validate accessToken).Runs (Amid config anything pid) w result w')
    (moment : w'.shared.db.now = w.shared.db.now) : ∃ error, result = .error error := by
  rcases Program.runs_bind.mp validates with ⟨payload, w₁, verifies, rest⟩ | ⟨error, _, failed⟩
  swap
  · exact ⟨error, failed⟩
  have first := Amid.reaches verifies
  have run₁ := run.trans first
  obtain ⟨ext, _, verified⟩ := (Service.runs_outside.mp verifies).answers
  have outlived₁ := outlived.reaches run first
  rcases Program.runs_bind.mp rest with ⟨revoked, w₂, looks, rest'⟩ | ⟨error, _, failed⟩
  swap
  · exact ⟨error, failed⟩
  have second := Amid.reaches looks
  have outlived₂ := outlived₁.reaches run₁ second
  -- The clock reads the same at the denylist as at the signature.
  have still : w₂.shared.db.now = w₁.shared.db.now := by
    have before := now_of_reaches run first
    have between := now_of_reaches run₁ second
    have after := now_of_reaches (run₁.trans second) (Amid.reaches rest')
    exact le_antisymm ((after.trans_eq moment).trans before) between
  have same : token.payload = payload ∧
      w₁.shared.ext.verified w₁.shared.db.now accessToken = some token := by
    cases checked : w₁.shared.ext.verified w₁.shared.db.now accessToken with
    | none => simp [checked] at verified
    | some other =>
      obtain ⟨signed, _⟩ := Option.filter_eq_some_iff.mp checked
      obtain rfl := Option.some.inj (signed.symm.trans outlived₁.signed)
      simp only [checked, Except.ok.injEq] at verified
      exact ⟨verified.symm, rfl⟩
  obtain ⟨rfl, unexpired⟩ := same
  have denied : w₂.shared.ext.denied w₂.shared.db.now token.payload.jti := by
    refine outlived₂.denied ?_
    obtain ⟨_, early⟩ := Option.filter_eq_some_iff.mp unexpired
    exact Option.filter_eq_some_iff.mpr ⟨outlived₂.signed, still ▸ early⟩
  rcases Program.runs_handle.mp looks with ⟨value, reads, returned⟩ | ⟨error, w₃, _, thrown⟩
  · obtain ⟨ext, _, found | lost⟩ := (Service.runs_outside.mp reads).answers
    · cases returned
      cases found
      rw [denied] at rest'
      exact ⟨_, (Program.runs_throw.mp rest').1⟩
    · cases lost
  · cases (Program.runs_throw.mp thrown).1

/-- After a revocation the token has expired or its entry has not, and is refused. -/
theorem revoked_rejected {w₁ : State} (run : Reachable config w)
    (signed : w.shared.ext.signed accessToken = some token)
    (revokes : Revokes config token.payload.jti w w₁)
    (later : (sessions config).Reaches anything w₁ w') :
    (w'.shared.ext.verified w'.shared.db.now accessToken = none ∨
      w'.shared.ext.denied w'.shared.db.now token.payload.jti) ∧
    ∀ pid result w'',
      (JwtStrategy.validate accessToken).Runs (Amid config anything pid) w' result w'' →
      w''.shared.db.now = w'.shared.db.now → ∃ error, result = .error error := by
  have run₁ := run.tail revokes.step
  have outlived : Outlived accessToken token w₁.shared := by
    rw [revokes.written]
    exact ⟨signed, _, by simp only [Ext.deny, Function.update_self], run.timely.outlives signed⟩
  have outlived' := outlived.reaches run₁ later
  constructor
  · cases verified : w'.shared.ext.verified w'.shared.db.now accessToken with
    | none => exact .inl rfl
    | some other =>
      obtain ⟨same, _⟩ := Option.filter_eq_some_iff.mp verified
      obtain rfl := Option.some.inj (same.symm.trans outlived'.signed)
      exact .inr (outlived'.denied verified)
  · intro pid result w'' validates moment
    exact outlived'.rejected (run₁.trans later) validates moment

end Runs

/-- A registration whose access token carries the jti. -/
def Script.signsUp (pid : Nat) (name token jti : String) : Script :=
  .start pid (.register ⟨name, name, name, "secret"⟩) ::
    [draws name, .commit, .answer { tokens := pair token, jti := jti }, .answer {}, draws token,
      .commit].map (.turn pid)

/-- The next step of the process writes the denylist entry of the jti. -/
def Stage.denies (stage : Stage) (pid : Nat) (jti : String) : Bool :=
  match stage.procs pid with
  | some (_, .call (.outside (.denylist other)) _) => other = jti
  | _ => false

theorem Stage.denies_revokes {stage : Stage} {config : Config} {pid : Nat} {jti : String}
    (denies : stage.denies pid jti) :
    ∃ w₁, Revokes config jti stage.world w₁ := by
  unfold Stage.denies at denies
  split at denies
  · rename_i request other next found
    obtain rfl : other = jti := of_decide_eq_true denies
    have waiting : (stage.world : State).procs pid = some (request,
        .running (.call (.outside (.denylist other)) next)) := by
      simp [System.Stage.world, found]
    exact ⟨_, .outside waiting trivial .done, rfl⟩
  · cases denies

/-- Alice ends all her sessions right after her registration. -/
theorem revoked_rejected_signed : ∃ w w₁, Reachable (Config.sample 10) w ∧
    Revokes (Config.sample 10) "jti" w w₁ ∧
    ∃ token, w.shared.ext.signed "access-first" = some token ∧ token.payload.jti = "jti" ∧
      ((w₁.shared.ext.verified w₁.shared.db.now "access-first" = none ∨
          w₁.shared.ext.denied w₁.shared.db.now token.payload.jti) ∧
        ∀ pid result w'', (JwtStrategy.validate "access-first").Runs
          (Amid (Config.sample 10) anything pid) w₁ result w'' →
          w''.shared.db.now = w₁.shared.db.now → ∃ error, result = .error error) := by
  obtain ⟨stage, run, denies, signed⟩ := Script.reaches
    (Script.signsUp 0 "alice" "first" "jti" ++
      [.start 1 (.logoutAll "alice" "jti"), .turn 1 .commit])
    (Config.sample 10) anything
    (fun stage => stage.denies 1 "jti" ∧
      (stage.shared.ext.signed "access-first").any fun token => token.payload.jti = "jti")
    (by decide +kernel)
  obtain ⟨token, signed, jti⟩ := (Option.any_eq_true ..).mp signed
  have jti : token.payload.jti = "jti" := of_decide_eq_true jti
  obtain ⟨w₁, revokes⟩ := Stage.denies_revokes denies
  exact ⟨stage.world, w₁, run, revokes, token, signed, jti,
    revoked_rejected run signed (jti ▸ revokes) .refl⟩

end PaymentWallet.Sessions
