import PaymentWallet.Guarantees.Rotation
import PaymentWallet.Sessions.Endings

/-! The requests that end all sessions of a user. Those which were there when such a request
began are over when it returns, whatever ran beside it, and their tokens are never exchanged
again. -/
namespace PaymentWallet.Sessions
open Foundation

/-- The token is revoked for good and not exchanged any more. Who still gets a pair for it, gets the
pair of an exchange before. -/
structure Over (config : Config) (w : State) (tokenHash : String) : Prop where
  revoked : ∀ w', (sessions config).Reaches anything w w' →
    ∀ row, w'.shared.db.refreshTokens.get? tokenHash = some row →
    row.revokedAt.isSome
  exchanged : ∀ w', (sessions config).Reaches anything w w' →
    w'.shared.log.filter (TxCall.exchanges tokenHash) = w.shared.log.filter
      (TxCall.exchanges tokenHash)
  replayed : ∀ w', (sessions config).Reaches anything w w' → ∀ pid refreshToken pair,
    config.hashToken refreshToken = tokenHash →
    Returns w' pid refreshToken pair →
      ∃ data, .rotateRefreshToken tokenHash data ∈ w.shared.log ∧
        config.hashToken pair.refreshToken = data.tokenHash

section Terminations
variable {config : Config} {w w' : State} {pid : Nat} {request : Request}
  {response : Response} {userId : UserId} {tokenHash : String} {row : RefreshToken}

/-- No exchange is possible once the token is spent, and so no other pair. -/
theorem Spent.over (spent : Spent w.shared tokenHash) (run : Reachable config w) :
    Over config w tokenHash := by
  have same : ∀ w', (sessions config).Reaches anything w w' →
      w'.shared.log.filter (TxCall.exchanges tokenHash) = w.shared.log.filter
        (TxCall.exchanges tokenHash) := by
    intro w' later
    induction later with
    | refl => rfl
    | @tail w₁ w₂ earlier last ih =>
      have revoked := (spent.later run earlier).2
      have advances := advances_of_reaches (run.trans earlier) last
      generalize w₂.shared = σ at advances
      cases advances with
      | rest | outside | drift => exact ih
      | @commit pid c value d' permitted body =>
        have others : ¬ c.exchanges tokenHash := by
          intro exchanges
          obtain ⟨row, now, found, unrevoked, _⟩ :=
            (body _ (c.effect w₁.shared.db)).rotated tokenHash
            (by simpa [TxCall.exchanges] using exchanges)
          have ended := revoked row found
          simp [unrevoked] at ended
        simp only [Shared.commit, List.filter_append, List.filter_singleton, others,
          List.append_nil, ih, cond_false]
  refine ⟨fun w' later row found => (spent.later run later).2 row found, same, ?_⟩
  rintro w' later pid refreshToken pair rfl returns
  obtain ⟨data, rotated, _, hash⟩ := Reachable.returns (run.trans later) returns
  have listed : .rotateRefreshToken (config.hashToken refreshToken) data ∈
      w'.shared.log.filter (TxCall.exchanges (config.hashToken refreshToken)) :=
    List.mem_filter.mpr ⟨rotated, by simp [TxCall.exchanges, TxCall.rotates]⟩
  rw [same w' later] at listed
  exact ⟨data, (List.mem_filter.mp listed).1, hash⟩

/-- How far a request has come that began with the session there. -/
theorem Session.underway (session : Session w.shared userId tokenHash) (run : Reachable config w)
    (idle : w.procs pid = none)
    (later : (sessions config).Reaches anything w w') {phase : SessionPhase}
    (found : w'.procs pid = some (request, phase))
    (ends : request.endsAll = some userId) :
    Spent w'.shared tokenHash ∨ Underway userId tokenHash phase := by
  refine later.keeps (F := fun σ other req phase => other = pid → req.endsAll = some userId →
    Spent σ tokenHash ∨ Underway userId tokenHash phase) ?_ ?_ ?_ ?_ pid
      request phase found rfl ends
  · exact fun _ _ ends => .inr (.running (through_handler ends))
  · exact fun earlier last rest here ends => (rest here ends).imp_left fun spent =>
      spent.later (run.trans earlier) (.single last)
  · intro w₁ w₂ other req phase phase' earlier last _ rest acts here ends
    have still : Spent w₁.shared tokenHash → Spent w₂.shared tokenHash :=
      fun spent => spent.later (run.trans earlier) (.single last)
    rcases rest here ends with spent | left
    · exact .inl (still spent)
    · have sound := (Reachable.safe (run.trans earlier)).inv
      rcases left.acts (session.later earlier) sound acts fun _ =>
        closing_code with spent | spent | left
      · exact .inl (still spent)
      · exact .inl spent
      · exact .inr left
  · rintro other req phase started rfl
    cases idle.symm.trans started

/-- When a request that ends all sessions has returned, those that it found are over, however
refreshes, logins, evictions and cleanups interleaved with it. -/
theorem sessions_ended (run : Reachable config w) (idle : w.procs pid = none)
    (later : (sessions config).Reaches anything w w')
    (returned : w'.procs pid = some (request, .running (.pure response)))
    (ends : request.endsAll = some userId)
    (found : w.shared.db.refreshTokens.get? tokenHash = some row) (owner : row.userId = userId) :
    Over config w' tokenHash := by
  obtain ⟨c, member, data, creates, same, user, _⟩ := run.safe.inv.rows tokenHash row found
  have session : Session w.shared userId tokenHash :=
    ⟨c, member, data, creates, same, user.trans owner⟩
  rcases session.underway run idle later returned ends with spent | left
  · exact spent.over (run.trans later)
  · cases left with
    | running through => exact through.elim

/-- Alice has a session, and ends all of them. -/
theorem sessions_ended_alice :
    ∃ (w w' : State) (row : RefreshToken), Reachable (Config.sample 10) w ∧
    w.shared.db.refreshTokens.get? "hash-first" = some row ∧
      (sessions (Config.sample 10)).Reaches anything w w' ∧
      Over (Config.sample 10) w' "hash-first" := by
  obtain ⟨stage, stage', run, later, idle, owned, returned⟩ :=
    Script.continues (Script.registers 0 "alice" "first")
    (Script.endsAll 1 "alice") (Config.sample 10)
    (fun stage stage' => (stage.procs 1).isNone ∧
      (stage.shared.db.refreshTokens.get? "hash-first").any (fun row => row.userId = "alice") ∧
      stage'.ended 1 = some (.logoutAll "alice" "jti", .ok .done)) (by decide +kernel)
  obtain ⟨row, found, owner⟩ := (Option.any_eq_true ..).mp owned
  have started : (stage.world : State).procs 1 = none := by
    simp [System.Stage.world, Option.isNone_iff_eq_none.mp idle]
  exact ⟨stage.world, stage'.world, row, run, found, later,
    sessions_ended run started later (System.Stage.ended_ok returned) rfl found
      (of_decide_eq_true owner)⟩

end Terminations
end PaymentWallet.Sessions
