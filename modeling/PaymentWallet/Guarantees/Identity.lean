import PaymentWallet.Guarantees.Rotation
import PaymentWallet.Sessions.Identity

/-! Tokens are handed out for the user that the request speaks for, and no session changes
hands: neither in a rotation, nor by a replay, nor when requests of several users interleave. -/
namespace PaymentWallet.Sessions
open Foundation

variable {config : Config} {w : State}

/-- A refresh speaks for the owner of its token, a login and a
registration for the user with that email. -/
theorem tokens_authentic (run : Reachable config w) :
    (∀ pid request pair, w.procs pid = some (request, .running (.pure (.tokens pair))) →
      Authentic config request (.ok (.tokens pair)) w.shared ∧ ∀ refreshToken,
        request = .refresh refreshToken →
        ∃ userId, Session w.shared userId (config.hashToken refreshToken) ∧
          Names config w.shared pair userId) ∧
    ∀ tokenHash row, w.shared.db.refreshTokens.get? tokenHash = some row →
      ∃ pair, Vouched w.shared pair row.userId ∧
        config.hashToken pair.refreshToken = tokenHash := by
  refine ⟨fun pid request pair returned => ⟨?_, ?_⟩, fun tokenHash row found => ?_⟩
  · obtain ⟨facts, known, _, rest⟩ := run.knows pid request _ returned
    exact rest _ known
  · rintro refreshToken rfl
    exact (run.returns returned).names run
  · obtain ⟨c, member, data, creates, same, owner, _⟩ := run.safe.inv.rows tokenHash row found
    obtain ⟨⟨pair, vouched, hash⟩, _⟩ := run.needs c member data creates
    exact ⟨pair, owner ▸ vouched, hash.trans same⟩

/-- Alice registers and refreshes, and Bob's registration comes in between. -/
theorem tokens_authentic_alice : ∃ w : State, Reachable (Config.sample 10) w ∧
    Returns w 2 "first" (Script.pair "second") ∧
    ∃ userId, Session w.shared userId "hash-first" ∧
      Names (Config.sample 10) w.shared (Script.pair "second") userId := by
  obtain ⟨stage, run, returned⟩ := Script.reaches
    (Script.registers 0 "alice" "first" ++ Script.registers 1 "bob" "other" ++
      Script.refreshes 2 "first" "second")
    (Config.sample 10) anything (fun stage =>
      stage.ended 2 = some (.refresh "first", .ok (.tokens (Script.pair "second"))))
    (by decide +kernel)
  have returns : Returns stage.world 2 "first" (Script.pair "second") :=
    System.Stage.ended_ok returned
  exact ⟨stage.world, run, returns, ((tokens_authentic run).1 2 _ _ returns).2 "first" rfl⟩

end PaymentWallet.Sessions
