import PaymentWallet.Connect.Schedules

/-! Whether a user has one account at Stripe, linked to the user's row, while onboardings
and deauthorizations interleave. -/
namespace PaymentWallet.Connect
open Foundation

/-- One account for a user, which is stored or about to be; and a webhook is about to clear
no other account's link than that of its own. -/
structure Linked (w : State) : Prop where
  single : ∀ first ∈ w.shared.ext.accounts, ∀ second ∈ w.shared.ext.accounts,
    first.userId = second.userId →
    first.id ∉ w.shared.ext.deauthorized → second.id ∉ w.shared.ext.deauthorized → first = second
  linked : ∀ account ∈ w.shared.ext.accounts, account.id ∉ w.shared.ext.deauthorized →
    stored w.shared.db account.userId = some account.id ∨
      ∃ pid, Writes w pid account.userId (some account.id)
  clears : ∀ pid accountId phase userId,
    w.procs pid = some (.deauthorized (some accountId), phase) →
    links phase.residual = some (userId, none) →
      ∀ id, stored w.shared.db userId = some id → id = accountId

section Runs
variable {config : Config} {d : DB} {w : State}

theorem onboarding_disciplined (config : Config) :
    (onboarding config).Disciplined genuine (fun _ => True) (fun _ => True)
    LockKey.Same Statement.Learned DB.Keeps where
  locking := postgres_locking
  stability := postgres_stability
  code c _ := c.code.all_trivial
  start {_ _ request} _ := by
    have every : Calls (fun _ => True) = fun _ : ServiceOp TxCall Outside => True := by
      funext op
      cases op <;> rfl
    exact every ▸ (request.handler config).all_trivial

theorem Coherent.begins (unlinked : ∀ userId, stored d userId = none) :
    Coherent (World.init d Ext.idle) where
  obeys _ _ _ found := by cases found
  genuine _ _ _ found := by cases found
  distinct := List.nodup_nil
  owned userId id found := by cases (unlinked userId).symm.trans found
  pending := by
    rintro _ _ _ ⟨_, _, found, _⟩
    cases found
  alone := by
    rintro _ _ _ _ _ ⟨_, _, found, _⟩
    cases found
  kept _ member := by cases member
  clears _ _ _ _ found := by cases found

theorem coherent_of_traces (unlinked : ∀ userId, stored d userId = none)
    (run : (onboarding config).Traces genuine Spaced (World.init d Ext.idle) w) : Coherent w := by
  induction run with
  | refl => exact .begins unlinked
  | tail earlier last ih =>
    have orderly := (World.Orderly.init d Ext.idle).reaches (onboarding_disciplined config)
      (System.Traces.reaches earlier)
    exact ih.step orderly last.1 last.2

/-- Two accounts of a user that both live are the same. -/
theorem Coherent.single (coherent : Coherent w) {first second : Account}
    (left : first ∈ w.shared.ext.accounts)
    (right : second ∈ w.shared.ext.accounts) (same : first.userId = second.userId)
    (alive : first.id ∉ w.shared.ext.deauthorized)
    (alive' : second.id ∉ w.shared.ext.deauthorized) : first = second := by
  refine List.inj_on_of_nodup_map coherent.distinct left right ?_
  rcases coherent.kept first left alive with stored | ⟨pid, writes⟩ <;>
    rcases coherent.kept second right alive' with stored' | ⟨other, writes'⟩
  · rw [same] at stored
    exact Option.some.inj (stored.symm.trans stored')
  · rw [same] at stored
    cases (coherent.pending other _ _ writes').2.symm.trans stored
  · rw [← same] at stored'
    cases (coherent.pending pid _ _ writes).2.symm.trans stored'
  · rw [← same] at writes'
    obtain rfl := coherent.alone _ _ _ _ _ writes writes'
    obtain ⟨_, _, found, aims⟩ := writes
    obtain ⟨_, _, found', aims'⟩ := writes'
    cases found.symm.trans found'
    simpa using aims.symm.trans aims'

/-- However onboardings and webhooks interleave, as long as an account is created for a user
with no link stored or about to be, and a link is stored under no webhook about to clear it. -/
theorem onboarding_links (unlinked : ∀ userId, stored d userId = none)
    (run : (onboarding config).Traces genuine Spaced (World.init d Ext.idle) w) : Linked w := by
  have coherent := coherent_of_traces unlinked run
  refine ⟨fun first left second right same alive alive' =>
    coherent.single left right same alive alive', coherent.kept, ?_⟩
  intro pid accountId phase userId found aims
  obtain ⟨_, ⟨⟩, only⟩ := coherent.clears pid _ phase userId found aims
  exact only

end Runs

namespace Script

def config : Config := ⟨"https://wallet/return", "https://wallet/refresh"⟩

/-- A user who has not been onboarded. -/
def alice : User := ⟨"alice", "Alice", "alice@wallet", "1", "secret", .user,
    .active, none, none, none, 0⟩

def store : DB := { DB.empty with users := Table.empty.put alice }

theorem store_unlinked (userId : UserId) : stored store userId = none := by
  by_cases here : userId = alice.id
  · subst here
    decide
  · have nobody : store.users.get? userId = none := by
      simp only [store, Table.get?_put, here, if_false]
      rfl
    rw [stored, nobody, Option.bind_none]

/-- Alice's request finds her unlinked and creates an account. -/
def creates (pid : Nat) (accountId : String) : Script :=
  [.start pid (.createConnectAccount "alice" "alice@wallet"), .turn pid (.answer ""),
    .turn pid (.answer accountId)]

def stores (pid : Nat) : Script := [.turn pid .commit, .turn pid (.answer "")]

/-- A webhook finds the user that an account is linked to. -/
def reports (pid : Nat) (accountId : String) : Script :=
  [.start pid (.deauthorized (some accountId)), .turn pid (.answer "")]

end Script

/-- Alice is onboarded, withdraws the access to her account, and is onboarded again. -/
theorem onboarding_links_again : ∃ w : State, Linked w ∧
      w.shared.ext = ⟨[⟨"acct_1", "alice"⟩, ⟨"acct_2", "alice"⟩], ["acct_1"]⟩ ∧
    stored w.shared.db "alice" = some "acct_2" := by
  obtain ⟨stage, run, ext, link⟩ :=
      Script.traces (Script.creates 0 "acct_1" ++ Script.stores 0 ++ [.drift] ++
      Script.reports 1 "acct_1" ++ [.turn 1 .commit] ++ Script.creates 2 "acct_2" ++
        Script.stores 2) Script.config Script.store [0, 1, 2]
    (by decide) (fun stage =>
      stage.shared.ext = ⟨[⟨"acct_1", "alice"⟩, ⟨"acct_2", "alice"⟩], ["acct_1"]⟩ ∧
      stored stage.shared.db "alice" = some "acct_2") (by decide +kernel)
  exact ⟨stage.world, onboarding_links Script.store_unlinked run, ext, link⟩

/-- The process is about to clear the link of a user. -/
theorem Stage.clearing {stage : Stage} {pid : Nat} {request : Request} {userId : UserId}
    (found : (stage.procs pid).map (·.1) = some request)
    (aims : stage.aim pid = some (userId, none)) :
    ∃ phase, (stage.world : State).procs pid = some (request, phase) ∧
      links phase.residual = some (userId, none) := by
  obtain ⟨⟨_, program⟩, same, rfl⟩ := Option.map_eq_some_iff.mp found
  refine ⟨.running program, by simp [System.Stage.world, same], ?_⟩
  rw [Stage.aim, same] at aims
  exact aims

/-- Two requests at once leave alice with two accounts, one of them orphaned; and a webhook
that was delivered twice is about to clear the link to the account she created in between. -/
theorem onboarding_overlaps :
    (∃ w : State, (onboarding Script.config).Reaches genuine (World.init Script.store Ext.idle) w ∧
      w.shared.ext = ⟨[⟨"acct_1", "alice"⟩, ⟨"acct_2", "alice"⟩], []⟩ ∧
        stored w.shared.db "alice" = some "acct_2" ∧ ¬ Linked w) ∧
    ∃ w : State, (onboarding Script.config).Reaches genuine (World.init Script.store Ext.idle) w ∧
      w.shared.ext = ⟨[⟨"acct_1", "alice"⟩, ⟨"acct_2", "alice"⟩], ["acct_1"]⟩ ∧
        stored w.shared.db "alice" = some "acct_2" ∧
      ¬ Linked w := by
  constructor
  · obtain ⟨stage, run, ext, link⟩ :=
      Script.reaches (Script.creates 0 "acct_1" ++ Script.creates 1 "acct_2" ++
        Script.stores 0 ++ Script.stores 1) Script.config Script.store
      (fun stage => stage.shared.ext = ⟨[⟨"acct_1", "alice"⟩, ⟨"acct_2", "alice"⟩], []⟩ ∧
        stored stage.shared.db "alice" = some "acct_2") (by decide +kernel)
    refine ⟨stage.world, run, ext, link, fun linked => ?_⟩
    have single := linked.single
    rw [show stage.world.shared.ext = _ from ext] at single
    exact absurd (single ⟨"acct_1", "alice"⟩ (by decide) ⟨"acct_2",
      "alice"⟩ (by decide) rfl (by decide) (by decide)) (by decide)
  · obtain ⟨stage, run, ext, link, found, aims⟩ :=
      Script.reaches (Script.creates 0 "acct_1" ++ Script.stores 0 ++ [.drift] ++
        Script.reports 1 "acct_1" ++ Script.reports 2 "acct_1" ++ [.turn 1 .commit] ++
          Script.creates 3 "acct_2" ++
        Script.stores 3) Script.config Script.store
      (fun stage => stage.shared.ext = ⟨[⟨"acct_1", "alice"⟩, ⟨"acct_2", "alice"⟩], ["acct_1"]⟩ ∧
        stored stage.shared.db "alice" = some "acct_2" ∧
          (stage.procs 2).map (·.1) = some (.deauthorized (some "acct_1")) ∧
        stage.aim 2 = some ("alice", none)) (by decide +kernel)
    refine ⟨stage.world, run, ext, link, fun linked => ?_⟩
    obtain ⟨phase, open_, clears⟩ := Stage.clearing found aims
    exact absurd (linked.clears 2 "acct_1" phase "alice" open_ clears "acct_2" link) (by decide)

end PaymentWallet.Connect
