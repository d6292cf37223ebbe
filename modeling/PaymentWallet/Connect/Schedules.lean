import PaymentWallet.Connect.Linking
import PaymentWallet.Foundation.Interleaving

/-! Computed runs of the onboarding: reads answer what the store holds, a script names the
accounts that Stripe creates, and owners deauthorize their accounts in the order of creation. -/
namespace PaymentWallet.Connect
open Foundation

def Outside.answer (accountId : String) (_ : Nat) :
    (x : Outside) → DB → Ext → Except Exception x.Reply × Ext
  | .findById userId, d, ext => (.ok ((d.users.get? userId).map (·.stripeConnectAccountId)), ext)
  | .findByConnectAccountId account, d, ext =>
    (.ok ((d.users.rows.find? fun row => row.stripeConnectAccountId = some account).map (·.id)),
      ext)
  | .createAccount userId _, _, ext =>
    if accountId ≠ "" ∧ ∀ account ∈ ext.accounts, account.id ≠ accountId then
      (.ok accountId, { ext with accounts := ext.accounts ++ [⟨accountId, userId⟩] })
    else (.error .connectionLost, ext)
  | .createAccountLink account _ _, _, ext => (.ok ("https://connect/" ++ account), ext)
  | .draw, _, ext => (.ok ⟨accountId, accountId, "", "", "", "", "", 0, 0, 0, 0⟩, ext)

theorem Outside.answer_answers (accountId : String) (pid : Nat) (x : Outside) (d : DB) (ext : Ext) :
    x.Answers d ext (x.answer accountId pid d ext).1 (x.answer accountId pid d ext).2 := by
  cases x with
  | findById | findByConnectAccountId => exact ⟨rfl, .inl rfl⟩
  | createAccountLink => rfl
  | draw => exact ⟨rfl, _, rfl⟩
  | createAccount userId email =>
    simp only [Outside.Answers, Outside.answer]
    split
    · exact .created (And.left ‹_›) (And.right ‹_›)
    · exact .failed

abbrev Script := List (Cue Request String)

abbrev Stage := System.Stage Request TxCall Outside TxCall.Out Outside.Reply
    Exception Response DB Ext

/-- The oldest account that is not deauthorized. -/
def Ext.deauthorize (ext : Ext) : Option Ext :=
  (ext.accounts.find? fun account => account.id ∉ ext.deauthorized).map fun account =>
    { ext with deauthorized := account.id :: ext.deauthorized }

theorem Ext.deauthorizes {ext ext' : Ext} (changed : ext.deauthorize = some ext') :
    Deauthorize ext ext' := by
  obtain ⟨account, found, rfl⟩ := Option.map_eq_some_iff.mp changed
  exact .withdrawn (List.mem_of_find?_eq_some found)

/-- What the process writes next. -/
def Stage.aim (stage : Stage) (pid : Nat) : Option (UserId × Option String) :=
  (stage.procs pid).bind fun entry => links entry.2

/-- `Spaced`, where only the listed processes have started. -/
def Stage.spaced (pids : List Nat) (stage stage' : Stage) : Bool :=
  (stage'.shared.ext.accounts.all fun account => account ∈ stage.shared.ext.accounts ||
    (stored stage.shared.db account.userId).isNone &&
      pids.all fun pid => (stage.aim pid).all fun aim => aim.1 ≠ account.userId || aim.2.isNone) &&
  stage'.shared.db.users.rows.all fun user => user.stripeConnectAccountId.all fun id =>
    stored stage.shared.db user.id = some id || pids.all fun pid =>
      stage.aim pid ≠ some (user.id, none)

section Checks
variable {config : Config} {w : State} {stage stage' : Stage} {pids : List Nat} {pid : Nat}
  {userId : UserId} {link : Option String}

theorem aim_writes (same : ∀ pid,
    (w.procs pid).map (fun entry => (entry.1, entry.2.residual)) = stage.procs pid)
    (writes : Writes w pid userId link) : stage.aim pid = some (userId, link) := by
  obtain ⟨request, phase, found, aims⟩ := writes
  have here := same pid
  rw [found, Option.map_some] at here
  rw [Stage.aim, ← here]
  exact aims

theorem listed_aim (idle : ∀ pid ∉ pids, stage.procs pid = none)
    (aims : stage.aim pid = some (userId, link)) : pid ∈ pids := by
  by_contra other
  simp [Stage.aim, idle pid other] at aims

theorem spaced_checks (config : Config) (pids : List Nat) :
    System.Checks (onboarding config) pids Spaced (Stage.spaced pids) where
  calm {w w'} taken := by
    have same : w'.shared = w.shared := System.Reaches.quiet (.single taken)
    refine ⟨fun account member new => absurd (same ▸ member) new,
      fun userId id now before => absurd (same ▸ now) before⟩
  last {stage stage' w} checked idle shared same := by
    simp only [Stage.spaced, Bool.and_eq_true, List.all_eq_true, Bool.or_eq_true, decide_eq_true_eq,
      Option.isNone_iff_eq_none] at checked
    refine ⟨fun account member new => ?_, fun userId id now before pid writes => ?_⟩
    · rw [shared] at new ⊢
      rcases checked.1 account member with old | ⟨unlinked, free⟩
      · exact absurd old new
      · refine ⟨unlinked, fun pid id writes => ?_⟩
        have aims := aim_writes same writes
        have other := free pid (listed_aim idle aims)
        simp [aims] at other
    · rw [shared] at before
      obtain ⟨user, found, linked⟩ := Option.bind_eq_some_iff.mp now
      have key : user.id = userId := Table.get?_key found
      have aims := aim_writes same writes
      have clear := checked.2 user (Table.get?_mem found)
      rw [linked, Option.all_some, Bool.or_eq_true, decide_eq_true_eq,
        List.all_eq_true, key] at clear
      rcases clear with old | free
      · exact before old
      · exact absurd aims (of_decide_eq_true (free pid (listed_aim idle aims)))

end Checks

/-- Runs from a stage on which nobody has started. -/
def Script.outcome (script : Script) (config : Config) (d : DB) : Option Stage :=
  System.enact (onboarding config) Outside.answer (fun σ label => genuine σ label) Ext.deauthorize
    ⟨fun _ => none, d, [], Ext.idle⟩ script

theorem Script.reaches (script : Script) (config : Config) (d : DB)
    (P : Stage → Prop) [DecidablePred P] (ends : (script.outcome config d).any P) : ∃ stage : Stage,
      (onboarding config).Reaches genuine (World.init d Ext.idle) stage.world ∧ P stage := by
  obtain ⟨stage, enacted, holds⟩ := (Option.any_eq_true ..).mp ends
  exact ⟨stage, System.enact_reaches postgres_unread Outside.answer_answers of_decide_eq_true
    Ext.deauthorizes enacted, of_decide_eq_true holds⟩

/-- A script whose steps are spaced. -/
theorem Script.traces (script : Script) (config : Config) (d : DB) (pids : List Nat)
    (listed : ∀ cue ∈ script, ∀ pid, cue.pid = some pid → pid ∈ pids)
    (P : Stage → Prop) [DecidablePred P]
    (ends : (System.enactAll (onboarding config) Outside.answer
      (fun σ label => genuine σ label) Ext.deauthorize
      (Stage.spaced pids) ⟨fun _ => none, d, [], Ext.idle⟩ script).any P) : ∃ stage : Stage,
      (onboarding config).Traces genuine Spaced (World.init d Ext.idle) stage.world ∧ P stage := by
  obtain ⟨stage, enacted, holds⟩ := (Option.any_eq_true ..).mp ends
  exact ⟨stage, System.enactAll_traces postgres_unread Outside.answer_answers
    of_decide_eq_true Ext.deauthorizes
    (spaced_checks config pids) listed (fun _ _ => rfl) enacted, of_decide_eq_true holds⟩

end PaymentWallet.Connect
