import PaymentWallet.Sessions.Services
import PaymentWallet.Foundation.Interleaving

/-! Computed runs of the sessions: reads answer what the store and the cache hold, and
a script chooses the draws and the tokens that are generated. -/
namespace PaymentWallet.Sessions
open Foundation

/-- What the outside decides at one step. -/
structure Choice where
  draw : Draw := ⟨"", 0, "", 0, none, []⟩
  tokens : TokenPair := ⟨"", ""⟩
  jti : String := ""

instance (config : Config) (ext : Ext) (pair : TokenPair) : Decidable (Fresh config ext pair) :=
  inferInstanceAs (Decidable (∀ issue ∈ ext.issued, _))

def Outside.answer (config : Config) (choice : Choice) (pid : Nat) :
    (x : Outside) → Store → Ext → Except Exception x.Reply × Ext
  | .findToken tokenHash, d, ext => (.ok (d.refreshTokens.get? tokenHash), ext)
  | .expired token, d, ext => (.ok (decide (token.expiresAt ≤ d.now)), ext)
  | .withinGrace _ revokedAt, d, ext =>
    (.ok (decide (d.now - revokedAt ≤ gracePeriodSeconds * 1000)), ext)
  | .findById id, d, ext => (.ok (d.users.get? id), ext)
  | .findByEmail email, d, ext => (.ok (d.users.rows.find? fun row => row.email = email), ext)
  | .argon2Verify hash plain, _, ext => (.ok (config.verify hash plain), ext)
  | .generateTokenPair userId email role, d, ext =>
    match config.ms config.accessExpiry with
    | none => (.error .connectionLost, ext)
    | some lifetime =>
      if Fresh config ext choice.tokens ∧ ext.signed choice.tokens.accessToken = none then
        (.ok choice.tokens, (ext.issue pid choice.tokens).sign choice.tokens.accessToken
          ⟨⟨userId, email, role, choice.jti⟩, d.now / 1000 + lifetime / 1000⟩)
      else (.error .connectionLost, ext)
  | .getRefreshExpiry, d, ext => (.ok (d.now + config.refreshExpiry), ext)
  | .draw, _, ext => (.ok choice.draw, ext)
  | .getCache tokenHash, d, ext => (.ok (ext.cached d.now tokenHash), ext)
  | .setCache tokenHash encrypted, d, ext => (.ok (), ext.setCache tokenHash encrypted d.now)
  | .delCache tokenHash, _, ext => (.ok (), ext.delCache tokenHash)
  | .denylist jti, d, ext => (.ok (), ext.deny jti d.now config.getAccessTokenTtlSeconds)
  | .verifyJwt accessToken, d, ext =>
    match ext.verified d.now accessToken with
    | none => (.error (.unauthorized "Unauthorized"), ext)
    | some token => (.ok token.payload, ext)
  | .getDenylist jti, d, ext => (.ok (ext.denied d.now jti), ext)
  | .setLock, _, ext =>
    match ext.lock with
    | none => (.ok true, { ext with lock := some ⟨pid, true⟩ })
    | some _ => (.ok false, ext)
  | .delLock, _, ext => (.ok (), { ext with lock := none })

theorem Outside.answer_answers (config : Config) (choice : Choice) (pid : Nat) (x : Outside)
    (d : Store) (ext : Ext) :
    x.Answers config pid d ext (x.answer config choice pid d ext).1
      (x.answer config choice pid d ext).2 := by
  cases x with
  | generateTokenPair =>
    simp only [Outside.Answers, Outside.answer]
    split
    · exact .inr ⟨rfl, rfl⟩
    · rename_i lifetime read
      split
      · rename_i fresh
        exact .inl ⟨_, _, lifetime, fresh.1, fresh.2, read, rfl, rfl⟩
      · exact .inr ⟨rfl, rfl⟩
  | verifyJwt accessToken =>
    simp only [Outside.Answers, Outside.answer]
    cases ext.verified d.now accessToken <;> exact ⟨rfl, rfl⟩
  | expired | withinGrace | getRefreshExpiry => exact ⟨rfl, rfl⟩
  | draw => exact ⟨rfl, _, rfl⟩
  | setCache | delCache | denylist => exact .done
  | setLock =>
    simp only [Outside.Answers, Outside.answer]
    cases held : ext.lock with
    | none => exact .acquired held
    | some lock => exact .taken held
  | delLock => exact .deleted
  | _ => exact ⟨rfl, .inl rfl⟩

/-- Requests in any interleaving of their steps. -/
abbrev Script := List (Cue Request Choice)

abbrev Stage := System.Stage Request TxCall Outside TxCall.Out Outside.Reply
    Exception Response Store Ext

def Ext.expire (ext : Ext) : Option Ext := ext.lock.map fun _ => { ext with lock := none }

theorem Ext.expires {ext ext' : Ext} (expired : ext.expire = some ext') : Expire ext ext' := by
  obtain ⟨lock, held, rfl⟩ := Option.map_eq_some_iff.mp expired
  exact .lock held

def Script.outcome (script : Script) (config : Config) (permit : Permit)
    [∀ σ label, Decidable (permit σ label)] :
    Option Stage :=
  System.enact (sessions config) (Outside.answer config) (fun σ label => permit σ label) Ext.expire
    ⟨fun _ => none, Store.empty, [], Ext.idle⟩ script

theorem Script.reaches (script : Script) (config : Config) (permit : Permit)
    [∀ σ label, Decidable (permit σ label)]
    (P : Stage → Prop) [DecidablePred P] (ends : (script.outcome config permit).any P) :
    ∃ stage : Stage, (sessions config).Reaches permit (World.init Store.empty Ext.idle)
      stage.world ∧ P stage := by
  obtain ⟨stage, enacted, holds⟩ := (Option.any_eq_true ..).mp ends
  exact ⟨stage, System.enact_reaches postgres_unread (Outside.answer_answers config)
    of_decide_eq_true Ext.expires enacted, of_decide_eq_true holds⟩

instance (σ : SharedState) (label : Label TxCall Outside Request Exception) :
    Decidable (anything σ label) :=
  inferInstanceAs (Decidable True)

/-- What a script leads to, and another one after it. -/
theorem Script.continues (first second : Script) (config : Config) (P : Stage → Stage → Prop)
    [∀ stage stage', Decidable (P stage stage')]
    (ends : (first.outcome config anything).any fun stage =>
      (System.enact (sessions config) (Outside.answer config) (fun _ _ => true) Ext.expire stage
        second).any (P stage)) :
    ∃ stage stage' : Stage,
    (sessions config).Reaches anything (World.init Store.empty Ext.idle) stage.world ∧
      (sessions config).Reaches anything stage.world stage'.world ∧ P stage stage' := by
  obtain ⟨stage, run, later⟩ :=
    first.reaches config anything (fun stage => (System.enact (sessions config)
    (Outside.answer config) (fun _ _ => true) Ext.expire stage second).any (P stage))
      (by simpa using ends)
  obtain ⟨stage', enacted, holds⟩ := (Option.any_eq_true ..).mp later
  exact ⟨stage, stage', run, System.enact_reaches postgres_unread (Outside.answer_answers config)
    (fun _ => trivial) Ext.expires enacted, of_decide_eq_true holds⟩

/-- A script whose steps all pass a check. -/
theorem Script.traces (script : Script) (config : Config) {pids : List Nat}
    {Good : State → State → Prop}
    {check : Stage → Stage → Bool} (checks : System.Checks (sessions config) pids Good check)
    (listed : ∀ cue ∈ script, ∀ pid, cue.pid = some pid → pid ∈ pids)
    (P : Stage → Prop) [DecidablePred P]
    (ends : (System.enactAll (sessions config) (Outside.answer config)
      (fun _ _ => true) Ext.expire check
      ⟨fun _ => none, Store.empty, [], Ext.idle⟩ script).any P) :
    ∃ stage : Stage, (sessions config).Traces anything Good (World.init Store.empty Ext.idle)
      stage.world ∧ P stage := by
  obtain ⟨stage, enacted, holds⟩ := (Option.any_eq_true ..).mp ends
  refine ⟨stage, ?_, of_decide_eq_true holds⟩
  exact System.enactAll_traces postgres_unread (Outside.answer_answers config) (fun _ => trivial)
    Ext.expires checks listed
    (fun _ _ => rfl) enacted

section Deployment

/-- Both tokens letter by letter, each letter marked with its token. -/
def marked (pair : TokenPair) : String :=
  String.ofList (pair.accessToken.toList.flatMap (['a', ·]) ++
    pair.refreshToken.toList.flatMap (['r', ·]))

def lettersOf : List Char → List Char × List Char
  | 'a' :: letter :: rest => (letter :: (lettersOf rest).1, (lettersOf rest).2)
  | 'r' :: letter :: rest => ((lettersOf rest).1, letter :: (lettersOf rest).2)
  | _ => ([], [])

def readMarked (encrypted : String) : Option TokenPair :=
  some ⟨String.ofList (lettersOf encrypted.toList).1, String.ofList (lettersOf encrypted.toList).2⟩

theorem readMarked_marked (pair : TokenPair) : readMarked (marked pair) = some pair := by
  have refresh : ∀ letters : List Char, lettersOf (letters.flatMap (['r', ·])) = ([], letters) := by
    intro letters
    induction letters with
    | nil => rfl
    | cons letter rest ih => simp [lettersOf, ih]
  have both : ∀ first second : List Char,
      lettersOf (first.flatMap (['a', ·]) ++ second.flatMap (['r', ·])) = (first, second) := by
    intro first second
    induction first with
    | nil => exact refresh second
    | cons letter rest ih => simp [lettersOf, ih]
  simp [readMarked, marked, both]

/-- Numbers with a unit, as the `ms` library reads them. -/
def readUnits (text : String) : Option Nat :=
  match text.toList.reverse with
  | [] => none
  | unit :: digits => (msUnit unit).map (Nat.ofDigitChars 10 digits.reverse 0 * ·)

theorem readUnits_reads (expiry : String) : ReadsUnits readUnits expiry := by
  rintro digits _ unit milliseconds read known rfl text
  simp only [readUnits, String.toList_ofList, List.reverse_append, List.reverse_cons,
    List.reverse_nil, List.nil_append, List.singleton_append, List.reverse_reverse, known,
    Option.map_some, Option.some.injEq] at text
  exact text.symm

/-- A deployment that keeps sessions for a week. -/
def Config.sample (maxSessions : Nat) : Config where
  hashToken token := "hash-" ++ token
  encrypt := marked
  decrypt := readMarked
  decrypt_encrypt := readMarked_marked
  verify hash plain := hash = plain
  maxSessions := maxSessions
  refreshExpiry := 604800000
  accessExpiry := "5m"
  access_valid := by decide
  ms := readUnits
  ms_reads := readUnits_reads _

end Deployment
end PaymentWallet.Sessions
