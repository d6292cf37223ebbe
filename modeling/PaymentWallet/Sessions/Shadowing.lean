import PaymentWallet.Sessions.Stepping
import PaymentWallet.Foundation.Schedule
import PaymentWallet.Foundation.Simulation

/-! A run without cleanups keeps up with one that has them, as long as no batch deletes a
token that a refresh may still exchange or whose user's sessions are just being counted. -/
namespace PaymentWallet.Sessions
open Foundation

/-- Runs without cleanups. -/
def uncleaned : Permit := fun _ label =>
  match label with
  | .start _ request => request.cleans = false
  | _ => True

/-- The step deletes no token that a refresh has looked up and may still exchange, and none
that an open transaction counts or evicts as of a time when it had not ended. -/
def Undisturbed (config : Config) (w w' : State) : Prop :=
  ∀ tokenHash row, w.shared.db.refreshTokens.get? tokenHash = some row →
    w'.shared.db.refreshTokens.get? tokenHash = none →
    ∀ pid request phase, w.procs pid = some (request, phase) → request.cleans = false →
      (phase = .running (request.handler config) ∨
        Forgoes w.shared.db.now tokenHash phase.residual) ∧
        ∀ c body writes held next, phase = .inTx c body writes held next →
          c.opens = some row.userId → Overlooks c row body

def Ext.unlocked (ext : Ext) : Ext := { ext with lock := none }

/-- `v` is where the run without cleanups stands when `w` has been reached with them. -/
structure Shadow (config : Config) (gone : List String) (w v : State) : Prop where
  left : Reachable config w
  right : (sessions config).Reaches uncleaned (World.init Store.empty Ext.idle) v
  swept : Store.Swept gone v.shared.db w.shared.db
  log : v.shared.log = w.shared.log.filter fun c => !c.sweeps
  ext : v.shared.ext = w.shared.ext.unlocked
  procs : ∀ pid, Alike config gone v.shared.db w.shared.db (w.procs pid) (v.procs pid)

section Outside
variable {config : Config} {pid : Nat} {x : Outside} {d d' : Store} {ext ext' : Ext}
  {reply : Except Exception x.Reply}

theorem Outside.Answers.timely (answers : x.Answers config pid d ext reply ext') :
    x.timely d.now reply := by
  cases x with
  | expired token =>
    obtain ⟨rfl, rfl⟩ := answers
    by_cases past : token.expiresAt ≤ d.now
    · rw [decide_eq_true past]
      trivial
    · rw [decide_eq_false past]
      exact Nat.lt_of_not_le past
  | _ => trivial

/-- A quiet step does not look at the tokens, nor at the cleanup lock. -/
theorem Outside.Answers.unlocked (quiet : x.quiet) (now : d'.now = d.now)
    (users : d'.users = d.users)
    (answers : x.Answers config pid d ext reply ext') :
    x.Answers config pid d' ext.unlocked reply ext'.unlocked := by
  cases x with
  | findToken | setLock | delLock => cases quiet
  | expired | withinGrace | getRefreshExpiry | getCache | verifyJwt | getDenylist =>
    obtain ⟨rfl, replied⟩ := answers
    refine ⟨rfl, ?_⟩
    rw [now]
    exact replied
  | findById | findByEmail =>
    obtain ⟨rfl, replied⟩ := answers
    refine ⟨rfl, ?_⟩
    rw [users]
    exact replied
  | argon2Verify | draw =>
    obtain ⟨rfl, replied⟩ := answers
    exact ⟨rfl, replied⟩
  | generateTokenPair =>
    simp only [Outside.Answers, now]
    rcases answers with ⟨pair, jti, lifetime, fresh, unsigned, read, rfl, rfl⟩ | ⟨rfl, rfl⟩
    · exact .inl ⟨pair, jti, lifetime, fresh, unsigned, read, rfl, rfl⟩
    · exact .inr ⟨rfl, rfl⟩
  | setCache | denylist =>
    simp only [Outside.Answers, now]
    cases answers with
    | done => exact .done
    | unheard => exact .unheard
    | failed => exact .failed
  | delCache =>
    cases answers with
    | done => exact .done
    | unheard => exact .unheard
    | failed => exact .failed

/-- A cleanup moves nothing but its lock. -/
theorem Outside.Answers.cleaning (cleans : x = .setLock ∨ x = .delLock ∨ x = .draw)
    (answers : x.Answers config pid d ext reply ext') : ext'.unlocked = ext.unlocked := by
  rcases cleans with rfl | rfl | rfl
  · cases answers <;> rfl
  · cases answers <;> rfl
  · exact congrArg Ext.unlocked answers.1

theorem Expire.unlocked (expired : Expire ext ext') : ext'.unlocked = ext.unlocked := by
  cases expired with
  | lock => rfl

end Outside

section Moves
variable {config : Config} {gone gone' : List String} {w w' v v' : State}
  {pid : Nat} {request : Request} {phase phase' : SessionPhase} {σ : SharedState}

/-- One process takes a step in the first run, and the second run answers it. -/
theorem Shadow.move (shadow : Shadow config gone w v) (taken : (sessions config).Step anything w w')
    (answered : (sessions config).Reaches uncleaned v v')
    (others : ∀ other ≠ pid, w'.procs other = w.procs other ∧ v'.procs other = v.procs other)
    (swept : Store.Swept gone' v'.shared.db w'.shared.db)
    (log : v'.shared.log = w'.shared.log.filter fun c => !c.sweeps)
    (ext : v'.shared.ext = w'.shared.ext.unlocked)
    (own : Alike config gone' v'.shared.db w'.shared.db (w'.procs pid) (v'.procs pid))
    (lasts : v.shared.db.Lasts v'.shared.db)
    (foreign : ∀ other ≠ pid, ∀ tokenHash, w.Holds other (.token tokenHash) →
      w'.shared.db.refreshTokens.get? tokenHash = w.shared.db.refreshTokens.get? tokenHash)
    (grown : ∀ tokenHash ∈ gone, tokenHash ∈ gone')
    (unharmed : ∀ other ≠ pid, ∀ request phase, w.procs other = some (request, phase) →
      request.cleans = false →
      ∀ tokenHash ∈ gone', tokenHash ∉ gone →
        Unharmed config v'.shared.db tokenHash request phase) : Shadow config gone' w' v' where
  left := shadow.left.tail taken
  right := shadow.right.trans answered
  swept := swept
  log := log
  ext := ext
  procs other := by
    by_cases here : other = pid
    · exact here ▸ own
    · rw [(others other here).1, (others other here).2]
      refine (shadow.procs other).frame shadow.swept lasts ?_ ?_ swept.expired grown
        (unharmed other here)
      · rw [shadow.swept.now, swept.now]
        exact lasts.now
      · exact fun request phase found tokenHash held =>
          foreign other here tokenHash ⟨request, phase, found, held⟩

/-- A step that leaves the store alone, and that the second run takes no part in. -/
theorem Shadow.apart (shadow : Shadow config gone w v)
    (taken : (sessions config).Step anything w (World.set { w with shared := σ } pid request phase))
    (db : σ.db = w.shared.db) (log : σ.log = w.shared.log)
    (ext : σ.ext.unlocked = w.shared.ext.unlocked)
    (own : Alike config gone v.shared.db w.shared.db (some (request, phase)) (v.procs pid)) :
    Shadow config gone (World.set { w with shared := σ } pid request phase) v := by
  refine shadow.move taken .refl (fun other different =>
    ⟨World.set_other _ _ _ different, rfl⟩) ?_ ?_ ?_ ?_ (.refl _)
    (fun _ _ tokenHash _ => congrArg (fun d : Store => d.refreshTokens.get? tokenHash) db)
      (fun _ => id) fun _ _ _ _ _ _ _ member before => absurd member before
  · exact db ▸ shadow.swept
  · exact log ▸ shadow.log
  · exact ext ▸ shadow.ext
  · rw [World.set_same]
    exact db ▸ own

/-- A step that leaves the store alone, and that the second run takes as well. -/
theorem Shadow.along (shadow : Shadow config gone w v)
    (taken : (sessions config).Step anything w (World.set { w with shared := σ } pid request phase))
    (solo : System.Solo (M := sessions config) uncleaned v pid request phase' σ' v')
    (db : σ.db = w.shared.db) (log : σ.log = w.shared.log) (db' : σ'.db = v.shared.db)
    (log' : σ'.log = v.shared.log) (ext : σ'.ext = σ.ext.unlocked)
    (own : Alike config gone v.shared.db w.shared.db (some (request, phase))
      (some (request, phase'))) :
    ∃ v', (sessions config).Reaches uncleaned v v' ∧
      Shadow config gone (World.set { w with shared := σ } pid request phase) v' := by
  obtain rfl := solo.shared
  refine ⟨_, solo.run, shadow.move taken solo.run (fun other different =>
    ⟨World.set_other _ _ _ different, solo.others other different⟩)
    ?_ ?_ ext ?_ ?_ (fun _ _ tokenHash _ =>
      congrArg (fun d : Store => d.refreshTokens.get? tokenHash) db) (fun _ => id)
    fun _ _ _ _ _ _ _ member before => absurd member before⟩
  · rw [db']
    exact db ▸ shadow.swept
  · rw [log']
    exact log ▸ shadow.log
  · rw [World.set_same, solo.phase, db']
    exact db ▸ own
  · rw [db']
    exact .refl _

theorem Shadow.start (shadow : Shadow config gone w v) (idle : w.procs pid = none) : ∃ v',
    (sessions config).Reaches uncleaned v v' ∧
      Shadow config gone (w.set pid request (.running (request.handler config))) v' := by
  have idle' : v.procs pid = none := by
    have alike := shadow.procs pid
    rw [idle] at alike
    generalize v.procs pid = other at alike
    cases alike with
    | idle => rfl
  have taken : (sessions config).Step anything w
    (w.set pid request (.running (request.handler config))) := .start idle trivial
  cases cleans : request.cleans with
  | true =>
    refine ⟨v, .refl, shadow.apart taken rfl rfl rfl ?_⟩
    exact idle' ▸ .cleans cleans (.running (cleaning_handler cleans))
  | false =>
    apply shadow.along taken (.start idle' cleans) rfl rfl rfl rfl shadow.ext
    cases presents : request.presents with
    | none => exact .stays cleans (.running (settled_handler presents cleans))
    | some token => exact .looks (by simp [presents]) rfl

/-- A token that is gone is not found in the first run, and has expired in the second. -/
theorem Shadow.looked (shadow : Shadow config gone w v) {hash : String}
    {f : SessionStatus → Svc Response}
    {next : Except Exception (Option RefreshToken) → Svc Response}
    {reply : Except Exception (Option RefreshToken)} {ext : Ext}
    (keeps : request.cleans = false) (looks : LooksUp v.shared.db.now (· = hash) hash f next)
    (found : w.procs pid = some (request, .running (.call (.outside (.findToken hash)) next)))
    (stand : v.procs pid = some (request, .running (.call (.outside (.findToken hash)) next)))
    (answers : (Outside.findToken hash).Answers config pid w.shared.db w.shared.ext reply ext)
    (parts : ∀ token v', System.Solo (M := sessions config) uncleaned v pid request
      (.running (f (.expired token))) v.shared v' →
      ∃ q v', System.Solo (M := sessions config) uncleaned v pid request (.running q) v.shared v' ∧
        Alike config gone v.shared.db w.shared.db (some (request, .running (f .notFound)))
          (some (request, .running q))) :
    ∃ v', (sessions config).Reaches uncleaned v v' ∧
      Shadow config gone (World.set { w with shared := { w.shared with ext := ext } } pid request
        (.running (next reply))) v' := by
  have taken : (sessions config).Step anything w _ := .outside found trivial answers
  obtain ⟨rfl, replied⟩ := answers
  have solo : System.Solo (M := sessions config) uncleaned v pid _ _ v.shared v := .refl stand
  have asks : ∀ reply', Reads reply' (v.shared.db.refreshTokens.get? hash) → ∃ v',
      System.Solo (M := sessions config) uncleaned v pid request
        (.running (next reply')) v.shared v' := by
    intro reply' replied'
    have replied' : (Outside.findToken hash).Answers config pid v.shared.db v.shared.ext reply'
      v.shared.ext := ⟨rfl, replied'⟩
    exact solo.ask trivial replied'
  by_cases member : hash ∈ gone
  · rcases replied with rfl | rfl
    · rw [shadow.swept.get?_gone member, looks.missing] at taken ⊢
      obtain ⟨row, present, before⟩ := shadow.swept.expired hash member
      obtain ⟨later, called, expired⟩ := looks.found row
      obtain ⟨v₁, solo₁⟩ := asks (.ok (some row)) (.inl (by rw [present]))
      rw [called] at solo₁
      have passed : (Outside.expired row).Answers config pid v.shared.db v.shared.ext
        (.ok true) v.shared.ext :=
        ⟨rfl, by simp [before.le]⟩
      obtain ⟨v₂, solo₂⟩ := solo₁.ask trivial passed
      rw [expired] at solo₂
      obtain ⟨q, v₃, solo₃, alike⟩ := parts row v₂ solo₂
      exact shadow.along taken solo₃ rfl rfl rfl rfl shadow.ext alike
    · obtain ⟨v₁, solo₁⟩ := asks (.error .connectionLost) (.inr rfl)
      rw [looks.failed] at taken solo₁ ⊢
      exact shadow.along taken solo₁ rfl rfl rfl rfl shadow.ext (.stays keeps (.running trivial))
  · obtain ⟨v₁, solo₁⟩ := asks reply (shadow.swept.get? member ▸ replied)
    refine shadow.along taken solo₁ rfl rfl rfl rfl shadow.ext
      (.stays keeps (.running ((looks.settled reply).mono le_rfl ?_)))
    rintro _ rfl
    exact member

/-- A logout that finds its token expired may lose its last two commands. -/
theorem logout_parts {refreshToken userId jti hash : String} {token : RefreshToken} {full d : Store}
    (solo : System.Solo (M := sessions config) uncleaned v pid (.logout refreshToken userId jti)
      (.running (AuthService.loggedOut hash userId jti (.expired token))) v.shared v') :
    ∃ q v', System.Solo (M := sessions config) uncleaned v pid (.logout refreshToken userId jti)
      (.running q) v.shared v' ∧
      Alike config gone full d
        (some (.logout refreshToken userId jti,
        .running (AuthService.loggedOut hash userId jti .notFound)))
        (some (.logout refreshToken userId jti, .running q)) := by
  by_cases owned : token.userId = userId
  · have called : AuthService.loggedOut hash userId jti (.expired token) =
        (SessionService.clearRotationCache hash).bind fun _ =>
          (SessionService.revokeAccessToken jti).bind fun _ => .pure .done := by
      simp only [AuthService.loggedOut, AuthService.endSession, owned, ne_eq, not_true_eq_false,
        if_false, Program.bind_def, Program.bind_assoc, Bool.false_eq_true,
        Program.pure_def, Program.pure_bind]
    rw [called] at solo
    have lost : (Outside.delCache hash).Answers config pid v.shared.db v.shared.ext
      (.error .connectionLost) v.shared.ext := .failed
    obtain ⟨v₁, solo₁⟩ := solo.ask trivial lost
    have lost : (Outside.denylist jti).Answers config pid v.shared.db v.shared.ext
      (.error .connectionLost) v.shared.ext := .failed
    obtain ⟨v₂, solo₂⟩ := solo₁.ask trivial lost
    exact ⟨.pure .done, v₂, solo₂, .parted rfl fun _ _ => by rintro ⟨⟩⟩
  · have thrown : AuthService.loggedOut hash userId jti (.expired token) =
        .throw (.unauthorized "Identity Mismatch") := by
      simp only [AuthService.loggedOut, AuthService.endSession, owned, ne_eq, not_false_eq_true,
        if_true, Program.bind_def, Program.throw_def, Program.throw_bind]
    exact ⟨_, v', thrown ▸ solo, .parted rfl fun _ _ => by rintro ⟨⟩⟩

theorem Shadow.outside (shadow : Shadow config gone w v) {x : Outside}
    {next : Except Exception x.Reply → Svc Response}
    {reply : Except Exception x.Reply} {ext : Ext}
    (found : w.procs pid = some (request, .running (.call (.outside x) next)))
    (answers : x.Answers config pid w.shared.db w.shared.ext reply ext) :
    ∃ v', (sessions config).Reaches uncleaned v v' ∧
      Shadow config gone (World.set { w with shared := { w.shared with ext := ext } } pid request
        (.running (next reply))) v' := by
  have taken : (sessions config).Step anything w _ := .outside found trivial answers
  have alike := shadow.procs pid
  rw [found] at alike
  generalize stand : v.procs pid = other at alike
  cases alike with
  | cleans request cleans =>
    cases cleans with
    | running all =>
      exact ⟨v, .refl, shadow.apart taken rfl rfl (answers.cleaning all.1) (stand ▸
        .cleans request (.running (all.2 reply)))⟩
  | stays keeps stays =>
    cases stays with
    | running settled =>
      have answers' := answers.unlocked settled.1 shadow.swept.now.symm shadow.swept.users.symm
      rw [← shadow.ext] at answers'
      have solo : System.Solo (M := sessions config) uncleaned v pid _ _ v.shared v := .refl stand
      obtain ⟨v₁, solo⟩ := solo.ask trivial answers'
      exact shadow.along taken solo rfl rfl rfl rfl rfl
        (.stays keeps (.running
        (settled.2 reply (answers.timely.later (Nat.le_of_eq shadow.swept.now.symm)))))
  | looks presents same =>
    cases request with
    | refresh refreshToken =>
      obtain ⟨next', called, looks⟩ := refresh_looksUp config v.shared.db.now refreshToken
      rw [called] at same
      cases same
      exact shadow.looked rfl looks found stand answers fun token v' solo =>
        ⟨_, v', solo, .stays rfl (.running trivial)⟩
    | logout refreshToken userId jti =>
      obtain ⟨next', called, looks⟩ :=
        logout_looksUp config v.shared.db.now (· = config.hashToken refreshToken)
          refreshToken userId jti
      rw [called] at same
      cases same
      exact shadow.looked rfl looks found stand answers fun token v' solo => logout_parts solo
    | _ => cases presents

theorem Shadow.drift (shadow : Shadow config gone w v) {ext : Ext}
    (expired : Expire w.shared.ext ext) :
    Shadow config gone { w with shared := { w.shared with ext := ext } } v where
  left := shadow.left.tail (.drift trivial expired)
  right := shadow.right
  swept := shadow.swept
  log := shadow.log
  ext := shadow.ext.trans expired.unlocked.symm
  procs := shadow.procs

variable {c : TxCall} {next : Except Exception c.Out → Svc Response} {writes : List Write}
  {held : List LockKey}

theorem Shadow.begin (shadow : Shadow config gone w v)
    (found : w.procs pid = some (request, .running (.call (.transact c) next))) :
    ∃ v', (sessions config).Reaches uncleaned v v' ∧
      Shadow config gone (w.set pid request (.inTx c c.code [] [] next)) v' := by
  have taken : (sessions config).Step anything w (w.set pid request (.inTx c c.code [] [] next)) :=
    .begin found
  have alike := shadow.procs pid
  rw [found] at alike
  generalize stand : v.procs pid = other at alike
  cases alike with
  | cleans request cleans =>
    cases cleans with
    | running all =>
      refine ⟨v, .refl, shadow.apart taken rfl rfl rfl (stand ▸
        .cleans request (.inTx all (purges_code all.1) ?_ ?_ ?_))⟩
      · rintro now ⟨⟩
      · exact fun _ member => absurd member List.not_mem_nil
      · exact fun _ member => absurd member List.not_mem_nil
  | stays keeps stays =>
    cases stays with
    | running settled =>
      have solo : System.Solo (M := sessions config) uncleaned v pid _ _ v.shared v := .refl stand
      refine shadow.along taken (solo.stay (.begin stand)) rfl rfl rfl rfl
        shadow.ext (.stays keeps ?_)
      refine .inTx settled (steady_code settled.1) ⟨Nat.le_refl _,
        fun tokenHash member row present _ => ?_, ?_⟩ ⟨?_, ?_, ?_⟩
      · obtain ⟨row', present', before⟩ := shadow.swept.expired tokenHash member
        cases present.symm.trans present'
        exact before.le
      · rintro tokenHash ⟨⟩
      · exact fun _ member => absurd member List.not_mem_nil
      · exact fun _ member => absurd member List.not_mem_nil
      · exact fun _ _ => List.not_mem_nil
  | looks presents same =>
    cases request with
    | refresh refreshToken =>
      obtain ⟨next', called, _⟩ := refresh_looksUp config v.shared.db.now refreshToken
      cases same.trans called
    | logout refreshToken userId jti =>
      obtain ⟨next', called, _⟩ :=
        logout_looksUp config v.shared.db.now (· ∉ gone) refreshToken userId jti
      cases same.trans called
    | _ => cases presents

variable {s : Statement} {rest : s.Reply → Tx c.Out} {reply : s.Reply} {ws : List Write}

theorem Shadow.read (shadow : Shadow config gone w v)
    (found : w.procs pid = some (request, .inTx c (.call s rest) writes held next))
    (plain : s.plain = true) (exec : s.exec w.shared.db = .ok (reply, ws)) :
    ∃ v', (sessions config).Reaches uncleaned v v' ∧
      Shadow config gone (w.set pid request (.inTx c (rest reply) writes held next)) v' := by
  have taken : (sessions config).Step anything w
    (w.set pid request (.inTx c (rest reply) writes held next)) := .read found plain exec
  have alike := shadow.procs pid
  rw [found] at alike
  generalize stand : v.procs pid = other at alike
  cases alike with
  | cleans request cleans =>
    exact ⟨v, .refl, shadow.apart taken rfl rfl rfl (stand ▸
      .cleans request (cleans.read shadow.swept plain exec))⟩
  | stays keeps stays =>
    obtain ⟨reply', exec', alike⟩ := stays.read keeps shadow.swept plain exec
    have solo : System.Solo (M := sessions config) uncleaned v pid _ _ v.shared v := .refl stand
    exact shadow.along taken (solo.stay (.read stand plain exec')) rfl rfl rfl rfl shadow.ext alike
  | lags keeps settled lags resumes resumes' run run' done =>
    rcases revoking resumes run with ⟨_, _, ⟨⟩, _⟩ | ⟨_, _, ⟨⟩⟩
    cases plain

theorem Move.entitled {d' : Store} (move : Move config pid σ (σ.commit c d')) :
    Entitled config pid σ c := by
  generalize result : σ.commit c d' = σ' at move
  have log : σ'.log = σ.log ++ [c] := result ▸ rfl
  cases move with
  | commit effect entitled =>
    cases List.append_cancel_left log
    exact entitled
  | generate | cache => cases List.self_eq_append_right.mp log

/-- A token that is about to be created has never been there. -/
theorem Shadow.fresh (shadow : Shadow config gone w v) {data : NewToken}
    {rest : Unit → Tx c.Out} {value : c.Out}
    (found : w.procs pid = some (request,
      .inTx c (.call (.createToken data.row) rest) writes held next))
    (creates : c.creates = some data) (returns : rest () = .pure value)
    (exec : (Statement.createToken data.row).exec (postgres.view w.shared.db writes) = .ok ((),
      ws)) : data.tokenHash ∉ gone := by
  have safe := shadow.left.safe
  have ready := (safe.orderly.follows found).wp (safe.procs found _ .refl safe.inv).1 () ws exec
  rw [returns] at ready
  obtain ⟨pair, ⟨_, unused⟩, hash⟩ := Move.entitled (ready.1 trivial).1 data creates
  intro member
  obtain ⟨row, present, _⟩ := shadow.swept.expired data.tokenHash member
  have sound : Sound config v.shared := (Reachable.safe (shadow.right.mono fun _ => trivial)).inv
  obtain ⟨c', logged, data', creates', same, _⟩ := sound.rows data.tokenHash row present
  rw [shadow.log] at logged
  have before := inserted (List.mem_filter.mp logged).1 creates'
  rw [same, ← hash, unused] at before
  exact absurd before (Nat.lt_irrefl 0)

theorem Shadow.write (shadow : Shadow config gone w v)
    (found : w.procs pid = some (request, .inTx c (.call s rest) writes held next))
    (locked : s.plain = false)
    (free : ∀ k ∈ s.keys (postgres.view w.shared.db writes),
      ∀ other, other ≠ pid → ¬ w.Holds other k)
    (exec : s.exec (postgres.view w.shared.db writes) = .ok (reply, ws)) :
    ∃ v', (sessions config).Reaches uncleaned v v' ∧
      Shadow config gone (w.set pid request (.inTx c (rest reply) (writes ++ ws)
        (held ++ s.keys (postgres.view w.shared.db writes)) next)) v' := by
  have taken : (sessions config).Step anything w _ := .write found locked free exec
  have alike := shadow.procs pid
  rw [found] at alike
  generalize stand : v.procs pid = other at alike
  cases alike with
  | cleans request cleans =>
    exact ⟨v, .refl, shadow.apart taken rfl rfl rfl (stand ▸
      .cleans request (cleans.write shadow.swept locked exec))⟩
  | stays keeps stays =>
    have fresh : ∀ data, c.creates = some data → s = .createToken data.row →
        data.tokenHash ∉ gone := by
      rintro data creates rfl
      cases stays with
      | inTx settled steady dates grips =>
        obtain ⟨_, value, returns⟩ := steady
        exact shadow.fresh found creates returns exec
    rcases stays.write keeps shadow.swept locked fresh exec with ⟨exec', stays⟩ | lags
    · have same : s.keys (postgres.view v.shared.db writes) =
        s.keys (postgres.view w.shared.db writes) := keys_same
      have free' : ∀ k ∈ s.keys (postgres.view v.shared.db writes), ∀ other, other ≠ pid →
          ¬ v.Holds other k := by
        rintro k key other different ⟨request, phase, there, member⟩
        obtain ⟨⟨request', phase', mine, member'⟩, _⟩ :=
          Alike.holds (there ▸ shadow.procs other) member
        exact free k (same ▸ key) other different ⟨request', phase', mine, member'⟩
      have solo : System.Solo (M := sessions config) uncleaned v pid _ _ v.shared v := .refl stand
      have wrote : (sessions config).Step uncleaned v
          (v.set pid request (.inTx c (rest reply) (writes ++ ws)
          (held ++ s.keys (postgres.view w.shared.db writes)) next)) := same ▸
            .write stand locked free' exec'
      exact shadow.along taken (solo.stay wrote) rfl rfl rfl rfl shadow.ext (.stays keeps stays)
    · exact ⟨v, .refl, shadow.apart taken rfl rfl rfl (stand ▸ lags)⟩
  | lags keeps settled lags resumes resumes' run run' done =>
    subst done
    exact ⟨v, .refl, shadow.apart taken rfl rfl rfl (stand ▸
      .lagging keeps settled lags resumes resumes' run run' exec)⟩

theorem Shadow.abort (shadow : Shadow config gone w v) {body : Tx c.Out} {error : Exception}
    (found : w.procs pid = some (request, .inTx c body writes held next))
    (aborts : (sessions config).Aborts w.shared.db (postgres.view w.shared.db writes) body error) :
    ∃ v', (sessions config).Reaches uncleaned v v' ∧
      Shadow config gone (w.set pid request (.running (next (.error error)))) v' := by
  have taken : (sessions config).Step anything w
    (w.set pid request (.running (next (.error error)))) := .abort found aborts trivial
  have alike := shadow.procs pid
  rw [found] at alike
  generalize stand : v.procs pid = other at alike
  cases alike with
  | cleans request cleans =>
    cases cleans with
    | inTx all =>
      exact ⟨v, .refl, shadow.apart taken rfl rfl rfl (stand ▸
        .cleans request (.running (all.2 _)))⟩
  | stays keeps stays =>
    have aborts' : (sessions config).Aborts v.shared.db
        (postgres.view v.shared.db writes) body error := by
      apply aborts.imp_right
      intro fails
      cases body with
      | pure value => exact fails
      | throw thrown => exact fails
      | call s rest => exact stays.fails shadow.swept fails
    have solo : System.Solo (M := sessions config) uncleaned v pid _ _ v.shared v := .refl stand
    refine shadow.along taken (solo.stay (.abort stand aborts' trivial)) rfl rfl rfl rfl
      shadow.ext (.stays keeps ?_)
    cases stays with
    | inTx settled => exact .running (settled.2.2.2 _)
  | lags keeps settled lags resumes resumes' run run' done =>
    have lost : error = .connectionLost := by
      rcases aborts with lost | fails
      · exact lost
      · rcases revoking resumes run with ⟨_, value, rfl, _⟩ | ⟨tokenHash, rest, rfl⟩
        · exact fails.elim
        · exact absurd fails revokeIfActive_succeeds
    have solo : System.Solo (M := sessions config) uncleaned v pid _ _ v.shared v := .refl stand
    refine shadow.along taken (solo.stay (.abort stand (.inl lost) trivial)) rfl rfl rfl rfl
      shadow.ext (.stays keeps ?_)
    exact .running (settled.2.2.2 _)

variable {value : c.Out} {outcome : Except Exception c.Out}

/-- A transaction that has come to its end commits, whether its caller hears of it or not. -/
theorem closes {permit : Permit} (permits : ∀ σ, permit σ (.commit pid c) ∧ permit σ (.lost pid c))
    (found : w.procs pid = some (request, .inTx c (.pure value) writes held next))
    (ends : outcome = .ok value ∨ outcome = .error .connectionLost) :
    (sessions config).Step permit w
      (World.set { w with shared := w.shared.commit c (postgres.view w.shared.db writes) } pid
        request (.running (next outcome))) := by
  rcases ends with rfl | rfl
  · exact .commit found (permits _).1
  · exact .lost found (permits _).2

/-- A commit leaves alone what another process has locked. -/
theorem Shadow.foreign {body : Tx c.Out} (shadow : Shadow config gone w v)
    (found : w.procs pid = some (request, .inTx c body writes held next)) :
    ∀ other ≠ pid, ∀ tokenHash, w.Holds other (.token tokenHash) →
      (postgres.view w.shared.db writes).refreshTokens.get? tokenHash =
        w.shared.db.refreshTokens.get? tokenHash := by
  intro other different tokenHash holds
  have orderly := shadow.left.safe.orderly
  have free : .token tokenHash ∉ held := fun member =>
    orderly.exclusive different ⟨request, _, found, member⟩ holds
  exact ((orderly.follows found).write_local postgres_locking free).symm

/-- Whatever a transaction of the second run commits, tokens stay. -/
theorem lasting_commit {body : Tx c.Out}
    (run : (sessions config).Reaches uncleaned (World.init Store.empty Ext.idle) v)
    (stand : v.procs pid = some (request, .inTx c body writes held next))
    (keeps : c.sweeps = false) :
    v.shared.db.Lasts (postgres.view v.shared.db writes) :=
  ((Reachable.safe (run.mono fun _ => trivial)).orderly.follows stand).grows
    postgres_lasting (lasting_code keeps)

theorem Shadow.closeStays (shadow : Shadow config gone w v)
    (found : w.procs pid = some (request, .inTx c (.pure value) writes held next))
    (stand : v.procs pid = some (request, .inTx c (.pure value) writes held next))
    (keeps : request.cleans = false)
    (settled : Settled v.shared.db.now (· ∉ gone) (.call (.transact c) next))
    (spares : ∀ w ∈ writes, w.spares gone)
    (ends : outcome = .ok value ∨ outcome = .error .connectionLost) :
    ∃ v', (sessions config).Reaches uncleaned v v' ∧
      Shadow config gone (World.set
        { w with shared := w.shared.commit c (postgres.view w.shared.db writes) } pid request
        (.running (next outcome))) v' := by
  have lasts := lasting_commit shadow.right stand settled.1
  have answered : (sessions config).Step uncleaned v _ :=
    closes (fun _ => ⟨trivial, trivial⟩) stand ends
  refine ⟨_, .single answered,
    shadow.move (closes (fun _ => ⟨trivial, trivial⟩) found ends) (.single answered)
    (fun other different => ⟨World.set_other _ _ _ different, World.set_other _ _ _ different⟩)
      (shadow.swept.view spares) ?_
    shadow.ext ?_ lasts (shadow.foreign found) (fun _ => id)
    fun _ _ _ _ _ _ _ member before => absurd member before⟩
  · show v.shared.log ++ [c] = (w.shared.log ++ [c]).filter _
    rw [List.filter_append, ← shadow.log]
    simp [settled.1]
  · rw [World.set_same, World.set_same]
    exact .stays keeps (.running ((settled.2.2.2 outcome).mono lasts.now fun _ => id))

/-- The second run revokes all at once, when nobody holds any of the tokens. -/
theorem Shadow.closeLags (shadow : Shadow config gone w v) {held' : List LockKey} {now : DateTime}
    {past all : List String} {k' : Nat → Tx c.Out} {p : Svc Response}
    (found : w.procs pid = some (request,
      .inTx c (.pure value) (writes ++ revocations now w.shared.db past) held next))
    (stand : v.procs pid = some (request, .inTx c ((revokeEach now all).bind k') writes held' next))
    (keeps : request.cleans = false)
    (settled : Settled v.shared.db.now (· ∉ gone) (.call (.transact c) next))
    (lags : Lags gone c past [] all held held' writes)
    (resumes : next (.ok value) = p) (resumes' : Resumes next p k')
    (ends : outcome = .ok value ∨ outcome = .error .connectionLost) :
    ∃ v', (sessions config).Reaches uncleaned v v' ∧
      Shadow config gone (World.set { w with
        shared := w.shared.commit c
          (postgres.view w.shared.db (writes ++ revocations now w.shared.db past)) } pid request
        (.running (next outcome))) v' := by
  have orderly := shadow.left.safe.orderly
  have free : ∀ other ≠ pid, ∀ key, (∃ tokenHash ∈ all, key = .token tokenHash) →
      ¬ v.Holds other key := by
    rintro other different _ ⟨tokenHash, member, rfl⟩ ⟨request, phase, there, holds⟩
    obtain ⟨⟨request', phase', mine, holds'⟩, kept⟩ :=
      Alike.holds (there ▸ shadow.procs other) holds
    have locked := lags.locked tokenHash
      (by simpa using (lags.members tokenHash (kept tokenHash rfl)).mp member)
    exact orderly.exclusive different ⟨_, _, found, locked⟩ ⟨request', phase', mine, holds'⟩
  have solo : System.Solo (M := sessions config) uncleaned v pid _ _ v.shared v := .refl stand
  obtain ⟨body, writes', held'', v₁, solo, ended⟩ :=
    solo.body postgres_unread free (locks_revoking resumes' all)
  obtain ⟨value', ran, resumed⟩ :=
    run_revoking v.shared.db (postgres.view v.shared.db writes) resumes' all
  rw [show (sessions config).engine = postgres from rfl, ran] at ended
  obtain ⟨rfl, viewed⟩ := ended
  obtain ⟨outcome', ends', same⟩ : ∃ outcome',
      (outcome' = .ok value' ∨ outcome' = .error .connectionLost) ∧
        next outcome' = next outcome := by
    rcases ends with rfl | rfl
    · exact ⟨_, .inl rfl, resumed.trans resumes.symm⟩
    · exact ⟨_, .inr rfl, rfl⟩
  have closed : (sessions config).Step uncleaned v₁ _ :=
    closes (fun _ => ⟨trivial, trivial⟩) solo.phase ends'
  have lasts := lasting_commit (shadow.right.trans solo.run) solo.phase settled.1
  rw [solo.shared] at closed lasts
  replace viewed : postgres.view v.shared.db writes' =
      all.foldl (·.revokeIfActive · now) (postgres.view v.shared.db writes) := viewed
  rw [viewed] at closed lasts
  have final := solo.step closed
  refine ⟨_, final.run, shadow.move (closes (fun _ => ⟨trivial, trivial⟩) found ends) final.run
    (fun other different => ⟨World.set_other _ _ _ different, final.others other different⟩)
    ?_ ?_ shadow.ext ?_ lasts (shadow.foreign found) (fun _ => id)
    fun _ _ _ _ _ _ _ member before => absurd member before⟩
  · have same : ∀ tokenHash ∈ past,
        (postgres.view w.shared.db writes).refreshTokens.get? tokenHash =
          w.shared.db.refreshTokens.get? tokenHash := fun _ _ => get?_within lags.covered lags.spare
    show Store.Swept gone _ (postgres.view w.shared.db (writes ++ revocations now w.shared.db past))
    rw [Engine.view_append, ← revocations_congr same,
      view_revocations (by simpa using lags.distinct)]
    exact (shadow.swept.view lags.spares).revokeEach (by simpa using lags.members)
  · show v.shared.log ++ [c] = (w.shared.log ++ [c]).filter _
    rw [List.filter_append, ← shadow.log]
    simp [settled.1]
  · rw [World.set_same, World.set_same, same]
    exact .stays keeps (.running ((settled.2.2.2 outcome).mono lasts.now fun _ => id))

/-- What a batch has deleted is gone, and nobody has been about to use it. -/
theorem Shadow.closeCleans (shadow : Shadow config gone w v)
    (found : w.procs pid = some (request, .inTx c (.pure value) writes held next))
    (idle : v.procs pid = none)
    (cleans : Cleans v.shared.db w.shared.db (.inTx c (.pure value) writes held next))
    (batch : request.cleans) (ends : outcome = .ok value ∨ outcome = .error .connectionLost)
    (calm : Undisturbed config w (World.set
      { w with shared := w.shared.commit c (postgres.view w.shared.db writes) } pid request
      (.running (next outcome)))) :
    ∃ gone' v', (sessions config).Reaches uncleaned v v' ∧
      Shadow config gone' (World.set
        { w with shared := w.shared.commit c (postgres.view w.shared.db writes) } pid request
        (.running (next outcome))) v' := by
  cases cleans with
  | inTx all purges dated doomed deletes =>
    obtain ⟨hashes, rfl, deleted⟩ := deletions_of deletes
    have swept := shadow.swept.delete fun tokenHash member => (deleted tokenHash member).2
    refine ⟨gone ++ hashes, v, .refl,
      shadow.move (closes (fun _ => ⟨trivial, trivial⟩) found ends) .refl
      (fun other different => ⟨World.set_other _ _ _ different, rfl⟩) swept ?_ shadow.ext ?_
        (.refl _) (shadow.foreign found)
      (fun _ => List.mem_append_left _)
        fun other different request' phase there keeps tokenHash member before => ?_⟩
    · show v.shared.log = (w.shared.log ++ [c]).filter _
      rw [List.filter_append, ← shadow.log]
      simp [show c.sweeps = true from all.1]
    · rw [World.set_same, idle]
      exact .cleans batch (.running (all.2 outcome))
    · have fresh : tokenHash ∈ hashes := (List.mem_append.mp member).resolve_left before
      obtain ⟨locked, row, present, _⟩ := deleted tokenHash fresh
      obtain ⟨exchanges, opens⟩ :=
        calm tokenHash row present (swept.get?_gone member) other request' phase there keeps
      refine ⟨fun holds => ?_, shadow.swept.now ▸ exchanges, fun row' found' => ?_⟩
      · exact shadow.left.safe.orderly.exclusive different ⟨_, _, found,
          locked⟩ ⟨request', phase, there, holds⟩
      · cases (shadow.swept.found present).2.symm.trans found'
        exact opens

theorem Shadow.close (shadow : Shadow config gone w v)
    (found : w.procs pid = some (request, .inTx c (.pure value) writes held next))
    (ends : outcome = .ok value ∨ outcome = .error .connectionLost)
    (calm : Undisturbed config w (World.set
      { w with shared := w.shared.commit c (postgres.view w.shared.db writes) } pid request
      (.running (next outcome)))) :
    ∃ gone' v', (sessions config).Reaches uncleaned v v' ∧
      Shadow config gone' (World.set
        { w with shared := w.shared.commit c (postgres.view w.shared.db writes) } pid request
        (.running (next outcome))) v' := by
  have alike := shadow.procs pid
  rw [found] at alike
  generalize stand : v.procs pid = other at alike
  cases alike with
  | cleans batch cleans => exact shadow.closeCleans found stand cleans batch ends calm
  | stays keeps stays =>
    cases stays with
    | inTx settled _ _ grips =>
      exact ⟨gone, shadow.closeStays found stand keeps settled grips.spares ends⟩
  | lags keeps settled lags resumes resumes' run run' done =>
    rcases revoking resumes run with ⟨rfl, _, ⟨⟩, same⟩ | ⟨_, _, ⟨⟩⟩
    subst done run'
    exact ⟨gone, shadow.closeLags found stand keeps settled lags same resumes' ends⟩

theorem Shadow.step (shadow : Shadow config gone w v) (taken : (sessions config).Step anything w w')
    (calm : Undisturbed config w w') :
    ∃ gone' v', (sessions config).Reaches uncleaned v v' ∧ Shadow config gone' w' v' := by
  cases taken with
  | start idle => exact ⟨gone, shadow.start idle⟩
  | outside found _ answers => exact ⟨gone, shadow.outside found answers⟩
  | begin found => exact ⟨gone, shadow.begin found⟩
  | read found plain exec => exact ⟨gone, shadow.read found plain exec⟩
  | write found locked free exec => exact ⟨gone, shadow.write found locked free exec⟩
  | commit found => exact shadow.close found (.inl rfl) calm
  | lost found => exact shadow.close found (.inr rfl) calm
  | abort found aborts => exact ⟨gone, shadow.abort found aborts⟩
  | drift _ expired => exact ⟨gone, v, .refl, shadow.drift expired⟩

theorem Shadow.init (config : Config) :
    Shadow config [] (World.init Store.empty Ext.idle) (World.init Store.empty Ext.idle) where
  left := .refl
  right := .refl
  swept := .refl _
  log := rfl
  ext := rfl
  procs _ := .idle

end Moves

end PaymentWallet.Sessions
