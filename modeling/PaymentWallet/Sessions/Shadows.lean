import PaymentWallet.Sessions.Executions
import PaymentWallet.Sessions.Rotation
import PaymentWallet.Sessions.Steady

/-! A run with cleanups and one without. The processes of the two stand at the same point,
except that the second run has no cleanups, revokes tokens only when the first one commits,
and finds an expired token where a logout of the first run finds none. -/
namespace PaymentWallet.Sessions
open Foundation

/-- The write is covered by the locks, and deletes nothing. -/
def Write.within (held : List LockKey) : Write → Prop
  | .token row => .token row.tokenHash ∈ held
  | .deleteToken _ => False
  | _ => True

/-- What the transaction has locked is not gone; before it ends sessions it locks none. -/
structure Grips (gone : List String) (c : TxCall) (writes : List Write)
    (held : List LockKey) : Prop where
  covered : ∀ w ∈ writes, w.within held
  kept : ∀ tokenHash, .token tokenHash ∈ held → tokenHash ∉ gone
  spare : c.ends → ∀ tokenHash, .token tokenHash ∉ held

/-- No session that the transaction may count or evict is gone. -/
structure Dates (gone : List String) (full : Store) (c : TxCall) (since : DateTime)
    (chosen : Option String) : Prop where
  began : since ≤ full.now
  ended : ∀ tokenHash ∈ gone, ∀ row, full.refreshTokens.get? tokenHash = some row →
    c.opens = some row.userId →
    row.expiresAt ≤ since
  picked : ∀ tokenHash, chosen = some tokenHash → tokenHash ∉ gone ∧
    ∃ row, full.refreshTokens.get? tokenHash = some row ∧ c.opens = some row.userId

/-- A process that stands at this point in both runs. -/
inductive Stays (gone : List String) (full : Store) : SessionPhase → Prop where
  | running : Settled full.now (· ∉ gone) p → Stays gone full (.running p)
  | inTx {c : TxCall} {body : Tx c.Out} {next : Except Exception c.Out → Svc Response} :
      Settled full.now (· ∉ gone) (.call (.transact c) next) →
      Steady c since chosen body → Dates gone full c since chosen → Grips gone c writes held →
      Stays gone full (.inTx c body writes held next)

/-- A cleanup, which deletes tokens that have expired. -/
inductive Cleans (full d : Store) : SessionPhase → Prop where
  | running : p.All Cleaning → Cleans full d (.running p)
  | inTx {c : TxCall} {body : Tx c.Out} {next : Except Exception c.Out → Svc Response} :
      (.call (.transact c) next : Svc Response).All Cleaning →
      Purges date doomed body → (∀ now, date = some now → now ≤ full.now) →
        (∀ tokenHash ∈ doomed, full.Ended tokenHash) →
      (∀ w ∈ writes, ∃ tokenHash, w = .deleteToken tokenHash ∧
        .token tokenHash ∈ held ∧ d.Ended tokenHash) →
      Cleans full d (.inTx c body writes held next)

/-- A transaction that has revoked the tokens `past` and is about to revoke `rest`, where the
other run still has `all` of them to revoke. -/
structure Lags (gone : List String) (c : TxCall) (past rest all : List String)
    (held held' : List LockKey) (writes : List Write) : Prop where
  ends : c.ends
  distinct : (past ++ rest).Nodup
  members : ∀ tokenHash ∉ gone, tokenHash ∈ all ↔ tokenHash ∈ past ++ rest
  locked : ∀ tokenHash ∈ past, .token tokenHash ∈ held
  fewer : ∀ k ∈ held', k ∈ held
  spare : ∀ tokenHash, .token tokenHash ∉ held'
  covered : ∀ w ∈ writes, w.within held'

/-- Whatever number the program is given, it returns to `p`. -/
def Resumes {c : TxCall} (next : Except Exception c.Out → Svc Response) (p : Svc Response)
    (k : Nat → Tx c.Out) : Prop :=
  ∀ count, ∃ value, k count = .pure value ∧ next (.ok value) = p

/-- How one process stands in the two runs. -/
inductive Alike (config : Config) (gone : List String) (full d : Store) :
    Option (Request × SessionPhase) → Option (Request × SessionPhase) → Prop where
  | idle : Alike config gone full d none none
  | cleans : request.cleans → Cleans full d phase →
      Alike config gone full d (some (request, phase)) none
  | looks : request.presents.isSome → p = request.handler config →
      Alike config gone full d (some (request, .running p)) (some (request, .running p))
  | stays : request.cleans = false → Stays gone full phase →
      Alike config gone full d (some (request, phase)) (some (request, phase))
  | lags {c : TxCall} {body body' : Tx c.Out} {next : Except Exception c.Out → Svc Response}
      {k k' : Nat → Tx c.Out} : request.cleans = false →
      Settled full.now (· ∉ gone) (.call (.transact c) next) →
        Lags gone c past rest all held held' writes →
      Resumes next p k → Resumes next p k' → body = (revokeEach now rest).bind k →
        body' = (revokeEach now all).bind k' →
      more = writes ++ revocations now d past →
      Alike config gone full d (some (request, .inTx c body more held next))
        (some (request, .inTx c body' writes held' next))
  | parted : request = .logout refreshToken userId jti → (∀ op next, q ≠ .call op next) →
      Alike config gone full d (some (request, .running (.pure .done))) (some (request, .running q))

section Basics
variable {config : Config} {gone gone' : List String} {full full' d d' : Store} {c : TxCall}
  {writes : List Write} {held held' : List LockKey}

theorem Write.within.mono {w : Write} (within : w.within held) (sub : ∀ k ∈ held, k ∈ held') :
    w.within held' := by
  cases w with
  | token row => exact sub _ within
  | deleteToken => exact within.elim
  | user | advance => trivial

theorem Grips.spares (grips : Grips gone c writes held) : ∀ w ∈ writes, w.spares gone := by
  intro w member
  have within := grips.covered w member
  cases w with
  | token row => exact grips.kept _ within
  | deleteToken => exact within.elim
  | user | advance => trivial

/-- Writes that lock no token leave the tokens alone. -/
theorem get?_within {tokenHash : String} (covered : ∀ w ∈ writes, w.within held)
    (spare : ∀ tokenHash, .token tokenHash ∉ held) :
    (postgres.view d writes).refreshTokens.get? tokenHash = d.refreshTokens.get? tokenHash := by
  induction writes generalizing d with
  | nil => rfl
  | cons w ws ih =>
    rw [List.forall_mem_cons] at covered
    apply (ih covered.2).trans
    cases w with
    | token row => exact absurd covered.1 (spare _)
    | deleteToken => exact covered.1.elim
    | user | advance => rfl

theorem Lags.mono {past rest all : List String} (lags : Lags gone c past rest all held held' writes)
    (grown : ∀ tokenHash ∈ gone, tokenHash ∈ gone') :
    Lags gone' c past rest all held held' writes :=
  ⟨lags.ends, lags.distinct, fun tokenHash kept =>
    lags.members tokenHash fun member => kept (grown tokenHash member),
    lags.locked, lags.fewer, lags.spare, lags.covered⟩

theorem Lags.spares {past rest all : List String}
    (lags : Lags gone c past rest all held held' writes) :
    ∀ w ∈ writes, w.spares gone := by
  intro w member
  have within := lags.covered w member
  cases w with
  | token row => exact absurd within (lags.spare _)
  | deleteToken => exact within.elim
  | user | advance => trivial

/-- The second run holds fewer locks, and none on tokens that are gone. -/
theorem Alike.holds {request : Request} {phase : SessionPhase} {p : Option (Request × SessionPhase)}
    (alike : Alike config gone full d p (some (request, phase))) {k : LockKey}
    (member : k ∈ phase.held) :
    (∃ request phase', p = some (request, phase') ∧ k ∈ phase'.held) ∧
      ∀ tokenHash, k = .token tokenHash → tokenHash ∉ gone := by
  cases alike with
  | looks | parted => cases member
  | stays _ stays =>
    refine ⟨⟨_, _, rfl, member⟩, ?_⟩
    rintro tokenHash rfl
    cases stays with
    | running => cases member
    | inTx _ _ _ grips => exact grips.kept _ member
  | lags _ _ lags =>
    refine ⟨⟨_, _, rfl, lags.fewer k member⟩, ?_⟩
    rintro tokenHash rfl
    exact absurd member (lags.spare tokenHash)

/-- What a batch leaves of the process as it was: it has none of its locks, does not exchange
the tokens that go, and does not count the sessions of their users at a time when they had
not ended. -/
structure Unharmed (config : Config) (full : Store) (tokenHash : String) (request : Request)
    (phase : SessionPhase) : Prop where
  held : .token tokenHash ∉ phase.held
  exchanges : phase = .running (request.handler config) ∨ Forgoes full.now tokenHash phase.residual
  opens : ∀ row, full.refreshTokens.get? tokenHash = some row → ∀ c body writes held next,
    phase = .inTx c body writes held next → c.opens = some row.userId → Overlooks c row body

section Dates
variable {since : DateTime} {chosen : Option String}

theorem Dates.lasts (dates : Dates gone full c since chosen) (swept : Store.Swept gone full d)
    (lasts : full.Lasts full') :
    Dates gone full' c since chosen where
  began := dates.began.trans lasts.now
  ended tokenHash member row found owned := by
    obtain ⟨old, present, _⟩ := swept.expired tokenHash member
    obtain ⟨row', found', user, expiry⟩ := lasts.find present
    cases found.symm.trans found'
    exact expiry ▸ dates.ended tokenHash member old present (user ▸ owned)
  picked tokenHash same := by
    obtain ⟨kept, row, found, owned⟩ := dates.picked tokenHash same
    obtain ⟨row', found', user, _⟩ := lasts.find found
    exact ⟨kept, row', found', user ▸ owned⟩

theorem Dates.same (dates : Dates gone full c since chosen)
    (same : ∀ tokenHash, tokenHash ∈ gone ↔ tokenHash ∈ gone') :
    Dates gone' full c since chosen where
  began := dates.began
  ended tokenHash member := dates.ended tokenHash ((same tokenHash).mpr member)
  picked tokenHash chosen := (dates.picked tokenHash chosen).imp_left (mt (same tokenHash).mpr)

/-- One more token goes. -/
theorem Dates.lose {body : Tx c.Out} {tokenHash : String} (dates : Dates gone full c since chosen)
    (steady : Steady c since chosen body)
    (ended : full.Ended tokenHash)
    (overlooks : ∀ row, full.refreshTokens.get? tokenHash = some row → c.opens = some row.userId →
      Overlooks c row body) :
    ∃ since chosen, Steady c since chosen body ∧ Dates (tokenHash :: gone) full c since chosen := by
  obtain ⟨row, found, before⟩ := ended
  obtain rfl : row.tokenHash = tokenHash := Table.get?_key found
  by_cases owned : c.opens = some row.userId
  · obtain ⟨chosen', other, steady'⟩ := overlooks row found owned
    refine ⟨_, _, steady.both steady', max_le dates.began before.le,
      fun hash member row' found' owned' => ?_, fun hash same => ?_⟩
    · rcases List.mem_cons.mp member with rfl | old
      · cases found.symm.trans found'
        exact le_max_right ..
      · exact le_max_of_le_left (dates.ended hash old row' found' owned')
    · split at same
      · obtain ⟨kept, there⟩ := dates.picked hash same
        refine ⟨fun member => ?_, there⟩
        rcases List.mem_cons.mp member with rfl | old
        · exact other ((‹chosen = chosen'›).symm.trans same)
        · exact kept old
      · cases same
  · refine ⟨since, chosen, steady, dates.began, fun other member row' found' owned' => ?_,
      fun other same => ?_⟩
    · rcases List.mem_cons.mp member with rfl | old
      · cases found.symm.trans found'
        exact absurd owned' owned
      · exact dates.ended other old row' found' owned'
    · obtain ⟨kept, row', found', owned'⟩ := dates.picked other same
      refine ⟨fun member => ?_, row', found', owned'⟩
      rcases List.mem_cons.mp member with rfl | old
      · cases found.symm.trans found'
        exact owned owned'
      · exact kept old

/-- More tokens go. -/
theorem Dates.grow {body : Tx c.Out} (dates : Dates gone full c since chosen)
    (steady : Steady c since chosen body)
    (ended : ∀ tokenHash ∈ gone', full.Ended tokenHash)
    (grown : ∀ tokenHash ∈ gone, tokenHash ∈ gone')
    (overlooks : ∀ tokenHash ∈ gone', tokenHash ∉ gone →
      ∀ row, full.refreshTokens.get? tokenHash = some row →
      c.opens = some row.userId → Overlooks c row body) :
    ∃ since chosen, Steady c since chosen body ∧ Dates gone' full c since chosen := by
  have adds : ∀ more : List String, (∀ tokenHash ∈ more, tokenHash ∈ gone') → ∃ since chosen,
      Steady c since chosen body ∧
      Dates (more ++ gone) full c since chosen := by
    intro more
    induction more with
    | nil => exact fun _ => ⟨since, chosen, steady, dates⟩
    | cons tokenHash more ih =>
      intro sub
      rw [List.forall_mem_cons] at sub
      obtain ⟨since, chosen, steady, dates⟩ := ih sub.2
      by_cases old : tokenHash ∈ gone
      · refine ⟨since, chosen, steady, dates.same fun other => ?_⟩
        simp only [List.cons_append, List.mem_cons, List.mem_append]
        exact ⟨.inr, fun member => member.elim (fun same => .inr (same ▸ old)) id⟩
      · exact dates.lose steady (ended tokenHash sub.1) (overlooks tokenHash sub.1 old)
  obtain ⟨since, chosen, steady, dates⟩ := adds gone' fun _ => id
  refine ⟨since, chosen, steady, dates.same fun tokenHash => ?_⟩
  rw [List.mem_append]
  exact ⟨fun member => member.elim id (grown tokenHash), .inl⟩

end Dates

/-- A handler that looks up no token exchanges none. -/
theorem settled_first {request : Request} (cleans : request.cleans = false)
    (settled : Settled full.now (· ∉ gone) (request.handler config)) :
    Settled full'.now (· ∉ gone') (request.handler config) := by
  cases request with
  | refresh refreshToken =>
    obtain ⟨next, same, _⟩ := refresh_looksUp config full.now refreshToken
    rw [same] at settled
    cases settled.1
  | logout refreshToken userId jti =>
    obtain ⟨next, same, _⟩ := logout_looksUp config full.now (· ∉ gone) refreshToken userId jti
    rw [same] at settled
    cases settled.1
  | _ => exact settled_handler rfl cleans

theorem Stays.frame {request : Request} {phase : SessionPhase} (cleans : request.cleans = false)
    (stays : Stays gone full phase)
    (swept : Store.Swept gone full d) (lasts : full.Lasts full')
    (ended : ∀ tokenHash ∈ gone', full'.Ended tokenHash)
    (grown : ∀ tokenHash ∈ gone, tokenHash ∈ gone')
    (unharmed : ∀ tokenHash ∈ gone', tokenHash ∉ gone →
      Unharmed config full' tokenHash request phase) :
    Stays gone' full' phase := by
  cases stays with
  | @running p settled =>
    by_cases first : p = request.handler config
    · subst first
      exact .running (settled_first cleans settled)
    · refine .running ((settled.mono lasts.now fun _ => id).narrow fun tokenHash member mine => ?_)
      rcases (unharmed tokenHash member mine).exchanges with same | forgoes
      · exact absurd (Phase.running.inj same) first
      · exact forgoes
  | inTx settled steady dates grips =>
    have opens := fun tokenHash member before row found =>
      (unharmed tokenHash member before).opens row found _ _ _ _ _ rfl
    obtain ⟨since, chosen, steady, dates⟩ :=
      (dates.lasts swept lasts).grow steady ended grown opens
    refine .inTx ((settled.mono lasts.now fun _ => id).narrow fun tokenHash member mine => ?_)
      steady dates ⟨grips.covered, fun tokenHash locked member => ?_, grips.spare⟩
    · rcases (unharmed tokenHash member mine).exchanges with first | forgoes
      · cases first
      · exact forgoes
    · exact (unharmed tokenHash member (grips.kept tokenHash locked)).held locked

/-- The token that is held stays. -/
theorem Cleans.frame {phase : SessionPhase} (cleans : Cleans full d phase)
    (lasts : full.Lasts full') (later : d.now ≤ d'.now)
    (foreign : ∀ tokenHash, .token tokenHash ∈ phase.held →
      d'.refreshTokens.get? tokenHash = d.refreshTokens.get? tokenHash) :
    Cleans full' d' phase := by
  cases cleans with
  | running all => exact .running all
  | inTx all purges dated doomed deletes =>
    refine .inTx all purges (fun now same => (dated now same).trans lasts.now)
      (fun tokenHash member => (doomed tokenHash member).lasts lasts) ?_
    intro w member
    obtain ⟨tokenHash, same, held, row, found, before⟩ := deletes w member
    exact ⟨tokenHash, same, held, row, (foreign tokenHash held).trans found, before.trans_le later⟩

/-- What the others do leaves a process as it stands. -/
theorem Alike.frame {p q : Option (Request × SessionPhase)} (alike : Alike config gone full d p q)
    (swept : Store.Swept gone full d) (lasts : full.Lasts full') (later : d.now ≤ d'.now)
    (foreign : ∀ request phase, p = some (request, phase) →
      ∀ tokenHash, .token tokenHash ∈ phase.held →
      d'.refreshTokens.get? tokenHash = d.refreshTokens.get? tokenHash)
    (ended : ∀ tokenHash ∈ gone', full'.Ended tokenHash)
    (grown : ∀ tokenHash ∈ gone, tokenHash ∈ gone')
    (unharmed : ∀ request phase, p = some (request, phase) → request.cleans = false →
      ∀ tokenHash ∈ gone', tokenHash ∉ gone →
      Unharmed config full' tokenHash request phase) : Alike config gone' full' d' p q := by
  cases alike with
  | idle => exact .idle
  | cleans request cleans => exact .cleans request (cleans.frame lasts later (foreign _ _ rfl))
  | looks presents same => exact .looks presents same
  | stays keeps stays =>
    exact .stays keeps (stays.frame keeps swept lasts ended grown (unharmed _ _ rfl keeps))
  | parted same ends => exact .parted same ends
  | lags keeps settled lags resumes resumes' run run' done =>
    refine .lags keeps ((settled.mono lasts.now fun _ => id).narrow fun tokenHash member mine => ?_)
      (lags.mono grown) resumes resumes' run run' ?_
    · rcases (unharmed _ _ rfl keeps tokenHash member mine).exchanges with first | forgoes
      · cases first
      · exact forgoes
    · rw [done, revocations_congr fun tokenHash member =>
        (foreign _ _ rfl tokenHash (lags.locked tokenHash member)).symm]

end Basics
end PaymentWallet.Sessions
