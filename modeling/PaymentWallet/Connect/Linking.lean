import PaymentWallet.Connect.Invariants
import PaymentWallet.Accounting.Commits
import PaymentWallet.Foundation.Serializability

/-! The links between users and their accounts at Stripe, over runs in which a creation
finds its user still unlinked and no link is stored under a webhook that is about to clear
it. Each step keeps the links coherent. -/
namespace PaymentWallet.Connect
open Foundation

/-- Webhooks report accounts that were deauthorized, and the id of an account is stored
whenever the service tries to. -/
def genuine : Permit
  | σ, .start _ (.deauthorized (some accountId)) => accountId ∈ σ.ext.deauthorized
  | _, .abort _ (.setConnectAccountId _ (some _)) _ => False
  | _, _ => True

instance (σ : SharedState) (label : Label TxCall Outside Request Exception) :
    Decidable (genuine σ label) := by
  unfold genuine
  split <;> infer_instance

/-- The next write of the process stores the link of the user. -/
def Writes (w : State) (pid : Nat) (userId : UserId) (link : Option String) : Prop :=
  ∃ request phase, w.procs pid = some (request, phase) ∧ links phase.residual = some (userId, link)

/-- An account is created while its user has no link and no request is about to store one;
and a link is stored while no webhook is about to clear the user's. -/
def Spaced (w w' : State) : Prop :=
  (∀ account ∈ w'.shared.ext.accounts, account ∉ w.shared.ext.accounts →
    stored w.shared.db account.userId = none ∧ ∀ pid id, ¬ Writes w pid account.userId (some id)) ∧
  ∀ userId id, stored w'.shared.db userId = some id → stored w.shared.db userId ≠ some id →
    ∀ pid, ¬ Writes w pid userId none

/-- What holds of the links between any two steps. -/
structure Coherent (w : State) : Prop where
  obeys : ∀ pid request phase, w.procs pid = some (request, phase) → Obeys request phase.residual
  genuine : ∀ pid accountId phase, w.procs pid = some (.deauthorized (some accountId), phase) →
    accountId ∈ w.shared.ext.deauthorized
  distinct : (w.shared.ext.accounts.map (·.id)).Nodup
  owned : ∀ userId id, stored w.shared.db userId = some id → ⟨id, userId⟩ ∈ w.shared.ext.accounts
  pending : ∀ pid userId id, Writes w pid userId (some id) →
    ⟨id, userId⟩ ∈ w.shared.ext.accounts ∧ stored w.shared.db userId = none
  alone : ∀ pid other userId id id', Writes w pid userId (some id) →
    Writes w other userId (some id') → pid = other
  kept : ∀ account ∈ w.shared.ext.accounts, account.id ∉ w.shared.ext.deauthorized →
    stored w.shared.db account.userId = some account.id ∨
      ∃ pid, Writes w pid account.userId (some account.id)
  clears : ∀ pid request phase userId, w.procs pid = some (request, phase) →
    links phase.residual = some (userId, none) →
    ∃ accountId, request = .deauthorized (some accountId) ∧
      ∀ id, stored w.shared.db userId = some id → id = accountId

section Stored
variable {d d' : DB} {userId : UserId}

theorem patched_stored {link : Option String}
    (patched : Patched d userId { stripeConnectAccountId := some link } d') (other : UserId) :
    stored d' other = if other = userId then link else stored d other := by
  obtain ⟨old, tokens, found, rfl⟩ := patched
  have keyEq : (UserPatch.apply { stripeConnectAccountId := some link } old).id = userId :=
    (Table.get?_key found : old.id = userId)
  simp only [Connect.stored, Table.get?_put, keyEq]
  split <;> rfl

/-- A new user has no link. -/
theorem ensures_unlinked {data : CreateUserInput} {draw : Draw} :
    Ensures d (PaymentWallet.AuthRepository.createUserWithWalletTx data draw) d fun _ d' => ∀ other,
      stored d' other = stored d other := by
  simp only [PaymentWallet.AuthRepository.createUserWithWalletTx, Program.bind_def,
    Program.pure_def, ensures_bind, ensures_createUser, ensures_createWallet, ensures_pure]
  intro newUser _ _ _ other
  simp only [stored, Table.get?_put]
  split
  · rename_i same
    subst same
    simp [newUser]
  · rfl

end Stored

section Steps
variable {config : Config} {w w' : State} {pid : Nat} {request : Request}
  {phase : Phase Write Statement Statement.Reply LockKey Exception TxCall TxCall.Out Outside
    Outside.Reply Response} {σ : SharedState}

theorem procs_set {other : Nat} {request' : Request}
    {phase' : Phase Write Statement Statement.Reply LockKey Exception TxCall TxCall.Out Outside
      Outside.Reply Response}
    (found : (World.set { w with shared := σ } pid request phase).procs other =
      some (request', phase')) :
    other = pid ∧ request' = request ∧ phase' = phase ∨ other ≠ pid ∧
      w.procs other = some (request', phase') := by
  by_cases here : other = pid
  · subst here
    cases (World.set_same _ _ _ _).symm.trans found
    exact .inl ⟨rfl, rfl, rfl⟩
  · rw [World.set_other _ _ _ here] at found
    exact .inr ⟨here, found⟩

theorem writes_set {other : Nat} {userId : UserId} {link : Option String} :
    Writes (World.set { w with shared := σ } pid request phase) other userId link ↔
      if other = pid then links phase.residual = some (userId, link)
        else Writes w other userId link := by
  by_cases here : other = pid
  · subst here
    simp [Writes, World.set_same]
  · simp [Writes, World.set_other _ _ _ here, here]

/-- A step that writes no link, and leaves the process to write what it was about to write
or, if that was not the id of an account, nothing. -/
theorem Coherent.calm (coherent : Coherent w)
    (accounts : w'.shared.ext.accounts = w.shared.ext.accounts)
    (deauthorized : ∀ id ∈ w.shared.ext.deauthorized, id ∈ w'.shared.ext.deauthorized)
    (same : ∀ userId, stored w'.shared.db userId = stored w.shared.db userId)
    (procs : ∀ pid request phase, w'.procs pid = some (request, phase) →
      Obeys request phase.residual ∧
      (∀ accountId, request = .deauthorized (some accountId) →
        accountId ∈ w'.shared.ext.deauthorized) ∧
      (links phase.residual = none ∨ ∃ before, w.procs pid = some (request, before) ∧
        links phase.residual = links before.residual))
    (keeps : ∀ pid userId id, Writes w pid userId (some id) → Writes w' pid userId (some id)) :
    Coherent w' := by
  have back : ∀ {pid userId id}, Writes w' pid userId (some id) →
      Writes w pid userId (some id) := by
    rintro pid userId id ⟨request, phase, found, aims⟩
    rcases (procs pid request phase found).2.2 with none_ | ⟨before, found', linked⟩
    · simp [none_] at aims
    · exact ⟨request, before, found', linked.symm.trans aims⟩
  refine ⟨fun pid request phase found => (procs pid request phase found).1,
    fun pid accountId phase found => (procs pid _ phase found).2.1 accountId rfl,
      ?_, ?_, ?_, ?_, ?_, ?_⟩
  · rw [accounts]
    exact coherent.distinct
  · intro userId id found
    rw [same] at found
    rw [accounts]
    exact coherent.owned userId id found
  · intro pid userId id writes
    rw [accounts, same]
    exact coherent.pending pid userId id (back writes)
  · exact fun pid other userId id id' first second =>
      coherent.alone pid other userId id id' (back first) (back second)
  · intro account member live
    rw [accounts] at member
    rw [same]
    rcases coherent.kept account member fun gone =>
      live (deauthorized _ gone) with linked | ⟨pid, writes⟩
    · exact .inl linked
    · exact .inr ⟨pid, keeps _ _ _ writes⟩
  · intro pid request phase userId found aims
    rcases (procs pid request phase found).2.2 with none_ | ⟨before, found', linked⟩
    · simp [none_] at aims
    · simp only [same]
      exact coherent.clears pid request before userId found' (linked.symm.trans aims)

theorem Coherent.moved
    {before : Phase Write Statement Statement.Reply LockKey Exception TxCall TxCall.Out Outside
      Outside.Reply Response}
    (coherent : Coherent w) (found : w.procs pid = some (request, before))
    (accounts : σ.ext.accounts = w.shared.ext.accounts)
    (deauthorized : σ.ext.deauthorized = w.shared.ext.deauthorized)
    (same : ∀ userId, stored σ.db userId = stored w.shared.db userId)
    (obeys : Obeys request phase.residual) (next : links phase.residual = links before.residual ∨
      links phase.residual = none ∧ ∀ userId id, links before.residual ≠ some (userId, some id)) :
    Coherent (World.set { w with shared := σ } pid request phase) := by
  refine coherent.calm accounts (fun id =>
    by simp only [World.set, deauthorized, imp_self]) same ?_ ?_
  · intro other request' phase' found'
    rcases procs_set found' with ⟨rfl, rfl, rfl⟩ | ⟨_, found'⟩
    · refine ⟨obeys, ?_, ?_⟩
      · rintro accountId rfl
        simpa only [World.set, deauthorized] using coherent.genuine _ accountId before found
      · rcases next with linked | ⟨none_, _⟩
        · exact .inr ⟨before, found, linked⟩
        · exact .inl none_
    · refine ⟨coherent.obeys _ _ _ found', ?_, .inr ⟨phase', found', rfl⟩⟩
      rintro accountId rfl
      simpa only [World.set, deauthorized] using coherent.genuine _ accountId phase' found'
  · intro other userId id writes
    rw [writes_set]
    split
    · rename_i here
      subst here
      obtain ⟨_, _, found', aims⟩ := writes
      cases found.symm.trans found'
      rcases next with linked | ⟨_, other⟩
      · exact linked.trans aims
      · exact absurd aims (other userId id)
    · exact writes

/-- An account is created for a user without a link. -/
theorem Coherent.created
    {before : Phase Write Statement Statement.Reply LockKey Exception TxCall TxCall.Out Outside
      Outside.Reply Response}
    (coherent : Coherent w) {userId : UserId} {id : String}
    (found : w.procs pid = some (request, before)) (idle : links before.residual = none)
    (accounts : σ.ext.accounts = w.shared.ext.accounts ++ [⟨id, userId⟩])
    (deauthorized : σ.ext.deauthorized = w.shared.ext.deauthorized)
    (same : σ.db = w.shared.db) (fresh : ∀ account ∈ w.shared.ext.accounts, account.id ≠ id)
    (unlinked : stored w.shared.db userId = none)
    (free : ∀ other id', ¬ Writes w other userId (some id'))
    (obeys : Obeys request phase.residual) (aims : links phase.residual = some (userId, some id)) :
    Coherent (World.set { w with shared := σ } pid request phase) := by
  have idle_ : ∀ {userId link}, ¬ Writes w pid userId link := by
    rintro userId link ⟨_, _, found', aims'⟩
    cases found.symm.trans found'
    simp [idle] at aims'
  have old : ∀ {other userId link}, Writes w other userId link → other ≠ pid := by
    rintro other userId link writes rfl
    exact idle_ writes
  refine ⟨?_, ?_, ?_, ?_, ?_, ?_, ?_, ?_⟩
  · intro other request' phase' found'
    rcases procs_set found' with ⟨rfl, rfl, rfl⟩ | ⟨_, found'⟩
    · exact obeys
    · exact coherent.obeys _ _ _ found'
  · intro other accountId phase' found'
    show accountId ∈ σ.ext.deauthorized
    rw [deauthorized]
    rcases procs_set found' with ⟨rfl, rfl, rfl⟩ | ⟨_, found'⟩
    · exact coherent.genuine _ accountId before found
    · exact coherent.genuine _ accountId phase' found'
  · show (σ.ext.accounts.map _).Nodup
    rw [accounts, List.map_append, List.nodup_append]
    refine ⟨coherent.distinct, List.nodup_singleton _, ?_⟩
    rintro first member second single rfl
    obtain ⟨account, listed, rfl⟩ := List.mem_map.mp member
    exact fresh account listed (List.mem_singleton.mp single)
  · intro other id' linked
    show _ ∈ σ.ext.accounts
    rw [accounts]
    exact List.mem_append_left _ (coherent.owned other id' (same ▸ linked))
  · intro other userId' id' writes
    show _ ∈ σ.ext.accounts ∧ stored σ.db userId' = none
    rw [accounts, same]
    rw [writes_set] at writes
    split at writes
    · cases aims.symm.trans writes
      exact ⟨List.mem_append_right _ (List.mem_singleton_self _), unlinked⟩
    · have earlier := coherent.pending other userId' id' writes
      exact ⟨List.mem_append_left _ earlier.1, earlier.2⟩
  · intro first second userId' id' id'' left right
    rw [writes_set] at left right
    split at left <;> split at right
    · exact Eq.trans ‹first = pid› (Eq.symm ‹second = pid›)
    · cases aims.symm.trans left
      exact absurd right (free second id'')
    · cases aims.symm.trans right
      exact absurd left (free first id')
    · exact coherent.alone first second userId' id' id'' left right
  · intro account member live
    change account ∈ σ.ext.accounts at member
    change account.id ∉ σ.ext.deauthorized at live
    show stored σ.db account.userId = _ ∨ _
    rw [accounts] at member
    rw [deauthorized] at live
    rw [same]
    rcases List.mem_append.mp member with earlier | new
    · rcases coherent.kept account earlier live with linked | ⟨other, writes⟩
      · exact .inl linked
      · exact .inr ⟨other, writes_set.mpr (by rwa [if_neg (old writes)])⟩
    · obtain rfl := List.mem_singleton.mp new
      exact .inr ⟨pid, writes_set.mpr (by rwa [if_pos rfl])⟩
  · intro other request' phase' userId' found' aims'
    show ∃ accountId, request' = _ ∧ ∀ id, stored σ.db userId' = some id → id = accountId
    rw [same]
    rcases procs_set found' with ⟨rfl, rfl, rfl⟩ | ⟨_, found'⟩
    · simp [aims] at aims'
    · exact coherent.clears other request' phase' userId' found' aims'

/-- A link is stored under no webhook that is about to clear it, or it is cleared. -/
theorem Coherent.linked
    {before : Phase Write Statement Statement.Reply LockKey Exception TxCall TxCall.Out Outside
      Outside.Reply Response}
    (coherent : Coherent w) {userId : UserId} {link : Option String}
    (found : w.procs pid = some (request, before))
    (aims : links before.residual = some (userId, link)) (accounts : σ.ext = w.shared.ext)
    (updated : ∀ other, stored σ.db other = if other = userId then link
      else stored w.shared.db other)
    (unclaimed : ∀ id, link = some id → ∀ other, ¬ Writes w other userId none)
    (obeys : Obeys request phase.residual) (done : links phase.residual = none) :
    Coherent (World.set { w with shared := σ } pid request phase) := by
  have mine : Writes w pid userId link := ⟨request, before, found, aims⟩
  have others : ∀ {other userId' link'},
      Writes (World.set { w with shared := σ } pid request phase) other userId' link' →
      other ≠ pid ∧ Writes w other userId' link' := by
    intro other userId' link' writes
    rw [writes_set] at writes
    split at writes
    · simp [done] at writes
    · exact ⟨‹_›, writes⟩
  have elsewhere : ∀ {other userId' link'}, other ≠ pid → Writes w other userId' link' →
      Writes (World.set { w with shared := σ } pid request phase) other userId' link' :=
    fun different writes => writes_set.mpr (by rwa [if_neg different])
  refine ⟨?_, ?_, ?_, ?_, ?_, ?_, ?_, ?_⟩
  · intro other request' phase' found'
    rcases procs_set found' with ⟨rfl, rfl, rfl⟩ | ⟨_, found'⟩
    · exact obeys
    · exact coherent.obeys _ _ _ found'
  · intro other accountId phase' found'
    show accountId ∈ σ.ext.deauthorized
    rw [accounts]
    rcases procs_set found' with ⟨rfl, rfl, rfl⟩ | ⟨_, found'⟩
    · exact coherent.genuine _ accountId before found
    · exact coherent.genuine _ accountId phase' found'
  · show (σ.ext.accounts.map _).Nodup
    rw [accounts]
    exact coherent.distinct
  · intro other id now
    show _ ∈ σ.ext.accounts
    replace now : stored σ.db other = some id := now
    rw [updated] at now
    rw [accounts]
    split at now
    · subst now ‹other = userId›
      exact (coherent.pending pid other id mine).1
    · exact coherent.owned other id now
  · intro other userId' id writes
    obtain ⟨different, writes⟩ := others writes
    have earlier := coherent.pending other userId' id writes
    show _ ∈ σ.ext.accounts ∧ stored σ.db userId' = none
    rw [accounts, updated]
    refine ⟨earlier.1, ?_⟩
    split
    · subst ‹userId' = userId›
      cases link with
      | none => rfl
      | some id' => exact absurd (coherent.alone other pid userId' id id' writes mine) different
    · exact earlier.2
  · intro first second userId' id id' left right
    exact coherent.alone first second userId' id id' (others left).2 (others right).2
  · intro account member live
    change account ∈ σ.ext.accounts at member
    change account.id ∉ σ.ext.deauthorized at live
    show stored σ.db account.userId = _ ∨ _
    rw [accounts] at member live
    rw [updated]
    split
    · subst ‹account.userId = userId›
      rcases coherent.kept account member live with was | ⟨other, writes⟩
      · cases link with
        | some id =>
          -- whoever stores an id found none stored
          have empty := (coherent.pending pid account.userId id mine).2
          cases empty.symm.trans was
        | none =>
          obtain ⟨accountId, rfl, only⟩ :=
            coherent.clears pid request before account.userId found aims
          obtain rfl := only account.id was
          exact absurd (coherent.genuine pid _ before found) live
      · cases link with
        | some id =>
          obtain rfl := coherent.alone other pid account.userId account.id id writes mine
          obtain ⟨_, _, found', aims'⟩ := writes
          cases found.symm.trans found'
          cases aims.symm.trans aims'
          exact .inl rfl
        | none =>
          refine .inr ⟨other, elsewhere ?_ writes⟩
          rintro rfl
          obtain ⟨_, _, found', aims'⟩ := writes
          cases found.symm.trans found'
          cases aims.symm.trans aims'
    · rename_i apart
      refine (coherent.kept account member live).imp_right ?_
      rintro ⟨other, writes⟩
      refine ⟨other, elsewhere ?_ writes⟩
      rintro rfl
      obtain ⟨_, _, found', aims'⟩ := writes
      cases found.symm.trans found'
      cases aims.symm.trans aims'
      exact apart rfl
  · intro other request' phase' userId' found' aims'
    rcases procs_set found' with ⟨rfl, rfl, rfl⟩ | ⟨_, found'⟩
    · simp [done] at aims'
    · obtain ⟨accountId, same, only⟩ := coherent.clears other request' phase' userId' found' aims'
      refine ⟨accountId, same, fun id now => ?_⟩
      replace now : stored σ.db userId' = some id := now
      rw [updated] at now
      split at now
      · subst ‹userId' = userId›
        exact absurd ⟨request', phase', found', aims'⟩ (unclaimed id now other)
      · exact only id now

/-- A webhook has found the user that its account is linked to. -/
theorem Coherent.looked
    {before : Phase Write Statement Statement.Reply LockKey Exception TxCall TxCall.Out Outside
      Outside.Reply Response}
    (coherent : Coherent w) {userId : UserId} {accountId : String}
    (found : w.procs pid = some (.deauthorized (some accountId), before))
    (idle : links before.residual = none)
    (only : ∀ id, stored w.shared.db userId = some id → id = accountId)
    (obeys : Obeys (.deauthorized (some accountId)) phase.residual)
    (aims : links phase.residual = some (userId, none)) :
    Coherent (w.set pid (.deauthorized (some accountId)) phase) := by
  have writes : ∀ {other userId' id},
      Writes (w.set pid (.deauthorized (some accountId)) phase) other userId' (some id) ↔
      Writes w other userId' (some id) := by
    intro other userId' id
    by_cases here : other = pid
    · subst here
      simp [Writes, World.set_same, aims, found, idle]
    · simp [Writes, World.set_other _ _ _ here]
  refine ⟨?_, ?_, coherent.distinct, coherent.owned, ?_, ?_, ?_, ?_⟩
  · intro other request' phase' found'
    rcases procs_set found' with ⟨rfl, rfl, rfl⟩ | ⟨_, found'⟩
    · exact obeys
    · exact coherent.obeys _ _ _ found'
  · intro other accountId' phase' found'
    rcases procs_set found' with ⟨rfl, same, rfl⟩ | ⟨_, found'⟩
    · cases same
      exact coherent.genuine _ accountId before found
    · exact coherent.genuine _ accountId' phase' found'
  · exact fun other userId' id new => coherent.pending other userId' id (writes.mp new)
  · exact fun first second userId' id id' left right =>
      coherent.alone first second userId' id id' (writes.mp left) (writes.mp right)
  · intro account member live
    refine (coherent.kept account member live).imp_right ?_
    rintro ⟨other, stores⟩
    exact ⟨other, writes.mpr stores⟩
  · intro other request' phase' userId' found' aims'
    rcases procs_set found' with ⟨rfl, rfl, rfl⟩ | ⟨_, found'⟩
    · cases aims.symm.trans aims'
      exact ⟨accountId, rfl, only⟩
    · exact coherent.clears other request' phase' userId' found' aims'

theorem Coherent.start (coherent : Coherent w) (idle : w.procs pid = none)
    (permitted : Connect.genuine w.shared (.start pid request)) :
    Coherent (w.set pid request (.running (request.handler config))) := by
  obtain ⟨quiet, obeys⟩ := obeys_handler config request
  refine coherent.calm rfl (fun _ => id) (fun _ => rfl) ?_ ?_
  · intro other request' phase' found
    rcases procs_set found with ⟨rfl, rfl, rfl⟩ | ⟨_, found'⟩
    · refine ⟨obeys, ?_, .inl quiet⟩
      rintro accountId rfl
      exact permitted
    · refine ⟨coherent.obeys _ _ _ found', ?_, .inr ⟨phase', found', rfl⟩⟩
      rintro accountId rfl
      exact coherent.genuine _ accountId phase' found'
  · rintro other userId id ⟨request', phase', found, aims⟩
    refine ⟨request', phase', ?_, aims⟩
    rw [World.set_other, found]
    rintro rfl
    simp [idle] at found

/-- A step outside the database creates an account, looks up a user, or leaves nothing to write. -/
theorem Coherent.outside {x : Outside} {next : Except Exception x.Reply → Svc Response}
    {reply : Except Exception x.Reply} {ext : Ext} (coherent : Coherent w)
    (found : w.procs pid = some (request, .running (.call (.outside x) next)))
    (replied : x.Answers w.shared.db w.shared.ext reply ext)
    (spaced : Spaced w (World.set { w with shared := { w.shared with ext := ext } } pid request
      (.running (next reply)))) :
    Coherent (World.set { w with shared := { w.shared with ext := ext } } pid request
      (.running (next reply))) := by
  obtain ⟨allowed, obeys⟩ := coherent.obeys _ _ _ found
  obtain ⟨due, rest⟩ := obeys reply
  have quiet : ext = w.shared.ext → x.due reply = none →
      Coherent (World.set { w with shared := { w.shared with ext := ext } } pid request
        (.running (next reply))) := by
    rintro rfl nothing
    exact coherent.moved found rfl rfl (fun _ => rfl) rest (.inl (due.trans nothing))
  cases x with
  | findById userId => exact quiet replied.1 rfl
  | createAccountLink account returnUrl refreshUrl => exact quiet replied rfl
  | draw => exact quiet replied.1 rfl
  | findByConnectAccountId accountId =>
    obtain ⟨rfl, read⟩ := replied
    obtain rfl : request = .deauthorized (some accountId) := allowed
    rcases read with rfl | rfl
    · generalize row : w.shared.db.users.rows.find? (fun row =>
        row.stripeConnectAccountId = some accountId) = user at *
      cases user with
      | none => exact quiet rfl rfl
      | some user =>
        have linked : user.stripeConnectAccountId =
          some accountId := by simpa using List.find?_some row
        refine coherent.looked found rfl (fun id is => ?_) rest due
        rw [stored, Table.get?_of_mem (List.mem_of_find?_eq_some row),
          Option.bind_some, linked] at is
        exact (Option.some.inj is).symm
    · exact quiet rfl rfl
  | createAccount userId email =>
    cases replied with
    | failed => exact quiet rfl rfl
    | @created accountId _ fresh =>
      obtain ⟨unlinked, free⟩ :=
        spaced.1 ⟨accountId, userId⟩ (List.mem_append_right _ (List.mem_singleton_self _))
        fun old => fresh _ old rfl
      exact coherent.created found rfl rfl rfl rfl fresh unlinked
        (fun other id => free other id) rest due

/-- A commit stores or clears a link, or registers a user without one. -/
theorem Coherent.commit {c : TxCall} {value : c.Out} {writes : List Write} {held : List LockKey}
    {next : Except Exception c.Out → Svc Response} (reply : Except Exception c.Out)
    (coherent : Coherent w)
    (orderly : w.Orderly (onboarding config) (fun _ => True) Statement.Learned)
    (found : w.procs pid = some (request, .inTx c (.pure value) writes held next))
    (spaced : Spaced w (World.set
      { w with shared := w.shared.commit c (postgres.view w.shared.db writes) } pid request
      (.running (next reply)))) :
    Coherent (World.set
      { w with shared := w.shared.commit c (postgres.view w.shared.db writes) } pid request
      (.running (next reply))) := by
  obtain ⟨allowed, obeys⟩ := coherent.obeys _ _ _ found
  obtain ⟨done, rest⟩ := obeys reply
  have effect : ∀ Q : c.Out → DB → Prop, Ensures w.shared.db c.code w.shared.db Q →
      Q value (postgres.view w.shared.db writes) :=
    fun _ body => (orderly.follows found).wp body
  cases c with
  | createUserWithWallet data draw =>
    exact coherent.moved found rfl rfl (effect _ ensures_unlinked) rest (.inr ⟨done, nofun⟩)
  | setConnectAccountId userId link =>
    have updated := patched_stored (effect _ updateUser_patched)
    refine coherent.linked found rfl rfl updated (fun id same => ?_) rest done
    subst same
    have before := (coherent.pending pid userId id ⟨request, _, found, rfl⟩).2
    exact spaced.2 userId id ((updated userId).trans (if_pos rfl)) (by simp [before])
  | _ => exact absurd allowed id

/-- Only a webhook can fail to write. -/
theorem Coherent.abort {c : TxCall} {body : Tx c.Out} {writes : List Write}
    {held : List LockKey} {error : Exception}
    {next : Except Exception c.Out → Svc Response} (coherent : Coherent w)
    (found : w.procs pid = some (request, .inTx c body writes held next))
    (permitted : Connect.genuine w.shared (.abort pid c error)) :
    Coherent (w.set pid request (.running (next (.error error)))) := by
  obtain ⟨allowed, obeys⟩ := coherent.obeys _ _ _ found
  obtain ⟨done, rest⟩ := obeys (.error error)
  refine coherent.moved found rfl rfl (fun _ => rfl) rest (.inr ⟨done, fun userId id aims => ?_⟩)
  cases c with
  | setConnectAccountId userId' link =>
    cases aims
    exact permitted
  | _ => cases aims

/-- Every spaced step keeps the links coherent. -/
theorem Coherent.step (coherent : Coherent w)
    (orderly : w.Orderly (onboarding config) (fun _ => True) Statement.Learned)
    (taken : (onboarding config).Step Connect.genuine w w') (spaced : Spaced w w') :
    Coherent w' := by
  cases taken with
  | start idle permitted => exact coherent.start idle permitted
  | outside found permitted replied => exact coherent.outside found replied spaced
  | begin found | read found | write found =>
    have obeys := coherent.obeys _ _ _ found
    exact coherent.moved found rfl rfl (fun _ => rfl) obeys (.inl rfl)
  | commit found permitted => exact coherent.commit _ orderly found spaced
  | lost found permitted => exact coherent.commit _ orderly found spaced
  | abort found aborts permitted => exact coherent.abort found permitted
  | drift permitted drifted =>
    cases drifted with
    | withdrawn member =>
      refine coherent.calm rfl (fun _ => List.mem_cons_of_mem _) (fun _ => rfl) ?_ (fun _ _ _ => id)
      intro pid request phase found
      refine ⟨coherent.obeys _ _ _ found, ?_, .inr ⟨phase, found, rfl⟩⟩
      rintro accountId rfl
      exact List.mem_cons_of_mem _ (coherent.genuine _ accountId phase found)

end Steps
end PaymentWallet.Connect
