import PaymentWallet.Sessions.Shadows

/-! A statement of a transaction in the two runs. Those of a cleanup have no counterpart;
the others find the same, apart from the scans for what there is to revoke, after which the
second run lags behind. -/
namespace PaymentWallet.Sessions
open Foundation

section Reading
variable {config : Config} {gone : List String} {full d : Store} {c : TxCall} {writes : List Write}
  {held : List LockKey}
  {s : Statement} {rest : s.Reply → Tx c.Out}
  {next : Except Exception c.Out → Svc Response} {reply : s.Reply} {ws : List Write}

/-- The tokens that a cleanup picks have expired. -/
theorem Cleans.read (cleans : Cleans full d (.inTx c (.call s rest) writes held next))
    (swept : Store.Swept gone full d)
    (plain : s.plain = true) (exec : s.exec d = .ok (reply, ws)) :
    Cleans full d (.inTx c (rest reply) writes held next) := by
  cases cleans with
  | @inTx _ _ _ date doomed _ _ all purges dated ended deletes =>
    cases s with
    | newDate =>
      cases exec
      refine .inTx all (purges d.now) ?_ ended deletes
      rintro _ ⟨⟩
      exact Nat.le_of_eq swept.now
    | findExpired now =>
      obtain ⟨same, purges⟩ := purges
      cases exec
      refine .inTx all (purges _) dated ?_ deletes
      intro tokenHash member
      obtain ⟨row, expired, rfl⟩ := List.mem_map.mp member
      obtain ⟨member, before⟩ := List.mem_filter.mp expired
      have before : row.expiresAt < now := by simpa using before
      exact ⟨row, (swept.found (Table.get?_of_mem member)).2, before.trans_le (dated now same)⟩
    | count | findOldest | findUnrevoked => exact purges.elim
    | _ => cases plain

/-- What a scan has found is found in the full store as well, and no more that is not gone. -/
theorem scan_swept (swept : Store.Swept gone full d) (p : RefreshToken → Bool) {tokenHash : String}
    (kept : tokenHash ∉ gone) :
    tokenHash ∈ (full.refreshTokens.rows.filter p).map (·.tokenHash) ↔
      tokenHash ∈ (d.refreshTokens.rows.filter p).map (·.tokenHash) := by
  simp only [swept.rows, List.mem_map, List.mem_filter]
  constructor
  · rintro ⟨row, ⟨member, selected⟩, rfl⟩
    exact ⟨row, ⟨⟨member, by simpa using kept⟩, selected⟩, rfl⟩
  · rintro ⟨row, ⟨⟨member, _⟩, selected⟩, rfl⟩
    exact ⟨row, ⟨member, selected⟩, rfl⟩

/-- The number of tokens that a transaction has ended does not tell how the caller goes on. -/
theorem resumes_of_settled {now : DateTime} {own : String → Prop} {k : Nat → Tx c.Out}
    (settled : Settled now own (.call (.transact c) next)) (ends : c.ends)
    (returns : ∀ count, ∃ value, k count = .pure value) :
    ∃ p, ∀ k' : Nat → Tx c.Out, (∀ count, ∃ value, k' count = .pure value) →
      Resumes next p k' := by
  obtain ⟨value, _⟩ := returns 0
  refine ⟨next (.ok value), fun k' returns' count => ?_⟩
  obtain ⟨value', same⟩ := returns' count
  exact ⟨value', same, settled.2.2.1 ends value' value⟩

theorem Stays.read {request : Request} (keeps : request.cleans = false)
    (swept : Store.Swept gone full d)
    (stays : Stays gone full (.inTx c (.call s rest) writes held next)) (plain : s.plain = true)
    (exec : s.exec d = .ok (reply, ws)) : ∃ reply', s.exec full = .ok (reply', []) ∧
      Alike config gone full d (some (request, .inTx c (rest reply) writes held next))
        (some (request, .inTx c (rest reply') writes held next)) := by
  cases stays with
  | @inTx since chosen _ _ _ _ _ settled steady dates grips =>
    have sees : ∀ userId now, c.opens = some userId → since ≤ now →
        d.activeTokens userId now = full.activeTokens userId now := by
      refine fun userId now opens later =>
        swept.activeTokens fun tokenHash member row found owned => ?_
      exact (dates.ended tokenHash member row found (owned ▸ opens)).trans later
    cases s with
    | newDate =>
      cases exec
      refine ⟨full.now, rfl, ?_⟩
      rw [swept.now]
      exact .stays keeps (.inTx settled (steady _ dates.began) dates grips)
    | count userId now =>
      obtain ⟨opens, later, steady⟩ := steady
      cases exec
      refine ⟨_, rfl, ?_⟩
      rw [sees userId now opens later]
      exact .stays keeps (.inTx settled (steady _) dates grips)
    | findOldest userId now tie =>
      obtain ⟨opens, later, steady⟩ := steady
      cases exec
      refine ⟨_, rfl, ?_⟩
      rw [← sees userId now opens later]
      refine .stays keeps (.inTx settled (steady _) ⟨dates.began, dates.ended,
        fun tokenHash same => ?_⟩ grips)
      obtain ⟨row, chosen, rfl⟩ := Option.map_eq_some_iff.mp same
      have active := List.mem_filter.mp (oldest_mem chosen)
      simp only [Bool.and_eq_true, decide_eq_true_eq] at active
      obtain ⟨kept, found⟩ := swept.found (Table.get?_of_mem active.1)
      exact ⟨kept, row, found, active.2.1 ▸ opens⟩
    | findUnrevoked userId =>
      obtain ⟨ends, now, k, same, returns⟩ := steady
      cases exec
      obtain ⟨p, resumes⟩ := resumes_of_settled settled ends returns
      refine ⟨_, rfl, .lags keeps settled (?_ :
        Lags gone c [] _ _ held held writes) (resumes k returns) (resumes k returns)
        (same _) (same _) ?_⟩
      · exact ⟨ends, d.refreshTokens.keys_nodup.sublist (List.filter_sublist.map _),
          fun _ kept => scan_swept swept _ kept,
          fun _ member => absurd member List.not_mem_nil, fun _ => id,
            grips.spare ends, grips.covered⟩
      · exact (List.append_nil _).symm
    | findExpired => exact steady.elim
    | _ => cases plain

end Reading

section Writing
variable {config : Config} {gone : List String} {full d : Store} {c : TxCall} {writes : List Write}
  {held held' : List LockKey}
  {s : Statement} {rest : s.Reply → Tx c.Out}
  {next : Except Exception c.Out → Svc Response} {reply : s.Reply}
  {ws : List Write} {request : Request}

/-- What is left after deletions was there before. -/
theorem get?_deletes {tokenHash : String} {row : RefreshToken}
    (deletes : ∀ w ∈ writes, ∃ tokenHash, w = .deleteToken tokenHash)
    (found : (postgres.view d writes).refreshTokens.get? tokenHash = some row) :
    d.refreshTokens.get? tokenHash = some row := by
  induction writes generalizing d with
  | nil => exact found
  | cons w ws ih =>
    rw [List.forall_mem_cons] at deletes
    obtain ⟨⟨other, rfl⟩, deletes⟩ := deletes
    have found := ih deletes found
    simp only [postgres, Store.write, Table.get?_remove] at found
    split at found
    · cases found
    · exact found

theorem Cleans.write (cleans : Cleans full d (.inTx c (.call s rest) writes held next))
    (swept : Store.Swept gone full d)
    (locked : s.plain = false) (exec : s.exec (postgres.view d writes) = .ok (reply, ws)) :
    Cleans full d (.inTx c (rest reply) (writes ++ ws) (held ++
      s.keys (postgres.view d writes)) next) := by
  cases cleans with
  | @inTx _ _ _ date doomed _ _ all purges dated ended deletes =>
    cases s with
    | deleteToken tokenHash =>
      refine .inTx all (purges.2 _) dated ended fun w member => ?_
      rcases List.mem_append.mp member with old | new
      · obtain ⟨other, rfl, mine, past⟩ := deletes w old
        exact ⟨other, rfl, List.mem_append_left _ mine, past⟩
      · simp only [Statement.exec] at exec
        cases found : (postgres.view d writes).refreshTokens.get? tokenHash with
        | none =>
          simp only [found, Except.ok.injEq, Prod.mk.injEq] at exec
          rw [← exec.2] at new
          cases new
        | some row =>
          simp only [found, Except.ok.injEq, Prod.mk.injEq] at exec
          rw [← exec.2, List.mem_singleton] at new
          have present : d.refreshTokens.get? tokenHash = some row :=
            get?_deletes (fun w member => (deletes w member).imp fun _ found => found.1) found
          obtain ⟨row', present', before⟩ := ended tokenHash purges.1
          cases (swept.found present).2.symm.trans present'
          exact ⟨tokenHash, new, List.mem_append_right _ (List.mem_singleton_self _), row,
            present, swept.now ▸ before⟩
    | newDate | count | findOldest | findUnrevoked | findExpired => cases locked
    | _ => exact purges.elim

/-- A statement writes where it has locked. -/
theorem within_exec (lasting : s.lasting) (locked : s.plain = false)
    (exec : s.exec d = .ok (reply, ws)) :
    ∀ w ∈ ws, w.within (s.keys d) := by
  have token : ∀ {row : RefreshToken} {tokenHash : String}, row.tokenHash = tokenHash →
      ∀ w ∈ [Write.token row], w.within [.token tokenHash] := by
    rintro row _ rfl w member
    rw [List.mem_singleton.mp member]
    exact List.mem_singleton_self _
  cases s with
  | newDate | count | findOldest | findUnrevoked | findExpired => cases locked
  | deleteToken => exact lasting.elim
  | advisoryLock | advance =>
    cases exec
    simp [Write.within]
  | revokeActive =>
    obtain ⟨row, found, _, rfl⟩ := exec_revokeActive.mp exec
    exact token (show row.tokenHash = _ from Table.get?_key found)
  | revokeIfActive =>
    rcases exec_revokeIfActive exec with ⟨rfl, _⟩ | ⟨row, found, _, rfl⟩
    · exact fun w member => absurd member List.not_mem_nil
    · exact token (show row.tokenHash = _ from Table.get?_key found)
  | revokeSession =>
    obtain ⟨row, found, rfl⟩ := exec_revokeSession.mp exec
    exact token (show row.tokenHash = _ from Table.get?_key found)
  | createToken =>
    obtain ⟨_, rfl⟩ := exec_createToken.mp exec
    exact token rfl
  | createUser =>
    obtain ⟨_, _, rfl⟩ := exec_createUser.mp exec
    simp [Write.within]
  | updateUser =>
    obtain ⟨_, _, rfl⟩ := exec_updateUser.mp exec
    simp [Write.within]

/-- A statement on tokens that are not gone is the same in both runs. -/
theorem Stays.both {since : DateTime} {chosen : Option String} (swept : Store.Swept gone full d)
    (settled : Settled full.now (· ∉ gone) (.call (.transact c) next))
    (dates : Dates gone full c since chosen) (grips : Grips gone c writes held)
    (steady : Steady c since chosen (rest reply)) (lasting : s.lasting) (locked : s.plain = false)
    (spares : ∀ tokenHash, .token tokenHash ∈ s.keys (postgres.view d writes) →
      tokenHash ∉ gone ∧ c.ends = false)
    (exec : s.exec (postgres.view d writes) = .ok (reply, ws)) :
    s.exec (postgres.view full writes) = .ok (reply, ws) ∧
      Stays gone full (.inTx c (rest reply) (writes ++ ws) (held ++
        s.keys (postgres.view d writes)) next) := by
  refine ⟨?_, .inTx settled steady dates ⟨fun w member => ?_, fun tokenHash member => ?_,
    fun ends tokenHash member => ?_⟩⟩
  · rw [← (swept.view grips.spares).exec locked fun tokenHash member => (spares tokenHash member).1]
    exact exec
  · rcases List.mem_append.mp member with old | new
    · exact (grips.covered w old).mono fun k => List.mem_append_left _
    · exact (within_exec lasting locked exec w new).mono fun k => List.mem_append_right _
  · rcases List.mem_append.mp member with old | new
    · exact grips.kept tokenHash old
    · exact (spares tokenHash new).1
  · rcases List.mem_append.mp member with old | new
    · exact grips.spare ends tokenHash old
    · rw [(spares tokenHash new).2] at ends
      cases ends

theorem revocations_append (now : DateTime) (first second : List String) :
    revocations now d (first ++ second) = revocations now d first ++ revocations now d second :=
  List.filterMap_append

/-- One more token is revoked, which the second run leaves for later. -/
theorem Alike.lagging {now : DateTime} {past list all : List String} {k k' : Nat → Tx c.Out}
    {p : Svc Response} {body' : Tx c.Out}
    (keeps : request.cleans = false)
    (settled : Settled full.now (· ∉ gone) (.call (.transact c) next))
    (lags : Lags gone c past list all held held' writes) (resumes : Resumes next p k)
    (resumes' : Resumes next p k')
    (run : .call s rest = (revokeEach now list).bind k)
    (run' : body' = (revokeEach now all).bind k')
    (exec : s.exec (postgres.view d (writes ++ revocations now d past)) = .ok (reply, ws)) :
    Alike config gone full d
      (some (request, .inTx c (rest reply) (writes ++ revocations now d past ++ ws)
        (held ++ s.keys (postgres.view d (writes ++ revocations now d past))) next))
      (some (request, .inTx c body' writes held' next)) := by
  cases list with
  | nil =>
    obtain ⟨value, returns, _⟩ := resumes 0
    cases run.trans returns
  | cons tokenHash list =>
    cases run
    have lags' : Lags gone c (past ++ [tokenHash]) list all (held ++
        [.token tokenHash]) held' writes := by
      have same : past ++ [tokenHash] ++ list = past ++ tokenHash ::
        list := by rw [List.append_assoc, List.singleton_append]
      refine ⟨lags.ends, same ▸ lags.distinct, same ▸ lags.members, fun other member => ?_,
        fun key member => List.mem_append_left _ (lags.fewer key member), lags.spare, lags.covered⟩
      rcases List.mem_append.mp member with old | new
      · exact List.mem_append_left _ (lags.locked other old)
      · exact List.mem_append_right
          _ (List.mem_singleton.mpr (congrArg LockKey.token (List.mem_singleton.mp new)))
    have fresh : tokenHash ∉ past := fun member =>
      (List.nodup_append.mp lags.distinct).2.2 tokenHash member tokenHash List.mem_cons_self rfl
    have more : ws = revocations now d [tokenHash] := by
      rw [exec_revocations exec]
      apply revocations_congr
      intro other member
      rw [List.mem_singleton.mp member, Engine.view_append, get?_revocations fresh,
        get?_within lags.covered lags.spare]
    refine .lags keeps settled lags' (fun count => resumes (reply + count)) resumes' ?_ run' ?_
    · exact Program.bind_assoc (revokeEach now list) (fun more => .pure (reply + more)) k
    · rw [more, revocations_append, List.append_assoc]

/-- A statement of a transaction is the same in both runs, or the second run puts it off. -/
theorem Stays.write (keeps : request.cleans = false) (swept : Store.Swept gone full d)
    (stays : Stays gone full (.inTx c (.call s rest) writes held next)) (locked : s.plain = false)
    (fresh : ∀ data, c.creates = some data → s = .createToken data.row → data.tokenHash ∉ gone)
    (exec : s.exec (postgres.view d writes) = .ok (reply, ws)) :
    (s.exec (postgres.view full writes) = .ok (reply, ws) ∧
      Stays gone full (.inTx c (rest reply) (writes ++ ws) (held ++
        s.keys (postgres.view d writes)) next)) ∨
    Alike config gone full d
      (some (request, .inTx c (rest reply) (writes ++ ws) (held ++
        s.keys (postgres.view d writes)) next))
      (some (request, .inTx c (.call s rest) writes held next)) := by
  cases stays with
  | @inTx since chosen _ _ _ _ _ settled steady dates grips =>
    cases s with
    | newDate | count | findOldest | findUnrevoked | findExpired => cases locked
    | deleteToken => exact steady.elim
    | advisoryLock | createUser | updateUser | advance =>
      exact .inl (Stays.both swept settled dates grips steady trivial rfl
        (by simp [Statement.keys]) exec)
    | revokeActive tokenHash now =>
      obtain ⟨rotates, steady⟩ := steady
      refine .inl (Stays.both swept settled dates grips steady trivial rfl
        (fun other member => ?_) exec)
      obtain rfl := LockKey.token.inj (List.mem_singleton.mp member)
      refine ⟨settled.2.1 other rotates, ?_⟩
      cases c with
      | rotateRefreshToken => rfl
      | _ => cases rotates
    | revokeSession tokenHash now =>
      obtain ⟨same, steady⟩ := steady
      refine .inl (Stays.both swept settled dates grips steady trivial rfl
        (fun other member => ?_) exec)
      obtain rfl := LockKey.token.inj (List.mem_singleton.mp member)
      obtain ⟨kept, row, _, opens⟩ := dates.picked other same
      refine ⟨kept, ?_⟩
      cases c with
      | createSessionAtomic => rfl
      | _ => cases opens
    | createToken row =>
      obtain ⟨mapped, value, returns⟩ := steady
      obtain ⟨data, creates, rfl⟩ := Option.map_eq_some_iff.mp mapped
      have steady : Steady c since chosen (rest reply) := by
        rw [show rest reply = .pure value from returns]
        cases chosen <;> trivial
      refine .inl (Stays.both swept settled dates grips steady trivial rfl
        (fun other member => ?_) exec)
      obtain rfl := LockKey.token.inj (List.mem_singleton.mp member)
      refine ⟨fresh data creates rfl, ?_⟩
      cases c with
      | rotateRefreshToken | createSessionAtomic => rfl
      | _ => cases creates
    | revokeIfActive tokenHash now =>
      obtain ⟨ends, returns⟩ := steady
      obtain ⟨p, resumes⟩ := resumes_of_settled settled ends returns
      have lags : Lags gone c [] [tokenHash] [tokenHash] held held writes :=
        ⟨ends, List.nodup_singleton _, fun _ _ => Iff.rfl, fun _ member =>
          absurd member List.not_mem_nil, fun _ => id, grips.spare ends, grips.covered⟩
      have run : .call (.revokeIfActive tokenHash now) rest =
        (revokeEach now [tokenHash]).bind rest := rfl
      have exec' : (Statement.revokeIfActive tokenHash now).exec
        (postgres.view d (writes ++ revocations now d [])) = .ok (reply, ws) :=
        (List.append_nil writes).symm ▸ exec
      have alike : Alike config gone full d _ _ :=
        .lagging keeps settled lags (resumes rest returns) (resumes rest returns) run run exec'
      rw [show revocations now d [] = [] from rfl, List.append_nil] at alike
      exact .inr alike

theorem revokeIfActive_succeeds {tokenHash : String} {now : DateTime} {error : Exception} :
    (Statement.revokeIfActive tokenHash now).exec d ≠ .error error := by
  simp only [Statement.exec]
  split
  · rintro ⟨⟩
  · split <;> rintro ⟨⟩

/-- What is left of a scan revokes the next token, or ends. -/
theorem revoking {now : DateTime} {list : List String} {k : Nat → Tx c.Out}
    {p : Svc Response} {body : Tx c.Out}
    (resumes : Resumes next p k) (run : body = (revokeEach now list).bind k) :
    (list = [] ∧ ∃ value, body = .pure value ∧ next (.ok value) = p) ∨
      ∃ tokenHash rest, body = .call (.revokeIfActive tokenHash now) rest := by
  cases list with
  | nil =>
    obtain ⟨value, returns, same⟩ := resumes 0
    exact .inl ⟨rfl, value, run.trans returns, same⟩
  | cons tokenHash list => exact .inr ⟨tokenHash, _, run⟩

/-- A statement that fails in one run fails in the other. -/
theorem Stays.fails {error : Exception} (swept : Store.Swept gone full d)
    (stays : Stays gone full (.inTx c (.call s rest) writes held next))
    (exec : s.exec (postgres.source s d (postgres.view d writes)) = .error error) :
    s.exec (postgres.source s full (postgres.view full writes)) = .error error := by
  cases stays with
  | @inTx since chosen _ _ _ _ _ settled steady dates grips =>
    have swept := swept.view grips.spares
    have same : s.plain = false →
        (∀ tokenHash, .token tokenHash ∈ s.keys (postgres.view d writes) → tokenHash ∉ gone) →
        s.exec (postgres.view full writes) = s.exec (postgres.view d writes) :=
          fun locked spares => (swept.exec locked spares).symm
    cases s with
    | newDate | count | findOldest | findUnrevoked | findExpired | advisoryLock | advance =>
      cases exec
    | deleteToken => exact steady.elim
    | revokeIfActive tokenHash now =>
      exact absurd exec revokeIfActive_succeeds
    | createUser | updateUser => exact (same rfl (by simp [Statement.keys])).trans exec
    | revokeActive tokenHash now =>
      refine (same rfl fun other member => ?_).trans exec
      obtain rfl := LockKey.token.inj (List.mem_singleton.mp member)
      exact settled.2.1 other steady.1
    | revokeSession tokenHash now =>
      refine (same rfl fun other member => ?_).trans exec
      obtain rfl := LockKey.token.inj (List.mem_singleton.mp member)
      exact (dates.picked other steady.1).1
    | createToken row =>
      change (Statement.createToken row).exec (postgres.view d writes) = _ at exec
      change (Statement.createToken row).exec (postgres.view full writes) = _
      simp only [Statement.exec] at exec ⊢
      split at exec
      · rename_i taken
        obtain ⟨old, present⟩ := Option.isSome_iff_exists.mp taken
        rw [if_pos (Option.isSome_iff_exists.mpr ⟨old, (swept.found present).2⟩)]
        exact exec
      · cases exec

end Writing

section Closing
variable {gone : List String} {full d : Store} {now : DateTime} {c : TxCall}
  {next : Except Exception c.Out → Svc Response} {p : Svc Response} {k : Nat → Tx c.Out}

/-- Revocations lock nothing but their tokens. -/
theorem locks_revoking (resumes : Resumes next p k) (all : List String) :
    ((revokeEach now all).bind k).All fun s =>
    ∀ d, ∀ key ∈ s.keys d, ∃ tokenHash ∈ all, key = .token tokenHash := by
  have each : ∀ list, (∀ tokenHash ∈ list, tokenHash ∈ all) → (revokeEach now list).All fun s =>
      ∀ d, ∀ key ∈ s.keys d, ∃ tokenHash ∈ all, key = .token tokenHash := by
    intro list
    induction list with
    | nil => exact fun _ => trivial
    | cons tokenHash list ih =>
      intro sub
      rw [List.forall_mem_cons] at sub
      refine ⟨fun d key member => ⟨tokenHash, sub.1, List.mem_singleton.mp member⟩,
        fun _ => (ih sub.2).bind fun _ => trivial⟩
  apply (each all fun _ => id).bind
  intro count
  obtain ⟨value, returns, _⟩ := resumes count
  exact returns ▸ trivial

theorem run_revoking (full d : Store) (resumes : Resumes next p k) (all : List String) : ∃ value,
    postgres.run full ((revokeEach now all).bind k) d = .ok (value,
      all.foldl (·.revokeIfActive · now) d) ∧ next (.ok value) = p := by
  obtain ⟨count, ran⟩ := run_revokeEach full d now all
  obtain ⟨value, returns, same⟩ := resumes count
  refine ⟨value, ?_, same⟩
  rw [Engine.run_bind, ran, Except.bind, returns]
  rfl

/-- Revoking the same tokens, up to some that are gone. -/
theorem Store.Swept.revokeEach {all past : List String} (swept : Store.Swept gone full d)
    (members : ∀ tokenHash ∉ gone, tokenHash ∈ all ↔ tokenHash ∈ past) :
    Store.Swept gone (all.foldl (·.revokeIfActive · now) full)
      (past.foldl (·.revokeIfActive · now) d) where
  now := by rw [revokeEach_now, revokeEach_now, swept.now]
  users := by rw [revokeEach_users, revokeEach_users, swept.users]
  rows := by
    rw [rows_revokeEach, rows_revokeEach, swept.rows, List.filter_map]
    refine (List.map_congr_left fun row member => ?_).trans
      (congrArg _ (List.filter_congr fun row _ => ?_))
    · have kept : row.tokenHash ∉ gone := by simpa using (List.mem_filter.mp member).2
      simp only [members row.tokenHash kept]
    · simp only [Function.comp_apply, apply_ite RefreshToken.tokenHash,
        RefreshToken.ended_tokenHash, ite_self]
  expired tokenHash member := by
    obtain ⟨row, found, before⟩ := swept.expired tokenHash member
    obtain ⟨inside, rfl⟩ := Table.get?_some.mp found
    have there : (if row.tokenHash ∈ all then row.ended now else row) ∈
        (all.foldl (·.revokeIfActive · now) full).refreshTokens.rows := by
      rw [rows_revokeEach]
      exact List.mem_map_of_mem inside
    have found := Table.get?_of_mem there
    rw [apply_ite RefreshToken.tokenHash, RefreshToken.ended_tokenHash, ite_self] at found
    refine ⟨_, found, ?_⟩
    rw [apply_ite RefreshToken.expiresAt, RefreshToken.ended_expiresAt, ite_self, revokeEach_now]
    exact before

/-- More tokens go that have expired. -/
theorem Store.Swept.delete {hashes : List String} (swept : Store.Swept gone full d)
    (ended : ∀ tokenHash ∈ hashes, d.Ended tokenHash) :
    Store.Swept (gone ++ hashes) full (postgres.view d (hashes.map .deleteToken)) := by
  obtain ⟨now, users, rows⟩ := view_deletes d hashes
  refine ⟨now.trans swept.now, users.trans swept.users, ?_, fun tokenHash member => ?_⟩
  · rw [rows, swept.rows, List.filter_filter]
    apply List.filter_congr
    intro row _
    by_cases before : row.tokenHash ∈ gone <;> simp [before]
  · rcases List.mem_append.mp member with old | new
    · exact swept.expired tokenHash old
    · obtain ⟨row, found, before⟩ := ended tokenHash new
      exact ⟨row, (swept.found found).2, swept.now ▸ before⟩

end Closing
end PaymentWallet.Sessions
