import PaymentWallet.Sessions.Availability
import PaymentWallet.Sessions.Executions
import PaymentWallet.Sessions.Invariants
import PaymentWallet.Sessions.Steady

/-! The cleanup loop alone, while time passes and more tokens expire. Every full batch takes
as many rows as it has room for, so the loop ends, and its last batch has found all there was. -/
namespace PaymentWallet.Sessions
open Foundation

/-- What a cleanup that has removed so many tokens leaves. -/
structure Cleaned (removed : Nat) (d d' : Store) : Prop where
  later : d.now ≤ d'.now
  counted : removed + d'.refreshTokens.rows.length = d.refreshTokens.rows.length
  kept : d'.refreshTokens.rows.Sublist d.refreshTokens.rows
  cleared : ∀ row ∈ d'.refreshTokens.rows, ¬ row.expiresAt < d.now
  expired : ∀ row ∈ d.refreshTokens.rows, row ∉ d'.refreshTokens.rows → row.expiresAt < d'.now

/-- What one batch that has removed so many tokens leaves. -/
structure Batch (batchSize count : Nat) (d d' : Store) : Prop where
  later : d.now ≤ d'.now
  counted : count + d'.refreshTokens.rows.length = d.refreshTokens.rows.length
  bound : count ≤ batchSize
  kept : d'.refreshTokens.rows.Sublist d.refreshTokens.rows
  expired : ∀ row ∈ d.refreshTokens.rows, row ∉ d'.refreshTokens.rows → row.expiresAt < d'.now
  cleared : count < batchSize → ∀ row ∈ d'.refreshTokens.rows, ¬ row.expiresAt < d'.now

section Batches
variable {d v : Store} {hashes found first : List String} {batchSize : Nat}

/-- Tokens that are there are deleted, and counted. -/
theorem run_deleteEach (distinct : hashes.Nodup)
    (present : ∀ tokenHash ∈ hashes, (v.refreshTokens.get? tokenHash).isSome) :
    postgres.run d (deleteEach hashes) v = .ok (hashes.length,
      postgres.view v (hashes.map .deleteToken)) := by
  induction hashes generalizing v with
  | nil => rfl
  | cons tokenHash hashes ih =>
    obtain ⟨row, found⟩ := Option.isSome_iff_exists.mp (present tokenHash List.mem_cons_self)
    have first : postgres.run d (query (.deleteToken tokenHash)) v = .ok (1,
        v.write (.deleteToken tokenHash)) := by
      rw [query, Engine.run_perform rfl]
      simp only [postgres, Statement.exec, found]
      rfl
    have others := ih (List.nodup_cons.mp distinct).2 (v := v.write (.deleteToken tokenHash))
        fun other member => by
      have different : other ≠ tokenHash :=
        fun same => (List.nodup_cons.mp distinct).1 (same ▸ member)
      simpa [Store.write, different] using present other (List.mem_cons_of_mem _ member)
    simp only [deleteEach, Program.bind_def, Engine.run_bind, first, Except.bind, others,
      Program.pure_def, Engine.run, List.length_cons, Nat.add_comm 1]
    rfl

/-- `LIMIT` keeps as many of the rows as it may. -/
theorem limit_spec (distinct : found.Nodup) {chosen : List String}
    (chose : chosen = (found.filter (· ∈ first) ++ found.filter (· ∉ first)).take batchSize) :
    chosen.Nodup ∧ (∀ tokenHash ∈ chosen, tokenHash ∈ found) ∧ chosen.length ≤ batchSize ∧
      (chosen.length < batchSize → ∀ tokenHash ∈ found, tokenHash ∈ chosen) := by
  have perm : (found.filter (· ∈ first) ++ found.filter (· ∉ first)).Perm found := by
    simpa using List.filter_append_perm (fun tokenHash => decide (tokenHash ∈ first)) found
  subst chose
  refine ⟨(perm.nodup_iff.mpr distinct).sublist (List.take_sublist ..), fun tokenHash member =>
    perm.subset (List.mem_of_mem_take member),
    List.length_take_le .., fun short tokenHash member => ?_⟩
  have all : (found.filter (· ∈ first) ++ found.filter (· ∉ first)).length ≤ batchSize := by
    rw [List.length_take] at short
    omega
  rw [List.take_of_length_le all]
  exact perm.symm.subset member

/-- Every token that is deleted is one row less. -/
theorem length_deletes (distinct : hashes.Nodup)
    (present : ∀ tokenHash ∈ hashes, ∃ row ∈ d.refreshTokens.rows, row.tokenHash = tokenHash) :
    hashes.length + (d.refreshTokens.rows.filter fun row => row.tokenHash ∉ hashes).length =
      d.refreshTokens.rows.length := by
  have same : ((d.refreshTokens.rows.filter fun row => row.tokenHash ∈ hashes).map
      (·.tokenHash)).Perm hashes := by
    refine (List.perm_ext_iff_of_nodup
      (d.refreshTokens.keys_nodup.sublist (List.filter_sublist.map _)) distinct).mpr
      fun tokenHash => ?_
    simp only [List.mem_map, List.mem_filter, decide_eq_true_eq]
    constructor
    · rintro ⟨row, ⟨_, listed⟩, rfl⟩
      exact listed
    · intro member
      obtain ⟨row, there, rfl⟩ := present tokenHash member
      exact ⟨row, ⟨there, member⟩, rfl⟩
  rw [← same.length_eq, List.length_map]
  simpa using (List.length_eq_length_filter_add fun row : RefreshToken => decide
    (row.tokenHash ∈ hashes)).symm

/-- One batch alone removes no more than it may, and everything that has expired if that is less. -/
theorem run_deleteExpiredBatch (d : Store) (batchSize : Nat) (first : List String) : ∃ count d',
    postgres.run d (TxCall.deleteExpiredBatch batchSize first).code d = .ok (count, d') ∧
      Batch batchSize count d d' := by
  obtain ⟨found, expired⟩ : ∃ found,
    found = (d.refreshTokens.rows.filter fun row => row.expiresAt < d.now).map (·.tokenHash) :=
    ⟨_, rfl⟩
  have listed : ∀ tokenHash ∈ found, ∃ row ∈ d.refreshTokens.rows, row.expiresAt < d.now ∧
      row.tokenHash = tokenHash := by
    intro tokenHash member
    rw [expired] at member
    obtain ⟨row, selected, rfl⟩ := List.mem_map.mp member
    obtain ⟨there, before⟩ := List.mem_filter.mp selected
    exact ⟨row, there, by simpa using before, rfl⟩
  obtain ⟨chosen, chose⟩ : ∃ chosen,
    chosen = (found.filter (· ∈ first) ++ found.filter (· ∉ first)).take batchSize := ⟨_, rfl⟩
  obtain ⟨distinct, sub, bound, all⟩ :=
    limit_spec (expired ▸ d.refreshTokens.keys_nodup.sublist (List.filter_sublist.map _)) chose
  have ran := run_deleteEach (d := d) (v := d) distinct fun tokenHash member => by
    obtain ⟨row, there, _, rfl⟩ := listed tokenHash (sub tokenHash member)
    rw [Table.get?_of_mem there]
    rfl
  obtain ⟨now, _, rows⟩ := view_deletes d chosen
  refine ⟨_, _, ?_, Nat.le_of_eq now.symm, ?_, bound, ?_, fun row there removed => ?_,
    fun short row left before => ?_⟩
  · rw [← ran, chose, expired]
    rfl
  · rw [rows]
    apply length_deletes distinct
    intro tokenHash member
    obtain ⟨row, there, _, same⟩ := listed tokenHash (sub tokenHash member)
    exact ⟨row, there, same⟩
  · rw [rows]
    exact List.filter_sublist
  · rw [rows] at removed
    obtain ⟨other, member, before, same⟩ :=
      listed row.tokenHash (sub _ (by simpa [there] using removed))
    cases Table.eq_of_key member there same
    exact now ▸ before
  · rw [rows] at left
    rw [now] at before
    obtain ⟨there, other⟩ := List.mem_filter.mp left
    have member : row.tokenHash ∈ found := by
      rw [expired]
      exact List.mem_map_of_mem (List.mem_filter.mpr ⟨there, by simpa using before⟩)
    simp [all short row.tokenHash member] at other

end Batches

section Loop
variable {config : Config} {pid batchSize batches : Nat} {σ σ' : SharedState}

theorem Batch.last {count : Nat} {d d' : Store} (batch : Batch batchSize count d d')
    (short : count < batchSize) : Cleaned count d d' :=
  ⟨batch.later, batch.counted, batch.kept, fun row member before =>
    batch.cleared short row member (before.trans_le batch.later), batch.expired⟩

theorem Batch.then {count removed : Nat} {d d₁ d' : Store} (batch : Batch batchSize count d d₁)
    (rest : Cleaned removed d₁ d') :
    Cleaned (count + removed) d d' where
  later := batch.later.trans rest.later
  counted := by rw [Nat.add_assoc, rest.counted, batch.counted]
  kept := rest.kept.trans batch.kept
  cleared row member before := rest.cleared row member (before.trans_le batch.later)
  expired row member gone := by
    by_cases between : row ∈ d₁.refreshTokens.rows
    · exact rest.expired row between gone
    · exact (batch.expired row member between).trans_le rest.later

theorem Batch.waited {count elapsed : Nat} {d' : Store}
    (batch : Batch batchSize count (after σ elapsed).db d') :
    Batch batchSize count σ.db d' :=
  { batch with later := (Nat.le_add_right _ _).trans batch.later }

/-- One turn of the loop. -/
theorem clocked_batch {f : Nat → Svc α} {result : Except Exception α}
    (run : ((outside .draw).bind fun draw =>
      (transact (.deleteExpiredBatch batchSize draw.first)).bind f).Runs
        (Clocked config pid) σ result σ') :
    ∃ count σ₁, Batch batchSize count σ.db σ₁.db ∧
      (f count).Runs (Clocked config pid) σ₁ result σ' := by
  rcases Program.runs_bind.mp run with ⟨draw, σ₁, draws, rest⟩ | ⟨error, draws, _⟩
  · obtain ⟨elapsed, taken, _⟩ := Service.runs_outside.mp draws
    obtain ⟨ext, ⟨rfl, _⟩, rfl⟩ := taken.outside_inv
    obtain ⟨σ₀, early⟩ : ∃ σ₀, σ₀ = after σ elapsed := ⟨_, rfl⟩
    rw [← early] at rest
    have waited : ∀ {count d'}, Batch batchSize count σ₀.db d' → Batch batchSize count σ.db d' := by
      rintro count d' batch
      exact (early ▸ batch : Batch batchSize count (after σ elapsed).db d').waited
    rcases Program.runs_bind.mp rest with ⟨count, σ₂, deletes, rest⟩ | ⟨error, deletes, _⟩
    · obtain ⟨elapsed', taken'⟩ := Service.runs_transact.mp deletes
      obtain ⟨count', d', ran, batch⟩ :=
        run_deleteExpiredBatch (after σ₀ elapsed').db batchSize draw.first
      obtain ⟨same, rfl⟩ := taken'.transact ran
      cases same
      exact ⟨count, _, waited batch.waited, rest⟩
    · obtain ⟨elapsed', taken'⟩ := Service.runs_transact.mp deletes
      obtain ⟨count', d', ran, _⟩ :=
        run_deleteExpiredBatch (after σ₀ elapsed').db batchSize draw.first
      cases (taken'.transact ran).1
  · obtain ⟨elapsed, taken, _⟩ := Service.runs_outside.mp draws
    obtain ⟨_, ⟨_, _, failed⟩, _⟩ := taken.outside_inv
    cases failed

theorem deleteAll_succ :
    AuthRepository.deleteAllExpiredTokens batchSize (batches + 1) = (outside .draw).bind fun draw =>
    (transact (.deleteExpiredBatch batchSize draw.first)).bind fun result : Nat =>
      if result < batchSize then .pure result
      else (AuthRepository.deleteAllExpiredTokens batchSize batches).bind fun total =>
        .pure (result + total) := rfl

/-- The loop ends when a batch is not full, and there are only so many full ones. -/
theorem deleteAll_cleans {result : Except Exception Nat}
    (enough : σ.db.refreshTokens.rows.length < batches * batchSize)
    (run : (AuthRepository.deleteAllExpiredTokens batchSize batches).Runs
      (Clocked config pid) σ result σ') :
    ∃ removed, result = .ok removed ∧ Cleaned removed σ.db σ'.db := by
  induction batches generalizing σ σ' result with
  | zero => simp at enough
  | succ batches ih =>
    rw [deleteAll_succ] at run
    obtain ⟨count, σ₁, batch, rest⟩ := clocked_batch run
    split at rest
    · obtain ⟨rfl, rfl⟩ := Program.runs_pure.mp rest
      exact ⟨count, rfl, batch.last ‹_›⟩
    · have fewer : σ₁.db.refreshTokens.rows.length < batches * batchSize := by
        have counted := batch.counted
        rw [Nat.succ_mul] at enough
        omega
      rcases Program.runs_bind.mp rest with ⟨total, σ₂, later, rest⟩ | ⟨error, later, _⟩
      · obtain ⟨removed, same, cleaned⟩ := ih fewer later
        cases same
        obtain ⟨rfl, rfl⟩ := Program.runs_pure.mp rest
        exact ⟨_, rfl, batch.then cleaned⟩
      · obtain ⟨_, same, _⟩ := ih fewer later
        cases same

/-- It never gets stuck. -/
theorem deleteAll_runs (config : Config) (pid batchSize batches : Nat) (σ : SharedState) :
    ∃ result σ', (AuthRepository.deleteAllExpiredTokens batchSize batches).Runs
      (Clocked config pid) σ result σ' := by
  induction batches generalizing σ with
  | zero => exact ⟨_, _, .throw⟩
  | succ batches ih =>
    have draws : Clocked config pid (.outside .draw) σ (.ok ⟨"", 0, "", 0, none, []⟩) σ :=
      ⟨0, .outside trivial ⟨rfl, _, rfl⟩, by rintro ⟨⟩⟩
    obtain ⟨count, d', ran, _⟩ := run_deleteExpiredBatch σ.db batchSize []
    have deletes : Clocked config pid (.transact (.deleteExpiredBatch batchSize [])) σ (.ok count)
        (σ.commit (.deleteExpiredBatch batchSize []) d') := ⟨0, .commit trivial ran, by rintro ⟨⟩⟩
    obtain ⟨result, σ', rest⟩ : ∃ result σ', (if count < batchSize then .pure count
        else (AuthRepository.deleteAllExpiredTokens batchSize batches).bind fun total =>
          .pure (count + total)).Runs
          (Clocked config pid) (σ.commit (.deleteExpiredBatch batchSize []) d') result σ' := by
      split
      · exact ⟨_, _, .pure⟩
      · obtain ⟨result, σ', later⟩ := ih (σ.commit (.deleteExpiredBatch batchSize []) d')
        cases result with
        | ok total => exact ⟨_, σ', Program.runs_bind.mpr (.inl ⟨total, σ', later, .pure⟩)⟩
        | error error => exact ⟨_, σ', Program.runs_bind.mpr (.inr ⟨error, later, rfl⟩)⟩
    exact ⟨result, σ', .call draws (.call deletes rest)⟩

end Loop

/-- A token that was created to end before now. -/
def Outdated (σ : SharedState) (tokenHash : String) : Prop :=
  ∃ c ∈ σ.log, ∃ data, c.creates = some data ∧ data.tokenHash = tokenHash ∧
    data.expiresAt < σ.db.now

/-- What an open batch has picked and deleted is outdated. -/
def Picks (σ : SharedState) :
    Phase Write Statement Statement.Reply LockKey Exception TxCall TxCall.Out Outside
      Outside.Reply Response →
    Prop
  | .running _ => True
  | .inTx c body writes _ _ => c.sweeps → ∃ date doomed, Purges date doomed body ∧
    (∀ now, date = some now → now ≤ σ.db.now) ∧
    (∀ tokenHash ∈ doomed, Outdated σ tokenHash) ∧ ∀ w ∈ writes, ∃ tokenHash,
      w = .deleteToken tokenHash ∧ Outdated σ tokenHash

section Deleting
variable {config : Config} {w w' : State} {σ σ' : SharedState}
  {tokenHash : String} {row : RefreshToken}

theorem Outdated.later (outdated : Outdated σ tokenHash) (log : ∀ c ∈ σ.log, c ∈ σ'.log)
    (now : σ.db.now ≤ σ'.db.now) :
    Outdated σ' tokenHash := by
  obtain ⟨c, member, data, creates, same, before⟩ := outdated
  exact ⟨c, log c member, data, creates, same, before.trans_le now⟩

/-- A token has one end, that of its creation. -/
theorem Sound.outdated (sound : Sound config σ)
    (found : σ.db.refreshTokens.get? tokenHash = some row) :
    Outdated σ tokenHash ↔ row.expiresAt < σ.db.now := by
  obtain ⟨c, member, data, creates, rfl, _, expiry⟩ := sound.rows tokenHash row found
  constructor
  · rintro ⟨c', member', data', creates', same, before⟩
    obtain rfl := countP_unique (sound.once data.tokenHash) member member'
      (inserts_iff.mpr ⟨data, creates, rfl⟩) (inserts_iff.mpr ⟨data', creates', same⟩)
    cases creates.symm.trans creates'
    exact expiry ▸ before
  · exact fun before => ⟨c, member, data, creates, rfl, expiry ▸ before⟩

/-- Nor does it ever get another one. -/
theorem Reachable.same_expiry {row' : RefreshToken} (run : Reachable config w)
    (taken : (sessions config).Step anything w w')
    (found : w.shared.db.refreshTokens.get? tokenHash = some row)
    (found' : w'.shared.db.refreshTokens.get? tokenHash = some row') :
    row'.expiresAt = row.expiresAt := by
  have sound' := (Reachable.safe (run.tail taken)).inv
  obtain ⟨c, member, data, creates, same, _, expiry⟩ := run.safe.inv.rows tokenHash row found
  obtain ⟨c', member', data', creates', same', _, expiry'⟩ := sound'.rows tokenHash row' found'
  obtain rfl := countP_unique (sound'.once tokenHash)
    (System.Reaches.log (.single taken) c member) member'
    (inserts_iff.mpr ⟨data, creates, same⟩) (inserts_iff.mpr ⟨data', creates', same'⟩)
  cases creates.symm.trans creates'
  exact expiry'.symm.trans expiry

theorem Picks.next {pid : Nat} {phase phase'} (sound : Sound config σ) (picks : Picks σ phase)
    (next : (sessions config).Next pid σ phase phase') : Picks σ phase' := by
  cases next with
  | outside | commit | fail => trivial
  | begin =>
    refine fun sweeps => ⟨none, [], purges_code sweeps, ?_, ?_, ?_⟩
    · rintro now ⟨⟩
    · exact fun _ member => absurd member List.not_mem_nil
    · exact fun _ member => absurd member List.not_mem_nil
  | @read s _ _ _ _ _ _ _ plain exec =>
    intro sweeps
    obtain ⟨date, doomed, purges, dated, ended, deletes⟩ := picks sweeps
    cases s with
    | newDate =>
      cases exec
      refine ⟨_, doomed, purges σ.db.now, ?_, ended, deletes⟩
      rintro _ ⟨⟩
      exact Nat.le_refl _
    | findExpired now =>
      obtain ⟨same, purges⟩ := purges
      cases exec
      refine ⟨date, _, purges _, dated, fun tokenHash member => ?_, deletes⟩
      obtain ⟨row, expired, rfl⟩ := List.mem_map.mp member
      obtain ⟨member, before⟩ := List.mem_filter.mp expired
      have before : row.expiresAt < now := by simpa using before
      exact (sound.outdated (Table.get?_of_mem member)).mpr (before.trans_le (dated now same))
    | count | findOldest | findUnrevoked => exact purges.elim
    | _ => cases plain
  | @write s _ _ _ _ _ _ _ locked exec =>
    intro sweeps
    obtain ⟨date, doomed, purges, dated, ended, deletes⟩ := picks sweeps
    cases s with
    | deleteToken tokenHash =>
      refine ⟨date, doomed, purges.2 _, dated, ended, fun w member => ?_⟩
      rcases List.mem_append.mp member with old | new
      · exact deletes w old
      · rcases exec_deleteToken exec with rfl | rfl
        · cases new
        · exact ⟨tokenHash, List.mem_singleton.mp new, ended tokenHash purges.1⟩
    | newDate | count | findOldest | findUnrevoked | findExpired => cases locked
    | _ => exact purges.elim

theorem Advances.appends {permit : Permit} (advances : Advances config permit σ σ') :
    ∃ more, σ'.log = σ.log ++ more := by
  cases advances with
  | rest | outside | drift => exact ⟨[], (List.append_nil _).symm⟩
  | commit => exact ⟨[_], rfl⟩

theorem Advances.log {permit : Permit} (advances : Advances config permit σ σ') :
    ∀ c ∈ σ.log, c ∈ σ'.log := by
  obtain ⟨more, log⟩ := advances.appends
  exact fun c member => log ▸ List.mem_append_left _ member

theorem Reachable.picks (run : Reachable config w) :
    ∀ pid request phase, w.procs pid = some (request, phase) → Picks w.shared phase := by
  induction run with
  | refl => rintro pid request phase ⟨⟩
  | @tail w₁ w₂ earlier last ih =>
    have advances := advances_of_reaches earlier last
    have stays : ∀ {phase}, Picks w₁.shared phase → Picks w₂.shared phase := by
      intro phase picks
      cases phase with
      | running => trivial
      | inTx c body writes held next =>
        intro sweeps
        obtain ⟨date, doomed, purges, dated, ended, deletes⟩ := picks sweeps
        refine ⟨date, doomed, purges, fun now same => (dated now same).trans advances.now,
          fun tokenHash member => (ended tokenHash member).later advances.log advances.now,
            fun w member => ?_⟩
        obtain ⟨tokenHash, same, outdated⟩ := deletes w member
        exact ⟨tokenHash, same, outdated.later advances.log advances.now⟩
    intro pid request phase found
    rcases last.proc pid with same | ⟨_, _, _, started⟩ | ⟨_, old, new, was, now, next⟩
    · exact stays (ih pid request phase (same ▸ found))
    · cases started.symm.trans found
      trivial
    · cases now.symm.trans found
      exact stays ((ih _ _ _ was).next (Reachable.safe earlier).inv next)

/-- A token goes by a batch of a cleanup, and not before it has expired. -/
theorem Reachable.vanish (run : Reachable config w) (taken : (sessions config).Step anything w w')
    (found : w.shared.db.refreshTokens.get? tokenHash = some row)
    (gone : w'.shared.db.refreshTokens.get? tokenHash = none) :
    (∃ batchSize first, w'.shared.log = w.shared.log ++ [.deleteExpiredBatch batchSize first]) ∧
      row.expiresAt < w.shared.db.now := by
  have safe := run.safe
  have stays : w'.shared.db ≠ w.shared.db := by
    intro same
    rw [same] at gone
    cases found.symm.trans gone
  have deleted : ∀ {pid request} {c : TxCall} {body : Tx c.Out} {writes held next},
      w.procs pid = some (request, .inTx c body writes held next) →
        w'.shared = w.shared.commit c (postgres.view w.shared.db writes) →
      (∃ batchSize first, w'.shared.log = w.shared.log ++ [.deleteExpiredBatch batchSize first]) ∧
        row.expiresAt < w.shared.db.now := by
    intro pid request c body writes held next open_ committed
    rw [committed] at gone ⊢
    have sweeps : c.sweeps := by
      by_contra keeps
      have lasts : w.shared.db.Lasts (postgres.view w.shared.db writes) :=
        (safe.orderly.follows open_).grows postgres_lasting
          (lasting_code (Bool.eq_false_of_not_eq_true keeps))
      obtain ⟨row', found', _⟩ := lasts.find found
      cases found'.symm.trans gone
    constructor
    · cases c with
      | deleteExpiredBatch batchSize first => exact ⟨batchSize, first, rfl⟩
      | _ => cases sweeps
    · obtain ⟨_, _, _, _, _, deletes⟩ := run.picks pid request _ open_ sweeps
      obtain ⟨hashes, rfl, outdated⟩ := deletions_of deletes
      obtain ⟨_, _, rows⟩ := view_deletes w.shared.db hashes
      obtain ⟨there, rfl⟩ := Table.get?_some.mp found
      have member : row.tokenHash ∈ hashes := by
        by_contra kept
        have left : row ∈ (postgres.view w.shared.db
            (hashes.map .deleteToken)).refreshTokens.rows := by
          rw [rows]
          exact List.mem_filter.mpr ⟨there, by simpa using kept⟩
        cases gone.symm.trans (Table.get?_of_mem left)
      exact (safe.inv.outdated found).mp (outdated _ member)
  cases taken with
  | start | outside | begin | read | write | abort | drift => exact absurd rfl stays
  | commit open_ | lost open_ => exact deleted open_ rfl

end Deleting
end PaymentWallet.Sessions
