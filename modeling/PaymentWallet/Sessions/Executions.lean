import PaymentWallet.Sessions.Transactions

/-! What the revocations do to the store when they run alone: a token is revoked at the
time of the transaction, unless it has been revoked before. -/
namespace PaymentWallet
open Foundation

/-- A revocation leaves alone what is revoked already. -/
def RefreshToken.ended (now : DateTime) (row : RefreshToken) : RefreshToken :=
  if row.revokedAt.isNone then row.revoke now else row

theorem RefreshToken.ended_revoked {row : RefreshToken} (now : DateTime)
    (revoked : row.revokedAt.isSome) :
    row.ended now = row := by
  cases time : row.revokedAt with
  | none => simp [time] at revoked
  | some time' => simp [RefreshToken.ended, time]

@[simp] theorem RefreshToken.ended_tokenHash (now : DateTime) (row : RefreshToken) :
    (row.ended now).tokenHash = row.tokenHash := by
  unfold RefreshToken.ended
  split <;> rfl

@[simp] theorem RefreshToken.ended_expiresAt (now : DateTime) (row : RefreshToken) :
    (row.ended now).expiresAt = row.expiresAt := by
  unfold RefreshToken.ended
  split <;> rfl

theorem RefreshToken.ended_isSome (now : DateTime) (row : RefreshToken) :
    (row.ended now).revokedAt.isSome := by
  cases time : row.revokedAt with
  | none => simp [RefreshToken.ended, RefreshToken.revoke, time]
  | some time' => simp [RefreshToken.ended, time]

namespace Sessions

def Store.revokeIfActive (d : Store) (tokenHash : String) (now : DateTime) : Store :=
  match d.refreshTokens.get? tokenHash with
  | none => d
  | some row => if row.revokedAt.isNone then d.write (.token (row.revoke now)) else d

section Runs
variable (d v : Store) (now : DateTime) (tokenHash : String) (userId : UserId)

theorem run_revokeIfActive : ∃ count,
    postgres.run d (query (.revokeIfActive tokenHash now)) v = .ok (count,
      v.revokeIfActive tokenHash now) := by
  rw [query, Engine.run_perform rfl]
  simp only [postgres, Statement.exec, Store.revokeIfActive]
  cases v.refreshTokens.get? tokenHash with
  | none => exact ⟨0, rfl⟩
  | some row =>
    dsimp only
    split
    · exact ⟨1, rfl⟩
    · exact ⟨0, rfl⟩

theorem run_revokeEach (hashes : List String) : ∃ count,
    postgres.run d (revokeEach now hashes) v = .ok (count,
      hashes.foldl (·.revokeIfActive · now) v) := by
  induction hashes generalizing v with
  | nil => exact ⟨0, rfl⟩
  | cons tokenHash rest ih =>
    obtain ⟨count, first⟩ := run_revokeIfActive d v now tokenHash
    obtain ⟨more, others⟩ := ih (v.revokeIfActive tokenHash now)
    refine ⟨count + more, ?_⟩
    simp only [revokeEach, Program.bind_def, Engine.run_bind, first, Except.bind, others]
    rfl

theorem run_revokeRefreshToken : ∃ count,
    postgres.run d (TxCall.revokeRefreshToken tokenHash).code d = .ok (count,
      d.revokeIfActive tokenHash d.now) :=
  run_revokeIfActive d d d.now tokenHash

theorem run_revokeAllUserTokens : ∃ (count : Nat) (hashes : List String),
    postgres.run d (TxCall.revokeAllUserTokens userId).code d = .ok (count,
      hashes.foldl (·.revokeIfActive · d.now) d) := by
  obtain ⟨count, ran⟩ := run_revokeEach d d d.now
    ((d.refreshTokens.rows.filter fun row =>
      row.userId = userId && row.revokedAt.isNone).map (·.tokenHash))
  exact ⟨count, _, ran⟩

theorem get?_revokeIfActive (other : String) :
    (d.revokeIfActive tokenHash now).refreshTokens.get? other =
    (d.refreshTokens.get? other).map fun row => if other = tokenHash then row.ended now
      else row := by
  unfold Store.revokeIfActive
  cases found : d.refreshTokens.get? tokenHash with
  | none =>
    by_cases here : other = tokenHash
    · simp [here, found]
    · simp [here]
  | some row =>
    have keyEq : (row.revoke now).tokenHash = tokenHash :=
      (Table.get?_key found : row.tokenHash = tokenHash)
    cases time : row.revokedAt with
    | none =>
      by_cases here : other = tokenHash
      · simp [here, found, time, Store.write, keyEq, RefreshToken.ended]
      · simp [here, time, Store.write, keyEq]
    | some revokedAt =>
      by_cases here : other = tokenHash
      · simp [here, found, time, RefreshToken.ended]
      · simp [here, time]

@[simp] theorem revokeIfActive_now : (d.revokeIfActive tokenHash now).now = d.now := by
  unfold Store.revokeIfActive
  split
  · rfl
  · split <;> rfl

@[simp] theorem revokeEach_now (hashes : List String) :
    (hashes.foldl (·.revokeIfActive · now) d).now = d.now := by
  induction hashes generalizing d with
  | nil => rfl
  | cons first rest ih => exact (ih _).trans (revokeIfActive_now d now first)

variable {d now tokenHash}

/-- What was revoked before stays as it was. -/
theorem get?_revokeEach {hashes : List String} {row : RefreshToken}
    (found : d.refreshTokens.get? tokenHash = some row) (revoked : row.revokedAt.isSome) :
    (hashes.foldl (·.revokeIfActive · now) d).refreshTokens.get? tokenHash = some row := by
  induction hashes generalizing d with
  | nil => exact found
  | cons first rest ih =>
    apply ih
    rw [get?_revokeIfActive, found, Option.map_some,
      RefreshToken.ended_revoked now revoked, ite_self]

/-- A revocation changes one row in place. -/
theorem rows_revokeIfActive : (d.revokeIfActive tokenHash now).refreshTokens.rows =
    d.refreshTokens.rows.map fun row => if row.tokenHash = tokenHash then row.ended now
      else row := by
  have same : ∀ (f : RefreshToken → RefreshToken), (∀ row ∈ d.refreshTokens.rows, f row = row) →
      d.refreshTokens.rows = d.refreshTokens.rows.map f :=
        fun f fixed => ((List.map_congr_left fixed).trans (List.map_id _)).symm
  unfold Store.revokeIfActive
  cases found : d.refreshTokens.get? tokenHash with
  | none => exact same _ fun row member => if_neg (Table.get?_none.mp found row member)
  | some row =>
    obtain ⟨member, rfl⟩ := Table.get?_some.mp found
    have only : ∀ other ∈ d.refreshTokens.rows, other.tokenHash = row.tokenHash → other = row :=
      fun other there same => Table.eq_of_key there member same
    cases time : row.revokedAt with
    | none =>
      simp only [time, Option.isNone_none, if_true, Store.write]
      have there : d.refreshTokens.get? (row.revoke now).tokenHash = some row := found
      rw [Table.rows_put_old there]
      apply List.map_congr_left
      intro other member
      by_cases here : other.tokenHash = row.tokenHash
      · obtain rfl := only other member here
        simp [RefreshToken.ended, RefreshToken.revoke, time]
      · rw [if_neg here]
        exact if_neg here
    | some revokedAt =>
      simp only [time, Option.isNone_some, Bool.false_eq_true, if_false]
      refine same _ fun other there => ?_
      split
      · obtain rfl := only other there ‹_›
        exact RefreshToken.ended_revoked now (by simp [time])
      · rfl

@[simp] theorem revokeIfActive_users : (d.revokeIfActive tokenHash now).users = d.users := by
  unfold Store.revokeIfActive
  split
  · rfl
  · split <;> rfl

@[simp] theorem revokeEach_users (hashes : List String) :
    (hashes.foldl (·.revokeIfActive · now) d).users = d.users := by
  induction hashes generalizing d with
  | nil => rfl
  | cons first rest ih => exact ih.trans revokeIfActive_users

theorem rows_revokeEach (hashes : List String) :
    (hashes.foldl (·.revokeIfActive · now) d).refreshTokens.rows =
    d.refreshTokens.rows.map fun row => if row.tokenHash ∈ hashes then row.ended now else row := by
  induction hashes generalizing d with
  | nil => simp
  | cons first rest ih =>
    rw [List.foldl_cons, ih, rows_revokeIfActive, List.map_map]
    apply List.map_congr_left
    intro row _
    by_cases here : row.tokenHash = first
    · simp only [Function.comp_apply, RefreshToken.ended_tokenHash, List.mem_cons,
        here, true_or, if_true]
      rw [RefreshToken.ended_revoked now (row.ended_isSome now), ite_self]
    · simp [here]

end Runs

/-- The writes of the revocations of these tokens, each of which is looked at once. -/
def revocations (now : DateTime) (d : Store) (hashes : List String) : List Write :=
  hashes.filterMap fun tokenHash =>
    ((d.refreshTokens.get? tokenHash).filter (·.revokedAt.isNone)).map fun row =>
      .token (row.revoke now)

section Revocations
variable {d v : Store} {now : DateTime} {hashes : List String} {tokenHash : String}

theorem revocations_congr
    (same : ∀ tokenHash ∈ hashes, v.refreshTokens.get? tokenHash = d.refreshTokens.get? tokenHash) :
    revocations now v hashes = revocations now d hashes :=
  List.filterMap_congr fun tokenHash member => by rw [same tokenHash member]

theorem revocations_single :
    v.revokeIfActive tokenHash now = postgres.view v (revocations now v [tokenHash]) := by
  unfold Store.revokeIfActive revocations
  cases found : v.refreshTokens.get? tokenHash with
  | none => simp [found]
  | some row => cases time : row.revokedAt <;> simp [found, time, postgres]

theorem exec_revocations {count : Nat} {ws : List Write}
    (exec : (Statement.revokeIfActive tokenHash now).exec v = .ok (count, ws)) :
    ws = revocations now v [tokenHash] := by
  simp only [Statement.exec] at exec
  cases found : v.refreshTokens.get? tokenHash with
  | none =>
    simp only [found, Except.ok.injEq, Prod.mk.injEq] at exec
    simp [revocations, found, exec.2]
  | some row => cases time : row.revokedAt <;> simp_all [revocations]

/-- Other tokens stay as they are. -/
theorem get?_revocations (other : tokenHash ∉ hashes) :
    (postgres.view v (revocations now d hashes)).refreshTokens.get? tokenHash =
      v.refreshTokens.get? tokenHash := by
  induction hashes generalizing v with
  | nil => rfl
  | cons first rest ih =>
    simp only [List.mem_cons, not_or] at other
    rw [show revocations now d (first :: rest) = revocations now d [first] ++
      revocations now d rest from
      List.filterMap_append (l := [first]), Engine.view_append, ih other.2]
    unfold revocations
    cases found : d.refreshTokens.get? first with
    | none => simp [found]
    | some row =>
      have keyEq : (row.revoke now).tokenHash = first :=
        (Table.get?_key found : row.tokenHash = first)
      cases time : row.revokedAt <;> simp [found, time, postgres, Store.write, keyEq, other.1]

/-- Where no token comes twice, the writes on the first store make up the whole run. -/
theorem view_revocations (distinct : hashes.Nodup) :
    postgres.view v (revocations now v hashes) = hashes.foldl (·.revokeIfActive · now) v := by
  induction hashes generalizing v with
  | nil => rfl
  | cons first rest ih =>
    rw [List.nodup_cons] at distinct
    rw [show revocations now v (first :: rest) = revocations now v [first] ++
      revocations now v rest from
      List.filterMap_append (l := [first]), Engine.view_append, ← revocations_single,
        List.foldl_cons, ← ih distinct.2]
    congr 1
    refine (revocations_congr fun tokenHash member => ?_).symm
    rw [revocations_single]
    refine get?_revocations ?_
    intro single
    exact distinct.1 (List.mem_singleton.mp single ▸ member)

end Revocations

section Deletions
variable {d v : Store} {hashes : List String}

theorem view_deletes (d : Store) (hashes : List String) :
    (postgres.view d (hashes.map .deleteToken)).now = d.now ∧
    (postgres.view d (hashes.map .deleteToken)).users = d.users ∧
    (postgres.view d (hashes.map .deleteToken)).refreshTokens.rows =
      d.refreshTokens.rows.filter fun row => row.tokenHash ∉ hashes := by
  induction hashes generalizing d with
  | nil => simp
  | cons tokenHash hashes ih =>
    obtain ⟨now, users, rows⟩ := ih (d.write (.deleteToken tokenHash))
    refine ⟨now, users, rows.trans ?_⟩
    simp only [Store.write, Table.remove, List.filter_filter]
    refine List.filter_congr fun row _ => ?_
    by_cases here : row.tokenHash = tokenHash <;> simp [here]

theorem deletions_of {P : String → Prop} {writes : List Write}
    (deletes : ∀ w ∈ writes, ∃ tokenHash, w = .deleteToken tokenHash ∧ P tokenHash) :
    ∃ hashes : List String, writes = hashes.map Write.deleteToken ∧
      ∀ tokenHash ∈ hashes, P tokenHash := by
  induction writes with
  | nil => exact ⟨[], rfl, fun _ member => absurd member List.not_mem_nil⟩
  | cons w writes ih =>
    obtain ⟨⟨tokenHash, rfl, holds⟩, later⟩ := List.forall_mem_cons.mp deletes
    obtain ⟨hashes, rfl, others⟩ := ih later
    exact ⟨tokenHash :: hashes, rfl, List.forall_mem_cons.mpr ⟨holds, others⟩⟩

end Deletions
end Sessions
end PaymentWallet
