import PaymentWallet.Sessions.Executions
import PaymentWallet.Sessions.Invariants

/-! What is left to do of a request that ends all sessions of a user, and what it has done
about one of them. -/
namespace PaymentWallet.Sessions
open Foundation

/-- The user whose sessions the request ends. -/
def Request.endsAll : Request → Option UserId
  | .logoutAll userId _ | .changePassword userId .. | .closeAccount userId _ => some userId
  | .updateUserStatus _ targetId (some .closed) _ => some targetId
  | _ => none

/-- A committed transaction that ends all sessions of the user. -/
inductive Ends (userId : UserId) :
    (op : ServiceOp TxCall Outside) →
      Except Exception (op.Result TxCall.Out Outside.Reply) → Prop where
  | ok {c : TxCall} {value : c.Out} : c.revokesAll = some userId →
      Ends userId (.transact c) (.ok value)

/-- The statement revokes the token, or its scan has not found it. -/
inductive Handles (userId : UserId) (tokenHash : String) : (s : Statement) → s.Reply → Prop where
  | revokes : Handles userId tokenHash (.revokeIfActive tokenHash now) count
  | misses {found : List String} : tokenHash ∉ found →
      Handles userId tokenHash (.findUnrevoked userId) found

/-- It writes nothing but users and revoked tokens. -/
def Statement.gentle : Statement → Prop
  | .newDate | .findUnrevoked _ | .revokeIfActive .. | .updateUser .. => True
  | _ => False

def Write.gentle : Write → Prop
  | .user _ => True
  | .token row => row.revokedAt.isSome
  | _ => False

/-- The writes leave the token revoked on any store. -/
def Closes (tokenHash : String) (writes : List Write) : Prop :=
  ∃ row : RefreshToken, row.revokedAt.isSome ∧
    ∀ d, (postgres.view d writes).refreshTokens.get? tokenHash = some row

/-- What is left to do of a transaction that ends all sessions of the user. -/
structure Closing (userId : UserId) (tokenHash : String) (body : Tx α)
    (writes : List Write) : Prop where
  steps : body.All Statement.gentle
  written : ∀ w ∈ writes, w.gentle
  closes : Closes tokenHash writes ∨ body.Through (Handles userId tokenHash)

/-- What is left to do of a request that ends all sessions of the user. -/
inductive Underway (userId : UserId) (tokenHash : String) : SessionPhase → Prop where
  | running : p.Through (Ends userId) → Underway userId tokenHash (.running p)
  | inTx : (∀ reply, Ends userId (.transact c) reply ∨ (next reply).Through (Ends userId)) →
      (c.revokesAll = some userId → Closing userId tokenHash body writes) →
      Underway userId tokenHash (.inTx c body writes held next)

/-- The token was created for the user. -/
def Session (σ : SharedState) (userId : UserId) (tokenHash : String) : Prop :=
  ∃ c ∈ σ.log, ∃ data, c.creates = some data ∧ data.tokenHash = tokenHash ∧ data.userId = userId

section Writes
variable {tokenHash : String} {writes more : List Write} {userId : UserId}

theorem Closes.append (closes : Closes tokenHash more) : Closes tokenHash (writes ++ more) := by
  obtain ⟨row, revoked, last⟩ := closes
  exact ⟨row, revoked, fun d => by rw [Engine.view_append, last]⟩

theorem gentle_append (first : ∀ w ∈ writes, w.gentle) (second : ∀ w ∈ more, w.gentle) :
    ∀ w ∈ writes ++ more, w.gentle :=
  List.forall_mem_append.mpr ⟨first, second⟩

/-- Gentle writes revoke the token or leave it alone. -/
theorem gentle_closes (gentle : ∀ w ∈ writes, w.gentle) : Closes tokenHash writes ∨
    ∀ d, (postgres.view d writes).refreshTokens.get? tokenHash =
      d.refreshTokens.get? tokenHash := by
  induction writes with
  | nil => exact .inr fun _ => rfl
  | cons w writes ih =>
    obtain ⟨first, rest⟩ := List.forall_mem_cons.mp gentle
    rcases ih rest with closes | others
    · left
      rw [← List.singleton_append]
      exact closes.append
    cases w with
    | user row => exact .inr fun d => others (d.write (.user row))
    | token row =>
      by_cases here : row.tokenHash = tokenHash
      · refine .inl ⟨row, first, fun d => (others (d.write (.token row))).trans ?_⟩
        simp [Store.write, here]
      · refine .inr fun d => (others (d.write (.token row))).trans ?_
        simp [Store.write, Ne.symm here]
    | deleteToken | advance => exact first.elim

theorem Closes.kept (closes : Closes tokenHash writes) (gentle : ∀ w ∈ more, w.gentle) :
    Closes tokenHash (writes ++ more) := by
  rcases gentle_closes gentle with last | others
  · exact last.append
  · obtain ⟨row, revoked, first⟩ := closes
    exact ⟨row, revoked, fun d => by rw [Engine.view_append, others, first]⟩

theorem gentle_exec {s : Statement} {d : Store} {reply : s.Reply} (gentle : s.gentle)
    (exec : s.exec d = .ok (reply, more)) :
    ∀ w ∈ more, w.gentle := by
  cases s with
  | newDate | findUnrevoked =>
    cases exec
    exact fun _ member => absurd member List.not_mem_nil
  | revokeIfActive =>
    rcases exec_revokeIfActive exec with ⟨rfl, _⟩ | ⟨row, _, _, rfl⟩
    · exact fun _ member => absurd member List.not_mem_nil
    · rintro w member
      obtain rfl := List.mem_singleton.mp member
      rfl
  | updateUser =>
    obtain ⟨row, _, rfl⟩ := exec_updateUser.mp exec
    rintro w member
    obtain rfl := List.mem_singleton.mp member
    trivial
  | _ => exact gentle.elim

end Writes

section Steps
variable {config : Config} {σ : SharedState} {w w' : State} {pid : Nat} {userId : UserId}
  {tokenHash : String} {row : RefreshToken}

theorem Session.inserted (session : Session σ userId tokenHash) :
    0 < σ.log.countP (TxCall.inserts tokenHash) := by
  obtain ⟨c, member, data, creates, rfl, _⟩ := session
  exact Sessions.inserted member creates

/-- Its row, while there is one, is the user's. -/
theorem Session.owner (session : Session σ userId tokenHash) (sound : Sound config σ)
    (found : σ.db.refreshTokens.get? tokenHash = some row) : row.userId = userId := by
  obtain ⟨c, member, data, creates, same, rfl⟩ := session
  obtain ⟨c', member', data', creates', same', owner, _⟩ := sound.rows tokenHash row found
  obtain rfl := countP_unique (sound.once tokenHash) member member'
    (inserts_iff.mpr ⟨data, creates, same⟩) (inserts_iff.mpr ⟨data', creates', same'⟩)
  cases creates.symm.trans creates'
  exact owner.symm

/-- The scan for the user's sessions finds the token, or it is spent. -/
theorem Session.scanned (session : Session σ userId tokenHash) (sound : Sound config σ)
    {found : List String}
    (scanned : found = (σ.db.refreshTokens.rows.filter fun row =>
      row.userId = userId && row.revokedAt.isNone).map (·.tokenHash)) :
    tokenHash ∈ found ∨ Spent σ tokenHash := by
  by_cases listed : tokenHash ∈ found
  · exact .inl listed
  refine .inr ⟨session.inserted, fun row present => ?_⟩
  by_contra unrevoked
  obtain ⟨member, same⟩ := Table.get?_some.mp present
  have keyEq : row.tokenHash = tokenHash := same
  apply listed
  rw [scanned, ← keyEq]
  refine List.mem_map_of_mem (List.mem_filter.mpr ⟨member, ?_⟩)
  simpa [session.owner sound present] using unrevoked

theorem Session.later (session : Session w.shared userId tokenHash)
    (later : (sessions config).Reaches anything w w') :
    Session w'.shared userId tokenHash := by
  obtain ⟨c, member, data, creates⟩ := session
  exact ⟨c, System.Reaches.log later c member, data, creates⟩

theorem Spent.later (spent : Spent w.shared tokenHash) (run : Reachable config w)
    (later : (sessions config).Reaches anything w w') : Spent w'.shared tokenHash := by
  have moves := (Protocol.Safe.reaches (sessions_disciplined config anything)
    (fun sound _ => rotations_starts sound _) run.safe later).2
  generalize w'.shared = σ at moves
  induction moves with
  | refl => exact spent
  | tail _ move ih =>
    obtain ⟨_, ⟨pid, _, guar⟩ | ⟨ext, _, expired, rfl⟩⟩ := move
    · exact ih.move guar
    · have moved : Move config 0 _ _ := Expire.move expired 0
      exact ih.move moved

theorem Closing.read {s : Statement} {next : s.Reply → Tx α}
    {writes ignored : List Write} {reply : s.Reply}
    (closing : Closing userId tokenHash (.call s next) writes)
    (session : Session σ userId tokenHash) (sound : Sound config σ)
    (plain : s.plain = true) (exec : s.exec σ.db = .ok (reply, ignored)) :
    Spent σ tokenHash ∨ Closing userId tokenHash (next reply) writes := by
  obtain ⟨steps, written, closes | through⟩ := closing
  · exact .inr ⟨steps.2 reply, written, .inl closes⟩
  rcases through reply with handles | through
  · cases handles with
    | revokes => cases plain
    | misses missed =>
      cases exec
      exact .inl ((session.scanned sound rfl).resolve_left missed)
  · exact .inr ⟨steps.2 reply, written, .inr through⟩

theorem Closing.write {s : Statement} {next : s.Reply → Tx α}
    {writes more : List Write} {reply : s.Reply}
    (closing : Closing userId tokenHash (.call s next) writes)
    (session : Session σ userId tokenHash)
    (locked : s.plain = false) (exec : s.exec (postgres.view σ.db writes) = .ok (reply, more)) :
    Spent σ tokenHash ∨ Closing userId tokenHash (next reply) (writes ++ more) := by
  obtain ⟨steps, written, closes | through⟩ := closing
  · exact .inr ⟨steps.2 reply, gentle_append written (gentle_exec steps.1 exec),
      .inl (closes.kept (gentle_exec steps.1 exec))⟩
  rcases through reply with handles | through
  swap
  · exact .inr ⟨steps.2 reply, gentle_append written (gentle_exec steps.1 exec), .inr through⟩
  cases handles with
  | misses => cases locked
  | @revokes now count =>
    rcases exec_revokeIfActive exec with ⟨rfl, revoked⟩ | ⟨row, found, _, rfl⟩
    · rw [List.append_nil]
      rcases gentle_closes written with closes | same
      · exact .inr ⟨steps.2 count, written, .inl closes⟩
      · exact .inl ⟨session.inserted, fun row found => revoked row ((same σ.db).trans found)⟩
    · have keyEq : row.tokenHash = tokenHash := Table.get?_key found
      refine .inr ⟨steps.2 count, gentle_append written (gentle_exec steps.1 exec),
        .inl (Closes.append ?_)⟩
      refine ⟨row.revoke now, rfl, fun d => ?_⟩
      simp [postgres, Store.write, RefreshToken.revoke, keyEq]

theorem Closing.commit {value : α} {writes : List Write} {c : TxCall}
    (closing : Closing userId tokenHash (.pure value) writes)
    (session : Session σ userId tokenHash) :
    Spent (σ.commit c (postgres.view σ.db writes)) tokenHash := by
  obtain ⟨row, revoked, last⟩ := closing.closes.resolve_right id
  refine ⟨?_, fun other found => ?_⟩
  · have before := session.inserted
    simp only [Shared.commit, countP_commit]
    omega
  · cases (last σ.db).symm.trans found
    exact revoked

/-- What is left of a request, as its process goes on. -/
theorem Underway.acts {phase phase' : SessionPhase} {σ' : SharedState}
    (underway : Underway userId tokenHash phase)
    (session : Session σ userId tokenHash) (sound : Sound config σ)
    (acts : (sessions config).Acts pid σ phase σ' phase')
    (code : ∀ c : TxCall, c.revokesAll = some userId → Closing userId tokenHash c.code []) :
    Spent σ tokenHash ∨ Spent σ' tokenHash ∨ Underway userId tokenHash phase' := by
  -- a transaction that ends no sessions has nothing to close
  have closing : ∀ {c : TxCall} {closed : Prop},
      (c.revokesAll = some userId → Spent σ tokenHash ∨ closed) →
      Spent σ tokenHash ∨ (c.revokesAll = some userId → closed) := by
    intro c closed either
    by_cases revokes : c.revokesAll = some userId
    · exact (either revokes).imp_right fun rest _ => rest
    · exact .inr fun other => absurd other revokes
  cases acts with
  | outside =>
    rcases underway with ⟨through⟩ | _
    exact .inr (.inr (.running ((through _).resolve_left (by rintro ⟨⟩))))
  | begin =>
    rcases underway with ⟨through⟩ | _
    exact .inr (.inr (.inTx through (code _)))
  | read plain exec =>
    rcases underway with _ | ⟨results, rest⟩
    exact (closing fun revokes => (rest revokes).read session sound plain exec).imp_right
      fun rest => .inr (.inTx results rest)
  | write locked exec =>
    rcases underway with _ | ⟨results, rest⟩
    exact (closing fun revokes => (rest revokes).write session locked exec).imp_right fun rest =>
      .inr (.inTx results rest)
  | commit =>
    rcases underway with _ | ⟨results, rest⟩
    rcases results (.ok _) with revoked | through
    · cases revoked with
      | ok revokes => exact .inr (.inl ((rest revokes).commit session))
    · exact .inr (.inr (.running through))
  | lost | abort =>
    rcases underway with _ | ⟨results, _⟩
    exact .inr (.inr (.running ((results (.error _)).resolve_left (by rintro ⟨⟩))))

end Steps

section Programs
variable {config : Config} {userId : UserId} {tokenHash : String}

/-- Each token that the scan has found is looked at again. -/
theorem through_revokeEach (now : DateTime) {found : List String} (listed : tokenHash ∈ found) :
    (revokeEach now found).Through (Handles userId tokenHash) := by
  induction found with
  | nil => cases listed
  | cons first rest ih =>
    intro count
    rcases List.mem_cons.mp listed with rfl | later
    · exact .inl .revokes
    · exact .inr ((ih later).bind _)

theorem all_revokeEach {good : Statement → Prop} {now : DateTime}
    (revokes : ∀ tokenHash, good (.revokeIfActive tokenHash now))
    (found : List String) : (revokeEach now found).All good := by
  induction found with
  | nil => trivial
  | cons first rest ih => exact ⟨revokes first, fun _ => ih.bind fun _ => trivial⟩

/-- The scan, and what follows it. -/
theorem through_scan (userId : UserId) (tokenHash : String) (now : DateTime) (next : Nat → Tx α) :
    ((query (.findUnrevoked userId)).bind fun found => (revokeEach now found).bind next).Through
      (Handles userId tokenHash) := by
  intro found
  by_cases listed : tokenHash ∈ (found : List String)
  · exact .inr ((through_revokeEach now listed).bind next)
  · exact .inl (.misses listed)

theorem gentle_scan (now : DateTime) (value : α) :
    ((query (.findUnrevoked userId)).bind fun found =>
      (revokeEach now found).bind fun _ => .pure value).All Statement.gentle :=
  ⟨trivial, fun found => (all_revokeEach (fun _ => trivial) found).bind fun _ => trivial⟩

theorem closing_code {c : TxCall} (revokes : c.revokesAll = some userId) :
    Closing userId tokenHash c.code [] := by
  have closing : ∀ {body : Tx c.Out}, body.All Statement.gentle →
      body.Through (Handles userId tokenHash) →
      Closing userId tokenHash body [] :=
    fun steps through => ⟨steps, fun _ member => absurd member List.not_mem_nil, .inr through⟩
  cases c with
  | revokeAllUserTokens id =>
    cases revokes
    refine closing ⟨trivial, fun now =>
      ⟨trivial, fun found => all_revokeEach (fun _ => trivial) found⟩⟩ fun now => .inr ?_
    have scan := through_scan userId tokenHash now Program.pure
    simp only [Program.bind_pure] at scan
    exact scan
  | updatePasswordAndRevokeSessions id hashedPassword =>
    cases revokes
    refine closing ⟨trivial, fun now => ⟨trivial, fun _ => gentle_scan now ()⟩⟩ fun now =>
      .inr fun _ => .inr ?_
    exact through_scan userId tokenHash now _
  | closeAccount id wallet =>
    cases revokes
    have closes : ∀ body : Tx Unit,
        body = ((query (.updateUser userId { status := some .closed })).bind fun _ =>
        (query .newDate).bind fun now => (query (.findUnrevoked userId)).bind fun found =>
          (revokeEach now found).bind fun _ => .pure ()) → Closing userId tokenHash body [] := by
      rintro body rfl
      exact closing ⟨trivial, fun _ => ⟨trivial, fun now => gentle_scan now ()⟩⟩ fun _ =>
        .inr fun now => .inr (through_scan userId tokenHash now _)
    cases wallet with
    | none => exact closes _ rfl
    | some wallet =>
      simp only [TxCall.code, UsersRepository.closeAccount]
      split
      · exact closing trivial trivial
      · exact closes _ rfl
  | _ => cases revokes

theorem through_transact {c : TxCall} (revokes : c.revokesAll = some userId) :
    (transact c).Through (Ends userId)
  | .ok _ => .inl (.ok revokes)
  | .error _ => .inr trivial

theorem through_closeUser : (UsersService.closeUser userId).Through (Ends userId) := by
  refine .after (fun draw => ?_) (outside .draw)
  exact through_transact rfl

/-- The requests that end all sessions return only after a transaction that has. -/
theorem through_handler {request : Request} (ends : request.endsAll = some userId) :
    (request.handler config).Through (Ends userId) := by
  cases request with
  | logoutAll id jti =>
    cases ends
    exact (((through_transact rfl).bind _).bind _).bind _
  | changePassword id jti currentPassword newPassword =>
    cases ends
    refine Program.Through.bind (.after (fun user => ?_) _) _
    cases user with
    | none => trivial
    | some user =>
      refine .after (fun valid => ?_) _
      cases valid with
      | false => trivial
      | true =>
        refine .after (fun same => ?_) _
        cases same with
        | true => trivial
        | false => exact .after (fun draw => (through_transact rfl).bind _) _
  | closeAccount id jti =>
    cases ends
    refine Program.Through.bind (.after (fun user => ?_) _) _
    cases user with
    | none => trivial
    | some user => exact through_closeUser.bind _
  | updateUserStatus requesterId targetId status role =>
    obtain rfl : status = some .closed := by
      cases status with
      | none => cases ends
      | some status => cases status <;> first | rfl | cases ends
    cases ends
    refine Program.Through.bind ?_ _
    unfold UsersService.updateUserStatus
    split
    · trivial
    split
    · trivial
    refine .after (fun user => ?_) _
    cases user with
    | none => trivial
    | some user => exact through_closeUser.bind _
  | _ => cases ends

end Programs

end PaymentWallet.Sessions
