import PaymentWallet.Sessions.Requests
import PaymentWallet.Foundation.RelyGuarantee

/-! The protocol behind refresh-token rotation. Whoever generates a token may insert
it once; a token is exchanged at most once, by its conditional revocation; and the
replay cache holds nothing but what an exchange issued. -/
namespace PaymentWallet.Sessions
open Foundation

def TxCall.inserts (tokenHash : String) (c : TxCall) : Bool :=
  c.creates.any fun data => data.tokenHash = tokenHash

def TxCall.exchanges (tokenHash : String) (c : TxCall) : Bool := c.rotates = some tokenHash

/-- A generated pair whose refresh token has this hash. -/
def Ext.Issued (config : Config) (ext : Ext) (pair : TokenPair) (tokenHash : String) : Prop :=
  (∃ issue ∈ ext.issued, issue.pair = pair) ∧ config.hashToken pair.refreshToken = tokenHash

/-- The pair was issued by exchanging the token. -/
def Exchanged (config : Config) (σ : SharedState) (tokenHash : String) (pair : TokenPair) : Prop :=
  ∃ data, .rotateRefreshToken tokenHash data ∈ σ.log ∧ σ.ext.Issued config pair data.tokenHash

/-- The token was inserted, and is revoked for as long as it is kept. -/
def Spent (σ : SharedState) (tokenHash : String) : Prop :=
  0 < σ.log.countP (TxCall.inserts tokenHash) ∧
    ∀ row, σ.db.refreshTokens.get? tokenHash = some row → row.revokedAt.isSome

/-- The process has generated the pair and not inserted its refresh token. -/
def Ticket (config : Config) (pid : Nat) (σ : SharedState) (pair : TokenPair) : Prop :=
  ⟨pid, pair⟩ ∈ σ.ext.issued ∧
    σ.log.countP (TxCall.inserts (config.hashToken pair.refreshToken)) = 0

/-- The session that a transaction creates is one its process has a ticket for. -/
def Entitled (config : Config) (pid : Nat) (σ : SharedState) (c : TxCall) : Prop :=
  ∀ data, c.creates = some data →
    ∃ pair, Ticket config pid σ pair ∧ config.hashToken pair.refreshToken = data.tokenHash

/-- What holds between any two steps. -/
structure Sound (config : Config) (σ : SharedState) : Prop where
  distinct : (σ.ext.issued.map fun issue => config.hashToken issue.pair.refreshToken).Nodup
  minted : ∀ c ∈ σ.log, ∀ data, c.creates = some data →
    ∃ issue ∈ σ.ext.issued, config.hashToken issue.pair.refreshToken = data.tokenHash
  once : ∀ tokenHash, σ.log.countP (TxCall.inserts tokenHash) ≤ 1
  rows : ∀ tokenHash row, σ.db.refreshTokens.get? tokenHash = some row → ∃ c ∈ σ.log, ∃ data,
    c.creates = some data ∧ data.tokenHash = tokenHash ∧ data.userId = row.userId ∧
      data.expiresAt = row.expiresAt
  spent : ∀ c ∈ σ.log, ∀ tokenHash, c.rotates = some tokenHash → Spent σ tokenHash
  single : ∀ tokenHash, σ.log.countP (TxCall.exchanges tokenHash) ≤ 1
  cached : ∀ tokenHash entry, σ.ext.cache tokenHash = some entry → ∃ pair,
    config.decrypt entry.encrypted = some pair ∧ Exchanged config σ tokenHash pair

/-- One move of the shared state by a process. -/
inductive Move (config : Config) (pid : Nat) (σ : SharedState) : SharedState → Prop where
  | commit : c.Effect σ.db d' → Entitled config pid σ c → Move config pid σ (σ.commit c d')
  | generate : Fresh config σ.ext pair →
      Move config pid σ { σ with ext := (σ.ext.issue pid pair).sign pair.accessToken token }
  | cache : ext.issued = σ.ext.issued → (∀ tokenHash entry, ext.cache tokenHash = some entry →
      σ.ext.cache tokenHash = some entry ∨
        ∃ pair, config.decrypt entry.encrypted = some pair ∧ Exchanged config σ tokenHash pair) →
      Move config pid σ { σ with ext := ext }

section Counting
variable {log : List TxCall} {c : TxCall} {tokenHash : String}

theorem inserts_iff : c.inserts tokenHash ↔ ∃ data, c.creates = some data ∧
    data.tokenHash = tokenHash := by
  simp [TxCall.inserts, Option.any_eq_true]

theorem countP_commit (p : TxCall → Bool) :
    (log ++ [c]).countP p = log.countP p + if p c then 1 else 0 := by
  simp [List.countP_singleton]

theorem inserted {data : NewToken} (member : c ∈ log) (creates : c.creates = some data) :
    0 < log.countP (TxCall.inserts data.tokenHash) :=
  List.countP_pos_iff.mpr ⟨c, member, inserts_iff.mpr ⟨data, creates, rfl⟩⟩

/-- At most one entry counts, so any two are the same. -/
theorem countP_unique {α : Type} {p : α → Bool} {entries : List α}
    (once : entries.countP p ≤ 1) {a b : α}
    (left : a ∈ entries) (right : b ∈ entries) (ha : p a) (hb : p b) : a = b := by
  rw [List.countP_eq_length_filter] at once
  have inA : a ∈ entries.filter p := List.mem_filter.mpr ⟨left, ha⟩
  have inB : b ∈ entries.filter p := List.mem_filter.mpr ⟨right, hb⟩
  cases chosen : entries.filter p with
  | nil => simp [chosen] at inA
  | cons first rest =>
    cases rest with
    | nil =>
      rw [chosen, List.mem_singleton] at inA inB
      exact inA.trans inB.symm
    | cons second rest => simp [chosen] at once

end Counting

section Moves
variable {config : Config} {σ σ' : SharedState} {pid other : Nat}
  {tokenHash : String} {pair : TokenPair}

theorem Fades.revoked_stays {row row' : RefreshToken} {old : Option RefreshToken}
    (fades : Fades old (some row'))
    (found : old = some row) (revoked : row.revokedAt.isSome) : row'.revokedAt.isSome := by
  cases fades with
  | same =>
    cases found
    exact revoked
  | revoked => rfl

/-- A revoked token stays revoked, or goes. -/
theorem Spent.move (spent : Spent σ tokenHash) (move : Move config pid σ σ') :
    Spent σ' tokenHash := by
  cases move with
  | generate | cache => exact spent
  | @commit c d' effect entitled =>
    have other : ∀ data, c.creates = some data → data.tokenHash ≠ tokenHash := by
      rintro data creates rfl
      obtain ⟨pair, ⟨_, unused⟩, hash⟩ := entitled data creates
      have used := spent.1
      rw [hash] at unused
      omega
    refine ⟨?_, fun row found => ?_⟩
    · have more := spent.1
      simp only [Shared.commit, countP_commit]
      omega
    · have fades := effect.fades tokenHash other
      rw [show d'.refreshTokens.get? tokenHash = some row from found] at fades
      cases before : σ.db.refreshTokens.get? tokenHash with
      | none =>
        rw [before] at fades
        cases fades
      | some old => exact fades.revoked_stays before (spent.2 old before)

theorem Ext.Issued.mono {ext ext' : Ext} (issued : ext.Issued config pair tokenHash)
    (sub : ∀ issue ∈ ext.issued, issue ∈ ext'.issued) : ext'.Issued config pair tokenHash := by
  obtain ⟨⟨issue, member, same⟩, hash⟩ := issued
  exact ⟨⟨issue, sub issue member, same⟩, hash⟩

theorem Move.issued (move : Move config pid σ σ') :
    ∀ issue ∈ σ.ext.issued, issue ∈ σ'.ext.issued := by
  cases move with
  | commit => exact fun _ => id
  | generate => exact fun issue member => List.mem_append_left _ member
  | cache same => exact fun issue member => same ▸ member

theorem Move.log (move : Move config pid σ σ') : ∀ c ∈ σ.log, c ∈ σ'.log := by
  cases move with
  | commit => exact fun c member => List.mem_append_left _ member
  | generate | cache => exact fun _ => id

theorem Exchanged.move (exchanged : Exchanged config σ tokenHash pair)
    (move : Move config pid σ σ') :
    Exchanged config σ' tokenHash pair := by
  obtain ⟨data, member, issued⟩ := exchanged
  exact ⟨data, move.log _ member, issued.mono move.issued⟩

/-- Nobody else inserts the token. -/
theorem Ticket.move (ticket : Ticket config pid σ pair) (sound : Sound config σ)
    (different : other ≠ pid) (move : Move config other σ σ') : Ticket config pid σ' pair := by
  obtain ⟨member, unused⟩ := ticket
  refine ⟨move.issued _ member, ?_⟩
  cases move with
  | generate | cache => exact unused
  | @commit c d' effect entitled =>
    simp only [Shared.commit, countP_commit, unused, Nat.zero_add, ite_eq_right_iff,
      Nat.one_ne_zero, imp_false]
    intro inserts
    obtain ⟨data, creates, hash⟩ := inserts_iff.mp inserts
    obtain ⟨pair', ⟨member', _⟩, hash'⟩ := entitled data creates
    have same := List.inj_on_of_nodup_map sound.distinct member member' (hash.symm.trans hash'.symm)
    exact different (congrArg Issue.owner same).symm

theorem Sound.commit {c : TxCall} {d' : Store} (sound : Sound config σ) (effect : c.Effect σ.db d')
    (entitled : Entitled config pid σ c) : Sound config (σ.commit c d') := by
  have move : Move config pid σ (σ.commit c d') := .commit effect entitled
  constructor
  · exact sound.distinct
  · intro other member data creates
    rcases List.mem_append.mp member with old | new
    · exact sound.minted other old data creates
    · obtain rfl := List.mem_singleton.mp new
      obtain ⟨pair, ⟨issued, _⟩, hash⟩ := entitled data creates
      exact ⟨⟨pid, pair⟩, issued, hash⟩
  · intro tokenHash
    simp only [Shared.commit, countP_commit]
    split
    · obtain ⟨data, creates, rfl⟩ := inserts_iff.mp ‹_›
      obtain ⟨pair, ⟨_, unused⟩, hash⟩ := entitled data creates
      simp [← hash, unused]
    · exact sound.once tokenHash
  · intro tokenHash row found
    by_cases inserts : c.inserts tokenHash
    · obtain ⟨data, creates, rfl⟩ := inserts_iff.mp inserts
      cases (effect.created data creates).2.symm.trans found
      exact ⟨c, List.mem_append_right _ (List.mem_singleton_self c), data, creates, rfl, rfl, rfl⟩
    · have fades := effect.fades tokenHash fun data creates same =>
        inserts (inserts_iff.mpr ⟨data, creates, same⟩)
      rw [show d'.refreshTokens.get? tokenHash = some row from found] at fades
      have before : ∃ old, σ.db.refreshTokens.get? tokenHash = some old ∧ old.userId = row.userId ∧
          old.expiresAt = row.expiresAt := by
        generalize σ.db.refreshTokens.get? tokenHash = earlier at fades
        cases fades with
        | same => exact ⟨row, rfl, rfl, rfl⟩
        | revoked => exact ⟨_, rfl, rfl, rfl⟩
      obtain ⟨old, present, user, expiry⟩ := before
      obtain ⟨c', member, data, creates, hash, user', expiry'⟩ := sound.rows tokenHash old present
      exact ⟨c', List.mem_append_left _ member, data, creates, hash, user'.trans user,
        expiry'.trans expiry⟩
  · intro other member tokenHash rotates
    rcases List.mem_append.mp member with old | new
    · exact (sound.spent other old tokenHash rotates).move move
    · obtain rfl := List.mem_singleton.mp new
      obtain ⟨row, now, found, unrevoked, after⟩ := effect.rotated tokenHash rotates
      obtain ⟨c', member', data, creates, rfl, _⟩ := sound.rows tokenHash row found
      refine ⟨?_, fun row' found' => ?_⟩
      · have before := inserted member' creates
        simp only [Shared.commit, countP_commit]
        omega
      · cases after.symm.trans found'
        rfl
  · intro tokenHash
    simp only [Shared.commit, countP_commit]
    split
    · rename_i rotates
      obtain ⟨row, now, found, unrevoked, _⟩ :=
        effect.rotated tokenHash (by simpa [TxCall.exchanges] using rotates)
      have none : σ.log.countP (TxCall.exchanges tokenHash) = 0 := by
        rw [List.countP_eq_zero]
        intro c' member exchanges
        have revoked := (sound.spent c' member tokenHash
          (by simpa [TxCall.exchanges] using exchanges)).2 row found
        simp [unrevoked] at revoked
      simp [none]
    · exact sound.single tokenHash
  · intro tokenHash entry cached
    obtain ⟨pair, opened, exchanged⟩ := sound.cached tokenHash entry cached
    exact ⟨pair, opened, exchanged.move move⟩

theorem Sound.move (sound : Sound config σ) (move : Move config pid σ σ') : Sound config σ' := by
  have kept : ∀ {tokenHash}, Spent σ tokenHash → Spent σ' tokenHash := fun spent => spent.move move
  have still : ∀ {tokenHash pair}, Exchanged config σ tokenHash pair →
    Exchanged config σ' tokenHash pair :=
    fun exchanged => exchanged.move move
  have issued := move.issued
  cases move with
  | commit effect entitled => exact sound.commit effect entitled
  | @generate pair _ fresh =>
    refine ⟨?_, fun c member data creates => ?_, sound.once, sound.rows, fun c member h rotates =>
      kept (sound.spent c member h rotates), sound.single, fun h entry cached => ?_⟩
    · simp only [Ext.sign, Ext.issue, List.map_append, List.map_cons, List.map_nil,
        List.nodup_append, sound.distinct, List.nodup_singleton, true_and]
      rintro hash member other single rfl
      obtain ⟨issue, old, rfl⟩ := List.mem_map.mp member
      exact fresh issue old (List.mem_singleton.mp single)
    · obtain ⟨issue, member, hash⟩ := sound.minted c member data creates
      exact ⟨issue, issued issue member, hash⟩
    · obtain ⟨pair, opened, exchanged⟩ := sound.cached h entry cached
      exact ⟨pair, opened, still exchanged⟩
  | cache same entries =>
    refine ⟨same ▸ sound.distinct, fun c member data creates => ?_, sound.once, sound.rows,
        fun c member h rotates =>
      kept (sound.spent c member h rotates), sound.single, fun h entry cached => ?_⟩
    · obtain ⟨issue, member, hash⟩ := sound.minted c member data creates
      exact ⟨issue, issued issue member, hash⟩
    · rcases entries h entry cached with old | ⟨pair, opened, exchanged⟩
      · obtain ⟨pair, opened, exchanged⟩ := sound.cached h entry old
        exact ⟨pair, opened, still exchanged⟩
      · exact ⟨pair, opened, still exchanged⟩

theorem Sound.init : Sound config ⟨Store.empty, [], Ext.idle⟩ where
  distinct := List.nodup_nil
  minted _ member := by cases member
  once _ := Nat.zero_le 1
  rows _ _ found := by cases found
  spent _ member := by cases member
  single _ := Nat.zero_le 1
  cached _ _ found := by cases found

end Moves

/-- A refresh that returns a pair has exchanged its token for it, or found who did. -/
def Promised (config : Config) (request : Request) (result : Except Exception Response)
    (σ : SharedState) : Prop :=
  ∀ refreshToken pair, request = .refresh refreshToken → result = .ok (.tokens pair) →
    Exchanged config σ (config.hashToken refreshToken) pair

theorem Expire.move {config : Config} {σ : SharedState} {ext : Ext}
    (expired : Expire σ.ext ext) (pid : Nat) :
    Move config pid σ { σ with ext := ext } := by
  cases expired with
  | lock => exact .cache rfl fun _ _ => .inl

def rotations (config : Config) : Protocol (sessions config) anything where
  Inv := Sound config
  Guar := Move config
  Post _ := Promised config
  guar_inv := Sound.move
  drift_inv sound _ expired := sound.move (Expire.move expired 0)

/-- The operation inserts no token, and writes nothing into the cache. -/
def Harmless : ServiceOp TxCall Outside → Prop
  | .transact c => c.creates = none
  | .outside x => ∀ tokenHash encrypted, x ≠ .setCache tokenHash encrypted

section Programs
variable {config : Config} {pid : Nat} {σ : SharedState}
  {Q : Except Exception α → SharedState → Prop}

/-- Preconditions under the protocol. -/
abbrev Leads (config : Config) (pid : Nat) (p : Svc α) (Q : Except Exception α → SharedState → Prop)
    (σ : SharedState) : Prop :=
  (rotations config).wp (fun _ _ _ => True) pid p Q σ

theorem foreign_move {σ' : SharedState} (move : (rotations config).Moves (· ≠ pid) σ σ') :
    Sound config σ ∧ ∃ other ≠ pid, Move config other σ σ' := by
  obtain ⟨sound, ⟨other, different, guar⟩ | ⟨ext, _, expired, rfl⟩⟩ := move
  · exact ⟨sound, other, different, guar⟩
  · exact ⟨sound, pid + 1, by omega, Expire.move expired _⟩

theorem Exchanged.rely {σ' : SharedState} (exchanged : Exchanged config σ tokenHash pair)
    (rely : (rotations config).Rely pid σ σ') : Exchanged config σ' tokenHash pair := by
  refine rely.stable (F := fun σ =>
    Exchanged config σ tokenHash pair) (fun holds move => ?_) exchanged
  obtain ⟨_, _, _, moved⟩ := foreign_move move
  exact holds.move moved

theorem Ticket.rely {σ' : SharedState} (ticket : Ticket config pid σ pair)
    (rely : (rotations config).Rely pid σ σ') : Ticket config pid σ' pair := by
  refine rely.stable (F := fun σ => Ticket config pid σ pair) (fun holds move => ?_) ticket
  obtain ⟨sound, other, different, moved⟩ := foreign_move move
  exact holds.move sound different moved

theorem Outside.Answers.move {x : Outside} {reply : Except Exception x.Reply} {ext : Ext}
    (quiet : ∀ tokenHash encrypted, x ≠ .setCache tokenHash encrypted)
    (answers : x.Answers config pid σ.db σ.ext reply ext) :
    Move config pid σ { σ with ext := ext } := by
  have same : Move config pid σ σ := .cache rfl fun _ _ => .inl
  cases x with
  | setCache tokenHash encrypted => exact absurd rfl (quiet tokenHash encrypted)
  | generateTokenPair =>
    rcases answers with ⟨pair, jti, lifetime, fresh, _, _, _, rfl⟩ | ⟨_, rfl⟩
    · exact .generate fresh
    · exact same
  | delCache tokenHash =>
    cases answers with
    | failed => exact same
    | done | unheard =>
      refine .cache rfl fun other entry found => .inl ?_
      simp only [Ext.delCache, Function.update_apply] at found
      split at found
      · cases found
      · exact found
  | denylist => cases answers <;> exact .cache rfl fun _ _ => .inl
  | setLock => cases answers <;> exact .cache rfl fun _ _ => .inl
  | delLock => cases answers <;> exact .cache rfl fun _ _ => .inl
  | _ =>
    obtain ⟨rfl, _⟩ := answers
    exact same

/-- Nothing that a harmless program does needs to be known later. -/
theorem leads_harmless {p : Svc α} (harmless : p.All Harmless) :
    Leads config pid p (fun _ _ => True) σ := by
  induction p generalizing σ with
  | pure value => exact fun _ _ _ => trivial
  | throw error => exact fun _ _ _ => trivial
  | call op next ih =>
    cases op with
    | outside x =>
      intro σ' rely inv _ reply ext answers
      exact ⟨Outside.Answers.move harmless.1 answers, ih _ (harmless.2 _)⟩
    | transact c =>
      intro σ' rely inv
      have inserts : Entitled config pid σ' c := by
        intro data creates
        rw [show c.creates = none from harmless.1] at creates
        cases creates
      refine ⟨(c.effect σ'.db).mono fun value d' effect => ⟨fun _ => ?_, fun _ => ?_⟩,
        fun error _ => ih _ (harmless.2 _)⟩
      · exact ⟨.commit effect inserts, ih _ (harmless.2 _)⟩
      · exact ⟨.commit effect inserts, ih _ (harmless.2 _)⟩

/-- A program that throws has promised nothing. -/
theorem leads_throw (fails : ∀ error σ, Q (.error error) σ) (error : Exception) :
    Leads config pid (.throw error : Svc α) Q σ :=
  fun σ' _ _ => fails error σ'

theorem leads_generate {userId : UserId} {email : String} {role : Role} {f : TokenPair → Svc α}
    (fails : ∀ error σ, Q (.error error) σ)
    (rest : ∀ σ pair, Ticket config pid σ pair → Leads config pid (f pair) Q σ) :
    Leads config pid ((outside (.generateTokenPair userId email role)).bind f) Q σ := by
  intro σ' rely sound _ reply ext answers
  rcases answers with ⟨pair, jti, lifetime, fresh, _, _, rfl, rfl⟩ | ⟨rfl, rfl⟩
  · refine ⟨.generate fresh, rest _ pair ⟨List.mem_append_right _ List.mem_cons_self, ?_⟩⟩
    rw [List.countP_eq_zero]
    intro c member inserts
    obtain ⟨data, creates, same⟩ := inserts_iff.mp inserts
    obtain ⟨issue, old, hash⟩ := sound.minted c member data creates
    exact fresh issue old (hash.trans same)
  · exact ⟨.cache rfl fun _ _ => .inl, leads_throw fails _⟩

/-- Reads and drawings keep the ticket. -/
theorem leads_read {x : Outside} {f : x.Reply → Svc α} (reads : x.reads)
    (fails : ∀ error σ, Q (.error error) σ) (ticket : Ticket config pid σ pair)
    (rest : ∀ σ value, Ticket config pid σ pair → Leads config pid (f value) Q σ) :
    Leads config pid ((outside x).bind f) Q σ := by
  intro σ' rely sound _ reply ext answers
  obtain rfl := Outside.Answers.same reads answers
  refine ⟨.cache rfl fun _ _ => .inl, ?_⟩
  cases reply with
  | error error => exact leads_throw fails error
  | ok value => exact rest _ value (ticket.rely rely)

/-- A process with a ticket may insert its token. -/
theorem leads_insert {c : TxCall} {f : c.Out → Svc α} {data : NewToken}
    (creates : c.creates = some data) (hash : config.hashToken pair.refreshToken = data.tokenHash)
    (fails : ∀ error σ, Q (.error error) σ) (ticket : Ticket config pid σ pair)
    (rest : ∀ σ value, c ∈ σ.log → ⟨pid, pair⟩ ∈ σ.ext.issued → Leads config pid (f value) Q σ) :
    Leads config pid ((transact c).bind f) Q σ := by
  intro σ' rely sound
  have ticket' := ticket.rely rely
  have entitled : Entitled config pid σ' c := by
    intro data' creates'
    cases creates.symm.trans creates'
    exact ⟨pair, ticket', hash⟩
  refine ⟨(c.effect σ'.db).mono fun value d' effect =>
    ⟨fun _ => ⟨.commit effect entitled, ?_⟩, fun _ => ?_⟩, fun error _ => leads_throw fails error⟩
  · exact rest _ value (List.mem_append_right _ List.mem_cons_self) ticket'.1
  · exact ⟨.commit effect entitled, leads_throw fails _⟩

theorem leads_persistRefreshToken {userId : UserId} (fails : ∀ error σ, Q (.error error) σ)
    (ticket : Ticket config pid σ pair) {f : Unit → Svc α}
    (rest : ∀ σ, Leads config pid (f ()) Q σ) :
    Leads config pid ((SessionService.persistRefreshToken config userId pair.refreshToken).bind f) Q
      σ := by
  simp only [SessionService.persistRefreshToken, Program.bind_def, Program.bind_assoc]
  refine leads_read rfl fails ticket fun σ₁ expiresAt ticket₁ => ?_
  refine leads_read rfl fails ticket₁ fun σ₂ draw ticket₂ => ?_
  exact leads_insert rfl rfl fails ticket₂ fun σ₃ evicted _ _ => rest σ₃

/-- The replay cache answers with what an exchange issued. -/
theorem leads_getRotationCache {f : Option TokenPair → Svc α} (tokenHash : String)
    (rest : ∀ σ found, Sound config σ →
      (∀ pair, found = some pair → Exchanged config σ tokenHash pair) →
      Leads config pid (f found) Q σ) :
    Leads config pid ((SessionService.getRotationCache config tokenHash).bind f) Q σ := by
  intro σ' rely sound _ reply ext answers
  obtain ⟨rfl, replied⟩ := answers
  refine ⟨.cache rfl fun _ _ => .inl, ?_⟩
  rcases replied with rfl | rfl
  · cases cached : σ'.ext.cached σ'.db.now tokenHash with
    | none => exact rest _ none sound nofun
    | some encrypted =>
      refine rest _ (config.decrypt encrypted) sound fun pair opened => ?_
      obtain ⟨entry, kept, rfl⟩ := Option.map_eq_some_iff.mp cached
      obtain ⟨found, _⟩ := Option.filter_eq_some_iff.mp kept
      obtain ⟨pair', opened', exchanged⟩ := sound.cached tokenHash entry found
      cases opened.symm.trans opened'
      exact exchanged
  · exact rest _ none sound nofun

theorem leads_rotateToken {data : NewToken} {f : Unit → Svc α} (tokenHash : String)
    (hash : config.hashToken pair.refreshToken = data.tokenHash)
    (fails : ∀ error σ, Q (.error error) σ) (ticket : Ticket config pid σ pair)
    (rest : ∀ σ, Exchanged config σ tokenHash pair → Leads config pid (f ()) Q σ) :
    Leads config pid ((SessionService.rotateToken config tokenHash data pair).bind f) Q σ := by
  simp only [SessionService.rotateToken, Program.bind_def, Program.bind_assoc]
  refine leads_insert (c := .rotateRefreshToken tokenHash data) rfl hash fails ticket
    fun σ₁ _ member issued => ?_
  have exchanged : Exchanged config σ₁ tokenHash pair := ⟨data, member, ⟨⟨_, issued, rfl⟩, hash⟩⟩
  intro σ' rely sound _ reply ext answers
  have exchanged' := exchanged.rely rely
  have moved : Move config pid σ' { σ' with ext := ext } := by
    cases answers with
    | failed => exact .cache rfl fun _ _ => .inl
    | done | unheard =>
      refine .cache rfl fun other entry found => ?_
      simp only [Ext.setCache, Function.update_apply] at found
      split at found
      · subst other
        cases found
        exact .inr ⟨pair, config.decrypt_encrypt pair, exchanged'⟩
      · exact .inl found
  refine ⟨moved, ?_⟩
  cases reply <;> exact rest _ (exchanged'.move moved)

/-- What a refresh of the token returns. -/
abbrev Replays (config : Config) (tokenHash : String) (result : Except Exception TokenPair)
    (σ : SharedState) : Prop :=
  ∀ pair, result = .ok pair → Exchanged config σ tokenHash pair

theorem replays_fails {tokenHash : String} :
    ∀ error σ, Replays config tokenHash (.error error) σ := nofun

theorem leads_exchange (tokenHash : String) (token : RefreshToken) :
    Leads config pid (AuthService.exchange config tokenHash token)
      (Replays config tokenHash) σ := by
  intro σ₁ _ _ _ reply ext answers
  obtain ⟨rfl, replied⟩ := answers
  refine ⟨.cache rfl fun _ _ => .inl, ?_⟩
  rcases replied with rfl | rfl
  · cases σ₁.db.users.get? token.userId with
    | none => exact leads_throw replays_fails _
    | some user =>
      show Leads config pid (if user.status ≠ .active then _ else _) _ _
      split
      · exact leads_throw replays_fails _
      · refine leads_generate replays_fails fun σ₂ pair ticket => ?_
        refine leads_read rfl replays_fails ticket fun σ₃ expiresAt ticket => ?_
        refine leads_read rfl replays_fails ticket fun σ₄ draw ticket => ?_
        refine leads_rotateToken tokenHash rfl replays_fails ticket fun σ₅ exchanged σ₆ rely _ => ?_
        rintro _ ⟨⟩
        exact exchanged.rely rely
  · exact leads_throw replays_fails _

theorem harmless_admits : Admits Harmless where
  outside x common := by
    cases x with
    | setCache => cases common
    | _ => exact nofun
  ends c creates := creates

/-- A harmless beginning may end in any way. -/
theorem leads_after {p : Svc α} {f : α → Svc β} {Q : Except Exception β → SharedState → Prop}
    (sound : Sound config σ) (harmless : p.All Harmless) (fails : ∀ error σ, Q (.error error) σ)
    (rest : ∀ σ value, Sound config σ → Leads config pid (f value) Q σ) :
    Leads config pid (p.bind f) Q σ := by
  refine Protocol.wp_bind sound
    (Protocol.wp_mono (leads_harmless harmless) fun result σ inv _ => ?_)
  cases result with
  | ok value => exact rest σ value inv
  | error error => exact leads_throw fails error

theorem leads_refresh (sound : Sound config σ) (refreshToken : String) :
    Leads config pid (AuthService.refresh config refreshToken)
      (Replays config (config.hashToken refreshToken)) σ := by
  have throws : ∀ error σ,
    Leads config pid (.throw error) (Replays config (config.hashToken refreshToken)) σ :=
    fun error _ => leads_throw replays_fails error
  refine leads_after sound (all_find harmless_admits nofun _) replays_fails fun σ₁ status sound₁ =>
    ?_
  cases status with
  | notFound | expired => exact throws _ σ₁
  | reuseDetected token =>
    refine leads_after sound₁ (all_revokeAll harmless_admits _) replays_fails fun σ₂ _ sound₂ => ?_
    exact leads_after sound₂ (all_clear harmless_admits _) replays_fails fun σ₃ _ _ => throws _ σ₃
  | gracePeriod token =>
    refine leads_getRotationCache _ fun σ₂ found sound₂ issued => ?_
    cases found with
    | none =>
      exact leads_after sound₂ (all_clear harmless_admits _) replays_fails fun σ₃ _ _ => throws _ σ₃
    | some pair =>
      rintro σ₃ rely _ _ ⟨⟩
      exact (issued pair rfl).rely rely
  | active token => exact leads_exchange _ token

theorem leads_login (sound : Sound config σ) (email password : String) :
    Leads config pid (AuthService.login config email password) (fun _ _ => True) σ := by
  have fails : ∀ error σ,
    (fun (_ : Except Exception TokenPair) (_ : SharedState) => True) (.error error) σ :=
    fun _ _ => trivial
  refine leads_after sound (all_outside.mpr nofun) fails fun σ₁ user sound₁ => ?_
  refine leads_after sound₁ (all_outside.mpr nofun) fails fun σ₂ passwordMatch _ => ?_
  cases user with
  | none => exact leads_throw fails _
  | some user =>
    dsimp only
    split
    · exact leads_throw fails _
    split
    · exact leads_throw fails _
    refine leads_generate fails fun σ₃ pair ticket => ?_
    exact leads_persistRefreshToken fails ticket fun σ₄ => leads_harmless trivial

theorem leads_register (sound : Sound config σ) (dto : CreateUserInput) :
    Leads config pid (AuthService.register config dto) (fun _ _ => True) σ := by
  have fails : ∀ error σ,
    (fun (_ : Except Exception TokenPair) (_ : SharedState) => True) (.error error) σ :=
    fun _ _ => trivial
  refine leads_after sound (all_outside.mpr nofun) fails fun σ₁ draw sound₁ => ?_
  refine leads_after sound₁ (.handle (all_transact.mpr rfl) fun error => ?_) fails fun σ₂ _ _ => ?_
  · cases error <;> trivial
  · refine leads_generate fails fun σ₃ pair ticket => ?_
    exact leads_persistRefreshToken fails ticket fun σ₄ => leads_harmless trivial

end Programs

theorem rotations_starts {config : Config} {pid : Nat} {σ : SharedState} (sound : Sound config σ)
    (request : Request) :
    Leads config pid (request.handler config) (Promised config request) σ := by
  have others : (∀ refreshToken, request ≠ .refresh refreshToken) →
      Leads config pid (request.handler config) (fun _ _ => True) σ →
      Leads config pid (request.handler config) (Promised config request) σ :=
    fun other leads => Protocol.wp_mono leads fun _ _ _ _ refreshToken _ same =>
      absurd same (other refreshToken)
  have returns : ∀ {p : Svc TokenPair}, Leads config pid p (fun _ _ => True) σ →
      Leads config pid (p.bind fun pair => .pure (Response.tokens pair)) (fun _ _ => True) σ := by
    refine fun leads => Protocol.wp_bind sound (Protocol.wp_mono leads fun result σ _ _ => ?_)
    cases result with
    | ok pair => exact leads_harmless trivial
    | error error => exact leads_throw (fun _ _ => trivial) error
  cases request with
  | register dto => exact others nofun (returns (leads_register sound dto))
  | login email password => exact others nofun (returns (leads_login sound email password))
  | refresh refreshToken =>
    refine Protocol.wp_bind sound
      (Protocol.wp_mono (leads_refresh sound refreshToken) fun result σ₁ _ replays => ?_)
    cases result with
    | ok pair =>
      rintro σ₂ rely _ _ _ ⟨⟩ ⟨⟩
      exact (replays pair rfl).rely rely
    | error error => exact leads_throw (fun error σ => by rintro _ _ _ ⟨⟩) error
  | _ =>
    refine others nofun (leads_harmless
      (all_handler harmless_admits _ nofun ?_ (fun _ => nofun) fun _ => ⟨nofun, nofun⟩))
    rintro (⟨_, _, ⟨⟩⟩ | ⟨_, ⟨⟩⟩)

theorem sessions_disciplined (config : Config) (permit : Permit) :
    (sessions config).Disciplined permit (fun _ => True)
    (fun _ => True) LockKey.Same (fun _ _ _ => True) (fun _ _ => True) where
  locking := postgres_locking
  stability := postgres_stability
  code c _ := Program.all_trivial _
  start {_ _ request} _ := by
    have every : Calls (fun _ => True) = fun _ : ServiceOp TxCall Outside => True := by
      funext op
      cases op <;> rfl
    exact every ▸ (request.handler config).all_trivial

/-- In every reachable world the protocol has been followed. -/
theorem Reachable.safe {config : Config} {w : State} (run : Reachable config w) :
    (rotations config).Safe (fun _ => True) (fun _ _ _ => True) w :=
  (Protocol.Safe.reaches (sessions_disciplined config anything)
    (fun sound _ => rotations_starts sound _) (.init .init) run).1

end PaymentWallet.Sessions
