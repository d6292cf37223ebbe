import PaymentWallet.Sessions.Rotation
import PaymentWallet.Foundation.Runs

/-! Invariants of the session runs: what one step does to the shared state, what it does
to signatures and denylist, and how guards read between the steps of others. -/
namespace PaymentWallet.Sessions
open Foundation

/-- What one step of a run does to the shared state. -/
inductive Advances (config : Config) (permit : Permit) (σ : SharedState) : SharedState → Prop where
  | rest : Advances config permit σ σ
  | outside : permit σ (.outside pid x) → x.Answers config pid σ.db σ.ext reply ext →
      Advances config permit σ { σ with ext := ext }
  | commit {c : TxCall} {value : c.Out} {d' : Store} : permit σ (.commit pid c) ∨
      permit σ (.lost pid c) →
      (∀ Q : c.Out → Store → Prop, Ensures σ.db c.code σ.db Q → Q value d') →
        Advances config permit σ (σ.commit c d')
  | drift : Expire σ.ext ext → Advances config permit σ { σ with ext := ext }

/-- What an answer does to the pairs, the signatures and the denylist. -/
inductive Changes (config : Config) (pid : Nat) (now : DateTime) (ext : Ext) :
    Outside → Ext → Prop where
  | kept : ext'.issued = ext.issued → ext'.signed = ext.signed → ext'.denylist = ext.denylist →
      Changes config pid now ext x ext'
  | signed {pair : TokenPair} : ext.signed pair.accessToken = none →
      config.ms config.accessExpiry = some lifetime →
      Changes config pid now ext (.generateTokenPair userId email role)
        ((ext.issue pid pair).sign pair.accessToken
        ⟨⟨userId, email, role, jti⟩, now / 1000 + lifetime / 1000⟩)
  | denied : Changes config pid now ext (.denylist jti)
      (ext.deny jti now config.getAccessTokenTtlSeconds)

section Steps
variable {config : Config} {permit : Permit} {w w' : State}

theorem advances_of_reaches
    (run : (sessions config).Reaches permit (World.init Store.empty Ext.idle) w)
    (taken : (sessions config).Step permit w w') : Advances config permit w.shared w'.shared := by
  have safe := Reachable.safe (run.mono fun _ => trivial)
  cases taken with
  | start | begin | read | write | abort => exact .rest
  | outside found permitted replied => exact .outside permitted replied
  | commit found permitted =>
    have follows := safe.orderly.follows found
    exact .commit (.inl permitted) fun _ body => follows.wp body
  | lost found permitted =>
    have follows := safe.orderly.follows found
    exact .commit (.inr permitted) fun _ body => follows.wp body
  | drift permitted expired => exact .drift expired

/-- What every step keeps, a later part of a run keeps. -/
theorem kept_of_reaches {F : SharedState → Prop}
    (run : (sessions config).Reaches permit (World.init Store.empty Ext.idle) w)
    (kept : ∀ {σ σ'}, Advances config permit σ σ' → F σ → F σ') (holds : F w.shared)
    (later : (sessions config).Reaches permit w w') : F w'.shared := by
  induction later with
  | refl => exact holds
  | tail earlier last ih => exact kept (advances_of_reaches (run.trans earlier) last) ih

theorem Outside.Answers.changes {pid : Nat} {x : Outside} {d : Store} {ext ext' : Ext}
    {reply : Except Exception x.Reply}
    (answers : x.Answers config pid d ext reply ext') : Changes config pid d.now ext x ext' := by
  cases x with
  | generateTokenPair userId email role =>
    rcases answers with ⟨pair, jti, lifetime, _, unsigned, read, _, rfl⟩ | ⟨_, rfl⟩
    · exact .signed unsigned read
    · exact .kept rfl rfl rfl
  | denylist jti =>
    cases answers with
    | done | unheard => exact .denied
    | failed => exact .kept rfl rfl rfl
  | setCache | delCache | setLock | delLock => cases answers <;> exact .kept rfl rfl rfl
  | _ =>
    obtain ⟨rfl, _⟩ := answers
    exact .kept rfl rfl rfl

theorem Advances.now {σ σ' : SharedState} (advances : Advances config permit σ σ') :
    σ.db.now ≤ σ'.db.now := by
  cases advances with
  | rest | outside | drift => exact Nat.le_refl _
  | @commit pid c value d' permitted body => exact (body _ (c.effect σ.db)).now

/-- A signature is never replaced. -/
theorem Advances.signed {σ σ' : SharedState} {accessToken : String} {token : AccessToken}
    (advances : Advances config permit σ σ')
    (signed : σ.ext.signed accessToken = some token) : σ'.ext.signed accessToken = some token := by
  cases advances with
  | rest | commit => exact signed
  | drift expired =>
    cases expired with
    | lock => exact signed
  | outside permitted answers =>
    cases answers.changes with
    | kept _ same _ => exact same ▸ signed
    | denied => exact signed
    | @signed _ _ _ _ _ pair unsigned read =>
      have different : accessToken ≠ pair.accessToken := by
        rintro rfl
        cases signed.symm.trans unsigned
      simp only [Ext.sign, Function.update_of_ne different]
      exact signed

theorem now_of_reaches (run : (sessions config).Reaches permit (World.init Store.empty Ext.idle) w)
    (later : (sessions config).Reaches permit w w') : w.shared.db.now ≤ w'.shared.db.now :=
  kept_of_reaches (F := fun σ => w.shared.db.now ≤ σ.db.now) run
    (fun advances past => past.trans advances.now) (Nat.le_refl _) later

end Steps

section Lifetimes
variable {config : Config}

/-- A token lives for as long as a denylist entry. -/
theorem Config.lifetime_seconds {lifetime : Nat}
    (read : config.ms config.accessExpiry = some lifetime) :
    lifetime / 1000 = config.getAccessTokenTtlSeconds := by
  obtain ⟨parsed, accepted⟩ := parseExpiry_ok config.access_valid
  obtain ⟨rfl, _⟩ := parseExpiry_agrees config.ms_reads accepted read
  rw [Config.getAccessTokenTtlSeconds, accepted]

theorem Config.getAccessTokenTtlSeconds_pos (config : Config) :
    0 < config.getAccessTokenTtlSeconds := by
  obtain ⟨parsed, accepted⟩ := parseExpiry_ok config.access_valid
  rw [Config.getAccessTokenTtlSeconds, accepted]
  exact parseExpiry_pos accepted

end Lifetimes

/-- Reads that take place between the steps of others. -/
def Amid (config : Config) (permit : Permit) (pid : Nat) (op : ServiceOp TxCall Outside) (w : State)
    (reply : Except Exception (op.Result TxCall.Out Outside.Reply)) (w' : State) : Prop :=
  (sessions config).Reaches permit w w' ∧
    (sessions config).Alone permit pid op w'.shared reply w'.shared

section Guards
variable {config : Config} {permit : Permit} {pid : Nat} {w w' : State}

theorem Amid.reaches {p : Svc α} {result : Except Exception α}
    (run : p.Runs (Amid config permit pid) w result w') :
    (sessions config).Reaches permit w w' :=
  run.keeps (F := fun later =>
    (sessions config).Reaches permit w later) (fun step before => before.trans step.1) .refl

theorem Amid.answers {x : Outside} {reply : Except Exception x.Reply}
    (read : Amid config permit pid (.outside x) w reply w') :
    ∃ ext, x.Answers config pid w'.shared.db w'.shared.ext reply ext := by
  obtain ⟨ext, answered, _⟩ := read.2.outside_inv
  exact ⟨ext, answered⟩

end Guards
end PaymentWallet.Sessions
