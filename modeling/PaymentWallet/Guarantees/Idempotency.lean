import PaymentWallet.Guarantees.Accounts

/-! Requests with one idempotency key have at most one effect. The lookup can be
stale for all of them at once; the unique index decides, in the same transaction
that moves the balance. -/
namespace PaymentWallet
open Foundation Schedule

/-- Only requests with this key are made. -/
def carrying (key : String) : Permit := fun _ label =>
  match label with
  | .start _ request => request.carries key
  | _ => True

instance (key : String) (σ : SharedState) (label : Label TxCall Outside Request Exception) :
    Decidable (carrying key σ label) :=
  match label with
  | .start _ request => inferInstanceAs (Decidable (request.carries key = true))
  | .commit .. | .lost .. | .outside .. | .abort .. | .drift => .isTrue trivial

/-- Nothing was committed, or one initiation with the key. -/
inductive AtMostOnce (d₀ : DB) (key : String) (σ : SharedState) : Prop where
  | none : σ.log = [] → σ.db = d₀ → AtMostOnce d₀ key σ
  | one : σ.log = [c] → c.carries key → c.Initiated d₀ σ.db → AtMostOnce d₀ key σ

theorem TxCall.Initiated.key {c : TxCall} {key : String} (initiated : c.Initiated d d')
    (carries : c.carries key) :
    ¬ d.transactions.Has Transaction.index key ∧ d'.transactions.Has Transaction.index key := by
  obtain ⟨o, sender, receiver, entries, event, asks, opened, _⟩ := initiated
  obtain rfl : o.idempotencyKey = key := by simpa [TxCall.carries, asks] using carries
  refine ⟨opened.newKey, ?_⟩
  rw [opened.transactions, Table.has_put_fresh opened.fresh]
  exact .inl (List.mem_singleton_self _)

/-- A process stays, or commits an initiation with the key. -/
inductive Initiates (key : String) (σ : SharedState) : SharedState → Prop where
  | stay : Initiates key σ σ
  | commit : c.carries key → c.Initiated σ.db d' → σ.db.Keeps d' → Initiates key σ (σ.commit c d')

theorem AtMostOnce.moves {d₀ : DB} {key : String} {σ σ' : SharedState} (once : AtMostOnce d₀ key σ)
    (move : Initiates key σ σ') : AtMostOnce d₀ key σ' := by
  cases move with
  | stay => exact once
  | @commit c d' carries initiated _ =>
    cases once with
    | none empty start =>
      subst start
      exact .one (by simp [Shared.commit, empty]) carries initiated
    | one _ carries' initiated' =>
      exact absurd (initiated'.key carries').2 (initiated.key carries).1

def once (d₀ : DB) (key : String) : Protocol system (carrying key) where
  Inv := AtMostOnce d₀ key
  Guar _ := Initiates key
  Post _ _ _ _ := True
  guar_inv := AtMostOnce.moves
  drift_inv once _ _ := by
    cases once with
    | none empty start => exact .none empty start
    | one single carries initiated => exact .one single carries initiated

theorem once_admits (d₀ : DB) (key : String) : Admits (once d₀ key) fun c => c.carries key where
  stutter _ := .stay
  grows := by
    rintro who σ σ' ⟨_, ⟨pid, _, move⟩ | ⟨ext, _, expired, rfl⟩⟩
    · cases move with
      | stay => exact .refl σ
      | commit _ _ keeps => exact ⟨keeps, fun _ => id⟩
    · cases expired with
      | lock => exact ⟨.refl _, fun _ => id⟩
  commits pid c σ carries _ ready := by
    have asks : c.opening.isSome := by
      cases asks : c.opening with
      | none => simp [TxCall.carries, asks] at carries
      | some o => rfl
    have grows := Engine.wp_grows postgres_stability (Program.all_trivial c.code)
      (ready.initiates asks)
    exact Engine.wp_mono grows fun _ d' post _ => .commit carries post.1 post.2

theorem once_starts {d₀ : DB} {key : String} {σ : SharedState} (request : Request)
    (inv : AtMostOnce d₀ key σ) (carries : request.carries key) :
    (once d₀ key).wp Statement.Learned pid request.handler (fun _ _ => True) σ := by
  have admits := once_admits d₀ key
  cases request with
  | deposit => exact admits.harmless (all_deposit fun _ => carries)
  | withdraw => exact admits.harmless (all_withdraw fun _ => carries)
  | transfer => exact admits.transfer (fun _ _ _ => carries) inv
  | confirmDeposit => exact admits.harmless (all_confirmDeposit fun _ => carries)
  | createPayout => exact admits.harmless (all_createPayout fun _ => carries)
  | _ => cases carries

theorem AtMostOnce.keyed {d₀ : DB} {key : String} {σ : SharedState} (once : AtMostOnce d₀ key σ)
    (unique : (d₀.keyed key).length ≤ 1) : (σ.db.keyed key).length ≤ 1 := by
  cases once with
  | none _ start => exact start ▸ unique
  | @one c _ carries initiated =>
    obtain ⟨o, sender, receiver, entries, event, asks, opened, _⟩ := initiated
    obtain rfl : o.idempotencyKey = key := by simpa [TxCall.carries, asks] using carries
    rw [opened.keyed, show d₀.keyed o.idempotencyKey = [] from opened.unkeyed]
    split <;> simp

/-- At-most-once effect per idempotency key: from any store, where only such
requests are made; and among all other requests. -/
theorem at_most_once_per_key (key : String) :
    (∀ d₀ ext₀ w, system.Reaches (carrying key) (World.init d₀ ext₀) w →
      AtMostOnce d₀ key w.shared ∧
        ((d₀.keyed key).length ≤ 1 → (w.shared.db.keyed key).length ≤ 1)) ∧
    ∀ w, Reachable w → (w.shared.db.keyed key).length ≤ 1 ∧
      w.shared.log.countP (·.carries key) = (w.shared.db.keyed key).length := by
  refine ⟨fun d₀ ext₀ w run => ?_, fun w run => ⟨run.sound.unique key, (run.sound.keyed key).symm⟩⟩
  have start : (once d₀ key).Safe (fun _ => True) Statement.Learned (World.init d₀ ext₀) :=
    .init (.none rfl rfl)
  have safe := (start.reaches (disciplined (carrying key)) (fun inv => once_starts _ inv) run).1
  exact ⟨safe.inv, safe.inv.keyed⟩

/-- The key is used twice: the second request is answered from the first one's row. -/
def twice : Schedule :=
  [(.deposit "user-alice" ⟨⟨50000, Amount.fiveDollars_pos⟩, .usd, "key", none⟩,
      initiates "deposit"),
  (.withdraw "user-alice" ⟨⟨10000, Amount.dollar_pos⟩, .usd, "key", none⟩, [.answer {}])]

theorem at_most_once_per_key_twice : ∃ w, system.Reaches (carrying "key")
    (World.init (Schedule.store [registers "alice"]) Ext.idle) w ∧ w.shared.log.length = 1 ∧
    AtMostOnce (Schedule.store [registers "alice"]) "key" w.shared := by
  obtain ⟨w, run, one⟩ := twice.reaches (carrying "key") (Schedule.store [registers "alice"])
    (fun σ => σ.log.length = 1) (by decide +kernel)
  exact ⟨w, run, one, ((at_most_once_per_key "key").1 _ _ w run).1⟩

end PaymentWallet
