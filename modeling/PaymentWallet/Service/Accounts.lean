import PaymentWallet.Accounting.History
import PaymentWallet.Service.Requests

/-! The protocol that every request follows in every run: processes commit what
they are ready for, and provider calls are never forgotten. It keeps the books. -/
namespace PaymentWallet
open Foundation

/-- What holds between any two steps. -/
structure Sound (σ : SharedState) : Prop where
  books : Consistent σ.db
  keyed : ∀ key, (σ.db.keyed key).length = σ.log.countP (·.carries key)
  unique : ∀ key, (σ.db.keyed key).length ≤ 1
  logged : ∀ id, (σ.db.logsOf id).length = σ.log.countP (·.closes id)
  retried : ∀ id, σ.db.retryCount id = σ.log.countP (·.retries id)
  delivered : ∀ id event, σ.db.outboxEvents.get? id = some event → event.deliveredAt.isSome →
    Accepted σ.ext.calls event.transactionId ∨
      ∃ t, σ.db.transactions.get? event.transactionId = some t ∧ t.status ≠ .initiated

/-- One move of the shared state by a process. -/
inductive Move (permit : Permit) (pid : Nat) (σ : SharedState) : SharedState → Prop where
  | commit : permit σ (.commit pid c) ∨ permit σ (.lost pid c) → c.Ready σ → c.Effect σ.db d' →
      σ.db.Keeps d' → Move permit pid σ (σ.commit c d')
  | call : (∀ call ∈ σ.ext.calls, call ∈ ext.calls) → Move permit pid σ { σ with ext := ext }

theorem Move.grown {permit : Permit} {σ σ' : SharedState} (move : Move permit pid σ σ') :
    Grown σ σ' := by
  cases move with
  | commit _ _ _ keeps => exact ⟨keeps, fun _ => id⟩
  | call more => exact ⟨.refl _, more⟩

theorem Sound.commit {σ : SharedState} {c : TxCall} {d' : DB} (sound : Sound σ) (ready : c.Ready σ)
    (effect : c.Effect σ.db d') : Sound (σ.commit c d') := by
  have counted := effect.counted
  have log : ∀ p : TxCall → Bool, (σ.log ++ [c]).countP p = σ.log.countP p +
      if p c then 1 else 0 := by
    simp [List.countP_singleton]
  constructor
  · exact effect.consistent sound.books
  · intro key
    rw [Shared.commit, log, counted.keyed, sound.keyed]
  · intro key
    rw [Shared.commit, counted.keyed]
    split
    · simp [counted.unkeyed key ‹_›]
    · exact sound.unique key
  · intro id
    rw [Shared.commit, log, counted.logged, sound.logged]
  · intro id
    rw [Shared.commit, log, counted.retried, sound.retried]
  · intro id event found delivered
    rcases effect.delivered found delivered with ⟨old, present, same, marked | before⟩ | ⟨_, closed⟩
    · obtain ⟨now, rfl⟩ := marked
      obtain ⟨other, present', accepted⟩ := ready
      cases present.symm.trans present'
      exact .inl (same ▸ accepted)
    · rcases sound.delivered id old present before with accepted | ⟨t, row, closed⟩
      · exact .inl (same ▸ accepted)
      · rcases effect.row row with kept | ⟨t', _, initiated, _⟩
        · exact .inr ⟨t, same ▸ kept, closed⟩
        · exact absurd initiated closed
    · exact .inr closed

theorem Sound.calls {σ : SharedState} {ext : Ext} (sound : Sound σ)
    (more : ∀ call ∈ σ.ext.calls, call ∈ ext.calls) : Sound { σ with ext := ext } :=
  ⟨sound.books, sound.keyed, sound.unique, sound.logged, sound.retried,
    fun id event found delivered =>
    (sound.delivered id event found delivered).imp_left fun accepted => accepted.mono more⟩

theorem Sound.move {permit : Permit} {σ σ' : SharedState} (sound : Sound σ)
    (move : Move permit pid σ σ') :
    Sound σ' := by
  cases move with
  | commit _ ready effect _ => exact sound.commit ready effect
  | call more => exact sound.calls more

theorem Sound.init : Sound ⟨DB.empty, [], Ext.idle⟩ where
  books := .empty
  keyed _ := rfl
  unique _ := Nat.zero_le 1
  logged _ := rfl
  retried _ := rfl
  delivered _ _ found := by cases found

def accounts (permit : Permit) : Protocol system permit where
  Inv := Sound
  Guar := Move permit
  Post _ _ _ _ := True
  guar_inv := Sound.move
  drift_inv sound _ expired := by
    cases expired with
    | lock => exact sound.calls fun _ => id

/-- What a transaction's commit did, on top of keeping the rows. -/
theorem TxCall.Ready.commits {c : TxCall} {σ : SharedState} (ready : c.Ready σ)
    (books : Consistent σ.db) :
    Ensures σ.db c.code σ.db fun _ d' => c.Effect σ.db d' ∧ σ.db.Keeps d' :=
  Engine.wp_grows postgres_stability (Program.all_trivial c.code) (ready.ensures books)

theorem accounts_admits (permit : Permit) : Admits (accounts permit) fun _ => True where
  stutter _ := .call fun _ => id
  grows := by
    rintro who σ σ' ⟨_, ⟨pid, _, move⟩ | ⟨ext, _, expired, rfl⟩⟩
    · exact Move.grown move
    · cases expired with
      | lock => exact ⟨.refl _, fun _ => id⟩
  commits pid c σ _ sound ready :=
    (ready.commits sound.books).mono fun _ d' post permitted =>
      .commit permitted ready post.1 post.2

end PaymentWallet
