import PaymentWallet.Guarantees.Accounts

/-! A deposit or withdrawal is settled or failed at most once, and its status, its
payment log, its event and the history of commits agree about it. -/
namespace PaymentWallet
open Foundation Schedule

/-- INITIATED moves to SETTLED or FAILED, and nothing else moves. -/
def TransactionStatus.Evolves (before after : TransactionStatus) : Prop :=
  after = before ∨ before = .initiated ∧ (after = .settled ∨ after = .failed)

theorem TransactionStatus.Evolves.trans {a b c : TransactionStatus} (first : a.Evolves b)
    (second : b.Evolves c) : a.Evolves c := by
  rcases first with rfl | ⟨rfl, closed⟩
  · exact second
  · rcases second with rfl | ⟨rfl, _⟩
    · exact .inr ⟨rfl, closed⟩
    · simp at closed

/-- Rows stay, and their statuses evolve. -/
def Evolved (σ σ' : SharedState) : Prop := ∀ id t, σ.db.transactions.get? id = some t →
  ∃ t', σ'.db.transactions.get? id = some t' ∧ t.status.Evolves t'.status

theorem Evolved.trans {σ₁ σ₂ σ₃ : SharedState} (first : Evolved σ₁ σ₂) (second : Evolved σ₂ σ₃) :
    Evolved σ₁ σ₃ := by
  intro id t found
  obtain ⟨t', found', evolves⟩ := first id t found
  obtain ⟨t'', found'', evolves'⟩ := second id t' found'
  exact ⟨t'', found'', evolves.trans evolves'⟩

theorem Move.evolved {permit : Permit} {σ σ' : SharedState} (move : Move permit pid σ σ') :
    Evolved σ σ' := by
  intro id t found
  cases move with
  | commit _ _ effect _ =>
    rcases effect.row found with kept | ⟨t', found', initiated, closed⟩
    · exact ⟨t, kept, .inl rfl⟩
    · exact ⟨t', found', .inr ⟨initiated, closed.imp_right And.left⟩⟩
  | call _ => exact ⟨t, found, .inl rfl⟩

/-- The records of a deposit or withdrawal in one state. -/
structure SettledOnce (σ : SharedState) (t : Transaction) : Prop where
  once : σ.log.countP (·.closes t.id) = if t.status = .initiated then 0 else 1
  status : t.status = .initiated ∨ t.status = .settled ∨ t.status = .failed
  logged : t.status = .settled ∨ t.status = .failed ↔
    ∃ log, σ.db.logsOf t.id = [log] ∧ log.status = t.status
  delivered : t.status = .settled ∨ t.status = .failed →
    ∃ e, σ.db.eventsOf t.id = [e] ∧ e.eventType = t.type.event ∧ e.deliveredAt.isSome
  settledAt : t.settledAt.isSome ↔ t.status = .settled

theorem Sound.settled_once {σ : SharedState} (sound : Sound σ) {t : Transaction}
    (member : t ∈ σ.db.transactions.rows) (type : t.type ≠ .transfer) : SettledOnce σ t := by
  have dossier := sound.books.dossiers t member
  have outcome : t.outcome = if t.status = .initiated then [] else [t.status] := by
    simp [Transaction.outcome, type]
  have logs := dossier.logs
  have closed : t.status ≠ .initiated ↔ t.status = .settled ∨ t.status = .failed := by
    rcases dossier.staged.status with status | status | status <;> simp [status]
  constructor
  · rw [← sound.logged, ← List.length_map (f := PaymentLog.status), logs, outcome]
    split <;> rfl
  · exact dossier.staged.status
  · rw [← closed]
    constructor
    · intro finished
      rw [outcome, if_neg finished] at logs
      exact List.map_eq_singleton_iff.mp logs
    · rintro ⟨log, single, _⟩ initiated
      rw [outcome, if_pos initiated, single] at logs
      cases logs
  · intro finished
    obtain ⟨e, single, type, delivered⟩ := dossier.event
    refine ⟨e, single, type, delivered ?_⟩
    rw [outcome, if_neg (closed.mpr finished)]
    simp
  · exact dossier.staged.settledAt

/-- Exactly-once settlement. -/
theorem exactly_once_settlement {w w' : State} (run : Reachable w)
    (later : system.Reaches anything w w') :
    (∀ t ∈ w.shared.db.transactions.rows, t.type ≠ .transfer → SettledOnce w.shared t) ∧
      Evolved w.shared w'.shared :=
  ⟨fun _ member type => run.sound.settled_once member type,
    related_of_reaches (fun _ _ t found => ⟨t, found, .inl rfl⟩) .trans
      (fun _ move => move.evolved) run later⟩

/-- A deposit processed again: the provider is asked again, the second settlement aborts. -/
theorem exactly_once_settlement_settled : ∃ w, Reachable w ∧
    (∃ t ∈ w.shared.db.transactions.rows, t.type ≠ .transfer ∧ t.status = .settled) ∧
    (∀ t ∈ w.shared.db.transactions.rows, t.type ≠ .transfer → SettledOnce w.shared t) ∧
      Evolved w.shared w.shared := by
  obtain ⟨w, run, settled⟩ := Schedule.reachable
    [registers "alice", deposits "alice", polls (.ok charged) [.answer {}, .commit],
      (.processEvent "event-deposit-alice",
        [.answer {}, .answer {}, .answer { provider := .ok charged }, .answer {}, .fail, .commit])]
    (fun σ => ∃ t ∈ σ.db.transactions.rows, t.type ≠ .transfer ∧
      t.status = .settled) (by decide +kernel)
  exact ⟨w, run, settled, exactly_once_settlement run .refl⟩

end PaymentWallet
