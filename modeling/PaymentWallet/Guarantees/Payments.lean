import PaymentWallet.Guarantees.Accounts
import PaymentWallet.Service.Exclusion

/-! What the outbox and the providers agree on. A provider call is not part of any
transaction: where its outcome is lost, or where two batches overlap, the call is
made again and its second answer counts. -/
namespace PaymentWallet
open Foundation Schedule

/-- No transaction that a provider reported as successful is booked as failed. -/
def SuccessKept (σ : SharedState) : Prop :=
  ∀ call ∈ σ.ext.calls, call.result.success →
    ∀ t ∈ σ.db.transactions.rows, t.id = call.transactionId → t.status ≠ .failed

instance (d : DB) (id : TransactionId) : Decidable (d.delivered id) :=
  inferInstanceAs (Decidable (∃ event ∈ d.outboxEvents.rows, _))

instance (σ : SharedState) : Decidable (Recorded σ) :=
  inferInstanceAs (Decidable (∀ call ∈ σ.ext.calls, _))

instance (σ : SharedState) (label : Label TxCall Outside Request Exception) :
    Decidable (exclusive σ label) := by
  rcases label with ⟨pid, request⟩ | ⟨pid, x⟩ | ⟨pid, c⟩ | ⟨pid, c⟩ | ⟨pid, c, error⟩ | _
  · cases request <;> dsimp only [exclusive] <;> infer_instance
  · cases x <;> dsimp only [exclusive] <;> infer_instance
  · exact inferInstanceAs (Decidable (_ → _))
  · exact inferInstanceAs (Decidable (_ → _))
  · cases c <;> dsimp only [exclusive] <;> infer_instance
  · exact inferInstanceAs (Decidable (Recorded σ))

/-- At most one call for a transaction succeeds, where the key excludes. -/
theorem at_most_one_success {w : State}
    (run : system.Reaches exclusive (World.init DB.empty Ext.idle) w) :
    ∀ id, w.shared.ext.calls.countP (·.pays id) ≤ 1 :=
  (paid_of_reaches run).once

/-- Alice's five dollars from PayPal, settled at the first poll. -/
def Schedule.settlesOnce : Schedule :=
  [registers "alice", deposits "alice", polls (.ok charged) [.answer {}, .commit]]

theorem at_most_one_success_settled :
    ∃ w, system.Reaches exclusive (World.init DB.empty Ext.idle) w ∧
    (∃ call ∈ w.shared.ext.calls, call.result.success) ∧
      ∀ id, w.shared.ext.calls.countP (·.pays id) ≤ 1 := by
  obtain ⟨w, run, paid⟩ := settlesOnce.reaches exclusive DB.empty
    (fun σ => ∃ call ∈ σ.ext.calls, call.result.success) (by decide +kernel)
  exact ⟨w, run, paid, at_most_one_success run⟩

/-- A payout to PayPal. -/
def Schedule.payouts (name : String) : Request × List (Turn Choice) :=
  (.createPayout ("user-" ++ name) ⟨.paypal, ⟨50000, Amount.fiveDollars_pos⟩, .usd,
    "payout-" ++ name, none⟩, initiates ("payout-" ++ name))

def Schedule.links (name : String) : Request × List (Turn Choice) :=
  (.setPaypalEmail ("user-" ++ name) (some name), [.commit])

/-- The provider has accepted the batch. -/
def Schedule.accepted : ProviderResult := ⟨true, true, some "batch", none, []⟩

/-- The mark of an accepted payout is lost, so the next poll sends it again. -/
theorem payout_sent_twice :
    ¬ ∀ w, Reachable w → ∀ id, w.shared.ext.calls.countP (·.pays id) ≤ 1 := by
  intro claim
  obtain ⟨w, run, twice⟩ := Schedule.reachable
    (settlesOnce ++ [links "alice", payouts "alice",
      polls (.ok accepted) [.answer {}, .cut, .commit], polls (.ok accepted) [.answer {}, .commit]])
    (fun σ => σ.ext.calls.countP (·.pays "transaction-payout-alice") = 2) (by decide +kernel)
  exact absurd (claim w run "transaction-payout-alice") (by omega)

/-- A success is never booked as a failure, where the key excludes. -/
theorem success_kept {w : State} (run : system.Reaches exclusive (World.init DB.empty Ext.idle) w) :
    SuccessKept w.shared := by
  intro call made success t member of failed
  refine List.countP_eq_zero.mp ((paid_of_reaches run).unfailed t member failed) call made ?_
  simp [ProviderCall.pays, of, success]

theorem success_kept_settled : ∃ w, system.Reaches exclusive (World.init DB.empty Ext.idle) w ∧
    (∃ call ∈ w.shared.ext.calls, call.result.success) ∧ SuccessKept w.shared := by
  obtain ⟨w, run, paid⟩ := settlesOnce.reaches exclusive DB.empty
    (fun σ => ∃ call ∈ σ.ext.calls, call.result.success) (by decide +kernel)
  exact ⟨w, run, paid, success_kept run⟩

/-- The provider has charged a customer that it knows. -/
def Schedule.vaulted : ProviderResult :=
  { charged with rawResponse := [("customerId", .string "customer")] }

/-- The nonce was consumed by the first call. -/
def Schedule.refused : ProviderResult := ⟨false, false, none, some "nonce consumed", []⟩

/-- Bob's customer id is Alice's too, so the settlement of her charged deposit fails;
the retry is refused and her deposit is reversed. -/
theorem charge_reversed : ¬ ∀ w, Reachable w → SuccessKept w.shared := by
  intro claim
  obtain ⟨w, run, call, made, success, t, member, of, failed⟩ := Schedule.reachable
    [registers "bob", deposits "bob", polls (.ok vaulted) [.answer {}, .commit],
      registers "alice", deposits "alice",
      polls (.ok vaulted) [.answer { draw := .labelled "alice" }, .fail, .commit],
      polls (.ok refused) [.answer { draw := .labelled "alice" }, .commit]]
    (fun σ => ∃ call ∈ σ.ext.calls, call.result.success ∧
      ∃ t ∈ σ.db.transactions.rows, t.id = call.transactionId ∧ t.status = .failed)
    (by decide +kernel)
  exact claim w run call made success t member of failed

end PaymentWallet
