import PaymentWallet.Accounting.Transfers
import PaymentWallet.Foundation.Runs
import PaymentWallet.Service.Requests
import PaymentWallet.Service.Schedules
import Mathlib.Data.Fintype.EquivFin

/-! A transfer from its request to its response, while nothing else happens and no
connection breaks. -/
namespace PaymentWallet
open Foundation

def DB.walletOf (d : DB) (userId : UserId) : Option Wallet :=
  d.wallets.rows.find? fun row => row.userId = userId

theorem DB.walletOf_some {d : DB} {userId : UserId} {wallet : Wallet}
    (found : d.walletOf userId = some wallet) :
    d.wallets.get? wallet.id = some wallet ∧ wallet.userId = userId :=
  ⟨Table.get?_of_mem (List.mem_of_find?_eq_some found), by simpa using List.find?_some found⟩

/-- Reads are answered, what is drawn is new, and callers hear how their transactions end. -/
def Reliable (pid : Nat) (op : ServiceOp TxCall Outside) (σ : SharedState)
    (reply : Except Exception (op.Result TxCall.Out Outside.Reply)) (σ' : SharedState) : Prop :=
  system.Alone anything pid op σ reply σ' ∧ match op, reply with
    | .outside .draw, reply => ∃ draw, reply = .ok draw ∧ draw.Fresh σ.db
    | .outside _, reply => reply ≠ .error .connectionLost
    | .transact c, reply => reply = (postgres.run σ.db c.code σ.db).map Prod.fst

/-- There are always more ids. -/
theorem exists_fresh (d : DB) : ∃ draw : Draw, draw.Fresh d := by
  have free : ∀ ids : List String, ∃ id, id ∉ ids := fun ids => by
    obtain ⟨id, new⟩ := Infinite.exists_notMem_finset ids.toFinset
    exact ⟨id, fun member => new (List.mem_toFinset.mpr member)⟩
  obtain ⟨transactionId, transaction⟩ := free (d.transactions.rows.map (·.id))
  obtain ⟨entryId, entry⟩ := free (d.ledgerEntries.rows.map (·.id))
  obtain ⟨secondId, second⟩ := free (entryId :: d.ledgerEntries.rows.map (·.id))
  obtain ⟨eventId, event⟩ := free (d.outboxEvents.rows.map (·.id))
  simp only [List.mem_cons, not_or] at second
  refine ⟨⟨"", "", transactionId, entryId, secondId, "", eventId, 0, 0, 0, 0⟩, ?_,
    ?_, ?_, second.1, ?_⟩
  all_goals
    refine Table.get?_none.mpr fun row member same => ?_
  · exact transaction (List.mem_map.mpr ⟨row, member, same⟩)
  · exact entry (List.mem_map.mpr ⟨row, member, same⟩)
  · exact second.2 (List.mem_map.mpr ⟨row, member, same⟩)
  · exact event (List.mem_map.mpr ⟨row, member, same⟩)

section Steps
variable {pid : Nat} {σ σ' : SharedState}

theorem Reliable.findByIdempotencyKey {key : String} {reply : Except Exception (Option Transaction)}
    (taken : Reliable pid (.outside (.findByIdempotencyKey key)) σ reply σ') :
    σ' = σ ∧ reply = .ok (σ.db.transactions.rows.find? fun row => row.idempotencyKey = key) := by
  obtain ⟨_, ⟨rfl, answered | lost⟩, rfl⟩ := taken.1.outside_inv
  · exact ⟨rfl, answered⟩
  · exact absurd lost taken.2

theorem Reliable.findByUserId {userId : UserId} {reply : Except Exception (Option WalletId)}
    (taken : Reliable pid (.outside (.findByUserId userId)) σ reply σ') :
    σ' = σ ∧ reply = .ok ((σ.db.walletOf userId).map (·.id)) := by
  obtain ⟨_, ⟨rfl, answered | lost⟩, rfl⟩ := taken.1.outside_inv
  · exact ⟨rfl, answered⟩
  · exact absurd lost taken.2

theorem Reliable.draw {reply : Except Exception Draw}
    (taken : Reliable pid (.outside .draw) σ reply σ') :
    σ' = σ ∧ ∃ draw, reply = .ok draw ∧ draw.Fresh σ.db := by
  obtain ⟨_, ⟨rfl, _⟩, rfl⟩ := taken.1.outside_inv
  exact ⟨rfl, taken.2⟩

/-- A transaction commits what it computes, or fails as it computes. -/
theorem Reliable.transact {c : TxCall} {reply : Except Exception c.Out}
    (taken : Reliable pid (.transact c) σ reply σ') :
    (∃ value db, postgres.run σ.db c.code σ.db = .ok (value, db) ∧ reply = .ok value ∧
      σ' = σ.commit c db) ∨
    ∃ error, postgres.run σ.db c.code σ.db = .error error ∧ reply = .error error ∧ σ' = σ := by
  have heard : reply = (postgres.run σ.db c.code σ.db).map Prod.fst := taken.2
  rcases taken.1.transact with ⟨value, db, ran, rfl, answer⟩ | ⟨rfl, error, rfl, _⟩
  · refine .inl ⟨value, db, ran, ?_, rfl⟩
    rw [heard, show postgres.run σ.db c.code σ.db = .ok (value, db) from ran]
    rfl
  · cases ran : postgres.run σ'.db c.code σ'.db with
    | ok outcome =>
      rw [ran] at heard
      cases heard
    | error failure =>
      rw [ran] at heard
      exact .inr ⟨failure, rfl, heard, rfl⟩

theorem reliable_total (pid : Nat) (op : ServiceOp TxCall Outside) (σ : SharedState) :
    ∃ reply σ', Reliable pid op σ reply σ' := by
  cases op with
  | outside x =>
    by_cases draws : x = .draw
    · subst draws
      obtain ⟨draw, fresh⟩ := exists_fresh σ.db
      exact ⟨_, _, .outside trivial ⟨rfl, draw, rfl⟩, draw, rfl, fresh⟩
    · refine ⟨(x.answer { provider := .error (.error "") } pid σ.db σ.ext).1, _,
        .outside trivial (x.answer_answers _ pid σ.db σ.ext), ?_⟩
      cases x with
      | draw => exact absurd rfl draws
      | setLock =>
        simp only [Outside.answer]
        split <;> rintro ⟨⟩
      | _ => rintro ⟨⟩
  | transact c =>
    cases ran : postgres.run σ.db c.code σ.db with
    | ok outcome =>
      obtain ⟨value, db⟩ := outcome
      exact ⟨_, _, .commit trivial ran, by simp [ran, Except.map]⟩
    | error error => exact ⟨_, _, .abort trivial (.inr ran), by simp [ran, Except.map]⟩

end Steps

/-- A transfer goes through. -/
def Transferable (d : DB) (userId : UserId) (dto : TransferDto) : Prop :=
  userId ≠ dto.recipientUserId ∧ ∃ sender receiver, d.walletOf userId = some sender ∧
    d.walletOf dto.recipientUserId = some receiver ∧ dto.Passes sender receiver

/-- How a transfer with a new key ends. -/
inductive TransferEnds (userId : UserId) (dto : TransferDto) (σ : SharedState) :
    Except Exception MutationResult → SharedState → Prop where
  | done (sender receiver : Wallet) (draw : Draw) : σ.db.walletOf userId = some sender →
      σ.db.walletOf dto.recipientUserId = some receiver → sender.id ≠ receiver.id →
        draw.Fresh σ.db → Transferable σ.db userId dto →
      TransferEnds userId dto σ
        (.ok ⟨TransactionService.toResult (dto.transaction sender receiver draw), false⟩)
        (σ.commit (.transfer userId dto sender.id receiver.id draw)
          (dto.applied userId sender receiver draw σ.db))
  | failed (error : Exception) : ¬ Transferable σ.db userId dto →
      TransferEnds userId dto σ (.error error) σ

section Ends
variable {pid : Nat} {userId : UserId} {dto : TransferDto} {σ σ' : SharedState}
  {result : Except Exception MutationResult}

/-- The draw and the transaction, for two wallets that were found. -/
theorem transfer_commits {sender receiver : Wallet} (other : userId ≠ dto.recipientUserId)
    (unused : ¬ σ.db.transactions.Has Transaction.index dto.idempotencyKey)
    (payer : σ.db.walletOf userId = some sender)
    (payee : σ.db.walletOf dto.recipientUserId = some receiver)
    (run : (do
      let draw ← outside .draw
      let result ← transact (.transfer userId dto sender.id receiver.id draw)
      return ⟨TransactionService.toResult result, false⟩ :
      Svc MutationResult).Runs (Reliable pid) σ result σ') :
    TransferEnds userId dto σ result σ' := by
  obtain ⟨foundSender, ownSender⟩ := DB.walletOf_some payer
  obtain ⟨foundReceiver, ownReceiver⟩ := DB.walletOf_some payee
  have different : sender.id ≠ receiver.id := by
    intro same
    obtain rfl := Option.some.inj ((same ▸ foundSender).symm.trans foundReceiver)
    exact other (ownSender.symm.trans ownReceiver)
  rcases Program.runs_bind.mp run with ⟨draw, σ₁, drawn, rest⟩ | ⟨error, drawn, rfl⟩
  · obtain ⟨rfl, _, answer, fresh⟩ := (Service.runs_outside.mp drawn).draw
    cases answer
    have returns : ∀ Q, postgres.Returns σ₁.db
      (TransactionService.transferTx userId dto sender.id receiver.id draw) σ₁.db Q ↔ _ :=
      fun Q => transfer_returns different fresh unused
    have able : Transferable σ₁.db userId dto ↔ dto.Passes sender receiver := by
      constructor
      · rintro ⟨_, _, _, payer', payee', passes⟩
        obtain rfl := Option.some.inj (payer.symm.trans payer')
        obtain rfl := Option.some.inj (payee.symm.trans payee')
        exact passes
      · exact fun passes => ⟨other, sender, receiver, payer, payee, passes⟩
    rcases Program.runs_bind.mp rest with ⟨t, σ₂, committed, ended⟩ | ⟨error, failed, rfl⟩
    · obtain ⟨rfl, rfl⟩ := Program.runs_pure.mp ended
      rcases (Service.runs_transact.mp committed).transact with ⟨value, db, ran, same, rfl⟩ |
        ⟨error, _, same, _⟩
      · obtain rfl := Except.ok.inj same
        obtain ⟨sender', receiver', foundSender', foundReceiver', passes, rfl, rfl⟩ :=
          (returns fun value d' => t = value ∧ db = d').mp ⟨t, db, ran, rfl, rfl⟩
        obtain rfl := Option.some.inj (foundSender.symm.trans foundSender')
        obtain rfl := Option.some.inj (foundReceiver.symm.trans foundReceiver')
        exact .done sender receiver draw payer payee different fresh (able.mpr passes)
      · cases same
    · rcases (Service.runs_transact.mp failed).transact with ⟨_, _, _, same,
        _⟩ | ⟨_, ran, same, rfl⟩
      · cases same
      · refine .failed _ fun transferable => ?_
        obtain ⟨_, _, returned, _⟩ :=
          (returns fun _ _ => True).mpr ⟨sender, receiver, foundSender, foundReceiver,
            able.mp transferable, trivial⟩
        cases ran.symm.trans returned
  · cases (Service.runs_outside.mp drawn).draw.2.choose_spec.1

theorem transfer_ends (unused : ¬ σ.db.transactions.Has Transaction.index dto.idempotencyKey)
    (run : (TransactionService.transfer userId dto).Runs (Reliable pid) σ result σ') :
    TransferEnds userId dto σ result σ' := by
  unfold TransactionService.transfer at run
  split at run
  · rename_i same
    obtain ⟨rfl, rfl⟩ := Program.runs_throw.mp run
    exact .failed _ fun able => able.1 same
  rename_i other
  have new : (σ.db.transactions.rows.find? fun row =>
      row.idempotencyKey = dto.idempotencyKey) = none := by
    refine List.find?_eq_none.mpr fun row member same => unused ⟨row, member, ?_⟩
    simpa [Transaction.index, eq_comm] using same
  rcases Program.runs_bind.mp run with ⟨existing, σ₁, looked, rest⟩ | ⟨error, looked, rfl⟩
  · obtain ⟨rfl, answer⟩ := (Service.runs_outside.mp looked).findByIdempotencyKey
    rw [new] at answer
    cases answer
    rcases Program.runs_bind.mp rest with ⟨senderWallet, σ₂, readSender, afterSender⟩ |
      ⟨error, readSender, rfl⟩
    · obtain ⟨rfl, foundSender⟩ := (Service.runs_outside.mp readSender).findByUserId
      rcases Program.runs_bind.mp afterSender with ⟨receiverWallet, σ₃, readReceiver,
        afterReceiver⟩ | ⟨error, readReceiver, rfl⟩
      · obtain ⟨rfl, foundReceiver⟩ := (Service.runs_outside.mp readReceiver).findByUserId
        obtain rfl := Except.ok.inj foundSender
        obtain rfl := Except.ok.inj foundReceiver
        cases payer : σ₃.db.walletOf userId with
        | none =>
          simp only [payer, Option.map_none] at afterReceiver
          obtain ⟨rfl, rfl⟩ := Program.runs_throw.mp afterReceiver
          refine .failed _ ?_
          rintro ⟨_, _, _, found, _⟩
          cases payer.symm.trans found
        | some sender =>
          cases payee : σ₃.db.walletOf dto.recipientUserId with
          | none =>
            simp only [payer, payee, Option.map_some, Option.map_none] at afterReceiver
            obtain ⟨rfl, rfl⟩ := Program.runs_throw.mp afterReceiver
            refine .failed _ ?_
            rintro ⟨_, _, _, _, found, _⟩
            cases payee.symm.trans found
          | some receiver =>
            simp only [payer, payee, Option.map_some] at afterReceiver
            exact transfer_commits other unused payer payee afterReceiver
      · cases (Service.runs_outside.mp readReceiver).findByUserId.2
    · cases (Service.runs_outside.mp readSender).findByUserId.2
  · obtain ⟨rfl, answer⟩ := (Service.runs_outside.mp looked).findByIdempotencyKey
    cases answer

end Ends

/-- A transfer with a new key goes through if and only if both wallets can take it. It then moves
the amount and writes its records, whichever wallet is locked first; otherwise nothing changes. -/
theorem transfer_settles (pid : Nat) (userId : UserId) (dto : TransferDto) (σ : SharedState)
    (unused : ¬ σ.db.transactions.Has Transaction.index dto.idempotencyKey) :
    (∃ result σ', (TransactionService.transfer userId dto).Runs (Reliable pid) σ result σ') ∧
    ∀ result σ', (TransactionService.transfer userId dto).Runs (Reliable pid) σ result σ' →
      ((∃ response, result = .ok response) ↔ Transferable σ.db userId dto) ∧
      (∀ response, result = .ok response → ∃ sender receiver draw,
        σ.db.walletOf userId = some sender ∧
        σ.db.walletOf dto.recipientUserId = some receiver ∧
          Transferred dto userId sender receiver draw σ.db σ'.db ∧
        response = ⟨TransactionService.toResult (dto.transaction sender receiver draw), false⟩) ∧
      ∀ error, result = .error error → σ' = σ := by
  refine ⟨Program.runs_exist (reliable_total pid) _ σ, fun result σ' run => ?_⟩
  cases transfer_ends unused run with
  | done sender receiver draw payer payee different fresh transferable =>
    refine ⟨⟨fun _ => transferable, fun _ => ⟨_, rfl⟩⟩, ?_, nofun⟩
    rintro response ⟨⟩
    exact ⟨sender, receiver, draw, payer, payee, applied_transferred different fresh, rfl⟩
  | failed error refused =>
    exact ⟨⟨nofun, fun transferable => absurd transferable refused⟩, nofun, fun _ _ => rfl⟩

instance (dto : TransferDto) (sender receiver : Wallet) : Decidable (dto.Passes sender receiver) :=
  decidable_of_iff ((sender.status = .active ∧ receiver.status = .active) ∧
      (sender.currency = dto.currency ∧ receiver.currency = dto.currency) ∧
        dto.amount.decimal ≤ sender.availableBalance ∧
      Decimal.fits dto.amount.decimal ∧ (dto.debited sender).fits ∧ (dto.credited receiver).fits)
    ⟨fun ⟨active, currency, sufficient, fits⟩ => ⟨active, currency, sufficient, fits⟩,
      fun ⟨active, currency, sufficient, fits⟩ => ⟨active, currency, sufficient, fits⟩⟩

/-- Alice sends Bob two of her five dollars. -/
theorem transfer_settles_sample : ∃ dto : TransferDto, ∃ σ result σ',
    (TransactionService.transfer "user-alice" dto).Runs (Reliable 0) σ result σ' ∧
      ∃ response, result = .ok response := by
  let dto : TransferDto := ⟨⟨20000, by decide⟩, .usd, "transfer", "user-bob", none⟩
  obtain ⟨w, _, unused, passes⟩ := Schedule.reachable
    [Schedule.registers "alice", Schedule.registers "bob", Schedule.deposits "alice",
      Schedule.polls (.ok Schedule.charged) [.answer { draw := .labelled "settlement" }, .commit]]
    (fun σ => ¬ σ.db.transactions.Has Transaction.index dto.idempotencyKey ∧
      (σ.db.walletOf "user-alice").any fun sender =>
      (σ.db.walletOf "user-bob").any fun receiver => dto.Passes sender receiver) (by decide +kernel)
  obtain ⟨sender, payer, passes⟩ := (Option.any_eq_true ..).mp passes
  obtain ⟨receiver, payee, passes⟩ := (Option.any_eq_true ..).mp passes
  obtain ⟨⟨result, σ', run⟩, ends⟩ := transfer_settles 0 "user-alice" dto w.shared unused
  have able : Transferable w.shared.db "user-alice" dto :=
    ⟨by decide, sender, receiver, payer, payee, of_decide_eq_true passes⟩
  exact ⟨dto, w.shared, result, σ', run, (ends result σ' run).1.mpr able⟩

end PaymentWallet
