import PaymentWallet.Accounting.Directory
import PaymentWallet.Guarantees.Accounts
import PaymentWallet.Service.Invariants

/-! Who the users are and what they can hold. No interleaving of registrations and updates
makes two users share what identifies one, or leaves a user without his one wallet. -/
namespace PaymentWallet
open Foundation Schedule

variable {w : State}

/-- What holds of the directory between any two steps. -/
theorem Reachable.directory (run : Reachable w) : w.shared.db.Indexed ∧ w.shared.db.Enrolled := by
  refine invariant_of_reaches (F := fun σ => σ.db.Indexed ∧ σ.db.Enrolled) ?_ ?_ ?_ run
  · exact ⟨.empty, .empty⟩
  · exact fun kept _ => kept
  · intro σ pid c kept answerable _ ready _
    have body := Engine.wp_and (ready.enrols answerable.1.books) (ensures_indexed c.code kept.1)
    refine Ensures.mono body fun _ d' both _ _ => ⟨both.2, ?_⟩
    rcases both.1 with enrols | same
    · exact kept.2.enrols enrols
    · exact kept.2.same same

/-- Both could be meant by one email address, phone number or account elsewhere. -/
def User.Confused (user other : User) : Prop :=
  user.email = other.email ∨ user.phone = other.phone ∨
  (user.braintreeCustomerId.isSome ∧ user.braintreeCustomerId = other.braintreeCustomerId) ∨
  (user.stripeConnectAccountId.isSome ∧
    user.stripeConnectAccountId = other.stripeConnectAccountId) ∨
  (user.paypalEmail.isSome ∧ user.paypalEmail = other.paypalEmail)

theorem User.Confused.entry {user other : User} (confused : user.Confused other) :
    ∃ entry ∈ user.index, entry ∈ other.index := by
  have linked : ∀ (column : String) {field : User → Option String}, (field user).isSome ∧
      field user = field other →
      (∀ u : User, ∀ value, field u = some value → (column, value) ∈ u.index) →
        ∃ entry ∈ user.index, entry ∈ other.index := by
    intro column field same listed
    obtain ⟨value, here⟩ := Option.isSome_iff_exists.mp same.1
    exact ⟨(column, value), listed user value here, listed other value (same.2 ▸ here)⟩
  rcases confused with email | phone | braintree | stripe | paypal
  · exact ⟨("email", user.email), by simp [User.index], by simp [User.index, email]⟩
  · exact ⟨("phone", user.phone), by simp [User.index], by simp [User.index, phone]⟩
  · exact linked "braintreeCustomerId" braintree fun u value here => by simp [User.index, here]
  · exact linked "stripeConnectAccountId" stripe fun u value here => by simp [User.index, here]
  · exact linked "paypalEmail" paypal fun u value here => by simp [User.index, here]

/-- Users, what identifies them, and wallets are in one-to-one correspondence. -/
theorem directory_one_to_one (run : Reachable w) :
    (∀ user ∈ w.shared.db.users.rows, ∃! wallet, wallet ∈ w.shared.db.wallets.rows ∧
      wallet.userId = user.id) ∧
    (∀ wallet ∈ w.shared.db.wallets.rows, ∃! user, user ∈ w.shared.db.users.rows ∧
      user.id = wallet.userId) ∧
    ∀ user ∈ w.shared.db.users.rows, ∀ other ∈ w.shared.db.users.rows,
      user.Confused other → user = other := by
  obtain ⟨indexed, enrolled⟩ := run.directory
  constructor
  · intro user member
    obtain ⟨id, wallet, found, owns⟩ :=
      enrolled.wallet user.id (by rw [Table.get?_of_mem member]; rfl)
    refine ⟨wallet, ⟨Table.get?_mem found, owns⟩, ?_⟩
    rintro other ⟨listed, owns'⟩
    exact indexed.wallets other listed wallet (Table.get?_mem found) user.id
      (by simp [Wallet.index, owns']) (by simp [Wallet.index, owns])
  constructor
  · intro wallet member
    obtain ⟨user, found⟩ :=
      Option.isSome_iff_exists.mp (enrolled.owner wallet.id wallet (Table.get?_of_mem member))
    refine ⟨user, ⟨Table.get?_mem found, Table.get?_key found⟩, ?_⟩
    rintro other ⟨listed, same⟩
    exact Table.eq_of_key listed (Table.get?_mem found) (same.trans (Table.get?_key found).symm)
  · intro user member other listed confused
    obtain ⟨entry, here, there⟩ := confused.entry
    exact indexed.users user member other listed entry here there

/-- Two people register, and the second keeps trying with the first one's phone number. -/
theorem directory_one_to_one_registered : ∃ w, Reachable w ∧ w.shared.db.users.rows.length = 2 ∧
    (∀ user ∈ w.shared.db.users.rows, ∃! wallet, wallet ∈ w.shared.db.wallets.rows ∧
      wallet.userId = user.id) ∧
    (∀ wallet ∈ w.shared.db.wallets.rows, ∃! user, user ∈ w.shared.db.users.rows ∧
      user.id = wallet.userId) ∧
    ∀ user ∈ w.shared.db.users.rows, ∀ other ∈ w.shared.db.users.rows,
      user.Confused other → user = other := by
  obtain ⟨w, run, two⟩ := Schedule.reachable
    [registers "alice", (.register ⟨"bob", "bob", "alice", ""⟩,
      [.answer { draw := .labelled "again" }, .fail]), registers "bob"]
    (fun σ => σ.db.users.rows.length = 2) (by decide +kernel)
  exact ⟨w, run, two, directory_one_to_one run⟩

/-- Nothing in the code writes the currency or the status of a wallet after its creation, so the
guards on them let every wallet pass and every amount in dollars. -/
theorem wallets_plain (run : Reachable w) :
    (∀ wallet ∈ w.shared.db.wallets.rows, WalletRepository.assertActive wallet = pure () ∧
      ∀ currency, (WalletRepository.assertCurrencyMatch wallet currency = pure () ↔
        currency = .usd)) ∧
    (∀ t ∈ w.shared.db.transactions.rows, t.currency = .usd) ∧ ∀ e ∈ w.shared.db.ledgerEntries.rows,
      e.currency = .usd := by
  have plain := run.directory.2.plain
  have dollars : ∀ t ∈ w.shared.db.transactions.rows, t.currency = .usd := by
    intro t member
    have dossier := run.books.dossiers t member
    obtain ⟨id, party⟩ : ∃ id, id ∈ t.parties := by
      have shaped := dossier.shaped
      unfold Transaction.Shaped at shaped
      split at shaped
      · obtain ⟨id, there⟩ := Option.isSome_iff_exists.mp shaped.2
        exact ⟨id, by simp [Transaction.parties, there]⟩
      · obtain ⟨id, there⟩ := Option.isSome_iff_exists.mp shaped.1
        exact ⟨id, by simp [Transaction.parties, there]⟩
      · obtain ⟨id, there⟩ := Option.isSome_iff_exists.mp shaped.1
        exact ⟨id, by simp [Transaction.parties, there]⟩
    obtain ⟨wallet, found, currency⟩ := dossier.known id party
    exact currency.symm.trans (plain id wallet found).1
  refine ⟨fun wallet member => ?_, dollars, fun e member => ?_⟩
  · obtain ⟨usd, active⟩ := plain wallet.id wallet (Table.get?_of_mem member)
    constructor
    · simp [WalletRepository.assertActive, active]
    · intro currency
      simp only [WalletRepository.assertCurrencyMatch, usd]
      cases currency <;> simp [Program.throw_def]
  · obtain ⟨t, found⟩ := Option.isSome_iff_exists.mp (run.books.entries_known e member)
    have entries := (run.books.dossiers t (Table.get?_mem found)).entries
    have listed : e.posting ∈ (w.shared.db.entriesOf t.id).map (·.posting) :=
      List.mem_map_of_mem (List.mem_filter.mpr ⟨member, by simp [Table.get?_key found]⟩)
    rw [entries] at listed
    have currency : e.currency = t.currency := by
      unfold Transaction.image at listed
      split at listed
      · cases kind : t.type <;> simp only [kind, List.mem_cons,
          List.not_mem_nil, or_false] at listed
        · exact congrArg Posting.currency listed
        · exact congrArg Posting.currency listed
        · exact listed.elim (congrArg Posting.currency) (congrArg Posting.currency)
      · cases listed
    exact currency.trans (dollars t (Table.get?_mem found))

/-- A deposit is settled into the wallet of a user who has been frozen meanwhile. -/
theorem wallets_plain_frozen :
    ∃ w, Reachable w ∧ (∃ user ∈ w.shared.db.users.rows, user.status = .frozen) ∧
    (∃ t ∈ w.shared.db.transactions.rows, t.status = .settled) ∧
    (∀ wallet ∈ w.shared.db.wallets.rows, WalletRepository.assertActive wallet = pure () ∧
      ∀ currency, (WalletRepository.assertCurrencyMatch wallet currency = pure () ↔
        currency = .usd)) ∧
    (∀ t ∈ w.shared.db.transactions.rows, t.currency = .usd) ∧ ∀ e ∈ w.shared.db.ledgerEntries.rows,
      e.currency = .usd := by
  obtain ⟨w, run, frozen, settled⟩ := Schedule.reachable
    [registers "alice", deposits "alice",
      (.updateUserStatus "admin" "user-alice" (some .frozen) none,
        [.answer {}, .commit, .answer {}]),
      polls (.ok charged) [.answer {}, .commit]]
    (fun σ => (∃ user ∈ σ.db.users.rows, user.status = .frozen) ∧
      ∃ t ∈ σ.db.transactions.rows, t.status = .settled)
    (by decide +kernel)
  exact ⟨w, run, frozen, settled, wallets_plain run⟩

end PaymentWallet
