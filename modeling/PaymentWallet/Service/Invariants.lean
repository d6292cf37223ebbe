import PaymentWallet.Service.Accountability

/-! Invariants of the runs from an empty database. A step moves the external state, or
commits a transaction that does what its body does alone; whatever both kinds of step keep
holds in every state that is reached. -/
namespace PaymentWallet
open Foundation

variable {permit : Permit} {w w' : State}

theorem grown_of_reaches (run : system.Reaches permit (World.init DB.empty Ext.idle) w)
    (later : system.Reaches permit w w') :
    Grown w.shared w'.shared :=
  related_of_reaches Grown.refl Grown.trans (fun _ => Move.grown) run later

/-- A step of a run moves the external state, or it is a commit that is answerable for. -/
theorem happens_of_reaches (run : system.Reaches permit (World.init DB.empty Ext.idle) w)
    (taken : system.Step permit w w') :
    (∃ ext, w'.shared = { w.shared with ext := ext } ∧
      ∀ call ∈ w.shared.ext.calls, call ∈ ext.calls) ∨
    ∃ pid c value d', (permit w.shared (.commit pid c) ∨ permit w.shared (.lost pid c)) ∧
      c.Ready w.shared ∧
      c.Cites w.shared.ext.calls ∧ w'.shared = w.shared.commit c d' ∧
        ∀ Q, Ensures w.shared.db c.code w.shared.db Q → Q value d' := by
  have safe := accountable_of_reaches run
  have grown := grown_of_reaches run (.single taken)
  rcases safe.committed taken with ⟨db, log⟩ | ⟨pid, c, value, d', permitted, shared, guar, body⟩
  · refine .inl ⟨w'.shared.ext, ?_, grown.calls⟩
    generalize w.shared = σ at db log ⊢
    generalize w'.shared = σ' at db log ⊢
    cases σ
    cases σ'
    cases db
    cases log
    rfl
  · generalize after : w.shared.commit c d' = σ at guar
    cases guar with
    | @commit other db₁ _ ready cites =>
      have same := congrArg Shared.log after
      have db := congrArg Shared.db after
      obtain ⟨rfl⟩ : c = other := by simpa [Shared.commit] using same
      exact .inr ⟨pid, c, value, d', permitted, ready, cites, shared, body⟩
    | call | other =>
      have longer := congrArg (List.length ∘ Shared.log) after
      simp [Shared.commit] at longer

/-- What outside steps and commits keep is invariant. -/
theorem invariant_of_reaches {F : SharedState → Prop} (init : F ⟨DB.empty, [], Ext.idle⟩)
    (outside : ∀ {σ ext}, F σ → (∀ call ∈ σ.ext.calls, call ∈ ext.calls) → F { σ with ext := ext })
    (commits : ∀ {σ pid c}, F σ → Answerable σ → permit σ (.commit pid c) ∨
      permit σ (.lost pid c) → c.Ready σ →
      c.Cites σ.ext.calls → Ensures σ.db c.code σ.db fun _ d' => c.Effect σ.db d' →
        σ.db.Keeps d' → F (σ.commit c d'))
    (run : system.Reaches permit (World.init DB.empty Ext.idle) w) : F w.shared := by
  induction run with
  | refl => exact init
  | tail earlier last ih =>
    have answerable := (accountable_of_reaches earlier).inv
    rcases happens_of_reaches earlier last with ⟨ext, shared, more⟩ |
      ⟨pid, c, value, d', permitted, ready, cites, shared, body⟩
    · exact shared ▸ outside ih more
    · obtain ⟨effect, keeps⟩ := body _ (ready.commits answerable.1.books)
      exact shared ▸ body _ (commits ih answerable permitted ready cites) effect keeps

end PaymentWallet
