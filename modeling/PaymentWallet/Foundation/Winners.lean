import PaymentWallet.Foundation.World

/-! Responses that stand for a commit. Where a response that `won` follows only from
the commit of a `ticket`, and at most one ticket is ever committed, at most one
process ends with such a response. -/
namespace Foundation

variable {D W S K ε C X Ext Req Resp : Type} {R : S → Type} {Out : C → Type} {Y : X → Type}

/-- The program ends in a response that won only straight after committing a ticket. -/
def Earns (ticket : C → Bool) (won : Resp → Prop) : Service C X Out Y ε Resp → Prop
  | .pure response => ¬ won response
  | .throw _ => True
  | .call (.outside _) next => ∀ reply, Earns ticket won (next reply)
  | .call (.transact c) next =>
    (∀ value, Earns ticket won (next (.ok value)) ∨ ticket c ∧
      ∃ response, next (.ok value) = .pure response) ∧
    ∀ error, Earns ticket won (next (.error error))

/-- The process has ended with a response that won. -/
def World.Won (won : Req → Resp → Prop) (w : World D W S R K ε C Out X Y Ext Req Resp)
    (pid : Nat) : Prop :=
  ∃ request response, w.procs pid = some (request, .running (.pure response)) ∧ won request response

structure World.Fair (ticket : C → Bool) (won : Req → Resp → Prop)
    (w : World D W S R K ε C Out X Y Ext Req Resp) : Prop where
  earns : ∀ {pid request phase}, w.procs pid = some (request, phase) →
    Earns ticket (won request) phase.residual ∨ w.Won won pid
  paid : ∀ {pid}, w.Won won pid → 0 < w.shared.log.countP ticket
  unique : ∀ {pid other}, w.Won won pid → w.Won won other → pid = other

namespace World.Fair
variable {M : System D W S R K ε C Out X Y Ext Req Resp}
  {permit : Shared D C Ext → Label C X Req ε → Prop} {ticket : C → Bool} {won : Req → Resp → Prop}
  {w w' : World D W S R K ε C Out X Y Ext Req Resp} {pid : Nat} {request : Req}

theorem init (db : D) (ext : Ext) :
    Fair ticket won (World.init db ext : World D W S R K ε C Out X Y Ext Req Resp) where
  earns h := by cases h
  paid := by
    rintro pid ⟨_, _, h, _⟩
    cases h
  unique := by
    rintro pid other ⟨_, _, h, _⟩
    cases h

/-- A process that can still move has not won. -/
theorem earning (fair : Fair ticket won w) {phase : Phase W S R K ε C Out X Y Resp}
    (found : w.procs pid = some (request, phase))
    (unfinished : ∀ response, phase ≠ .running (.pure response)) :
    Earns ticket (won request) phase.residual := by
  rcases fair.earns found with earns | ⟨_, response, found', _⟩
  · exact earns
  · cases found.symm.trans found'
    exact absurd rfl (unfinished response)

/-- One process moves; it wins only with the first ticket. -/
theorem set (fair : Fair ticket won w) (σ : Shared D C Ext) {phase : Phase W S R K ε C Out X Y Resp}
    (more : w.shared.log.countP ticket ≤ σ.log.countP ticket)
    (moves : Earns ticket (won request) phase.residual ∨
      (∃ response, phase = .running (.pure response)) ∧ w.shared.log.countP ticket = 0 ∧
        0 < σ.log.countP ticket) :
    Fair ticket won (World.set { w with shared := σ } pid request phase) := by
  have elsewhere : ∀ {other}, other ≠ pid → (World.Won won w other ↔
      World.Won won (World.set { w with shared := σ } pid request phase) other) := by
    intro other different
    simp only [Won, World.set_other _ _ _ different]
  have here : World.Won won (World.set { w with shared := σ } pid request phase) pid →
      w.shared.log.countP ticket = 0 ∧ 0 < σ.log.countP ticket := by
    rintro ⟨request', response, found, wins⟩
    rw [World.set_same] at found
    cases found
    rcases moves with earns | ⟨_, first⟩
    · exact absurd wins earns
    · exact first
  have alone : ∀ {other}, w.shared.log.countP ticket = 0 →
      ¬ World.Won won w other := fun none wins => by
    have paid := fair.paid wins
    omega
  constructor
  · intro other request' phase' found
    by_cases same : other = pid
    · subst same
      cases (World.set_same _ _ _ _).symm.trans found
      rcases moves with earns | ⟨⟨response, rfl⟩, _⟩
      · exact .inl earns
      · by_cases wins : won request response
        · exact .inr ⟨request, response, World.set_same .., wins⟩
        · exact .inl wins
    · rw [World.set_other _ _ _ same] at found
      exact (fair.earns found).imp_right (elsewhere same).mp
  · intro other wins
    by_cases same : other = pid
    · exact (here (same ▸ wins)).2
    · exact Nat.lt_of_lt_of_le (fair.paid ((elsewhere same).mpr wins)) more
  · intro first second left right
    by_cases hf : first = pid <;> by_cases hs : second = pid
    · exact hf.trans hs.symm
    · exact absurd ((elsewhere hs).mpr right) (alone (here (hf ▸ left)).1)
    · exact absurd ((elsewhere hf).mpr left) (alone (here (hs ▸ right)).1)
    · exact fair.unique ((elsewhere hf).mpr left) ((elsewhere hs).mpr right)

theorem step (starts : ∀ request, Earns ticket (won request) (M.handler request))
    (limit : w'.shared.log.countP ticket ≤ 1) (fair : Fair ticket won w)
    (taken : M.Step permit w w') :
    Fair ticket won w' := by
  have log : ∀ c : C, (w.shared.log ++ [c]).countP ticket = w.shared.log.countP ticket +
      if ticket c then 1 else 0 := by
    simp [List.countP_singleton]
  cases taken with
  | start idle permitted => exact fair.set w.shared (Nat.le_refl _) (.inl (starts _))
  | outside found permitted replied =>
    have earns := fair.earning found fun _ => by simp
    exact fair.set _ (Nat.le_refl _) (.inl (earns _))
  | begin found =>
    have earns := fair.earning found fun _ => by simp
    exact fair.set w.shared (Nat.le_refl _) (.inl earns)
  | read found plain exec =>
    have earns := fair.earning found fun _ => by simp
    exact fair.set w.shared (Nat.le_refl _) (.inl earns)
  | write found locked free exec =>
    have earns := fair.earning found fun _ => by simp
    exact fair.set w.shared (Nat.le_refl _) (.inl earns)
  | @commit request pid c _ writes next value held found permitted =>
    have earns := fair.earning found fun _ => by simp
    refine fair.set _ (by simp only [Shared.commit, log]; omega)
      ((earns.1 value).imp_right fun won => ?_)
    obtain ⟨ticketed, response, next_⟩ := won
    simp only [World.set, Shared.commit, log, ticketed, if_true] at limit ⊢
    exact ⟨⟨response, congrArg _ next_⟩, by omega, by omega⟩
  | lost found permitted =>
    have earns := fair.earning found fun _ => by simp
    exact fair.set _ (by simp only [Shared.commit, log]; omega) (.inl (earns.2 _))
  | abort found aborts permitted =>
    have earns := fair.earning found fun _ => by simp
    exact fair.set w.shared (Nat.le_refl _) (.inl (earns.2 _))
  | drift permitted drifted => exact ⟨fair.earns, fair.paid, fair.unique⟩

theorem reaches (starts : ∀ request, Earns ticket (won request) (M.handler request))
    (limit : ∀ w', M.Reaches permit w w' → w'.shared.log.countP ticket ≤ 1)
    (fair : Fair ticket won w) (run : M.Reaches permit w w') : Fair ticket won w' := by
  induction run with
  | refl => exact fair
  | tail before last ih => exact ih.step starts (limit _ (before.tail last)) last

end World.Fair
end Foundation
