import PaymentWallet.Foundation.World

/-! Proof outlines. Each operation of a program has an assertion, which holds whenever a process
is about to perform it: what the process did before leads there, and the steps of others leave it
alone while the process waits. Unlike a fact that a process knows, it need not last any longer. -/
namespace Foundation

section Outlines
variable {Op T ε α β : Type} {Reply : Op → Type}

/-- What is asserted where the program stands. -/
def Program.At (asserts : Op → T → Prop) (post : Except ε α → T → Prop) :
    Program Op Reply ε α → T → Prop
  | .pure value => post (.ok value)
  | .throw error => post (.error error)
  | .call op _ => asserts op

/-- Each operation leads from its assertion to what is asserted next. -/
def Program.Outlined (does : (op : Op) → T → Reply op → T → Prop) (asserts : Op → T → Prop)
    (post : Except ε α → T → Prop) : Program Op Reply ε α → Prop
  | .pure _ | .throw _ => True
  | .call op next => ∀ reply,
    (∀ t t', asserts op t → does op t reply t' → (next reply).At asserts post t') ∧
      (next reply).Outlined does asserts post

variable {does : (op : Op) → T → Reply op → T → Prop} {asserts : Op → T → Prop}
  {post : Except ε β → T → Prop} {p : Program Op Reply ε α} {f : α → Program Op Reply ε β}

/-- What is asserted between a program and its sequel. -/
def Program.Between (asserts : Op → T → Prop) (post : Except ε β → T → Prop)
    (f : α → Program Op Reply ε β) : Except ε α → T → Prop
  | .ok value => (f value).At asserts post
  | .error error => post (.error error)

theorem Program.at_bind : (p.bind f).At asserts post = p.At asserts (Between asserts post f) := by
  cases p <;> rfl

/-- Where nothing is asserted. -/
theorem Program.at_of_all {post : Except ε α → T → Prop} {t : T}
    (all : p.All fun op => ∀ t, asserts op t) (ends : ∀ result, post result t) :
    p.At asserts post t := by
  cases p with
  | pure value => exact ends _
  | throw error => exact ends _
  | call op next => exact all.1 t

namespace Program.Outlined

theorem bind (first : p.Outlined does asserts (Between asserts post f))
    (rest : ∀ value, (f value).Outlined does asserts post) :
    (p.bind f).Outlined does asserts post := by
  induction p with
  | pure value => exact rest value
  | throw error => trivial
  | call op next ih =>
    exact fun reply => ⟨fun t t' holds done => at_bind ▸ (first reply).1 t t' holds done,
      ih reply (first reply).2⟩

theorem of_all {post : Except ε α → T → Prop} (all : p.All fun op => ∀ t, asserts op t)
    (ends : ∀ result t, post result t) : p.Outlined does asserts post := by
  induction p with
  | pure value => trivial
  | throw error => trivial
  | call op next ih =>
    exact fun reply => ⟨fun _ t' _ _ => at_of_all (all.2 reply) fun result => ends result t',
      ih reply (all.2 reply)⟩

end Program.Outlined
end Outlines

namespace System
variable {D W S K ε C X Ext Req Resp : Type} {R : S → Type} {Out : C → Type} {Y : X → Type}
  {M : System D W S R K ε C Out X Y Ext Req Resp} {permit : Shared D C Ext → Label C X Req ε → Prop}
  {w w' : World D W S R K ε C Out X Y Ext Req Resp}
  {does : (op : ServiceOp C X) → Shared D C Ext → Except ε (op.Result Out Y) →
    Shared D C Ext → Prop}
  {asserts : Req → ServiceOp C X → Shared D C Ext → Prop}
  {post : Req → Except ε Resp → Shared D C Ext → Prop}

/-- What the operations do in this world. -/
structure Performs (M : System D W S R K ε C Out X Y Ext Req Resp)
    (does : (op : ServiceOp C X) → Shared D C Ext → Except ε (op.Result Out Y) →
      Shared D C Ext → Prop)
    (w : World D W S R K ε C Out X Y Ext Req Resp) : Prop where
  outside : ∀ {pid x reply ext}, M.outside pid x w.shared.db w.shared.ext reply ext →
    does (.outside x) w.shared reply { w.shared with ext := ext }
  commit : ∀ {pid request c value writes held next},
    w.procs pid = some (request, .inTx c (.pure value) writes held next) →
    does (.transact c) w.shared (.ok value)
      (w.shared.commit c (M.engine.view w.shared.db writes))
  failed : ∀ {c error σ σ'}, does (.transact c) σ (.error error) σ'

/-- A process keeps to its outline, and what is asserted of its next operation holds. -/
structure Abides (does : (op : ServiceOp C X) → Shared D C Ext → Except ε (op.Result Out Y) →
      Shared D C Ext → Prop)
    (asserts : Req → ServiceOp C X → Shared D C Ext → Prop)
    (post : Req → Except ε Resp → Shared D C Ext → Prop) (σ : Shared D C Ext) (request : Req)
    (phase : Phase W S R K ε C Out X Y Resp) : Prop where
  outlined : phase.residual.Outlined does (asserts request) (post request)
  asserted : ∀ op next, phase.residual = .call op next → asserts request op σ

/-- One step keeps the processes to their outlines, and the one that moves gets to what is
asserted there. -/
theorem Step.abides (taken : M.Step permit w w') (performs : M.Performs does w)
    (starts : ∀ request, (M.handler request).Outlined does (asserts request) (post request) ∧
      ∀ σ, (M.handler request).At (asserts request) (post request) σ)
    (stable : ∀ pid request phase op next, w.procs pid = some (request, phase) →
      w'.procs pid = w.procs pid → phase.residual = .call op next →
      asserts request op w.shared → asserts request op w'.shared)
    (abides : ∀ pid request phase, w.procs pid = some (request, phase) →
      Abides does asserts post w.shared request phase)
    (pid : Nat) (request : Req) (phase : Phase W S R K ε C Out X Y Resp)
    (found : w'.procs pid = some (request, phase)) :
    Abides does asserts post w'.shared request phase ∧
      (w'.procs pid ≠ w.procs pid →
        phase.residual.At (asserts request) (post request) w'.shared) := by
  -- who stands where something is asserted, keeps to the outline from there
  have arrives : phase.residual.Outlined does (asserts request) (post request) →
      phase.residual.At (asserts request) (post request) w'.shared →
      Abides does asserts post w'.shared request phase ∧ (w'.procs pid ≠ w.procs pid →
        phase.residual.At (asserts request) (post request) w'.shared) := by
    refine fun outlined stands => ⟨⟨outlined, fun op next same => ?_⟩, fun _ => stands⟩
    rw [same] at stands
    exact stands
  rcases taken.acts pid with same | ⟨_, _, _, started⟩ | ⟨_, old, new, was, now, acts⟩
  · have before := same ▸ found
    obtain ⟨outlined, asserted⟩ := abides pid request phase before
    exact ⟨⟨outlined, fun op next at_ => stable pid request phase op next before same at_
      (asserted op next at_)⟩, fun moved => absurd same moved⟩
  · cases started.symm.trans found
    exact arrives (starts request).1 ((starts request).2 _)
  · cases now.symm.trans found
    obtain ⟨outlined, asserted⟩ := abides pid request old was
    generalize w'.shared = σ at arrives acts
    cases acts with
    | outside replied =>
      have done := performs.outside replied
      exact arrives (outlined _).2 ((outlined _).1 _ _ (asserted _ _ rfl) done)
    | begin | read | write => exact arrives outlined (asserted _ _ rfl)
    | commit =>
      exact arrives (outlined _).2 ((outlined _).1 _ _ (asserted _ _ rfl) (performs.commit was))
    | lost | abort =>
      exact arrives (outlined _).2 ((outlined _).1 _ _ (asserted _ _ rfl) performs.failed)

end System
end Foundation
