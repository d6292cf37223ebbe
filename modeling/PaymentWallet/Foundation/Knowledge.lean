import PaymentWallet.Foundation.World

/-! What service programs know. A fact that lasts, once a reply has told it, is at hand in
all that follows: for what an operation needs to be done rightly, and for what the result
says. No process has to promise anything for it, unlike in rely-guarantee reasoning. -/
namespace Foundation

variable {Op T ε α β : Type} {Reply : Op → Type}

/-- What the replies have `told` by then is enough for what each
operation `needs`, and for `post`. -/
def Program.Informed (told : (op : Op) → Reply op → T → Prop) (needs : Op → T → Prop)
    (post : Except ε α → T → Prop) :
    (T → Prop) → Program Op Reply ε α → Prop
  | facts, .pure value => ∀ t, facts t → post (.ok value) t
  | facts, .throw error => ∀ t, facts t → post (.error error) t
  | facts, .call op next => (∀ t, facts t → needs op t) ∧
    ∀ reply, (next reply).Informed told needs post fun t => facts t ∧ told op reply t

namespace Program.Informed
variable {told : (op : Op) → Reply op → T → Prop} {needs : Op → T → Prop}
  {post : Except ε α → T → Prop} {facts facts' : T → Prop} {p : Program Op Reply ε α}

theorem mono {post' : Except ε α → T → Prop} (informed : p.Informed told needs post facts)
    (knows : ∀ t, facts' t → facts t)
    (weaker : ∀ result t, facts' t → post result t → post' result t) :
    p.Informed told needs post' facts' := by
  induction p generalizing facts facts' with
  | pure value => exact fun t known => weaker _ t known (informed t (knows t known))
  | throw error => exact fun t known => weaker _ t known (informed t (knows t known))
  | call op next ih =>
    refine ⟨fun t known => informed.1 t (knows t known), fun reply => ?_⟩
    exact ih reply (informed.2 reply) (fun t known => ⟨knows t known.1, known.2⟩)
      fun result t known => weaker result t known.1

/-- Between the two parts the first has its say. -/
theorem bind {middle : Except ε α → T → Prop} {post : Except ε β → T → Prop}
    {f : α → Program Op Reply ε β}
    (first : p.Informed told needs middle facts)
    (rest : ∀ value, (f value).Informed told needs post (middle (.ok value)))
    (fails : ∀ error t, middle (.error error) t → post (.error error) t) :
    (p.bind f).Informed told needs post facts := by
  induction p generalizing facts with
  | pure value => exact (rest value).mono first fun _ _ _ => id
  | throw error => exact fun t known => fails error t (first t known)
  | call op next ih => exact ⟨first.1, fun reply => ih reply (first.2 reply)⟩

theorem handle {middle : Except ε α → T → Prop} {h : ε → Program Op Reply ε α}
    (first : p.Informed told needs middle facts)
    (returns : ∀ value t, middle (.ok value) t → post (.ok value) t)
    (handler : ∀ error, (h error).Informed told needs post (middle (.error error))) :
    (p.handle h).Informed told needs post facts := by
  induction p generalizing facts with
  | pure value => exact fun t known => returns value t (first t known)
  | throw error => exact (handler error).mono first fun _ _ _ => id
  | call op next ih => exact ⟨first.1, fun reply => ih reply (first.2 reply)⟩

/-- Operations that need nothing, and facts that are not lost on the way. -/
theorem of_all (all : p.All fun op => ∀ t, needs op t) :
    p.Informed told needs (fun _ => facts) facts := by
  induction p generalizing facts with
  | pure value => exact fun _ => id
  | throw error => exact fun _ => id
  | call op next ih =>
    exact ⟨fun t _ => all.1 t, fun reply =>
      (ih reply (all.2 reply)).mono (fun _ => id) fun _ t known _ => known.1⟩

/-- A beginning that needs nothing may be followed by anything. -/
theorem after {post : Except ε β → T → Prop} {f : α → Program Op Reply ε β}
    (all : p.All fun op => ∀ t, needs op t)
    (rest : ∀ value, (f value).Informed told needs post facts)
    (fails : ∀ error t, facts t → post (.error error) t) :
    (p.bind f).Informed told needs post facts :=
  (of_all all).bind rest fails

end Program.Informed

namespace System
variable {D W S K C X Ext Req Resp : Type} {R : S → Type} {Out : C → Type} {Y : X → Type}
  {M : System D W S R K ε C Out X Y Ext Req Resp} {permit : Shared D C Ext → Label C X Req ε → Prop}
  {start w w' : World D W S R K ε C Out X Y Ext Req Resp}
  {told : (op : ServiceOp C X) → Except ε (op.Result Out Y) → Shared D C Ext → Prop}
  {needs : ServiceOp C X → Shared D C Ext → Prop}
  {post : Req → Except ε Resp → Shared D C Ext → Prop}

/-- A fact that no step from a world of these runs undoes. -/
def Lasts (M : System D W S R K ε C Out X Y Ext Req Resp)
    (permit : Shared D C Ext → Label C X Req ε → Prop)
    (start : World D W S R K ε C Out X Y Ext Req Resp) (fact : Shared D C Ext → Prop) : Prop :=
  ∀ w w', M.Reaches permit start w → M.Step permit w w' → fact w.shared → fact w'.shared

/-- What the replies tell is true, and lasts. -/
structure Teaches (M : System D W S R K ε C Out X Y Ext Req Resp)
    (permit : Shared D C Ext → Label C X Req ε → Prop)
    (start : World D W S R K ε C Out X Y Ext Req Resp)
    (told : (op : ServiceOp C X) → Except ε (op.Result Out Y) → Shared D C Ext → Prop) : Prop where
  lasts : ∀ op reply, M.Lasts permit start (told op reply)
  outside : ∀ {w pid x reply ext}, M.Reaches permit start w →
    M.outside pid x w.shared.db w.shared.ext reply ext →
    told (.outside x) reply { w.shared with ext := ext }
  commit : ∀ {w pid request c value writes held next}, M.Reaches permit start w →
    w.procs pid = some (request, .inTx c (.pure value) writes held next) →
    told (.transact c) (.ok value) (w.shared.commit c (M.engine.view w.shared.db writes))
  failed : ∀ {c error σ}, told (.transact c) (.error error) σ

/-- A process knows enough for what it has still to do. -/
def Knows (M : System D W S R K ε C Out X Y Ext Req Resp)
    (permit : Shared D C Ext → Label C X Req ε → Prop)
    (start : World D W S R K ε C Out X Y Ext Req Resp)
    (told : (op : ServiceOp C X) → Except ε (op.Result Out Y) → Shared D C Ext → Prop)
    (needs : ServiceOp C X → Shared D C Ext → Prop)
    (post : Req → Except ε Resp → Shared D C Ext → Prop) (σ : Shared D C Ext) (request : Req)
    (phase : Phase W S R K ε C Out X Y Resp) : Prop :=
  ∃ facts, facts σ ∧ M.Lasts permit start facts ∧
    phase.residual.Informed told needs (post request) facts

/-- Processes that start informed stay so. -/
theorem Teaches.knows (teaches : M.Teaches permit start told) (idle : ∀ pid, start.procs pid = none)
    (informed : ∀ request, (M.handler request).Informed told needs (post request) fun _ => True)
    (run : M.Reaches permit start w) :
    ∀ pid request phase, w.procs pid = some (request, phase) →
      M.Knows permit start told needs post w.shared request phase := by
  refine run.keeps (F := fun σ _ request phase =>
    M.Knows permit start told needs post σ request phase) ?_ ?_ ?_ ?_
  · exact fun {_ _ request} _ => ⟨_, trivial, fun _ _ _ _ _ => trivial, informed request⟩
  · rintro w₁ w₂ pid request phase earlier last ⟨facts, known, lasts, rest⟩
    exact ⟨facts, lasts w₁ w₂ earlier last known, lasts, rest⟩
  · rintro w₁ w₂ pid request phase phase' earlier last found ⟨facts, known, lasts, rest⟩ acts
    have known' := lasts w₁ w₂ earlier last known
    have learns : ∀ {op : ServiceOp C X} {reply : Except ε (op.Result Out Y)}
        {next : Except ε (op.Result Out Y) → Service C X Out Y ε Resp},
        (Program.call op next).Informed told needs (post request) facts → told op reply w₂.shared →
        M.Knows permit start told needs post w₂.shared request (.running (next reply)) := by
      intro op reply next rest tells
      refine ⟨_, ⟨known', tells⟩, ?_, rest.2 reply⟩
      exact fun w w' run step both =>
        ⟨lasts w w' run step both.1, teaches.lasts op reply w w' run step both.2⟩
    generalize shared : w₂.shared = σ at acts learns known' ⊢
    cases acts with
    | outside replied => exact learns rest (teaches.outside earlier replied)
    | begin | read | write => exact ⟨facts, known', lasts, rest⟩
    | commit => exact learns rest (teaches.commit earlier found)
    | lost | abort => exact learns rest teaches.failed
  · intro pid request phase found
    cases (idle pid).symm.trans found

end System
end Foundation
