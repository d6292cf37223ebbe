import PaymentWallet.Connect.Services
import PaymentWallet.Accounting.Contracts
import PaymentWallet.Concurrency.Locks
import PaymentWallet.Concurrency.Reads

/-! What onboarding processes write. A process writes exactly the link that its last step
outside the database left it with: the id of the account it just created, or none for the
user it just looked up. -/
namespace PaymentWallet.Connect
open Foundation

/-- The link a user's row stores. -/
def stored (d : DB) (userId : UserId) : Option String :=
  (d.users.get? userId).bind (·.stripeConnectAccountId)

def TxCall.links : TxCall → Option (UserId × Option String)
  | .setConnectAccountId userId account => some (userId, account)
  | _ => none

/-- The link that the program writes next. -/
def links : Svc Response → Option (UserId × Option String)
  | .call (.transact c) _ => TxCall.links c
  | _ => none

/-- What is left to be written after a reply. -/
def Outside.due : (x : Outside) → Except Exception x.Reply → Option (UserId × Option String)
  | .createAccount userId _, .ok id => some (userId, some id)
  | .findByConnectAccountId _, .ok (some userId) => some (userId, none)
  | _, _ => none

/-- The steps that a request may take. -/
def Request.Allows (request : Request) : ServiceOp TxCall Outside → Prop
  | .transact (.createUserWithWallet ..) | .transact (.setConnectAccountId ..) => True
  | .transact _ => False
  | .outside (.findByConnectAccountId account) => request = .deauthorized (some account)
  | .outside _ => True

/-- Links are written where they are due and nowhere else. -/
def Obeys (request : Request) : Svc Response → Prop
  | .pure _ | .throw _ => True
  | .call (.transact c) next =>
    request.Allows (.transact c) ∧ ∀ reply, links (next reply) = none ∧ Obeys request (next reply)
  | .call (.outside x) next =>
    request.Allows (.outside x) ∧ ∀ reply, links (next reply) = x.due reply ∧
      Obeys request (next reply)

section Obeying
variable {request : Request} {config : Config}

/-- The onboarding link is asked for in one last step. -/
theorem obeys_link {p : Svc Response} (config : Config) (accountId : String)
    (same : p = .call (.outside
      (.createAccountLink accountId config.connectReturnUrl config.connectRefreshUrl)) fun reply =>
      match reply with
      | .ok url => .pure (.connected ⟨accountId, url⟩)
      | .error _ => .throw (.badGateway "Unable to generate onboarding link. Please try again.")) :
    links p = none ∧ Obeys request p := by
  subst same
  refine ⟨rfl, trivial, fun reply => ?_⟩
  cases reply <;> exact ⟨rfl, trivial⟩

/-- The end of an onboarding. -/
theorem link_eq (config : Config) (accountId : String) :
    ((StripeConnectService.generateOnboardingLink config accountId).bind fun url =>
      Program.pure (Response.connected ⟨accountId, url⟩)) =
    .call (.outside (.createAccountLink accountId config.connectReturnUrl config.connectRefreshUrl))
      fun reply =>
      match reply with
      | .ok url => .pure (.connected ⟨accountId, url⟩)
      | .error _ =>
        .throw (.badGateway "Unable to generate onboarding link. Please try again.") := by
  refine congrArg (Program.call _) (funext fun reply => ?_)
  cases reply <;> rfl

theorem obeys_handler (config : Config) (request : Request) :
    links (request.handler config) = none ∧ Obeys request (request.handler config) := by
  cases request with
  | register data =>
    refine ⟨rfl, trivial, fun reply => ?_⟩
    cases reply with
    | error error => cases error <;> exact ⟨rfl, trivial⟩
    | ok draw =>
      refine ⟨rfl, trivial, fun reply => ?_⟩
      cases reply with
      | ok id => exact ⟨rfl, trivial⟩
      | error error => cases error <;> exact ⟨rfl, trivial⟩
  | createConnectAccount userId userEmail =>
    refine ⟨rfl, trivial, fun reply => ?_⟩
    cases reply with
    | error error => exact ⟨rfl, trivial⟩
    | ok user =>
      cases user with
      | none => exact ⟨rfl, trivial⟩
      | some stored =>
        cases kept : truthy stored with
        | some accountId =>
          simp only [Program.bind_def, Service.resume, Program.pure_def, Program.pure_bind,
            kept, Program.bind_assoc]
          exact obeys_link config accountId (link_eq config accountId)
        | none =>
          simp only [Program.bind_def, Service.resume, Program.pure_bind, kept]
          refine ⟨rfl, trivial, fun reply => ?_⟩
          cases reply with
          | error error => exact ⟨rfl, trivial⟩
          | ok accountId =>
            refine ⟨rfl, trivial, fun reply => ?_⟩
            cases reply with
            | error error => exact ⟨rfl, trivial⟩
            | ok done =>
              simp only [Service.resume, Program.pure_def, Program.pure_bind, Program.bind_assoc]
              exact obeys_link config accountId (link_eq config accountId)
  | deauthorized account =>
    cases event : truthy account with
    | none =>
      simp only [Request.handler, StripeConnectWebhookController.handleWebhook,
        StripeConnectWebhookService.handleAccountDeauthorized, event]
      exact ⟨rfl, trivial⟩
    | some accountId =>
      obtain rfl : account = some accountId := (Option.filter_eq_some_iff.mp event).1
      simp only [Request.handler, StripeConnectWebhookController.handleWebhook,
        StripeConnectWebhookService.handleAccountDeauthorized, event]
      refine ⟨rfl, rfl, fun reply => ?_⟩
      cases reply with
      | error error => exact ⟨rfl, trivial⟩
      | ok user =>
        cases user with
        | none => exact ⟨rfl, trivial⟩
        | some userId =>
          refine ⟨rfl, trivial, fun reply => ?_⟩
          cases reply <;> exact ⟨rfl, trivial⟩

end Obeying

end PaymentWallet.Connect
