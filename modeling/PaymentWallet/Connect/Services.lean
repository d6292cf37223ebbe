import PaymentWallet.Model.Services

/-! Onboarding to Stripe Connect: the request that creates and links an account, and the
webhook that unlinks a deauthorized one. Stripe's accounts are external state; who an
account was created for is known to nobody but the model. -/
namespace PaymentWallet.Connect
open Foundation

structure Config where
  connectReturnUrl : String
  connectRefreshUrl : String

/-- An account at Stripe, with the user it was created for. -/
structure Account where
  id : String
  userId : UserId
deriving DecidableEq

structure Ext where
  accounts : List Account
  deauthorized : List String
deriving DecidableEq

def Ext.idle : Ext := ⟨[], []⟩

/-- Steps outside a database transaction. Stripe learns the email of a new account only. -/
inductive Outside where
  | findById (userId : UserId)
  | findByConnectAccountId (stripeConnectAccountId : String)
  | createAccount (userId : UserId) (email : String)
  | createAccountLink (account returnUrl refreshUrl : String)
  | draw

@[reducible] def Outside.Reply : Outside → Type
  | .findById _ => Option (Option String)
  | .findByConnectAccountId _ => Option UserId
  | .createAccount .. => String
  | .createAccountLink .. => String
  | .draw => Draw

/-- Ids of accounts are never empty and never used twice. -/
inductive CreateAccount (userId : UserId) (ext : Ext) : Except Exception String → Ext → Prop where
  | created : accountId ≠ "" → (∀ account ∈ ext.accounts, account.id ≠ accountId) →
      CreateAccount userId ext (.ok accountId) { ext with accounts := ext.accounts ++
        [⟨accountId, userId⟩] }
  | failed : CreateAccount userId ext (.error error) ext

def Outside.Answers : (x : Outside) → DB → Ext → Except Exception x.Reply → Ext → Prop
  | .findById userId, d, ext, reply, ext' =>
    ext' = ext ∧ Reads reply ((d.users.get? userId).map (·.stripeConnectAccountId))
  | .findByConnectAccountId accountId, d, ext, reply, ext' =>
    ext' = ext ∧ Reads reply
      ((d.users.rows.find? fun row => row.stripeConnectAccountId = some accountId).map (·.id))
  | .createAccount userId _, _, ext, reply, ext' => CreateAccount userId ext reply ext'
  | .createAccountLink .., _, ext, _, ext' => ext' = ext
  | .draw, _, ext, reply, ext' => ext' = ext ∧ ∃ draw, reply = .ok draw

/-- A service method. -/
abbrev Svc (α : Type) := Service TxCall Outside TxCall.Out Outside.Reply Exception α

def transact (c : TxCall) : Svc c.Out := Service.transact c

def outside (x : Outside) : Svc x.Reply := Service.outside x

structure CreateConnectAccountResponse where
  accountId : String
  onboardingUrl : String
deriving DecidableEq

namespace StripeConnectService

/-- The account is stored before the onboarding link is asked for. -/
def createAndPersistAccount (userId : UserId) (userEmail : String) : Svc String := do
  let account ← tryCatch (outside (.createAccount userId userEmail)) fun _ =>
    throw (.badGateway "Unable to create Stripe Connect account. Please try again.")
  transact (.setConnectAccountId userId (some account))
  return account

def generateOnboardingLink (config : Config) (accountId : String) : Svc String :=
  tryCatch (outside (.createAccountLink accountId config.connectReturnUrl config.connectRefreshUrl))
    fun _ =>
    throw (.badGateway "Unable to generate onboarding link. Please try again.")

def createConnectAccount (config : Config) (userId : UserId) (userEmail : String) :
    Svc CreateConnectAccountResponse := do
  match ← outside (.findById userId) with
  | none => throw (.notFound "User not found")
  | some stored =>
    let accountId ← match truthy stored with
      | none => createAndPersistAccount userId userEmail
      | some accountId => pure accountId
    let onboardingUrl ← generateOnboardingLink config accountId
    return ⟨accountId, onboardingUrl⟩

end StripeConnectService

/-- `account` is the event's account, which may be missing. A failed clear is only logged. -/
def StripeConnectWebhookService.handleAccountDeauthorized (account : Option String) : Svc Unit :=
  match truthy account with
  | none => pure ()
  | some accountId => do
    match ← outside (.findByConnectAccountId accountId) with
    | none => pure ()
    | some userId => tryCatch (transact (.setConnectAccountId userId none)) fun _ => pure ()

/-- Whatever goes wrong, the controller acknowledges a verified event. -/
def StripeConnectWebhookController.handleWebhook (account : Option String) : Svc Unit :=
  tryCatch (StripeConnectWebhookService.handleAccountDeauthorized account) fun _ => pure ()

namespace AuthRepository

def createUserWithWallet (data : CreateUserInput) : Svc UserId :=
  tryCatch (do
    let draw ← outside .draw
    transact (.createUserWithWallet data draw)) fun error =>
    match error with
    | .uniqueViolation target =>
      throw (.conflict (PaymentWallet.AuthRepository.conflictField target ++ " already in use"))
    | error => throw error

end AuthRepository

inductive Request where
  | register (data : CreateUserInput)
  | createConnectAccount (userId : UserId) (userEmail : String)
  | deauthorized (account : Option String)
deriving DecidableEq

inductive Response where
  | registered (id : UserId)
  | connected (response : CreateConnectAccountResponse)
  | received
deriving DecidableEq

def Request.handler (config : Config) : Request → Svc Response
  | .register data => return .registered (← AuthRepository.createUserWithWallet data)
  | .createConnectAccount userId userEmail =>
    return .connected (← StripeConnectService.createConnectAccount config userId userEmail)
  | .deauthorized account => do
    StripeConnectWebhookController.handleWebhook account
    return .received

/-- The owner of an account withdraws the platform's access to it. -/
inductive Deauthorize (ext : Ext) : Ext → Prop where
  | withdrawn : account ∈ ext.accounts →
      Deauthorize ext { ext with deauthorized := account.id :: ext.deauthorized }

def onboarding (config : Config) :
    System DB Write Statement Statement.Reply LockKey Exception TxCall TxCall.Out Outside
    Outside.Reply Ext Request Response where
  engine := postgres
  code := TxCall.code
  outside := fun _ x d ext reply ext' => x.Answers d ext reply ext'
  drift := Deauthorize
  handler := Request.handler config
  lost := .connectionLost

abbrev State := World DB Write Statement Statement.Reply LockKey Exception TxCall TxCall.Out Outside
  Outside.Reply Ext Request Response

abbrev SharedState := Shared DB TxCall Ext

abbrev Permit := SharedState → Label TxCall Outside Request Exception → Prop

end PaymentWallet.Connect
