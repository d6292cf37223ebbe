import PaymentWallet.Model.Services
import Mathlib.Logic.Relation

/-! The PayPal access token. The process keeps the last token that was fetched in one variable.
A call runs undisturbed between two awaits, and any number of fetches may be under way. -/
namespace PaymentWallet

structure CachedToken where
  accessToken : String
  expiresAt : DateTime
deriving DecidableEq

structure PaypalConfig where
  clientId : Option String
  clientSecret : Option String
  environment : Option String

/-- `POST /v1/oauth2/token` with the `client_credentials` grant. -/
structure TokenRequest where
  baseUrl : String
  credentials : String
deriving DecidableEq

/-- What PayPal has issued, when and on which request. -/
structure Issue where
  access_token : String
  expires_in : Nat
  request : TokenRequest
  issuedAt : DateTime
deriving DecidableEq

/-- The milliseconds that the token is good for. -/
def Issue.lifetime (issue : Issue) : Nat := issue.expires_in * 1000

/-- The reply to a fetch with its body. Only `access_token` and `expires_in` are read. -/
inductive TokenResponse where
  | ok (data : Issue)
  | failed (status : Nat) (statusText errorBody : String)
deriving DecidableEq

/-- A call at an await, or at its end. -/
inductive TokenCall where
  | fetching (request : TokenRequest)
  | answered (response : TokenResponse)
  | ended (result : Except Exception String) (time : DateTime)
deriving DecidableEq

namespace PaypalTokenClient

def EXPIRY_BUFFER_MS : Nat := 60 * 1000

def isTokenValid (token : CachedToken) (now : DateTime) : Bool :=
  now < token.expiresAt - EXPIRY_BUFFER_MS

def tokenRequest (config : PaypalConfig) : Except Exception TokenRequest :=
  match truthy config.clientId, truthy config.clientSecret with
  | some clientId, some clientSecret => .ok {
      baseUrl := if config.environment = some "production" then "https://api-m.paypal.com"
        else "https://api-m.sandbox.paypal.com"
      credentials := clientId ++ ":" ++ clientSecret }
  | _, _ =>
    .error (.error
      "PAYPAL_CLIENT_ID and PAYPAL_CLIENT_SECRET must be configured for PayPal payouts.")

/-- As far as the first await. -/
def fetchAndCacheToken (config : PaypalConfig) (now : DateTime) : TokenCall :=
  match tokenRequest config with
  | .ok request => .fetching request
  | .error error => .ended (.error error) now

def getAccessToken (config : PaypalConfig) (cachedToken : Option CachedToken)
    (now : DateTime) : TokenCall :=
  match cachedToken.filter fun token => isTokenValid token now with
  | some token => .ended (.ok token.accessToken) now
  | none => fetchAndCacheToken config now

/-- What is cached and returned after the last await. -/
def cacheToken (response : TokenResponse) (cachedToken : Option CachedToken) (now : DateTime) :
    Option CachedToken × Except Exception String :=
  match response with
  | .ok data => (some ⟨data.access_token, now + data.expires_in * 1000⟩, .ok data.access_token)
  | .failed status statusText errorBody =>
    (cachedToken, .error (.error ("PayPal OAuth2 token fetch failed: " ++ toString status ++ " " ++
      statusText ++ " — " ++ errorBody)))

end PaypalTokenClient

/-- An issue and when the process got hold of it. -/
structure Receipt where
  issue : Issue
  receivedAt : DateTime
deriving DecidableEq

/-- The process, its clock, and a record of what it has received. -/
structure TokenState where
  now : DateTime
  cachedToken : Option CachedToken
  calls : Nat → Option TokenCall
  receipts : List Receipt

namespace TokenState
open PaypalTokenClient

def start (now : DateTime) : TokenState := ⟨now, none, fun _ => none, []⟩

def set (σ : TokenState) (pid : Nat) (call : TokenCall) : TokenState :=
  { σ with calls := Function.update σ.calls pid (some call) }

theorem set_calls {σ : TokenState} {pid other : Nat} {call : TokenCall} :
    (σ.set pid call).calls other = if other = pid then some call else σ.calls other :=
  Function.update_apply ..

/-- The last segment of a call, which nothing interrupts. -/
def receive (σ : TokenState) (pid : Nat) (response : TokenResponse) : TokenState :=
  let (cachedToken, result) := cacheToken response σ.cachedToken σ.now
  { σ.set pid (.ended result σ.now) with
    cachedToken := cachedToken
    receipts := match response with
      | .ok data => ⟨data, σ.now⟩ :: σ.receipts
      | .failed .. => σ.receipts }

theorem receive_calls {σ : TokenState} {pid other : Nat} {response : TokenResponse} :
    (σ.receive pid response).calls other =
      if other = pid then some (.ended (cacheToken response σ.cachedToken σ.now).2 σ.now)
      else σ.calls other :=
  set_calls

inductive Step (config : PaypalConfig) (σ : TokenState) : TokenState → Prop where
  | wait (duration : Nat) : Step config σ { σ with now := σ.now + duration }
  | call (pid : Nat) : σ.calls pid = none →
      Step config σ (σ.set pid (getAccessToken config σ.cachedToken σ.now))
  | issue (pid : Nat) (access_token : String) (expires_in : Nat) :
      σ.calls pid = some (.fetching request) →
      Step config σ (σ.set pid (.answered (.ok ⟨access_token, expires_in, request, σ.now⟩)))
  | refuse (pid status : Nat) (statusText errorBody : String) :
      σ.calls pid = some (.fetching request) →
      Step config σ (σ.set pid (.answered (.failed status statusText errorBody)))
  | reject (pid : Nat) (error : Exception) : σ.calls pid = some (.fetching request) →
      Step config σ (σ.set pid (.ended (.error error) σ.now))
  | receive (pid : Nat) : σ.calls pid = some (.answered response) →
      Step config σ (σ.receive pid response)

/-- Everything that can happen from the start of the process on. -/
def Reachable (config : PaypalConfig) (σ : TokenState) : Prop :=
  ∃ now, Relation.ReflTransGen (Step config) (start now) σ

end TokenState

section Invariant
open PaypalTokenClient

variable {config : PaypalConfig} {σ σ' : TokenState} {receipts receipts' : List Receipt}
  {now now' : DateTime} {pid : Nat} {call : TokenCall}

/-- The token was received by then, and had most of the buffer or of its lifetime left. -/
structure Receipt.Hands (receipt : Receipt) (token : String) (time : DateTime) : Prop where
  token : receipt.issue.access_token = token
  received : receipt.receivedAt ≤ time
  left : time + min EXPIRY_BUFFER_MS receipt.issue.lifetime ≤ receipt.receivedAt +
    receipt.issue.lifetime

theorem left_of_valid {now received buffer lifetime : Nat}
    (valid : now < received + lifetime - buffer) :
    now + min buffer lifetime ≤ received + lifetime := by
  omega

theorem unexpired_of_left {time buffer received issued lifetime : Nat}
    (left : time + buffer ≤ received + lifetime)
    (quick : received < issued + buffer) : time < issued + lifetime := by
  omega

/-- No receipt is lost. -/
theorem receipts_receive {response : TokenResponse} :
    σ.receipts ⊆ (σ.receive pid response).receipts := by
  cases response with
  | ok data => exact List.subset_cons_self _ _
  | failed => exact List.Subset.refl _

/-- What the calls have sent, have been sent and hand out. -/
def TokenCall.Sound (config : PaypalConfig) (now : DateTime) (receipts : List Receipt) :
    TokenCall → Prop
  | .fetching request => tokenRequest config = .ok request
  | .answered (.ok data) => tokenRequest config = .ok data.request ∧ data.issuedAt ≤ now
  | .answered (.failed ..) => True
  | .ended (.ok token) time => ∃ receipt ∈ receipts, receipt.Hands token time
  | .ended (.error _) _ => True

theorem TokenCall.Sound.mono (sound : call.Sound config now receipts) (later : now ≤ now')
    (more : receipts ⊆ receipts') :
    call.Sound config now' receipts' := by
  rcases call with request | (data | _) | ⟨_ | token, time⟩
  · exact sound
  · exact ⟨sound.1, sound.2.trans later⟩
  · trivial
  · trivial
  · obtain ⟨receipt, member, hands⟩ := sound
    exact ⟨receipt, more member, hands⟩

structure TokenState.Sound (config : PaypalConfig) (σ : TokenState) : Prop where
  receipts : ∀ receipt ∈ σ.receipts, tokenRequest config = .ok receipt.issue.request ∧
    receipt.issue.issuedAt ≤ receipt.receivedAt ∧ receipt.receivedAt ≤ σ.now
  cached : ∀ token, σ.cachedToken = some token → ∃ receipt ∈ σ.receipts,
    receipt.issue.access_token = token.accessToken ∧
    token.expiresAt = receipt.receivedAt + receipt.issue.lifetime
  calls : ∀ pid call, σ.calls pid = some call → call.Sound config σ.now σ.receipts

namespace TokenState.Sound

theorem start (now : DateTime) : (TokenState.start now).Sound config where
  receipts _ member := by cases member
  cached _ found := by cases found
  calls _ _ found := by cases found

/-- One call moves on. -/
theorem set (sound : σ.Sound config) (moved : call.Sound config σ.now σ.receipts) :
    (σ.set pid call).Sound config where
  receipts := sound.receipts
  cached := sound.cached
  calls := by
    intro other call' found
    rw [set_calls] at found
    split at found
    · cases found
      exact moved
    · exact sound.calls other call' found

/-- A cached token is handed out only while it lasts for longer than the buffer. -/
theorem getAccessToken (sound : σ.Sound config) :
    (PaypalTokenClient.getAccessToken config σ.cachedToken σ.now).Sound config
      σ.now σ.receipts := by
  unfold PaypalTokenClient.getAccessToken
  cases found : σ.cachedToken.filter fun token => isTokenValid token σ.now with
  | none =>
    simp only [fetchAndCacheToken]
    cases request : tokenRequest config with
    | error error => trivial
    | ok request => exact request
  | some token =>
    obtain ⟨cached, valid⟩ := Option.filter_eq_some_iff.mp found
    obtain ⟨receipt, member, same, expires⟩ := sound.cached token cached
    obtain ⟨_, _, received⟩ := sound.receipts receipt member
    refine ⟨receipt, member, same, received, ?_⟩
    simp only [isTokenValid, decide_eq_true_eq, expires] at valid
    exact left_of_valid valid

/-- A token that comes in is handed out at once, whatever is in the cache. -/
theorem receive {response : TokenResponse} (sound : σ.Sound config)
    (found : σ.calls pid = some (.answered response)) :
    (σ.receive pid response).Sound config := by
  have answered := sound.calls pid _ found
  cases response with
  | failed status statusText errorBody => exact sound.set trivial
  | ok data =>
    have more : σ.receipts ⊆ ⟨data, σ.now⟩ :: σ.receipts := List.subset_cons_self _ _
    constructor
    · intro receipt member
      rcases List.mem_cons.mp member with rfl | old
      · exact ⟨answered.1, answered.2, Nat.le_refl _⟩
      · exact sound.receipts receipt old
    · intro token cached
      cases cached
      exact ⟨⟨data, σ.now⟩, List.mem_cons_self, rfl, rfl⟩
    · intro other call' there
      replace there : (σ.set pid (.ended (.ok data.access_token) σ.now)).calls other = some call' :=
        there
      rw [set_calls] at there
      split at there
      · cases there
        exact ⟨⟨data, σ.now⟩, List.mem_cons_self, rfl, Nat.le_refl _,
          Nat.add_le_add_left (Nat.min_le_right _ _) _⟩
      · exact (sound.calls other call' there).mono (Nat.le_refl _) more

theorem step (sound : σ.Sound config) (taken : TokenState.Step config σ σ') : σ'.Sound config := by
  cases taken with
  | wait duration =>
    have later : σ.now ≤ σ.now + duration := Nat.le_add_right _ _
    constructor
    · intro receipt member
      obtain ⟨ours, issued, received⟩ := sound.receipts receipt member
      exact ⟨ours, issued, received.trans later⟩
    · exact sound.cached
    · exact fun pid call found => (sound.calls pid call found).mono later (List.Subset.refl _)
  | call pid idle => exact sound.set sound.getAccessToken
  | issue pid access_token expires_in found =>
    exact sound.set ⟨sound.calls _ _ found, Nat.le_refl _⟩
  | refuse pid status statusText errorBody found => exact sound.set trivial
  | reject pid error found => exact sound.set trivial
  | receive pid found => exact sound.receive found

theorem of_reachable (run : σ.Reachable config) : σ.Sound config := by
  obtain ⟨now, steps⟩ := run
  induction steps with
  | refl => exact .start now
  | tail _ taken ih => exact ih.step taken

end TokenState.Sound

/-- Every receipt is served by the cached token, which is the last that came in. -/
def TokenState.Serves (σ : TokenState) (lifetime : Nat) : Prop :=
  ∀ receipt ∈ σ.receipts, ∃ token, σ.cachedToken = some token ∧
    receipt.receivedAt + lifetime ≤ token.expiresAt

theorem TokenState.Serves.receive {lifetime : Nat} {response : TokenResponse}
    (serves : σ.Serves lifetime) (sound : σ.Sound config)
    (lasting : ∀ receipt ∈ (σ.receive pid response).receipts, lifetime ≤ receipt.issue.lifetime) :
    (σ.receive pid response).Serves lifetime := by
  cases response with
  | failed status statusText errorBody => exact serves
  | ok data =>
    have lasts : lifetime ≤ data.lifetime := lasting ⟨data, σ.now⟩ List.mem_cons_self
    intro receipt member
    refine ⟨⟨data.access_token, σ.now + data.lifetime⟩, rfl, ?_⟩
    rcases List.mem_cons.mp member with rfl | old
    · exact Nat.add_le_add_left lasts _
    · obtain ⟨_, _, received⟩ := sound.receipts receipt old
      exact Nat.add_le_add received lasts

theorem TokenState.serves_of_reachable {lifetime : Nat} (run : σ.Reachable config)
    (lasting : ∀ receipt ∈ σ.receipts, lifetime ≤ receipt.issue.lifetime) : σ.Serves lifetime := by
  obtain ⟨now, steps⟩ := run
  induction steps with
  | refl =>
    intro receipt member
    cases member
  | tail earlier taken ih =>
    cases taken with
    | receive pid found =>
      have sound := TokenState.Sound.of_reachable ⟨now, earlier⟩
      apply TokenState.Serves.receive (ih ?_) sound lasting
      intro receipt member
      apply lasting
      exact receipts_receive member
    | wait | call | issue | refuse | reject => exact ih lasting

/-- With more than the buffer left, the cache answers. -/
theorem PaypalTokenClient.getAccessToken_serves {token : CachedToken}
    {cachedToken : Option CachedToken} (cached : cachedToken = some token)
    (left : now + EXPIRY_BUFFER_MS < token.expiresAt) :
    getAccessToken config cachedToken now = .ended (.ok token.accessToken) now := by
  have valid : isTokenValid token now = true := decide_eq_true (Nat.lt_sub_of_add_lt left)
  rw [getAccessToken, cached, Option.filter_some, if_pos valid]

end Invariant
end PaymentWallet
