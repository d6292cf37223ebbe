import PaymentWallet.Providers.Tokens

/-! PayPal's access tokens are good when they are handed out, however many callers fetch and
wait at a time, as long as none of PayPal's answers is under way for longer than the buffer. -/
namespace PaymentWallet
open PaypalTokenClient

variable {config : PaypalConfig} {σ : TokenState} {pid : Nat} {token : String} {time : DateTime}

/-- Whoever is handed a token gets one that PayPal has issued on the process's own credentials. It
is not expired unless its answer was under way for as long as the buffer, or as the token lasts. -/
theorem access_tokens_fresh (run : σ.Reachable config)
    (ended : σ.calls pid = some (.ended (.ok token) time)) :
    ∃ receipt ∈ σ.receipts, receipt.issue.access_token = token ∧
      tokenRequest config = .ok receipt.issue.request ∧
      receipt.issue.issuedAt ≤ receipt.receivedAt ∧ receipt.receivedAt ≤ time ∧
      (receipt.receivedAt < receipt.issue.issuedAt + min EXPIRY_BUFFER_MS receipt.issue.lifetime →
        time < receipt.issue.issuedAt + receipt.issue.lifetime) := by
  have sound := TokenState.Sound.of_reachable run
  obtain ⟨receipt, member, hands⟩ := sound.calls pid _ ended
  obtain ⟨ours, issued, _⟩ := sound.receipts receipt member
  exact ⟨receipt, member, hands.token, ours, issued, hands.received, unexpired_of_left hands.left⟩

def sampleCredentials : PaypalConfig := ⟨some "id", some "secret", none⟩

/-- Two callers fetch at a time. The older token comes in last, takes the place of the newer one,
and is handed out to a third caller. -/
theorem access_tokens_fresh_crossed : ∃ σ, TokenState.Reachable sampleCredentials σ ∧
    σ.calls 2 = some (.ended (.ok "older") 3000) ∧ ∃ receipt ∈ σ.receipts,
      receipt.issue.access_token = "older" ∧
      3000 < receipt.issue.issuedAt + receipt.issue.lifetime := by
  have run : Relation.ReflTransGen (TokenState.Step sampleCredentials) (TokenState.start 0) _ :=
    .head (.call 0 rfl) <| .head (.call 1 rfl) <|
    .head (.issue 0 "older" 32400 rfl) <| .head (.wait 1000) <|
    .head (.issue 1 "newer" 32400 rfl) <| .head (.receive 1 rfl) <|
    .head (.wait 1000) <| .head (.receive 0 rfl) <|
    .head (.wait 1000) <| .head (.call 2 rfl) .refl
  obtain ⟨receipt, member, same, _, _, _, fresh⟩ :=
    @access_tokens_fresh _ _ 2 "older" 3000 ⟨0, run⟩ rfl
  let request : TokenRequest := ⟨"https://api-m.sandbox.paypal.com", "id:secret"⟩
  let older : Receipt := ⟨⟨"older", 32400, request, 0⟩, 2000⟩
  let newer : Receipt := ⟨⟨"newer", 32400, request, 1000⟩, 1000⟩
  have quick : ∀ receipt ∈ [older, newer],
      receipt.receivedAt < receipt.issue.issuedAt +
        min EXPIRY_BUFFER_MS receipt.issue.lifetime := by decide
  exact ⟨_, ⟨0, run⟩, rfl, receipt, member, same, fresh (quick receipt member)⟩

/-- As long as tokens last for some time, a call that begins to fetch does so no sooner than that
time, less the buffer, after each of those that have come in; until then calls get the cached
one. -/
theorem fetches_spaced {lifetime : Nat} (run : σ.Reachable config)
    (lasting : ∀ receipt ∈ σ.receipts, lifetime ≤ receipt.issue.lifetime) :
    (∀ σ' pid request, TokenState.Step config σ σ' → σ.calls pid = none →
      σ'.calls pid = some (.fetching request) →
      ∀ receipt ∈ σ.receipts, receipt.receivedAt + lifetime ≤ σ.now + EXPIRY_BUFFER_MS) ∧
    ∀ receipt ∈ σ.receipts, σ.now + EXPIRY_BUFFER_MS < receipt.receivedAt + lifetime →
      ∃ cached, σ.cachedToken = some cached ∧
        getAccessToken config σ.cachedToken σ.now = .ended (.ok cached.accessToken) σ.now := by
  have served : ∀ receipt ∈ σ.receipts, σ.now + EXPIRY_BUFFER_MS < receipt.receivedAt + lifetime →
      ∃ cached, σ.cachedToken = some cached ∧
        getAccessToken config σ.cachedToken σ.now = .ended (.ok cached.accessToken) σ.now := by
    intro receipt member early
    obtain ⟨token, cached, lasts⟩ := TokenState.serves_of_reachable run lasting receipt member
    exact ⟨token, cached, getAccessToken_serves cached (early.trans_le lasts)⟩
  refine ⟨fun σ' pid request taken idle fetches receipt member => ?_, served⟩
  by_contra early
  obtain ⟨token, _, served⟩ := served receipt member (Nat.lt_of_not_le early)
  cases taken with
  | wait => cases idle.symm.trans fetches
  | call =>
    rw [TokenState.set_calls, served] at fetches
    split at fetches
    · cases fetches
    · cases idle.symm.trans fetches
  | issue | refuse | reject =>
    rw [TokenState.set_calls] at fetches
    split at fetches
    · cases fetches
    · cases idle.symm.trans fetches
  | receive =>
    rw [TokenState.receive_calls] at fetches
    split at fetches
    · cases fetches
    · cases idle.symm.trans fetches

/-- A token of two minutes is used for one. -/
theorem fetches_spaced_short :
    let request : TokenRequest := ⟨"https://api-m.sandbox.paypal.com", "id:secret"⟩
    (∃ σ, TokenState.Reachable sampleCredentials σ ∧ σ.now = 60999 ∧
      ∃ cached : CachedToken, σ.cachedToken = some cached ∧ getAccessToken sampleCredentials
        σ.cachedToken σ.now = .ended (.ok cached.accessToken) σ.now) ∧
    ∃ σ σ', TokenState.Reachable sampleCredentials σ ∧ TokenState.Step sampleCredentials σ σ' ∧
      σ.receipts.length = 1 ∧ σ'.calls 1 = some (.fetching request) ∧
      ∀ receipt ∈ σ.receipts, receipt.receivedAt + 120000 ≤ σ.now + EXPIRY_BUFFER_MS := by
  intro request
  have run : ∀ duration, Relation.ReflTransGen (TokenState.Step sampleCredentials)
      (TokenState.start 0) _ := fun duration =>
    .head (.call 0 rfl) <| .head (.issue 0 "short" 120 rfl) <| .head (.wait 1000) <|
    .head (.receive 0 rfl) <| .head (.wait duration) .refl
  let receipts : List Receipt := [⟨⟨"short", 120, request, 0⟩, 1000⟩]
  have lasting : ∀ receipt ∈ receipts, 120000 ≤ receipt.issue.lifetime := by decide
  constructor
  · exact ⟨_, ⟨0, run 59999⟩, rfl, (fetches_spaced ⟨0, run 59999⟩ lasting).2 _
      List.mem_cons_self (by decide)⟩
  · exact ⟨_, _, ⟨0, run 60000⟩, .call 1 rfl, rfl, rfl,
      (fetches_spaced ⟨0, run 60000⟩ lasting).1 _ 1 request (.call 1 rfl) rfl rfl⟩

end PaymentWallet
