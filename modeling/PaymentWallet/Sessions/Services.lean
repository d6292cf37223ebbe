import PaymentWallet.Sessions.Tokens
import PaymentWallet.Sessions.Transactions
import PaymentWallet.Model.Services

/-! The auth services around the session transactions: refresh with its replay cache
in Redis, logins and logouts, the user service as far as it ends sessions, and the
scheduled cleanup. Any step outside a transaction may fail. -/
namespace PaymentWallet.Sessions
open Foundation

structure TokenPair where
  accessToken : String
  refreshToken : String
deriving DecidableEq

/-- A deployment's keys, limits and lifetimes; `refreshExpiry` in milliseconds. `ms` is the
library that reads the lifetime of an access token when it is signed. -/
structure Config where
  hashToken : String → String
  encrypt : TokenPair → String
  decrypt : String → Option TokenPair
  decrypt_encrypt : ∀ pair, decrypt (encrypt pair) = some pair
  verify : String → String → Bool
  maxSessions : Nat
  refreshExpiry : Nat
  accessExpiry : String
  access_valid : (TokenService.matchExpiry accessExpiry).isSome
  ms : String → Option Nat
  ms_reads : ReadsUnits ms accessExpiry

/-- In seconds; `parseExpiry` does not throw on what the configuration accepts. -/
def Config.getAccessTokenTtlSeconds (config : Config) : Nat :=
  match TokenService.parseExpiry config.accessExpiry with
  | .ok parsed => parsed / 1000
  | .error _ => 0

/-- `REFRESH_TOKEN_GRACE_PERIOD_SECONDS`. -/
def gracePeriodSeconds : Nat := 10

/-- `CLEANUP_BATCH_SIZE`. -/
def cleanupBatchSize : Nat := 1000

/-- A generated pair, with the process that generated it. -/
structure Issue where
  owner : Nat
  pair : TokenPair
deriving DecidableEq

/-- An entry of the rotation cache and the time it expires at. -/
structure CacheEntry where
  encrypted : String
  expiresAt : DateTime

/-- The pairs generated so far, the access tokens signed with them, the rotation cache by
the old token's hash, the denylist by jti with the time each entry expires at, and who set
`locks:token_cleanup`. -/
structure Ext where
  issued : List Issue
  signed : String → Option AccessToken
  cache : String → Option CacheEntry
  denylist : String → Option DateTime
  lock : Option ProcessorLock

def Ext.idle : Ext := ⟨[], fun _ => none, fun _ => none, fun _ => none, none⟩

/-- `GET` finds entries that have not expired. -/
def Ext.cached (ext : Ext) (now : DateTime) (tokenHash : String) : Option String :=
  ((ext.cache tokenHash).filter fun entry => now < entry.expiresAt).map (·.encrypted)

/-- `denylist:<jti>` is there and has not expired. -/
def Ext.denied (ext : Ext) (now : DateTime) (jti : String) : Bool :=
  (ext.denylist jti).any fun expiresAt => now < expiresAt

/-- A signature is one of the service, and `exp` is not reached. -/
def Ext.verified (ext : Ext) (now : DateTime) (accessToken : String) : Option AccessToken :=
  (ext.signed accessToken).filter fun token => now / 1000 < token.exp

/-- What the schema, the database and argon2 choose. -/
structure Draw where
  id : String
  createdAt : DateTime
  hashed : String
  tie : Nat
  wallet : Option Balances
  first : List String

/-- Steps outside a database transaction. `expired` and `withinGrace` read the clock. -/
inductive Outside where
  | findToken (tokenHash : String)
  | expired (token : RefreshToken)
  | withinGrace (token : RefreshToken) (revokedAt : DateTime)
  | findById (id : UserId)
  | findByEmail (email : String)
  | argon2Verify (hash plain : String)
  | generateTokenPair (userId : UserId) (email : String) (role : Role)
  | getRefreshExpiry
  | draw
  | getCache (tokenHash : String)
  | setCache (tokenHash encrypted : String)
  | delCache (tokenHash : String)
  | denylist (jti : String)
  | verifyJwt (accessToken : String)
  | getDenylist (jti : String)
  | setLock
  | delLock
deriving DecidableEq

@[reducible] def Outside.Reply : Outside → Type
  | .findToken _ => Option RefreshToken
  | .expired _ | .withinGrace .. | .argon2Verify .. | .getDenylist _ | .setLock => Bool
  | .findById _ | .findByEmail _ => Option User
  | .generateTokenPair .. => TokenPair
  | .getRefreshExpiry => DateTime
  | .draw => Draw
  | .getCache _ => Option String
  | .verifyJwt _ => JwtPayload
  | .setCache .. | .delCache _ | .denylist _ | .delLock => Unit

def Ext.leave (pid : Nat) (ext : Ext) : Ext :=
  { ext with lock := ext.lock.map fun lock =>
    if lock.holder = pid then { lock with busy := false } else lock }

/-- `SET NX EX` on the cleanup lock. When the reply is lost the key may be set all the same. -/
inductive SetLock (pid : Nat) (ext : Ext) : Except Exception Bool → Ext → Prop where
  | acquired : ext.lock = none → SetLock pid ext (.ok true) { ext with lock := some ⟨pid, true⟩ }
  | taken : ext.lock = some lock → SetLock pid ext (.ok false) ext
  | failed : SetLock pid ext (.error .connectionLost) ext
  | unheard : ext.lock = none →
      SetLock pid ext (.error .connectionLost) { ext with lock := some ⟨pid, false⟩ }

inductive DelLock (pid : Nat) (ext : Ext) : Except Exception Unit → Ext → Prop where
  | deleted : DelLock pid ext (.ok ()) { ext with lock := none }
  | unheard : DelLock pid ext (.error .connectionLost) { ext with lock := none }
  | failed : DelLock pid ext (.error .connectionLost) (ext.leave pid)

/-- A command that changes Redis takes effect, or fails without one; a failure may
also be that of the reply alone. -/
inductive Command (ext ext' : Ext) : Except Exception Unit → Ext → Prop where
  | done : Command ext ext' (.ok ()) ext'
  | unheard : Command ext ext' (.error .connectionLost) ext'
  | failed : Command ext ext' (.error .connectionLost) ext

/-- A generated token has a hash that no earlier one had. -/
def Fresh (config : Config) (ext : Ext) (pair : TokenPair) : Prop :=
  ∀ issue ∈ ext.issued, config.hashToken issue.pair.refreshToken ≠
    config.hashToken pair.refreshToken

def Ext.issue (ext : Ext) (pid : Nat) (pair : TokenPair) : Ext :=
  { ext with issued := ext.issued ++ [⟨pid, pair⟩] }

def Ext.sign (ext : Ext) (accessToken : String) (token : AccessToken) : Ext :=
  { ext with signed := Function.update ext.signed accessToken (some token) }

/-- `SET denylist:<jti> 1 EX ttl`. -/
def Ext.deny (ext : Ext) (jti : String) (now : DateTime) (ttl : Nat) : Ext :=
  { ext with denylist := Function.update ext.denylist jti (some (now + ttl * 1000)) }

def Ext.setCache (ext : Ext) (tokenHash encrypted : String) (now : DateTime) : Ext :=
  { ext with
    cache := Function.update ext.cache tokenHash
      (some ⟨encrypted, now + gracePeriodSeconds * 1000⟩) }

def Ext.delCache (ext : Ext) (tokenHash : String) : Ext :=
  { ext with cache := Function.update ext.cache tokenHash none }

def Outside.Answers (config : Config) (pid : Nat) :
    (x : Outside) → Store → Ext → Except Exception x.Reply → Ext → Prop
  | .findToken tokenHash, d, ext, reply, ext' =>
    ext' = ext ∧ Reads reply (d.refreshTokens.get? tokenHash)
  | .expired token, d, ext, reply, ext' =>
    ext' = ext ∧ reply = .ok (decide (token.expiresAt ≤ d.now))
  | .withinGrace _ revokedAt, d, ext, reply, ext' =>
    ext' = ext ∧ reply = .ok (decide (d.now - revokedAt ≤ gracePeriodSeconds * 1000))
  | .findById id, d, ext, reply, ext' => ext' = ext ∧ Reads reply (d.users.get? id)
  | .findByEmail email, d, ext, reply, ext' =>
    ext' = ext ∧ Reads reply (d.users.rows.find? fun row => row.email = email)
  | .argon2Verify hash plain, _, ext, reply, ext' =>
    ext' = ext ∧ Reads reply (config.verify hash plain)
  | .generateTokenPair userId email role, d, ext, reply, ext' =>
    (∃ pair jti lifetime, Fresh config ext pair ∧ ext.signed pair.accessToken = none ∧
      config.ms config.accessExpiry = some lifetime ∧ reply = .ok pair ∧
        ext' = (ext.issue pid pair).sign pair.accessToken
        ⟨⟨userId, email, role, jti⟩, d.now / 1000 + lifetime / 1000⟩) ∨
      reply = .error .connectionLost ∧ ext' = ext
  | .getRefreshExpiry, d, ext, reply, ext' =>
    ext' = ext ∧ reply = .ok (d.now + config.refreshExpiry)
  | .draw, _, ext, reply, ext' => ext' = ext ∧ ∃ draw, reply = .ok draw
  | .getCache tokenHash, d, ext, reply, ext' =>
    ext' = ext ∧ Reads reply (ext.cached d.now tokenHash)
  | .setCache tokenHash encrypted, d, ext, reply, ext' =>
    Command ext (ext.setCache tokenHash encrypted d.now) reply ext'
  | .delCache tokenHash, _, ext, reply, ext' => Command ext (ext.delCache tokenHash) reply ext'
  | .denylist jti, d, ext, reply, ext' =>
    Command ext (ext.deny jti d.now config.getAccessTokenTtlSeconds) reply ext'
  | .verifyJwt accessToken, d, ext, reply, ext' =>
    ext' = ext ∧ reply = match ext.verified d.now accessToken with
      | none => .error (.unauthorized "Unauthorized")
      | some token => .ok token.payload
  | .getDenylist jti, d, ext, reply, ext' => ext' = ext ∧ Reads reply (ext.denied d.now jti)
  | .setLock, _, ext, reply, ext' => SetLock pid ext reply ext'
  | .delLock, _, ext, reply, ext' => DelLock pid ext reply ext'

/-- A service method. -/
abbrev Svc (α : Type) := Service TxCall Outside TxCall.Out Outside.Reply Exception α

def transact (c : TxCall) : Svc c.Out := Service.transact c

def outside (x : Outside) : Svc x.Reply := Service.outside x

/-- The classes of `findRefreshTokenWithGrace`, with the token that was found. -/
inductive SessionStatus where
  | notFound
  | expired (token : RefreshToken)
  | active (token : RefreshToken)
  | gracePeriod (token : RefreshToken)
  | reuseDetected (token : RefreshToken)

namespace AuthRepository

def findRefreshTokenWithGrace (hash : String) : Svc SessionStatus := do
  match ← outside (.findToken hash) with
  | none => return .notFound
  | some token =>
    if ← outside (.expired token) then return .expired token
    else
      match token.revokedAt with
      | none => return .active token
      | some revokedAt =>
        if ← outside (.withinGrace token revokedAt) then return .gracePeriod token
        else return .reuseDetected token

/-- Batches until one is not full. A loop that would go on after `batches` of them
breaks off with the connection. -/
def deleteAllExpiredTokens (batchSize : Nat) : (batches : Nat) → Svc Nat
  | 0 => throw .connectionLost
  | batches + 1 => do
    let draw ← outside .draw
    let result ← transact (.deleteExpiredBatch batchSize draw.first)
    if result < batchSize then return result
    else
      let total ← deleteAllExpiredTokens batchSize batches
      return result + total

end AuthRepository

namespace SessionService

/-- The rotation cache fails closed: an error counts as a miss. -/
def getRotationCache (config : Config) (oldTokenHash : String) : Svc (Option TokenPair) :=
  tryCatch (do
    match ← outside (.getCache oldTokenHash) with
    | none => return none
    | some cached => return config.decrypt cached) fun _ => pure none

def storeRotationCache (config : Config) (oldTokenHash : String) (tokens : TokenPair) : Svc Unit :=
  tryCatch (outside (.setCache oldTokenHash (config.encrypt tokens))) fun _ => pure ()

def clearRotationCache (tokenHash : String) : Svc Unit :=
  tryCatch (outside (.delCache tokenHash)) fun _ => pure ()

/-- A failure is logged and swallowed. -/
def revokeAccessToken (jti : String) : Svc Unit :=
  tryCatch (outside (.denylist jti)) fun _ => pure ()

def revokeAllTokens (userId : UserId) : Svc Unit := do
  let _ ← transact (.revokeAllUserTokens userId)

def persistRefreshToken (config : Config) (userId : UserId) (rawToken : String) : Svc Unit := do
  let expiresAt ← outside .getRefreshExpiry
  let draw ← outside .draw
  let _ ← transact (.createSessionAtomic ⟨draw.id, userId, config.hashToken rawToken,
    draw.createdAt, expiresAt⟩
    config.maxSessions draw.tie)

def rotateToken (config : Config) (oldHash : String) (newTokenData : NewToken)
    (tokens : TokenPair) : Svc Unit := do
  transact (.rotateRefreshToken oldHash newTokenData)
  storeRotationCache config oldHash tokens

end SessionService

/-- `value.trim()` over ASCII. -/
def trim (value : String) : String :=
  String.ofList (((value.toList.dropWhile Char.isWhitespace).reverse.dropWhile
    Char.isWhitespace).reverse)

/-- `email.toLowerCase().trim()`, which has nothing left to do beyond ASCII: the address of a
`LoginDto` has been through it before. -/
def normalizeEmail (email : String) : String := trim (String.ofList (email.toList.map Char.toLower))

namespace AuthService

/-- The hash that is verified when there is no user. -/
def dummyHash : String :=
  "$argon2id$v=19$m=65536,t=3,p=4$hlbOyIMZD2kSF2Zg2S12AQ$pZ32MvUaWfL9Qh3c87DX/lOFpPjzeT00a1fYJGAhWl8"

def createUserWithWallet (data : CreateUserInput) (id : UserId) (createdAt : DateTime) : Svc Unit :=
  tryCatch (transact (.createUserWithWallet data id createdAt)) fun error =>
    match error with
    | .uniqueViolation target =>
      throw (.conflict (PaymentWallet.AuthRepository.conflictField target ++ " already in use"))
    | error => throw error

def register (config : Config) (dto : CreateUserInput) : Svc TokenPair := do
  let draw ← outside .draw
  createUserWithWallet ⟨dto.name, dto.email, trim dto.phone, draw.hashed⟩ draw.id draw.createdAt
  let tokens ← outside (.generateTokenPair draw.id dto.email .user)
  SessionService.persistRefreshToken config draw.id tokens.refreshToken
  return tokens

def login (config : Config) (email password : String) : Svc TokenPair := do
  let user ← outside (.findByEmail (normalizeEmail email))
  let passwordMatch ← outside (.argon2Verify ((user.map (·.password)).getD dummyHash) password)
  match user with
  | none => throw (.unauthorized "Invalid credentials")
  | some user =>
    if !passwordMatch then throw (.unauthorized "Invalid credentials")
    else if user.status ≠ .active then
      throw (.unauthorized "Account is not active. Please contact support.")
    else
      let tokens ← outside (.generateTokenPair user.id user.email user.role)
      SessionService.persistRefreshToken config user.id tokens.refreshToken
      return tokens

/-- The path of an ACTIVE token. -/
def exchange (config : Config) (hash : String) (token : RefreshToken) : Svc TokenPair := do
  match ← outside (.findById token.userId) with
  | none => throw (.unauthorized "Unauthorized")
  | some user =>
    if user.status ≠ .active then
      throw (.unauthorized "Account is not active. Please contact support.")
    else
      let tokens ← outside (.generateTokenPair user.id user.email user.role)
      let expiresAt ← outside .getRefreshExpiry
      let draw ← outside .draw
      SessionService.rotateToken config hash
        ⟨draw.id, user.id, config.hashToken tokens.refreshToken, draw.createdAt, expiresAt⟩ tokens
      return tokens

def refresh (config : Config) (rawRefreshToken : String) : Svc TokenPair := do
  let hash := config.hashToken rawRefreshToken
  match ← AuthRepository.findRefreshTokenWithGrace hash with
  | .notFound | .expired _ => throw (.unauthorized "Invalid token.")
  | .reuseDetected token =>
    SessionService.revokeAllTokens token.userId
    SessionService.clearRotationCache hash
    throw (.unauthorized "Security breach detected. Please log in again.")
  | .gracePeriod _ =>
    match ← SessionService.getRotationCache config hash with
    | some cached => return cached
    | none =>
      SessionService.clearRotationCache hash
      throw (.unauthorized "Invalid token.")
  | .active token => exchange config hash token

/-- The end of a logout whose token is the user's. -/
def endSession (hash userId jti : String) (token : RefreshToken) (isActive : Bool) : Svc Unit := do
  if token.userId ≠ userId then throw (.unauthorized "Identity Mismatch")
  else
    SessionService.clearRotationCache hash
    SessionService.revokeAccessToken jti
    if isActive then
      let _ ← transact (.revokeRefreshToken hash)

def logout (config : Config) (rawRefreshToken : String) (userId : UserId) (jti : String) :
    Svc Unit := do
  let hash := config.hashToken rawRefreshToken
  match ← AuthRepository.findRefreshTokenWithGrace hash with
  | .notFound => return ()
  | .reuseDetected token => SessionService.revokeAllTokens token.userId
  | .active token => endSession hash userId jti token true
  | .expired token | .gracePeriod token => endSession hash userId jti token false

def logoutAll (userId : UserId) (jti : String) : Svc Unit := do
  SessionService.revokeAllTokens userId
  SessionService.revokeAccessToken jti

end AuthService

namespace UsersService

def changePassword (userId : UserId) (jti currentPassword newPassword : String) : Svc Unit := do
  match ← outside (.findById userId) with
  | none => throw (.notFound "User not found")
  | some user =>
    if !(← outside (.argon2Verify user.password currentPassword)) then
      throw (.unauthorized "Current password is incorrect")
    else if ← outside (.argon2Verify user.password newPassword) then
      throw (.badRequest "New password must differ from current password")
    else
      let draw ← outside .draw
      transact (.updatePasswordAndRevokeSessions userId draw.hashed)
      SessionService.revokeAccessToken jti

def closeUser (userId : UserId) : Svc Unit := do
  let draw ← outside .draw
  transact (.closeAccount userId draw.wallet)

def closeAccount (userId : UserId) (jti : String) : Svc Unit := do
  match ← outside (.findById userId) with
  | none => throw (.notFound "User not found")
  | some _ =>
    closeUser userId
    SessionService.revokeAccessToken jti

def updateUserStatus (requesterId targetId : UserId) (status : Option AccountStatus)
    (role : Option Role) :
    Svc (Option User) := do
  if status.isNone && role.isNone then
    throw (.badRequest "At least one field (status or role) must be provided")
  else if requesterId = targetId then
    throw (.forbidden "Administrators cannot modify their own account via this endpoint")
  else
    match ← outside (.findById targetId) with
    | none => throw (.notFound "User not found")
    | some _ =>
      if status = some .closed then closeUser targetId
      else transact (.updateStatusOrRole targetId status role)
      outside (.findById targetId)

end UsersService

namespace JwtStrategy

/-- An unreadable denylist denies the request. -/
def isRevoked (jti : String) : Svc Bool :=
  tryCatch (outside (.getDenylist jti)) fun _ =>
    throw (.serviceUnavailable "Authentication service temporarily unavailable. Please try again.")

def validate (accessToken : String) : Svc JwtPayload := do
  let payload ← outside (.verifyJwt accessToken)
  if ← isRevoked payload.jti then throw (.unauthorized "Token has been revoked")
  else
    match ← outside (.findById payload.sub) with
    | none => throw (.unauthorized "User no longer exists")
    | some user =>
      if user.status ≠ .active then throw (.unauthorized "Account is not active.")
      else return payload

end JwtStrategy

/-- No required roles admit everyone. -/
def RolesGuard.canActivate (requiredRoles : List Role) (user : JwtPayload) : Bool :=
  requiredRoles.isEmpty || requiredRoles.any (user.role = ·)

/-- What runs before a handler with these `@Roles`. -/
def admission (requiredRoles : List Role) (accessToken : String) : Svc JwtPayload := do
  let user ← JwtStrategy.validate accessToken
  if RolesGuard.canActivate requiredRoles user then return user
  else throw (.forbidden "Forbidden resource")

/-- Cron job. The sweep's exceptions are logged, so the `finally` is a sequel. -/
def TokenCleanupService.cleanupExpiredTokens (batches : Nat) : Svc Unit := do
  let acquired ← outside .setLock
  if acquired then
    tryCatch (do
      let _ ← AuthRepository.deleteAllExpiredTokens cleanupBatchSize batches) fun _ => pure ()
    outside .delLock
  else pure ()

/-- What clients, operators and the scheduler ask for, and the passing of time. -/
inductive Request where
  | register (dto : CreateUserInput)
  | login (email password : String)
  | refresh (refreshToken : String)
  | logout (refreshToken : String) (userId : UserId) (jti : String)
  | logoutAll (userId : UserId) (jti : String)
  | changePassword (userId : UserId) (jti currentPassword newPassword : String)
  | closeAccount (userId : UserId) (jti : String)
  | updateUserStatus (requesterId targetId : UserId)
      (status : Option AccountStatus) (role : Option Role)
  | cleanupExpiredTokens (batches : Nat)
  | tick (elapsed : Nat)
deriving DecidableEq

inductive Response where
  | tokens (pair : TokenPair)
  | user (user : Option User)
  | done
deriving DecidableEq

def Request.handler (config : Config) : Request → Svc Response
  | .register dto => return .tokens (← AuthService.register config dto)
  | .login email password => return .tokens (← AuthService.login config email password)
  | .refresh refreshToken => return .tokens (← AuthService.refresh config refreshToken)
  | .logout refreshToken userId jti => do
    AuthService.logout config refreshToken userId jti
    return .done
  | .logoutAll userId jti => do
    AuthService.logoutAll userId jti
    return .done
  | .changePassword userId jti currentPassword newPassword => do
    UsersService.changePassword userId jti currentPassword newPassword
    return .done
  | .closeAccount userId jti => do
    UsersService.closeAccount userId jti
    return .done
  | .updateUserStatus requesterId targetId status role =>
    return .user (← UsersService.updateUserStatus requesterId targetId status role)
  | .cleanupExpiredTokens batches => do
    TokenCleanupService.cleanupExpiredTokens batches
    return .done
  | .tick elapsed => do
    transact (.tick elapsed)
    return .done

/-- The lock key expires by itself, also under a working holder. -/
inductive Expire (ext : Ext) : Ext → Prop where
  | lock : ext.lock = some lock → Expire ext { ext with lock := none }

def sessions (config : Config) :
    System Store Write Statement Statement.Reply LockKey Exception TxCall TxCall.Out
    Outside Outside.Reply Ext Request Response where
  engine := postgres
  code := TxCall.code
  outside := fun pid x d ext reply ext' => x.Answers config pid d ext reply ext'
  drift := Expire
  handler := Request.handler config
  lost := .connectionLost

abbrev State := World Store Write Statement Statement.Reply LockKey Exception
    TxCall TxCall.Out Outside
  Outside.Reply Ext Request Response

abbrev SessionPhase :=
  Phase Write Statement Statement.Reply LockKey Exception TxCall TxCall.Out Outside
      Outside.Reply Response

abbrev SharedState := Shared Store TxCall Ext

abbrev Permit := SharedState → Label TxCall Outside Request Exception → Prop

/-- No restriction on the runs. -/
def anything : Permit := fun _ _ => True

/-- Runs from an empty database, with no restriction. -/
def Reachable (config : Config) (w : State) : Prop :=
  (sessions config).Reaches anything (World.init Store.empty Ext.idle) w

end PaymentWallet.Sessions
