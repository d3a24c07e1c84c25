import ApexPipeline.ServiceAdapters

/-! `auth_service.cpp` and `session_store.cpp`. The decoders and the encoder of the FlatBuffers
tables and the hash are parameters. -/
namespace ApexPipeline.AuthService
open Service KafkaEnvelope

inductive LoginError where
  | none
  | badCredentials
  | accountLocked
  | internalError
  deriving DecidableEq, Repr

inductive LogoutError where
  | none
  | invalidToken
  | internalError
  deriving DecidableEq, Repr

inductive RefreshTokenError where
  | none
  | tokenExpired
  | tokenRevoked
  | tokenInvalid
  | internalError
  deriving DecidableEq, Repr

structure LoginRequest where
  email : Option Bytes
  password : Option Bytes
  deriving DecidableEq, Repr

structure LogoutRequest where
  accessToken : Option Bytes
  deriving DecidableEq, Repr

structure RefreshTokenRequest where
  refreshToken : Option Bytes
  deriving DecidableEq, Repr

inductive Table where
  | loginResponse (error : LoginError) (accessToken refreshToken : Option Bytes := .none)
      (userId : UInt64 := 0) (expiresInSec : UInt32 := 0)
  | logoutResponse (error : LogoutError)
  | refreshTokenResponse (error : RefreshTokenError) (accessToken : Option Bytes := .none)
      (expiresInSec : UInt32 := 0) (newRefreshToken : Option Bytes := .none)
  deriving DecidableEq, Repr

structure Config where
  accessTokenTtl : Int := 900
  refreshTokenTtl : Int := 604800
  responseTopic : Bytes := ascii "auth.responses"
  redisSessionPrefix : Bytes := ascii "auth:session:"
  redisBlacklistPrefix : Bytes := ascii "jwt:blacklist:"
  sessionTtl : Int := 86400
  sha256Hex : Bytes → Bytes
  decodeLogin : Bytes → Option LoginRequest
  decodeLogout : Bytes → Option LogoutRequest
  decodeRefreshToken : Bytes → Option RefreshTokenRequest
  encode : Table → Bytes

namespace MsgIds

def loginRequest : UInt32 := 1000
def loginResponse : UInt32 := 1001
def logoutRequest : UInt32 := 1002
def logoutResponse : UInt32 := 1003
def refreshTokenRequest : UInt32 := 1004
def refreshTokenResponse : UInt32 := 1005

end MsgIds

def directionResponse : UInt16 := 0x0001

def sourceAuth : UInt16 := 1

/-- `%s` reads up to a null byte. -/
def cString (text : Bytes) : Bytes := text.takeWhile (· ≠ 0)

/-- The casts of a time to live, to `int` and to `uint32_t`. -/
def toInt32 (ttl : Int) : Int := (ttl + 2^31) % 2^32 - 2^31

def toUInt32 (ttl : Int) : UInt32 := .ofNat (ttl % 2^32).toNat

namespace SessionStore

def isHexDigit (byte : UInt8) : Bool :=
  (48 ≤ byte && byte ≤ 57) || (97 ≤ byte && byte ≤ 102) || (65 ≤ byte && byte ≤ 70)

def isValidTokenHash (hash : Bytes) : Bool :=
  if hash.isEmpty || decide (hash.length > 128) then false else hash.all isHexDigit

/-- A command of which only the failure is looked at. -/
def command (arguments : List Bytes) : Task Table (Except ErrorCode Unit) := do
  let result ← redis .auth arguments
  match result with
  | .error code => pure (.error code)
  | .ok _ => pure (.ok ())

def sessionKey (cfg : Config) (userId : UInt64) : Bytes := cfg.redisSessionPrefix ++ decimal userId.toNat

def userKey (userId : UInt64) : Bytes := ascii "session:user:" ++ decimal userId.toNat

def address (sessionId : UInt64) (coreId : UInt16) : Bytes :=
  decimal sessionId.toNat ++ ascii ":" ++ decimal coreId.toNat

def set (cfg : Config) (userId : UInt64) (sessionData : Bytes) : Task Table (Except ErrorCode Unit) :=
  command [ascii "SETEX",sessionKey cfg userId,decimalInt (toInt32 cfg.sessionTtl),cString sessionData]

def remove (cfg : Config) (userId : UInt64) : Task Table (Except ErrorCode Unit) :=
  command [ascii "DEL",sessionKey cfg userId]

def setUserSessionId (cfg : Config) (userId sessionId : UInt64) (coreId : UInt16) :
    Task Table (Except ErrorCode Unit) :=
  command [ascii "SETEX",userKey userId,decimalInt (toInt32 cfg.sessionTtl),address sessionId coreId]

def removeUserSessionId (userId : UInt64) : Task Table (Except ErrorCode Unit) :=
  command [ascii "DEL",userKey userId]

def blacklistToken (cfg : Config) (tokenHash : Bytes) (ttl : Int) : Task Table (Except ErrorCode Unit) :=
  if !isValidTokenHash tokenHash then pure (.error .invalidMessage)
  else command [ascii "SETEX",cfg.redisBlacklistPrefix ++ tokenHash,decimalInt (toInt32 ttl),ascii "1"]

end SessionStore

/-- An empty reply topic stands for the configured one. -/
def sendResponse (cfg : Config) (msgId : UInt32) (corrId : UInt64) (coreId : UInt16) (sessionId : UInt64)
    (table : Table) (replyTopic : Bytes) : Task Table Unit := do
  let builder := (({} : EnvelopeBuilder).routing msgId directionResponse).metadata coreId corrId
    sourceAuth sessionId 0
  let targetTopic := if replyTopic.isEmpty then cfg.responseTopic else replyTopic
  let _ ← produce targetTopic (decimal sessionId.toNat) (.envelope builder table)
  pure ()

def sendLoginError (cfg : Config) (metadata : MetadataPrefix) (error : LoginError) : Task Table Outcome := do
  sendResponse cfg MsgIds.loginResponse metadata.corrId metadata.coreId metadata.sessionId (.loginResponse error) []
  ok

def sendLogoutError (cfg : Config) (metadata : MetadataPrefix) (error : LogoutError) : Task Table Outcome := do
  sendResponse cfg MsgIds.logoutResponse metadata.corrId metadata.coreId metadata.sessionId
    (.logoutResponse error) []
  ok

def sendRefreshTokenError (cfg : Config) (metadata : MetadataPrefix) (error : RefreshTokenError) :
    Task Table Outcome := do
  sendResponse cfg MsgIds.refreshTokenResponse metadata.corrId metadata.coreId metadata.sessionId
    (.refreshTokenResponse error) []
  ok

def sessionData (userId : UInt64) (email : Bytes) (now : UInt64) : Bytes :=
  ascii "uid:" ++ decimal userId.toNat ++ ascii "|email:" ++ email ++ ascii "|created:" ++
    decimal (now.toNat / 1000)

/-- The failures after the refresh token are logged only. -/
def onLogin (cfg : Config) (metadata : MetadataPrefix) (request : LoginRequest) : Task Table Outcome :=
  match request.email, request.password with
  | some email, some password => do
    let userResult ← query "SELECT id, password_hash, locked_until > NOW() FROM users WHERE email = $1" [email]
    match userResult with
    | .error _ => sendLoginError cfg metadata .internalError
    | .ok pgRes =>
      if pgRes.rowCount = 0 then sendLoginError cfg metadata .badCredentials
      else
        match fromChars (pgRes.value 0 0) with
        | none => sendLoginError cfg metadata .internalError
        | some userId =>
          let isLocked := !pgRes.isNull 0 2 && pgRes.value 0 2 == ascii "t"
          if isLocked then sendLoginError cfg metadata .accountLocked
          else do
            let bcryptOk ← verifyPassword password (pgRes.value 0 1)
            if !bcryptOk then sendLoginError cfg metadata .badCredentials
            else do
              let accessToken ← createAccessToken userId email
              if accessToken.isEmpty then sendLoginError cfg metadata .internalError
              else do
                let refreshTokenResult ← generateSecureToken
                match refreshTokenResult with
                | .error _ => sendLoginError cfg metadata .internalError
                | .ok refreshToken => do
                  let _ ← execute
                    "INSERT INTO refresh_tokens (token_hash, user_id, expires_at) VALUES ($1, $2, NOW() + make_interval(secs => $3::int))"
                    [cfg.sha256Hex refreshToken,decimal userId.toNat,decimalInt cfg.refreshTokenTtl]
                  let created ← now
                  let _ ← SessionStore.set cfg userId (sessionData userId email created)
                  let _ ← SessionStore.setUserSessionId cfg userId metadata.sessionId metadata.coreId
                  sendResponse cfg MsgIds.loginResponse metadata.corrId metadata.coreId metadata.sessionId
                    (.loginResponse .none accessToken refreshToken userId (toUInt32 cfg.accessTokenTtl)) []
                  ok
  | _, _ => sendLoginError cfg metadata .badCredentials

/-- A token without an id or without time left is not blacklisted. -/
def blacklistClaims (cfg : Config) (claims : Claims) (remaining : Int) : Task Table Unit :=
  if 0 < remaining && !claims.jti.isEmpty then do
    let _ ← SessionStore.blacklistToken cfg claims.jti remaining
    pure ()
  else pure ()

def onLogout (cfg : Config) (metadata : MetadataPrefix) (request : LogoutRequest) : Task Table Outcome :=
  match request.accessToken with
  | none => sendLogoutError cfg metadata .invalidToken
  | some accessToken => do
    let verifyResult ← verifyAccessToken accessToken
    match verifyResult with
    | .error _ => sendLogoutError cfg metadata .invalidToken
    | .ok claims => do
      let remaining ← remainingTtl accessToken
      blacklistClaims cfg claims remaining
      let _ ← SessionStore.remove cfg claims.userId
      let _ ← SessionStore.removeUserSessionId claims.userId
      sendResponse cfg MsgIds.logoutResponse metadata.corrId metadata.coreId metadata.sessionId
        (.logoutResponse .none) []
      ok

/-- The token has been used before: its whole family is revoked. -/
def revokeFamily (cfg : Config) (userId : UInt64) (tokenFamily : Bytes) : Task Table Unit := do
  let _ ← execute "UPDATE refresh_tokens SET revoked_at = NOW() WHERE token_family = $1 AND revoked_at IS NULL"
    [tokenFamily]
  let _ ← SessionStore.remove cfg userId
  let _ ← SessionStore.removeUserSessionId userId
  pure ()

inductive Rotation where
  | committed
  | failed
  | commitFailed
  deriving DecidableEq, Repr

/-- The transaction that revokes the old token and stores the new one. -/
def rotate (cfg : Config) (userId : UInt64) (tokenHash newRefreshHash tokenFamily : Bytes) :
    Task Table Rotation := do
  let connResult ← acquireConnected
  match connResult with
  | .error _ => pure .failed
  | .ok _ => do
    let beginResult ← queryAsync "BEGIN"
    match beginResult with
    | .error _ => do
      let _ ← discard
      pure .failed
    | .ok _ => do
      let revokeResult ← queryParamsAsync
        "UPDATE refresh_tokens SET revoked_at = NOW() WHERE token_hash = $1" [tokenHash]
      match revokeResult with
      | .error _ => do
        let _ ← queryAsync "ROLLBACK"
        let _ ← discard
        pure .failed
      | .ok _ => do
        let insertResult ← queryParamsAsync
          "INSERT INTO refresh_tokens (token_hash, user_id, expires_at, token_family) VALUES ($1, $2, NOW() + make_interval(secs => $3::int), $4)"
          [newRefreshHash,decimal userId.toNat,decimalInt cfg.refreshTokenTtl,tokenFamily]
        match insertResult with
        | .error _ => do
          let _ ← queryAsync "ROLLBACK"
          let _ ← discard
          pure .failed
        | .ok _ => do
          let commitResult ← queryAsync "COMMIT"
          match commitResult with
          | .error _ => do
            let _ ← discard
            pure .commitFailed
          | .ok _ => do
            let _ ← release
            pure .committed

def firstEmail (result : Except ErrorCode PgResult) : Bytes :=
  match result with
  | .ok result => if result.rowCount > 0 then result.value 0 0 else []
  | .error _ => []

def issueTokens (cfg : Config) (metadata : MetadataPrefix) (userId : UInt64) (newRefreshToken : Bytes) :
    Task Table Outcome := do
  let emailResult ← query "SELECT email FROM users WHERE id = $1" [decimal userId.toNat]
  let userEmail := firstEmail emailResult
  if userEmail.isEmpty then sendRefreshTokenError cfg metadata .internalError
  else do
    let newAccessToken ← createAccessToken userId userEmail
    if newAccessToken.isEmpty then sendRefreshTokenError cfg metadata .internalError
    else do
      let created ← now
      let _ ← SessionStore.set cfg userId (sessionData userId userEmail created)
      let _ ← SessionStore.setUserSessionId cfg userId metadata.sessionId metadata.coreId
      sendResponse cfg MsgIds.refreshTokenResponse metadata.corrId metadata.coreId metadata.sessionId
        (.refreshTokenResponse .none newAccessToken (toUInt32 cfg.accessTokenTtl) newRefreshToken) []
      ok

def exchangeToken (cfg : Config) (metadata : MetadataPrefix) (userId : UInt64)
    (tokenHash tokenFamily : Bytes) : Task Table Outcome := do
  let expiryResult ← query "SELECT 1 FROM refresh_tokens WHERE token_hash = $1 AND expires_at < NOW()" [tokenHash]
  match expiryResult with
  | .error _ => sendRefreshTokenError cfg metadata .internalError
  | .ok expired =>
    if expired.rowCount > 0 then sendRefreshTokenError cfg metadata .tokenExpired
    else do
      let newRtResult ← generateSecureToken
      match newRtResult with
      | .error _ => sendRefreshTokenError cfg metadata .internalError
      | .ok newRefreshToken => do
        let rotation ← rotate cfg userId tokenHash (cfg.sha256Hex newRefreshToken) tokenFamily
        match rotation with
        | .failed => sendRefreshTokenError cfg metadata .internalError
        | .commitFailed => do
          -- the transaction is neither committed nor rolled back when it goes out of scope
          let outcome ← sendRefreshTokenError cfg metadata .internalError
          let _ ← markPoisoned
          pure outcome
        | .committed => issueTokens cfg metadata userId newRefreshToken

def onRefreshToken (cfg : Config) (metadata : MetadataPrefix) (request : RefreshTokenRequest) :
    Task Table Outcome :=
  match request.refreshToken with
  | none => sendRefreshTokenError cfg metadata .tokenInvalid
  | some refreshToken => do
    let tokenHash := cfg.sha256Hex refreshToken
    let lookupResult ← query
      "SELECT user_id, revoked_at, expires_at, token_family FROM refresh_tokens WHERE token_hash = $1"
      [tokenHash]
    match lookupResult with
    | .error _ => sendRefreshTokenError cfg metadata .internalError
    | .ok pgRes =>
      if pgRes.rowCount = 0 then sendRefreshTokenError cfg metadata .tokenInvalid
      else
        match fromChars (pgRes.value 0 0) with
        | none => sendRefreshTokenError cfg metadata .internalError
        | some userId =>
          let isRevoked := !pgRes.isNull 0 1
          let tokenFamily := pgRes.value 0 3
          if isRevoked then do
            revokeFamily cfg userId tokenFamily
            sendRefreshTokenError cfg metadata .tokenRevoked
          else exchangeToken cfg metadata userId tokenHash tokenFamily

def routes (cfg : Config) : List (UInt32 × (Invocation → Task Table Outcome)) :=
  [(MsgIds.loginRequest,kafkaRoute cfg.decodeLogin (onLogin cfg)),
    (MsgIds.logoutRequest,kafkaRoute cfg.decodeLogout (onLogout cfg)),
    (MsgIds.refreshTokenRequest,kafkaRoute cfg.decodeRefreshToken (onRefreshToken cfg))]

section Commands
open Coroutine SessionStore

def Plain : Command Table → Prop
  | .redis .. | .produce .. => False
  | _ => True

/-- The property has every command that a handler may give. -/
structure Covers (cfg : Config) (metadata : MetadataPrefix) (property : Command Table → Prop) : Prop where
  plain : ∀ {command}, Plain command → property command
  responds : ∀ key builder table, property (.produce cfg.responseTopic key (.envelope builder table))
  session : ∀ userId ttl data, property (.redis .auth [ascii "SETEX",sessionKey cfg userId,ttl,data])
  place : ∀ userId ttl,
    property (.redis .auth [ascii "SETEX",userKey userId,ttl,address metadata.sessionId metadata.coreId])
  removes : ∀ key, property (.redis .auth [ascii "DEL",key])
  blacklists : ∀ hash ttl, property (.redis .auth [ascii "SETEX",cfg.redisBlacklistPrefix ++ hash,ttl,ascii "1"])

variable {cfg : Config} {metadata : MetadataPrefix} {property : Command Table → Prop}

theorem command_always {arguments : List Bytes} (given : property (.redis .auth arguments)) :
    (command arguments).Always property := by
  refine .call given fun reply => ?_
  split <;> trivial

namespace Covers
variable (covers : Covers cfg metadata property)
include covers

theorem respond : (do sendResponse cfg msgId corrId coreId sessionId table []; ok).Always property :=
  .bind (.call (covers.responds ..) fun _ => trivial) fun _ => trivial

theorem enter : (do
      let _ ← SessionStore.set cfg userId data
      let _ ← setUserSessionId cfg userId metadata.sessionId metadata.coreId
      sendResponse cfg msgId corrId coreId sessionId table []
      ok).Always property :=
  .bind (command_always (covers.session ..)) fun _ => .bind (command_always (covers.place ..)) fun _ => covers.respond

theorem leave {rest : Task Table A} (later : rest.Always property) : (do
      let _ ← remove cfg userId
      let _ ← removeUserSessionId userId
      rest).Always property :=
  .bind (command_always (covers.removes _)) fun _ => .bind (command_always (covers.removes _)) fun _ => later

theorem onLogin (request : LoginRequest) : (AuthService.onLogin cfg metadata request).Always property := by
  simp only [AuthService.onLogin]
  repeat' first
    | exact covers.respond
    | exact covers.enter
    | refine .call (covers.plain trivial) fun reply => ?_
    | split

theorem onLogout (request : LogoutRequest) : (AuthService.onLogout cfg metadata request).Always property := by
  have blacklist (claims : Claims) (remaining : Int) : (blacklistClaims cfg claims remaining).Always property := by
    simp only [blacklistClaims,blacklistToken]
    split
    · split
      · trivial
      · exact .bind (command_always (covers.blacklists ..)) fun _ => trivial
    · trivial
  simp only [AuthService.onLogout]
  split
  · exact covers.respond
  refine .call (covers.plain trivial) fun verified => ?_
  split
  · exact covers.respond
  · refine .call (covers.plain trivial) fun remaining => ?_
    exact .bind (blacklist _ _) fun _ => covers.leave covers.respond

theorem rotate : (AuthService.rotate cfg userId tokenHash newRefreshHash tokenFamily).Always property := by
  simp only [AuthService.rotate]
  repeat' first
    | trivial
    | refine .call (covers.plain trivial) fun reply => ?_
    | split

theorem issueTokens : (AuthService.issueTokens cfg metadata userId newRefreshToken).Always property := by
  refine .call (covers.plain trivial) fun email => .ite covers.respond ?_
  exact .call (covers.plain trivial) fun token => .ite covers.respond (.call (covers.plain trivial) fun _ => covers.enter)

theorem exchangeToken : (AuthService.exchangeToken cfg metadata userId tokenHash tokenFamily).Always property := by
  refine .call (covers.plain trivial) fun expiry => ?_
  split
  · exact covers.respond
  refine .ite covers.respond (.call (covers.plain trivial) fun token => ?_)
  split
  · exact covers.respond
  refine .bind covers.rotate fun rotation => ?_
  split
  · exact covers.respond
  · exact .bind covers.respond fun _ => .call (covers.plain trivial) fun _ => trivial
  · exact covers.issueTokens

theorem onRefreshToken (request : RefreshTokenRequest) :
    (AuthService.onRefreshToken cfg metadata request).Always property := by
  simp only [AuthService.onRefreshToken]
  split
  · exact covers.respond
  refine .call (covers.plain trivial) fun lookup => ?_
  split
  · exact covers.respond
  refine .ite covers.respond ?_
  split
  · exact covers.respond
  · refine .ite ?_ covers.exchangeToken
    exact .bind (.call (covers.plain trivial) fun _ => covers.leave trivial) fun _ => covers.respond

end Covers
end Commands

end ApexPipeline.AuthService
