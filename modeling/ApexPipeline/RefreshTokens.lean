import ApexPipeline.AuthService
import ApexPipeline.Execution
import ApexPipeline.Interleaving

/-! The table `refresh_tokens` under any logins and refreshes. PostgreSQL carries out one statement at a time: it
sees what has been committed and what its own transaction has written, and the writes of a transaction reach the
table when it commits. A statement that would have to wait for a row lock may also run at once here, which only adds
runs. -/
namespace ApexPipeline.RefreshTokens
open AuthService Service Coroutine KafkaEnvelope SessionStore

/-- The columns that the statements use. -/
structure Token where
  tokenHash : Bytes
  userId : Bytes
  expiresAt : Int
  revokedAt : Option Int
  tokenFamily : Bytes
  deriving DecidableEq, Repr

inductive Write where
  | revoke (tokenHash : Bytes) (time : Int)
  | revokeFamily (tokenFamily : Bytes) (time : Int)
  | insert (row : Token)
  deriving DecidableEq, Repr

def Write.apply (rows : List Token) : Write → List Token
  | .revoke tokenHash time =>
    rows.map fun row => if row.tokenHash = tokenHash then { row with revokedAt := some time } else row
  | .revokeFamily tokenFamily time =>
    rows.map fun row =>
      if row.tokenFamily = tokenFamily ∧ row.revokedAt = none then { row with revokedAt := some time } else row
  | .insert row => rows ++ [row]

/-- Times are in seconds. The last three are no part of the program: the committed exchanges, the families revoked
because a token was used again, and those of them for which a client was told so. -/
structure Database where
  clock : Int := 0
  tokens : List Token := []
  exchanges : List (Bytes × Bytes) := []
  reused : List Bytes := []
  answered : List Bytes := []
  deriving DecidableEq, Repr

structure Transaction where
  began : Int
  writes : List Write := []
  deriving DecidableEq, Repr

/-- The rotation exchanges the token that it revokes for the one that it inserts. -/
def exchanged : List Write → List (Bytes × Bytes)
  | [.revoke tokenHash _,.insert row] => [(tokenHash,row.tokenHash)]
  | _ => []

def Write.family? : Write → Option Bytes
  | .revokeFamily tokenFamily _ => some tokenFamily
  | _ => none

def Database.carryOut (db : Database) (writes : List Write) : Database :=
  { db with
    tokens := writes.foldl Write.apply db.tokens
    exchanges := db.exchanges ++ exchanged writes
    reused := db.reused ++ writes.filterMap Write.family? }

section Statements

def lookupSql : String :=
  "SELECT user_id, revoked_at, expires_at, token_family FROM refresh_tokens WHERE token_hash = $1"

def expirySql : String := "SELECT 1 FROM refresh_tokens WHERE token_hash = $1 AND expires_at < NOW()"

def loginInsertSql : String :=
  "INSERT INTO refresh_tokens (token_hash, user_id, expires_at) VALUES ($1, $2, NOW() + make_interval(secs => $3::int))"

def successorInsertSql : String :=
  "INSERT INTO refresh_tokens (token_hash, user_id, expires_at, token_family) VALUES ($1, $2, NOW() + make_interval(secs => $3::int), $4)"

def revokeSql : String := "UPDATE refresh_tokens SET revoked_at = NOW() WHERE token_hash = $1"

def revokeFamilySql : String :=
  "UPDATE refresh_tokens SET revoked_at = NOW() WHERE token_family = $1 AND revoked_at IS NULL"

end Statements

/-- `$3::int`. -/
def seconds : Bytes → Int
  | 45 :: digits => -(digitsValue digits : Int)
  | digits => digitsValue digits

/-- How the row is read; of the times only the null value is looked at. -/
def Token.cells (row : Token) : List (Option Bytes) :=
  [some row.userId,row.revokedAt.map decimalInt,some (decimalInt row.expiresAt),some row.tokenFamily]

/-- The queries on this table; those on others are answered by the surroundings. -/
def Database.select (db : Database) (sql : String) : List Bytes → Option PgResult
  | [tokenHash] =>
    let rows := db.tokens.filter fun row => row.tokenHash = tokenHash
    if sql = lookupSql then some ⟨rows.map Token.cells⟩
    else if sql = expirySql then
      some ⟨(rows.filter fun row => row.expiresAt < db.clock).map fun _ => [some (ascii "1")]⟩
    else none
  | _ => none

/-- What a statement writes; `uuid` is the default of the family. -/
def write? (time : Int) (uuid : Bytes) (sql : String) : List Bytes → Option Write
  | [first] =>
    if sql = revokeSql then some (.revoke first time)
    else if sql = revokeFamilySql then some (.revokeFamily first time)
    else none
  | [tokenHash,userId,ttl] =>
    if sql = loginInsertSql then some (.insert ⟨tokenHash,userId,time + seconds ttl,none,uuid⟩) else none
  | [tokenHash,userId,ttl,tokenFamily] =>
    if sql = successorInsertSql then some (.insert ⟨tokenHash,userId,time + seconds ttl,none,tokenFamily⟩) else none
  | _ => none

/-- The unique hash and the check on the expiry. -/
def Write.violates (time : Int) (rows : List Token) : Write → Bool
  | .insert row => rows.any (fun other => other.tokenHash = row.tokenHash) || decide (row.expiresAt ≤ time)
  | _ => false

/-- What belongs to a handler: the transaction on its connection. The last two are no part of the program: the family
of the token that was looked up, and the one whose revocation has succeeded. -/
structure Job where
  transaction : Option Transaction := none
  family : Option Bytes := none
  revoked : Option Bytes := none
  deriving DecidableEq, Repr

def Job.writes (job : Job) : List Write := (job.transaction.map Transaction.writes).getD []

def Write.hash? : Write → Option Bytes
  | .insert row => some row.tokenHash
  | _ => none

/-- The hashes that the transaction has inserted; nobody else can insert them before it ends. -/
def Job.inserts (job : Job) : List Bytes := job.writes.filterMap Write.hash?

/-- A statement outside of a transaction and a COMMIT may report a failure even if they were carried out.
`uuid` is what `gen_random_uuid` gives. -/
structure Fate extends Service.Fate Table where
  uuid : Bytes := []

/-- `taken` are the hashes that other open transactions have inserted. -/
def Write.waits (taken : List Bytes) : Write → Bool
  | .insert row => taken.contains row.tokenHash
  | _ => false

def Database.familyOf (db : Database) (tokenHash : Bytes) : Option Bytes :=
  (db.tokens.find? fun row => row.tokenHash = tokenHash).map Token.tokenFamily

def perform (fate : Fate) (db : Database) (taken : List Bytes) (job : Job) :
    (command : Command Table) → Option (Reply command × Database × Job)
  | .query sql params =>
    match db.select sql params with
    | some found =>
      let looked := if sql = lookupSql then { job with family := params.head?.bind db.familyOf } else job
      some (fate.result found,db,looked)
    | none => some (fate.answer (.query sql params),db,job)
  | .execute sql params =>
    match write? db.clock fate.uuid sql params with
    | none => some (fate.answer (.execute sql params),db,job)
    | some write =>
      if !fate.carried then some (fate.result 0,db,job)
      else if write.violates db.clock db.tokens || write.waits taken then none
      else some (fate.result 1,db.carryOut [write],
        if fate.error.isNone then { job with revoked := write.family?.or job.revoked } else job)
  | .queryAsync sql =>
    if sql = "BEGIN" then
      some (fate.result ⟨[]⟩,db,if fate.error.isNone then { job with transaction := some { began := db.clock } } else job)
    else if sql = "COMMIT" then
      if fate.carried then some (fate.result ⟨[]⟩,db.carryOut job.writes,{ job with transaction := none })
      else some (fate.result ⟨[]⟩,db,job)
    else if sql = "ROLLBACK" then
      some (fate.result ⟨[]⟩,db,if fate.error.isNone then { job with transaction := none } else job)
    else some (fate.answer (.queryAsync sql),db,job)
  | .queryParamsAsync sql params =>
    match job.transaction with
    | none => some (fate.answer (.queryParamsAsync sql params),db,job)
    | some transaction =>
      match write? transaction.began fate.uuid sql params with
      | none => some (fate.answer (.queryParamsAsync sql params),db,job)
      | some write =>
        if fate.error.isSome then some (fate.result ⟨[]⟩,db,job)
        else if write.violates transaction.began (transaction.writes.foldl Write.apply db.tokens) ||
            write.waits taken then none
        else some (fate.result ⟨[]⟩,db,
          { job with transaction := some { transaction with writes := transaction.writes ++ [write] } })
  | .discard => some ((),db,{ job with transaction := none })
  | .produce topic key message =>
    let answered :=
      match message with
      | .envelope _ (.refreshTokenResponse .tokenRevoked ..) => job.revoked.toList
      | _ => []
    some (fate.answer (.produce topic key message),{ db with answered := db.answered ++ answered },job)
  | command => some (fate.answer command,db,job)

/-- `gen_random_uuid` gives a value that no row has. -/
def attempt (fate : Fate) (db : Database) (others : List Job) (job : Job) (command : Command Table) :
    Option (Reply command × Database × Job) :=
  if db.tokens.any fun row => row.tokenFamily = fate.uuid then none
  else perform fate db (others.flatMap Job.inserts) job command

abbrev System := Crew Database Job (Command Table) Reply Outcome

inductive Action where
  | login (metadata : MetadataPrefix) (request : LoginRequest)
  | refresh (metadata : MetadataPrefix) (request : RefreshTokenRequest)
  | resume (job : Nat) (fate : Fate)
  | tick (elapsed : Nat)

def step (cfg : Config) (s : System) : Action → Option System
  | .login metadata request => some (s.start {} (onLogin cfg metadata request))
  | .refresh metadata request => some (s.start {} (onRefreshToken cfg metadata request))
  | .resume index fate => s.resume (attempt fate) index
  | .tick elapsed => some { s with shared := { s.shared with clock := s.shared.clock + elapsed } }

inductive Stage where
  | start
  | found (tokenHash tokenFamily : Bytes)
  | begun (tokenHash tokenFamily : Bytes)
  | revoking (tokenHash tokenFamily : Bytes)
  | rotating (tokenHash tokenFamily : Bytes)
  | reused (tokenFamily : Bytes)
  | failed
  | ended
  deriving DecidableEq, Repr

def Stage.permit (stage : Stage) : Command Table → Prop
  | .query sql params => sql = lookupSql → stage = .start ∧ ∃ tokenHash, params = [tokenHash]
  | .execute sql params =>
    (stage = .start ∧ sql = loginInsertSql ∧ ∃ tokenHash userId ttl, params = [tokenHash,userId,ttl]) ∨
    ∃ tokenFamily, stage = .reused tokenFamily ∧ sql = revokeFamilySql ∧ params = [tokenFamily]
  | .queryAsync sql =>
    (sql = "BEGIN" ∧ ∃ tokenHash tokenFamily, stage = .found tokenHash tokenFamily) ∨
    (sql = "COMMIT" ∧ ∃ tokenHash tokenFamily, stage = .rotating tokenHash tokenFamily) ∨
    (sql = "ROLLBACK" ∧ stage = .failed)
  | .queryParamsAsync sql params =>
    (∃ tokenHash tokenFamily, stage = .begun tokenHash tokenFamily ∧ sql = revokeSql ∧ params = [tokenHash]) ∨
    ∃ tokenHash tokenFamily successor userId ttl, stage = .revoking tokenHash tokenFamily ∧
      sql = successorInsertSql ∧ params = [successor,userId,ttl,tokenFamily]
  | .discard => stage = .failed
  | _ => True

def lookedUp (tokenHash : Bytes) : Except ErrorCode PgResult → Stage
  | .error _ => .ended
  | .ok result =>
    if result.rowCount = 0 then .ended
    else if result.isNull 0 1 then .found tokenHash (result.value 0 3)
    else .reused (result.value 0 3)

def Stage.after (stage : Stage) : (command : Command Table) → Reply command → Stage
  | .query sql params, reply => if sql = lookupSql then lookedUp (params.headD []) reply else stage
  | .execute .., _ => .ended
  | .queryAsync _, reply =>
    match stage, reply with
    | .found tokenHash tokenFamily, .ok _ => .begun tokenHash tokenFamily
    | .rotating .., .ok _ => .ended
    | _, _ => .failed
  | .queryParamsAsync .., reply =>
    match stage, reply with
    | .begun tokenHash tokenFamily, .ok _ => .revoking tokenHash tokenFamily
    | .revoking tokenHash tokenFamily, .ok _ => .rotating tokenHash tokenFamily
    | _, _ => .failed
  | _, _ => stage

theorem after_query (stage : Stage) (params : List Bytes) (reply : Except ErrorCode PgResult) (other : sql ≠ lookupSql) :
    stage.after (.query sql params) reply = stage := by
  simp only [Stage.after,if_neg other]

def Stage.learn (stage : Stage) (command : Command Table) (reply : Reply command) (next : Stage) : Prop :=
  next = stage.after command reply

abbrev Follows {A : Type} (post : Stage → A → Prop) : Stage → Task Table A → Prop :=
  Tracks Stage.permit Stage.learn post

variable {post : Stage → A → Prop}

section
variable {next : Except ErrorCode PgResult → Task Table A}

theorem Follows.query (other : sql ≠ lookupSql) (later : ∀ reply, Follows post stage (next reply)) :
    Follows post stage (Service.query sql params >>= next) := by
  refine .call (fun same => absurd same other) ?_
  rintro reply _ rfl
  exact (after_query stage params reply other).symm ▸ later reply

theorem Follows.lookup (later : ∀ reply, Follows post (lookedUp tokenHash reply) (next reply)) :
    Follows post .start (Service.query lookupSql [tokenHash] >>= next) := by
  refine .call (fun _ => ⟨rfl,tokenHash,rfl⟩) ?_
  rintro reply _ rfl
  have looked : Stage.after .start (.query lookupSql [tokenHash]) reply = lookedUp tokenHash reply := by
    simp only [Stage.after,if_true,List.headD_cons]
  exact looked.symm ▸ later reply

end

def Elsewhere : Command Table → Prop
  | .query sql _ => sql ≠ lookupSql
  | .execute .. | .queryAsync _ | .queryParamsAsync .. | .discard => False
  | _ => True

theorem follows_elsewhere (elsewhere : program.Always Elsewhere)
    (ends : ∀ value, post stage value) : Follows post stage program := by
  refine .of_always elsewhere (fun command outside => ?_) (fun command reply next outside learned => ?_) ends
  · cases command with
    | query sql params => exact fun same => absurd same outside
    | execute | queryAsync | queryParamsAsync | discard => cases outside
    | _ => trivial
  · rw [learned]
    cases command with
    | query sql params => exact after_query _ params reply outside
    | execute | queryAsync | queryParamsAsync | discard => cases outside
    | _ => rfl

section Handlers
variable (cfg : Config) (metadata : MetadataPrefix)

theorem command_elsewhere (arguments : List Bytes) : (command arguments).Always Elsewhere := by
  refine .call trivial fun reply => ?_
  cases reply <;> trivial

theorem sendResponse_elsewhere (msgId : UInt32) (corrId : UInt64) (coreId : UInt16) (sessionId : UInt64)
    (table : Table) (replyTopic : Bytes) :
    (sendResponse cfg msgId corrId coreId sessionId table replyTopic).Always Elsewhere :=
  .call trivial fun _ => trivial

theorem sendRefreshTokenError_elsewhere (error : RefreshTokenError) :
    (sendRefreshTokenError cfg metadata error).Always Elsewhere :=
  .bind (sendResponse_elsewhere cfg ..) fun _ => trivial

section
variable (userId : UInt64)

theorem storeSession_elsewhere (data : UInt64 → Bytes) (answers : answer.Always Elsewhere) : (do
      let created ← now
      let _ ← set cfg userId (data created)
      let _ ← setUserSessionId cfg userId metadata.sessionId metadata.coreId
      answer : Task Table Outcome).Always Elsewhere :=
  .call trivial fun _ => .bind (command_elsewhere _) fun _ => .bind (command_elsewhere _) fun _ => answers

theorem issueTokens_elsewhere (newRefreshToken : Bytes) :
    (issueTokens cfg metadata userId newRefreshToken).Always Elsewhere := by
  have other : "SELECT email FROM users WHERE id = $1" ≠ lookupSql := by decide
  refine .call other fun reply => .ite (sendRefreshTokenError_elsewhere cfg metadata _) ?_
  refine .call trivial fun token => .ite (sendRefreshTokenError_elsewhere cfg metadata _) ?_
  exact storeSession_elsewhere cfg metadata userId _ (.bind (sendResponse_elsewhere cfg ..) fun _ => trivial)

theorem rotate_follows (tokenHash newRefreshHash tokenFamily : Bytes) :
    Follows (fun _ _ => True) (.found tokenHash tokenFamily) (rotate cfg userId tokenHash newRefreshHash tokenFamily) := by
  -- what is left of a transaction after a failed statement
  have undone : ∀ value, Follows (A := Rotation) (fun _ _ => True) .failed (do
      let _ ← queryAsync "ROLLBACK"
      let _ ← discard
      pure value) := by
    intro value
    refine .call (.inr (.inr ⟨rfl,rfl⟩)) ?_
    rintro reply _ rfl
    refine .call (by cases reply <;> rfl) ?_
    rintro - _ rfl
    trivial
  have dropped : ∀ value, Follows (A := Rotation) (fun _ _ => True) .failed (do
      let _ ← discard
      pure value) := by
    intro value
    refine .call rfl ?_
    rintro - _ rfl
    trivial
  refine .call trivial ?_
  rintro connection _ rfl
  cases connection with
  | error code => trivial
  | ok _ =>
    refine .call (.inl ⟨rfl,_,_,rfl⟩) ?_
    rintro begun _ rfl
    cases begun with
    | error code => exact dropped _
    | ok _ =>
      refine .call (.inl ⟨_,_,rfl,rfl,rfl⟩) ?_
      rintro revoked _ rfl
      cases revoked with
      | error code => exact undone _
      | ok _ =>
        refine .call (.inr ⟨_,_,_,_,_,rfl,rfl,rfl⟩) ?_
        rintro inserted _ rfl
        cases inserted with
        | error code => exact undone _
        | ok _ =>
          refine .call (.inr (.inl ⟨rfl,_,_,rfl⟩)) ?_
          rintro committed _ rfl
          cases committed with
          | error code => exact dropped _
          | ok _ =>
            refine .call trivial ?_
            rintro - _ rfl
            trivial

theorem refused_follows (error : RefreshTokenError) :
    Follows (fun _ _ => True) stage (sendRefreshTokenError cfg metadata error) :=
  follows_elsewhere (sendRefreshTokenError_elsewhere cfg metadata error) fun _ => trivial

theorem exchangeToken_follows (tokenHash tokenFamily : Bytes) :
    Follows (fun _ _ => True) (.found tokenHash tokenFamily) (exchangeToken cfg metadata userId tokenHash tokenFamily) := by
  have other : expirySql ≠ lookupSql := by decide
  refine .query other fun expired => ?_
  cases expired with
  | error code => exact refused_follows cfg metadata _
  | ok result =>
    simp only
    split
    · exact refused_follows cfg metadata _
    refine .call trivial ?_
    rintro token _ rfl
    cases token with
    | error code => exact refused_follows cfg metadata _
    | ok newRefreshToken =>
      refine (rotate_follows cfg userId tokenHash (cfg.sha256Hex newRefreshToken) tokenFamily).bind ?_
      rintro stage rotation -
      cases rotation with
      | failed => exact refused_follows cfg metadata _
      | commitFailed =>
        exact .bind (refused_follows cfg metadata _) fun _ _ _ =>
          follows_elsewhere (.call trivial fun _ => trivial) fun _ => trivial
      | committed => exact follows_elsewhere (issueTokens_elsewhere cfg metadata userId newRefreshToken) fun _ => trivial

theorem revokeFamily_follows (tokenFamily : Bytes) :
    Follows (fun _ _ => True) (.reused tokenFamily) (revokeFamily cfg userId tokenFamily) := by
  refine .call (.inr ⟨tokenFamily,rfl,rfl,rfl⟩) ?_
  rintro reply _ rfl
  refine follows_elsewhere ?_ fun _ => trivial
  exact .bind (command_elsewhere _) fun _ => .bind (command_elsewhere _) fun _ => trivial

end

theorem onRefreshToken_follows (request : RefreshTokenRequest) :
    Follows (fun _ _ => True) .start (onRefreshToken cfg metadata request) := by
  rw [onRefreshToken]
  split
  · exact refused_follows cfg metadata _
  next refreshToken _ =>
  refine .lookup fun reply => ?_
  cases reply with
  | error code => exact refused_follows cfg metadata _
  | ok result =>
    simp only
    split
    · exact refused_follows cfg metadata _
    next some' =>
    split
    · exact refused_follows cfg metadata _
    · next userId _ =>
      rw [lookedUp,if_neg some']
      cases revoked : result.isNull 0 1 with
      | true => exact exchangeToken_follows cfg metadata userId _ _
      | false => exact (revokeFamily_follows cfg userId _).bind fun _ _ _ => refused_follows cfg metadata _

theorem onLogin_follows (request : LoginRequest) :
    Follows (fun _ _ => True) .start (onLogin cfg metadata request) := by
  have other : "SELECT id, password_hash, locked_until > NOW() FROM users WHERE email = $1" ≠ lookupSql := by decide
  have refused : ∀ error stage, Follows (fun _ _ => True) stage (sendLoginError cfg metadata error) :=
    fun error _ => follows_elsewhere (.bind (sendResponse_elsewhere cfg ..) fun _ => trivial) fun _ => trivial
  rw [onLogin]
  split
  · refine .query other fun reply => ?_
    cases reply with
    | error code => exact refused _ _
    | ok result =>
      simp only
      split
      · exact refused _ _
      split
      · exact refused _ _
      next userId _ =>
      split
      · exact refused _ _
      · refine .call trivial ?_
        rintro verified _ rfl
        split
        · exact refused _ _
        · refine .call trivial ?_
          rintro accessToken _ rfl
          split
          · exact refused _ _
          · refine .call trivial ?_
            rintro token _ rfl
            cases token with
            | error code => exact refused _ _
            | ok refreshToken =>
              refine .call (.inl ⟨rfl,rfl,_,_,_,rfl⟩) ?_
              rintro stored _ rfl
              refine follows_elsewhere ?_ fun _ => trivial
              exact storeSession_elsewhere cfg metadata userId _ (.bind (sendResponse_elsewhere cfg ..) fun _ => trivial)
  · exact refused _ _

end Handlers

end ApexPipeline.RefreshTokens
