import ApexPipeline.Coroutine
import ApexPipeline.DecimalText
import ApexPipeline.Gateway

/-! `gateway_pipeline.hpp` and the request path of `gateway_service.cpp`: the checks before a message is routed. The
state of the session is held by reference, so every access to it is a command, as are the questions to the verifier,
the blacklist and the limiters. -/
namespace ApexPipeline.GatewayPipeline
open Gateway Coroutine

structure AuthState where
  authenticated : Bool := false
  userId : UInt64 := 0
  jti : Bytes := []
  token : Bytes := []
  deriving DecidableEq, Repr

structure JwtClaims where
  userId : UInt64
  jti : Bytes
  deriving DecidableEq, Repr

/-- The blacklist and the limiter are pointers, which may be null. -/
structure Config where
  authExemptMsgIds : List UInt32
  blacklistFailOpen : Bool := false
  sensitiveMsgIds : List UInt32
  blacklist : Bool
  rateLimiter : Bool
  gateway : Gateway.Config

def Config.isSensitive (cfg : Config) (msgId : UInt32) : Bool := cfg.sensitiveMsgIds.contains msgId

def Config.isExempt (cfg : Config) (msgId : UInt32) : Bool := cfg.authExemptMsgIds.contains msgId

/-- `obtainState` is `auth_states_[id]`, which inserts an entry for a new session and fixes the reference of the next
three commands; `writeState` stores the three fields that come from a token. `insertPending` stands for the new
correlation id and its entry. -/
inductive Command where
  | findState
  | obtainState
  | readState
  | writeToken (token : Bytes)
  | writeState (claims : JwtClaims)
  | checkIp (ip : Bytes)
  | verify (token : Bytes)
  | isBlacklisted (jti : Bytes)
  | checkUser (userId : UInt64)
  | checkEndpoint (userId : UInt64) (msgId : UInt32)
  | enqueueWrite (frame : List UInt8)
  | insertPending (msgId : UInt32)
  | route (userId : UInt64)
  | extractPending
  | subscribe (channel : Bytes)
  | unsubscribe (channel : Bytes)
  | listen (channel : Bytes)
  deriving DecidableEq, Repr

/-- The Redis limiters say whether the message is allowed. -/
@[reducible] def Reply : Command → Type
  | .findState => Option AuthState
  | .obtainState => Unit
  | .readState => AuthState
  | .writeToken _ => Unit
  | .writeState _ => Unit
  | .checkIp _ => Bool
  | .verify _ => Except ErrorCode JwtClaims
  | .isBlacklisted _ => Except ErrorCode Bool
  | .checkUser _ => Except ErrorCode Bool
  | .checkEndpoint .. => Except ErrorCode Bool
  | .enqueueWrite _ => Unit
  | .insertPending _ => Bool
  | .route _ => Bool
  | .extractPending => Unit
  | .subscribe _ => Bool
  | .unsubscribe _ => Unit
  | .listen _ => Unit

abbrev Task := Coroutine Command Reply

abbrev findState : Task (Option AuthState) := call Command.findState
abbrev obtainState : Task Unit := call Command.obtainState
abbrev readState : Task AuthState := call Command.readState
abbrev writeToken (token : Bytes) : Task Unit := call (Command.writeToken token)
abbrev writeState (claims : JwtClaims) : Task Unit := call (Command.writeState claims)
abbrev checkIp (ip : Bytes) : Task Bool := call (Command.checkIp ip)
abbrev verify (token : Bytes) : Task (Except ErrorCode JwtClaims) := call (Command.verify token)
abbrev isBlacklisted (jti : Bytes) : Task (Except ErrorCode Bool) := call (Command.isBlacklisted jti)
abbrev checkUser (userId : UInt64) : Task (Except ErrorCode Bool) := call (Command.checkUser userId)
abbrev checkEndpoint (userId : UInt64) (msgId : UInt32) : Task (Except ErrorCode Bool) :=
  call (Command.checkEndpoint userId msgId)
abbrev enqueueWrite (frame : List UInt8) : Task Unit := call (Command.enqueueWrite frame)
abbrev insertPending (msgId : UInt32) : Task Bool := call (Command.insertPending msgId)
abbrev route (userId : UInt64) : Task Bool := call (Command.route userId)
abbrev extractPending : Task Unit := call Command.extractPending
abbrev subscribe (channel : Bytes) : Task Bool := call (Command.subscribe channel)
abbrev unsubscribe (channel : Bytes) : Task Unit := call (Command.unsubscribe channel)
abbrev listen (channel : Bytes) : Task Unit := call (Command.listen channel)

abbrev GatewayResult := Except GatewayError Unit

def checkIpRateLimit (cfg : Config) (remoteIp : Bytes) : Task GatewayResult :=
  if cfg.rateLimiter then do
    if ← checkIp remoteIp then pure (.ok ()) else pure (.error .rateLimitedIp)
  else pure (.ok ())

/-- A Redis error lets the message pass. -/
def judge (denied : GatewayError) : Except ErrorCode Bool → GatewayResult
  | .error _ => .ok ()
  | .ok allowed => if allowed then .ok () else .error denied

def checkUserRateLimit (cfg : Config) (userId : UInt64) : Task GatewayResult :=
  if cfg.rateLimiter then do
    let result ← checkUser userId
    pure (judge .rateLimitedUser result)
  else pure (.ok ())

def checkEndpointRateLimit (cfg : Config) (userId : UInt64) (msgId : UInt32) : Task GatewayResult :=
  if cfg.rateLimiter then do
    let result ← checkEndpoint userId msgId
    pure (judge .rateLimitedEndpoint result)
  else pure (.ok ())

def fnv1aHash (s : Bytes) : UInt64 :=
  s.foldl (fun h c => (h ^^^ c.toUInt64) * 1099511628211) 14695981039346656037

def accept (claims : JwtClaims) : Task GatewayResult := do
  writeState claims
  pure (.ok ())

/-- Steps 4 and 5 of `authenticate`. -/
def checkBlacklist (cfg : Config) (msgId : UInt32) (claims : JwtClaims) : Task GatewayResult :=
  if cfg.blacklist && cfg.isSensitive msgId then do
    match ← isBlacklisted claims.jti with
    | .ok true => pure (.error .jwtBlacklisted)
    | .ok false => accept claims
    | .error _ =>
      if cfg.blacklistFailOpen then accept claims else pure (.error .blacklistCheckFailed)
  else accept claims

def authenticate (cfg : Config) (msgId : UInt32) : Task GatewayResult :=
  if cfg.isExempt msgId then pure (.ok ())
  else do
    let state ← readState
    if state.token = [] then pure (.error .jwtVerifyFailed)
    else
      match ← verify state.token with
      | .error _ => pure (.error .jwtVerifyFailed)
      | .ok claims => checkBlacklist cfg msgId claims

def deny (cfg : Config) (msgId : UInt32) (error : GatewayError) : Task (Except ErrorCode Unit) := do
  enqueueWrite (buildErrorFrame cfg.gateway msgId .serviceError "" error.code)
  pure (.error .serviceError)

/-- The log of a denial by user reads the state once more. -/
def limitUser (cfg : Config) (msgId : UInt32) : Task (Except ErrorCode Unit) := do
  let state ← readState
  match ← checkUserRateLimit cfg state.userId with
  | .error error =>
    let _ ← readState
    deny cfg msgId error
  | .ok _ =>
    let state ← readState
    match ← checkEndpointRateLimit cfg state.userId msgId with
    | .error error =>
      let _ ← readState
      deny cfg msgId error
    | .ok _ => pure (.ok ())

def limitExempt (cfg : Config) (msgId : UInt32) (remoteIp : Bytes) : Task (Except ErrorCode Unit) := do
  match ← checkEndpointRateLimit cfg (fnv1aHash remoteIp) msgId with
  | .error error => deny cfg msgId error
  | .ok _ => pure (.ok ())

/-- Layers 2 and 3 of `process`. -/
def limit (cfg : Config) (msgId : UInt32) (remoteIp : Bytes) : Task (Except ErrorCode Unit) := do
  let state ← readState
  if state.authenticated then limitUser cfg msgId
  else if cfg.isExempt msgId then limitExempt cfg msgId remoteIp
  else pure (.ok ())

def process (cfg : Config) (msgId : UInt32) (remoteIp : Bytes) : Task (Except ErrorCode Unit) := do
  match ← checkIpRateLimit cfg remoteIp with
  | .error error => deny cfg msgId error
  | .ok _ =>
    match ← authenticate cfg msgId with
    | .error error => deny cfg msgId error
    | .ok _ => limit cfg msgId remoteIp

/-- Steps 5 to 7 of `handle_request`. -/
def forward (cfg : Config) (msgId : UInt32) : Task Unit := do
  if ← insertPending msgId then
    let state ← readState
    if ← route state.userId then pure ()
    else
      extractPending
      enqueueWrite (buildErrorFrame cfg.gateway msgId .serviceError "" GatewayError.routeNotFound.code)
  else enqueueWrite (buildErrorFrame cfg.gateway msgId .serviceError "" GatewayError.pendingMapFull.code)

def handleRequest (cfg : Config) (msgId : UInt32) (remoteIp : Bytes) : Task Unit := do
  obtainState
  match ← process cfg msgId remoteIp with
  | .error _ => pure ()
  | .ok _ => forward cfg msgId

instance : (command : Command) → DecidableEq (Reply command)
  | .findState => inferInstanceAs (DecidableEq (Option AuthState))
  | .obtainState => inferInstanceAs (DecidableEq Unit)
  | .readState => inferInstanceAs (DecidableEq AuthState)
  | .writeToken _ => inferInstanceAs (DecidableEq Unit)
  | .writeState _ => inferInstanceAs (DecidableEq Unit)
  | .checkIp _ => inferInstanceAs (DecidableEq Bool)
  | .verify _ => inferInstanceAs (DecidableEq (Except ErrorCode JwtClaims))
  | .isBlacklisted _ => inferInstanceAs (DecidableEq (Except ErrorCode Bool))
  | .checkUser _ => inferInstanceAs (DecidableEq (Except ErrorCode Bool))
  | .checkEndpoint .. => inferInstanceAs (DecidableEq (Except ErrorCode Bool))
  | .enqueueWrite _ => inferInstanceAs (DecidableEq Unit)
  | .insertPending _ => inferInstanceAs (DecidableEq Bool)
  | .route _ => inferInstanceAs (DecidableEq Bool)
  | .extractPending => inferInstanceAs (DecidableEq Unit)
  | .subscribe _ => inferInstanceAs (DecidableEq Bool)
  | .unsubscribe _ => inferInstanceAs (DecidableEq Unit)
  | .listen _ => inferInstanceAs (DecidableEq Unit)

/-- A session while nobody else touches its state, with what was handed to its write queue. What was answered, the
states under which the channel map was reached, and what was routed under which state are no part of the program. -/
structure Local where
  known : Bool := true
  state : AuthState
  frames : List (List UInt8) := []
  answers : List (Sigma Reply) := []
  served : List AuthState := []
  routed : List (UInt64 × AuthState) := []

def AuthState.bound (state : AuthState) (claims : JwtClaims) : AuthState :=
  { state with authenticated := true, userId := claims.userId, jti := claims.jti }

def Local.answered (s : Local) (command : Command) (reply : Reply command) : Local :=
  { s with answers := s.answers ++ [⟨command,reply⟩] }

/-- The verifier, the blacklist, the limiters, the channel map and the router answer as they like. -/
def serve (answer : (command : Command) → Reply command) (s : Local) : (command : Command) → Reply command × Local
  | .findState => (if s.known then some s.state else none,s)
  | .obtainState => ((),{ s with known := true, state := if s.known then s.state else {} })
  | .readState => (s.state,s)
  | .writeToken token => ((),{ s with state := { s.state with token := token } })
  | .writeState claims => ((),{ s with state := s.state.bound claims })
  | .enqueueWrite frame => ((),{ s with frames := s.frames ++ [frame] })
  | .route userId => (answer (.route userId),
      { s with routed := s.routed ++ [(userId,s.state)] }.answered (.route userId) (answer (.route userId)))
  | .subscribe channel => (answer (.subscribe channel),
      { s with served := s.served ++ [s.state] }.answered (.subscribe channel) (answer (.subscribe channel)))
  | command => (answer command,s.answered command (answer command))

def AllowedUser (answers : List (Sigma Reply)) (userId : UInt64) : Prop :=
  ∃ reply, ⟨.checkUser userId,reply⟩ ∈ answers ∧ reply ≠ .ok false

def AllowedEndpoint (answers : List (Sigma Reply)) (userId : UInt64) (msgId : UInt32) : Prop :=
  ∃ reply, ⟨.checkEndpoint userId msgId,reply⟩ ∈ answers ∧ reply ≠ .ok false

/-- What `authenticate` has found out about the token when it lets a message pass. -/
structure Verified (cfg : Config) (answers : List (Sigma Reply)) (token : Bytes) (msgId : UInt32)
    (claims : JwtClaims) : Prop where
  present : token ≠ []
  verified : ⟨.verify token,.ok claims⟩ ∈ answers
  unlisted : cfg.blacklist → cfg.isSensitive msgId → ∃ reply, ⟨.isBlacklisted claims.jti,reply⟩ ∈ answers ∧
    reply ≠ .ok true ∧ (reply = .ok false ∨ cfg.blacklistFailOpen)

def Denied (cfg : Config) (msgId : UInt32) (before : Local) (ends : Except ErrorCode Unit × Local) : Prop :=
  ends.1 = .error .serviceError ∧ ∃ error : GatewayError, ends.2.frames =
    before.frames ++ [buildErrorFrame cfg.gateway msgId .serviceError "" error.code]

def Passed (before : Local) (ends : Except ErrorCode Unit × Local) (found : List (Sigma Reply) → Prop) : Prop :=
  ends.1 = .ok () ∧ ends.2.frames = before.frames ∧ found ends.2.answers

section Answers
variable (cfg : Config) (answer : (command : Command) → Reply command) (s : Local) (msgId : UInt32)

theorem serve_grows (command : Command) : s.answers ⊆ (serve answer s command).2.answers := by
  cases command <;> simp [serve,Local.answered]

theorem run_grows (program : Task A) : s.answers ⊆ (program.run (serve answer) s).2.answers :=
  (Always.intro (fun _ => trivial) program).run_keeps _ (fun later => s.answers ⊆ later.answers)
    (fun later command _ before _ member => serve_grows answer later command (before member)) s
    (List.Subset.refl _)

theorem answered_self (command : Command) (reply : Reply command) :
    ⟨command,reply⟩ ∈ (s.answered command reply).answers := by
  simp [Local.answered]

theorem judge_ok {reply : Except ErrorCode Bool} (ok : judge denied reply = .ok ()) : reply ≠ .ok false := by
  rintro rfl
  cases ok

section
variable (limited : cfg.rateLimiter)
include limited

theorem checkIpRateLimit_run (ip : Bytes) :
    (checkIpRateLimit cfg ip).run (serve answer) s =
      (if answer (.checkIp ip) then .ok () else .error .rateLimitedIp,
        s.answered (.checkIp ip) (answer (.checkIp ip))) := by
  cases allowed : answer (.checkIp ip) <;> simp [checkIpRateLimit,limited,serve,allowed]

theorem checkUserRateLimit_run (userId : UInt64) :
    (checkUserRateLimit cfg userId).run (serve answer) s = (judge .rateLimitedUser (answer (.checkUser userId)),
        s.answered (.checkUser userId) (answer (.checkUser userId))) := by
  rw [checkUserRateLimit,if_pos limited]
  rfl

theorem checkEndpointRateLimit_run (userId : UInt64) :
    (checkEndpointRateLimit cfg userId msgId).run (serve answer) s =
      (judge .rateLimitedEndpoint (answer (.checkEndpoint userId msgId)),
        s.answered (.checkEndpoint userId msgId) (answer (.checkEndpoint userId msgId))) := by
  rw [checkEndpointRateLimit,if_pos limited]
  rfl

end

theorem accept_run (claims : JwtClaims) :
    (accept claims).run (serve answer) s = (.ok (),{ s with state := s.state.bound claims }) := rfl

theorem checkBlacklist_cases (claims : JwtClaims) :
    (∃ answers, (checkBlacklist cfg msgId claims).run (serve answer) s =
        (.ok (),{ s with state := s.state.bound claims, answers := answers }) ∧ s.answers ⊆ answers ∧
      (cfg.blacklist → cfg.isSensitive msgId → ∃ reply, ⟨.isBlacklisted claims.jti,reply⟩ ∈ answers ∧
        reply ≠ .ok true ∧ (reply = .ok false ∨ cfg.blacklistFailOpen))) ∨
    ∃ error answers, (checkBlacklist cfg msgId claims).run (serve answer) s =
      (.error error,{ s with answers := answers }) := by
  by_cases asks : cfg.blacklist && cfg.isSensitive msgId
  · have grown := serve_grows answer s (.isBlacklisted claims.jti)
    have asked := answered_self s (.isBlacklisted claims.jti) (answer (.isBlacklisted claims.jti))
    rw [checkBlacklist,if_pos asks,run_bind,run_call]
    cases listed : answer (.isBlacklisted claims.jti) with
    | error code =>
      by_cases opened : cfg.blacklistFailOpen
      · left
        refine ⟨_,?_,grown,fun _ _ => ⟨_,asked,by simp [listed],.inr opened⟩⟩
        simp [serve,listed,opened,accept_run,Local.answered]
      · right
        exact ⟨.blacklistCheckFailed,_,by simp [serve,listed,opened,Local.answered]; rfl⟩
    | ok found =>
      cases found with
      | true =>
        right
        exact ⟨.jwtBlacklisted,_,by simp [serve,listed,Local.answered]; rfl⟩
      | false =>
        left
        refine ⟨_,?_,grown,fun _ _ => ⟨_,asked,by simp [listed],.inl listed⟩⟩
        simp [serve,listed,accept_run,Local.answered]
  · left
    refine ⟨s.answers,?_,List.Subset.refl _,fun attached sensitive => ?_⟩
    · rw [checkBlacklist,if_neg asks,accept_run]
    · exact (asks (by rw [attached,sensitive]; rfl)).elim

theorem authenticate_cases : ((authenticate cfg msgId).run (serve answer) s = (.ok (),s) ∧ cfg.isExempt msgId) ∨
    (∃ claims answers, (authenticate cfg msgId).run (serve answer) s =
        (.ok (),{ s with state := s.state.bound claims, answers := answers }) ∧
      ¬ cfg.isExempt msgId ∧ Verified cfg answers s.state.token msgId claims) ∨
    ∃ error answers, (authenticate cfg msgId).run (serve answer) s = (.error error,{ s with answers := answers }) := by
  by_cases exempt : cfg.isExempt msgId
  · exact .inl ⟨by rw [authenticate,if_pos exempt]; rfl,exempt⟩
  right
  rw [authenticate,if_neg exempt,run_bind,run_call]
  by_cases missing : s.state.token = []
  · right
    exact ⟨.jwtVerifyFailed,s.answers,by simp [serve,missing]⟩
  cases verdict : answer (.verify s.state.token) with
  | error code =>
    right
    exact ⟨.jwtVerifyFailed,_,by simp [serve,missing,verdict,Local.answered]; rfl⟩
  | ok claims =>
    have asked := answered_self s (.verify s.state.token) (.ok claims)
    simp only [serve,missing,run_bind,run_call,verdict,if_false]
    rcases checkBlacklist_cases cfg answer (s.answered (.verify s.state.token) (.ok claims)) msgId claims with
      ⟨answers,ends,grown,unlisted⟩ | ⟨error,answers,ends⟩
    · exact .inl ⟨claims,answers,ends,exempt,missing,grown asked,unlisted⟩
    · exact .inr ⟨error,answers,ends⟩

theorem limitUser_cases (limited : cfg.rateLimiter) :
    Passed s ((limitUser cfg msgId).run (serve answer) s) (fun answers =>
      AllowedUser answers s.state.userId ∧ AllowedEndpoint answers s.state.userId msgId) ∨
    Denied cfg msgId s ((limitUser cfg msgId).run (serve answer) s) := by
  have user := checkUserRateLimit_run cfg answer s limited s.state.userId
  have asked := answered_self s (.checkUser s.state.userId) (answer (.checkUser s.state.userId))
  obtain ⟨middle,eq,state,frames⟩ : ∃ t : Local, s.answered (.checkUser s.state.userId)
    (answer (.checkUser s.state.userId)) = t ∧ t.state = s.state ∧ t.frames = s.frames := ⟨_,rfl,rfl,rfl⟩
  rw [eq] at user asked
  have endpoint := checkEndpointRateLimit_run cfg answer middle msgId limited s.state.userId
  have grown := serve_grows answer middle (.checkEndpoint s.state.userId msgId)
  simp only [limitUser,run_bind,run_call,serve,user]
  cases judged : judge .rateLimitedUser (answer (.checkUser s.state.userId)) with
  | error error => exact .inr ⟨rfl,error,by rw [← frames]; rfl⟩
  | ok passed =>
    simp only [run_bind,run_call,serve,state,endpoint]
    cases last : judge .rateLimitedEndpoint (answer (.checkEndpoint s.state.userId msgId)) with
    | error error => exact .inr ⟨rfl,error,by rw [← frames]; rfl⟩
    | ok passed =>
      exact .inl ⟨rfl,frames,⟨_,grown asked,judge_ok judged⟩,_,answered_self middle _ _,judge_ok last⟩

theorem limitExempt_cases (limited : cfg.rateLimiter) (ip : Bytes) :
    Passed s ((limitExempt cfg msgId ip).run (serve answer) s) (fun answers =>
      AllowedEndpoint answers (fnv1aHash ip) msgId) ∨
    Denied cfg msgId s ((limitExempt cfg msgId ip).run (serve answer) s) := by
  have endpoint := checkEndpointRateLimit_run cfg answer s msgId limited (fnv1aHash ip)
  simp only [limitExempt,run_bind,endpoint]
  cases judged : judge .rateLimitedEndpoint (answer (.checkEndpoint (fnv1aHash ip) msgId)) with
  | error error => exact .inr ⟨rfl,error,rfl⟩
  | ok passed => exact .inl ⟨rfl,rfl,_,answered_self s _ _,judge_ok judged⟩

end Answers

/-- What must have been found out when a message passes; the state is the one before the call. -/
def Admitted (cfg : Config) (state : AuthState) (msgId : UInt32) (ip : Bytes) (answers : List (Sigma Reply)) : Prop :=
  ⟨.checkIp ip,true⟩ ∈ answers ∧ ((cfg.isExempt msgId ∧
      AllowedEndpoint answers (if state.authenticated then state.userId else fnv1aHash ip) msgId) ∨
    (¬ cfg.isExempt msgId ∧ ∃ claims, Verified cfg answers state.token msgId claims ∧
      AllowedUser answers claims.userId ∧ AllowedEndpoint answers claims.userId msgId))

theorem Verified.mono {answers later : List (Sigma Reply)} (found : Verified cfg answers token msgId claims)
    (grown : answers ⊆ later) : Verified cfg later token msgId claims where
  present := found.present
  verified := grown found.verified
  unlisted attached sensitive := by
    obtain ⟨reply,asked,rest⟩ := found.unlisted attached sensitive
    exact ⟨reply,grown asked,rest⟩

section Pipeline
variable (cfg : Config) (answer : (command : Command) → Reply command) (s : Local) (msgId : UInt32) (ip : Bytes)

theorem limit_cases (limited : cfg.rateLimiter) (known : s.state.authenticated ∨ cfg.isExempt msgId) :
    Passed s ((limit cfg msgId ip).run (serve answer) s) (fun answers =>
      AllowedEndpoint answers (if s.state.authenticated then s.state.userId else fnv1aHash ip) msgId ∧
      (s.state.authenticated → AllowedUser answers s.state.userId)) ∨
    Denied cfg msgId s ((limit cfg msgId ip).run (serve answer) s) := by
  simp only [limit,run_bind,run_call,serve]
  by_cases authenticated : s.state.authenticated
  · simp only [authenticated,if_true]
    rcases limitUser_cases cfg answer s msgId limited with ⟨ok,frames,user,endpoint⟩ | denied
    · exact .inl ⟨ok,frames,endpoint,fun _ => user⟩
    · exact .inr denied
  · have exempt := known.resolve_left authenticated
    simp only [authenticated,exempt,if_true]
    rcases limitExempt_cases cfg answer s msgId limited ip with ⟨ok,frames,endpoint⟩ | denied
    · exact .inl ⟨ok,frames,endpoint,fun impossible => by cases impossible⟩
    · exact .inr denied

theorem process_cases (limited : cfg.rateLimiter) :
    Passed s ((process cfg msgId ip).run (serve answer) s) (Admitted cfg s.state msgId ip) ∨
    Denied cfg msgId s ((process cfg msgId ip).run (serve answer) s) := by
  have asked := answered_self s (.checkIp ip) (answer (.checkIp ip))
  simp only [process,run_bind,checkIpRateLimit_run cfg answer s limited ip]
  obtain ⟨first,eq,state,frames⟩ : ∃ t : Local, s.answered (.checkIp ip) (answer (.checkIp ip)) = t ∧
    t.state = s.state ∧ t.frames = s.frames := ⟨_,rfl,rfl,rfl⟩
  rw [eq] at asked ⊢
  cases allowed : answer (.checkIp ip) with
  | false => exact .inr ⟨rfl,.rateLimitedIp,by rw [← frames]; rfl⟩
  | true =>
    rw [allowed] at asked
    simp only [if_true,run_bind]
    have authenticated_grows := run_grows answer first (authenticate cfg msgId)
    rcases authenticate_cases cfg answer first msgId with
      ⟨ends,exempt⟩ | ⟨claims,answers,ends,required,verified⟩ | ⟨error,answers,ends⟩
    · simp only [ends]
      have limit_grows := run_grows answer first (limit cfg msgId ip)
      rcases limit_cases cfg answer first msgId ip limited (.inr exempt) with ⟨ok,silent,endpoint,user⟩ | denied
      · rw [state] at endpoint
        exact .inl ⟨ok,silent.trans frames,limit_grows asked,.inl ⟨exempt,endpoint⟩⟩
      · rw [Denied,frames] at denied
        exact .inr denied
    · rw [ends] at authenticated_grows
      simp only [ends]
      obtain ⟨second,eq,bound,found,quiet⟩ : ∃ t : Local,
        { first with state := first.state.bound claims, answers := answers } = t ∧
        t.state = first.state.bound claims ∧ t.answers = answers ∧ t.frames = first.frames := ⟨_,rfl,rfl,rfl,rfl⟩
      rw [eq] at authenticated_grows ⊢
      rw [← found,state] at verified
      have authenticated : second.state.authenticated := by rw [bound]; rfl
      have limit_grows := run_grows answer second (limit cfg msgId ip)
      rcases limit_cases cfg answer second msgId ip limited (.inl authenticated) with
        ⟨ok,silent,endpoint,user⟩ | denied
      · have user := user authenticated
        rw [if_pos authenticated] at endpoint
        rw [bound] at user endpoint
        exact .inl ⟨ok,silent.trans (quiet.trans frames),limit_grows (authenticated_grows asked),
          .inr ⟨required,claims,verified.mono limit_grows,user,endpoint⟩⟩
      · rw [Denied,quiet,frames] at denied
        exact .inr denied
    · simp only [ends]
      exact .inr ⟨rfl,error,by rw [← frames]; rfl⟩

def Command.plain : Command → Prop
  | .obtainState | .writeToken _ | .writeState _ | .verify _ | .route _ | .subscribe _ => False
  | _ => True

structure Same (s t : Local) : Prop where
  known : t.known = s.known
  state : t.state = s.state
  served : t.served = s.served
  routed : t.routed = s.routed

theorem Same.trans {s t u : Local} (first : Same s t) (second : Same t u) : Same s u :=
  ⟨second.known.trans first.known,second.state.trans first.state,second.served.trans first.served,
    second.routed.trans first.routed⟩

theorem serve_plain (command : Command) (plain : command.plain) : Same s (serve answer s command).2 := by
  cases command with
  | obtainState => cases plain
  | writeToken token => cases plain
  | writeState claims => cases plain
  | verify token => cases plain
  | route userId => cases plain
  | subscribe channel => cases plain
  | _ => exact ⟨rfl,rfl,rfl,rfl⟩

theorem run_plain {program : Task A} (plain : program.Always Command.plain) :
    Same s (program.run (serve answer) s).2 :=
  plain.run_keeps _ (fun later => Same s later)
    (fun later command allowed before => before.trans (serve_plain answer later command allowed)) s
    ⟨rfl,rfl,rfl,rfl⟩

theorem deny_plain (error : GatewayError) : (deny cfg msgId error).Always Command.plain :=
  .call trivial fun _ => trivial

theorem checkIpRateLimit_plain : (checkIpRateLimit cfg ip).Always Command.plain :=
  .ite (.call trivial fun _ => .ite trivial trivial) trivial

theorem checkEndpointRateLimit_plain (userId : UInt64) :
    (checkEndpointRateLimit cfg userId msgId).Always Command.plain :=
  .ite (.call trivial fun _ => trivial) trivial

theorem limit_plain : (limit cfg msgId ip).Always Command.plain := by
  refine .call trivial fun state => .ite ?_ (.ite ?_ trivial)
  · refine .call trivial fun state => .bind (.ite (.call trivial fun _ => trivial) trivial) fun result => ?_
    cases result with
    | error error => exact .call trivial fun _ => deny_plain cfg msgId error
    | ok passed =>
      refine .call trivial fun state => (checkEndpointRateLimit_plain cfg msgId state.userId).bind fun result => ?_
      cases result with
      | error error => exact .call trivial fun _ => deny_plain cfg msgId error
      | ok passed => trivial
  · refine (checkEndpointRateLimit_plain cfg msgId (fnv1aHash ip)).bind fun result => ?_
    cases result with
    | error error => exact deny_plain cfg msgId error
    | ok passed => trivial

structure Rebound (before after : Local) : Prop where
  known : after.known = before.known
  state : after.state = before.state ∨ ∃ claims, ⟨.verify before.state.token,.ok claims⟩ ∈ after.answers ∧
    after.state = before.state.bound claims
  served : after.served = before.served
  routed : after.routed = before.routed

theorem Same.rebound {s t : Local} (same : Same s t) : Rebound s t := ⟨same.known,.inl same.state,same.served,same.routed⟩

theorem Same.rebound_trans {s t u : Local} (same : Same s t) (rebound : Rebound t u) : Rebound s u where
  known := rebound.known.trans same.known
  state := by
    have := rebound.state
    rwa [same.state] at this
  served := rebound.served.trans same.served
  routed := rebound.routed.trans same.routed

theorem Rebound.plain {middle : Local} {program : Task A} (rebound : Rebound s middle)
    (plain : program.Always Command.plain) : Rebound s (program.run (serve answer) middle).2 where
  known := (run_plain answer middle plain).known.trans rebound.known
  state := by
    have same := (run_plain answer middle plain).state
    rcases rebound.state with unchanged | ⟨claims,verified,bound⟩
    · exact .inl (same.trans unchanged)
    · exact .inr ⟨claims,run_grows answer middle program verified,same.trans bound⟩
  served := (run_plain answer middle plain).served.trans rebound.served
  routed := (run_plain answer middle plain).routed.trans rebound.routed

theorem authenticate_rebound : Rebound s ((authenticate cfg msgId).run (serve answer) s).2 := by
  rcases authenticate_cases cfg answer s msgId with
    ⟨ends,exempt⟩ | ⟨claims,answers,ends,required,verified⟩ | ⟨error,answers,ends⟩
  all_goals rw [ends]
  · exact ⟨rfl,.inl rfl,rfl,rfl⟩
  · exact ⟨rfl,.inr ⟨claims,verified.verified,rfl⟩,rfl,rfl⟩
  · exact ⟨rfl,.inl rfl,rfl,rfl⟩

theorem process_rebound : Rebound s ((process cfg msgId ip).run (serve answer) s).2 := by
  have same := run_plain answer s (checkIpRateLimit_plain cfg ip)
  rw [process,run_bind]
  generalize (checkIpRateLimit cfg ip).run (serve answer) s = ends at same ⊢
  obtain ⟨result,first⟩ := ends
  cases result with
  | error error => exact same.rebound.plain answer s (deny_plain cfg msgId error)
  | ok passed =>
    have rebound := same.rebound_trans (authenticate_rebound cfg answer first msgId)
    simp only [run_bind]
    generalize (authenticate cfg msgId).run (serve answer) first = ends at rebound ⊢
    obtain ⟨result,second⟩ := ends
    cases result with
    | error error => exact rebound.plain answer s (deny_plain cfg msgId error)
    | ok passed => exact rebound.plain answer s (limit_plain cfg msgId ip)

end Pipeline

theorem process_denies_by_default (cfg : Config) (limited : cfg.rateLimiter) (attached : cfg.blacklist)
    (answer : (command : Command) → Reply command) (state : AuthState) (msgId : UInt32) (ip : Bytes) :
    let ends := (process cfg msgId ip).run (serve answer) { state := state }
    let asked := ends.2.answers
    (ends.1 = .ok () → ⟨.checkIp ip,true⟩ ∈ asked ∧ ((cfg.isExempt msgId ∧
          AllowedEndpoint asked (if state.authenticated then state.userId else fnv1aHash ip) msgId) ∨
        (¬ cfg.isExempt msgId ∧ ∃ claims, ⟨.verify state.token,.ok claims⟩ ∈ asked ∧
          (cfg.isSensitive msgId → ∃ reply, ⟨.isBlacklisted claims.jti,reply⟩ ∈ asked ∧ reply ≠ .ok true ∧
            (reply = .ok false ∨ cfg.blacklistFailOpen)) ∧
          AllowedUser asked claims.userId ∧ AllowedEndpoint asked claims.userId msgId)) ∧
      ends.2.frames = []) ∧
    (∀ code, ends.1 = .error code → (∃ error : GatewayError, ends.2.frames =
        [buildErrorFrame cfg.gateway msgId .serviceError "" error.code]) ∧
      (¬ state.authenticated → ends.2.state.authenticated →
        ∃ claims, ⟨.verify state.token,.ok claims⟩ ∈ asked)) := by
  intro ends asked
  refine ⟨fun ok => ?_,fun code failed => ⟨?_,fun unknown authenticated => ?_⟩⟩
  · rcases process_cases cfg answer { state := state } msgId ip limited with ⟨-,silent,allowed,message⟩ | denied
    · refine ⟨allowed,?_,silent⟩
      rcases message with exempt | ⟨required,claims,verified,user,endpoint⟩
      · exact .inl exempt
      · exact .inr ⟨required,claims,verified.verified,verified.unlisted attached,user,endpoint⟩
    · cases ok.symm.trans denied.1
  · rcases process_cases cfg answer { state := state } msgId ip limited with passed | denied
    · cases failed.symm.trans passed.1
    · exact denied.2
  · rcases (process_rebound cfg answer { state := state } msgId ip).state with unchanged | ⟨claims,verified,-⟩
    · have same : ends.2.state = state := unchanged
      rw [same] at authenticated
      exact (unknown authenticated).elim
    · exact ⟨claims,verified⟩

def guardedGateway : Config where
  authExemptMsgIds := [1000]
  sensitiveMsgIds := [2000]
  blacklist := true
  rateLimiter := true
  gateway := ⟨1,8,1000,16,fun _ _ _ => []⟩

def obliging : (command : Command) → Reply command
  | .findState => none
  | .obtainState => ()
  | .readState => {}
  | .writeToken _ => ()
  | .writeState _ => ()
  | .checkIp _ => true
  | .verify _ => .ok ⟨7,[]⟩
  | .isBlacklisted _ => .ok false
  | .checkUser _ => .ok true
  | .checkEndpoint .. => .ok true
  | .enqueueWrite _ => ()
  | .insertPending _ => true
  | .route _ => true
  | .extractPending => ()
  | .subscribe _ => true
  | .unsubscribe _ => ()
  | .listen _ => ()

theorem process_denies_by_default_sensitive :
    let ends := (process guardedGateway 2000 []).run (serve obliging) { state := { token := [1] } }
    ends.1 = .ok () ∧ ⟨.checkIp [],true⟩ ∈ ends.2.answers ∧ ends.2.frames = [] := by
  have passed := (process_denies_by_default guardedGateway rfl rfl obliging { token := [1] } 2000 []).1 rfl
  exact ⟨rfl,passed.1,passed.2.2⟩

end ApexPipeline.GatewayPipeline
