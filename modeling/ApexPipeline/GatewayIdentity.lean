import ApexPipeline.GatewayPipeline

/-! Who a session of the gateway acts for: `on_default_message` and the handlers of the system messages in
`gateway_service.cpp`. The messages of a session are handled one after the other. -/
namespace ApexPipeline.GatewayPipeline
open Gateway Coroutine

/-- What the FlatBuffers library finds in a payload of at least four bytes. `primaryString` is the
first field, when it is there and lies within the payload. -/
structure FlatBuffers where
  verifyTableStart : Bytes → Bool
  primaryString : Bytes → Option Bytes

def authenticateSession : UInt32 := 3
def subscribeChannel : UInt32 := 4
def unsubscribeChannel : UInt32 := 5

/-- The payload of a system message: its string, or the code and the service code of the refusal. -/
def primary (fb : FlatBuffers) (payload : Bytes) (invalid : ErrorCode × UInt16) :
    Except (ErrorCode × UInt16) Bytes :=
  if payload.length < 4 then .error (.invalidMessage,0)
  else if !fb.verifyTableStart payload then .error (.flatBuffersVerifyFailed,0)
  else
    match fb.primaryString payload with
    | none => .error invalid
    | some text => if text = [] then .error invalid else .ok text

def refuse (cfg : Config) (msgId : UInt32) (refusal : ErrorCode × UInt16) : Task Unit :=
  enqueueWrite (buildErrorFrame cfg.gateway msgId refusal.1 "" refusal.2)

/-- The token is stored whether or not it verifies. -/
def bindToken (token : Bytes) : Task Unit := do
  obtainState
  writeToken token
  match ← verify token with
  | .ok claims => writeState claims
  | .error _ => pure ()

def handleAuthenticateSession (cfg : Config) (fb : FlatBuffers) (payload : Bytes) : Task Unit :=
  match primary fb payload (.serviceError,GatewayError.jwtVerifyFailed.code) with
  | .error refusal => refuse cfg authenticateSession refusal
  | .ok token => bindToken token

def handleSubscribeChannel (cfg : Config) (fb : FlatBuffers) (payload : Bytes) : Task Unit :=
  match primary fb payload (.invalidMessage,0) with
  | .error refusal => refuse cfg subscribeChannel refusal
  | .ok channel => do
    if ← subscribe channel then listen channel
    else refuse cfg subscribeChannel (.serviceError,GatewayError.subscriptionLimitExceeded.code)

def handleUnsubscribeChannel (cfg : Config) (fb : FlatBuffers) (payload : Bytes) : Task Unit :=
  match primary fb payload (.invalidMessage,0) with
  | .error refusal => refuse cfg unsubscribeChannel refusal
  | .ok channel => unsubscribe channel

/-- SUBSCRIBE and UNSUBSCRIBE need an authenticated session and pass the limiter by IP. -/
def handleChannelMessage (cfg : Config) (fb : FlatBuffers) (msgId : UInt32) (payload ip : Bytes) : Task Unit := do
  let entry ← findState
  if entry.any AuthState.authenticated then
    match ← checkIpRateLimit cfg ip with
    | .error _ => refuse cfg msgId (.serviceError,GatewayError.rateLimitedIp.code)
    | .ok _ =>
      if msgId = subscribeChannel then handleSubscribeChannel cfg fb payload
      else handleUnsubscribeChannel cfg fb payload
  else refuse cfg msgId (.serviceError,GatewayError.jwtVerifyFailed.code)

def onDefaultMessage (cfg : Config) (fb : FlatBuffers) (msgId : UInt32) (payload ip : Bytes) : Task Unit :=
  if msgId = authenticateSession then handleAuthenticateSession cfg fb payload
  else if msgId = subscribeChannel ∨ msgId = unsubscribeChannel then
    handleChannelMessage cfg fb msgId payload ip
  else handleRequest cfg msgId ip

structure Message where
  msgId : UInt32
  payload : Bytes := []
  ip : Bytes := []
  answer : (command : Command) → Reply command

def fresh : Local := { known := false, state := {} }

def handle (cfg : Config) (fb : FlatBuffers) (s : Local) (message : Message) : Local :=
  ((onDefaultMessage cfg fb message.msgId message.payload message.ip).run (serve message.answer) s).2

def step (cfg : Config) (fb : FlatBuffers) (s : Local) (message : Message) : Option Local :=
  some (handle cfg fb s message)

/-- The token of the state was verified, and the state says what it claims. -/
def Certified (answers : List (Sigma Reply)) (state : AuthState) : Prop :=
  ⟨.verify state.token,.ok ⟨state.userId,state.jti⟩⟩ ∈ answers

instance (answers : List (Sigma Reply)) (state : AuthState) : Decidable (Certified answers state) :=
  inferInstanceAs (Decidable (_ ∈ answers))

/-- An authenticated state stands on its stored token, and so did every state under which a SUBSCRIBE
was served or a message routed with a user id. -/
structure Faithful (s : Local) : Prop where
  state : s.state.authenticated → Certified s.answers s.state
  served : ∀ state ∈ s.served, Certified s.answers state
  routed : ∀ message ∈ s.routed, message.1 = message.2.userId ∧ (Certified s.answers message.2 ∨ message.1 = 0)

/-- A token that fails to verify is stored only in a session that is not authenticated, or the claims
of the session are those that this very token had when it was verified. -/
def Rebinds (fb : FlatBuffers) (s : Local) (message : Message) : Prop :=
  message.msgId = authenticateSession →
    ∀ token, primary fb message.payload (.serviceError,GatewayError.jwtVerifyFailed.code) = .ok token →
      (message.answer (.verify token)).isOk ∨ ¬ (s.known ∧ s.state.authenticated) ∨
        Certified s.answers { s.state with token := token }

structure Plausible (s : Local) : Prop where
  fresh : s.known = false → s.state = {}
  anonymous : ¬ s.state.authenticated → s.state.userId = 0

/-- What the handling of one message can do to a session; answers that are there stay. -/
inductive Change (fb : FlatBuffers) (s : Local) (message : Message) (t : Local) : Prop
  | kept (same : Same s t)
  | served (known : s.known) (authenticated : s.state.authenticated) (still : t.known = s.known)
      (state : t.state = s.state) (served : t.served = s.served ++ [s.state]) (routed : t.routed = s.routed)
  | requested (known : t.known) (state : t.state = s.state ∨ ∃ claims,
        ⟨.verify s.state.token,.ok claims⟩ ∈ t.answers ∧ t.state = s.state.bound claims)
      (served : t.served = s.served)
      (routed : t.routed = s.routed ∨ t.routed = s.routed ++ [(t.state.userId,t.state)])
  | verified (claims : JwtClaims) (known : t.known) (asked : ⟨.verify token,.ok claims⟩ ∈ t.answers)
      (state : t.state = { s.state with token := token }.bound claims)
      (served : t.served = s.served) (routed : t.routed = s.routed)
  | unverified (known : t.known) (answered : (message.answer (.verify token)).isOk = false)
      (sent : message.msgId = authenticateSession)
      (parsed : primary fb message.payload (.serviceError,GatewayError.jwtVerifyFailed.code) = .ok token)
      (state : t.state = { s.state with token := token })
      (served : t.served = s.served) (routed : t.routed = s.routed)

section Handlers
variable (cfg : Config) (fb : FlatBuffers) (answer : (command : Command) → Reply command) (s : Local)

theorem obtained (fresh : s.known = false → s.state = {}) :
    (serve answer s .obtainState).2 = { s with known := true } := by
  cases known : s.known with
  | true => simp [serve,known]
  | false => simp [serve,known,fresh known]

theorem refuse_plain (msgId : UInt32) (refusal : ErrorCode × UInt16) :
    (refuse cfg msgId refusal).Always Command.plain := .call trivial fun _ => trivial

section
variable (token : Bytes) (fresh : s.known = false → s.state = {})
include fresh

theorem bindToken_unverified
    (verdict : answer (.verify token) = .error code) : ((bindToken token).run (serve answer) s).2 =
      { s with
        known := true
        state := { s.state with token := token }
        answers := s.answers ++ [⟨.verify token,.error code⟩] } := by
  simp only [bindToken,run_bind,run_call,obtained answer s fresh]
  simp only [serve,verdict,run_pure,Local.answered]

end

theorem handleSubscribeChannel_cases (payload : Bytes) :
    let t := ((handleSubscribeChannel cfg fb payload).run (serve answer) s).2
    Same s t ∨ (t.known = s.known ∧ t.state = s.state ∧ t.served = s.served ++ [s.state] ∧ t.routed = s.routed) := by
  cases parsed : primary fb payload (.invalidMessage,0) with
  | error refusal =>
    rw [handleSubscribeChannel,parsed]
    exact .inl (run_plain answer s (refuse_plain cfg _ refusal))
  | ok channel =>
    simp only [handleSubscribeChannel,parsed,run_bind,run_call,serve]
    by_cases accepted : answer (.subscribe channel) = true
    all_goals simp only [accepted]
    all_goals exact .inr ⟨rfl,rfl,rfl,rfl⟩

theorem handleUnsubscribeChannel_plain (payload : Bytes) :
    (handleUnsubscribeChannel cfg fb payload).Always Command.plain := by
  rw [handleUnsubscribeChannel]
  split
  · exact refuse_plain cfg _ _
  · exact .call trivial fun _ => trivial

variable (message : Message) (msgId : UInt32)

theorem handleChannelMessage_change (payload ip : Bytes) :
    Change fb s message ((handleChannelMessage cfg fb msgId payload ip).run (serve message.answer) s).2 := by
  have limited := run_plain message.answer s (checkIpRateLimit_plain cfg ip)
  by_cases authenticated : s.known ∧ s.state.authenticated
  · have found : (serve message.answer s .findState).1.any AuthState.authenticated = true := by
      simp [serve,authenticated]
    simp only [handleChannelMessage,run_bind,run_call,found,if_true]
    rw [show (serve message.answer s .findState).2 = s from rfl]
    generalize (checkIpRateLimit cfg ip).run (serve message.answer) s = ends at limited ⊢
    obtain ⟨result,first⟩ := ends
    cases result with
    | error error => exact .kept (limited.trans (run_plain _ first (refuse_plain cfg msgId _)))
    | ok passed =>
      simp only
      split
      · rcases handleSubscribeChannel_cases cfg fb message.answer first payload with
          same | ⟨known,state,served,routed⟩
        · exact .kept (limited.trans same)
        · rw [limited.served,limited.state] at served
          exact .served authenticated.1 authenticated.2 (known.trans limited.known)
            (state.trans limited.state) served (routed.trans limited.routed)
      · exact .kept (limited.trans (run_plain _ first (handleUnsubscribeChannel_plain cfg fb payload)))
  · have missing : (serve message.answer s .findState).1.any AuthState.authenticated = false := by
      cases known : s.known <;> simp_all [serve]
    simp only [handleChannelMessage,run_bind,run_call,missing]
    exact .kept (run_plain _ s (refuse_plain cfg msgId _))

theorem forward_cases (msgId : UInt32) :
    let t := ((forward cfg msgId).run (serve answer) s).2
    t.known = s.known ∧ t.state = s.state ∧ t.served = s.served ∧
      (t.routed = s.routed ∨ t.routed = s.routed ++ [(t.state.userId,t.state)]) := by
  simp only [forward,run_bind,run_call,serve]
  by_cases inserted : answer (.insertPending msgId) = true
  · simp only [inserted,if_true,run_bind,run_call,serve]
    by_cases produced : answer (.route s.state.userId) = true
    all_goals simp only [Local.answered,produced]
    all_goals exact ⟨rfl,rfl,rfl,.inr rfl⟩
  · simp only [inserted]
    exact ⟨rfl,rfl,rfl,.inl rfl⟩

theorem handleRequest_change (ip : Bytes)
    (fresh : s.known = false → s.state = {}) :
    Change fb s message ((handleRequest cfg msgId ip).run (serve message.answer) s).2 := by
  have rebound := process_rebound cfg message.answer { s with known := true } msgId ip
  simp only [handleRequest,run_bind,run_call,obtained _ s fresh]
  generalize (process cfg msgId ip).run (serve message.answer) { s with known := true } = ends at rebound ⊢
  obtain ⟨result,second⟩ := ends
  cases result with
  | error code => exact .requested rebound.known rebound.state rebound.served (.inl rebound.routed)
  | ok passed =>
    obtain ⟨known,state,served,routed⟩ := forward_cases cfg message.answer second msgId
    have grown := run_grows message.answer second (forward cfg msgId)
    rw [rebound.routed] at routed
    refine .requested (known.trans rebound.known) ?_ (served.trans rebound.served) routed
    rcases rebound.state with unchanged | ⟨claims,verified,bound⟩
    · exact .inl (state.trans unchanged)
    · exact .inr ⟨claims,grown verified,state.trans bound⟩

end Handlers

section Session
variable (cfg : Config) (fb : FlatBuffers) (s : Local) (message : Message)

theorem handle_change (fresh : s.known = false → s.state = {}) : Change fb s message (handle cfg fb s message) := by
  rw [handle,onDefaultMessage]
  split
  · rename_i sent
    cases parsed : primary fb message.payload (.serviceError,GatewayError.jwtVerifyFailed.code) with
    | error refusal =>
      rw [handleAuthenticateSession,parsed]
      exact .kept (run_plain _ s (refuse_plain cfg _ refusal))
    | ok token =>
      rw [handleAuthenticateSession,parsed]
      cases verdict : message.answer (.verify token) with
      | ok claims =>
        simp only [bindToken,run_bind,run_call,obtained message.answer s fresh]
        simp only [serve,verdict,run_call,Local.answered]
        exact .verified claims rfl (by simp) rfl rfl rfl
      | error code =>
        rw [bindToken_unverified message.answer s token fresh verdict]
        exact .unverified rfl (by rw [verdict]; rfl) sent parsed rfl rfl rfl
  · split
    · exact handleChannelMessage_change cfg fb s message _ _ _
    · exact handleRequest_change cfg fb s message _ _ fresh

theorem handle_grows : s.answers ⊆ (handle cfg fb s message).answers := run_grows _ _ _

theorem handle_sensible (sensible : Plausible s) : Plausible (handle cfg fb s message) := by
  cases handle_change cfg fb s message sensible.fresh with
  | kept same =>
    refine ⟨?_,?_⟩
    · rw [same.known,same.state]
      exact sensible.fresh
    · rw [same.state]
      exact sensible.anonymous
  | served known authenticated still state =>
    refine ⟨fun unknown => ?_,?_⟩
    · rw [still,known] at unknown
      cases unknown
    · rw [state]
      exact sensible.anonymous
  | requested known state =>
    refine ⟨fun unknown => (by cases known.symm.trans unknown),?_⟩
    rcases state with unchanged | ⟨claims,-,bound⟩
    · rw [unchanged]
      exact sensible.anonymous
    · rw [bound]
      exact fun unknown => (unknown rfl).elim
  | verified claims known asked state =>
    refine ⟨fun unknown => (by cases known.symm.trans unknown),?_⟩
    rw [state]
    exact fun unknown => (unknown rfl).elim
  | unverified known answered sent parsed state =>
    refine ⟨fun unknown => (by cases known.symm.trans unknown),?_⟩
    rw [state]
    exact sensible.anonymous

theorem Faithful.extend {s t : Local} (faithful : Faithful s) (grown : s.answers ⊆ t.answers)
    (state : t.state.authenticated → Certified t.answers t.state)
    (served : t.served = s.served ∨ (s.state.authenticated ∧ t.served = s.served ++ [s.state]))
    (anonymous : ¬ t.state.authenticated → t.state.userId = 0)
    (routed : t.routed = s.routed ∨ t.routed = s.routed ++ [(t.state.userId,t.state)]) : Faithful t where
  state := state
  served := by
    have before : ∀ state ∈ s.served, Certified t.answers state :=
      fun state member => grown (faithful.served state member)
    rcases served with same | ⟨authenticated,more⟩
    · rwa [same]
    rw [more]
    exact List.forall_mem_append.mpr ⟨before,fun state member => by
      cases List.mem_singleton.mp member
      exact grown (faithful.state authenticated)⟩
  routed := by
    have before : ∀ message ∈ s.routed, message.1 = message.2.userId ∧
        (Certified t.answers message.2 ∨ message.1 = 0) := fun message member =>
      ⟨(faithful.routed message member).1,(faithful.routed message member).2.imp_left fun certified => grown certified⟩
    rcases routed with same | more
    · rwa [same]
    rw [more]
    refine List.forall_mem_append.mpr ⟨before,fun message member => ?_⟩
    cases List.mem_singleton.mp member
    by_cases authenticated : t.state.authenticated
    · exact ⟨rfl,.inl (state authenticated)⟩
    · exact ⟨rfl,.inr (anonymous authenticated)⟩

theorem handle_faithful (sensible : Plausible s) (faithful : Faithful s) (rebinds : Rebinds fb s message) :
    Faithful (handle cfg fb s message) := by
  have grown := handle_grows cfg fb s message
  have after := handle_sensible cfg fb s message sensible
  have kept : s.state.authenticated → Certified (handle cfg fb s message).answers s.state :=
    fun authenticated => grown (faithful.state authenticated)
  cases handle_change cfg fb s message sensible.fresh with
  | kept same =>
    exact faithful.extend grown (by rwa [same.state]) (.inl same.served) after.anonymous (.inl same.routed)
  | served known authenticated still state served routed =>
    exact faithful.extend grown (by rwa [state]) (.inr ⟨authenticated,served⟩) after.anonymous (.inl routed)
  | requested known state served routed =>
    refine faithful.extend grown ?_ (.inl served) after.anonymous routed
    rcases state with unchanged | ⟨claims,verified,bound⟩
    · rwa [unchanged]
    · rw [bound]
      exact fun _ => verified
  | verified claims known asked state served routed =>
    refine faithful.extend grown ?_ (.inl served) after.anonymous (.inl routed)
    rw [state]
    exact fun _ => asked
  | unverified known answered sent parsed state served routed =>
    refine faithful.extend grown ?_ (.inl served) after.anonymous (.inl routed)
    rw [state]
    intro authenticated
    rcases rebinds sent _ parsed with verified | unknown | certified
    · cases answered.symm.trans verified
    · have fresh := sensible.fresh (by simpa using fun known => unknown ⟨known,authenticated⟩)
      rw [fresh] at authenticated
      cases authenticated
    · exact grown certified

theorem handle_rebinds (sensible : Plausible s) (after : Faithful (handle cfg fb s message)) :
    Rebinds fb s message := by
  intro sent token parsed
  cases verdict : message.answer (.verify token) with
  | ok claims => exact .inl rfl
  | error code =>
    right
    by_cases authenticated : s.known ∧ s.state.authenticated
    · right
      rw [handle,onDefaultMessage,if_pos sent,handleAuthenticateSession,parsed] at after
      simp only [bindToken_unverified message.answer s token sensible.fresh verdict] at after
      have certified := after.state authenticated.2
      simpa [Certified] using certified
    · exact .inl authenticated

end Session

theorem fresh_sensible : Plausible fresh := ⟨fun _ => rfl,fun _ => rfl⟩

theorem fresh_faithful : Faithful fresh := ⟨nofun,nofun,nofun⟩

theorem step_runs (cfg : Config) (fb : FlatBuffers) (s : Local) (messages : List Message) :
    ∃ final, Execution.run (step cfg fb) s messages = some final := by
  induction messages generalizing s with
  | nil => exact ⟨s,rfl⟩
  | cons message rest ih => exact ih (handle cfg fb s message)

/-- A token that an AUTHENTICATE_SESSION brings is one that the verifier accepts. -/
def Verifies (fb : FlatBuffers) (message : Message) : Prop :=
  message.msgId = authenticateSession →
    ∀ token, primary fb message.payload (.serviceError,GatewayError.jwtVerifyFailed.code) = .ok token →
      (message.answer (.verify token)).isOk

/-- A session acts on the strength of its stored token for as long as no token that fails to verify is
stored over the one that authenticated it, which is so when all its tokens verify. -/
theorem session_faithful_iff (cfg : Config) (fb : FlatBuffers) (messages : List Message) :
    (Execution.Throughout (step cfg fb) Faithful fresh messages ↔
      Execution.Along (step cfg fb) (Rebinds fb) fresh messages) ∧
    ((∀ message ∈ messages, Verifies fb message) → Execution.Throughout (step cfg fb) Faithful fresh messages) := by
  have sensible := Execution.along_invariant (step cfg fb) Plausible
    (by rintro s message next sensible ⟨⟩; exact handle_sensible cfg fb s message sensible)
    fresh_sensible messages
  obtain ⟨final,runs⟩ := step_runs cfg fb fresh messages
  have exact : Execution.Throughout (step cfg fb) Faithful fresh messages ↔
      Execution.Along (step cfg fb) (Rebinds fb) fresh messages := by
    refine Execution.throughout_iff (Rebinds fb) (fun s _ => Plausible s) Faithful ?_ fresh_faithful sensible runs
    rintro s message next faithful sensible ⟨⟩
    exact ⟨handle_rebinds cfg fb s message sensible,handle_faithful cfg fb s message sensible faithful⟩
  refine ⟨exact,fun verifies => exact.mpr ?_⟩
  exact .of_forall fun s message member sent token parsed => .inl (verifies message member sent token parsed)

def accepts (good : Bytes) : (command : Command) → Reply command
  | .verify token => if token = good then .ok ⟨7,[7]⟩ else .error .unknown
  | command => obliging command

/-- The session of user 7 stores a token that fails, is still authenticated, and goes on to subscribe
and to send a message as user 7. -/
def staleSession : List Message :=
  let answer := accepts [1,1,1,1]
  [⟨authenticateSession,[1,1,1,1],[],answer⟩,⟨authenticateSession,[2,2,2,2],[],answer⟩,
    ⟨subscribeChannel,[3,3,3,3],[],answer⟩,⟨1000,[],[],answer⟩]

theorem stale_session_unfaithful : ∃ final,
    Execution.run (step guardedGateway ⟨fun _ => true,some⟩) fresh staleSession = some final ∧
    final.state = { authenticated := true, userId := 7, jti := [7], token := [2,2,2,2] } ∧
    final.served = [final.state] ∧ final.routed = [(7,final.state)] ∧
    ⟨.verify final.state.token,.error .unknown⟩ ∈ final.answers ∧ ¬ Certified final.answers final.state := by
  decide +kernel

end ApexPipeline.GatewayPipeline
