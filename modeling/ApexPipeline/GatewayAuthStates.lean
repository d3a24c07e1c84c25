import ApexPipeline.GatewayIdentity

/-! The map `auth_states_` of one core. A request keeps a reference to the entry of its session while it waits for
Redis; meanwhile other messages insert and closed sessions erase. `flat_map` stores its entries in an array: a
reference names an array and a place in it, an insertion takes any free place or moves everything to a new array, and
an erased place is free again. -/
namespace ApexPipeline.GatewayPipeline
open Gateway Coroutine List Command Execution

structure Place where
  generation : Nat
  slot : Nat
  deriving DecidableEq, Repr

structure Entry where
  slot : Nat
  session : Nat
  state : AuthState
  deriving DecidableEq, Repr

/-- A use of a reference, and whether it was the entry of the session at that time. -/
structure Access where
  session : Nat
  own : Bool
  deriving DecidableEq, Repr

/-- A routed message, with the entry of its session and the tokens that its request had verified. -/
structure Routed where
  session : Nat
  msgId : UInt32
  userId : UInt64
  entry : Option AuthState
  verified : List (Bytes × JwtClaims)
  deriving DecidableEq, Repr

/-- `generation` names the array. The two histories are no part of the program. -/
structure States where
  generation : Nat := 0
  entries : List Entry := []
  accesses : List Access := []
  routed : List Routed := []
  deriving DecidableEq, Repr

/-- The frame of a handler: its session, its message, its reference, and the tokens it has verified,
which are no part of the program. -/
structure Frame where
  session : Nat
  msgId : UInt32
  place : Option Place := none
  verified : List (Bytes × JwtClaims) := []
  deriving DecidableEq, Repr

namespace States

def find (s : States) (session : Nat) : Option Entry := s.entries.find? fun entry => entry.session = session

/-- A place that is taken is not given away; any free one can be. -/
def freeSlot (s : States) (slot : Nat) : Nat :=
  if s.entries.any fun entry => entry.slot = slot then (s.entries.map Entry.slot).sum + 1 else slot

def insert (s : States) (session slot : Nat) (rehash : Bool) : States :=
  { s with
    generation := if rehash then s.generation + 1 else s.generation
    entries := s.entries ++ [⟨s.freeSlot slot,session,{}⟩] }

def erase (s : States) (session : Nat) : States :=
  { s with entries := s.entries.filter fun entry => entry.session ≠ session }

/-- What lies at a place: nothing when the array is gone or the place was erased. -/
def at? (s : States) (place : Place) : Option Entry :=
  if place.generation = s.generation then s.entries.find? fun entry => entry.slot = place.slot else none

def own (s : States) (f : Frame) : Bool :=
  f.place.any fun place => (s.at? place).any fun entry => entry.session = f.session

/-- A write goes to whatever lies at the place. -/
def modify (s : States) (f : Frame) (change : AuthState → AuthState) : States :=
  match f.place with
  | none => s
  | some place =>
    if place.generation = s.generation then
      { s with entries := s.entries.map fun entry =>
          if entry.slot = place.slot then { entry with state := change entry.state } else entry }
    else s

def accessed (s : States) (f : Frame) : States :=
  { s with accesses := s.accesses ++ [⟨f.session,s.own f⟩] }

end States

/-- The surroundings of a handler while it runs: the answers to it, what is read where there is no
entry, and the place of an insertion. -/
structure Scene where
  answer : (command : Command) → Reply command
  garbage : AuthState := {}
  slot : Nat := 0
  rehash : Bool := false

/-- What a handler does at once. The three Redis commands suspend it. -/
def perform (scene : Scene) (x : States × Frame) : (command : Command) → Option (Reply command × States × Frame)
  | .isBlacklisted _ | .checkUser _ | .checkEndpoint .. => none
  | .findState => some ((x.1.find x.2.session).map Entry.state,x)
  | .obtainState =>
    match x.1.find x.2.session with
    | some entry => some ((),x.1,{ x.2 with place := some ⟨x.1.generation,entry.slot⟩ })
    | none =>
      let states := x.1.insert x.2.session scene.slot scene.rehash
      some ((),states,{ x.2 with place := some ⟨states.generation,x.1.freeSlot scene.slot⟩ })
  | .readState =>
    some ((((x.2.place.bind x.1.at?).map Entry.state).getD scene.garbage),x.1.accessed x.2,x.2)
  | .writeToken token =>
    some ((),(x.1.accessed x.2).modify x.2 (fun state => { state with token := token }),x.2)
  | .writeState claims => some ((),(x.1.accessed x.2).modify x.2 (fun state => state.bound claims),x.2)
  | .verify token => some (scene.answer (.verify token),x.1,{ x.2 with
      verified := x.2.verified ++ (match scene.answer (.verify token) with
        | .ok claims => [(token,claims)]
        | .error _ => []) })
  | .route userId => some (scene.answer (.route userId),
      { x.1 with routed := x.1.routed ++ [⟨x.2.session,x.2.msgId,userId,(x.1.find x.2.session).map Entry.state,
        x.2.verified⟩] },x.2)
  | command => some (scene.answer command,x)

/-- One core: the map and the handlers that wait for Redis. -/
structure Core where
  states : States := {}
  jobs : List (Frame × Task Unit) := []

inductive Action where
  | message (session : Nat) (msgId : UInt32) (payload ip : Bytes) (scene : Scene)
  | resume (job : Nat) (answer : (command : Command) → Reply command) (garbage : AuthState)
  | close (session : Nat)

def park (jobs : List (Frame × Task Unit)) (ends : Task Unit × States × Frame) : Core :=
  match ends.1 with
  | .done _ => ⟨ends.2.1,jobs⟩
  | rest => ⟨ends.2.1,jobs ++ [(ends.2.2,rest)]⟩

/-- A session sends its next message when the handler of the last one is done. -/
def coreStep (cfg : Config) (fb : FlatBuffers) (s : Core) : Action → Option Core
  | .message session msgId payload ip scene =>
    if s.jobs.any fun job => job.1.session = session then none
    else some (park s.jobs
      ((onDefaultMessage cfg fb msgId payload ip).drive (perform scene) (s.states,{ session, msgId })))
  | .resume job answer garbage =>
    match s.jobs[job]? with
    | some (f,.await command resume) => some (park (s.jobs.eraseIdx job)
        ((resume (answer command)).drive (perform { answer, garbage }) (s.states,f)))
    | _ => none
  | .close session => some { s with states := s.states.erase session }

/-- What a handler knows: the token of its entry, what it has verified, and the claims it has written. -/
inductive Knowledge where
  | unplaced
  | placed (token : Bytes) (verified : List (Bytes × JwtClaims)) (bound : Option JwtClaims)

/-- A reference is taken once, before its first use and before the first suspension; a message that is
not exempt is routed under the claims of its token. -/
def Knowledge.permit (exempt : Bool) : Knowledge → Command → Prop
  | .unplaced, .obtainState => True
  | .placed .., .obtainState => False
  | .unplaced, .readState | .unplaced, .writeToken _ | .unplaced, .writeState _ | .unplaced, .verify _
  | .unplaced, .isBlacklisted _ | .unplaced, .checkUser _ | .unplaced, .checkEndpoint .. | .unplaced, .route _ => False
  | .placed token verified _, .route userId => exempt ∨ ∃ claims, (token,claims) ∈ verified ∧ userId = claims.userId
  | _, _ => True

def Knowledge.learn : Knowledge → (command : Command) → Reply command → Knowledge → Prop
  | _, .obtainState, _, next => ∃ token, next = .placed token [] none
  | .placed token verified bound, .readState, state, next =>
    next = .placed token verified bound ∧ state.token = token ∧ ∀ claims, bound = some claims → state.userId = claims.userId
  | .placed _ verified bound, .writeToken token, _, next => next = .placed token verified bound
  | .placed token verified _, .writeState claims, _, next => next = .placed token verified (some claims)
  | .placed token verified bound, .verify checked, reply, next =>
    next = .placed token (verified ++ (match reply with
      | .ok claims => [(checked,claims)]
      | .error _ => [])) bound
  | known, _, _, next => next = known

abbrev Knows (exempt : Bool) (post : Knowledge → A → Prop) : Knowledge → Task A → Prop :=
  Tracks (Knowledge.permit exempt) Knowledge.learn post

theorem knows_plain {post : Knowledge → A → Prop} (plain : program.Always plain)
    (ends : ∀ value, post (.placed token verified bound) value) :
    Knows exempt post (.placed token verified bound) program := by
  refine .of_always plain (fun command allowed => ?_) (fun command reply next allowed learned => ?_) ends
  · cases command <;> trivial
  · cases command with
    | readState => exact learned.1
    | _ => first | exact learned | cases allowed

section Handlers
variable (cfg : Config) (fb : FlatBuffers) (msgId : UInt32) (payload ip : Bytes)

def Bound (token : Bytes) (verified : List (Bytes × JwtClaims)) (bound : Option JwtClaims) : Prop :=
  ∃ claims, (token,claims) ∈ verified ∧ bound = some claims

def Cleared (cfg : Config) (msgId : UInt32) (passed : Bool) : Knowledge → Prop
  | .unplaced => False
  | .placed token verified bound => passed → cfg.isExempt msgId ∨ Bound token verified bound

theorem accept_knows (claims : JwtClaims) (checked : (token,claims) ∈ verified) :
    Knows (cfg.isExempt msgId) (fun known result => Cleared cfg msgId result.isOk known)
      (.placed token verified bound) (accept claims) := by
  refine .call trivial ?_
  rintro - next rfl
  exact fun _ => .inr ⟨claims,checked,rfl⟩

theorem checkBlacklist_knows (claims : JwtClaims) (checked : (token,claims) ∈ verified) :
    Knows (cfg.isExempt msgId) (fun known result => Cleared cfg msgId result.isOk known)
      (.placed token verified bound) (checkBlacklist cfg msgId claims) := by
  rw [checkBlacklist]
  split
  · refine .call trivial ?_
    rintro reply next rfl
    split
    · rintro ⟨⟩
    · exact accept_knows cfg msgId claims checked
    · split
      · exact accept_knows cfg msgId claims checked
      · rintro ⟨⟩
  · exact accept_knows cfg msgId claims checked

theorem authenticate_knows : Knows (cfg.isExempt msgId) (fun known result => Cleared cfg msgId result.isOk known)
    (.placed token [] none) (authenticate cfg msgId) := by
  rw [authenticate]
  split
  · exact fun _ => .inl ‹_›
  refine .call trivial ?_
  rintro state next ⟨rfl,same,-⟩
  split
  · rintro ⟨⟩
  refine .call trivial ?_
  rintro reply next rfl
  cases reply with
  | error code => rintro ⟨⟩
  | ok claims => exact checkBlacklist_knows cfg msgId claims (by simp [same])

theorem deny_knows (error : GatewayError) :
    Knows (cfg.isExempt msgId) (fun known result => Cleared cfg msgId result.isOk known)
      (.placed token verified bound) (deny cfg msgId error) := by
  refine .call trivial ?_
  rintro - next rfl
  exact nofun

theorem process_knows : Knows (cfg.isExempt msgId) (fun known result => Cleared cfg msgId result.isOk known)
    (.placed token [] none) (process cfg msgId ip) := by
  have limited : Knows (cfg.isExempt msgId) (fun known _ => known = .placed token [] none)
      (.placed token [] none) (checkIpRateLimit cfg ip) := knows_plain (checkIpRateLimit_plain cfg ip) fun _ => rfl
  refine limited.bind ?_
  rintro known result rfl
  cases result with
  | error error => exact deny_knows cfg msgId error
  | ok passed =>
    refine (authenticate_knows cfg msgId).bind ?_
    rintro (_ | ⟨token,verified,bound⟩) result cleared
    · cases cleared
    · cases result with
      | error error => exact deny_knows cfg msgId error
      | ok passed => exact knows_plain (limit_plain cfg msgId ip) fun _ _ => cleared rfl

theorem forward_knows (cleared : cfg.isExempt msgId ∨ Bound token verified bound) :
    Knows (cfg.isExempt msgId) (fun _ _ => True) (.placed token verified bound) (forward cfg msgId) := by
  refine .call trivial ?_
  rintro inserted next rfl
  split
  · refine .call trivial ?_
    rintro state next ⟨rfl,-,same⟩
    refine .call ?_ ?_
    · rcases cleared with exempt | ⟨claims,checked,rfl⟩
      · exact .inl exempt
      · exact .inr ⟨claims,checked,same claims rfl⟩
    · rintro produced next rfl
      split
      · trivial
      · exact knows_plain (.call trivial fun _ => .call trivial fun _ => trivial) fun _ => trivial
  · exact knows_plain (.call trivial fun _ => trivial) fun _ => trivial

theorem handleRequest_knows :
    Knows (cfg.isExempt msgId) (fun _ _ => True) .unplaced (handleRequest cfg msgId ip) := by
  refine .call trivial ?_
  rintro - next ⟨token,rfl⟩
  refine (process_knows cfg msgId ip).bind ?_
  rintro (_ | ⟨token,verified,bound⟩) result cleared
  · cases cleared
  · cases result with
    | error code => trivial
    | ok passed => exact forward_knows cfg msgId (cleared rfl)

theorem bindToken_knows (token : Bytes) : Knows exempt (fun _ _ => True) .unplaced (bindToken token) := by
  refine .call trivial ?_
  rintro - next ⟨old,rfl⟩
  refine .call trivial ?_
  rintro - next rfl
  refine .call trivial ?_
  rintro reply next rfl
  cases reply with
  | error code => trivial
  | ok claims => exact ⟨trivial,fun _ _ _ => trivial⟩

def Command.detached : Command → Prop
  | .findState | .checkIp _ | .enqueueWrite _ | .subscribe _ | .unsubscribe _ | .listen _ => True
  | _ => False

theorem knows_detached (detached : program.Always detached) :
    Knows exempt (fun _ _ => True) .unplaced program := by
  refine .of_always detached (fun command allowed => ?_) (fun command reply next allowed learned => ?_) fun _ => trivial
  · cases command <;> trivial
  · cases command <;> first | exact learned | cases allowed

theorem refuse_detached (refusal : ErrorCode × UInt16) : (refuse cfg msgId refusal).Always detached :=
  .call trivial fun _ => trivial

theorem handleSubscribeChannel_detached : (handleSubscribeChannel cfg fb payload).Always detached := by
  rw [handleSubscribeChannel]
  split
  · exact refuse_detached cfg _ _
  · exact .call trivial fun _ => .ite (.call trivial fun _ => trivial) (refuse_detached cfg _ _)

theorem handleUnsubscribeChannel_detached : (handleUnsubscribeChannel cfg fb payload).Always detached := by
  rw [handleUnsubscribeChannel]
  split
  · exact refuse_detached cfg _ _
  · exact .call trivial fun _ => trivial

theorem handleChannelMessage_detached :
    (handleChannelMessage cfg fb msgId payload ip).Always detached := by
  refine .call trivial fun entry => .ite ?_ (refuse_detached cfg _ _)
  refine .bind (.ite (.call trivial fun _ => .ite trivial trivial) trivial) fun result => ?_
  cases result with
  | error error => exact refuse_detached cfg _ _
  | ok passed =>
    exact .ite (handleSubscribeChannel_detached cfg fb payload) (handleUnsubscribeChannel_detached cfg fb payload)

theorem onDefaultMessage_knows :
    Knows (cfg.isExempt msgId) (fun _ _ => True) .unplaced (onDefaultMessage cfg fb msgId payload ip) := by
  rw [onDefaultMessage]
  split
  · rw [handleAuthenticateSession]
    split
    · exact knows_detached (refuse_detached cfg _ _)
    · exact bindToken_knows _
  · split
    · exact knows_detached (handleChannelMessage_detached cfg fb msgId payload ip)
    · exact handleRequest_knows cfg msgId ip

end Handlers

structure States.Valid (s : States) : Prop where
  slots : (s.entries.map Entry.slot).Nodup
  sessions : (s.entries.map Entry.session).Nodup

/-- The request was exempt, or it has verified the token of its session and acts for the user it names. -/
def Routed.rightful (cfg : Config) (r : Routed) : Prop :=
  cfg.isExempt r.msgId ∨ ∃ state claims, r.entry = some state ∧ (state.token,claims) ∈ r.verified ∧
    r.userId = claims.userId

structure States.Right (cfg : Config) (s : States) : Prop extends Valid s where
  own : ∀ access ∈ s.accesses, access.own = true
  rightful : ∀ r ∈ s.routed, Routed.rightful cfg r

structure States.Apart (session : Nat) (rehash : Bool) (s t : States) : Prop where
  newer : s.generation ≤ t.generation
  generation : rehash = false → t.generation = s.generation
  others : ∀ entry, entry.session ≠ session → (entry ∈ t.entries ↔ entry ∈ s.entries)

structure Refers (s : States) (f : Frame) (place : Place) (entry : Entry) : Prop where
  held : f.place = some place
  generation : place.generation = s.generation
  member : entry ∈ s.entries
  slot : entry.slot = place.slot
  session : entry.session = f.session

def Agrees (token : Bytes) (bound : Option JwtClaims) (state : AuthState) : Prop :=
  state.token = token ∧ ∀ claims, bound = some claims → state.userId = claims.userId

def Holds (x : States × Frame) : Knowledge → Prop
  | .unplaced => x.2.verified = []
  | .placed token verified bound => x.2.verified = verified ∧
      ∃ place entry, Refers x.1 x.2 place entry ∧ Agrees token bound entry.state

namespace States
variable {s t u : States} {f : Frame} {place : Place} {entry : Entry}

theorem Apart.refl (session : Nat) (rehash : Bool) (s : States) : s.Apart session rehash s :=
  ⟨le_rfl,fun _ => rfl,fun _ _ => .rfl⟩

theorem Apart.trans (first : s.Apart session rehash t) (second : t.Apart session rehash u) :
    s.Apart session rehash u where
  newer := first.newer.trans second.newer
  generation kept := (second.generation kept).trans (first.generation kept)
  others entry other := (second.others entry other).trans (first.others entry other)

theorem Valid.same_slot (valid : s.Valid) (first : a ∈ s.entries) (second : b ∈ s.entries)
    (same : a.slot = b.slot) : a = b := inj_on_of_nodup_map valid.slots first second same

theorem find?_key {entries : List Entry} {key : Entry → Nat} (distinct : (entries.map key).Nodup) (member : entry ∈ entries) :
    entries.find? (fun other => key other = key entry) = some entry := by
  cases found : entries.find? fun other => key other = key entry with
  | none => exact absurd (decide_eq_true rfl) (find?_eq_none.mp found entry member)
  | some other =>
    have same : key other = key entry := by simpa using find?_some found
    rw [inj_on_of_nodup_map distinct (mem_of_find?_eq_some found) member same]

section
variable (valid : s.Valid) (refers : Refers s f place entry)
include valid refers

theorem Valid.at?_eq : s.at? place = some entry := by
  rw [at?,if_pos refers.generation,← refers.slot]
  exact find?_key valid.slots refers.member

theorem Valid.find_eq : s.find f.session = some entry := by
  rw [find,← refers.session]
  exact find?_key valid.sessions refers.member

theorem Valid.own_eq : s.own f = true := by
  simp [own,refers.held,valid.at?_eq refers,refers.session]

end

theorem Right.accessed (right : s.Right cfg) (refers : Refers s f place entry) : (s.accessed f).Right cfg where
  toValid := ⟨right.slots,right.sessions⟩
  own := by
    refine forall_mem_append.mpr ⟨right.own,fun access member => ?_⟩
    cases mem_singleton.mp member
    exact right.own_eq refers
  rightful := right.rightful

theorem modify_eq (refers : Refers s f place entry) (change : AuthState → AuthState) :
    s.modify f change = { s with entries := s.entries.map fun entry =>
      if entry.slot = place.slot then { entry with state := change entry.state } else entry } := by
  rw [modify,refers.held]
  exact if_pos refers.generation

theorem Right.modify (right : s.Right cfg) (refers : Refers s f place entry) (change : AuthState → AuthState) :
    (s.modify f change).Right cfg := by
  have slots : ∀ e : Entry, (if e.slot = place.slot then { e with state := change e.state } else e).slot = e.slot := by
    intro e; split <;> rfl
  have sessions : ∀ e : Entry,
      (if e.slot = place.slot then { e with state := change e.state } else e).session = e.session := by
    intro e; split <;> rfl
  rw [modify_eq refers]
  refine ⟨⟨?_,?_⟩,right.own,right.rightful⟩
  · simpa [Function.comp_def,slots] using right.slots
  · simpa [Function.comp_def,sessions] using right.sessions

theorem modify_refers (refers : Refers s f place entry) (change : AuthState → AuthState) :
    Refers (s.modify f change) f place { entry with state := change entry.state } := by
  rw [modify_eq refers]
  refine ⟨refers.held,refers.generation,?_,refers.slot,refers.session⟩
  exact mem_map.mpr ⟨entry,refers.member,if_pos refers.slot⟩

theorem Valid.modify_apart (valid : s.Valid) (refers : Refers s f place entry) (change : AuthState → AuthState)
    (rehash : Bool) : s.Apart f.session rehash (s.modify f change) := by
  rw [modify_eq refers]
  refine ⟨le_rfl,fun _ => rfl,fun other apart => ?_⟩
  -- only the entry of the session itself lies at the place
  have elsewhere : ∀ e ∈ s.entries, e.session ≠ f.session → e.slot ≠ place.slot := by
    intro e member different same
    rw [valid.same_slot member refers.member (same.trans refers.slot.symm)] at different
    exact different refers.session
  constructor
  · intro member
    obtain ⟨e,there,rfl⟩ := mem_map.mp member
    split at apart
    · exact (elsewhere e there apart ‹_›).elim
    · rwa [if_neg ‹_›]
  · intro member
    exact mem_map.mpr ⟨other,member,if_neg (elsewhere other member apart)⟩

theorem freeSlot_free (slot : Nat) : s.freeSlot slot ∉ s.entries.map Entry.slot := by
  rw [freeSlot]
  split
  · intro member
    have := single_le_sum (fun _ _ => Nat.zero_le _) _ member
    omega
  rename_i free
  intro member
  obtain ⟨e,there,same⟩ := mem_map.mp member
  exact free (any_eq_true.mpr ⟨e,there,by simpa using same⟩)

theorem Right.insert (right : s.Right cfg) (fresh : s.find session = none) (slot : Nat) (rehash : Bool) :
    (s.insert session slot rehash).Right cfg := by
  have unknown : session ∉ s.entries.map Entry.session := by
    simpa [find] using fresh
  refine ⟨⟨?_,?_⟩,right.own,right.rightful⟩
  · simpa [States.insert,nodup_append] using ⟨right.slots,fun e member same => freeSlot_free slot
      (mem_map.mpr ⟨e,member,same⟩)⟩
  · simpa [States.insert,nodup_append] using ⟨right.sessions,fun e member same => unknown
      (mem_map.mpr ⟨e,member,same⟩)⟩

theorem insert_apart (session slot : Nat) (rehash : Bool) : s.Apart session rehash (s.insert session slot rehash) where
  newer := by
    rw [States.insert]
    split <;> simp
  generation kept := by simp [States.insert,kept]
  others entry other := by
    simp only [States.insert,mem_append,mem_singleton]
    refine ⟨fun either => either.resolve_right ?_,.inl⟩
    rintro rfl
    exact other rfl

end States

structure Runs (cfg : Config) (scene : Scene) (start : States) (f : Frame) (x : States × Frame)
    (known : Knowledge) : Prop where
  right : x.1.Right cfg
  apart : start.Apart f.session scene.rehash x.1
  session : x.2.session = f.session
  msgId : x.2.msgId = f.msgId
  holds : Holds x known

section Perform
variable {cfg : Config} {scene : Scene} {start : States} {f : Frame} {x next : States × Frame}

theorem Runs.obtain (runs : Runs cfg scene start f x .unplaced)
    (performed : perform scene x .obtainState = some (reply,next)) :
    ∃ token, Runs cfg scene start f next (.placed token [] none) := by
  obtain ⟨s,g⟩ := x
  have none_verified : g.verified = [] := runs.holds
  cases found : s.find g.session with
  | some entry =>
    simp only [perform.eq_def,found] at performed
    cases performed
    have session : entry.session = g.session := by
      have := find?_some found
      simpa using this
    refine ⟨entry.state.token,runs.right,runs.apart,runs.session,runs.msgId,none_verified,
      ⟨s.generation,entry.slot⟩,entry,?_,rfl,nofun⟩
    exact ⟨rfl,rfl,mem_of_find?_eq_some found,rfl,session⟩
  | none =>
    simp only [perform.eq_def,found] at performed
    cases performed
    refine ⟨[],runs.right.insert found _ _,?_,runs.session,runs.msgId,none_verified,
      ⟨(s.insert g.session scene.slot scene.rehash).generation,s.freeSlot scene.slot⟩,
      ⟨s.freeSlot scene.slot,g.session,{}⟩,?_,rfl,nofun⟩
    · have inserted := @States.insert_apart s g.session scene.slot scene.rehash
      have session : g.session = f.session := runs.session
      have apart := runs.apart
      rw [← session] at apart ⊢
      exact apart.trans inserted
    · exact ⟨rfl,rfl,mem_append_right _ mem_cons_self,rfl,rfl⟩

section
variable (runs : Runs cfg scene start f x (.placed token verified bound))
include runs

theorem Runs.write
    (change : AuthState → AuthState) (agrees : ∀ state, Agrees token bound state → Agrees token' bound' (change state)) :
    Runs cfg scene start f ((x.1.accessed x.2).modify x.2 change,x.2) (.placed token' verified bound') := by
  obtain ⟨same,place,entry,refers,facts⟩ := runs.holds
  have accessed : Refers (x.1.accessed x.2) x.2 place entry :=
    ⟨refers.held,refers.generation,refers.member,refers.slot,refers.session⟩
  have right := runs.right.accessed refers
  have apart := right.modify_apart accessed change scene.rehash
  rw [runs.session] at apart
  have since : start.Apart f.session scene.rehash (x.1.accessed x.2) :=
    ⟨runs.apart.newer,runs.apart.generation,runs.apart.others⟩
  exact ⟨right.modify accessed change,since.trans apart,runs.session,runs.msgId,same,place,_,
    States.modify_refers accessed change,agrees entry.state facts⟩

theorem Runs.read (performed : perform scene x .readState = some (reply,next)) :
    Agrees token bound reply ∧ Runs cfg scene start f next (.placed token verified bound) := by
  obtain ⟨same,place,entry,refers,facts⟩ := runs.holds
  have there := runs.right.at?_eq refers
  simp only [perform.eq_def,refers.held,Option.bind_some,there,Option.map_some,Option.getD_some] at performed
  cases performed
  refine ⟨facts,runs.right.accessed refers,⟨runs.apart.newer,runs.apart.generation,runs.apart.others⟩,
    runs.session,runs.msgId,same,place,entry,?_,facts⟩
  exact ⟨refers.held,refers.generation,refers.member,refers.slot,refers.session⟩

theorem Runs.route (permitted : cfg.isExempt f.msgId ∨ ∃ claims, (token,claims) ∈ verified ∧ userId = claims.userId)
    (performed : perform scene x (.route userId) = some (reply,next)) :
    Runs cfg scene start f next (.placed token verified bound) := by
  obtain ⟨same,place,entry,refers,facts⟩ := runs.holds
  have found := runs.right.find_eq refers
  cases performed
  refine ⟨⟨⟨runs.right.slots,runs.right.sessions⟩,runs.right.own,?_⟩,
    ⟨runs.apart.newer,runs.apart.generation,runs.apart.others⟩,runs.session,runs.msgId,same,place,entry,
    ⟨refers.held,refers.generation,refers.member,refers.slot,refers.session⟩,facts⟩
  refine forall_mem_append.mpr ⟨runs.right.rightful,fun r member => ?_⟩
  cases mem_singleton.mp member
  rcases permitted with exempt | ⟨claims,checked,acts⟩
  · left
    rwa [runs.msgId]
  · right
    exact ⟨entry.state,claims,by simp [found],by rw [same,facts.1]; exact checked,acts⟩

end

theorem perform_runs (x : States × Frame) (known : Knowledge) (command : Command) (reply : Reply command)
    (next : States × Frame) (runs : Runs cfg scene start f x known)
    (permitted : known.permit (cfg.isExempt f.msgId) command) (performed : perform scene x command = some (reply,next)) :
    ∃ then', known.learn command reply then' ∧ Runs cfg scene start f next then' := by
  cases known with
  | unplaced =>
    cases command with
    | obtainState =>
      obtain ⟨token,placed⟩ := runs.obtain performed
      exact ⟨_,⟨token,rfl⟩,placed⟩
    | _ =>
      first
      | cases performed
        exact ⟨.unplaced,rfl,runs⟩
      | cases permitted
  | placed token verified bound =>
    cases command with
    | obtainState => cases permitted
    | readState =>
      obtain ⟨agrees,after⟩ := runs.read performed
      exact ⟨_,⟨rfl,agrees⟩,after⟩
    | writeToken token =>
      cases performed
      exact ⟨_,rfl,runs.write _ fun state agrees => ⟨rfl,agrees.2⟩⟩
    | writeState claims =>
      cases performed
      exact ⟨_,rfl,runs.write _ fun state agrees => ⟨agrees.1,by rintro _ ⟨⟩; rfl⟩⟩
    | verify token =>
      cases performed
      obtain ⟨same,place,entry,refers,facts⟩ := runs.holds
      refine ⟨_,rfl,runs.right,runs.apart,runs.session,runs.msgId,?_,place,entry,?_,facts⟩
      · simp only [same]
      · exact ⟨refers.held,refers.generation,refers.member,refers.slot,refers.session⟩
    | route userId =>
      have after := runs.route permitted performed
      exact ⟨_,rfl,after⟩
    | _ => cases performed <;> exact ⟨_,rfl,runs⟩

end Perform

/-- A handler that waits: what it knows is so if its reference still names the entry of its session. -/
structure Waiting (cfg : Config) (s : States) (f : Frame) (token : Bytes) (bound : Option JwtClaims)
    (rest : Task Unit) : Prop where
  placed : ∃ place, f.place = some place ∧ place.generation ≤ s.generation
  agrees : ∀ place entry, Refers s f place entry → Agrees token bound entry.state
  knows : Knows (cfg.isExempt f.msgId) (fun _ _ => True) (.placed token f.verified bound) rest
  suspended : ∃ command resume, rest = .await command resume ∧
    ∀ known reply, Knowledge.learn known command reply known

structure Safe (cfg : Config) (s : Core) : Prop where
  right : s.states.Right cfg
  distinct : (s.jobs.map fun job => job.1.session).Nodup
  waiting : ∀ job ∈ s.jobs, ∃ token bound, Waiting cfg s.states job.1 token bound job.2

/-- The reference of a handler that goes on still names the entry of its session. -/
def Kept (s : Core) : Action → Prop
  | .resume job _ _ => ∀ waits, s.jobs[job]? = some waits → s.states.own waits.1 = true
  | _ => True

section Waiting
variable {cfg : Config} {s t start : States} {f g : Frame} {someone : Nat}

theorem own_iff (valid : s.Valid) : s.own f = true ↔ ∃ place entry, Refers s f place entry := by
  constructor
  · intro own
    simp only [States.own,Option.any_eq_true] at own
    obtain ⟨place,held,entry,found,session⟩ := own
    rw [States.at?] at found
    split at found
    · have slot := find?_some found
      exact ⟨place,entry,held,‹_›,mem_of_find?_eq_some found,by simpa using slot,by simpa using session⟩
    · cases found
  · rintro ⟨place,entry,refers⟩
    exact valid.own_eq refers

theorem Refers.before (placed : ∃ place, f.place = some place ∧ place.generation ≤ s.generation)
    (apart : s.Apart someone rehash t) (other : f.session ≠ someone) (refers : Refers t f place entry) :
    Refers s f place entry := by
  obtain ⟨held,same,old⟩ := placed
  cases refers.held.symm.trans same
  refine ⟨refers.held,?_,(apart.others entry ?_).mp refers.member,refers.slot,refers.session⟩
  · have := apart.newer
    have := refers.generation
    omega
  · rwa [refers.session]

theorem Waiting.apart (waiting : Waiting cfg s f token bound rest) (apart : s.Apart someone rehash t)
    (other : f.session ≠ someone) : Waiting cfg t f token bound rest where
  placed := by
    obtain ⟨place,held,old⟩ := waiting.placed
    exact ⟨place,held,old.trans apart.newer⟩
  agrees place entry refers := waiting.agrees place entry (refers.before waiting.placed apart other)
  knows := waiting.knows
  suspended := waiting.suspended

theorem Waiting.erase (waiting : Waiting cfg s f token bound rest) (session : Nat) :
    Waiting cfg (s.erase session) f token bound rest where
  placed := waiting.placed
  agrees place entry refers := waiting.agrees place entry
    ⟨refers.held,refers.generation,mem_of_mem_filter refers.member,refers.slot,refers.session⟩
  knows := waiting.knows
  suspended := waiting.suspended

theorem States.Right.erase (right : s.Right cfg) (session : Nat) : (s.erase session).Right cfg where
  slots := right.slots.sublist (filter_sublist.map _)
  sessions := right.sessions.sublist (filter_sublist.map _)
  own := right.own
  rightful := right.rightful

theorem Runs.waiting (runs : Runs cfg scene start f (s,g) known)
    (knows : Knows (cfg.isExempt f.msgId) (fun _ _ => True) known (.await command resume))
    (stopped : perform scene (s,g) command = none) :
    s.own g = true ∧ ∃ token bound, Waiting cfg s g token bound (.await command resume) := by
  have redis : (∃ jti, command = .isBlacklisted jti) ∨ (∃ userId, command = .checkUser userId) ∨
      ∃ userId msgId, command = .checkEndpoint userId msgId := by
    cases command with
    | isBlacklisted jti => exact .inl ⟨jti,rfl⟩
    | checkUser userId => exact .inr (.inl ⟨userId,rfl⟩)
    | checkEndpoint userId msgId => exact .inr (.inr ⟨userId,msgId,rfl⟩)
    | obtainState =>
      simp only [perform.eq_def] at stopped
      split at stopped <;> cases stopped
    | _ => cases stopped
  cases known with
  | unplaced => rcases redis with ⟨_,rfl⟩ | ⟨_,rfl⟩ | ⟨_,_,rfl⟩ <;> cases knows.1
  | placed token verified bound =>
    obtain ⟨same,place,entry,refers,facts⟩ := runs.holds
    refine ⟨runs.right.own_eq refers,token,bound,⟨place,refers.held,refers.generation.le⟩,?_,?_,command,resume,rfl,?_⟩
    · intro place' entry' refers'
      cases refers.held.symm.trans refers'.held
      rw [runs.right.same_slot refers'.member refers.member (refers'.slot.trans refers.slot.symm)]
      exact facts
    · have msgId : g.msgId = f.msgId := runs.msgId
      have same : g.verified = verified := same
      rw [msgId,same]
      exact knows
    · rcases redis with ⟨_,rfl⟩ | ⟨_,rfl⟩ | ⟨_,_,rfl⟩ <;> exact fun _ _ => rfl

end Waiting

/-- No array is replaced while a request waits, and no session is closed while its own request does. -/
def Undisturbed (s : Core) : Action → Prop
  | .message _ _ _ _ scene => scene.rehash = false ∨ s.jobs = []
  | .resume .. => True
  | .close session => ∀ job ∈ s.jobs, job.1.session ≠ session

def Attached (states : States) (jobs : List (Frame × Task Unit)) : Prop := ∀ job ∈ jobs, states.own job.1 = true

section Drive
variable {cfg : Config} {scene : Scene} {start : States} {f : Frame} {program : Task Unit} {known : Knowledge}
  {jobs : List (Frame × Task Unit)}

variable (knows : Knows (cfg.isExempt f.msgId) (fun _ _ => True) known program) (runs : Runs cfg scene start f (start,f) known)
include knows runs

theorem park_safe (distinct : (jobs.map fun job => job.1.session).Nodup)
    (others : ∀ job ∈ jobs, job.1.session ≠ f.session)
    (waiting : ∀ job ∈ jobs, ∃ token bound, Waiting cfg start job.1 token bound job.2) :
    Safe cfg (park jobs (program.drive (perform scene) (start,f))) := by
  obtain ⟨known,after,rest⟩ := knows.drive (perform scene) (Runs cfg scene start f) perform_runs (start,f) runs
  have still : ∀ job ∈ jobs, ∃ token bound,
      Waiting cfg (program.drive (perform scene) (start,f)).2.1 job.1 token bound job.2 := by
    intro job member
    obtain ⟨token,bound,waits⟩ := waiting job member
    exact ⟨token,bound,waits.apart after.apart (others job member)⟩
  cases ends : program.drive (perform scene) (start,f) with
  | mk stop x =>
    rw [ends] at after rest still
    cases stop with
    | done value => exact ⟨after.right,distinct,still⟩
    | await command resume =>
      have fresh : x.2.session ∉ jobs.map fun job => job.1.session := by
        rw [after.session]
        intro member
        obtain ⟨job,there,same⟩ := mem_map.mp member
        exact others job there same
      refine ⟨after.right,?_,forall_mem_append.mpr ⟨still,?_⟩⟩
      · simp only [park,map_append,map_cons,map_nil]
        exact nodup_append.mpr ⟨distinct,nodup_singleton _,fun a member b single same => by
          cases mem_singleton.mp single
          exact fresh (same ▸ member)⟩
      · intro job single
        cases mem_singleton.mp single
        exact (after.waiting rest (drive_await (perform scene) program (start,f) ends)).2

theorem park_attached (others : ∀ job ∈ jobs, job.1.session ≠ f.session)
    (attached : Attached start jobs) (undisturbed : scene.rehash = false ∨ jobs = []) :
    Attached (park jobs (program.drive (perform scene) (start,f))).states
      (park jobs (program.drive (perform scene) (start,f))).jobs := by
  obtain ⟨known,after,rest⟩ := knows.drive (perform scene) (Runs cfg scene start f) perform_runs (start,f) runs
  have still : Attached (program.drive (perform scene) (start,f)).2.1 jobs := by
    intro job member
    obtain ⟨place,entry,refers⟩ := (own_iff runs.right.toValid).mp (attached job member)
    rcases undisturbed with kept | empty
    · refine (own_iff after.right.toValid).mpr ⟨place,entry,refers.held,?_,?_,refers.slot,refers.session⟩
      · exact refers.generation.trans (after.apart.generation kept).symm
      · exact (after.apart.others entry (by rw [refers.session]; exact others job member)).mpr refers.member
    · rw [empty] at member
      cases member
  cases ends : program.drive (perform scene) (start,f) with
  | mk stop x =>
    rw [ends] at after rest still
    cases stop with
    | done value => exact still
    | await command resume =>
      refine forall_mem_append.mpr ⟨still,fun job single => ?_⟩
      cases mem_singleton.mp single
      exact (after.waiting rest (drive_await (perform scene) program (start,f) ends)).1

end Drive

section Core
variable (cfg : Config) (fb : FlatBuffers)

theorem Waiting.runs (right : s.Right cfg) (waiting : Waiting cfg s f token bound rest) (own : s.own f = true)
    (scene : Scene) : Runs cfg scene s f (s,f) (.placed token f.verified bound) := by
  obtain ⟨place,entry,refers⟩ := (own_iff right.toValid).mp own
  exact ⟨right,.refl _ _ _,rfl,rfl,rfl,place,entry,refers,waiting.agrees place entry refers⟩

theorem others_of_eraseIdx {jobs : List (Frame × Task Unit)} (distinct : (jobs.map fun job => job.1.session).Nodup)
    (there : jobs[i]? = some job) : ∀ other ∈ jobs.eraseIdx i, other.1.session ≠ job.1.session := by
  intro other member same
  obtain ⟨j,different,found⟩ := mem_eraseIdx_iff_getElem?.mp member
  have first : (jobs.map fun job => job.1.session)[j]? = some job.1.session := by simp [found,same]
  have second : (jobs.map fun job => job.1.session)[i]? = some job.1.session := by simp [there]
  exact different (List.getElem?_inj (List.getElem?_eq_some_iff.mp first).1 distinct |>.mp (first.trans second.symm))

inductive Turn (cfg : Config) (s : Core) : Action → Core → Prop
  | close (session : Nat) : Turn cfg s (.close session) { s with states := s.states.erase session }
  | drive (scene : Scene) (f : Frame) (program : Task Unit) (known : Knowledge) (jobs : List (Frame × Task Unit))
      (fewer : jobs.Sublist s.jobs) (others : ∀ job ∈ jobs, job.1.session ≠ f.session)
      (knows : Knows (cfg.isExempt f.msgId) (fun _ _ => True) known program)
      (runs : Runs cfg scene s.states f (s.states,f) known)
      (calm : Undisturbed s action → scene.rehash = false ∨ jobs = []) :
      Turn cfg s action (park jobs (program.drive (perform scene) (s.states,f)))

section
variable (s : Core) (action : Action)

section
variable (next : Core) (safe : Safe cfg s) (kept : Kept s action) (enabled : coreStep cfg fb s action = some next)
include safe kept enabled

theorem coreStep_turn : Turn cfg s action next := by
  cases action with
  | message session msgId payload ip scene =>
    obtain ⟨_,rfl⟩ := of_unless enabled
    rename_i idle
    refine .drive scene _ _ _ s.jobs (List.Sublist.refl _) ?_
      (onDefaultMessage_knows cfg fb msgId payload ip)
      ⟨safe.right,.refl _ _ _,rfl,rfl,rfl⟩ id
    intro job member same
    exact idle (any_eq_true.mpr ⟨job,member,by simpa using same⟩)
  | resume i answer garbage =>
    simp only [coreStep] at enabled
    split at enabled <;> cases enabled
    rename_i f command resume there
    obtain ⟨token,bound,waits⟩ := safe.waiting _ (mem_of_getElem? there)
    obtain ⟨_,_,same,unchanged⟩ := waits.suspended
    cases same
    exact .drive _ f _ _ _ (eraseIdx_sublist _ _) (others_of_eraseIdx safe.distinct there)
      (waits.knows.2 (answer command) _ (unchanged _ _)) (waits.runs cfg safe.right (kept _ there) { answer, garbage })
      fun _ => .inl rfl
  | close session =>
    cases enabled
    exact .close session

theorem coreStep_safe : Safe cfg next := by
  cases coreStep_turn cfg fb s action next safe kept enabled with
  | close session =>
    refine ⟨safe.right.erase session,safe.distinct,fun job member => ?_⟩
    obtain ⟨token,bound,waits⟩ := safe.waiting job member
    exact ⟨token,bound,waits.erase session⟩
  | drive scene f program known jobs fewer others knows runs calm =>
    exact park_safe knows runs (safe.distinct.sublist (fewer.map _)) others
      fun job member => safe.waiting job (fewer.mem member)

end

theorem attached_kept (attached : Attached s.states s.jobs) : Kept s action := by
  cases action with
  | resume i answer garbage => exact fun waits there => attached waits (mem_of_getElem? there)
  | _ => trivial

theorem coreStep_attached (next : Core) (safe : Safe cfg s)
    (attached : Attached s.states s.jobs) (undisturbed : Undisturbed s action)
    (enabled : coreStep cfg fb s action = some next) : Attached next.states next.jobs := by
  cases coreStep_turn cfg fb s action next safe (attached_kept s action attached) enabled with
  | close session =>
    intro job member
    obtain ⟨place,entry,refers⟩ := (own_iff safe.right.toValid).mp (attached job member)
    refine (own_iff (safe.right.erase session).toValid).mpr
      ⟨place,entry,refers.held,refers.generation,?_,refers.slot,refers.session⟩
    refine mem_filter.mpr ⟨refers.member,?_⟩
    rw [refers.session]
    simpa using undisturbed job member
  | drive scene f program known jobs fewer others knows runs calm =>
    exact park_attached knows runs others (fun job member => attached job (fewer.mem member)) (calm undisturbed)

end

theorem empty_safe : Safe cfg {} := ⟨⟨⟨nodup_nil,nodup_nil⟩,nofun,nofun⟩,nodup_nil,nofun⟩

end Core

/-- A request that goes on uses the entry of its own session, and acts for the user whom the token of its session
names, as long as every resumed request still has its entry; and it has, as long as nothing is moved while a request
waits and no session is closed under its own request. -/
theorem own_state_used (cfg : Config) (fb : FlatBuffers) (schedule : List Action)
    (runs : Execution.run (coreStep cfg fb) {} schedule = some final)
    (guarded : Execution.Along (coreStep cfg fb) Kept {} schedule ∨
      Execution.Along (coreStep cfg fb) Undisturbed {} schedule) :
    (∀ access ∈ final.states.accesses, access.own = true) ∧ ∀ r ∈ final.states.routed, r.rightful cfg := by
  rcases guarded with kept | undisturbed
  · have safe := run_guarded (coreStep cfg fb) Kept (Safe cfg)
      (fun s action next safe kept enabled => coreStep_safe cfg fb s action next safe kept enabled)
      (empty_safe cfg) kept runs
    exact ⟨safe.right.own,safe.right.rightful⟩
  · have safe := run_guarded (coreStep cfg fb) Undisturbed (fun s => Safe cfg s ∧ Attached s.states s.jobs)
      (fun s action next before undisturbed enabled =>
        ⟨coreStep_safe cfg fb s action next before.1 (attached_kept s action before.2) enabled,
          coreStep_attached cfg fb s action next before.1 before.2 undisturbed enabled⟩)
      ⟨empty_safe cfg,nofun⟩ undisturbed runs
    exact ⟨safe.1.right.own,safe.1.right.rightful⟩

instance (s : Core) : (action : Action) → Decidable (Undisturbed s action)
  | .message _ _ _ _ scene => inferInstanceAs (Decidable (scene.rehash = false ∨ s.jobs = []))
  | .resume .. => inferInstanceAs (Decidable True)
  | .close session => inferInstanceAs (Decidable (∀ job ∈ s.jobs, job.1.session ≠ session))

def bearer : (command : Command) → Reply command
  | .verify token => .ok ⟨(token.headD 0).toUInt64,token⟩
  | command => obliging command

def tokens : FlatBuffers := ⟨fun _ => true,some⟩

def undisturbedRequest : List Action :=
  [.message 1 authenticateSession [7,0,0,0] [] { answer := bearer },.message 1 2000 [] [] { answer := bearer },
    .message 2 authenticateSession [9,0,0,0] [] { answer := bearer },.resume 0 bearer {},.resume 0 bearer {},
    .resume 0 bearer {}]

theorem own_state_used_beside : ∃ final,
    Execution.run (coreStep guardedGateway tokens) {} undisturbedRequest = some final ∧
    final.states.routed.map Routed.userId = [7] ∧ (∀ access ∈ final.states.accesses, access.own = true) ∧
    ∀ r ∈ final.states.routed, r.rightful guardedGateway := by
  refine exists_final (by decide +kernel) fun runs => ⟨by decide +kernel,?_⟩
  exact own_state_used guardedGateway tokens undisturbedRequest runs (.inr (by decide +kernel))

/-- The session of user 7 is closed while its request waits for the limiter, and user 9 takes the place
of its entry: the request goes on as user 9. -/
def closedRequest : List Action :=
  [.message 1 authenticateSession [7,0,0,0] [] { answer := bearer },.message 1 2000 [] [] { answer := bearer },
    .resume 0 bearer {},.close 1,.message 2 authenticateSession [9,0,0,0] [] { answer := bearer },
    .resume 0 bearer {},.resume 0 bearer {}]

theorem closed_request_takes_entry : ∃ final,
    Execution.run (coreStep guardedGateway tokens) {} closedRequest = some final ∧
    (⟨1,false⟩ : Access) ∈ final.states.accesses ∧
    final.states.routed = [⟨1,2000,9,none,[([7,0,0,0],⟨7,[7,0,0,0]⟩)]⟩] := by
  decide +kernel

end ApexPipeline.GatewayPipeline
