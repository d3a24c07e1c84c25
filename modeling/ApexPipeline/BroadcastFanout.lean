import ApexPipeline.ChannelSessionMap
import ApexPipeline.Session

/-! `broadcast_fanout.cpp` with the channel maps and the sessions of every core. A published message is framed on the
listener's thread and posted to every core, which looks up its own subscribers when the posted step runs. -/
namespace ApexPipeline.BroadcastFanout
open Execution ChannelSessionMap

def pubsubMsgIdSize : Nat := 4

def wireFrame (msgId : UInt32) (payload : List UInt8) : List UInt8 :=
  let wh : WireHeader := { msgId, bodySize := .ofNat payload.length, flags := 0 }
  wh.serialize ++ payload

/-- A message that is too short for its id has no frame. -/
def buildWireFrame (message : List UInt8) : List UInt8 :=
  if message.length ≥ pubsubMsgIdSize then
    wireFrame (.ofNat (ByteOrder.ofBigEndian (message.take pubsubMsgIdSize))) (message.drop pubsubMsgIdSize)
  else if message ≠ [] then []
  else wireFrame 0 []

def isGlobal (channel : Bytes) : Bool := (ascii "pub:global:").isPrefixOf channel

/-- What is posted to a core. `maps` says whether the channel maps were bound when it was posted. -/
inductive Post where
  | everyone (frame : List UInt8)
  | subscribers (maps : Bool) (channel : Bytes) (frame : List UInt8)
  deriving DecidableEq, Repr

structure Core where
  channels : ChannelSessionMap
  sessions : AList fun _ : Nat => Session := ∅
  nextId : Nat := 1
  posted : List Post := []

structure Gateway where
  channelMaps : Bool := false
  cores : Nat → Core

/-- A frame for one session, if it is there and open; a refusal is ignored. -/
def send (frame : List UInt8) (core : Core) (id : Nat) : Core :=
  match core.sessions.lookup id with
  | none => core
  | some session =>
    if !session.isOpen then core
    else { core with sessions := core.sessions.insert id (session.after (session.enqueueWriteRaw frame)) }

def Core.runPost (core : Core) : Post → Core
  | .everyone frame => core.sessions.keys.foldl (send frame) core
  | .subscribers maps channel frame =>
    if !maps then core
    else
      match core.channels.getSubscribers channel with
      | none => core
      | some subs => if subs = [] then core else subs.foldl (send frame) core

def Core.post (core : Core) (post : Post) : Core := { core with posted := core.posted ++ [post] }

def fanout (numCores : Nat) (s : Gateway) (channel : Bytes) (message : List UInt8) : Gateway :=
  let frame := buildWireFrame message
  if frame = [] then s
  else
    let post : Post := if isGlobal channel then .everyone frame else .subscribers s.channelMaps channel frame
    { s with cores := fun core => if core < numCores then (s.cores core).post post else s.cores core }

/-- What happens on the cores and at the listener. A session does what the model of sessions says. -/
inductive Action where
  | setChannelMaps
  | publish (channel : Bytes) (message : List UInt8)
  | runPosted (core : Nat)
  | channel (core : Nat) (operation : ChannelSessionMap.Operation)
  | accept (core maxQueueDepth : Nat)
  | session (core id : Nat) (action : Session.Action)
  | removeSession (core id : Nat)

def Gateway.update (s : Gateway) (core : Nat) (next : Core) : Gateway :=
  { s with cores := Function.update s.cores core next }

def step (numCores : Nat) (s : Gateway) : Action → Option Gateway
  | .setChannelMaps => some { s with channelMaps := true }
  | .publish channel message => some (fanout numCores s channel message)
  | .runPosted core =>
    match (s.cores core).posted with
    | [] => none
    | post :: rest => some (s.update core ({ s.cores core with posted := rest }.runPost post))
  | .channel core operation => some (s.update core
      { s.cores core with channels := (s.cores core).channels.apply operation })
  | .accept core maxQueueDepth => some (s.update core { s.cores core with
      nextId := (s.cores core).nextId + 1
      sessions := (s.cores core).sessions.insert (s.cores core).nextId (.create maxQueueDepth) })
  | .session core id action =>
    match (s.cores core).sessions.lookup id with
    | none => none
    | some session => (session.step action).map fun next =>
        s.update core { s.cores core with sessions := (s.cores core).sessions.insert id next }
  | .removeSession core id => some (s.update core
      { s.cores core with sessions := (s.cores core).sessions.erase id })

def initial (limit : UInt32) : Gateway := { cores := fun _ => { channels := .create limit } }

/-- Who is to get the frame: an open session that has subscribed, or any open one. -/
def Post.addresses (channels : ChannelSessionMap) (id : Nat) (session : Session) : Post → Prop
  | .everyone _ => session.isOpen
  | .subscribers maps channel _ => maps ∧ session.isOpen ∧ (channel,id) ∈ channels.subscriptions

def Post.frame : Post → List UInt8
  | .everyone frame | .subscribers _ _ frame => frame

section Send
variable (frame : List UInt8) (core : Core)

theorem send_lookup (target id : Nat) :
    (send frame core target).sessions.lookup id = (core.sessions.lookup id).map fun session =>
      if id = target ∧ session.isOpen then session.after (session.enqueueWriteRaw frame) else session := by
  rw [send]
  split
  · rename_i missing
    by_cases same : id = target
    · subst same
      simp [missing]
    · simp [same]
  · rename_i session found
    by_cases same : id = target
    · subst same
      cases isOpen : session.isOpen <;> simp [found,isOpen]
    · split <;> simp [same]

theorem foldl_send_lookup (ids : List Nat) (distinct : ids.Nodup) (id : Nat) :
    (ids.foldl (send frame) core).sessions.lookup id = (core.sessions.lookup id).map fun session =>
      if id ∈ ids ∧ session.isOpen then session.after (session.enqueueWriteRaw frame) else session := by
  induction ids generalizing core with
  | nil => simp
  | cons target rest ih =>
    obtain ⟨fresh,distinct⟩ := List.nodup_cons.mp distinct
    rw [List.foldl_cons,ih _ distinct,send_lookup,Option.map_map]
    congr 1
    funext session
    by_cases same : id = target
    · subst same
      simp [fresh]
    · simp [same]

end Send

/-- A frame is handed once to the write queue of every session that is addressed, and nothing happens
to any other. -/
structure Handed (post : Post) (core after : Core) : Prop where
  addressed : ∀ id session, core.sessions.lookup id = some session → post.addresses core.channels id session →
    after.sessions.lookup id = some (session.after (session.enqueueWriteRaw post.frame))
  others : ∀ id session, core.sessions.lookup id = some session → ¬ post.addresses core.channels id session →
    after.sessions.lookup id = some session
  absent : ∀ id, core.sessions.lookup id = none → after.sessions.lookup id = none

theorem foldl_send_handed (core : Core) (post : Post) (ids : List Nat) (distinct : ids.Nodup)
    (exact : ∀ id session, core.sessions.lookup id = some session →
      (post.addresses core.channels id session ↔ id ∈ ids ∧ session.isOpen)) :
    Handed post core (ids.foldl (send post.frame) core) := by
  refine ⟨fun id session found addressed => ?_,fun id session found other => ?_,fun id missing => ?_⟩
  all_goals rw [foldl_send_lookup _ _ _ distinct]
  · rw [exact id session found] at addressed
    simp [found,addressed]
  · rw [exact id session found] at other
    simp [found,other]
  · simp [missing]

theorem runPost_handed (core : Core) (consistent : core.channels.Consistent) (post : Post) :
    Handed post core (core.runPost post) := by
  cases post with
  | everyone frame =>
    refine foldl_send_handed core (.everyone frame) _ core.sessions.keys_nodup ?_
    intro id session found
    have member : id ∈ core.sessions.keys := AList.mem_keys.mp (AList.lookup_isSome.mp (by simp [found]))
    simp [Post.addresses,member]
  | subscribers maps channel frame =>
    have distinct := consistent.channels.nodup channel
    have fold : core.runPost (.subscribers maps channel frame) =
        (if maps then core.channels.channelToSessions.values channel else []).foldl (send frame) core := by
      rw [Core.runPost,getSubscribers,Multimap.values]
      cases maps with
      | false => rfl
      | true =>
        cases core.channels.channelToSessions.lookup channel with
        | none => rfl
        | some subs => cases subs <;> rfl
    rw [fold]
    refine foldl_send_handed core (.subscribers maps channel frame) _ (by split <;> simp [distinct]) ?_
    intro id session found
    cases maps with
    | false => simp [Post.addresses]
    | true =>
      simp only [Post.addresses,subscriptions,Multimap.relation,Set.mem_ofPred_eq,if_true]
      tauto

theorem foldl_send_frame (frame : List UInt8) (ids : List Nat) (core : Core) :
    (ids.foldl (send frame) core).channels = core.channels ∧ (ids.foldl (send frame) core).posted = core.posted := by
  induction ids generalizing core with
  | nil => exact ⟨rfl,rfl⟩
  | cons target rest ih =>
    have one : (send frame core target).channels = core.channels ∧ (send frame core target).posted = core.posted := by
      rw [send]
      split
      · exact ⟨rfl,rfl⟩
      · split <;> exact ⟨rfl,rfl⟩
    rw [List.foldl_cons,(ih _).1,(ih _).2]
    exact one

theorem runPost_frame (core : Core) (post : Post) :
    (core.runPost post).channels = core.channels ∧ (core.runPost post).posted = core.posted := by
  cases post with
  | everyone frame => exact foldl_send_frame frame _ core
  | subscribers maps channel frame =>
    rw [Core.runPost]
    split
    · exact ⟨rfl,rfl⟩
    split
    · exact ⟨rfl,rfl⟩
    · split
      · exact ⟨rfl,rfl⟩
      · exact foldl_send_frame frame _ core

theorem update_channels (s : Gateway) (target : Nat) (next : Core) (core : Nat) :
    ((s.update target next).cores core).channels = if core = target then next.channels else (s.cores core).channels := by
  simp only [Gateway.update,Function.update_apply]
  split <;> rfl

theorem step_channels (core : Nat) (enabled : step numCores s action = some next) :
    (next.cores core).channels = (s.cores core).channels ∨
      ∃ operation, (next.cores core).channels = (s.cores core).channels.apply operation := by
  -- only an operation changes the map of its core
  have kept : ∀ target (core' : Core), core'.channels = (s.cores target).channels →
      ((s.update target core').cores core).channels = (s.cores core).channels := by
    intro target core' same
    rw [update_channels,same]
    split
    · subst core
      rfl
    · rfl
  cases action with
  | setChannelMaps =>
    cases enabled
    exact .inl rfl
  | publish channel message =>
    cases enabled
    left
    rw [fanout]
    simp only
    split
    · rfl
    · simp only
      split <;> rfl
  | runPosted target =>
    simp only [step] at enabled
    split at enabled <;> cases enabled
    exact .inl (kept target _ (runPost_frame _ _).1)
  | channel target operation =>
    cases enabled
    rw [update_channels]
    split
    · subst core
      exact .inr ⟨operation,rfl⟩
    · exact .inl rfl
  | accept target maxQueueDepth | removeSession target id =>
    cases enabled
    exact .inl (kept target _ rfl)
  | session target id action =>
    simp only [step] at enabled
    split at enabled
    · cases enabled
    obtain ⟨session,-,rfl⟩ := Option.map_eq_some_iff.mp enabled
    exact .inl (kept target _ rfl)

theorem run_channels (runs : run (step numCores) (initial limit) schedule = some s) (core : Nat) :
    (s.cores core).channels.Consistent ∧ (s.cores core).channels.maxSubscriptionsPerSession = limit := by
  refine run_invariant (fun s => (s.cores core).channels.Consistent ∧
    (s.cores core).channels.maxSubscriptionsPerSession = limit) ?_
    ⟨create_consistent limit,rfl⟩ runs
  intro s action next before enabled
  rcases step_channels core enabled with same | ⟨operation,applied⟩
  · rwa [same]
  · rw [applied,apply_limit]
    exact ⟨before.1.apply operation,before.2⟩

theorem buildWireFrame_ne_nil (sized : message.length = 0 ∨ 4 ≤ message.length) : buildWireFrame message ≠ [] := by
  have framed : ∀ msgId payload, wireFrame msgId payload ≠ [] := by
    intro msgId payload empty
    have := congrArg List.length empty
    simp [wireFrame,WireHeader.serialize_length] at this
  rw [buildWireFrame]
  split
  · exact framed _ _
  rename_i short
  rcases sized with empty | long
  · rw [if_neg (by simpa using empty)]
    exact framed _ _
  · exact absurd long short

theorem channels_exact (numCores : Nat) (limit : UInt32) (schedule : List Action)
    (runs : run (step numCores) (initial limit) schedule = some s) (core : Nat) (there : core < numCores) :
    (s.cores core).channels.Exact limit ∧
    (∀ channel message, s.channelMaps = true → message.length = 0 ∨ 4 ≤ message.length →
      (fanout numCores s channel message).cores core = (s.cores core).post
        (if isGlobal channel then .everyone (buildWireFrame message)
          else .subscribers true channel (buildWireFrame message))) ∧
    ∀ post rest, (s.cores core).posted = post :: rest →
      ∃ next, step numCores s (.runPosted core) = some next ∧ Handed post (s.cores core) (next.cores core) ∧
        (next.cores core).posted = rest := by
  obtain ⟨consistent,limited⟩ := run_channels runs core
  refine ⟨limited ▸ consistent.exact,fun channel message bound sized => ?_,fun post rest posted => ?_⟩
  · rw [fanout,if_neg (buildWireFrame_ne_nil sized)]
    simp only [if_pos there,bound]
  · refine ⟨s.update core ({ s.cores core with posted := rest }.runPost post),?_,?_,?_⟩
    · simp only [step,posted]
    · have handed := runPost_handed { s.cores core with posted := rest } consistent post
      simp only [Gateway.update,Function.update_self]
      exact ⟨handed.addressed,handed.others,handed.absent⟩
    · simp [Gateway.update,runPost_frame]

def oneSubscriber : List Action :=
  [.setChannelMaps,.accept 0 8,.accept 0 8,.channel 0 (.subscribe [97] 1),.channel 0 (.subscribe [98] 1),
    .publish [97] [0,0,0,5,1]]

theorem channels_exact_one : ∃ s, run (step 2) (initial 1) oneSubscriber = some s ∧
    (s.cores 0).channels.Exact 1 ∧ (s.cores 0).channels.totalSubscriptions = 1 ∧
    ∃ next, step 2 s (.runPosted 0) = some next ∧
      Handed (.subscribers true [97] (buildWireFrame [0,0,0,5,1])) (s.cores 0) (next.cores 0) := by
  obtain ⟨s,runs,posted,total⟩ : ∃ s, run (step 2) (initial 1) oneSubscriber = some s ∧
      (s.cores 0).posted = [.subscribers true [97] (buildWireFrame [0,0,0,5,1])] ∧
      (s.cores 0).channels.totalSubscriptions = 1 := by
    decide +kernel
  obtain ⟨exact,-,handed⟩ := channels_exact 2 1 oneSubscriber runs 0 (by decide)
  obtain ⟨next,enabled,frames,-⟩ := handed _ _ posted
  exact ⟨s,runs,exact,total,next,enabled,frames⟩

end ApexPipeline.BroadcastFanout
