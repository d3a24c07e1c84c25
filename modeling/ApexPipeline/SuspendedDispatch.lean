import ApexPipeline.FrameCodec
import ApexPipeline.RingBufferRefinement
import ApexPipeline.SessionManager

/-! One core's sessions while their handlers are suspended. `process_frames` keeps the frame it decoded over the
awaited dispatch; meanwhile the thread runs the other sessions and `SessionManager::tick`, which shrinks the receive
buffers. -/
namespace ApexPipeline.SuspendedDispatch
open MathUtils RingBuffer FrameCodec Execution Option

/-- Where a `read_loop` is suspended. `payload` is what the frame showed when it was
decoded; the program itself keeps the span only. -/
inductive Stage where
  | reading
  | dispatching (frame : Frame) (payload : List UInt8)
  | ended
  deriving DecidableEq, Repr

/-- `registered` says that the session is still in `sessions_`. -/
structure Receiver where
  id : SessionId
  ring : RingBuffer
  isOpen : Bool
  registered : Bool
  stage : Stage

structure Core where
  nextId : SessionId
  receivers : List Receiver
  shrinkTickCounter : Nat

/-- The end of `read_loop`, which removes the session. -/
def Receiver.leave (r : Receiver) : Receiver := { r with registered := false, stage := .ended }

def Receiver.loopHead (r : Receiver) : Receiver :=
  if r.isOpen then
    if r.ring.writable.empty then { r with isOpen := false }.leave
    else { r with stage := .reading }
  else r.leave

/-- One round of `process_frames` up to its `co_await`, or out of it and back to the
head of the loop that reads. `none` is undefined behaviour in `try_decode`. -/
def Receiver.decode (alloc : Allocator) (r : Receiver) : Option Receiver :=
  match tryDecode alloc r.ring with
  | none => none
  | some (.error .insufficientData,ring) => some { r with ring := ring }.loopHead
  | some (.error _,ring) => some { r with ring := ring, isOpen := false }.loopHead
  | some (.ok frame,ring) =>
    (ring.bytes frame.payloadData).map fun payload =>
      { r with ring := ring, stage := .dispatching frame payload }

def Receiver.receive (alloc : Allocator) (bytes : List UInt8) (r : Receiver) : Option Receiver :=
  if r.stage = .reading ∧ bytes ≠ [] ∧ bytes.length ≤ r.ring.writable.size then
    { r with ring := (r.ring.fill r.ring.writable bytes).commitWrite bytes.length }.decode alloc
  else none

def Receiver.fail (r : Receiver) : Option Receiver :=
  if r.stage = .reading then some r.leave else none

/-- The awaited dispatch returns: the frame is consumed and the loop goes on. -/
def Receiver.resume (alloc : Allocator) (r : Receiver) : Option Receiver :=
  match r.stage with
  | .dispatching frame _ =>
    let r := { r with ring := consumeFrame r.ring frame }
    if r.isOpen then r.decode alloc else some r.loopHead
  | _ => none

/-- An exception of the dispatch ends `read_loop`; the frame is not consumed. -/
def Receiver.throw (r : Receiver) : Option Receiver :=
  match r.stage with
  | .dispatching _ _ => some r.leave
  | _ => none

/-- `recv_buffer().shrink_to_fit()` for a session of `sessions_`. -/
def Receiver.shrink (alloc : SessionId → Allocator) (r : Receiver) : Option Receiver :=
  if r.registered then
    (shrinkToFit (alloc r.id) r.ring).map fun ring => { r with ring := ring }
  else some r

/-- What a timer that expires does: the session is closed and forgotten. -/
def Receiver.expire (expired : List SessionId) (r : Receiver) : Receiver :=
  if r.id ∈ expired then { r with isOpen := false, registered := false } else r

inductive Action where
  | accept (ring : RingBuffer)
  | receive (id : SessionId) (alloc : Allocator) (bytes : List UInt8)
  | fail (id : SessionId)
  | resume (id : SessionId) (alloc : Allocator)
  | throw (id : SessionId)
  | close (id : SessionId)
  | tick (expired : List SessionId) (alloc : SessionId → Allocator)

/-- What an action does to the sessions there are. `tick` meets the heap anew for each
session, and shrinks only when its counter has come round. -/
def Receiver.act (counter : Nat) (r : Receiver) : Action → Option Receiver
  | .accept _ => some r
  | .receive id alloc bytes => if r.id = id then r.receive alloc bytes else some r
  | .fail id => if r.id = id then r.fail else some r
  | .resume id alloc => if r.id = id then r.resume alloc else some r
  | .throw id => if r.id = id then r.throw else some r
  | .close id => some (if r.id = id then { r with isOpen := false } else r)
  | .tick expired alloc =>
    if counter + 1 ≥ SessionManager.kShrinkIntervalTicks then (r.expire expired).shrink alloc
    else some (r.expire expired)

def Core.accept (c : Core) (ring : RingBuffer) : Core :=
  ⟨c.nextId + 1,c.receivers ++ [⟨c.nextId,ring,true,true,.reading⟩],c.shrinkTickCounter⟩

def counted (counter : Nat) : Action → Nat
  | .tick _ _ => if counter + 1 ≥ SessionManager.kShrinkIntervalTicks then 0 else counter + 1
  | _ => counter

/-- A session is accepted with a new receive buffer; every other action is one of the
sessions there are. -/
def step (c : Core) (action : Action) : Option Core :=
  match action with
  | .accept ring =>
    if ring.readableSize = 0 ∧ ring.linear.isNone then some (c.accept ring) else none
  | _ =>
    (c.receivers.mapM fun r => Receiver.act c.shrinkTickCounter r action).map fun receivers =>
      ⟨c.nextId,receivers,counted c.shrinkTickCounter action⟩

def start : Core := ⟨1,[],0⟩

/-- While a dispatch is suspended, the payload it was given can be read as it was: what
the span points into has been neither freed nor reallocated. -/
def Receiver.Valid (r : Receiver) : Prop :=
  match r.stage with
  | .dispatching frame payload => r.ring.bytes frame.payloadData = some payload
  | _ => True

instance (r : Receiver) : Decidable r.Valid := by
  unfold Receiver.Valid
  split <;> infer_instance

def inScratch : Pointer → Bool
  | .linear _ _ => true
  | _ => false

/-- `shrink_to_fit` would move the scratch buffer under a suspended dispatch: the frame
lies there, and the buffer is at least four times what is still unread. -/
def Receiver.Exposed (alloc : SessionId → Allocator) (r : Receiver) : Prop :=
  match r.stage with
  | .dispatching frame _ => inScratch frame.payloadData.data = true ∧
      mulSize r.ring.readableSize 4 ≤ r.ring.linearBufSize ∧
      (alloc r.id).grants (mulSize r.ring.readableSize 2) = true
  | _ => False

instance (alloc : SessionId → Allocator) (r : Receiver) : Decidable (r.Exposed alloc) := by
  unfold Receiver.Exposed
  split <;> infer_instance

/-- No tick that shrinks finds an exposed frame of a session that it shrinks. -/
def Sheltered (c : Core) : Action → Prop
  | .tick expired alloc => c.shrinkTickCounter + 1 ≥ SessionManager.kShrinkIntervalTicks →
      ∀ r ∈ c.receivers, r.registered = true → r.id ∉ expired → ¬r.Exposed alloc
  | _ => True

instance (c : Core) (action : Action) : Decidable (Sheltered c action) := by
  cases action <;> unfold Sheltered <;> infer_instance

theorem linearize_cursor (alloc : Allocator) (rb : RingBuffer) (n : Nat) :
    (linearize alloc rb n).2.cursor = rb.cursor := by
  rcases linearize_served alloc rb n with same | ⟨_,same⟩
  · rw [same]
    by_cases short : rb.readableSize < n
    · simp only [linearize,if_pos short]
    · obtain ⟨_,_,done,_,_,_,cursor⟩ :=
        linearize_spec ⟨fun _ => true⟩ rb n (Nat.not_lt.mp short) rfl
      rw [done,cursor]
  · rw [same]

theorem tryDecode_unread (decoded : tryDecode alloc rb = some (.ok frame,next)) : 0 < next.readableSize := by
  unfold tryDecode at decoded
  split at decoded
  · cases decoded
  rename_i long
  have kept : ∀ rb n, (linearize alloc rb n).2.readableSize = rb.readableSize := by
    intro rb n
    unfold RingBuffer.readableSize
    rw [linearize_cursor]
  have first := kept rb WireHeader.size
  simp only at decoded
  split at decoded
  · cases decoded
  split at decoded
  · cases decoded
  · rename_i header _
    have second := kept (linearize alloc rb WireHeader.size).2 header.frameSize
    split at decoded
    · cases decoded
    split at decoded <;> cases decoded
    rw [second,first]
    simp only [WireHeader.size] at long
    omega

def Receiver.Sound (r : Receiver) : Prop :=
  r.Valid ∧ ∀ frame payload, r.stage = .dispatching frame payload → 0 < r.ring.readableSize

theorem sound_idle (r : Receiver) (idle : ∀ frame payload, r.stage ≠ .dispatching frame payload) : r.Sound := by
  refine ⟨?_,fun frame payload stage => absurd stage (idle frame payload)⟩
  unfold Receiver.Valid
  split
  · rename_i stage
    exact absurd stage (idle _ _)
  · trivial

theorem sound_leave (r : Receiver) : r.leave.Sound :=
  sound_idle _ fun _ _ => nofun

theorem sound_loopHead (r : Receiver) : r.loopHead.Sound := by
  unfold Receiver.loopHead
  split
  · split
    · exact sound_leave _
    · exact sound_idle _ fun _ _ => nofun
  · exact sound_leave _

theorem sound_decode {r next : Receiver} (decoded : r.decode alloc = some next) : next.Sound := by
  unfold Receiver.decode at decoded
  split at decoded
  · cases decoded
  · cases decoded
    exact sound_loopHead _
  · cases decoded
    exact sound_loopHead _
  rename_i frame ring found
  obtain ⟨payload,shown,rfl⟩ := map_eq_some_iff.mp decoded
  refine ⟨shown,?_⟩
  intro _ _ _
  exact tryDecode_unread found

theorem shrinkToFit_bytes (unread : 0 < rb.readableSize) (done : shrinkToFit alloc rb = some next)
    (sheltered : ¬(inScratch span.data = true ∧ mulSize rb.readableSize 4 ≤ rb.linearBufSize ∧
      alloc.grants (mulSize rb.readableSize 2) = true)) :
    next.bytes span = rb.bytes span ∧ next.readableSize = rb.readableSize := by
  unfold shrinkToFit at done
  split at done
  · cases done
    exact ⟨rfl,rfl⟩
  rename_i scratch found
  have size : rb.linearBufSize = scratch.size := by simp [linearBufSize,found]
  simp only [if_neg (Nat.pos_iff_ne_zero.mp unread)] at done
  split at done
  · rename_i large
    split at done
    · cases done
    split at done
    · rename_i granted
      cases done
      refine ⟨?_,rfl⟩
      -- the scratch buffer moves, so the span lies in the ring
      rw [size] at sheltered
      rcases span with ⟨_ | offset | ⟨allocation,offset⟩,n⟩
      · rfl
      · rfl
      · exact absurd ⟨rfl,large,granted⟩ sheltered
    · cases done
      exact ⟨rfl,rfl⟩
  · cases done
    exact ⟨rfl,rfl⟩

theorem shrinkToFit_strands (unread : 0 < rb.readableSize) (shown : rb.bytes span = some payload)
    (done : shrinkToFit alloc rb = some next) (scratch : inScratch span.data = true)
    (large : mulSize rb.readableSize 4 ≤ rb.linearBufSize)
    (granted : alloc.grants (mulSize rb.readableSize 2) = true) : next.bytes span = none := by
  rcases span with ⟨_ | offset | ⟨allocation,offset⟩,n⟩
  · cases scratch
  · cases scratch
  unfold shrinkToFit at done
  simp only [bytes,load] at shown ⊢
  split at done
  · rename_i freed
    rw [freed] at shown
    contradiction
  rename_i scratch found
  simp only [linearBufSize,found,map_some,getD_some] at large
  simp only [if_neg (Nat.pos_iff_ne_zero.mp unread),if_pos large,granted,if_true] at done
  rw [found] at shown
  simp only at shown
  obtain ⟨-,rfl⟩ := of_unless done
  -- the pointer names the allocation that was current before the call
  split at shown
  · rename_i current
    have stale : ¬(allocation = rb.allocations + 1 ∧ offset + n ≤ mulSize rb.readableSize 2) := by omega
    simp only [if_neg stale]
  · contradiction

theorem sound_shrink {r next : Receiver} (sound : r.Sound)
    (sheltered : r.registered = true → ¬r.Exposed alloc) (done : r.shrink alloc = some next) :
    next.Sound := by
  unfold Receiver.shrink at done
  split at done
  · rename_i registered
    obtain ⟨ring,shrunk,rfl⟩ := map_eq_some_iff.mp done
    have safe := sheltered registered
    obtain ⟨valid,unread⟩ := sound
    unfold Receiver.Exposed at safe
    unfold Receiver.Valid at valid
    cases stage : r.stage with
    | reading | ended => exact sound_idle _ fun _ _ => nofun
    | dispatching frame payload =>
      rw [stage] at safe valid
      obtain ⟨same,size⟩ := shrinkToFit_bytes (unread _ _ stage) shrunk safe
      exact ⟨same.trans valid,fun _ _ _ => size ▸ unread _ _ stage⟩
  · cases done
    exact sound

theorem shrink_strands {r next : Receiver} (sound : r.Sound)
    (registered : r.registered = true) (exposed : r.Exposed alloc)
    (done : r.shrink alloc = some next) : ¬next.Valid := by
  unfold Receiver.shrink at done
  rw [if_pos registered] at done
  obtain ⟨ring,shrunk,rfl⟩ := map_eq_some_iff.mp done
  obtain ⟨valid,unread⟩ := sound
  unfold Receiver.Exposed at exposed
  unfold Receiver.Valid at valid ⊢
  split at exposed
  · rename_i frame payload stage
    obtain ⟨scratch,large,granted⟩ := exposed
    simp only [stage] at valid ⊢
    rw [shrinkToFit_strands (unread _ _ stage) valid shrunk scratch large granted]
    nofun
  · contradiction

theorem sound_expire (expired : List SessionId) {r : Receiver} (sound : r.Sound) : (r.expire expired).Sound := by
  unfold Receiver.expire
  split
  · exact sound
  · exact sound

theorem sound_act {counter : Nat} {r next : Receiver} (sound : r.Sound)
    (sheltered : ∀ expired alloc, action = .tick expired alloc →
      counter + 1 ≥ SessionManager.kShrinkIntervalTicks → r.registered = true →
      r.id ∉ expired → ¬r.Exposed alloc)
    (acted : r.act counter action = some next) : next.Sound := by
  cases action with
  | accept ring => cases acted; exact sound
  | receive id alloc bytes =>
    simp only [Receiver.act,Receiver.receive] at acted
    split at acted
    · split at acted
      · exact sound_decode acted
      · cases acted
    · cases acted; exact sound
  | fail id =>
    simp only [Receiver.act,Receiver.fail] at acted
    split at acted
    · split at acted
      · cases acted; exact sound_leave r
      · cases acted
    · cases acted; exact sound
  | resume id alloc =>
    simp only [Receiver.act,Receiver.resume] at acted
    split at acted
    · split at acted
      · split at acted
        · exact sound_decode acted
        · cases acted; exact sound_loopHead _
      · cases acted
    · cases acted; exact sound
  | throw id =>
    simp only [Receiver.act,Receiver.throw] at acted
    split at acted
    · split at acted
      · cases acted; exact sound_leave r
      · cases acted
    · cases acted; exact sound
  | close id =>
    simp only [Receiver.act] at acted
    cases acted
    split
    · exact sound
    · exact sound
  | tick expired alloc =>
    simp only [Receiver.act] at acted
    split at acted
    · rename_i due
      refine sound_shrink (sound_expire expired sound) ?_ acted
      unfold Receiver.expire
      split
      · nofun
      · rename_i waits
        intro registered
        exact sheltered expired alloc rfl due registered waits
    · cases acted
      exact sound_expire expired sound

theorem step_acts (c next : Core) (action : Action) (other : ∀ ring, action ≠ .accept ring)
    (stepped : step c action = some next) :
    List.Forall₂ (fun r s => Receiver.act c.shrinkTickCounter r action = some s) c.receivers next.receivers := by
  unfold step at stepped
  split at stepped
  · exact absurd rfl (other _)
  · obtain ⟨receivers,mapped,rfl⟩ := map_eq_some_iff.mp stepped
    exact mapM_related _ _ _ mapped

def Sound (c : Core) : Prop := ∀ r ∈ c.receivers, r.Sound

theorem sound_step (c : Core) (action : Action) (next : Core) (sound : Sound c)
    (sheltered : Sheltered c action) (stepped : step c action = some next) : Sound next := by
  by_cases accepts : ∃ ring, action = .accept ring
  · obtain ⟨ring,rfl⟩ := accepts
    obtain ⟨_,rfl⟩ := of_guard stepped
    exact forall_concat sound (sound_idle _ fun _ _ => nofun)
  intro s member
  have acts := step_acts c next action (fun ring same => accepts ⟨ring,same⟩) stepped
  obtain ⟨r,earlier,acted⟩ := related_mem_right acts member
  refine sound_act (sound r earlier) ?_ acted
  intro expired alloc same due
  subst same
  exact sheltered due r earlier

theorem tick_strands (sound : Sound c) (unsheltered : ¬Sheltered c action) (stepped : step c action = some next) :
    ∃ r ∈ next.receivers, ¬r.Valid := by
  cases action with
  | tick expired alloc =>
    simp only [Sheltered,Classical.not_imp,not_forall,not_not] at unsheltered
    obtain ⟨due,r,member,registered,waits,exposed⟩ := unsheltered
    have acts := step_acts c next (.tick expired alloc) (fun _ => nofun) stepped
    obtain ⟨s,later,acted⟩ := related_mem_right acts.flip member
    refine ⟨s,later,?_⟩
    simp only [Receiver.act,if_pos due,Receiver.expire,if_neg waits] at acted
    exact shrink_strands (sound r member) registered exposed acted
  | accept | receive | fail | resume | throw | close => exact absurd trivial unsheltered

/-- As long as no shrinking tick has met an exposed frame, every suspended dispatch can
read its payload; and the next step keeps that exactly when it is no such tick. -/
theorem payload_valid_iff_sheltered (schedule : List Action) (c next : Core) (action : Action)
    (sheltered : Along step Sheltered start schedule)
    (runs : run step start schedule = some c) (stepped : step c action = some next) :
    (∀ r ∈ c.receivers, r.Valid) ∧ ((∀ r ∈ next.receivers, r.Valid) ↔ Sheltered c action) := by
  have initial : Sound start := fun r member => absurd member List.not_mem_nil
  have sound : Sound c := run_guarded step Sheltered Sound sound_step initial sheltered runs
  refine ⟨fun r member => (sound r member).1,?_,?_⟩
  · intro valid
    by_contra unsheltered
    obtain ⟨r,member,stale⟩ := tick_strands sound unsheltered stepped
    exact stale (valid r member)
  · intro here r member
    exact (sound_step c action next sound here stepped r member).1

def sixtyFour : RingBuffer :=
  (create ⟨fun _ => true⟩ 64 (by decide) fun _ => 0).toOption.get (by decide)

def granting : Allocator := ⟨fun _ => true⟩

def message (size : Nat) : List UInt8 :=
  ({ msgId := 7, bodySize := size.toUInt32 } : WireHeader).serialize ++ List.replicate size 9

/-- The second message wraps and grows the scratch buffer to 53 bytes. The third one
wraps too, with 13 bytes, and is still being handled when the tick comes. -/
def shrinking : List Action :=
  List.replicate 599 (.tick [] fun _ => granting) ++
  [.accept sixtyFour,.receive 1 granting (message 51),.resume 1 granting,
    .receive 1 granting ((message 41).take 1),.receive 1 granting ((message 41).drop 1),
    .resume 1 granting,.receive 1 granting ((message 1).take 12),
    .receive 1 granting ((message 1).drop 12)]

theorem payload_lost : ∃ c next, run step start shrinking = some c ∧
    step c (.tick [] fun _ => granting) = some next ∧ ∃ r ∈ next.receivers, ¬r.Valid := by
  obtain ⟨c,runs,next,ticked,stale⟩ : ∃ c, run step start shrinking = some c ∧
      ∃ next, step c (.tick [] fun _ => granting) = some next ∧ ∃ r ∈ next.receivers, ¬r.Valid := by
    decide +kernel
  exact ⟨c,next,runs,ticked,stale⟩

def sheltering : List Action :=
  List.replicate 599 (.tick [] fun _ => granting) ++
  [.accept sixtyFour,.receive 1 granting (message 51),.resume 1 granting,
    .receive 1 granting ((message 41).take 1),.receive 1 granting ((message 41).drop 1)]

theorem payload_valid_iff_sheltered_once : ∃ c next,
    run step start sheltering = some c ∧ Along step Sheltered start sheltering ∧
    step c (.tick [] fun _ => granting) = some next ∧
    (∃ r ∈ c.receivers, r.stage ≠ .reading ∧ 0 < r.ring.linearBufSize) ∧
    (∀ r ∈ c.receivers, r.Valid) ∧
    ((∀ r ∈ next.receivers, r.Valid) ↔ Sheltered c (.tick [] fun _ => granting)) := by
  have sheltered : Along step Sheltered start sheltering := by decide +kernel
  obtain ⟨c,runs,enabled,handling⟩ : ∃ c, run step start sheltering = some c ∧
      (step c (.tick [] fun _ => granting)).isSome ∧
      ∃ r ∈ c.receivers, r.stage ≠ .reading ∧ 0 < r.ring.linearBufSize := by
    decide +kernel
  obtain ⟨next,ticked⟩ := isSome_iff_exists.mp enabled
  exact ⟨c,next,runs,sheltered,ticked,handling,
    payload_valid_iff_sheltered sheltering c next _ sheltered runs ticked⟩

end ApexPipeline.SuspendedDispatch
