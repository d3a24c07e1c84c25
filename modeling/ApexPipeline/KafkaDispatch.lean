import ApexPipeline.KafkaConsumer
import ApexPipeline.KafkaEnvelope

/-! `KafkaAdapter::do_wire_services`: the callback of the consumers copies a request, spawns a coroutine that
dispatches it on core 0, and reports success at once. Each core has a consumer, which polls its partitions one message at
a time and looks at the result of the callback before its core does anything else. The batch limit is left out, so that
any partition may be polled next. -/
namespace ApexPipeline.KafkaDispatch
open Execution KafkaConsumer KafkaEnvelope Function

structure Service where
  hasKafkaHandlers : Bool
  handlers : List UInt32
  deriving DecidableEq, Repr

structure Callback where
  handlers : List UInt32
  requestTopic : String
  deriving DecidableEq, Repr

/-- The first service with Kafka handlers is wired, on the first topic. -/
def doWireServices (services : List Service) (consumeTopics : List String) : Option Callback :=
  (services.find? Service.hasKafkaHandlers).map fun svc => ⟨svc.handlers,consumeTopics.headD ""⟩

/-- Messages of other topics are ignored. -/
def Callback.accepts (cb : Callback) (topic : String) : Bool :=
  cb.requestTopic.isEmpty || topic == cb.requestTopic

/-- `none` is an exception, which `spawn_tracked` logs. -/
abbrev Ending := Option (Except ErrorCode Unit)

/-- How a handler goes on: it ends without waiting for anything, or it waits. -/
abbrev Course := Option Ending

/-- The adapter and its partitions, whose entries are keys and payloads. `owner` is the core whose consumer a partition is
assigned to, and `first` are the offsets that were committed when the run begins. With `inline`, `co_spawn` starts a
coroutine at once if it is called on the coroutine's own core: newer versions of Asio dispatch its start, older ones
post it. `allows` are the ways in which the handler of a message may go on, at each delivery anew. -/
structure World where
  services : List Service
  consumeTopics : List String
  maxBatch : Int
  dlqMaxRetries : Int
  inline : Bool
  owner : TopicPartition → Nat
  allows : Message → Course → Bool
  log : TopicPartition → List (List UInt8 × List UInt8)
  first : TopicPartition → Nat

namespace World

def callback (w : World) : Option Callback := doWireServices w.services w.consumeTopics

def consumer (w : World) : Consumer := ⟨w.maxBatch,w.dlqMaxRetries,w.callback.isSome,true⟩

def requested (w : World) (topic : String) : Bool := w.callback.any (·.accepts topic)

def handlers (w : World) : List UInt32 := (w.callback.map Callback.handlers).getD []

end World

/-- The coroutine of a request: spawned, in its handler, over, or cut off by a stop. -/
inductive Stage where
  | spawned
  | handling (call : Invocation)
  | ended (ending : Ending)
  | cut

def Stage.succeeded : Stage → Bool
  | .ended (some (.ok _)) => true
  | _ => false

def Stage.kill : Stage → Stage
  | .ended ending => .ended ending
  | _ => .cut

structure Job where
  message : Message
  stage : Stage

/-- `hand k` is the message of core `k` whose callback has returned and which is not committed yet;
`position p` is where the partition is polled next. -/
structure State where
  consumer : KafkaConsumer.State
  position : TopicPartition → Nat
  hand : Nat → Option Message
  jobs : List Job

def start (w : World) : State := ⟨KafkaConsumer.start w.first,w.first,fun _ => none,[]⟩

def message (p : TopicPartition) (offset : Nat) (entry : List UInt8 × List UInt8) : Message :=
  ⟨p,offset,entry.1,entry.2,.noError⟩

/-- The bridge, which calls the handler of a well-formed envelope. -/
def World.enter (w : World) (m : Message) (course : Course) : Stage :=
  match KafkaEnvelope.dispatch w.handlers m.payload,course with
  | .error e,_ => .ended (some (.error e))
  | .ok _,some ending => .ended ending
  | .ok call,none => .handling call

/-- Where the coroutine of a message is when the callback returns. -/
def World.spawn (w : World) (m : Message) (course : Course) : Stage :=
  if w.inline ∧ w.owner m.source = 0 then w.enter m course else .spawned

inductive Action where
  | poll (p : TopicPartition) (course : Course)
  | commit (core : Nat)
  | dispatch (job : Nat) (course : Course)
  | complete (job : Nat) (ending : Ending)
  | stop

/-- `poll` also runs the callback, which never fails, whatever becomes of the coroutine. Core 0 gets to other coroutines
when it has no message in hand. After a stop the process comes back and polls from the committed offsets. -/
def step (w : World) (s : State) : Action → Option State
  | .poll p course =>
    match s.hand (w.owner p),(w.log p)[s.position p]? with
    | none,some entry =>
      let m := message p (s.position p) entry
      if w.allows m course then
        some { s with
          position := update s.position p (s.position p + 1)
          hand := update s.hand (w.owner p) (some m)
          jobs := if w.requested p.topic then s.jobs ++ [⟨m,w.spawn m course⟩] else s.jobs }
      else none
    | _,_ => none
  | .commit core =>
    match s.hand core with
    | some m => some { s with
        consumer := handle w.consumer s.consumer ⟨m,.ok (),fun _ => false⟩
        hand := update s.hand core none }
    | none => none
  | .dispatch i course =>
    match s.hand 0,s.jobs[i]? with
    | none,some ⟨m,.spawned⟩ =>
      if w.allows m course then some { s with jobs := s.jobs.set i ⟨m,w.enter m course⟩ } else none
    | _,_ => none
  | .complete i ending =>
    match s.hand 0,s.jobs[i]? with
    | none,some ⟨m,.handling _⟩ => some { s with jobs := s.jobs.set i ⟨m,.ended ending⟩ }
    | _,_ => none
  | .stop => some { s with
      position := s.consumer.committed
      hand := fun _ => none
      jobs := s.jobs.map fun job => { job with stage := job.stage.kill } }

/-- The handler of the message has completed successfully, or the DLQ has it. -/
def Settled (s : State) (m : Message) : Prop :=
  (∃ job ∈ s.jobs, job.message = m ∧ job.stage.succeeded = true) ∨ dlqRecord m ∈ s.consumer.dlq

instance (s : State) (m : Message) : Decidable (Settled s m) := inferInstanceAs (Decidable (_ ∨ _))

/-- Every request before the committed offset is settled; the others will be polled again. -/
def Safe (w : World) (s : State) : Prop :=
  ∀ p offset entry, w.first p ≤ offset → offset < s.consumer.committed p →
    (w.log p)[offset]? = some entry → w.requested p.topic = true → Settled s (message p offset entry)

/-- The coroutine of a message starts in the callback, its envelope is well formed, and its handler ends at once and with
success in every way in which it may go on. -/
def Immediate (w : World) (m : Message) : Prop :=
  (w.inline = true ∧ w.owner m.source = 0) ∧ (∃ call, KafkaEnvelope.dispatch w.handlers m.payload = .ok call) ∧
    ∀ course, w.allows m course = true → course = some (some (.ok ()))

theorem commit_step (fine : m.err = .noError) (hand : s.hand core = some m) :
    step w s (.commit core) = some { s with
      consumer := s.consumer.commitOffset m
      hand := update s.hand core none } := by
  simp only [step,hand,handle,fine,ite_self]

theorem poll_step (stepped : step w s (.poll p course) = some next) :
    ∃ entry, s.hand (w.owner p) = none ∧ (w.log p)[s.position p]? = some entry ∧
      w.allows (message p (s.position p) entry) course = true ∧ next = { s with
        position := update s.position p (s.position p + 1)
        hand := update s.hand (w.owner p) (some (message p (s.position p) entry))
        jobs := if w.requested p.topic then s.jobs ++ [⟨message p (s.position p) entry,
          w.spawn (message p (s.position p) entry) course⟩] else s.jobs } := by
  simp only [step] at stepped
  split at stepped
  · rename_i entry hand logged
    obtain ⟨allowed,rfl⟩ := of_guard stepped
    exact ⟨entry,hand,logged,allowed,rfl⟩
  · cases stepped

/-- A coroutine that is not over goes on; nothing else changes. -/
def Advances (s : State) (i : Nat) (next : State) : Prop :=
  ∃ old new, s.jobs[i]? = some old ∧ old.stage.succeeded = false ∧ next = { s with jobs := s.jobs.set i new }

theorem dispatch_step (stepped : step w s (.dispatch i course) = some next) : Advances s i next := by
  simp only [step] at stepped
  split at stepped
  · rename_i m _ spawned
    obtain ⟨_,rfl⟩ := of_guard stepped
    exact ⟨_,_,spawned,rfl,rfl⟩
  · cases stepped

theorem complete_step (stepped : step w s (.complete i ending) = some next) : Advances s i next := by
  simp only [step] at stepped
  split at stepped <;> cases stepped
  rename_i m call _ handling
  exact ⟨_,_,handling,rfl,rfl⟩

theorem succeeded_set {jobs : List Job} {i : Nat} {old new : Job} (at_i : jobs[i]? = some old)
    (running : old.stage.succeeded = false) (job : Job) (member : job ∈ jobs)
    (done : job.stage.succeeded = true) : job ∈ jobs.set i new := by
  obtain ⟨k,at_k⟩ := List.mem_iff_getElem?.mp member
  have different : i ≠ k := by
    rintro rfl
    cases at_i.symm.trans at_k
    cases running.symm.trans done
  exact List.mem_iff_getElem?.mpr ⟨k,by rw [List.getElem?_set_ne different,at_k]⟩

theorem kill_succeeded {stage : Stage} (done : stage.succeeded = true) : stage.kill = stage := by
  cases stage with
  | ended _ => rfl
  | spawned | handling _ | cut => cases done

/-- What has succeeded stays on record. -/
theorem Settled.kept {next : State} (settled : Settled s m) (dlq : next.consumer.dlq = s.consumer.dlq)
    (jobs : ∀ job ∈ s.jobs, job.stage.succeeded = true → job ∈ next.jobs) : Settled next m := by
  rcases settled with ⟨job,member,this,done⟩ | accepted
  · exact .inl ⟨job,jobs job member done,this,done⟩
  · exact .inr (dlq ▸ accepted)

theorem succeeded_spawn {w : World} {m : Message} {course : Course} :
    (w.spawn m course).succeeded = true ↔ (w.inline = true ∧ w.owner m.source = 0) ∧
      (∃ call, KafkaEnvelope.dispatch w.handlers m.payload = .ok call) ∧ course = some (some (.ok ())) := by
  unfold World.spawn World.enter
  split
  · rename_i here
    cases KafkaEnvelope.dispatch w.handlers m.payload with
    | error e => simp [Stage.succeeded]
    | ok call =>
      cases course with
      | none => simp [Stage.succeeded]
      | some ending =>
        cases ending with
        | none => simp [Stage.succeeded]
        | some result => cases result <;> simp [Stage.succeeded,here]
  · rename_i elsewhere
    simp [Stage.succeeded,elsewhere]

/-- Whatever was polled is settled, and nothing else is committed. -/
structure Handled (w : World) (s : State) : Prop where
  settled : ∀ p offset entry, w.first p ≤ offset → offset < s.position p → (w.log p)[offset]? = some entry →
    w.requested p.topic = true → Settled s (message p offset entry)
  committed : ∀ p, s.consumer.committed p ≤ s.position p
  hand : ∀ core m, s.hand core = some m → m.err = .noError ∧ m.offset < s.position m.source

section
variable (handled : Handled w s)
include handled

theorem Handled.poll (immediate : ∀ p offset entry, w.first p ≤ offset → (w.log p)[offset]? = some entry →
      w.requested p.topic = true → Immediate w (message p offset entry))
    (stepped : step w s (.poll p course) = some next) : Handled w next := by
  obtain ⟨entry,free,logged,allowed,rfl⟩ := poll_step stepped
  have later : ∀ q, s.position q ≤ update s.position p (s.position p + 1) q := by
    intro q
    by_cases here : q = p
    · subst here
      simp
    · simp [update_of_ne here]
  refine ⟨fun q offset other first past also requested => ?_,fun q => (handled.committed q).trans (later q),
    fun core m held => ?_⟩
  · by_cases old : offset < s.position q
    · refine (handled.settled q offset other first old also requested).kept rfl fun job member _ => ?_
      split
      · exact List.mem_append_left _ member
      · exact member
    -- the message that is polled, whose handler is over by now
    have here : q = p := by
      by_contra elsewhere
      exact old (by simpa [update_of_ne elsewhere] using past)
    subst here
    have last : offset = s.position q := by
      simp only [update_self] at past
      omega
    subst last
    cases logged.symm.trans also
    obtain ⟨inside,accepted,ends⟩ := immediate q _ entry first logged requested
    refine .inl ⟨⟨_,w.spawn (message q (s.position q) entry) course⟩,?_,rfl,?_⟩
    · rw [if_pos requested]
      exact List.mem_append_right _ List.mem_cons_self
    · exact succeeded_spawn.mpr ⟨inside,accepted,ends course allowed⟩
  · by_cases here : core = w.owner p
    · subst here
      simp only [update_self,Option.some.injEq] at held
      subst held
      exact ⟨rfl,by simp [message]⟩
    · simp only [update_of_ne here] at held
      obtain ⟨fine,inside⟩ := handled.hand core m held
      exact ⟨fine,Nat.lt_of_lt_of_le inside (later _)⟩

theorem Handled.commit (stepped : step w s (.commit core) = some next) : Handled w next := by
  cases hand : s.hand core with
  | none => simp [step,hand] at stepped
  | some m =>
    obtain ⟨fine,inside⟩ := handled.hand core m hand
    obtain rfl := Option.some_inj.mp ((commit_step fine hand).symm.trans stepped)
    refine ⟨handled.settled,fun q => ?_,fun other n held => ?_⟩
    · by_cases here : q = m.source
      · subst here
        exact (Nat.le_of_eq (update_self ..)).trans inside
      · exact (Nat.le_of_eq (update_of_ne here ..)).trans (handled.committed q)
    · by_cases here : other = core
      · subst here
        simp at held
      · exact handled.hand other n (by simpa [update_of_ne here] using held)

theorem Handled.advances (advances : Advances s i next) : Handled w next := by
  obtain ⟨old,new,found,running,rfl⟩ := advances
  refine ⟨fun p offset entry first past logged requested => ?_,handled.committed,handled.hand⟩
  exact (handled.settled p offset entry first past logged requested).kept rfl (succeeded_set found running)

theorem Handled.stop (stepped : step w s .stop = some next) : Handled w next := by
  cases stepped
  refine ⟨fun p offset entry first past logged requested => ?_,fun _ => Nat.le_refl _,nofun⟩
  have before := Nat.lt_of_lt_of_le past (handled.committed p)
  refine (handled.settled p offset entry first before logged requested).kept rfl fun job member done => ?_
  exact List.mem_map.mpr ⟨job,member,by rw [kill_succeeded done]⟩

end

/-- The schedule that polls a partition and commits each message before anything else happens. -/
def pollThrough (w : World) (p : TopicPartition) (course : Nat → Course) (count : Nat) : List Action :=
  (List.range count).flatMap fun i => [.poll p (course (w.first p + i)),.commit (w.owner p)]

structure Polled (w : World) (p : TopicPartition) (course : Nat → Course) (count : Nat) (s : State) : Prop where
  hand : s.hand (w.owner p) = none
  position : s.position p = w.first p + count
  committed : s.consumer.committed p = w.first p + count
  dlq : s.consumer.dlq = []
  jobs : ∀ job ∈ s.jobs, ∃ offset entry, (w.log p)[offset]? = some entry ∧
    job = ⟨message p offset entry,w.spawn (message p offset entry) (course offset)⟩

theorem polled_through (allowed : ∀ offset entry, (w.log p)[offset]? = some entry →
      w.allows (message p offset entry) (course offset) = true) (count : Nat)
    (long : w.first p + count ≤ (w.log p).length) :
    ∃ s, run (step w) (start w) (pollThrough w p course count) = some s ∧ Polled w p course count s := by
  induction count with
  | zero => exact ⟨_,rfl,rfl,rfl,rfl,rfl,nofun⟩
  | succ count ih =>
    obtain ⟨s,runs,polled⟩ := ih (by omega)
    obtain ⟨entry,logged⟩ : ∃ entry, (w.log p)[w.first p + count]? = some entry :=
      ⟨_,List.getElem?_eq_getElem (by omega)⟩
    have course' := allowed _ entry logged
    let m := message p (w.first p + count) entry
    let middle : State := { s with
      position := update s.position p (w.first p + count + 1)
      hand := update s.hand (w.owner p) (some m)
      jobs := if w.requested p.topic then s.jobs ++ [⟨m,w.spawn m (course (w.first p + count))⟩] else s.jobs }
    have first : step w s (.poll p (course (w.first p + count))) = some middle := by
      simp only [step,polled.hand,polled.position,logged,course',if_true]
      rfl
    let after : State := { middle with
      consumer := middle.consumer.commitOffset m
      hand := update middle.hand (w.owner p) none }
    have second : step w middle (.commit (w.owner p)) = some after := commit_step rfl (update_self ..)
    refine ⟨after,?_,?_⟩
    · rw [pollThrough,List.range_succ,List.flatMap_append,run_append]
      rw [pollThrough] at runs
      simp only [runs,Option.bind_some,List.flatMap_singleton,run,first,second]
    · refine ⟨update_self ..,update_self ..,update_self ..,polled.dlq,fun job member => ?_⟩
      rcases Bool.eq_false_or_eq_true (w.requested p.topic) with asked | ignored
      · simp only [after,middle,asked,if_true] at member
        rcases mem_concat member with earlier | rfl
        · exact polled.jobs job earlier
        · exact ⟨_,entry,logged,rfl⟩
      · simp only [after,middle,ignored] at member
        exact polled.jobs job member

/-- Through every interleaving and every stop each request before the committed offset was handled with success or is in
the DLQ, exactly if every request is one whose coroutine is over, and with success, when the callback returns. So a
request on a partition of another core than 0 is at risk, whatever its handler does. -/
theorem handled_iff_immediate (w : World) (possible : ∀ m, ∃ course, w.allows m course = true) :
    (∀ schedule final, run (step w) (start w) schedule = some final → Safe w final) ↔
      ∀ p offset entry, w.first p ≤ offset → (w.log p)[offset]? = some entry → w.requested p.topic = true →
        Immediate w (message p offset entry) := by
  constructor
  · intro safe p offset entry first logged requested
    -- any course that the handler may take is taken in a run that commits the message at once
    have taken : ∀ course, w.allows (message p offset entry) course = true →
        (w.spawn (message p offset entry) course).succeeded = true := by
      intro course allowed
      choose other others using possible
      let courses (at_ : Nat) : Course :=
        if at_ = offset then course else ((w.log p)[at_]?.map fun e => other (message p at_ e)).getD none
      have followed : ∀ at_ e, (w.log p)[at_]? = some e → w.allows (message p at_ e) (courses at_) = true := by
        intro at_ e found
        by_cases here : at_ = offset
        · subst here
          cases logged.symm.trans found
          simpa [courses] using allowed
        · simpa [courses,here,found] using others _
      have inside : offset < (w.log p).length := (List.getElem?_eq_some_iff.mp logged).1
      obtain ⟨final,runs,polled⟩ := polled_through followed (offset + 1 - w.first p) (by omega)
      have settled := safe _ final runs p offset entry first (by rw [polled.committed]; omega) logged requested
      rcases settled with ⟨job,member,same,done⟩ | accepted
      · obtain ⟨place,e,found,rfl⟩ := polled.jobs job member
        have place' : place = offset := congrArg Message.offset same
        subst place'
        cases logged.symm.trans found
        simpa [courses] using done
      · rw [polled.dlq] at accepted
        cases accepted
    obtain ⟨some',allowed⟩ := possible (message p offset entry)
    obtain ⟨inside,accepted,_⟩ := succeeded_spawn.mp (taken some' allowed)
    exact ⟨inside,accepted,fun course allowed => (succeeded_spawn.mp (taken course allowed)).2.2⟩
  · intro immediate schedule final runs
    have initial : Handled w (start w) := by
      refine ⟨fun p offset _ first past => ?_,fun _ => Nat.le_refl _,nofun⟩
      exact absurd (Nat.lt_of_le_of_lt first past) (Nat.lt_irrefl _)
    have handled : Handled w final := by
      refine run_invariant (Handled w) (fun s action next handled stepped => ?_) initial runs
      cases action with
      | poll p course => exact handled.poll immediate stepped
      | commit core => exact handled.commit stepped
      | dispatch i course => exact handled.advances (dispatch_step stepped)
      | complete i ending => exact handled.advances (complete_step stepped)
      | stop => exact handled.stop stepped
    intro p offset entry first past
    exact handled.settled p offset entry first (Nat.lt_of_lt_of_le past (handled.committed p))

def oneRequest (owner : Nat) (course : Course) (payload : List UInt8) : World :=
  ⟨[⟨false,[]⟩,⟨true,[7]⟩],["requests"],64,3,true,fun _ => owner,fun _ other => decide (other = course),
    fun p => if p = ⟨"requests",0⟩ then [([],payload)] else [],fun _ => 0⟩

def envelope : List UInt8 := [0,1,0,0,0,0,0,7,0,0,0,2] ++ List.replicate 36 0 ++ [9]

/-- The request is on a partition of core 0, and its handler does not wait. -/
def promptRequest : World := oneRequest 0 (some (some (.ok ()))) envelope

theorem handled_iff_immediate_inline :
    (∃ final, run (step promptRequest) (start promptRequest)
        [.poll ⟨"requests",0⟩ (some (some (.ok ()))),.commit 0,.stop] = some final ∧
      final.consumer.committed ⟨"requests",0⟩ = 1) ∧
    ∀ schedule final, run (step promptRequest) (start promptRequest) schedule = some final → Safe promptRequest final := by
  refine ⟨by decide +kernel,?_⟩
  refine (handled_iff_immediate promptRequest fun m => ⟨some (some (.ok ())),by simp [promptRequest,oneRequest]⟩).mpr ?_
  intro p offset entry _ logged _
  simp only [promptRequest,oneRequest] at logged
  split at logged
  · obtain ⟨inside,rfl⟩ := List.getElem?_eq_some_iff.mp logged
    have zero : offset = 0 := by simpa using inside
    subst zero
    refine ⟨⟨rfl,rfl⟩,?_,fun course allowed => by simpa [promptRequest,oneRequest] using allowed⟩
    have accepted : (KafkaEnvelope.dispatch [7] envelope).isOk = true := by decide +kernel
    cases found : KafkaEnvelope.dispatch [7] envelope with
    | ok call => exact ⟨call,found⟩
    | error e => simp [found,Except.isOk,Except.toBool] at accepted
  · simp at logged

/-- A malformed envelope is committed before it is looked at; on core 0 it is looked at before, and committed all the
same. And a request is committed whose handler waits when a stop cuts it off. None was handled, and none is in
the DLQ. -/
theorem request_lost :
    (∀ core ∈ [0,1], ∃ final, run (step (oneRequest core none [1,2,3])) (start (oneRequest core none [1,2,3]))
        [.poll ⟨"requests",0⟩ none,.commit core] = some final ∧
      final.consumer.committed ⟨"requests",0⟩ = 1 ∧ final.consumer.dlq = [] ∧
      ¬Settled final (message ⟨"requests",0⟩ 0 ([],[1,2,3]))) ∧
    ∃ final, run (step (oneRequest 0 none envelope)) (start (oneRequest 0 none envelope))
        [.poll ⟨"requests",0⟩ none,.commit 0,.stop] = some final ∧
      final.consumer.committed ⟨"requests",0⟩ = 1 ∧ final.consumer.dlq = [] ∧
      ¬Settled final (message ⟨"requests",0⟩ 0 ([],envelope)) := by
  decide +kernel

end ApexPipeline.KafkaDispatch
