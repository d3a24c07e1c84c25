import ApexPipeline.Session

/-! A session's writes are one ordered stream. There is at most one pump, at one of the stages below; `Move` is what
a step can do there, and the results are read off it. -/
namespace ApexPipeline.Session
open Execution List

inductive Stage where
  | stopped | ready
  | busy (pump : Pump)
  deriving DecidableEq, Repr

def At (s : Session) : Stage → Prop
  | .stopped => s.scheduled = 0 ∧ s.pumps = [] ∧ s.pumpRunning = false
  | .ready => s.scheduled = 1 ∧ s.pumps = [] ∧ s.pumpRunning = true
  | .busy pump => s.scheduled = 0 ∧ s.pumps = [pump] ∧ s.pumpRunning = true

def Stage.spawn : Stage → Stage
  | .stopped => .ready
  | stage => stage

def reply (result : Except ErrorCode Unit) (req : WriteRequest) : List (Nat × Except ErrorCode Unit) :=
  match req.completion with
  | some waiter => [(waiter,result)]
  | none => []

def admitted (s : Session) (data : List UInt8) (waiting : Bool) : Session :=
  { (s.push ⟨data,if waiting then some s.awaited else none⟩).spawnPump with
    awaited := s.awaited + waiting.toNat }

inductive Move (s : Session) : Stage → Bool → Session → Stage → Prop
  | refuse : Move s stage false s stage
  | admitted (data : List UInt8) (waiting : Bool) : s.isOpen = true → s.writeQueue.length < s.maxQueueDepth →
      Move s stage false (s.admitted data waiting) stage.spawn
  | close : Move s stage false s.close stage
  | start (req : WriteRequest) (rest : List WriteRequest) : s.writeQueue = req :: rest →
      s.isOpen = true → Move s .ready true
        { s with
          scheduled := 0, writeQueue := rest, handed := s.handed ++ [req.data]
          pumps := [.writing req] } (.busy (.writing req))
  | idle : s.writeQueue = [] ∨ s.isOpen = false →
      Move s .ready true { s with scheduled := 0, pumpRunning := false } .stopped
  | complete (req : WriteRequest) (ok : Bool) : Move s (.busy (.writing req)) true
      { s with pumps := [.written req ok] } (.busy (.written req ok))
  | next (req following : WriteRequest) (rest : List WriteRequest) :
      s.writeQueue = following :: rest → s.isOpen = true →
      Move s (.busy (.written req true)) true
        { s with
          signalled := s.signalled ++ reply (.ok ()) req
          writeQueue := rest, handed := s.handed ++ [following.data]
          pumps := [.writing following] } (.busy (.writing following))
  | finish (req : WriteRequest) : s.writeQueue = [] ∨ s.isOpen = false → Move s (.busy (.written req true)) true
        { s with
          signalled := s.signalled ++ reply (.ok ()) req, pumps := [], pumpRunning := false }
        .stopped
  | fail (req : WriteRequest) : Move s (.busy (.written req false)) true
      { s with
        signalled := s.signalled ++ (req :: s.writeQueue).flatMap (reply (.error .sendFailed))
        writeQueue := [], isOpen := false, pumps := [], pumpRunning := false } .stopped

theorem signal_eq (result : Except ErrorCode Unit) (s : Session) (req : WriteRequest) :
    s.signal result req = { s with signalled := s.signalled ++ reply result req } := by
  unfold signal reply
  cases req.completion <;> simp

theorem signal_all (result : Except ErrorCode Unit) (reqs : List WriteRequest) (s : Session) :
    reqs.foldl (signal result) s =
      { s with signalled := s.signalled ++ reqs.flatMap (reply result) } := by
  induction reqs generalizing s with
  | nil => simp
  | cons req rest ih => simp [ih,signal_eq]

theorem pumpLoop_cases (s : Session) :
    (∃ req rest, s.writeQueue = req :: rest ∧ s.isOpen = true ∧ s.pumpLoop = { s with
      writeQueue := rest, handed := s.handed ++ [req.data], pumps := s.pumps ++ [.writing req] }) ∨
    ((s.writeQueue = [] ∨ s.isOpen = false) ∧ s.pumpLoop = { s with pumpRunning := false }) := by
  unfold pumpLoop
  cases queue : s.writeQueue with
  | nil => exact .inr ⟨.inl rfl,rfl⟩
  | cons req rest =>
    cases opened : s.isOpen with
    | true => exact .inl ⟨req,rest,rfl,rfl,rfl⟩
    | false => exact .inr ⟨.inr rfl,rfl⟩

section
variable (s : Session) (data : List UInt8)

theorem admitted_unawaited :
    s.admitted data false = (s.push ⟨data,none⟩).spawnPump := by
  cases running : s.pumpRunning <;> simp [admitted,spawnPump,push,running]

theorem enqueueWrite_move (stage : Stage) :
    ∃ stage', Move s stage false (s.after (s.enqueueWrite data)) stage' := by
  unfold enqueueWrite
  cases opened : s.isOpen with
  | false => exact ⟨stage,.refuse⟩
  | true =>
    by_cases full : s.writeQueue.length ≥ s.maxQueueDepth
    · exact ⟨stage,by simpa [full] using .refuse⟩
    · refine ⟨stage.spawn,?_⟩
      simp only [Bool.not_true,Bool.false_eq_true,if_false,full,← admitted_unawaited]
      exact .admitted data false opened (by omega)

theorem enqueueAndAwait_move (opened : s.isOpen = true)
    (stage : Stage) : ∃ stage', Move s stage false (s.after (s.enqueueAndAwait data)) stage' := by
  unfold enqueueAndAwait
  by_cases full : s.writeQueue.length ≥ s.maxQueueDepth
  · exact ⟨stage,by simpa [full] using .refuse⟩
  · refine ⟨stage.spawn,?_⟩
    simp only [full,if_false]
    exact .admitted data true opened (by omega)

end

variable {s next : Session} {stage stage' : Stage} {pump : Bool}

theorem At.only_pump {i : Nat} {pump : Pump} (at' : s.At stage)
    (found : s.pumps[i]? = some pump) : i = 0 ∧ stage = .busy pump := by
  cases stage with
  | stopped | ready => simp [at'.2.1] at found
  | busy only =>
    rw [at'.2.1] at found
    cases i with
    | zero => simpa using found
    | succ i => simp at found

theorem step_move {action : Action} (at' : s.At stage) (moved : step s action = some next) :
    ∃ stage', Move s stage action.isPump next stage' := by
  cases action with
  | enqueueWrite data | enqueueWriteRaw data =>
    cases moved
    exact enqueueWrite_move s data stage
  | asyncSend header payload =>
    cases moved
    unfold asyncSend
    cases opened : s.isOpen with
    | false => exact ⟨stage,.refuse⟩
    | true => exact enqueueAndAwait_move s _ opened stage
  | asyncSendRaw data =>
    cases moved
    unfold asyncSendRaw
    cases opened : s.isOpen with
    | false => exact ⟨stage,.refuse⟩
    | true => exact enqueueAndAwait_move s data opened stage
  | close =>
    cases moved
    exact ⟨stage,.close⟩
  | startPump =>
    obtain ⟨spawned,rfl⟩ := of_unless moved
    cases stage with
    | stopped | busy pump => exact absurd at'.1 spawned
    | ready =>
      obtain ⟨one,none',_⟩ := at'
      rcases pumpLoop_cases { s with scheduled := s.scheduled - 1 } with
        ⟨req,rest,queue,opened,looped⟩ | ⟨idle,looped⟩
      · refine ⟨.busy (.writing req),?_⟩
        rw [looped]
        simp only [one,none']
        exact .start req rest queue opened
      · refine ⟨.stopped,?_⟩
        rw [looped]
        simp only [one]
        exact .idle idle
  | completeWrite i ok =>
    simp only [step] at moved
    split at moved <;> cases moved
    rename_i req found
    obtain ⟨rfl,rfl⟩ := at'.only_pump found
    rw [at'.2.1]
    exact ⟨_,.complete req ok⟩
  | resumePump i =>
    simp only [step] at moved
    split at moved <;> cases moved
    rename_i req ok found
    obtain ⟨rfl,rfl⟩ := at'.only_pump found
    rw [at'.2.1]
    simp only [eraseIdx_cons_zero,resume]
    cases ok with
    | false =>
      simp only [Bool.false_eq_true,if_false,signal_eq,signal_all,close]
      refine ⟨.stopped,?_⟩
      have failed := Move.fail (s := s) req
      simpa [append_assoc,Action.isPump] using failed
    | true =>
      simp only [if_true,signal_eq]
      rcases pumpLoop_cases { s with
          pumps := [], signalled := s.signalled ++ reply (.ok ()) req } with
        ⟨following,rest,queue,opened,looped⟩ | ⟨idle,looped⟩
      · rw [looped]
        exact ⟨_,.next req following rest queue opened⟩
      · rw [looped]
        exact ⟨_,.finish req idle⟩

theorem Move.lands (at' : s.At stage) (move : Move s stage pump next stage') : next.At stage' := by
  cases move with
  | refuse => exact at'
  | admitted data waiting opened room =>
    cases stage with
    | stopped =>
      obtain ⟨none',empty,off⟩ := at'
      simp [Stage.spawn,At,Session.admitted,push,spawnPump,none',empty,off]
    | ready =>
      obtain ⟨one,empty,on⟩ := at'
      simp [Stage.spawn,At,Session.admitted,push,spawnPump,one,empty,on]
    | busy pump =>
      obtain ⟨none',alone,on⟩ := at'
      simp [Stage.spawn,At,Session.admitted,push,spawnPump,none',alone,on]
  | close => cases stage <;> exact at'
  | start => exact ⟨rfl,rfl,at'.2.2⟩
  | idle => exact ⟨rfl,at'.2.1,rfl⟩
  | complete | next => exact ⟨at'.1,rfl,at'.2.2⟩
  | finish | fail => exact ⟨at'.1,rfl,rfl⟩

/-- What was accepted has been handed over or is queued, in order, until a failed write
empties the queue and closes the session. -/
structure Stream (s : Session) (stage : Stage) : Prop where
  at' : s.At stage
  depth : s.writeQueue.length ≤ s.maxQueueDepth
  order : s.accepted.map (·.data) = s.handed ++ s.writeQueue.map (·.data) ∨
    s.isOpen = false ∧ s.writeQueue = [] ∧ s.handed <+: s.accepted.map (·.data)
  pending : s.isOpen = true → s.writeQueue ≠ [] → stage ≠ .stopped

theorem create_stream (maxQueueDepth : Nat) : Stream (create maxQueueDepth) .stopped :=
  ⟨⟨rfl,rfl,rfl⟩,Nat.zero_le _,.inl rfl,fun _ queued => absurd rfl queued⟩

theorem Stream.ordered (stream : Stream s stage) (opened : s.isOpen = true) :
    s.accepted.map (·.data) = s.handed ++ s.writeQueue.map (·.data) := by
  rcases stream.order with order | ⟨closed,_⟩
  · exact order
  · rw [opened] at closed
    cases closed

theorem Stream.handed_prefix (stream : Stream s stage) : s.handed <+: s.accepted.map (·.data) := by
  rcases stream.order with order | ⟨_,_,order⟩
  · rw [order]
    exact prefix_append ..
  · exact order

theorem admitted_fields (s : Session) (data : List UInt8) (waiting : Bool) :
    let req : WriteRequest := ⟨data,if waiting then some s.awaited else none⟩
    (s.admitted data waiting).writeQueue = s.writeQueue ++ [req] ∧
      (s.admitted data waiting).accepted = s.accepted ++ [req] ∧
      (s.admitted data waiting).isOpen = s.isOpen ∧
      (s.admitted data waiting).handed = s.handed ∧
      (s.admitted data waiting).maxQueueDepth = s.maxQueueDepth ∧
      (s.admitted data waiting).signalled = s.signalled ∧
      (s.admitted data waiting).awaited = s.awaited + waiting.toNat ∧
      (s.admitted data waiting).pumps = s.pumps := by
  cases running : s.pumpRunning <;> simp [admitted,spawnPump,push,running]

theorem Move.stream (stream : Stream s stage) (move : Move s stage pump next stage') : Stream next stage' := by
  have lands := move.lands stream.at'
  have depth := stream.depth
  cases move with
  | refuse => exact stream
  | admitted data waiting opened room =>
    obtain ⟨queue,accepted,_,handed,limit,_⟩ := s.admitted_fields data waiting
    refine ⟨lands,?_,.inl ?_,?_⟩
    · rw [queue,limit,length_append,length_singleton]
      omega
    · rw [queue,accepted,handed,map_append,map_append,stream.ordered opened,append_assoc]
    · intro _ _
      cases stage <;> simp [Stage.spawn]
  | close =>
    refine ⟨lands,depth,?_,fun opened => absurd opened (by simp [Session.close])⟩
    rcases stream.order with order | ⟨_,empty,order⟩
    · exact .inl order
    · exact .inr ⟨rfl,empty,order⟩
  | start req rest queue opened | next req following rest queue opened =>
    have order := stream.ordered opened
    rw [queue] at order depth
    refine ⟨lands,by simp only [length_cons] at depth ⊢; omega,.inl ?_,by simp⟩
    simpa using order
  | idle leaves | finish req leaves =>
    exact ⟨lands,depth,stream.order,
      fun opened queued => absurd (leaves.resolve_right fun closed => by simp [closed] at opened) queued⟩
  | complete req ok => exact ⟨lands,depth,stream.order,by simp⟩
  | fail req =>
    exact ⟨lands,Nat.zero_le _,.inr ⟨rfl,rfl,stream.handed_prefix⟩,
      fun opened => absurd opened (by simp)⟩

theorem run_stream {maxQueueDepth : Nat} {schedule : List Action} (s : Session)
    (reached : run step (create maxQueueDepth) schedule = some s) : ∃ stage, Stream s stage :=
  run_invariant (fun s => ∃ stage, Stream s stage)
    (fun _ _ _ ⟨_,stream⟩ moved =>
      let ⟨stage',move⟩ := step_move stream.at' moved
      ⟨stage',move.stream stream⟩) ⟨_,create_stream maxQueueDepth⟩ reached

theorem Move.grows (move : Move s stage pump next stage') : next.maxQueueDepth = s.maxQueueDepth ∧
      s.accepted <+: next.accepted ∧ (next.isOpen = true → s.isOpen = true) := by
  cases move with
  | admitted data waiting opened room =>
    obtain ⟨_,accepted,_,_,limit,_⟩ := s.admitted_fields data waiting
    rw [accepted]
    exact ⟨limit,prefix_append ..,fun _ => opened⟩
  | close => exact ⟨rfl,prefix_refl _,fun opened => absurd opened (by simp [Session.close])⟩
  | fail => exact ⟨rfl,prefix_refl _,fun opened => absurd opened (by simp)⟩
  | _ => exact ⟨rfl,prefix_refl _,fun opened => opened⟩

section
variable {final : Session} {schedule : List Action}

theorem run_grows (stream : Stream s stage) (runs : run step s schedule = some final) :
    final.maxQueueDepth = s.maxQueueDepth ∧ s.accepted <+: final.accepted ∧
      (final.isOpen = true → s.isOpen = true) := by
  induction schedule generalizing s stage with
  | nil =>
    cases runs
    exact ⟨rfl,prefix_refl _,fun opened => opened⟩
  | cons action rest ih =>
    obtain ⟨next,moved,later⟩ := run_cons.mp runs
    obtain ⟨stage',move⟩ := step_move stream.at' moved
    obtain ⟨limit,accepted,opened⟩ := move.grows
    obtain ⟨limit',accepted',opened'⟩ := ih (move.stream stream) later
    exact ⟨limit'.trans limit,accepted.trans accepted',opened ∘ opened'⟩

/-- Steps the pump needs at most until the first `target` requests are handed over. -/
def stepsLeft (target : Nat) (s : Session) (stage : Stage) : Nat :=
  let remaining := target - s.handed.length
  match stage with
  | .stopped => 0
  | .ready | .busy (.written ..) => 2 * remaining - 1
  | .busy (.writing _) => 2 * remaining

theorem Stream.all_handed (stream : Stream s .stopped) (opened : s.isOpen = true) :
    s.handed.length = s.accepted.length := by
  have empty : s.writeQueue = [] := by
    by_contra queued
    exact stream.pending opened queued rfl
  have order := congrArg List.length (stream.ordered opened)
  simpa [empty] using order.symm

variable (stream : Stream s stage) (known : target ≤ s.accepted.length)
include stream known

theorem Move.stepsLeft (opened : next.isOpen = true) (move : Move s stage pump next stage') :
    Session.stepsLeft target next stage' ≤ Session.stepsLeft target s stage - pump.toNat := by
  cases move with
  | refuse => exact Nat.le_refl _
  | admitted data waiting open' room =>
    obtain ⟨_,_,_,handed,_⟩ := s.admitted_fields data waiting
    cases stage with
    | stopped =>
      have done := stream.all_handed open'
      simp only [Session.stepsLeft,Stage.spawn,handed]
      omega
    | ready => simp [Session.stepsLeft,Stage.spawn,handed]
    | busy pump => cases pump <;> simp [Session.stepsLeft,Stage.spawn,handed]
  | close => exact absurd opened (by simp [Session.close])
  | start req rest queue open' | next req following rest queue open' =>
    simp only [Session.stepsLeft,length_append,length_singleton,Bool.toNat_true]
    omega
  | idle | finish => exact Nat.zero_le _
  | complete req ok =>
    simp only [Session.stepsLeft,Bool.toNat_true]
    exact Nat.le_refl _
  | fail => exact absurd opened (by simp)

theorem run_stepsLeft (runs : run step s schedule = some final) (opened : final.isOpen = true) :
    ∃ stage', Stream final stage' ∧
      stepsLeft target final stage' ≤ stepsLeft target s stage - pumpSteps schedule := by
  induction schedule generalizing s stage with
  | nil =>
    cases runs
    exact ⟨stage,stream,Nat.le_refl _⟩
  | cons action rest ih =>
    obtain ⟨next,moved,later⟩ := run_cons.mp runs
    obtain ⟨stage₁,move⟩ := step_move stream.at' moved
    have stream₁ := move.stream stream
    have open₁ := (run_grows stream₁ later).2.2 opened
    have first := move.stepsLeft stream known open₁
    have known₁ := Nat.le_trans known move.grows.2.1.length_le
    obtain ⟨stage',stream',rest'⟩ := ih stream₁ known₁ later
    refine ⟨stage',stream',?_⟩
    rw [pumpSteps_cons]
    omega

end

theorem Stream.pump_enabled (stream : Stream s stage) (running : stage ≠ .stopped) :
    ∃ action, action.isPump = true ∧ (step s action).isSome := by
  obtain ⟨at',_⟩ := stream
  cases stage with
  | stopped => exact absurd rfl running
  | ready => exact ⟨.startPump,rfl,by simp [step,at'.1]⟩
  | busy pump =>
    cases pump with
    | writing req => exact ⟨.completeWrite 0 true,rfl,by simp [step,at'.2.1]⟩
    | written req ok => exact ⟨.resumePump 0,rfl,by simp [step,at'.2.1]⟩

/-- At most one pump and one write, `pump_running_` exactly with a pump, a bounded queue, and an ordered stream; and
as long as the session stays open, two steps of the pump for each queued request hand over all that had been
accepted. -/
theorem single_write_stream (maxQueueDepth : Nat) (schedule : List Action) (s : Session)
    (reached : run step (create maxQueueDepth) schedule = some s) :
    s.scheduled + s.pumps.length ≤ 1 ∧ s.pumps.countP Pump.isWriting ≤ 1 ∧
    (s.pumpRunning = true ↔ 0 < s.scheduled + s.pumps.length) ∧
    s.writeQueue.length ≤ maxQueueDepth ∧ s.handed <+: s.accepted.map (·.data) ∧
    (∀ later final, run step s later = some final → final.isOpen = true →
      2 * s.writeQueue.length ≤ pumpSteps later → s.accepted.map (·.data) <+: final.handed) ∧
    (s.isOpen = true → s.handed ≠ s.accepted.map (·.data) →
      ∃ action, action.isPump = true ∧ (step s action).isSome) := by
  obtain ⟨stage,stream⟩ := run_stream s reached
  have limit := (run_grows (create_stream maxQueueDepth) reached).1
  have alone : s.scheduled + s.pumps.length ≤ 1 ∧ (s.pumpRunning = true ↔ 0 < s.scheduled + s.pumps.length) := by
    cases stage with
    | stopped | ready | busy pump => simp [stream.at'.1,stream.at'.2.1,stream.at'.2.2]
  have writes : s.pumps.countP Pump.isWriting ≤ s.pumps.length := countP_le_length
  refine ⟨alone.1,by omega,alone.2,Nat.le_trans stream.depth (Nat.le_of_eq limit),stream.handed_prefix,?_,?_⟩
  · intro later final runs opened enough
    obtain ⟨stage',stream',spent⟩ :=
      run_stepsLeft stream (Nat.le_refl _) runs opened
    obtain ⟨_,accepted,opened'⟩ := run_grows stream runs
    have order := congrArg List.length (stream.ordered (opened' opened))
    simp only [length_map,length_append] at order
    have cost : stepsLeft s.accepted.length s stage ≤ 2 * s.writeQueue.length := by
      simp only [stepsLeft]
      split <;> omega
    have none' : stepsLeft s.accepted.length final stage' = 0 := by omega
    have handed : s.accepted.length ≤ final.handed.length := by
      have grown := accepted.length_le
      cases stage' with
      | stopped =>
        have done := stream'.all_handed opened
        omega
      | ready =>
        simp only [stepsLeft] at none'
        omega
      | busy pump =>
        cases pump <;> simp only [stepsLeft] at none' <;> omega
    refine prefix_of_prefix_length_le (accepted.map _) stream'.handed_prefix ?_
    simpa using handed
  · intro opened behind
    refine stream.pump_enabled ?_
    refine stream.pending opened fun empty => behind ?_
    rw [stream.ordered opened,empty,map_nil,append_nil]

def contended : List Action :=
  [.enqueueWrite [1],.startPump,.asyncSendRaw [2],.enqueueWrite [3],.enqueueWriteRaw [4],.completeWrite 0 true]

theorem single_write_stream_contended : ∃ s, run step (create 2) contended = some s ∧
    s.handed = [[1]] ∧ s.accepted.map (·.data) = [[1],[2],[3]] ∧ s.pumps.length = 1 ∧
    ∃ final, run step s [.resumePump 0,.completeWrite 0 true,.enqueueWrite [5],.resumePump 0,
      .completeWrite 0 true] = some final ∧ [[1],[2],[3]] <+: final.handed := by
  obtain ⟨s,reached,handed,accepted,pumps,queued,final,runs,opened⟩ :
      ∃ s, run step (create 2) contended = some s ∧ s.handed = [[1]] ∧
        s.accepted.map (·.data) = [[1],[2],[3]] ∧ s.pumps.length = 1 ∧ s.writeQueue.length = 2 ∧
        ∃ final, run step s [.resumePump 0,.completeWrite 0 true,.enqueueWrite [5],.resumePump 0,
          .completeWrite 0 true] = some final ∧ final.isOpen = true := by
    decide +kernel
  obtain ⟨_,_,_,_,_,progress,_⟩ := single_write_stream 2 contended s reached
  have delivered := progress _ final runs opened (by rw [queued]; decide)
  exact ⟨s,reached,handed,accepted,pumps,final,runs,accepted ▸ delivered⟩

end ApexPipeline.Session
