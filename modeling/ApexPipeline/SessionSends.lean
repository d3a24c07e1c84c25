import ApexPipeline.SessionWrites

/-! Awaited sends are answered exactly once in every run in which the pump never finds the session closed at its loop
condition while an awaited request is queued: it leaves the loop there without a word to the rest. -/
namespace ApexPipeline.Session
open Execution List Session

def line (s : Session) : List WriteRequest := s.pumps.map Pump.request ++ s.writeQueue

/-- The next step of a pump is to evaluate the condition of its loop. -/
def atLoop (s : Session) : Bool :=
  s.scheduled ≠ 0 || s.pumps.any fun
    | .written _ ok => ok
    | .writing _ => false

/-- The pump does not find the session closed while an awaited request is queued. -/
def Attended (s : Session) (action : Action) : Prop :=
  action.isPump = true → s.atLoop = true → s.isOpen = true ∨ ∀ req ∈ s.writeQueue, req.completion = none

instance (s : Session) (action : Action) : Decidable (Attended s action) :=
  inferInstanceAs (Decidable (_ → _ → _ ∨ ∀ req ∈ s.writeQueue, req.completion = none))

def signals (s : Session) (waiter : Nat) : Nat := (s.signalled.map Prod.fst).count waiter

/-- The awaited requests that have left the line are those signalled, in order. -/
structure Answering (s : Session) (stage : Stage) : Prop where
  stream : Stream s stage
  served : ∃ gone, s.accepted = gone ++ s.line ∧ gone.filterMap (·.completion) = s.signalled.map Prod.fst
  numbered : s.accepted.filterMap (·.completion) = List.range s.awaited
  quiet : stage = .stopped → ∀ req ∈ s.writeQueue, req.completion = none

theorem reply_waiter (result : Except ErrorCode Unit) (req : WriteRequest) :
    (reply result req).map Prod.fst = req.completion.toList := by
  unfold reply
  cases req.completion <;> rfl

theorem replies_waiters (result : Except ErrorCode Unit) (reqs : List WriteRequest) :
    (reqs.flatMap (reply result)).map Prod.fst = reqs.filterMap (·.completion) := by
  induction reqs with
  | nil => rfl
  | cons req rest ih =>
    rw [flatMap_cons,map_append,ih,reply_waiter,filterMap_cons]
    cases req.completion <;> rfl

variable {s next final : Session} {stage stage' : Stage}

theorem told_ok (req : WriteRequest) (told : gone.filterMap (·.completion) = s.signalled.map Prod.fst) :
    (gone ++ [req]).filterMap (·.completion) = (s.signalled ++ reply (.ok ()) req).map Prod.fst := by
  rw [filterMap_append,told,map_append,reply_waiter,filterMap_cons]
  cases req.completion <;> rfl

theorem Attended.unawaited (attended : Attended s action) (pump : action.isPump = true) (loop : s.atLoop = true)
    (leaves : s.writeQueue = [] ∨ s.isOpen = false) :
    ∀ req ∈ s.writeQueue, req.completion = none := by
  rcases leaves with empty | closed
  · simp [empty]
  · rcases attended pump loop with opened | unawaited
    · exact absurd (closed.symm.trans opened) (by simp)
    · exact unawaited

theorem line_busy (at' : s.At (.busy pump)) : s.line = pump.request :: s.writeQueue := by
  simp [line,at'.2.1]

theorem line_idle (none' : s.pumps = []) : s.line = s.writeQueue := by
  simp [line,none']

theorem Move.answering (answering : Answering s stage) (move : Move s stage pump next stage')
    (unawaited : pump = true → s.atLoop = true → s.writeQueue = [] ∨ s.isOpen = false →
      ∀ req ∈ s.writeQueue, req.completion = none) : Answering next stage' := by
  have stream := move.stream answering.stream
  have at' := answering.stream.at'
  obtain ⟨gone,served,told⟩ := answering.served
  cases move with
  | refuse => exact answering
  | admitted data waiting opened room =>
    obtain ⟨queue,accepted,_,_,_,signalled,awaited,pumps⟩ := s.admitted_fields data waiting
    refine ⟨stream,⟨gone,?_,by rw [signalled,told]⟩,?_,?_⟩
    · rw [accepted,line,pumps,queue,served,line,append_assoc,append_assoc]
    · rw [accepted,awaited,filterMap_append,answering.numbered]
      cases waiting <;> simp [range_succ]
    · intro stopped
      cases stage <;> simp [Stage.spawn] at stopped
  | close => exact ⟨stream,⟨gone,served,told⟩,answering.numbered,answering.quiet⟩
  | start req rest queue opened =>
    refine ⟨stream,⟨gone,?_,told⟩,answering.numbered,by simp⟩
    rw [served,line_idle at'.2.1,queue]
    rfl
  | idle leaves =>
    have loop : s.atLoop = true := by simp [atLoop,at'.1]
    exact ⟨stream,⟨gone,served,told⟩,answering.numbered,fun _ => unawaited rfl loop leaves⟩
  | complete req ok =>
    refine ⟨stream,⟨gone,?_,told⟩,answering.numbered,by simp⟩
    rw [served,line_busy at']
    rfl
  | next req following rest queue opened =>
    refine ⟨stream,⟨gone ++ [req],?_,told_ok req told⟩,answering.numbered,by simp⟩
    rw [served,line_busy at',queue,append_assoc]
    rfl
  | finish req leaves =>
    have loop : s.atLoop = true := by simp [atLoop,at'.2.1]
    refine ⟨stream,⟨gone ++ [req],?_,told_ok req told⟩,answering.numbered,
      fun _ => unawaited rfl loop leaves⟩
    rw [served,line_busy at',append_assoc]
    rfl
  | fail req =>
    refine ⟨stream,⟨s.accepted,by simp [line],?_⟩,answering.numbered,by simp⟩
    rw [served,line_busy at',filterMap_append,told,map_append,replies_waiters]
    rfl

theorem step_answering (answering : Answering s stage) (attended : Attended s action)
    (moved : step s action = some next) :
    ∃ stage', Move s stage action.isPump next stage' ∧ Answering next stage' := by
  obtain ⟨stage',move⟩ := step_move answering.stream.at' moved
  exact ⟨stage',move,move.answering answering fun pump loop => attended.unawaited pump loop⟩

theorem run_answering {maxQueueDepth : Nat} {schedule : List Action}
    (attended : Along step Attended (create maxQueueDepth) schedule) (s : Session)
    (reached : run step (create maxQueueDepth) schedule = some s) :
    ∃ stage, Answering s stage := by
  refine run_guarded step Attended (fun s => ∃ stage, Answering s stage) ?_
    ⟨.stopped,create_stream maxQueueDepth,⟨[],rfl,rfl⟩,rfl,by simp [create]⟩ attended reached
  rintro s action next ⟨stage,answering⟩ attended moved
  obtain ⟨stage',_,answering'⟩ := step_answering answering attended moved
  exact ⟨stage',answering'⟩

theorem Answering.once (answering : Answering s stage)
    (waiter : Nat) : s.signals waiter + (s.line.filterMap (·.completion)).count waiter =
      if waiter < s.awaited then 1 else 0 := by
  obtain ⟨gone,served,told⟩ := answering.served
  have numbered := answering.numbered
  rw [served,filterMap_append,told] at numbered
  rw [signals,← count_append,numbered]
  exact count_range

def leaveCost (remaining : Nat) : Stage → Nat
  | .stopped => 0
  | .ready => if remaining = 0 then 0 else 2 * remaining + 1
  | .busy (.writing _) => 2 * remaining
  | .busy (.written ..) => 2 * remaining - 1

/-- Steps the pump needs at most until the first `target` requests have left the line. -/
def stepsToLeave (target : Nat) (s : Session) (stage : Stage) : Nat :=
  leaveCost (target - (s.accepted.length - s.line.length)) stage

theorem Answering.line_le (answering : Answering s stage) : s.line.length ≤ s.accepted.length := by
  obtain ⟨gone,served,_⟩ := answering.served
  rw [served,length_append]
  omega

theorem Move.stepsToLeave (answering : Answering s stage) (known : target ≤ s.accepted.length)
    (move : Move s stage pump next stage') :
    stepsToLeave target next stage' ≤ stepsToLeave target s stage - pump.toNat := by
  have at' := answering.stream.at'
  have fits := answering.line_le
  cases move with
  | refuse | close => exact Nat.le_refl _
  | admitted data waiting opened room =>
    obtain ⟨queue,accepted,_,_,_,_,_,pumps⟩ := s.admitted_fields data waiting
    have left : (s.admitted data waiting).accepted.length - (s.admitted data waiting).line.length =
        s.accepted.length - s.line.length := by
      rw [accepted,line,pumps,queue,← append_assoc,← line]
      simp only [length_append,length_singleton]
      omega
    unfold stepsToLeave
    rw [left]
    cases stage with
    | stopped =>
      have empty : s.line = [] := by
        rw [line_idle at'.2.1]
        by_contra queued
        exact answering.stream.pending opened queued rfl
      have none' : target - (s.accepted.length - s.line.length) = 0 := by
        rw [empty,length_nil]
        omega
      rw [none']
      exact Nat.zero_le _
    | ready | busy pump => exact Nat.le_refl _
  | start req rest queue opened =>
    have before : s.line = req :: rest := by rw [line_idle at'.2.1,queue]
    unfold stepsToLeave
    rw [before]
    change leaveCost (target - (s.accepted.length - (req :: rest).length)) _ ≤ _
    generalize target - (s.accepted.length - (req :: rest).length) = remaining
    simp only [leaveCost,Bool.toNat_true]
    split <;> omega
  | idle | finish | fail => exact Nat.zero_le _
  | complete req ok =>
    have before : s.line = req :: s.writeQueue := line_busy at'
    unfold stepsToLeave
    rw [before]
    exact Nat.le_refl _
  | next req following rest queue opened =>
    have before : s.line = req :: following :: rest := by
      rw [line_busy at',queue]
      rfl
    rw [before] at fits
    unfold stepsToLeave
    rw [before]
    change leaveCost (target - (s.accepted.length - (following :: rest).length)) _ ≤ _
    simp only [leaveCost,Bool.toNat_true,length_cons] at fits ⊢
    omega

theorem run_stepsToLeave {schedule : List Action} (answering : Answering s stage)
    (known : target ≤ s.accepted.length)
    (attended : Along step Attended s schedule) (runs : run step s schedule = some final) :
    ∃ stage', Answering final stage' ∧
      stepsToLeave target final stage' ≤ stepsToLeave target s stage - pumpSteps schedule := by
  induction schedule generalizing s stage with
  | nil =>
    cases runs
    exact ⟨stage,answering,Nat.le_refl _⟩
  | cons action rest ih =>
    obtain ⟨next,moved,later⟩ := run_cons.mp runs
    obtain ⟨stage₁,move,answering₁⟩ := step_answering answering attended.1 moved
    have first := move.stepsToLeave answering known
    have known₁ := Nat.le_trans known move.grows.2.1.length_le
    obtain ⟨stage',answering',rest'⟩ := ih answering₁ known₁ (attended.2 next moved) later
    refine ⟨stage',answering',?_⟩
    rw [pumpSteps_cons]
    omega

theorem line_count (s : Session) (waiter : Nat) : (s.line.filterMap (·.completion)).count waiter = 0 ↔
      ∀ req ∈ s.line, req.completion ≠ some waiter := by
  rw [count_eq_zero]
  simp [mem_filterMap]

theorem Answering.all_signalled (answering : Answering s stage) (answering' : Answering final stage')
    (grown : s.accepted <+: final.accepted)
    (none' : stepsToLeave s.accepted.length final stage' = 0)
    (accepted : waiter < s.awaited) : final.signals waiter = 1 := by
  have member : waiter ∈ s.accepted.filterMap (·.completion) := by
    rw [answering.numbered]
    exact mem_range.mpr accepted
  have later : waiter < final.awaited := by
    rw [← mem_range,← answering'.numbered]
    exact (grown.filterMap _).subset member
  have once := answering'.once waiter
  rw [if_pos later] at once
  obtain ⟨gone,served,told⟩ := answering'.served
  by_cases left : s.accepted.length ≤ final.accepted.length - final.line.length
  · have before : s.accepted <+: gone := by
      refine prefix_of_prefix_length_le grown (served ▸ prefix_append ..) ?_
      have length := congrArg List.length served
      rw [length_append] at length
      omega
    have told' : 0 < final.signals waiter := by
      rw [signals,← told]
      exact count_pos_iff.mpr ((before.filterMap _).subset member)
    omega
  · have stopped : stage' = .stopped := by
      cases stage' with
      | stopped => rfl
      | ready =>
        simp only [stepsToLeave,leaveCost] at none'
        split at none' <;> omega
      | busy pump =>
        cases pump <;> simp only [stepsToLeave,leaveCost] at none' <;> omega
    subst stopped
    have silent : (final.line.filterMap (·.completion)).count waiter = 0 := by
      rw [line_count,line_idle answering'.stream.at'.2.1]
      intro req queued
      rw [answering'.quiet rfl req queued]
      simp
    omega

/-- In every run in which the pump never finds the session closed while an awaited request is queued: a sender whose
request was accepted has been signalled once, or not yet while its request is in the line; a stopped pump leaves no
sender waiting; and two steps of the pump for each request of the line, and one to start it, answer every sender
accepted so far, whatever else is called. -/
theorem sends_answered (maxQueueDepth : Nat) (schedule : List Action)
    (attended : Along step Attended (create maxQueueDepth) schedule) (s : Session)
    (reached : run step (create maxQueueDepth) schedule = some s) :
    (∀ waiter, s.signals waiter =
      if waiter < s.awaited ∧ ∀ req ∈ s.line, req.completion ≠ some waiter then 1 else 0) ∧
    (s.pumpRunning = false → s.scheduled = 0 → ∀ req ∈ s.writeQueue, req.completion = none) ∧
    (∀ later final, Along step Attended s later → run step s later = some final →
      2 * s.line.length + 1 ≤ pumpSteps later →
      ∀ waiter, waiter < s.awaited → final.signals waiter = 1) ∧
    ∀ req ∈ s.line, req.completion ≠ none → ∃ action, action.isPump = true ∧ (step s action).isSome := by
  obtain ⟨stage,answering⟩ := run_answering attended s reached
  have at' := answering.stream.at'
  refine ⟨?_,?_,?_,?_⟩
  · intro waiter
    have once := answering.once waiter
    by_cases waiting : ∀ req ∈ s.line, req.completion ≠ some waiter
    · rw [(line_count s waiter).mpr waiting,Nat.add_zero] at once
      rw [once]
      exact (if_congr (and_iff_left waiting) rfl rfl).symm
    have queued : (s.line.filterMap (·.completion)).count waiter ≠ 0 := fun none' =>
      waiting ((line_count s waiter).mp none')
    rw [if_neg fun both => waiting both.2]
    split at once <;> omega
  · intro off _ req queued
    cases stage with
    | stopped => exact answering.quiet rfl req queued
    | ready | busy pump => exact absurd (off.symm.trans at'.2.2) (by simp)
  · intro later final attended' runs enough waiter accepted
    obtain ⟨stage',answering',spent⟩ :=
      run_stepsToLeave answering (Nat.le_refl _) attended' runs
    have fits := answering.line_le
    have cost : stepsToLeave s.accepted.length s stage ≤ 2 * s.line.length + 1 := by
      have remaining : s.accepted.length - (s.accepted.length - s.line.length) = s.line.length := by
        omega
      rw [stepsToLeave,remaining]
      unfold leaveCost
      split
      · omega
      · split <;> omega
      · omega
      · omega
    exact answering.all_signalled answering' (run_grows answering.stream runs).2.1 (by omega) accepted
  · intro req waiting awaited
    refine answering.stream.pump_enabled ?_
    rintro rfl
    rw [line_idle at'.2.1] at waiting
    exact awaited (answering.quiet rfl req waiting)

theorem stopped_silent {schedule : List Action} (at' : s.At .stopped)
    (closed : s.isOpen = false) (runs : run step s schedule = some final) :
    final.signalled = s.signalled := by
  induction schedule generalizing s with
  | nil =>
    cases runs
    rfl
  | cons action rest ih =>
    obtain ⟨next,moved,later⟩ := run_cons.mp runs
    obtain ⟨stage',move⟩ := step_move at' moved
    cases pump : action.isPump with
    | false =>
      rw [pump] at move
      cases move with
      | refuse => exact ih at' closed later
      | admitted _ _ opened _ => exact absurd (closed.symm.trans opened) (by simp)
      | close => exact ih (s := s.close) at' rfl later
    | true =>
      rw [pump] at move
      cases move

/-- `close` between the successful completion of one write and the resumption of the pump:
the pump stops, the next request stays queued, and its sender waits for ever. -/
theorem closed_send_unanswered : ∃ s,
    run step (create 256) [.asyncSendRaw [7],.startPump,.asyncSendRaw [8],.completeWrite 0 true,
      .close,.resumePump 0] = some s ∧
    s.pumpRunning = false ∧ s.scheduled = 0 ∧ s.pumps = [] ∧ s.writeQueue = [⟨[8],some 1⟩] ∧
    ∀ later final, run step s later = some final → final.signals 1 = 0 := by
  refine ⟨_,rfl,rfl,rfl,rfl,rfl,?_⟩
  intro later final runs
  have silent := stopped_silent ⟨rfl,rfl,rfl⟩ rfl runs
  rw [signals,silent]
  rfl

def closing : List Action :=
  [.asyncSendRaw [1],.startPump,.enqueueWrite [2],.asyncSend {} [3],.close,.completeWrite 0 false,.resumePump 0]

theorem sends_answered_closing : ∃ s, Along step Attended (create 256) closing ∧
    run step (create 256) closing = some s ∧ s.awaited = 2 ∧ s.signals 0 = 1 ∧
    s.signals 1 = 1 := by
  have attended : Along step Attended (create 256) closing := by decide +kernel
  obtain ⟨s,reached,awaited,nobody⟩ : ∃ s, run step (create 256) closing = some s ∧
      s.awaited = 2 ∧ s.line = [] := by
    decide +kernel
  obtain ⟨once,_⟩ := sends_answered 256 closing attended s reached
  refine ⟨s,attended,reached,awaited,?_,?_⟩
  all_goals
    rw [once,awaited,nobody]
    decide

end ApexPipeline.Session
