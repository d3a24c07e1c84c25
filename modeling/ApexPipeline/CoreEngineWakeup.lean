import ApexPipeline.CoreEngineDrain

/-! Waking a suspended producer. The consumer notifies at the end of each visit of a queue, and comes back only for
messages; so a producer must not finish suspending after the visit that emptied its queue. -/
namespace ApexPipeline.CoreEngine

open State Execution SpscQueue Lane
variable {cfg : Config} {M : Type}

def State.visited (s : State cfg M) : Option (Fin cfg.cores) :=
  match s.handler with
  | .dequeue offset _ | .notify offset _ => some (s.source offset)
  | _ => none

def Lane.Parked (lane : Lane M) : Prop :=
  lane.queue.producerWaiting = true ∧ lane.queue.pendingHandler.isSome = true

instance (lane : Lane M) : Decidable lane.Parked := inferInstanceAs (Decidable (_ ∧ _))

def State.Expected (s : State cfg M) (src : Fin cfg.cores) : Prop :=
  (s.lanes src).queue.empty = false ∨ s.visited = some src

instance (s : State cfg M) (src : Fin cfg.cores) : Decidable (s.Expected src) :=
  inferInstanceAs (Decidable (_ ∨ _))

/-- The condition on a step: a producer completes its suspension only while its queue still holds a message or is
being visited. -/
def Timely (s : State cfg M) : Action cfg M → Prop
  | .proceed src =>
    match (s.lanes src).active with
    | some (_,.setWaiting) => s.Expected src
    | some (_,.storeHandler) => (s.lanes src).queue.producerWaiting = true → s.Expected src
    | _ => True
  | _ => True

instance (s : State cfg M) (a : Action cfg M) : Decidable (Timely s a) :=
  match a with
  | .proceed src =>
    match seen : (s.lanes src).active with
    | some (_,.setWaiting) => decidable_of_iff (s.Expected src) (by simp [Timely,seen])
    | some (_,.storeHandler) =>
      decidable_of_iff ((s.lanes src).queue.producerWaiting = true → s.Expected src) (by simp [Timely,seen])
    | some (_,.coTry) | some (_,.postTry) | some (_,.recheck) | some (_,.retry)
    | some (_,.exchange) | some (_,.postDrain) | none => isTrue (by simp [Timely,seen])
  | .coPostTo .. | .postTo .. | .resume .. | .cancel .. | .beginDrain | .drain => isTrue trivial

namespace Lane

theorem proceed_parked (lane : Lane M)
    (moved : lane.proceed m flag point = (next,flag',posts)) (parked : next.Parked) :
    next.queue.empty = false ∨ next.queue.empty = lane.queue.empty ∧ (lane.Parked ∨ point = .setWaiting ∨
        point = .storeHandler ∧ lane.queue.producerWaiting = true) := by
  have grown (queue : SpscQueue M M) (taken : lane.queue.tryEnqueue m = some queue) : queue.empty = false := by
    rw [Bool.eq_false_iff,ne_eq,empty_iff,(tryEnqueue_some _ taken).2.1]
    simp
  cases point with
  | coTry | postTry | retry =>
    simp only [proceed] at moved
    split at moved <;> cases moved
    · exact .inl (grown _ ‹_›)
    · exact .inr ⟨rfl,.inl parked⟩
  | recheck | exchange =>
    simp only [proceed] at moved
    split at moved <;> cases moved <;> exact .inr ⟨rfl,.inl parked⟩
  | storeHandler =>
    cases moved
    exact .inr ⟨rfl,.inr (.inr ⟨rfl,parked.1⟩)⟩
  | setWaiting =>
    cases moved
    exact .inr ⟨rfl,.inr (.inl rfl)⟩
  | postDrain =>
    cases moved
    exact .inr ⟨rfl,.inl parked⟩

theorem wake_unparked (lane : Lane M) (normal : Bool) : ¬(lane.wake normal).Parked := by
  intro parked
  have taken : lane.queue.takeWaiting.2.producerWaiting = true := by
    cases normal <;> exact parked.1
  unfold takeWaiting at taken
  split at taken
  · cases taken
  · exact absurd taken ‹_›

end Lane

def Attended (s : State cfg M) : Prop := ∀ src, (s.lanes src).Parked → s.Expected src

theorem setLane_attended (attended : Attended s)
    (kept : lane.Parked → lane.queue.empty = false ∨ s.visited = some src) :
    Attended (s.setLane src lane) := by
  intro other parked
  rcases setLane_cases s src other lane with same | ⟨rfl,new⟩
  · simp only [same,State.Expected] at parked ⊢
    exact attended other parked
  · simp only [new,State.Expected] at parked ⊢
    exact kept parked

theorem drain_attended (s next : State cfg M) (attended : Attended s) (moved : DrainStep s next) :
    Attended next := by
  have unvisited (none' : s.visited = none) (src : Fin cfg.cores) (parked : (s.lanes src).Parked) :
      (s.lanes src).queue.empty = false := by
    rcases attended src parked with queued | visited
    · exact queued
    · rw [none'] at visited
      cases visited
  cases moved with
  | skip seen | leave seen | visit seen =>
    intro src parked
    exact .inl (unvisited (by simp [State.visited,seen]) src parked)
  | @take offset total lane seen _ taken =>
    intro other parked
    have visited : s.visited = some (s.source offset) := by simp [State.visited,seen]
    rcases setLane_cases s (s.source offset) other lane with same | ⟨rfl,new⟩
    · simp only [same,State.Expected] at parked ⊢
      rcases attended other parked with queued | here
      · exact .inl queued
      · rw [visited] at here
        exact .inr here
    · exact .inr rfl
  | finish seen =>
    intro src parked
    rcases attended src parked with queued | visited
    · exact .inl queued
    · simp only [State.visited,seen] at visited
      exact .inr visited
  | @wake offset total seen =>
    intro other parked
    rcases setLane_cases s (s.source offset) other ((s.lanes (s.source offset)).wake true) with
      same | ⟨rfl,new⟩
    · simp only [same,State.Expected] at parked ⊢
      rcases attended other parked with queued | visited
      · exact .inl queued
      simp only [State.visited,seen] at visited
      cases visited
      rw [← same] at parked
      simp only [State.setLane,Function.update_self] at parked
      exact absurd parked (wake_unparked _ true)
    · rw [new] at parked
      exact absurd parked (wake_unparked _ true)
  | clear seen | pass seen | found seen | done seen | coalesce seen | win seen | post seen =>
    intro src parked
    exact .inl (unvisited (by simp [State.visited,seen]) src parked)

section
variable (s : State cfg M)

section
variable (a : Action cfg M) (next : State cfg M)

theorem step_attended (attended : Attended s) (timely : Timely s a) (moved : step s a = some next) :
    Attended next := by
  cases a with
  | coPostTo src m | postTo src m =>
    obtain ⟨_,rfl⟩ := of_guard moved
    exact setLane_attended attended (attended src)
  | proceed src =>
    obtain ⟨m,point,lane,flag,posts,busy,proceeds,rfl⟩ := proceed_step moved
    refine setLane_attended attended fun parked => ?_
    rcases proceed_parked _ proceeds parked with
      queued | ⟨same,before | rfl | ⟨rfl,waiting⟩⟩
    · exact .inl queued
    · rw [same]
      exact attended src before
    · rw [same]
      simp only [Timely,busy] at timely
      exact timely
    · rw [same]
      simp only [Timely,busy] at timely
      exact timely waiting
  | resume src i =>
    simp only [step,Option.map_eq_some_iff] at moved
    obtain ⟨lane,resumed,rfl⟩ := moved
    refine setLane_attended attended fun parked => ?_
    unfold resume at resumed
    split at resumed <;> cases resumed <;> exact attended src parked
  | cancel src =>
    cases moved
    exact setLane_attended attended fun parked => absurd parked (wake_unparked _ false)
  | beginDrain =>
    obtain ⟨ready,rfl⟩ := of_guard moved
    intro src parked
    rcases attended src parked with queued | visited
    · exact .inl queued
    · simp [State.visited,ready.1] at visited
  | drain => exact drain_attended s next attended (drain_step s next moved)

/-- Steps that finish what is already under way: the destination core's own, and
those of a core inside `schedule_drain`. -/
def Owed (s : State cfg M) : Action cfg M → Prop
  | .beginDrain | .drain => True
  | .proceed src => ∃ m, (s.lanes src).active = some (m,.exchange) ∨ (s.lanes src).active = some (m,.postDrain)
  | _ => False

def WillNotify (s : State cfg M) (src : Fin cfg.cores) : Prop :=
  ∃ schedule final offset total, Execution.Along step Owed s schedule ∧
    Execution.run step s schedule = some final ∧ final.handler = .notify offset total ∧
    final.source offset = src

theorem WillNotify.after (s next : State cfg M) (src : Fin cfg.cores) (a : Action cfg M)
    (owed : Owed s a) (moved : step s a = some next) (later : WillNotify next src) :
    WillNotify s src := by
  obtain ⟨schedule,final,offset,total,along,runs,handler,source⟩ := later
  refine ⟨a :: schedule,final,offset,total,⟨owed,?_⟩,?_,handler,source⟩
  · intro other moved'
    rw [moved] at moved'
    cases moved'
    exact along
  · exact run_cons.mpr ⟨next,moved,runs⟩

theorem notify_now (offset total : Nat) (seen : s.handler = .notify offset total) :
    WillNotify s (s.source offset) :=
  ⟨[],s,offset,total,trivial,rfl,seen,rfl⟩

theorem visit_notifies (src : Fin cfg.cores) (visited : s.visited = some src) :
    WillNotify s src := by
  induction size : (s.lanes src).queue.items.length using Nat.strongRecOn generalizing s with
  | ind n ih =>
    cases seen : s.handler with
    | notify offset total =>
      simp only [State.visited,seen] at visited
      cases visited
      exact notify_now s offset total seen
    | dequeue offset total =>
      simp only [State.visited,seen] at visited
      cases visited
      by_cases more : total < cfg.batchLimit
      · cases taken : (s.lanes (s.source offset)).dequeue with
        | some lane =>
          have moved : step s .drain = some { s.setLane (s.source offset) lane with
              handler := .dequeue offset (total + 1) } := by
            simp [step,State.drain,seen,more,taken]
          obtain ⟨m,queue,dequeued,rfl⟩ := dequeue_some _ _ taken
          have items := (tryDequeue_some _ _ _ dequeued).1
          refine WillNotify.after s _ _ .drain trivial moved (ih _ ?_ _ rfl rfl)
          rw [items] at size
          simp only [State.setLane,Function.update_self,List.length_cons] at size ⊢
          omega
        | none =>
          refine WillNotify.after s { s with handler := .notify offset total } _ .drain trivial ?_
            (notify_now _ offset total rfl)
          simp [step,State.drain,seen,more,taken]
      · refine WillNotify.after s { s with handler := .notify offset total } _ .drain trivial ?_
          (notify_now _ offset total rfl)
        simp [step,State.drain,seen,more]
    | _ => simp [State.visited,seen] at visited

def InRange (s : State cfg M) : Prop :=
  ∀ offset total, s.handler = .dequeue offset total ∨ s.handler = .notify offset total → offset < cfg.cores

theorem step_inRange (inRange : InRange s)
    (moved : step s a = some next) : InRange next := by
  have kept (handler : Handler) (same : next.handler = handler)
      (outside : ∀ offset total, handler ≠ .dequeue offset total ∧ handler ≠ .notify offset total) :
      InRange next := by
    intro offset total visits
    rw [same] at visits
    rcases visits with visits | visits
    · exact absurd visits (outside offset total).1
    · exact absurd visits (outside offset total).2
  cases a with
  | coPostTo src m | postTo src m =>
    obtain ⟨_,rfl⟩ := of_guard moved
    exact inRange
  | proceed src =>
    obtain ⟨m,point,lane,flag,posts,busy,proceeds,rfl⟩ := proceed_step moved
    exact inRange
  | resume src i =>
    simp only [step,Option.map_eq_some_iff] at moved
    obtain ⟨lane,resumed,rfl⟩ := moved
    exact inRange
  | cancel src =>
    cases moved
    exact inRange
  | beginDrain =>
    obtain ⟨_,rfl⟩ := of_guard moved
    exact kept _ rfl (by simp)
  | drain =>
    cases drain_step s next moved with
    | visit seen inside =>
      intro offset total visits
      simp only [Handler.dequeue.injEq,reduceCtorEq,or_false] at visits
      omega
    | take seen | finish seen =>
      have inside := inRange _ _ (.inl seen)
      intro offset total visits
      simp only [Handler.dequeue.injEq,Handler.notify.injEq,reduceCtorEq,or_false,false_or] at visits
      omega
    | _ => exact kept _ rfl (by simp [leave])

end

def State.backlog (s : State cfg M) : Nat := ∑ src, (s.lanes src).queue.items.length

def turn (rotate : Nat) (src : Fin cfg.cores) : Nat :=
  (src + (cfg.cores - rotate % cfg.cores)) % cfg.cores

theorem source_turn (src : Fin cfg.cores) : s.source (turn s.rotate src) = src := by
  have positive := Nat.zero_lt_of_lt src.isLt
  have low := Nat.mod_lt s.rotate positive
  have split := Nat.div_add_mod s.rotate cfg.cores
  apply Fin.ext
  simp only [source,turn,Nat.add_mod_mod]
  have whole : s.rotate + (src.val + (cfg.cores - s.rotate % cfg.cores)) =
      src.val + cfg.cores * (s.rotate / cfg.cores + 1) := by
    rw [Nat.mul_add_one]
    omega
  rw [whole,Nat.add_mul_mod_self_left,Nat.mod_eq_of_lt src.isLt]

/-- What a scan costs beyond its own steps, unless it is certain to come by. -/
def detour (rotate : Nat) (src : Fin cfg.cores) (offset total : Nat) : Nat :=
  if total = 0 ∧ offset ≤ turn rotate src then 0 else 4 * cfg.cores + 10

section
variable (rotate : Nat) (src : Fin cfg.cores) (offset total : Nat)

theorem detour_next (other : offset ≠ turn rotate src) :
    detour rotate src (offset + 1) total ≤ detour rotate src offset total := by
  unfold detour
  split <;> split <;> omega

theorem detour_late (late : turn rotate src < offset ∨ total ≠ 0) :
    detour rotate src offset total = 4 * cfg.cores + 10 :=
  if_neg (by omega)

end

/-- How far the handler is from this source, while no message is taken out: within a scan that is certain to come by,
then through a new posting of the handler, then through the rest of a scan that may stop before. -/
def State.distance (s : State cfg M) (src : Fin cfg.cores) : Nat :=
  match s.handler with
  | .scan offset total => 3 * (cfg.cores - offset) + 2 + detour s.rotate src offset total
  | .dequeue offset total => 3 * (cfg.cores - offset) + 1 + detour s.rotate src offset total
  | .notify offset total => 3 * (cfg.cores - offset) + detour s.rotate src offset total
  | .idle => 3 * cfg.cores + 3 + if 0 < s.posted then 0 else if s.drainPending then 1 else 2
  | .postDrain => 3 * cfg.cores + 6
  | .exchange => 3 * cfg.cores + 7
  | .recheck i => 3 * cfg.cores + 8 + (cfg.cores - i)
  | .clear => 4 * cfg.cores + 9

theorem backlog_take {s : State cfg M} {src : Fin cfg.cores} {lane : Lane M}
    (taken : (s.lanes src).dequeue = some lane) : (s.setLane src lane).backlog < s.backlog := by
  obtain ⟨m,queue,dequeued,rfl⟩ := dequeue_some _ _ taken
  have items := (tryDequeue_some _ _ _ dequeued).1
  apply Finset.sum_lt_sum
  · intro other _
    by_cases same : other = src
    · subst same
      simp [setLane,items]
    · simp [setLane,same]
  · exact ⟨src,Finset.mem_univ _,by simp [setLane,items]⟩

theorem backlog_setLane (src : Fin cfg.cores) (lane : Lane M)
    (same : lane.queue.items = (s.lanes src).queue.items) :
    (s.setLane src lane).backlog = s.backlog := by
  apply Finset.sum_congr rfl
  intro other _
  by_cases here : other = src
  · subst here
    simp [setLane,same]
  · simp [setLane,here]

end

def Closer (s : State cfg M) (src : Fin cfg.cores) : Prop :=
  ∃ a next, Owed s a ∧ step s a = some next ∧ (next.lanes src).queue.items ≠ [] ∧
    (next.backlog < s.backlog ∨ next.backlog = s.backlog ∧ next.distance src < s.distance src)

theorem Closer.handler (s next : State cfg M) (src : Fin cfg.cores)
    (queued : (s.lanes src).queue.items ≠ []) (moved : s.drain = some next)
    (lanes : next.lanes = s.lanes) (closer : next.distance src < s.distance src) :
    Closer s src := by
  refine ⟨.drain,next,trivial,moved,by rw [lanes]; exact queued,.inr ⟨?_,closer⟩⟩
  simp only [backlog,lanes]

theorem idle_closer (covered : Covered s)
    (away : src ≠ cfg.dst) (queued : (s.lanes src).queue.items ≠ []) (seen : s.handler = .idle) :
    Closer s src := by
  by_cases posted : 0 < s.posted
  · refine ⟨.beginDrain,{ s with posted := s.posted - 1, handler := .scan 0 0 },trivial,
      by simp [step,seen,posted],queued,.inr ⟨rfl,?_⟩⟩
    simp [distance,detour,seen,posted]
  cases flag : s.drainPending with
  | true =>
    -- the flag is set, nothing is posted: some core is about to post
    rcases covered.announced flag with some' | draining | handler | ⟨core,m,busy⟩
    · exact absurd some' posted
    · simp [seen,Handler.Draining] at draining
    · simp [seen] at handler
    have same := backlog_setLane s core ((s.lanes core).finish m) rfl
    refine ⟨.proceed core,{ s.setLane core ((s.lanes core).finish m) with posted := s.posted + 1 },
      ⟨m,.inr busy⟩,by simp [step,busy,proceed,setLane],?_,.inr ⟨same,?_⟩⟩
    · rcases setLane_cases s core src ((s.lanes core).finish m) with old | ⟨rfl,new⟩
      · simpa only [old] using queued
      · simp only [new]
        exact queued
    · simp [distance,setLane,seen,posted,flag]
  | false =>
    -- the flag is clear: the producer of this queue is before its exchange
    rcases covered.noticed src away queued with set | looks | ⟨m,busy⟩
    · rw [flag] at set
      cases set
    · simp [seen,Handler.Looks] at looks
    have same := backlog_setLane s src { s.lanes src with active := some (m,.postDrain) } rfl
    refine ⟨.proceed src,{ s.setLane src { s.lanes src with active := some (m,.postDrain) } with
      drainPending := true },⟨m,.inl busy⟩,by simp [step,busy,proceed,flag,setLane],?_,
      .inr ⟨same,?_⟩⟩
    · simpa [setLane] using queued
    · simp [distance,setLane,seen,posted,flag]

theorem scan_closer (limit : 0 < cfg.batchLimit) (away : src ≠ cfg.dst) (queued : (s.lanes src).queue.items ≠ [])
    (seen : s.handler = .scan offset total) : Closer s src := by
  have here := source_turn s src
  by_cases inside : offset < cfg.cores
  · by_cases own : s.source offset = cfg.dst
    · have other : offset ≠ turn s.rotate src := by
        rintro rfl
        exact away (here.symm.trans own)
      have cheaper := detour_next s.rotate src offset total other
      refine Closer.handler s { s with handler := .scan (offset + 1) total } src queued
        (by simp [drain,seen,inside,own]) rfl ?_
      simp only [distance,seen]
      omega
    · by_cases full : cfg.batchLimit ≤ total
      · have late : total ≠ 0 := by omega
        refine Closer.handler s s.leave src queued (by simp [drain,seen,inside,own,full]) rfl ?_
        simp only [distance,leave,seen,detour_late _ _ _ _ (.inr late)]
        omega
      · refine Closer.handler s { s with handler := .dequeue offset total } src queued
          (by simp [drain,seen,inside,own,full]) rfl ?_
        simp only [distance,seen]
        omega
  · have late : turn s.rotate src < offset :=
      Nat.lt_of_lt_of_le (Nat.mod_lt _ (Nat.zero_lt_of_lt src.isLt)) (Nat.not_lt.mp inside)
    refine Closer.handler s s.leave src queued (by simp [drain,seen,inside]) rfl ?_
    simp only [distance,leave,seen,detour_late _ _ _ _ (.inl late)]
    omega

theorem visit_closer (s : State cfg M) (inRange : InRange s) (src : Fin cfg.cores)
    (queued : (s.lanes src).queue.items ≠ []) (elsewhere : s.source offset ≠ src)
    (seen : s.handler = .dequeue offset total ∨ s.handler = .notify offset total) :
    Closer s src := by
  have inside := inRange offset total seen
  have here := source_turn s src
  have other : offset ≠ turn s.rotate src := by
    rintro rfl
    exact elsewhere here
  have cheaper := detour_next s.rotate src offset total other
  have kept (lane : Lane M) : ((s.setLane (s.source offset) lane).lanes src) = s.lanes src := by
    simp [setLane,Function.update_of_ne elsewhere.symm]
  rcases seen with seen | seen
  · by_cases more : total < cfg.batchLimit
    · cases taken : (s.lanes (s.source offset)).dequeue with
      | some lane =>
        refine ⟨.drain,{ s.setLane (s.source offset) lane with handler := .dequeue offset (total + 1) },
          trivial,by simp [step,drain,seen,more,taken],?_,.inl (backlog_take taken)⟩
        simpa only [kept] using queued
      | none =>
        refine Closer.handler s { s with handler := .notify offset total } src queued
          (by simp [drain,seen,more,taken]) rfl ?_
        simp only [distance,seen]
        omega
    · refine Closer.handler s { s with handler := .notify offset total } src queued
        (by simp [drain,seen,more]) rfl ?_
      simp only [distance,seen]
      omega
  · have same := backlog_setLane s (s.source offset) ((s.lanes (s.source offset)).wake true)
      (wake_items _ true)
    refine ⟨.drain,{ s.setLane (s.source offset) ((s.lanes (s.source offset)).wake true) with
      handler := .scan (offset + 1) total },trivial,by simp [step,drain,seen],?_,.inr ⟨same,?_⟩⟩
    · simpa only [kept] using queued
    · simp only [distance,setLane,seen]
      omega

theorem recheck_closer (s : State cfg M) (src : Fin cfg.cores)
    (queued : (s.lanes src).queue.items ≠ []) (seen : s.handler = .recheck i) : Closer s src := by
  by_cases inside : i < cfg.cores
  · by_cases passes : ⟨i,inside⟩ = cfg.dst ∨ (s.lanes ⟨i,inside⟩).queue.empty = true
    · refine Closer.handler s { s with handler := .recheck (i + 1) } src queued ?_ rfl ?_
      · rcases passes with own | empty
        · simp [drain,seen,inside,own]
        · simp [drain,seen,inside,empty]
      · simp only [distance,seen]
        omega
    · obtain ⟨other,present⟩ := not_or.mp passes
      refine Closer.handler s { s with handler := .exchange } src queued
        (by simp [drain,seen,inside,other,present]) rfl ?_
      simp only [distance,seen]
      omega
  · refine Closer.handler s { s with handler := .idle } src queued (by simp [drain,seen,inside]) rfl ?_
    simp only [distance,seen]
    split
    · omega
    · split <;> omega

theorem exchange_closer
    (queued : (s.lanes src).queue.items ≠ []) (seen : s.handler = .exchange) : Closer s src := by
  cases flag : s.drainPending with
  | true =>
    refine Closer.handler s { s with handler := .idle } src queued (by simp [drain,seen,flag]) rfl ?_
    simp only [distance,seen,flag,if_true]
    split <;> omega
  | false =>
    refine Closer.handler s { s with drainPending := true, handler := .postDrain } src queued
      (by simp [drain,seen,flag]) rfl ?_
    simp only [distance,seen]
    omega

section
variable (limit : 0 < cfg.batchLimit) (s : State cfg M) (covered : Covered s) (inRange : InRange s) (src : Fin cfg.cores)
include limit covered inRange

variable (away : src ≠ cfg.dst) (queued : (s.lanes src).queue.items ≠ [])
include away queued

theorem owed_closer (elsewhere : s.visited ≠ some src) :
    Closer s src := by
  cases seen : s.handler with
  | idle => exact idle_closer covered away queued seen
  | scan offset total => exact scan_closer limit away queued seen
  | dequeue offset total =>
    simp only [visited,seen,ne_eq,Option.some.injEq] at elsewhere
    exact visit_closer s inRange src queued elsewhere (.inl seen)
  | notify offset total =>
    simp only [visited,seen,ne_eq,Option.some.injEq] at elsewhere
    exact visit_closer s inRange src queued elsewhere (.inr seen)
  | clear =>
    refine Closer.handler s { s with drainPending := false, handler := .recheck 0 } src queued
      (by simp [drain,seen]) rfl ?_
    simp only [distance,seen]
    omega
  | recheck i => exact recheck_closer s src queued seen
  | exchange => exact exchange_closer queued seen
  | postDrain =>
    refine Closer.handler s { s with posted := s.posted + 1, handler := .idle } src queued
      (by simp [drain,seen]) rfl ?_
    simp [distance,seen]

theorem queued_notifies : WillNotify s src := by
  induction all : s.backlog using Nat.strongRecOn generalizing s with
  | ind n outer =>
    induction far : s.distance src using Nat.strongRecOn generalizing s with
    | ind k inner =>
      by_cases here : s.visited = some src
      · exact visit_notifies s src here
      obtain ⟨a,next,owed,moved,left,fewer | ⟨same,closer⟩⟩ :=
        owed_closer limit s covered inRange src away queued here
      · exact .after s next src a owed moved (outer _ (by omega) next
          (step_covered s a next covered moved) (step_inRange s a next inRange moved) left rfl)
      · exact .after s next src a owed moved (inner _ (by omega) next
          (step_covered s a next covered moved) (step_inRange s a next inRange moved) left
          (same.trans all) rfl)

end

/-- In every run whose steps are all timely, a parked producer is never forgotten:
steps that are already owed lead to the notification of its queue. -/
theorem no_lost_wakeup (cfg : Config) (limit : 0 < cfg.batchLimit)
    (queues : Fin cfg.cores → SpscQueue M M) (requested : Nat) (word : requested < 2^64)
    (slots : Fin cfg.cores → Nat → M)
    (created : ∀ src, SpscQueue.create requested word (slots src) = some (queues src))
    (schedule : List (Action cfg M)) (s : State cfg M)
    (timely : Execution.Along step Timely (start cfg queues) schedule)
    (runs : Execution.run step (start cfg queues) schedule = some s) (src : Fin cfg.cores)
    (away : src ≠ cfg.dst) (parked : (s.lanes src).Parked) : WillNotify s src := by
  have fresh (src : Fin cfg.cores) := create_items _ _ _ _ (created src)
  have covered := run_invariant Covered step_covered (start_covered fun src => (fresh src).1) runs
  have inRange := run_invariant InRange step_inRange
    (fun _ _ visits => by rcases visits with visits | visits <;> cases visits) runs
  have initial : Attended (start cfg queues) := by
    intro src parked
    have idle := (fresh src).2.1
    rw [show (queues src).producerWaiting = true from parked.1] at idle
    cases idle
  rcases run_guarded step Timely Attended step_attended initial timely runs src parked with
    queued | visited
  · refine queued_notifies limit s covered inRange src away fun none' => ?_
    rw [(empty_iff _).mpr none'] at queued
    cases queued
  · exact visit_notifies s src visited

theorem settled_never_notifies {s : State cfg M} (src : Fin cfg.cores) (posted : s.posted = 0)
    (seen : s.handler = .idle) (quiet : ∀ core, (s.lanes core).active = none) :
    ¬WillNotify s src := by
  rintro ⟨schedule,final,offset,total,along,runs,handler,_⟩
  cases schedule with
  | nil =>
    cases runs
    rw [seen] at handler
    cases handler
  | cons a rest =>
    obtain ⟨next,moved,_⟩ := run_cons.mp runs
    have owed := along.1
    cases a with
    | beginDrain => simp [step,posted] at moved
    | drain => simp [step,drain,seen] at moved
    | proceed core => simp [step,quiet core] at moved
    | _ => exact owed

def straddled : List (Action pair Nat) :=
  send 1 ++ .coPostTo sender 2 :: List.replicate 3 (.proceed sender) ++
    .beginDrain :: List.replicate 10 .drain ++ [.proceed sender]

/-- A lost wake-up: the producer is parked on an empty queue, and nothing that is under
way will notify it. -/
theorem wakeup_lost : ∃ s, Execution.run step (start pair fun _ => slot) straddled = some s ∧
    (s.lanes sender).Parked ∧ (s.lanes sender).ready = [] ∧ (s.lanes sender).queue.empty = true ∧
    s.drainPending = false ∧ ¬WillNotify s sender := by
  obtain ⟨s,runs,parked,ready,empty,flag,posted,idle,quiet⟩ :
      ∃ s, run step (start pair fun _ => slot) straddled = some s ∧ (s.lanes sender).Parked ∧
        (s.lanes sender).ready = [] ∧ (s.lanes sender).queue.empty = true ∧ s.drainPending = false ∧
        s.posted = 0 ∧ s.handler = .idle ∧ ∀ core, (s.lanes core).active = none := by
    decide +kernel
  exact ⟨s,runs,parked,ready,empty,flag,settled_never_notifies sender posted idle quiet⟩

theorem no_lost_wakeup_parked : ∃ s,Execution.run step (start pair fun _ => slot) (send 1 ++ park 2) = some s ∧
      (s.lanes sender).Parked ∧ WillNotify s sender := by
  obtain ⟨s,runs,parked⟩ : ∃ s,run step (start pair fun _ => slot) (send 1 ++ park 2) = some s ∧
        (s.lanes sender).Parked := by
    decide +kernel
  have timely : Execution.Along step Timely (start pair fun _ => slot) (send 1 ++ park 2) := by
    decide +kernel
  exact ⟨s,runs,parked,no_lost_wakeup pair (by decide) (fun _ => slot) 1 (by decide) (fun _ _ => 0)
    (fun _ => rfl) _ s timely runs sender (by decide) parked⟩

end ApexPipeline.CoreEngine
