import ApexPipeline.CoreEngine

/-! What the steps of the messaging model can do: each operation on a lane has its lemma, and `DrainStep` and
`LaneStep` say once what happens to the handler and to a lane. -/
namespace ApexPipeline.CoreEngine

open SpscQueue
variable {cfg : Config} {M : Type}

namespace Lane

variable (lane : Lane M)

theorem proceed_spec (moved : lane.proceed m flag point = (next,flag',posts)) :
    (flag = true → flag' = true) ∧
    (flag = false → flag' = true → next.active = some (m,.postDrain)) ∧
    (point = .exchange → flag' = true) ∧
    (point = .postDrain → posts = true) ∧
    (next.queue.items ≠ [] → lane.queue.items ≠ [] ∨ next.active = some (m,.exchange)) := by
  cases point with
  | coTry | postTry | retry =>
    simp only [proceed] at moved
    split at moved <;> cases moved <;> simp_all [append]
  | recheck =>
    simp only [proceed] at moved
    split at moved <;> cases moved <;> simp_all
  | storeHandler | setWaiting | postDrain =>
    cases moved
    simp_all [storeHandler,setWaiting,items,finish]
  | exchange =>
    simp only [proceed] at moved
    split at moved <;> cases moved <;> simp_all [finish]

structure Quiet (old new : Lane M) : Prop where
  items : new.queue.items ≠ [] → old.queue.items ≠ []
  calls : ∀ m point, old.active = some (m,point) → new.active = some (m,point)

theorem resume_quiet (resumed : lane.resume i = some next) : Quiet lane next := by
  unfold resume at resumed
  split at resumed <;> cases resumed
  all_goals
    rename_i free _
    exact ⟨fun items => items,fun m point busy => by rw [free] at busy; cases busy⟩

theorem takeWaiting_items (q : SpscQueue M M) : q.takeWaiting.2.items = q.items := by
  unfold takeWaiting
  split <;> rfl

theorem wake_items (normal : Bool) : (lane.wake normal).queue.items = lane.queue.items := by
  cases normal <;> exact takeWaiting_items lane.queue

theorem wake_quiet (normal : Bool) : Quiet lane (lane.wake normal) := by
  refine ⟨fun items => ?_,fun m point busy => busy⟩
  rwa [wake_items] at items

theorem dequeue_some (lane next : Lane M) (taken : lane.dequeue = some next) :
    ∃ m queue, lane.queue.tryDequeue = some (m,queue) ∧
      next = { lane with queue := queue, delivered := lane.delivered ++ [m] } := by
  simp only [dequeue,Option.map_eq_some_iff] at taken
  obtain ⟨⟨m,queue⟩,seen,rfl⟩ := taken
  exact ⟨m,queue,seen,rfl⟩

theorem dequeue_none : lane.dequeue = none ↔ lane.queue.items = [] := by
  rw [← lane.queue.tryDequeue_none]
  simp [dequeue]

theorem dequeue_quiet (taken : lane.dequeue = some next) : Quiet lane next := by
  obtain ⟨m,queue,seen,rfl⟩ := dequeue_some lane next taken
  refine ⟨fun _ => ?_,fun m point busy => busy⟩
  rw [(tryDequeue_some _ _ _ seen).1]
  simp

end Lane

inductive DrainStep (s : State cfg M) : State cfg M → Prop
  | skip : s.handler = .scan offset total → offset < cfg.cores → s.source offset = cfg.dst →
      DrainStep s { s with handler := .scan (offset + 1) total }
  | leave : s.handler = .scan offset total → cfg.cores ≤ offset ∨ cfg.batchLimit ≤ total → DrainStep s s.leave
  | visit : s.handler = .scan offset total → offset < cfg.cores → s.source offset ≠ cfg.dst →
      total < cfg.batchLimit → DrainStep s { s with handler := .dequeue offset total }
  | take : s.handler = .dequeue offset total → total < cfg.batchLimit →
      (s.lanes (s.source offset)).dequeue = some lane →
      DrainStep s { s.setLane (s.source offset) lane with handler := .dequeue offset (total + 1) }
  | finish : s.handler = .dequeue offset total →
      cfg.batchLimit ≤ total ∨ (s.lanes (s.source offset)).queue.items = [] →
      DrainStep s { s with handler := .notify offset total }
  | wake : s.handler = .notify offset total →
      DrainStep s { s.setLane (s.source offset) ((s.lanes (s.source offset)).wake true) with
        handler := .scan (offset + 1) total }
  | clear : s.handler = .clear → DrainStep s { s with drainPending := false, handler := .recheck 0 }
  | pass : s.handler = .recheck src.val → src = cfg.dst ∨ (s.lanes src).queue.items = [] →
      DrainStep s { s with handler := .recheck (src.val + 1) }
  | found : s.handler = .recheck src.val → src ≠ cfg.dst → (s.lanes src).queue.items ≠ [] →
      DrainStep s { s with handler := .exchange }
  | done : s.handler = .recheck i → cfg.cores ≤ i → DrainStep s { s with handler := .idle }
  | coalesce : s.handler = .exchange → s.drainPending = true → DrainStep s { s with handler := .idle }
  | win : s.handler = .exchange → s.drainPending = false →
      DrainStep s { s with drainPending := true, handler := .postDrain }
  | post : s.handler = .postDrain → DrainStep s { s with posted := s.posted + 1, handler := .idle }

theorem drain_step (s next : State cfg M) (moved : s.drain = some next) : DrainStep s next := by
  unfold State.drain at moved
  cases seen : s.handler with
  | idle => simp [seen] at moved
  | scan offset total =>
    simp only [seen] at moved
    split at moved
    · rename_i inside
      split at moved
      · cases moved
        exact .skip seen inside ‹_›
      split at moved
      · cases moved
        exact .leave seen (.inr ‹_›)
      · cases moved
        exact .visit seen inside ‹_› (by omega)
    · cases moved
      exact .leave seen (.inl (by omega))
  | dequeue offset total =>
    simp only [seen] at moved
    split at moved
    · rename_i more
      split at moved
      · cases moved
        exact .take seen more ‹_›
      · cases moved
        exact .finish seen (.inr ((Lane.dequeue_none _).mp ‹_›))
    · cases moved
      exact .finish seen (.inl (by omega))
  | notify offset total =>
    simp only [seen] at moved
    cases moved
    exact .wake seen
  | clear =>
    simp only [seen] at moved
    cases moved
    exact .clear seen
  | recheck i =>
    simp only [seen] at moved
    split at moved
    · rename_i inside
      have here : s.handler = .recheck (⟨i,inside⟩ : Fin cfg.cores).val := seen
      split at moved
      · cases moved
        exact .pass here (.inl ‹_›)
      split at moved
      · rename_i empty
        cases moved
        exact .pass here (.inr ((empty_iff _).mp empty))
      · rename_i away present
        cases moved
        exact .found here away (fun empty => present ((empty_iff _).mpr empty))
    · cases moved
      exact .done seen (by omega)
  | exchange =>
    simp only [seen] at moved
    split at moved
    · cases moved
      exact .coalesce seen ‹_›
    · cases moved
      exact .win seen (Bool.eq_false_iff.mpr ‹_›)
  | postDrain =>
    simp only [seen] at moved
    cases moved
    exact .post seen

inductive LaneStep (s : State cfg M) : Action cfg M → Fin cfg.cores → Lane M → Prop
  | coPostTo : (s.lanes src).active = none → LaneStep s (.coPostTo src m) src ((s.lanes src).begin m .coTry)
  | postTo : (s.lanes src).active = none → LaneStep s (.postTo src m) src ((s.lanes src).begin m .postTry)
  | proceed : (s.lanes src).active = some (m,point) →
      (s.lanes src).proceed m s.drainPending point = (lane,flag,posts) →
      LaneStep s (.proceed src) src lane
  | resume : (s.lanes src).resume i = some lane → LaneStep s (.resume src i) src lane
  | cancel : LaneStep s (.cancel src) src ((s.lanes src).wake false)
  | take : s.handler = .dequeue offset total → (s.lanes (s.source offset)).dequeue = some lane →
      LaneStep s .drain (s.source offset) lane
  | wake : s.handler = .notify offset total →
      LaneStep s .drain (s.source offset) ((s.lanes (s.source offset)).wake true)

theorem setLane_cases (s : State cfg M) (target src : Fin cfg.cores) (lane : Lane M) :
    (s.setLane target lane).lanes src = s.lanes src ∨ src = target ∧ (s.setLane target lane).lanes src = lane := by
  by_cases same : src = target
  · subst same
    exact .inr ⟨rfl,by simp [State.setLane]⟩
  · exact .inl (by simp [State.setLane,same])

theorem proceed_step {s next : State cfg M} (moved : step s (.proceed src) = some next) :
    ∃ m point lane flag posts, (s.lanes src).active = some (m,point) ∧
      (s.lanes src).proceed m s.drainPending point = (lane,flag,posts) ∧
      next = { s.setLane src lane with drainPending := flag, posted := s.posted + posts.toNat } := by
  simp only [step] at moved
  split at moved <;> cases moved
  rename_i m point busy
  exact ⟨m,point,_,_,_,busy,rfl,rfl⟩

theorem step_lane (s : State cfg M) (a : Action cfg M) (next : State cfg M)
    (moved : step s a = some next) (src : Fin cfg.cores) :
    next.lanes src = s.lanes src ∨ LaneStep s a src (next.lanes src) := by
  have lift (target : Fin cfg.cores) (lane : Lane M) (after : LaneStep s a target lane) :
      (s.setLane target lane).lanes src = s.lanes src ∨ LaneStep s a src ((s.setLane target lane).lanes src) := by
    rcases setLane_cases s target src lane with same | ⟨rfl,new⟩
    · exact .inl same
    · exact .inr (by rw [new]; exact after)
  cases a with
  | coPostTo target m =>
    obtain ⟨allowed,rfl⟩ := Execution.of_guard moved
    exact lift _ _ (.coPostTo (Option.isNone_iff_eq_none.mp allowed.2))
  | postTo target m =>
    obtain ⟨allowed,rfl⟩ := Execution.of_guard moved
    exact lift _ _ (.postTo (Option.isNone_iff_eq_none.mp allowed.2))
  | proceed target =>
    obtain ⟨m,point,lane,flag,posts,busy,proceeds,rfl⟩ := proceed_step moved
    exact lift _ _ (.proceed busy proceeds)
  | resume target i =>
    simp only [step,Option.map_eq_some_iff] at moved
    obtain ⟨lane,resumed,rfl⟩ := moved
    exact lift _ _ (.resume resumed)
  | cancel target =>
    cases moved
    exact lift _ _ .cancel
  | beginDrain =>
    obtain ⟨_,rfl⟩ := Execution.of_guard moved
    exact .inl rfl
  | drain =>
    cases drain_step s next moved with
    | take seen _ taken => exact lift _ _ (.take seen taken)
    | wake seen => exact lift _ _ (.wake seen)
    | _ => exact .inl rfl

end ApexPipeline.CoreEngine
