import ApexPipeline.CoreEngineSteps

/-! Drain requests are coalesced through one flag. Whoever sets it owes a drain handler until it is posted, whoever
appends a message owes an exchange of the flag, and a handler that clears it owes a look at every queue. These debts
keep a message from being stranded. -/
namespace ApexPipeline.CoreEngine
variable {cfg : Config} {M : Type}

def Handler.Draining : Handler → Prop
  | .scan .. | .dequeue .. | .notify .. | .clear => True
  | _ => False

/-- The handler has cleared the flag and will still look at this queue, or has found
a queue that is not empty. -/
def Handler.Looks (src : Nat) : Handler → Prop
  | .recheck i => i ≤ src
  | .exchange => True
  | _ => False

def State.Posting (s : State cfg M) : Prop :=
  s.handler = .postDrain ∨ ∃ src m, (s.lanes src).active = some (m,.postDrain)

structure Covered (s : State cfg M) : Prop where
  announced : s.drainPending = true → 0 < s.posted ∨ s.handler.Draining ∨ s.Posting
  noticed : ∀ src, src ≠ cfg.dst → (s.lanes src).queue.items ≠ [] →
    s.drainPending = true ∨ s.handler.Looks src ∨ ∃ m, (s.lanes src).active = some (m,.exchange)

theorem Covered.setLane (covered : Covered s)
    (quiet : (s.lanes src).Quiet lane) : Covered (s.setLane src lane) := by
  constructor
  · intro flag
    rcases covered.announced flag with posted | draining | handler | ⟨other,m,busy⟩
    · exact .inl posted
    · exact .inr (.inl draining)
    · exact .inr (.inr (.inl handler))
    refine .inr (.inr (.inr ⟨other,m,?_⟩))
    by_cases same : other = src
    · subst same
      simpa [State.setLane] using quiet.calls m _ busy
    · simpa [State.setLane,same] using busy
  · intro other away items
    by_cases same : other = src
    · subst same
      simp only [State.setLane,Function.update_self] at items ⊢
      rcases covered.noticed other away (quiet.items items) with flag | looks | ⟨m,busy⟩
      · exact .inl flag
      · exact .inr (.inl looks)
      · exact .inr (.inr ⟨m,quiet.calls m _ busy⟩)
    · simp only [State.setLane,Function.update_of_ne same] at items ⊢
      exact covered.noticed other away items

theorem Covered.draining (covered : Covered s) (before : s.handler.Draining)
    (next : Handler) (after : next.Draining) (rotate : Nat) :
    Covered { s with handler := next, rotate := rotate } := by
  constructor
  · intro _
    exact .inr (.inl after)
  · intro src away items
    rcases covered.noticed src away items with flag | looks | busy
    · exact .inl flag
    · cases seen : s.handler <;> simp_all [Handler.Draining,Handler.Looks]
    · exact .inr (.inr busy)

theorem Covered.elsewhere {s : State cfg M} (covered : Covered s) (set : s.drainPending = true)
    (settled : ¬s.handler.Draining) (posts : s.handler ≠ .postDrain) (next : Handler) :
    0 < s.posted ∨ next.Draining ∨ State.Posting { s with handler := next } := by
  rcases covered.announced set with posted | draining | handler | busy
  · exact .inl posted
  · exact absurd draining settled
  · exact absurd handler posts
  · exact .inr (.inr (.inr busy))

theorem Covered.settled {s : State cfg M} (covered : Covered s) (settled : ¬s.handler.Draining)
    (posts : s.handler ≠ .postDrain) (next : Handler)
    (noticed : ∀ src, src ≠ cfg.dst → (s.lanes src).queue.items ≠ [] → s.handler.Looks src →
      next.Looks src) : Covered { s with handler := next } := by
  refine ⟨fun set => covered.elsewhere set settled posts next,fun src away items => ?_⟩
  rcases covered.noticed src away items with set | looks | busy
  · exact .inl set
  · exact .inr (.inl (noticed src away items looks))
  · exact .inr (.inr busy)

theorem proceed_covered (covered : Covered s) (busy : (s.lanes src).active = some (m,point))
    (moved : (s.lanes src).proceed m s.drainPending point = (lane,flag,posts)) :
    Covered { s.setLane src lane with drainPending := flag, posted := s.posted + posts.toNat } := by
  obtain ⟨kept,won,exchanged,posted,appended⟩ := Lane.proceed_spec _ moved
  constructor
  · intro set
    simp only at set
    cases before : s.drainPending with
    | false =>
      refine .inr (.inr (.inr ⟨src,m,?_⟩))
      simpa [State.setLane] using won before set
    | true =>
      rcases covered.announced before with posts' | draining | handler | ⟨other,m',busy'⟩
      · exact .inl (Nat.lt_of_lt_of_le posts' (Nat.le_add_right _ _))
      · exact .inr (.inl draining)
      · exact .inr (.inr (.inl handler))
      by_cases same : other = src
      · subst same
        rw [busy] at busy'
        cases busy'
        simp [posted rfl]
      · refine .inr (.inr (.inr ⟨other,m',?_⟩))
        simpa [State.setLane,same] using busy'
  · intro other away items
    have later : s.drainPending = true → flag = true := kept
    by_cases same : other = src
    · subst same
      simp only [State.setLane,Function.update_self] at items ⊢
      rcases appended items with old | fresh
      · rcases covered.noticed other away old with set | looks | ⟨m',busy'⟩
        · exact .inl (later set)
        · exact .inr (.inl looks)
        · rw [busy] at busy'
          cases busy'
          exact .inl (exchanged rfl)
      · exact .inr (.inr ⟨m,fresh⟩)
    · simp only [State.setLane,Function.update_of_ne same] at items ⊢
      rcases covered.noticed other away items with set | rest
      · exact .inl (later set)
      · exact .inr rest

theorem drain_covered (covered : Covered s) (moved : DrainStep s next) : Covered next := by
  cases moved with
  | skip seen | leave seen | visit seen | finish seen =>
    exact covered.draining (by simp [seen,Handler.Draining]) _ (by trivial) _
  | take seen _ taken =>
    exact (covered.setLane (Lane.dequeue_quiet _ taken)).draining
      (by simp [State.setLane,seen,Handler.Draining]) _ (by trivial) s.rotate
  | wake seen =>
    exact (covered.setLane (Lane.wake_quiet _ true)).draining
      (by simp [State.setLane,seen,Handler.Draining]) _ (by trivial) s.rotate
  | clear seen =>
    constructor
    · intro set
      cases set
    · intro src _ _
      exact .inr (.inl (Nat.zero_le _))
  | @pass src seen passes =>
    refine covered.settled (by simp [seen,Handler.Draining]) (by simp [seen]) _ ?_
    intro other away items looks
    simp only [seen,Handler.Looks] at looks ⊢
    rcases Nat.lt_or_eq_of_le looks with later | here
    · exact later
    rcases passes with dst | empty
    · exact absurd (Fin.ext here.symm |>.trans dst) away
    · rw [Fin.ext here] at empty
      exact absurd empty items
  | found seen away present =>
    exact covered.settled (by simp [seen,Handler.Draining]) (by simp [seen]) _
      fun _ _ _ _ => trivial
  | done seen last =>
    refine covered.settled (by simp [seen,Handler.Draining]) (by simp [seen]) _ ?_
    intro other away items looks
    have bound := other.isLt
    simp only [seen,Handler.Looks] at looks
    omega
  | coalesce seen set =>
    constructor
    · intro set
      exact covered.elsewhere set (by simp [seen,Handler.Draining]) (by simp [seen]) _
    · intro _ _ _
      exact .inl set
  | win seen clear =>
    exact ⟨fun _ => .inr (.inr (.inl rfl)),fun _ _ _ => .inl rfl⟩
  | post seen =>
    refine ⟨fun _ => .inl (Nat.succ_pos _),fun other away items => ?_⟩
    rcases covered.noticed other away items with set | looks | busy
    · exact .inl set
    · simp [seen,Handler.Looks] at looks
    · exact .inr (.inr busy)

theorem step_covered (s : State cfg M) (a : Action cfg M) (next : State cfg M) (covered : Covered s)
    (moved : step s a = some next) : Covered next := by
  cases a with
  | coPostTo src m | postTo src m =>
    obtain ⟨allowed,rfl⟩ := Execution.of_guard moved
    refine covered.setLane ⟨fun items => items,fun _ _ busy => ?_⟩
    simp [busy] at allowed
  | proceed src =>
    obtain ⟨m,point,lane,flag,posts,busy,proceeds,rfl⟩ := proceed_step moved
    exact proceed_covered covered busy proceeds
  | resume src i =>
    simp only [step,Option.map_eq_some_iff] at moved
    obtain ⟨lane,resumed,rfl⟩ := moved
    exact covered.setLane (Lane.resume_quiet _ resumed)
  | cancel src =>
    cases moved
    exact covered.setLane (Lane.wake_quiet _ false)
  | beginDrain =>
    obtain ⟨ready,rfl⟩ := Execution.of_guard moved
    refine ⟨fun _ => .inr (.inl trivial),fun src away items => ?_⟩
    rcases covered.noticed src away items with set | looks | busy
    · exact .inl set
    · simp [ready.1,Handler.Looks] at looks
    · exact .inr (.inr busy)
  | drain => exact drain_covered covered (drain_step s next moved)

theorem start_covered {cfg : Config} {queues : Fin cfg.cores → SpscQueue M M}
    (empty : ∀ src, (queues src).items = []) : Covered (start cfg queues) := by
  constructor
  · intro set
    cases set
  · intro src _ items
    exact absurd (empty src) items

/-- The handler has yet to look at this queue: it is draining, or its re-check has
not come by. -/
def Handler.Unpassed (src : Nat) : Handler → Prop
  | .scan .. | .dequeue .. | .notify .. | .clear => True
  | .recheck i => i ≤ src
  | _ => False

/-- No message is stranded. Somebody is about to drain a queue that is not empty: a posted handler, a running one
before its re-check, the producer before its exchange, or a core between winning the exchange and posting the
handler. -/
theorem no_stranded_message (cfg : Config) (queues : Fin cfg.cores → SpscQueue M M)
    (requested : Nat) (word : requested < 2^64) (slots : Fin cfg.cores → Nat → M)
    (created : ∀ src, SpscQueue.create requested word (slots src) = some (queues src))
    (schedule : List (Action cfg M)) (s : State cfg M)
    (runs : Execution.run step (start cfg queues) schedule = some s) (src : Fin cfg.cores)
    (away : src ≠ cfg.dst) (queued : (s.lanes src).queue.empty = false) :
    (0 < s.posted ∨ s.handler.Unpassed src ∨ (∃ m, (s.lanes src).active = some (m,.exchange)) ∨
      s.handler = .exchange ∨ s.Posting) ∧
    (s.drainPending = false → s.handler.Unpassed src ∨ s.handler = .exchange ∨
      ∃ m, (s.lanes src).active = some (m,.exchange)) := by
  have covered := Execution.run_invariant Covered step_covered
    (start_covered fun src => (SpscQueue.create_items _ _ _ _ (created src)).1) runs
  have items : (s.lanes src).queue.items ≠ [] := by
    intro none'
    rw [(SpscQueue.empty_iff _).mpr none'] at queued
    cases queued
  have looked : s.handler.Looks src → s.handler.Unpassed src ∨ s.handler = .exchange := by
    cases s.handler <;> simp [Handler.Looks,Handler.Unpassed]
  have drains : s.handler.Draining → s.handler.Unpassed src := by
    cases s.handler <;> simp [Handler.Draining,Handler.Unpassed]
  rcases covered.noticed src away items with set | looks | busy
  · refine ⟨?_,fun clear => by rw [set] at clear; cases clear⟩
    rcases covered.announced set with posted | draining | posting
    · exact .inl posted
    · exact .inr (.inl (drains draining))
    · exact .inr (.inr (.inr (.inr posting)))
  · rcases looked looks with unpassed | exchange
    · exact ⟨.inr (.inl unpassed),fun _ => .inl unpassed⟩
    · exact ⟨.inr (.inr (.inr (.inl exchange))),fun _ => .inr (.inl exchange)⟩
  · exact ⟨.inr (.inr (.inl busy)),fun _ => .inr (.inr busy)⟩

def pair : Config := ⟨2,1,8⟩

def sender : Fin pair.cores := ⟨0,by decide⟩

def slot : SpscQueue Nat Nat := (SpscQueue.create 1 (by decide) fun _ => 0).get (by decide)

def send (m : Nat) : List (Action pair Nat) := .postTo sender m :: List.replicate 3 (.proceed sender)

def park (m : Nat) : List (Action pair Nat) :=
  .coPostTo sender m :: List.replicate 4 (.proceed sender)

def announcing : List (Action pair Nat) := [.postTo sender 7,.proceed sender,.proceed sender]

/-- Between the exchange and the post nobody else stands in: no handler is posted or
running and no producer is before its exchange, and yet a message is queued. -/
theorem exchange_window : ∃ s, Execution.run step (start pair fun _ => slot) announcing = some s ∧
    (s.lanes sender).queue.empty = false ∧ s.posted = 0 ∧ s.handler = .idle ∧
    ∀ src, ((s.lanes src).active.map Prod.snd) ≠ some .exchange := by
  decide +kernel

theorem no_stranded_message_announcing : ∃ s,Execution.run step (start pair fun _ => slot) announcing = some s ∧
      (0 < s.posted ∨ s.handler.Unpassed sender ∨
        (∃ m, (s.lanes sender).active = some (m,.exchange)) ∨ s.handler = .exchange ∨ s.Posting) := by
  obtain ⟨s,runs,queued⟩ : ∃ s, Execution.run step (start pair fun _ => slot) announcing = some s ∧
      (s.lanes sender).queue.empty = false := by
    decide +kernel
  exact ⟨s,runs,(no_stranded_message pair (fun _ => slot) 1 (by decide) (fun _ _ => 0) (fun _ => rfl)
    announcing s runs sender (by decide) queued).1⟩

end ApexPipeline.CoreEngine
