import ApexPipeline.Listener

/-! Accuracy of the per-IP count. An attempt is counted from its granted increment to the decrement made for it; as
long as no decrement is made for one that is not counted, the owner's count is the number of counted attempts. -/
namespace ApexPipeline.Listener
open List
variable {cfg : Config}

def Attempt.TaskFormed (a : Attempt cfg) : Prop :=
  match a.task with
  | .none => False
  | .queued | .checked => a.result = none ∧ a.counted = false
  | .ran result => a.result = result ∧ a.counted = (result == some true)
  | .done => True

def Attempt.Formed (a : Attempt cfg) : Prop :=
  match a.caller with
  | .arrived => a.task = .none ∧ a.status = .pending ∧ a.result = none ∧ a.compensation = .none ∧ a.counted = false
  | .waiting => a.compensation = .none ∧ a.TaskFormed ∧ (a.task ≠ .done → a.status = .pending) ∧
      (a.task = .done → a.status = .completed ∧ a.result = some a.counted ∨ a.status = .failed ∧ a.counted = false)
  | .live | .releasing =>
    a.compensation = .none ∧ a.counted = true ∧ (a.task = .none ∨ a.task = .done)
  | .gone =>
    match a.compensation with
    | .none => a.counted = false ∧ (a.task = .none ∨ a.task = .done)
    | .posted => a.status ≠ .pending ∧ a.TaskFormed
    | .done => a.status ≠ .pending ∧ a.counted = false ∧ (a.task = .queued ∨ a.task = .done)

def State.held (s : State cfg) (ip : Ip) : Nat :=
  s.attempts.countP fun a => decide (a.ip = ip) && a.counted

structure Accurate (s : State cfg) : Prop where
  balanced : ∀ ip, s.count ip = s.held ip
  bounded : ∀ ip, s.count ip ≤ cfg.maxPerIp
  formed : ∀ a ∈ s.attempts, a.Formed

theorem increment_count {s next : State cfg} {granted : Bool} (taken : s.increment ip = (granted,next)) :
    next.attempts = s.attempts ∧ next.count ip = s.count ip + granted.toNat ∧
      (granted = true → s.count ip < cfg.maxPerIp) ∧
      ∀ other, other ≠ ip → next.count other = s.count other := by
  unfold State.increment at taken
  cases counted : (s.limiters (owner cfg ip)).tryIncrement cfg.maxPerIp ip with
  | mk answer limiter =>
    simp only [counted] at taken
    cases taken
    obtain ⟨same,room,others⟩ := ConnectionLimiter.tryIncrement_count _ counted
    refine ⟨rfl,by simpa [State.count,State.setLimiter] using same,room,fun other different => ?_⟩
    by_cases shared : owner cfg other = owner cfg ip
    · simpa [State.count,State.setLimiter,shared] using others other different
    · simp [State.count,State.setLimiter,shared]

theorem decrement_count (s : State cfg) (ip : Ip) : (s.decrement ip).count ip = s.count ip - 1 ∧
      ∀ other, other ≠ ip → (s.decrement ip).count other = s.count other := by
  obtain ⟨same,others⟩ := ConnectionLimiter.decrement_count (s.limiters (owner cfg ip)) ip
  refine ⟨by simpa [State.decrement,State.count,State.setLimiter] using same,
    fun other different => ?_⟩
  by_cases shared : owner cfg other = owner cfg ip
  · simpa [State.decrement,State.count,State.setLimiter,shared] using others other different
  · simp [State.decrement,State.count,State.setLimiter,shared]

theorem held_setAttempt {s : State cfg} {i : Nat} {a a' : Attempt cfg}
    (found : s.attempts[i]? = some a) (same : a'.ip = a.ip) :
    (∀ ip, ip ≠ a.ip → (s.setAttempt i a').held ip = s.held ip) ∧
      (s.setAttempt i a').held a.ip + a.counted.toNat = s.held a.ip + a'.counted.toNat := by
  obtain ⟨inside,rfl⟩ := List.getElem?_eq_some_iff.mp found
  have change (ip : Ip) := List.countP_set (p := fun a => decide (a.ip = ip) && a.counted) (a := a') inside
  constructor
  · intro ip different
    simp only [State.held,State.setAttempt,change,same]
    simp [different.symm]
  · have present : (s.attempts[i]).counted = true →
        0 < s.attempts.countP fun a => decide (a.ip = (s.attempts[i]).ip) && a.counted := by
      intro counted
      exact countP_pos_iff.mpr ⟨_,getElem_mem inside,by simp [counted]⟩
    simp only [State.held,State.setAttempt,change,same]
    cases before : (s.attempts[i]).counted <;> cases after : a'.counted <;>
      simp only [before,decide_true,Bool.and_true,Bool.and_false,if_true,Bool.false_eq_true,
        if_false,Bool.toNat_true,Bool.toNat_false,true_implies] at present ⊢ <;> omega

inductive Effect (s : State cfg) (i : Nat) (a a' : Attempt cfg) : State cfg → Prop
  | keep : a'.counted = a.counted → Effect s i a a' (s.setAttempt i a')
  | grant : a.counted = false → s.increment a.ip = (a'.counted,counting) →
      Effect s i a a' (counting.setAttempt i a')
  | give : a'.counted = false → a.counted = true ∨ s.count a.ip = 0 →
      Effect s i a a' ((s.decrement a.ip).setAttempt i a')

theorem held_congr {s next : State cfg} (same : next.attempts = s.attempts) (ip : Ip) :
    next.held ip = s.held ip := by
  simp only [State.held,same]

variable {a a' : Attempt cfg} {i : Nat} {s : State cfg}

theorem Accurate.setAttempt {t : State cfg}
    (accurate : Accurate s) (found : s.attempts[i]? = some a) (same : a'.ip = a.ip)
    (formed : a'.Formed) (attempts : t.attempts = s.attempts)
    (away : ∀ ip, ip ≠ a.ip → t.count ip = s.count ip)
    (here : t.count a.ip + a.counted.toNat = s.count a.ip + a'.counted.toNat)
    (room : t.count a.ip ≤ cfg.maxPerIp) : Accurate (t.setAttempt i a') := by
  obtain ⟨elsewhere,moved⟩ := held_setAttempt (by rw [attempts]; exact found) same
  have held := held_congr attempts
  have counts (ip : Ip) : (t.setAttempt i a').count ip = t.count ip := rfl
  refine ⟨fun ip => ?_,fun ip => ?_,fun x member => ?_⟩
  · by_cases ours : ip = a.ip
    · subst ours
      have balance := accurate.balanced a.ip
      rw [held] at moved
      rw [counts]
      omega
    · rw [counts,away ip ours,accurate.balanced,elsewhere ip ours,held]
  · by_cases ours : ip = a.ip
    · subst ours
      exact room
    · rw [counts,away ip ours]
      exact accurate.bounded ip
  · simp only [State.setAttempt,attempts] at member
    rcases mem_or_eq_of_mem_set member with old | rfl
    · exact accurate.formed x old
    · exact formed

theorem effect_accurate {next : State cfg} (accurate : Accurate s)
    (found : s.attempts[i]? = some a) (same : a'.ip = a.ip) (formed : a'.Formed)
    (effect : Effect s i a a' next) : Accurate next := by
  have low := accurate.bounded a.ip
  cases effect with
  | keep kept => exact accurate.setAttempt found same formed rfl (fun _ _ => rfl) (by rw [kept]) low
  | grant unheld taken =>
    obtain ⟨attempts,mine,room,rest⟩ := increment_count taken
    refine accurate.setAttempt found same formed attempts rest (by simp [mine,unheld]) ?_
    cases granted : a'.counted with
    | false => simpa [mine,granted] using low
    | true =>
      have := room granted
      simp only [mine,granted,Bool.toNat_true]
      omega
  | give cleared owed =>
    obtain ⟨mine,rest⟩ := decrement_count s a.ip
    refine accurate.setAttempt found same formed rfl rest ?_ (by omega)
    rw [mine,cleared,Bool.toNat_false]
    cases counted : a.counted with
    | true =>
      have : 0 < s.count a.ip := by
        rw [accurate.balanced]
        exact countP_pos_iff.mpr ⟨a,mem_of_getElem? found,by simp [counted]⟩
      simp only [Bool.toNat_true]
      omega
    | false =>
      have none' : s.count a.ip = 0 := by simpa [counted] using owed
      simp [none']

def Moves (s : State cfg) (i : Nat) (a : Attempt cfg) (next : State cfg) : Prop :=
  ∃ a' : Attempt cfg, a'.ip = a.ip ∧ a'.Formed ∧ Effect s i a a' next

theorem Moves.keep (ip : a'.ip = a.ip)
    (kept : a'.counted = a.counted) (formed : a'.Formed) : Moves s i a (s.setAttempt i a') :=
  ⟨a',ip,formed,.keep kept⟩

theorem Moves.grant (ip : a'.ip = a.ip)
    (unheld : a.counted = false) (taken : s.increment a.ip = (a'.counted,counting))
    (formed : a'.Formed) : Moves s i a (counting.setAttempt i a') :=
  ⟨a',ip,formed,.grant unheld taken⟩

theorem Moves.give (ip : a'.ip = a.ip) (cleared : a'.counted = false) (owed : a.counted = true ∨ s.count a.ip = 0)
    (formed : a'.Formed) : Moves s i a ((s.decrement a.ip).setAttempt i a') :=
  ⟨a',ip,formed,.give cleared owed⟩

section Attempts
variable {next : State cfg} (formed : a.Formed)
include formed

theorem check_moves (moved : check s i a = some next) : Moves s i a next := by
  unfold check at moved
  split at moved
  · rename_i arrived
    simp only [Attempt.Formed,arrived] at formed
    obtain ⟨task,status,result,compensation,counted⟩ := formed
    split at moved
    · split at moved
      · cases taken : s.increment a.ip with
        | mk granted counting =>
          simp only [taken] at moved
          cases moved
          refine .grant rfl counted taken ?_
          cases granted <;> simp [Attempt.Formed,task,compensation]
      · cases moved
    · cases moved
      refine .keep rfl rfl ?_
      simp [Attempt.Formed,Attempt.TaskFormed,status,result,compensation,counted]
  · cases moved

theorem taskLoad_moves (moved : taskLoad s i a = some next) : Moves s i a next := by
  obtain ⟨ready,rfl⟩ := Execution.of_guard moved
  refine .keep rfl rfl ?_
  cases caller : a.caller with
  | arrived | live | releasing => simp [Attempt.Formed,caller,ready.1] at formed
  | waiting => simp_all [Attempt.Formed,Attempt.TaskFormed]
  | gone =>
    cases compensation : a.compensation <;> simp_all [Attempt.Formed,Attempt.TaskFormed]

theorem taskRun_moves (throws : Bool) (moved : taskRun s i a throws = some next) : Moves s i a next := by
  unfold taskRun at moved
  split at moved
  · have uncounted : a.counted = false := by
      cases caller : a.caller <;> cases compensation : a.compensation <;>
        simp_all [Attempt.Formed,Attempt.TaskFormed]
    split at moved
    · cases moved
      refine .keep rfl rfl ?_
      cases caller : a.caller <;> cases compensation : a.compensation <;>
        simp_all [Attempt.Formed,Attempt.TaskFormed]
    · cases taken : s.increment a.ip with
      | mk granted counting =>
        simp only [taken] at moved
        cases moved
        refine .grant rfl uncounted taken ?_
        cases caller : a.caller <;> cases compensation : a.compensation <;>
          simp_all [Attempt.Formed,Attempt.TaskFormed]
  · cases moved

theorem taskFinish_moves (moved : taskFinish s i a = some next) : Moves s i a next := by
  unfold taskFinish at moved
  split at moved <;> cases moved
  rename_i result ran
  refine .keep rfl rfl ?_
  cases caller : a.caller with
  | arrived | live | releasing => simp [Attempt.Formed,caller,ran] at formed
  | waiting => cases result <;> simp_all [Attempt.Formed,Attempt.TaskFormed]
  | gone =>
    cases compensation : a.compensation <;> simp_all [Attempt.Formed,Attempt.TaskFormed]

theorem wake_moves (moved : wake s i a = some next) : Moves s i a next := by
  unfold wake at moved
  split at moved
  · rename_i waiting
    simp only [Attempt.Formed,waiting] at formed
    obtain ⟨compensation,task,early,late⟩ := formed
    split at moved
    · cases moved
      refine .keep rfl rfl ?_
      simpa [Attempt.Formed,Attempt.TaskFormed] using task
    · cases moved
      refine .keep rfl rfl ?_
      simp_all [Attempt.Formed,Attempt.TaskFormed]
    all_goals
      rename_i status
      have done : a.task = .done := by
        by_contra running
        rw [early running] at status
        cases status
      obtain ⟨_,result⟩ | ⟨failed,_⟩ := late done
      · simp only [result,Option.map_some] at moved
        cases moved
        refine .keep rfl rfl ?_
        cases counted : a.counted <;> simp [Attempt.Formed,compensation,done]
      · rw [failed] at status
        cases status
  · cases moved

theorem compensate_moves (found : s.attempts[i]? = some a)
    (owed : a.counted = true ∨ s.count a.ip = 0) (moved : compensate s i a = some next) :
    Moves s i a next := by
  unfold compensate at moved
  split at moved
  · rename_i ready
    have between : a.midTask = false := by simpa using all_eq_true.mp ready.2 a (mem_of_getElem? found)
    cases moved
    refine .give rfl rfl owed ?_
    cases caller : a.caller with
    | arrived | waiting | live | releasing => simp [Attempt.Formed,caller,ready.1] at formed
    | gone =>
      cases task : a.task <;> simp_all [Attempt.Formed,Attempt.TaskFormed,Attempt.midTask]
  · cases moved

theorem close_moves (moved : close s i a = some next) : Moves s i a next := by
  unfold close at moved
  split at moved
  · rename_i live
    simp only [Attempt.Formed,live] at formed
    obtain ⟨compensation,counted,task⟩ := formed
    split at moved
    · split at moved <;> cases moved
      refine .give rfl rfl (.inl counted) ?_
      simpa [Attempt.Formed,compensation] using task
    · cases moved
      refine .keep rfl rfl ?_
      simpa [Attempt.Formed,compensation,counted] using task
  · cases moved

theorem release_moves (moved : release s i a = some next) : Moves s i a next := by
  unfold release at moved
  split at moved
  · rename_i ready
    simp only [Attempt.Formed,ready.1] at formed
    obtain ⟨compensation,counted,task⟩ := formed
    cases moved
    refine .give rfl rfl (.inl counted) ?_
    simpa [Attempt.Formed,compensation] using task
  · cases moved

end Attempts

/-- The condition on a step: a compensating decrement runs only for an attempt whose own increment was granted, or
when the address has no count to lose. -/
def Matched (s : State cfg) : Action cfg → Prop
  | .compensate i =>
    match s.attempts[i]? with
    | some a => a.counted = true ∨ s.count a.ip = 0
    | none => True
  | _ => True

instance (s : State cfg) (a : Action cfg) : Decidable (Matched s a) :=
  match a with
  | .compensate i =>
    match seen : s.attempts[i]? with
    | some a => decidable_of_iff (a.counted = true ∨ s.count a.ip = 0) (by simp [Matched,seen])
    | none => isTrue (by simp [Matched,seen])
  | .arrive .. | .check _ | .taskLoad _ | .taskRun .. | .taskFinish _ | .wake _ | .close _
  | .release _ => isTrue trivial

theorem arrive_accurate (accurate : Accurate s) (ip : Ip)
    (accepting target : Fin cfg.numCores) : Accurate { s with attempts := s.attempts ++
      [⟨ip,accepting,target,.arrived,.none,.pending,none,.none,false⟩] } := by
  obtain ⟨balanced,bounded,formed⟩ := accurate
  refine ⟨fun other => ?_,bounded,fun a member => ?_⟩
  · have same := balanced other
    simpa [State.count,State.held,countP_append] using same
  · rcases mem_append.mp member with old | new
    · exact formed a old
    · rw [mem_singleton] at new
      subst new
      simp [Attempt.Formed]

theorem step_accurate (s : State cfg) (action : Action cfg) (next : State cfg)
    (accurate : Accurate s) (matched : Matched s action) (moved : step s action = some next) :
    Accurate next := by
  have lift (i : Nat) (f : Attempt cfg → Option (State cfg)) (moved : s.attempts[i]?.bind f = some next)
      (moves : ∀ a, s.attempts[i]? = some a → a.Formed → f a = some next → Moves s i a next) :
      Accurate next := by
    obtain ⟨a,found,taken⟩ := Option.bind_eq_some_iff.mp moved
    have formed := accurate.formed a (mem_of_getElem? found)
    obtain ⟨a',ip,formed',effect⟩ := moves a found formed taken
    exact effect_accurate accurate found ip formed' effect
  cases action with
  | arrive ip accepting target =>
    obtain ⟨_,rfl⟩ := Execution.of_unless moved
    exact arrive_accurate accurate ip accepting target
  | check i => exact lift i _ moved fun _ _ => check_moves
  | taskLoad i => exact lift i _ moved fun _ _ => taskLoad_moves
  | taskRun i throws => exact lift i _ moved fun _ _ formed => taskRun_moves formed throws
  | taskFinish i => exact lift i _ moved fun _ _ => taskFinish_moves
  | wake i => exact lift i _ moved fun _ _ => wake_moves
  | compensate i =>
    refine lift i _ moved fun a found formed taken => ?_
    simp only [Matched,found] at matched
    exact compensate_moves formed found matched taken
  | close i => exact lift i _ moved fun _ _ => close_moves
  | release i => exact lift i _ moved fun _ _ => release_moves

theorem start_accurate (cfg : Config) : Accurate (start cfg) := by
  constructor <;> simp [start,State.count,State.held,ConnectionLimiter.count,ConnectionLimiter.empty]

def State.Settled (s : State cfg) (ip : Ip) : Prop :=
  ∀ a ∈ s.attempts, a.ip = ip → (a.caller = .live ∨ a.caller = .gone) ∧
    (a.task = .none ∨ a.task = .done) ∧ a.compensation ≠ .posted

instance (s : State cfg) (ip : Ip) : Decidable (s.Settled ip) :=
  inferInstanceAs (Decidable (∀ a ∈ s.attempts, _ → _))

/-- The admitted connections of an address that are not closed. -/
def State.live (s : State cfg) (ip : Ip) : Nat :=
  s.attempts.countP fun a => decide (a.ip = ip) && decide (a.caller = .live)

theorem live_le_held (accurate : Accurate s) (ip : Ip) : s.live ip ≤ s.held ip := by
  apply countP_mono_left
  intro a member admitted
  have formed := accurate.formed a member
  simp only [Bool.and_eq_true,decide_eq_true_eq] at admitted ⊢
  simp only [Attempt.Formed,admitted.2] at formed
  exact ⟨admitted.1,formed.2.1⟩

theorem settled_held (accurate : Accurate s) (settled : s.Settled ip) : s.held ip = s.live ip := by
  apply countP_congr
  intro a member
  simp only [Bool.and_eq_true,decide_eq_true_eq]
  refine and_congr_right fun ours => ?_
  have formed := accurate.formed a member
  obtain ⟨live | gone,task,compensation⟩ := settled a member ours
  · simp only [Attempt.Formed,live] at formed
    simp [live,formed.2.1]
  have uncounted : a.counted = false := by
    cases seen : a.compensation with
    | posted => exact absurd seen compensation
    | none | done => simp_all [Attempt.Formed]
  simp [gone,uncounted]

/-- In every run of matched compensations, the owner's count is the number of live connections once nothing is in
flight, and no address ever has more live connections than the limit. -/
theorem counter_accurate (cfg : Config) (schedule : List (Action cfg)) (s : State cfg)
    (matched : Execution.Along step Matched (start cfg) schedule)
    (runs : Execution.run step (start cfg) schedule = some s) (ip : Ip) :
    (s.Settled ip → s.count ip = s.live ip) ∧ s.live ip ≤ cfg.maxPerIp := by
  have accurate := Execution.run_guarded step Matched Accurate step_accurate (start_accurate cfg) matched runs
  refine ⟨fun settled => ?_,?_⟩
  · rw [accurate.balanced,settled_held accurate settled]
  · have held := live_le_held accurate ip
    have balanced := accurate.balanced ip
    have bounded := accurate.bounded ip
    omega

def pair : Config := ⟨2,1,by decide⟩

def client : Ip := [49,48,46,48,46,48,46,49]

def acceptor : Fin pair.numCores := ⟨0,by decide⟩

def connect (i : Nat) : List (Action pair) :=
  [.arrive client acceptor acceptor,.check i,.taskLoad i,.taskRun i false,.taskFinish i,.wake i]

/-- The second call times out before its task starts; its compensation takes the unit
of the first connection, and a third one is admitted. -/
def stolen : List (Action pair) :=
  connect 0 ++ [.arrive client acceptor acceptor,.check 1,.wake 1,.compensate 1,.taskLoad 1] ++ connect 2

theorem compensation_steals : ∃ s, Execution.run step (start pair) stolen = some s ∧
    s.Settled client ∧ s.live client = 2 ∧ s.count client = 1 ∧ pair.maxPerIp = 1 := by
  decide +kernel

def compensated : List (Action pair) :=
  [.arrive client acceptor acceptor,.check 0,.taskLoad 0,.taskRun 0 false,.wake 0,.taskFinish 0,
    .compensate 0] ++ connect 1

theorem counter_accurate_compensated : ∃ s,
    Execution.run step (start pair) compensated = some s ∧ s.Settled client ∧
      s.count client = s.live client ∧ s.live client ≤ 1 := by
  obtain ⟨s,runs,settled⟩ : ∃ s, Execution.run step (start pair) compensated = some s ∧ s.Settled client := by
    decide +kernel
  have matched : Execution.Along step Matched (start pair) compensated := by
    decide +kernel
  obtain ⟨equal,limited⟩ := counter_accurate pair compensated s matched runs client
  exact ⟨s,runs,settled,equal settled,limited⟩

end ApexPipeline.Listener
