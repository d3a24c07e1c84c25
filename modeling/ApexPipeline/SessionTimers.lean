import ApexPipeline.SessionManager

/-! Sessions and heartbeat timers correspond one to one, and a session times out exactly when it has been idle for
the configured number of ticks, if no `remove_callback_` that is invoked throws. -/
namespace ApexPipeline.SessionManager
open Execution List Function Event Table Option

/-- Completed ticks since the session was created or last touched. -/
def ticksSince (id : SessionId) (log : List Event) : Nat :=
  log.foldl (fun n event => match event with
    | .created other | .touched other => if other = id then 0 else n
    | .ticked => n + 1
    | _ => n) 0

structure Paired (t : Table) : Prop where
  keyed : ∀ id session, t.sessions id = some session → session.id = id
  paired : ∀ timer id, t.timerToSession timer = some id ↔
    ∃ session, t.sessions id = some session ∧ session.timerEntryId = timer

structure Corresponds (cfg : Config) (m : Manager) : Prop where
  maps : ∀ timer id, m.table.timerToSession timer = some id ↔
    ∃ key session, m.table.sessions key = some session ∧ session.timerEntryId = timer ∧ session.id = id
  live : ∀ id session, m.table.sessions id = some session → ∃ e, m.wheel.lookup session.timerEntryId = some e
  distinct : ∀ id id' session session', m.table.sessions id = some session →
    m.table.sessions id' = some session' → session.timerEntryId = session'.timerEntryId → id = id'
  others : ∀ timer e, m.wheel.lookup timer = some e → ∃ id, m.table.timerToSession timer = some id
  notified : ∀ id, m.table.log.count (.removeCallback id) =
    if cfg.removeCallback = true ∧ Event.created id ∈ m.table.log ∧ m.table.sessions id = none
    then 1 else 0

/-- No `remove_callback_` that the step invokes throws. -/
def Returns (cfg : Config) (m : Manager) : Action → Prop
  | .removeSession id throws =>
    cfg.removeCallback = true → throws = true → m.table.sessions id = none
  | .tick throwing => cfg.removeCallback = true → ∀ id ∈ throwing,
    m.table.sessions id = none ∨ ticksSince id m.table.log ≠ cfg.heartbeatTimeoutTicks
  | _ => True

instance (cfg : Config) (m : Manager) (action : Action) : Decidable (Returns cfg m action) :=
  match action with
  | .removeSession id _ => inferInstanceAs (Decidable (_ → _ → m.table.sessions id = none))
  | .tick throwing => inferInstanceAs (Decidable (_ → ∀ id ∈ throwing, _ ∨ _))
  | .createSession | .touchSession _ => isTrue trivial

section
variable (id : SessionId) (log : List Event)

theorem ticksSince_append (event : Event) :
    ticksSince id (log ++ [event]) = match event with
      | .created other | .touched other => if other = id then 0 else ticksSince id log
      | .ticked => ticksSince id log + 1
      | _ => ticksSince id log := by
  cases event <;> simp [ticksSince]

def Event.isNotification : Event → Bool
  | .removeCallback _ | .timeoutCallback _ | .closed _ => true
  | _ => false

theorem ticksSince_notification (silent : event.isNotification = true) :
    ticksSince id (log ++ [event]) = ticksSince id log ∧
      (created id ∈ log ++ [event] ↔ created id ∈ log) := by
  have other : created id ≠ event := by
    rintro rfl
    cases silent
  constructor
  · rw [ticksSince_append]
    cases event with
    | created other | touched other | ticked => cases silent
    | removeCallback other | timeoutCallback other | closed other => rfl
  · rw [mem_append,mem_singleton]
    exact or_iff_left other

theorem ticksSince_notifications (silent : ∀ event ∈ events, event.isNotification = true) :
    ticksSince id (log ++ events) = ticksSince id log ∧
      (created id ∈ log ++ events ↔ created id ∈ log) := by
  induction events generalizing log with
  | nil => simp
  | cons event rest ih =>
    obtain ⟨age,born⟩ := ticksSince_notification id log (silent event mem_cons_self)
    obtain ⟨later,bornLater⟩ := ih (log ++ [event]) fun event later =>
      silent event (mem_cons_of_mem _ later)
    rw [append_cons]
    exact ⟨later.trans age,bornLater.trans born⟩

end

def farewell (cfg : Config) (id : SessionId) : List Event :=
  (if cfg.removeCallback then [.removeCallback id] else []) ++
    (if cfg.timeoutCallback then [.timeoutCallback id] else []) ++ [.closed id]

theorem farewell_silent (cfg : Config) (id : SessionId) :
    ∀ event ∈ farewell cfg id, event.isNotification = true := by
  intro event member
  simp only [farewell,mem_append,mem_ite_nil_right,mem_singleton] at member
  rcases member with (⟨_,rfl⟩ | ⟨_,rfl⟩) | rfl <;> rfl

theorem farewell_count (cfg : Config) (id other : SessionId) : (farewell cfg id).count (.removeCallback other) =
      if cfg.removeCallback = true ∧ id = other then 1 else 0 := by
  simp only [farewell]
  cases cfg.removeCallback <;> cases cfg.timeoutCallback <;> by_cases same : id = other <;> simp [same]

theorem dismiss_returns (id : SessionId) (t : Table)
    (andThen : Table → Table) (returns : cfg.removeCallback = true → throws = false) :
    t.dismiss cfg throws id andThen =
      andThen ((if cfg.removeCallback then t.note (.removeCallback id) else t).erase id) := by
  unfold dismiss
  by_cases set : cfg.removeCallback = true
  · simp [set,returns set]
  · simp [set]

variable {id : SessionId} {t : Table} {timer : Nat} {cfg : Config} {session : ManagedSession} {w : TimingWheel} {m : Manager}

theorem Paired.timer_unique (pairs : Paired t)
    (first : t.timerToSession timer = some id) (second : t.timerToSession timer' = some id) :
    timer = timer' := by
  obtain ⟨session,found,rfl⟩ := (pairs.paired timer id).mp first
  obtain ⟨session',found',rfl⟩ := (pairs.paired timer' id).mp second
  cases found.symm.trans found'
  rfl

theorem Paired.join (pairs : Paired t) (absent : t.sessions id = none)
    (unused : ∀ key session, t.sessions key = some session → session.timerEntryId ≠ timer)
    (sessions : t'.sessions = update t.sessions id (some ⟨id,timer⟩))
    (timers : t'.timerToSession = update t.timerToSession timer (some id)) :
    Paired t' := by
  constructor
  · intro key session found
    rw [sessions] at found
    by_cases new : key = id
    · subst new
      simp only [update_self,some.injEq] at found
      rw [← found]
    · rw [update_of_ne new] at found
      exact pairs.keyed key session found
  · intro timer' key
    rw [sessions,timers]
    by_cases mine : timer' = timer
    · subst mine
      simp only [update_self,some.injEq]
      constructor
      · rintro rfl
        exact ⟨_,update_self ..,rfl⟩
      · rintro ⟨session,found,named⟩
        by_contra elder
        rw [update_of_ne fun equal => elder equal.symm] at found
        exact unused key session found named
    · rw [update_of_ne mine,pairs.paired]
      by_cases new : key = id
      · subst new
        simp only [absent,reduceCtorEq,false_and,exists_false,update_self,some.injEq,
          exists_eq_left',false_iff]
        exact fun equal => mine equal.symm
      · rw [update_of_ne new]

theorem Paired.leave (pairs : Paired t) (linked : t.timerToSession timer = some id)
    (sessions : t'.sessions = update t.sessions id none)
    (timers : t'.timerToSession = update t.timerToSession timer none) : Paired t' := by
  constructor
  · intro key session found
    rw [sessions] at found
    by_cases gone : key = id
    · simp [gone] at found
    · rw [update_of_ne gone] at found
      exact pairs.keyed key session found
  · intro timer' id'
    rw [sessions,timers]
    by_cases left : timer' = timer
    · subst left
      simp only [update_self,reduceCtorEq,false_iff]
      rintro ⟨session,found,named⟩
      by_cases gone : id' = id
      · simp [gone] at found
      · rw [update_of_ne gone] at found
        have again := (pairs.paired timer' id').mpr ⟨session,found,named⟩
        exact gone (some.inj (again.symm.trans linked))
    · rw [update_of_ne left,pairs.paired]
      by_cases gone : id' = id
      · subst gone
        simp only [update_self,reduceCtorEq,false_and,exists_false,iff_false]
        intro still
        exact left (pairs.timer_unique ((pairs.paired timer' id').mpr still) linked)
      · rw [update_of_ne gone]

section
variable (cfg : Config) (throwing : List SessionId)

theorem onTimerExpire_spec (t : Table)
    (pairs : Paired t) (timer : Nat) (id : SessionId) (linked : t.timerToSession timer = some id)
    (returns : cfg.removeCallback = true → id ∉ throwing) :
    ∃ t', onTimerExpire cfg throwing timer t = t' ∧ t'.sessions = update t.sessions id none ∧
      t'.timerToSession = update t.timerToSession timer none ∧ t'.nextId = t.nextId ∧
      t'.log = t.log ++ farewell cfg id := by
  obtain ⟨session,found,_⟩ := (pairs.paired timer id).mp linked
  have named := pairs.keyed id session found
  refine ⟨_,rfl,?_⟩
  simp only [onTimerExpire,linked,unlink,found]
  rw [dismiss_returns _ _ _ (by simpa using returns)]
  simp only [farewell]
  cases cfg.removeCallback <;> cases cfg.timeoutCallback <;> simp [note,put,erase,named]

theorem expire_all (timers : List Nat) (t : Table)
    (pairs : Paired t) (distinct : timers.Nodup)
    (linked : ∀ timer ∈ timers, ∃ id, t.timerToSession timer = some id ∧
      (cfg.removeCallback = true → id ∉ throwing)) :
    ∃ t', timers.foldl (fun t timer => onTimerExpire cfg throwing timer t) t = t' ∧ Paired t' ∧
      (∀ timer, t'.timerToSession timer = if timer ∈ timers then none else t.timerToSession timer) ∧
      (∀ id, t'.sessions id =
        if ∃ timer ∈ timers, t.timerToSession timer = some id then none else t.sessions id) ∧
      t'.nextId = t.nextId ∧ (∀ id, ticksSince id t'.log = ticksSince id t.log) ∧
      (∀ id, created id ∈ t'.log ↔ created id ∈ t.log) ∧
      ∀ id, t'.log.count (.removeCallback id) = t.log.count (.removeCallback id) +
        if cfg.removeCallback = true ∧ ∃ timer ∈ timers, t.timerToSession timer = some id
        then 1 else 0 := by
  induction timers generalizing t with
  | nil => exact ⟨t,rfl,pairs,by simp,by simp,rfl,fun _ => rfl,fun _ => Iff.rfl,by simp⟩
  | cons timer rest ih =>
    obtain ⟨notLater,distinct⟩ := nodup_cons.mp distinct
    obtain ⟨id,here,returns⟩ := linked timer mem_cons_self
    obtain ⟨t₁,first,sessions₁,timers₁,next₁,log₁⟩ :=
      onTimerExpire_spec cfg throwing t pairs timer id here returns
    have pairs₁ := pairs.leave here sessions₁ timers₁
    have later : ∀ timer' ∈ rest, t₁.timerToSession timer' = t.timerToSession timer' := by
      intro timer' member
      rw [timers₁,update_of_ne]
      rintro rfl
      exact notLater member
    obtain ⟨t',folded,pairs',timers',sessions',next',age',born',count'⟩ := ih t₁ pairs₁ distinct (by
      intro timer' member
      rw [later timer' member]
      exact linked timer' (mem_cons_of_mem _ member))
    have elsewhere : ∀ id', (∃ timer' ∈ rest, t₁.timerToSession timer' = some id') ↔
        ∃ timer' ∈ rest, t.timerToSession timer' = some id' := by
      intro id'
      constructor <;> rintro ⟨timer',member,seen⟩
      · exact ⟨timer',member,later timer' member ▸ seen⟩
      · exact ⟨timer',member,(later timer' member).trans seen⟩
    have once : ¬∃ timer' ∈ rest, t.timerToSession timer' = some id := by
      rintro ⟨timer',member,seen⟩
      exact notLater (pairs.timer_unique here seen ▸ member)
    obtain ⟨age₁,born₁⟩ : (∀ id', ticksSince id' t₁.log = ticksSince id' t.log) ∧
        ∀ id', created id' ∈ t₁.log ↔ created id' ∈ t.log := by
      rw [log₁]
      exact ⟨fun id' => (ticksSince_notifications id' _ (farewell_silent cfg id)).1,
        fun id' => (ticksSince_notifications id' _ (farewell_silent cfg id)).2⟩
    refine ⟨t',by rw [foldl_cons,first,folded],pairs',?_,?_,next'.trans next₁,
      fun id' => (age' id').trans (age₁ id'),fun id' => (born' id').trans (born₁ id'),?_⟩
    · intro timer'
      rw [timers',timers₁]
      by_cases same : timer' = timer
      · simp [same]
      · simp [same]
    · intro id'
      rw [sessions',sessions₁]
      simp only [elsewhere,mem_cons,exists_eq_or_imp,here,some.injEq]
      by_cases same : id = id'
      · subst same
        simp
      · rw [update_of_ne fun equal => same equal.symm]
        simp [same]
    · intro id'
      rw [count',log₁,count_append,farewell_count]
      simp only [elsewhere,mem_cons,exists_eq_or_imp,here,some.injEq]
      by_cases same : id = id'
      · subst same
        simp [once]
      · simp [same]

end

def Punctual (cfg : Config) (w : TimingWheel) (log : List Event) (session : ManagedSession) : Prop :=
  session.timerEntryId ≠ 0 ∧ ∃ e d, w.lookup session.timerEntryId = some e ∧
    w.deadlineOf e = some d ∧ w.currentTick ≤ d ∧
    d + ticksSince session.id log = w.currentTick + cfg.heartbeatTimeoutTicks

theorem Punctual.frame {w' : TimingWheel} {log log' : List Event} (punctual : Punctual cfg w log session)
    (lookup : w'.lookup session.timerEntryId = w.lookup session.timerEntryId)
    (deadline : ∀ e, w.lookup session.timerEntryId = some e → w'.deadlineOf e = w.deadlineOf e)
    (tick : w'.currentTick = w.currentTick)
    (since : ticksSince session.id log' = ticksSince session.id log) :
    Punctual cfg w' log' session := by
  obtain ⟨timed,e,d,known,armed,later,age⟩ := punctual
  refine ⟨timed,e,d,lookup.trans known,(deadline e known).trans armed,?_,?_⟩
  · rw [tick]
    exact later
  · rw [since,tick]
    exact age

structure Kept (cfg : Config) (m : Manager) : Prop where
  rep : ∃ lists, m.wheel.Rep lists []
  pairs : Paired m.table
  others : ∀ timer e, m.wheel.lookup timer = some e → ∃ id, m.table.timerToSession timer = some id
  punctual : ∀ id session, m.table.sessions id = some session → Punctual cfg m.wheel m.table.log session
  born : ∀ id, Event.created id ∈ m.table.log → id < m.table.nextId
  known : ∀ id session, m.table.sessions id = some session → Event.created id ∈ m.table.log
  notified : ∀ id, m.table.log.count (.removeCallback id) =
    if cfg.removeCallback = true ∧ Event.created id ∈ m.table.log ∧ m.table.sessions id = none
    then 1 else 0

theorem Kept.corresponds (kept : Kept cfg m) : Corresponds cfg m := by
  refine ⟨?_,?_,?_,kept.others,kept.notified⟩
  · intro timer id
    rw [kept.pairs.paired]
    constructor
    · rintro ⟨session,found,named⟩
      exact ⟨id,session,found,named,kept.pairs.keyed id session found⟩
    · rintro ⟨key,session,found,named,rfl⟩
      rw [kept.pairs.keyed key session found]
      exact ⟨session,found,named⟩
  · intro id session found
    obtain ⟨_,e,_,known,_⟩ := kept.punctual id session found
    exact ⟨e,known⟩
  · intro id id' session session' found found' same
    have first := (kept.pairs.paired _ id).mpr ⟨session,found,rfl⟩
    have second := (kept.pairs.paired _ id').mpr ⟨session',found',rfl⟩
    rw [same,second] at first
    exact (some.inj first).symm

theorem start_kept (cfg : Config) (created : TimingWheel.create requested word = some w) : Kept cfg (start w) := by
  obtain ⟨rep,_,_,blank⟩ := TimingWheel.create_rep w created
  refine ⟨⟨_,rep⟩,⟨by simp [start,empty],by simp [start,empty]⟩,?_,by simp [start,empty],
    by simp [start,empty],by simp [start,empty],by simp [start,empty]⟩
  intro timer e known
  obtain ⟨_,_,_,_,_,_,_,inside⟩ := rep.found known
  exact absurd inside (by omega)

theorem Kept.fresh (kept : Kept cfg m) :
    created m.table.nextId ∉ m.table.log ∧ m.table.sessions m.table.nextId = none := by
  have unborn : created m.table.nextId ∉ m.table.log := by
    intro born
    exact Nat.lt_irrefl _ (kept.born _ born)
  refine ⟨unborn,?_⟩
  cases found : m.table.sessions m.table.nextId with
  | none => rfl
  | some session => exact absurd (kept.known _ session found) unborn

theorem createSession_effect (positive : 0 < cfg.heartbeatTimeoutTicks)
    (armed : m.wheel.schedule cfg.heartbeatTimeoutTicks = .ok (timer,w)) :
    ∃ m', createSession cfg m = .ok m' ∧ m'.wheel = w ∧ m'.table.nextId = m.table.nextId + 1 ∧ m'.table.sessions =
        update m.table.sessions m.table.nextId (some ⟨m.table.nextId,timer⟩) ∧
      m'.table.timerToSession = update m.table.timerToSession timer (some m.table.nextId) ∧
      m'.table.log = m.table.log ++ [.created m.table.nextId] := by
  unfold createSession
  simp only [gt_iff_lt,positive,if_true,armed]
  refine ⟨_,rfl,rfl,rfl,?_,rfl,rfl⟩
  simp [put,note]

theorem createSession_kept (kept : Kept cfg m) (positive : 0 < cfg.heartbeatTimeoutTicks)
    (inRange : cfg.heartbeatTimeoutTicks < m.wheel.numSlots) :
    ∃ m', createSession cfg m = .ok m' ∧ Kept cfg m' ∧ m'.wheel.numSlots = m.wheel.numSlots := by
  obtain ⟨lists,rep⟩ := kept.rep
  obtain ⟨timer,w,lists',done,rep',_,unused,nonzero,lookup,deadlines,_,_,tick,size⟩ :=
    TimingWheel.schedule_spec rep cfg.heartbeatTimeoutTicks inRange
  obtain ⟨unborn,absent⟩ := kept.fresh
  obtain ⟨⟨w',t⟩,made,rfl,next,sessions,timers,log⟩ := createSession_effect positive done
  dsimp only at next sessions timers log rep' lookup deadlines tick size
  -- a timer id that the wheel hands out belongs to no session
  have other : ∀ id session, m.table.sessions id = some session → session.timerEntryId ≠ timer := by
    rintro id session found rfl
    obtain ⟨_,e,_,known,_⟩ := kept.punctual id session found
    rw [unused] at known
    cases known
  refine ⟨_,made,⟨⟨lists',rep'⟩,kept.pairs.join absent other sessions timers,?_,?_,?_,?_,?_⟩,size⟩
  · intro timer' e known
    rw [timers]
    by_cases mine : timer' = timer
    · exact ⟨m.table.nextId,by rw [mine,update_self]⟩
    · rw [lookup,if_neg mine] at known
      rw [update_of_ne mine]
      exact kept.others timer' e known
  · intro id session found
    rw [sessions] at found
    rw [log]
    by_cases new : id = m.table.nextId
    · subst new
      simp only [update_self] at found
      cases found
      refine ⟨nonzero,m.wheel.allocated,m.wheel.currentTick + cfg.heartbeatTimeoutTicks,
        by simp [lookup],by simp [deadlines],?_,?_⟩
      · simp only [tick]
        omega
      · simp [ticksSince_append,tick]
    · rw [update_of_ne new] at found
      have differs : m.table.nextId ≠ session.id := by
        rw [kept.pairs.keyed id session found]
        exact fun equal => new equal.symm
      refine (kept.punctual id session found).frame ?_ ?_ tick ?_
      · simp [lookup,other id session found]
      · intro e known
        obtain ⟨_,found',_⟩ := rep.found known
        simp [deadlines,Nat.ne_of_lt (rep.found_lt found')]
      · simp [ticksSince_append,differs]
  · intro id born
    simp only [log,mem_append,mem_singleton,created.injEq] at born
    simp only [next]
    rcases born with born | rfl
    · exact Nat.lt_succ_of_lt (kept.born id born)
    · exact Nat.lt_succ_self _
  · intro id session found
    rw [sessions] at found
    rw [log]
    by_cases new : id = m.table.nextId
    · simp [new]
    · rw [update_of_ne new] at found
      exact mem_append_left _ (kept.known id session found)
  · intro id
    rw [log,sessions,count_append,kept.notified id]
    by_cases new : id = m.table.nextId
    · subst new
      simp [unborn]
    · simp [new]

theorem removeSession_effect (pairs : Paired m.table)
    (found : m.table.sessions id = some session) (timed : session.timerEntryId ≠ 0)
    (cancelled : m.wheel.cancel session.timerEntryId = .ok w)
    (returns : cfg.removeCallback = true → throws = false) :
    ∃ m', removeSession cfg m id throws = .ok m' ∧ m'.wheel = w ∧ m'.table.nextId = m.table.nextId ∧
      m'.table.sessions = update m.table.sessions id none ∧
      m'.table.timerToSession = update m.table.timerToSession session.timerEntryId none ∧
      m'.table.log = m.table.log ++ ([.closed id] ++ if cfg.removeCallback then [.removeCallback id] else []) := by
  have named := pairs.keyed id session found
  unfold removeSession
  simp only [found,ne_eq,timed,not_false_eq_true,if_true,cancelled,bind,Except.bind,pure,Except.pure]
  refine ⟨_,rfl,rfl,?_⟩
  rw [dismiss_returns _ _ _ returns]
  cases cfg.removeCallback <;> simp [note,put,erase,unlink,named]

theorem removeSession_kept (kept : Kept cfg m) (returns : Returns cfg m (.removeSession id throws)) :
    ∃ m', removeSession cfg m id throws = .ok m' ∧ Kept cfg m' ∧ m'.wheel.numSlots = m.wheel.numSlots := by
  cases found : m.table.sessions id with
  | none => exact ⟨m,by simp only [removeSession,found],kept,rfl⟩
  | some session =>
    obtain ⟨lists,rep⟩ := kept.rep
    obtain ⟨timed,e,d,known,armed,_⟩ := kept.punctual id session found
    obtain ⟨w,lists',done,rep',_,lookup,deadlines,_,_,tick,size⟩ :=
      TimingWheel.cancel_spec rep known
    have calm : cfg.removeCallback = true → throws = false := by
      intro set
      cases threw : throws with
      | false => rfl
      | true =>
        have gone := returns set threw
        rw [found] at gone
        cases gone
    obtain ⟨⟨w',t⟩,made,rfl,next,sessions,timers,log⟩ :=
      removeSession_effect kept.pairs found timed done calm
    dsimp only at next sessions timers log rep' lookup deadlines tick size
    have linked := (kept.pairs.paired _ id).mpr ⟨session,found,rfl⟩
    have silent : ∀ event ∈ ([.closed id] ++ if cfg.removeCallback then [.removeCallback id] else [] :
        List Event), event.isNotification = true := by
      intro event member
      simp only [mem_append,mem_ite_nil_right,mem_singleton] at member
      rcases member with rfl | ⟨_,rfl⟩ <;> rfl
    have quiet := fun id' => ticksSince_notifications id' m.table.log silent
    have stays : ∀ id' session', t.sessions id' = some session' →
        id' ≠ id ∧ m.table.sessions id' = some session' := by
      intro id' session' found'
      rw [sessions] at found'
      by_cases gone : id' = id
      · simp [gone] at found'
      · rw [update_of_ne gone] at found'
        exact ⟨gone,found'⟩
    refine ⟨_,made,⟨⟨lists',rep'⟩,kept.pairs.leave linked sessions timers,?_,?_,?_,?_,?_⟩,size⟩
    · intro timer e' known'
      rw [lookup] at known'
      rw [timers]
      split at known'
      · cases known'
      · rw [update_of_ne ‹_›]
        exact kept.others timer e' known'
    · intro id' session' found'
      obtain ⟨other,found'⟩ := stays id' session' found'
      have apart : session'.timerEntryId ≠ session.timerEntryId := fun same =>
        other (kept.corresponds.distinct id' id session' session found' found same)
      refine (kept.punctual id' session' found').frame (by simp [lookup,apart]) ?_ tick (by rw [log,(quiet _).1])
      intro e' known'
      have elsewhere : e' ≠ e := by
        rintro rfl
        exact apart (rep.lookup_injective known' known)
      simp [deadlines,elsewhere]
    · intro id' born
      rw [log,(quiet id').2] at born
      simp only [next]
      exact kept.born id' born
    · intro id' session' found'
      rw [log,(quiet id').2]
      exact kept.known id' session' (stays id' session' found').2
    · intro id'
      rw [log]
      rw [count_append,kept.notified id',sessions]
      by_cases same : id' = id
      · subst same
        have born := kept.known id' session found
        cases cfg.removeCallback <;> simp [found,born]
      · rw [update_of_ne same]
        have differs : id ≠ id' := fun equal => same equal.symm
        cases cfg.removeCallback <;> simp [differs]

theorem touchSession_kept (kept : Kept cfg m) (positive : 0 < cfg.heartbeatTimeoutTicks)
    (inRange : cfg.heartbeatTimeoutTicks < m.wheel.numSlots) (id : SessionId) :
    ∃ m', touchSession cfg m id = .ok m' ∧ Kept cfg m' ∧ m'.wheel.numSlots = m.wheel.numSlots := by
  have enabled : cfg.heartbeatTimeoutTicks ≠ 0 := by omega
  have born : ∀ id', created id' ∈ m.table.log ++ [.touched id] ↔ created id' ∈ m.table.log := by simp
  have notified : ∀ id', (m.table.log ++ [touched id]).count (.removeCallback id') =
      if cfg.removeCallback = true ∧ created id' ∈ m.table.log ++ [.touched id] ∧
        m.table.sessions id' = none then 1 else 0 := by
    intro id'
    simp only [born,count_append,kept.notified id']
    simp
  cases found : m.table.sessions id with
  | none =>
    refine ⟨⟨m.wheel,m.table.note (.touched id)⟩,by simp only [touchSession,enabled,if_false,found],
      ⟨kept.rep,⟨kept.pairs.keyed,kept.pairs.paired⟩,kept.others,?_,
        fun id' old => kept.born id' ((born id').mp old),
        fun id' session found' => (born id').mpr (kept.known id' session found'),notified⟩,rfl⟩
    intro id' session found'
    have other : id ≠ session.id := by
      rw [kept.pairs.keyed id' session found']
      rintro rfl
      exact absurd (found.symm.trans found') (by simp)
    exact (kept.punctual id' session found').frame rfl (fun _ _ => rfl) rfl
      (by simp [note,ticksSince_append,other])
  | some session =>
    obtain ⟨lists,rep⟩ := kept.rep
    obtain ⟨timed,e,d,known,armed,_⟩ := kept.punctual id session found
    obtain ⟨w,lists',done,rep',_,lookup,deadlines,_,_,tick,size⟩ :=
      TimingWheel.reschedule_spec rep cfg.heartbeatTimeoutTicks inRange known
    have named := kept.pairs.keyed id session found
    refine ⟨⟨w,m.table.note (.touched id)⟩,by simp only [touchSession,enabled,if_false,found,timed,done],
      ⟨⟨lists',rep'⟩,⟨kept.pairs.keyed,kept.pairs.paired⟩,
        fun timer e' known' => kept.others timer e' (lookup timer ▸ known'),?_,
        fun id' old => kept.born id' ((born id').mp old),
        fun id' session found' => (born id').mpr (kept.known id' session found'),notified⟩,size⟩
    intro id' session' found'
    by_cases same : id' = id
    · subst same
      cases found.symm.trans found'
      refine ⟨timed,e,m.wheel.currentTick + cfg.heartbeatTimeoutTicks,by simp [lookup,known],
        by simp [deadlines],by simp only [tick]; omega,?_⟩
      simp [note,ticksSince_append,named,tick]
    · have other : id ≠ session'.id := by
        rw [kept.pairs.keyed id' session' found']
        exact fun equal => same equal.symm
      refine (kept.punctual id' session' found').frame (lookup _) ?_ tick
        (by simp [note,ticksSince_append,other])
      intro e' known'
      have elsewhere : e' ≠ e := by
        rintro rfl
        exact same (kept.corresponds.distinct id' id session' session found' found
          (rep.lookup_injective known' known))
      simp [deadlines,elsewhere]

theorem tick_effect (done : TimingWheel.tick
      (fun _ timer s => .ok (s.1,onTimerExpire cfg throwing timer s.2)) (m.wheel,m.table) = .ok (w,t)) :
    ∃ m', tick cfg throwing m = .ok m' ∧ m'.wheel = w ∧ m'.table.nextId = t.nextId ∧
      m'.table.sessions = t.sessions ∧ m'.table.timerToSession = t.timerToSession ∧
      m'.table.log = t.log ++ [.ticked] := by
  unfold tick
  simp only [done,bind,Except.bind,pure,Except.pure]
  exact ⟨_,rfl,rfl,rfl,rfl,rfl,rfl⟩

section
variable (kept : Kept cfg m)
include kept

theorem Kept.due_iff (found : m.table.sessions id = some session) :
    (∃ e, m.wheel.lookup session.timerEntryId = some e ∧ m.wheel.deadlineOf e = some m.wheel.currentTick) ↔
      ticksSince id m.table.log = cfg.heartbeatTimeoutTicks := by
  obtain ⟨_,e,d,known,armed,later,age⟩ := kept.punctual id session found
  rw [kept.pairs.keyed id session found] at age
  constructor
  · rintro ⟨e',known',armed'⟩
    cases known.symm.trans known'
    cases armed.symm.trans armed'
    omega
  · intro idle
    obtain rfl : d = m.wheel.currentTick := by omega
    exact ⟨e,known,armed⟩

theorem Kept.leaving_iff {timers : List Nat}
    (expired : ∀ timer, timer ∈ timers ↔ ∃ e, m.wheel.lookup timer = some e ∧
      m.wheel.deadlineOf e = some m.wheel.currentTick)
    (found : m.table.sessions id = some session) :
    (∃ timer ∈ timers, m.table.timerToSession timer = some id) ↔
      ticksSince id m.table.log = cfg.heartbeatTimeoutTicks := by
  have own := (kept.pairs.paired _ id).mpr ⟨session,found,rfl⟩
  rw [← kept.due_iff found,← expired]
  constructor
  · rintro ⟨timer,member,linked⟩
    exact kept.pairs.timer_unique linked own ▸ member
  · exact fun member => ⟨_,member,own⟩

theorem tick_kept (returns : Returns cfg m (.tick throwing)) :
    ∃ m', tick cfg throwing m = .ok m' ∧ Kept cfg m' ∧ m'.wheel.numSlots = m.wheel.numSlots ∧
      ∀ id session, m.table.sessions id = some session → (m'.table.sessions id = none ↔
        ticksSince id m.table.log = cfg.heartbeatTimeoutTicks) := by
  obtain ⟨lists,rep⟩ := kept.rep
  obtain ⟨timers,w,lists',done,rep',distinct,expired,lookup,deadlines,now,size⟩ :=
    TimingWheel.tick_spec (onTimerExpire cfg throwing) m.wheel lists m.table rep
  obtain ⟨t,folded,pairs,timers',sessions,next,age,born,count⟩ :=
    expire_all cfg throwing timers m.table kept.pairs distinct (by
      intro timer member
      obtain ⟨e,known,_⟩ := (expired timer).mp member
      obtain ⟨id,linked⟩ := kept.others timer e known
      obtain ⟨session,found,_⟩ := (kept.pairs.paired timer id).mp linked
      refine ⟨id,linked,fun set thrown => ?_⟩
      rcases returns set id thrown with absent | young
      · rw [found] at absent
        cases absent
      · exact young ((kept.leaving_iff expired found).mp ⟨timer,member,linked⟩))
  rw [folded] at done
  have stays : ∀ id session, t.sessions id = some session → m.table.sessions id = some session ∧
      ticksSince id m.table.log ≠ cfg.heartbeatTimeoutTicks := by
    intro id session found
    rw [sessions] at found
    split at found
    · cases found
    rename_i remains
    exact ⟨found,fun idle => remains ((kept.leaving_iff expired found).mpr idle)⟩
  have ticked : ∀ id, created id ∈ t.log ++ [.ticked] ↔ created id ∈ m.table.log := by
    intro id
    rw [← born id]
    simp
  obtain ⟨⟨w',t'⟩,made,rfl,next',sessions',timers'',log⟩ := tick_effect done
  dsimp only at next' sessions' timers'' log rep' lookup deadlines now size
  have pairs' : Paired t' := by
    constructor
    · rw [sessions']
      exact pairs.keyed
    · rw [sessions',timers'']
      exact pairs.paired
  refine ⟨_,made,⟨⟨lists',rep'⟩,pairs',?_,?_,?_,?_,?_⟩,size,?_⟩
  · intro timer e known
    obtain ⟨known,later⟩ := (lookup timer e).mp known
    obtain ⟨id,linked⟩ := kept.others timer e known
    refine ⟨id,?_⟩
    rw [timers'',timers',if_neg,linked]
    rw [expired]
    rintro ⟨e',known',armed'⟩
    cases known.symm.trans known'
    exact later armed'
  · intro id session found
    rw [sessions'] at found
    obtain ⟨found,young⟩ := stays id session found
    obtain ⟨timed,e,d,known,armed,later,idle⟩ := kept.punctual id session found
    rw [kept.pairs.keyed id session found] at idle
    have notNow : m.wheel.deadlineOf e ≠ some m.wheel.currentTick := by
      rw [armed]
      intro same
      cases same
      omega
    have ahead : d ≠ m.wheel.currentTick := fun same => notNow (same ▸ armed)
    refine ⟨timed,e,d,(lookup _ e).mpr ⟨known,notNow⟩,(deadlines e notNow).trans armed,?_,?_⟩
    · simp only [now]
      omega
    · rw [log,ticksSince_append,kept.pairs.keyed id session found,age]
      simp only [now]
      omega
  · intro id old
    rw [log,ticked] at old
    simp only [next',next]
    exact kept.born id old
  · intro id session found
    rw [sessions'] at found
    rw [log,ticked]
    exact kept.known id session (stays id session found).1
  · intro id
    rw [log]
    simp only [ticked,sessions',count_append,count,kept.notified id,sessions]
    cases found : m.table.sessions id with
    | none =>
      have alone : ¬∃ timer ∈ timers, m.table.timerToSession timer = some id := by
        rintro ⟨timer,_,linked⟩
        obtain ⟨session,found',_⟩ := (kept.pairs.paired timer id).mp linked
        exact absurd (found.symm.trans found') (by simp)
      simp [alone]
    | some session =>
      have old := kept.known id session found
      by_cases left : ∃ timer ∈ timers, m.table.timerToSession timer = some id
      · simp [left,old]
      · simp [left]
  · intro id session found
    rw [sessions',sessions,← kept.leaving_iff expired found]
    by_cases left : ∃ timer ∈ timers, m.table.timerToSession timer = some id
    · simp [left]
    · simp [left,found]

theorem step_kept (positive : 0 < cfg.heartbeatTimeoutTicks)
    (inRange : cfg.heartbeatTimeoutTicks < m.wheel.numSlots)
    (returns : Returns cfg m action) :
    ∃ m', step cfg m action = some m' ∧ Kept cfg m' ∧ cfg.heartbeatTimeoutTicks < m'.wheel.numSlots := by
  have result : ∃ m', perform cfg m action = .ok m' ∧ Kept cfg m' ∧ m'.wheel.numSlots = m.wheel.numSlots := by
    cases action with
    | createSession => exact createSession_kept kept positive inRange
    | removeSession id throws => exact removeSession_kept kept returns
    | touchSession id => exact touchSession_kept kept positive inRange id
    | tick throwing =>
      obtain ⟨m',done,kept',size,_⟩ := tick_kept kept returns
      exact ⟨m',done,kept',size⟩
  obtain ⟨m',done,kept',size⟩ := result
  refine ⟨m',?_,kept',size ▸ inRange⟩
  unfold step
  rw [done]
  rfl

end

theorem run_kept (initial : Kept cfg (start w))
    (positive : 0 < cfg.heartbeatTimeoutTicks) (inRange : cfg.heartbeatTimeoutTicks < w.numSlots)
    (returns : Along (step cfg) (Returns cfg) (start w) schedule)
    (reached : run (step cfg) (start w) schedule = some m) :
    Kept cfg m ∧ cfg.heartbeatTimeoutTicks < m.wheel.numSlots := by
  refine run_guarded (step cfg) (Returns cfg)
    (fun m => Kept cfg m ∧ cfg.heartbeatTimeoutTicks < m.wheel.numSlots) ?_ ⟨initial,inRange⟩ returns
    reached
  rintro m action next ⟨kept,fits⟩ returned moved
  obtain ⟨next',moved',kept'⟩ := step_kept kept positive fits returned
  cases moved.symm.trans moved'
  exact kept'

/-- In every run in which no invoked `remove_callback_` throws, the maps and the wheel correspond, and the next tick
removes a session if and only if that many ticks have passed since it was created or last touched. -/
theorem timers_correspond (cfg : Config) (requested : Nat) (word : requested < 2^64)
    (w : TimingWheel) (created : TimingWheel.create requested word = some w)
    (positive : 0 < cfg.heartbeatTimeoutTicks) (inRange : cfg.heartbeatTimeoutTicks < w.numSlots)
    (schedule : List Action) (returns : Along (step cfg) (Returns cfg) (start w) schedule)
    (m : Manager) (reached : run (step cfg) (start w) schedule = some m) :
    Corresponds cfg m ∧
    (∀ throwing, Returns cfg m (.tick throwing) → ∃ m', step cfg m (.tick throwing) = some m' ∧
      ∀ id session, m.table.sessions id = some session → (m'.table.sessions id = none ↔
        ticksSince id m.table.log = cfg.heartbeatTimeoutTicks)) ∧
    ∀ action, Returns cfg m action → (step cfg m action).isSome := by
  have initial := start_kept cfg created
  obtain ⟨kept,fits⟩ := run_kept initial positive inRange returns reached
  refine ⟨kept.corresponds,?_,?_⟩
  · intro throwing returned
    obtain ⟨m',done,_,_,removed⟩ := tick_kept kept returned
    exact ⟨m',by simp only [step,perform,done]; rfl,removed⟩
  · intro action returned
    obtain ⟨m',done,_⟩ := step_kept kept positive fits returned
    rw [done]
    rfl

def beating : Config := ⟨1,true,true⟩

/-- `remove_callback_` throws out of `on_timer_expire`, and the wheel swallows the
exception: the session stays in `sessions_` without a timer. -/
theorem throwing_callback_strands : ∃ w m, TimingWheel.create 2 (by decide) = some w ∧
    beating.heartbeatTimeoutTicks < w.numSlots ∧
    run (step beating) (start w) [.createSession,.tick [],.tick [1]] = some m ∧
    ¬Corresponds beating m := by
  obtain ⟨w,created,inRange,m,reached,stranded,unlinked⟩ : ∃ w, TimingWheel.create 2 (by decide) = some w ∧
      beating.heartbeatTimeoutTicks < w.numSlots ∧
      ∃ m, run (step beating) (start w) [.createSession,.tick [],.tick [1]] = some m ∧
        m.table.sessions 1 = some ⟨1,0⟩ ∧ m.table.timerToSession 0 = none := by
    decide +kernel
  refine ⟨w,m,created,inRange,reached,fun corresponds => ?_⟩
  have linked := (corresponds.maps 0 1).mpr ⟨1,⟨1,0⟩,stranded,rfl,rfl⟩
  exact absurd (unlinked.symm.trans linked) (by simp)

def heartbeats : List Action :=
  [.createSession,.createSession,.tick [],.touchSession 2,.tick [],.createSession,.removeSession 2 false,.tick []]

theorem timers_correspond_heartbeats : ∃ w m, TimingWheel.create 2 (by decide) = some w ∧
    run (step beating) (start w) heartbeats = some m ∧ Corresponds beating m ∧
    m.table.sessions 1 = none ∧ m.table.sessions 2 = none ∧ m.table.sessions 3 = some ⟨3,1⟩ ∧
    ∃ m', step beating m (.tick []) = some m' ∧ m'.table.sessions 3 = none := by
  obtain ⟨w,created,inRange,returns,m,reached,first,second,third,idle⟩ :
      ∃ w, TimingWheel.create 2 (by decide) = some w ∧ beating.heartbeatTimeoutTicks < w.numSlots ∧
        Along (step beating) (Returns beating) (start w) heartbeats ∧
        ∃ m, run (step beating) (start w) heartbeats = some m ∧ m.table.sessions 1 = none ∧
          m.table.sessions 2 = none ∧ m.table.sessions 3 = some ⟨3,1⟩ ∧ ticksSince 3 m.table.log = 1 := by
    decide +kernel
  obtain ⟨corresponds,removed,_⟩ := timers_correspond beating 2 (by decide) w created (by decide)
    inRange heartbeats returns m reached
  obtain ⟨m',ticked,removed⟩ := removed [] (by simp [Returns])
  exact ⟨w,m,created,reached,corresponds,first,second,third,m',ticked,(removed 3 ⟨3,1⟩ third).mpr idle⟩

end ApexPipeline.SessionManager
