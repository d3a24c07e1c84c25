import ApexPipeline.SpscMesh

/-! `drain_all_for` takes as much as it may, keeps the order of every source, and starves none. -/
namespace ApexPipeline.SpscMesh
open Execution Function

variable {n : Nat} {T H : Type}

structure Settled (dst : Fin n) (v : Inbox n T) (d : Drain n) : Prop where
  start : d.start = v.rotate
  offset : d.offset ≤ n
  total : d.total ≤ d.batchLimit
  working : d.phase ≠ .scan → d.offset < n ∧ d.source ≠ dst

def Drain.Passed (d : Drain n) (src : Fin n) : Prop :=
  ∃ offset, (offset < d.offset ∨ offset = d.offset ∧ d.phase = .notify) ∧ (d.start.val + offset) % n = src.val

/-- The books of one call for `dst`: it was made with this limit when so many messages were queued, and after
these returns and dispatches. -/
inductive Accounted (dst : Fin n) (queued limit count : Nat) (before : List Nat) (v : Inbox n T) : Prop
  | working (d : Drain n) (running : v.drain = some d) (same : d.batchLimit = limit)
      (balance : d.total + v.queued dst = queued) (dispatched : v.dispatched.length = count + d.total)
      (returned : v.returned = before)
      (passed : ∀ src, src ≠ dst → d.Passed src → v.items src = [] ∨ d.total = limit)
  | done (idle : v.drain = none) (returned : v.returned = before ++ [min limit queued])
      (dispatched : v.dispatched.length = count + min limit queued)

/-- Nothing is put into the queues of `dst`, and it makes no other call. -/
def Undisturbed (dst : Fin n) : Action n T H → Prop
  | .enqueue _ target _ => target ≠ dst
  | .drainAllFor target _ => target ≠ dst
  | _ => True

def Drain.remaining (d : Drain n) : Nat :=
  match d.phase with
  | .scan => 3 * (n - d.offset) + (d.batchLimit - d.total) + 1
  | .dequeue => 3 * (n - d.offset) + (d.batchLimit - d.total)
  | .notify => 3 * (n - d.offset) + (d.batchLimit - d.total) - 1

def proceeds (dst : Fin n) : Action n T H → Bool
  | .proceed target => target = dst
  | _ => false

/-- A source with messages waiting, seen from the `calls`-th call since the rotation stood at `first`. -/
structure Waiting (src : Fin n) (first : Fin n) (before calls : Nat) (v : Inbox n T) : Prop where
  items : v.items src ≠ []
  returned : v.returned.length = before + calls
  rotate : v.rotate.val = (first.val + calls) % n
  missed : ∀ earlier < calls, (first.val + earlier) % n ≠ src.val
  turn : ∀ d, v.drain = some d → 1 ≤ d.batchLimit ∧ (d.start = src → d.offset = 0 ∧ d.total = 0 ∧ d.phase ≠ .notify)

section Moves
variable {dst src first : Fin n} {v next : Inbox n T} {action : Action n T H} {d : Drain n}

theorem received_concat (src from_ : Fin n) (messages : List (Fin n × T)) (message : T) :
    received src (messages ++ [(from_,message)]) = received src messages ++ if from_ = src then [message] else [] := by
  by_cases same : from_ = src <;> simp [received,same]

theorem conserved_move (conserved : v.Conserved) (move : Move dst v action next) : next.Conserved := by
  intro x
  have kept := conserved x
  cases move with
  | enqueued src item apart =>
    by_cases same : x = src
    · subst same
      simp only [update_self,kept,List.append_assoc]
    · simp only [update_of_ne same,kept]
  | dispatched d message rest running phase room found =>
    simp only [received_concat]
    by_cases same : x = d.source
    · subst same
      rw [found] at kept
      simp only [if_true,update_self,kept,List.append_assoc,List.singleton_append]
    · simp only [update_of_ne same,if_neg (Ne.symm same),List.append_nil,kept]
  | _ => exact kept

theorem settled_move (settled : ∀ d, v.drain = some d → Settled dst v d) (move : Move dst v action next) :
    ∀ d, next.drain = some d → Settled dst next d := by
  intro d' running'
  cases move with
  | still => exact settled d' running'
  | enqueued => exact ⟨(settled d' running').start,(settled d' running').offset,(settled d' running').total,
      (settled d' running').working⟩
  | called limit idle =>
    cases running'
    exact ⟨rfl,Nat.zero_le _,Nat.zero_le _,nofun⟩
  | skipped d running phase inside own =>
    cases running'
    obtain ⟨start,offset,total,working⟩ := settled d running
    exact ⟨start,inside,total,fun busy => absurd phase busy⟩
  | entered d running phase inside other room =>
    cases running'
    obtain ⟨start,offset,total,working⟩ := settled d running
    exact ⟨start,offset,total,fun _ => ⟨inside,other⟩⟩
  | left => cases running'
  | dispatched d message rest running phase room found =>
    cases running'
    obtain ⟨start,offset,total,working⟩ := settled d running
    exact ⟨start,offset,room,working⟩
  | ended d running phase past =>
    cases running'
    obtain ⟨start,offset,total,working⟩ := settled d running
    exact ⟨start,offset,total,fun _ => working (by rw [phase]; nofun)⟩
  | notified d running phase =>
    cases running'
    obtain ⟨start,offset,total,working⟩ := settled d running
    exact ⟨start,(working (by rw [phase]; nofun)).1,total,fun busy => absurd rfl busy⟩

theorem queued_taken (apart : src ≠ dst) (found : v.items src = message :: rest) :
    1 + Inbox.queued { v with items := update v.items src rest } dst = v.queued dst := by
  have here := fun count : Fin n → Nat => Finset.add_sum_erase Finset.univ count (Finset.mem_univ src)
  have others : ∀ x ∈ Finset.univ.erase src, (if x = dst then 0 else (update v.items src rest x).length) =
      if x = dst then 0 else (v.items x).length := by
    intro x member
    rw [update_of_ne (Finset.ne_of_mem_erase member)]
  simp only [Inbox.queued]
  rw [← here,← here (fun x => if x = dst then 0 else (v.items x).length),Finset.sum_congr rfl others]
  simp only [if_neg apart,update_self,found,List.length_cons]
  omega

theorem queued_empty (empty : ∀ src, src ≠ dst → v.items src = []) : v.queued dst = 0 := by
  refine Finset.sum_eq_zero fun src _ => ?_
  split
  · rfl
  · rename_i apart
    rw [empty src apart,List.length_nil]

theorem left_total (settled : Settled dst v d) (past : n ≤ d.offset ∨ d.source ≠ dst ∧ d.batchLimit ≤ d.total)
    (passed : ∀ src, src ≠ dst → d.Passed src → v.items src = [] ∨ d.total = d.batchLimit) :
    d.total = min d.batchLimit (d.total + v.queued dst) := by
  have total := settled.total
  by_cases full : d.total = d.batchLimit
  · omega
  have round : n ≤ d.offset := by
    rcases past with round | ⟨_,limit⟩
    · exact round
    · omega
  have none : v.queued dst = 0 := by
    refine queued_empty fun src apart => ?_
    obtain ⟨offset,inside,meets⟩ := rotation_meets d.start src
    exact (passed src apart ⟨offset,.inl (by omega),meets⟩).resolve_right full
  omega

theorem passed_next {d d' : Drain n} (passed : d'.Passed src) (start : d'.start = d.start)
    (offset : d'.offset = d.offset + 1) (phase : d'.phase = .scan) : d.Passed src ∨ (d.start.val + d.offset) % n = src.val := by
  obtain ⟨o,before,meets⟩ := passed
  rw [start] at meets
  rcases before with less | ⟨-,notify⟩
  · rcases Nat.lt_or_ge o d.offset with earlier | last
    · exact .inl ⟨o,.inl earlier,meets⟩
    · have same : o = d.offset := by omega
      exact .inr (same ▸ meets)
  · rw [phase] at notify
    cases notify

theorem accounted_move (small : n < 2^31) (settled : ∀ d, v.drain = some d → Settled dst v d)
    (accounted : Accounted dst queued limit count before v) (undisturbed : Undisturbed dst action)
    (move : Move dst v action next) : Accounted dst queued limit count before next := by
  cases accounted with
  | done idle returned dispatched =>
    cases move with
    | still => exact .done idle returned dispatched
    | enqueued | called => exact absurd rfl undisturbed
    | skipped d running | entered d running | left d running | dispatched d _ _ running | ended d running
    | notified d running => cases idle.symm.trans running
  | working d running same balance dispatched returned passed =>
    have position := settled d running
    cases move with
    | still => exact .working d running same balance dispatched returned passed
    | enqueued | called => exact absurd rfl undisturbed
    | skipped d' running' phase inside own =>
      cases running.symm.trans running'
      refine .working _ rfl same balance dispatched returned fun src apart gone => ?_
      rcases passed_next (d := d) gone rfl rfl phase with old | last
      · exact passed src apart old
      · have here := source_val small position.offset
        rw [own,last] at here
        exact absurd (Fin.ext here).symm apart
    | entered d' running' phase inside other room =>
      cases running.symm.trans running'
      refine .working _ rfl same balance dispatched returned fun src apart gone => passed src apart ?_
      obtain ⟨o,earlier | ⟨-,impossible⟩,meets⟩ := gone
      · exact ⟨o,.inl earlier,meets⟩
      · cases impossible
    | left d' running' phase past =>
      cases running.symm.trans running'
      have total := left_total position past (same.symm ▸ passed)
      rw [same,balance] at total
      exact .done rfl (by rw [returned,total]) (by rw [dispatched,total])
    | dispatched d' message rest running' phase room found =>
      cases running.symm.trans running'
      have working := position.working (by rw [phase]; nofun)
      have taken := queued_taken working.2 found
      refine .working _ rfl same ?_ ?_ returned fun src apart gone => ?_
      · simp only [Inbox.queued] at taken balance ⊢
        omega
      · rw [List.length_append,dispatched,List.length_singleton,Nat.add_assoc]
      · have empty := (passed src apart gone).resolve_right fun full => Nat.ne_of_lt room (full.trans same.symm)
        -- so it is not the queue the message came from
        have other : src ≠ d.source := by
          rintro rfl
          cases empty.symm.trans found
        left
        rw [← empty]
        exact update_of_ne other ..
    | ended d' running' phase past =>
      cases running.symm.trans running'
      refine .working _ rfl same balance dispatched returned fun src apart gone => ?_
      obtain ⟨o,earlier | ⟨now,-⟩,meets⟩ := gone
      · exact passed src apart ⟨o,.inl earlier,meets⟩
      have here := source_val small position.offset
      have last : d.source = src := Fin.ext (by rw [here,← now,meets])
      rcases past with full | empty
      · exact .inr ((Nat.le_antisymm position.total full).trans same)
      · exact .inl (last ▸ empty)
    | notified d' running' phase =>
      cases running.symm.trans running'
      refine .working _ rfl same balance dispatched returned fun src apart gone => passed src apart ?_
      rcases passed_next (d := d) gone rfl rfl rfl with old | last
      · exact old
      · exact ⟨d.offset,.inr ⟨rfl,phase⟩,last⟩

theorem remaining_move (running : v.drain = some d) (settled : Settled dst v d) (move : Move dst v action next) :
    next.drain = none ∧ (if proceeds dst action then 1 else 0) ≤ d.remaining ∨
      ∃ d', next.drain = some d' ∧ d'.remaining + (if proceeds dst action then 1 else 0) ≤ d.remaining := by
  cases move with
  | still action uncalled idle =>
    refine .inr ⟨d,running,?_⟩
    cases action with
    | proceed target =>
      have other : target ≠ dst := fun same => idle (same ▸ rfl)
      simp [proceeds,other]
    | _ => simp [proceeds]
  | enqueued => exact .inr ⟨d,running,Nat.le_refl _⟩
  | called limit idle => cases idle.symm.trans running
  | skipped d' running' phase inside own =>
    cases running.symm.trans running'
    refine .inr ⟨_,rfl,?_⟩
    simp only [Drain.remaining,phase,proceeds,decide_true,if_true]
    omega
  | entered d' running' phase inside other room =>
    cases running.symm.trans running'
    refine .inr ⟨_,rfl,?_⟩
    simp only [Drain.remaining,phase,proceeds,decide_true,if_true]
    omega
  | left d' running' phase past =>
    cases running.symm.trans running'
    refine .inl ⟨rfl,?_⟩
    simp only [Drain.remaining,phase,proceeds,decide_true,if_true]
    omega
  | dispatched d' message rest running' phase room found =>
    cases running.symm.trans running'
    refine .inr ⟨_,rfl,?_⟩
    simp only [Drain.remaining,phase,proceeds,decide_true,if_true]
    omega
  | ended d' running' phase past =>
    cases running.symm.trans running'
    have working := (settled.working (by rw [phase]; nofun)).1
    refine .inr ⟨_,rfl,?_⟩
    simp only [Drain.remaining,phase,proceeds,decide_true,if_true]
    omega
  | notified d' running' phase =>
    cases running.symm.trans running'
    have working := (settled.working (by rw [phase]; nofun)).1
    refine .inr ⟨_,rfl,?_⟩
    simp only [Drain.remaining,phase,proceeds,decide_true,if_true]
    omega

theorem idle_move (idle : v.drain = none) (undisturbed : Undisturbed dst action) (move : Move dst v action next) :
    next.drain = none ∧ proceeds dst action = false := by
  cases move with
  | still action uncalled waits =>
    refine ⟨idle,?_⟩
    cases action with
    | proceed target => exact decide_eq_false fun same => waits (same ▸ rfl)
    | _ => rfl
  | enqueued | called => exact absurd rfl undisturbed
  | skipped d running | entered d running | left d running | dispatched d _ _ running | ended d running
  | notified d running => cases idle.symm.trans running

theorem received_move (src : Fin n) (move : Move dst v action next) :
    (received src v.dispatched).length ≤ (received src next.dispatched).length := by
  cases move with
  | dispatched d message => simp [received_concat]
  | _ => exact Nat.le_refl _

theorem source_first (small : n < 2^31) (offset : d.offset = 0) : d.source = d.start := by
  apply Fin.ext
  rw [source_val small (by omega),offset,Nat.add_zero,Nat.mod_eq_of_lt d.start.isLt]

theorem waiting_move (small : n < 2^31) (apart : src ≠ dst) (settled : ∀ d, v.drain = some d → Settled dst v d)
    (limits : ∀ limit, action = .drainAllFor dst limit → 1 ≤ limit) (waiting : Waiting src first before calls v)
    (move : Move dst v action next) :
    (received src v.dispatched).length < (received src next.dispatched).length ∨
      ∃ calls', Waiting src first before calls' next := by
  obtain ⟨items,returned,rotate,missed,turn⟩ := waiting
  cases move with
  | still => exact .inr ⟨calls,items,returned,rotate,missed,turn⟩
  | enqueued other item =>
    refine .inr ⟨calls,?_,returned,rotate,missed,turn⟩
    by_cases same : src = other
    · subst same
      simp only [update_self]
      exact List.append_ne_nil_of_left_ne_nil items _
    · simp only [update_of_ne same]
      exact items
  | called limit idle =>
    refine .inr ⟨calls,items,returned,rotate,missed,?_⟩
    rintro d ⟨⟩
    exact ⟨limits limit rfl,fun _ => ⟨rfl,rfl,nofun⟩⟩
  | skipped d running phase inside own =>
    refine .inr ⟨calls,items,returned,rotate,missed,?_⟩
    rintro _ ⟨⟩
    refine ⟨(turn d running).1,fun mine => absurd own ?_⟩
    rw [source_first small ((turn d running).2 mine).1,mine]
    exact apart
  | entered d running phase inside other room =>
    refine .inr ⟨calls,items,returned,rotate,missed,?_⟩
    rintro _ ⟨⟩
    exact ⟨(turn d running).1,fun mine => ⟨((turn d running).2 mine).1,((turn d running).2 mine).2.1,nofun⟩⟩
  | left d running phase past =>
    have start := (settled d running).start
    have missing : d.start ≠ src := by
      intro mine
      obtain ⟨limit,first⟩ := turn d running
      obtain ⟨offset,total,-⟩ := first mine
      have := d.start.isLt
      omega
    refine .inr ⟨calls + 1,items,?_,?_,fun earlier less => ?_,nofun⟩
    · simp only [List.length_append,List.length_singleton,returned,Nat.add_assoc]
    · simp only [start,rotate,Nat.mod_add_mod,Nat.add_assoc]
    · rcases Nat.lt_succ_iff_lt_or_eq.mp less with before | rfl
      · exact missed earlier before
      · rw [← rotate,← start]
        exact fun same => missing (Fin.ext same)
  | dispatched d message rest running phase room found =>
    by_cases mine : d.source = src
    · refine .inl ?_
      simp [received_concat,mine]
    refine .inr ⟨calls,?_,returned,rotate,missed,?_⟩
    · simp only [update_of_ne (Ne.symm mine)]
      exact items
    · rintro _ ⟨⟩
      refine ⟨(turn d running).1,fun starts => absurd ?_ mine⟩
      exact (source_first small ((turn d running).2 starts).1).trans starts
  | ended d running phase past =>
    refine .inr ⟨calls,items,returned,rotate,missed,?_⟩
    rintro _ ⟨⟩
    obtain ⟨limit,first⟩ := turn d running
    refine ⟨limit,fun starts => ?_⟩
    obtain ⟨offset,total,-⟩ := first starts
    rcases past with full | empty
    · omega
    · rw [source_first small offset,starts] at empty
      exact absurd empty items
  | notified d running phase =>
    refine .inr ⟨calls,items,returned,rotate,missed,?_⟩
    rintro _ ⟨⟩
    exact ⟨(turn d running).1,fun starts => absurd phase ((turn d running).2 starts).2.2⟩

end Moves

section Runs
variable {s t : State n T H} {dst src : Fin n}

def Sound (s : State n T H) : Prop :=
  ∀ dst, (inbox s dst).Conserved ∧ ∀ d, (inbox s dst).drain = some d → Settled dst (inbox s dst) d

theorem sound_step (s : State n T H) (action : Action n T H) (next : State n T H) (sound : Sound s)
    (stepped : step s action = some next) : Sound next := fun dst =>
  ⟨conserved_move (sound dst).1 (step_move stepped dst),settled_move (sound dst).2 (step_move stepped dst)⟩

theorem sound_start (mesh : Mesh n T H) : Sound (start mesh) := fun _ => ⟨fun _ => rfl,nofun⟩

theorem call_accounted {next : State n T H} (stepped : step s (.drainAllFor dst limit) = some next) :
    s.drains dst = none ∧ next.drains dst = some ⟨s.mesh.drainRotate dst,0,0,limit,.scan⟩ ∧
      Accounted dst ((inbox s dst).queued dst) limit (s.dispatched dst).length (s.returned dst) (inbox next dst) := by
  simp only [step] at stepped
  split at stepped <;> cases stepped
  rename_i idle
  refine ⟨idle,update_self ..,?_⟩
  rw [setDrain_own]
  refine .working _ rfl rfl (Nat.zero_add _) rfl rfl ?_
  rintro src apart ⟨offset,earlier | ⟨-,notify⟩,-⟩
  · exact absurd earlier (Nat.not_lt_zero _)
  · cases notify

theorem accounted_run (sound : Sound s) (accounted : Accounted dst queued limit count before (inbox s dst))
    (undisturbed : ∀ action ∈ schedule, Undisturbed dst action) (runs : run step s schedule = some t) :
    Accounted dst queued limit count before (inbox t dst) := by
  refine (run_guarded step (fun _ => Undisturbed dst)
    (fun s => Sound s ∧ Accounted dst queued limit count before (inbox s dst)) ?_ ⟨sound,accounted⟩
    (Along.of_forall fun _ => undisturbed) runs).2
  rintro s action next ⟨sound,accounted⟩ undisturbed stepped
  exact ⟨sound_step s action next sound stepped,
    accounted_move s.mesh.small (sound dst).2 accounted undisturbed (step_move stepped dst)⟩

theorem idle_run {schedule : List (Action n T H)} (idle : s.drains dst = none)
    (undisturbed : ∀ action ∈ schedule, Undisturbed dst action) (runs : run step s schedule = some t) :
    schedule.countP (proceeds dst) = 0 := by
  induction schedule generalizing s with
  | nil => rfl
  | cons action rest ih =>
    obtain ⟨next,stepped,later⟩ := run_cons.mp runs
    obtain ⟨still,other⟩ := idle_move idle (undisturbed action List.mem_cons_self) (step_move stepped dst)
    rw [List.countP_cons,ih still (fun other member => undisturbed other (List.mem_cons_of_mem action member)) later,other]
    rfl

theorem proceeds_run (sound : Sound s) (running : s.drains dst = some d)
    (undisturbed : ∀ action ∈ schedule, Undisturbed dst action) (runs : run step s schedule = some t) :
    schedule.countP (proceeds dst) ≤ d.remaining := by
  induction schedule generalizing s d with
  | nil => exact Nat.zero_le _
  | cons action rest ih =>
    obtain ⟨next,stepped,later⟩ := run_cons.mp runs
    have calm := fun other member => undisturbed other (List.mem_cons_of_mem action member)
    rw [List.countP_cons]
    rcases remaining_move running ((sound dst).2 d running) (step_move stepped dst) with ⟨idle,one⟩ | ⟨d',running',less⟩
    · rw [idle_run idle calm later,Nat.zero_add]
      exact one
    · exact Nat.le_trans (Nat.add_le_add_right (ih (sound_step s action next sound stepped) running' calm later) _) less

theorem waiting_run (apart : src ≠ dst) (sound : Sound s) (waiting : Waiting src first before calls (inbox s dst))
    (limits : ∀ limit, .drainAllFor dst limit ∈ schedule → 1 ≤ limit) (runs : run step s schedule = some t) :
    (received src (s.dispatched dst)).length < (received src (t.dispatched dst)).length ∨
      ∃ calls', Waiting src first before calls' (inbox t dst) := by
  have held := run_guarded step (fun _ action => ∀ limit, action = .drainAllFor dst limit → 1 ≤ limit)
    (fun u => Sound u ∧ ((received src (s.dispatched dst)).length < (received src (u.dispatched dst)).length ∨
      (received src (s.dispatched dst)).length ≤ (received src (u.dispatched dst)).length ∧
      ∃ calls', Waiting src first before calls' (inbox u dst))) ?_ ⟨sound,.inr ⟨Nat.le_refl _,calls,waiting⟩⟩
    (Along.of_forall fun _ action member limit same => limits limit (same ▸ member)) runs
  · exact held.2.imp id fun waits => waits.2
  · rintro u action next ⟨sound,state⟩ limits stepped
    have move := step_move stepped dst
    have grown := received_move src move
    refine ⟨sound_step u action next sound stepped,?_⟩
    rcases state with served | ⟨same,calls',waiting⟩
    · exact .inl (Nat.lt_of_lt_of_le served grown)
    · rcases waiting_move u.mesh.small apart (sound dst).2 limits waiting move with served | waits
      · exact .inl (Nat.lt_of_le_of_lt same served)
      · exact .inr ⟨Nat.le_trans same grown,waits⟩

end Runs

/-- In every state and for every destination: what was dispatched of a source is what it enqueued first, in that
order, and the rest is in its queue. A call, while nothing is put into the queues of its destination, returns after
so many steps at most and has then dispatched as many messages as its limit and the queues allow. And in as many
calls as there are cores, each source with messages waiting is served. -/
theorem drain_ordered_and_fair (mesh : Mesh n T H) (schedule : List (Action n T H)) (s : State n T H)
    (runs : run step (start mesh) schedule = some s) (dst : Fin n) :
    (∀ src, s.enqueued src dst = received src (s.dispatched dst) ++ (s.mesh.queues src dst).items) ∧
    (∀ limit rest t, run step s (.drainAllFor dst limit :: rest) = some t → (∀ action ∈ rest, Undisturbed dst action) →
      rest.countP (proceeds dst) ≤ 3 * n + limit + 1 ∧
      (t.drains dst ≠ none → (step t (.proceed dst)).isSome) ∧
      (t.drains dst = none → t.returned dst = s.returned dst ++ [min limit ((inbox s dst).queued dst)] ∧
        (t.dispatched dst).length = (s.dispatched dst).length + min limit ((inbox s dst).queued dst))) ∧
    ∀ src rest t, src ≠ dst → s.drains dst = none → run step s rest = some t →
      (∀ limit, .drainAllFor dst limit ∈ rest → 1 ≤ limit) → (s.returned dst).length + n ≤ (t.returned dst).length →
      (s.mesh.queues src dst).items ≠ [] →
      (received src (s.dispatched dst)).length < (received src (t.dispatched dst)).length := by
  have sound : Sound s := run_invariant Sound sound_step (sound_start mesh) runs
  refine ⟨(sound dst).1,fun limit rest t continues undisturbed => ?_,
    fun src rest t apart idle continues limits calls items => ?_⟩
  · obtain ⟨next,stepped,later⟩ := run_cons.mp continues
    obtain ⟨-,running,accounted⟩ := call_accounted stepped
    have sound' := sound_step s _ next sound stepped
    refine ⟨proceeds_run sound' running undisturbed later,fun busy => ?_,fun idle => ?_⟩
    · rw [step,Option.isSome_map]
      exact Option.isSome_iff_ne_none.mpr busy
    · cases accounted_run sound' accounted undisturbed later with
      | working d running => cases idle.symm.trans running
      | done _ returned dispatched => exact ⟨returned,dispatched⟩
  · have waiting : Waiting src (s.mesh.drainRotate dst) (s.returned dst).length 0 (inbox s dst) :=
      ⟨items,rfl,by rw [Nat.add_zero,Nat.mod_eq_of_lt (Fin.isLt _)]; rfl,fun _ less => absurd less (Nat.not_lt_zero _),
        fun d running => by cases idle.symm.trans running⟩
    rcases waiting_run apart sound waiting limits continues with served | ⟨round,still⟩
    · exact served
    · obtain ⟨offset,inside,meets⟩ := rotation_meets (s.mesh.drainRotate dst) src
      have enough : (t.returned dst).length = (s.returned dst).length + round := still.returned
      exact absurd meets (still.missed offset (by omega))

def three : Mesh 3 Nat Unit :=
  ⟨fun _ _ => (SpscQueue.create 4 (by decide) fun _ => 0).get (by decide),fun _ => 0,by decide⟩

def single (steps : Nat) : List (Action 3 Nat Unit) := .drainAllFor 1 1 :: List.replicate steps (.proceed 1)

/-- Core 0 has two messages for core 1, and core 2 has one. The first call takes one of the three, and three
calls serve core 2 as well. -/
theorem drain_three_cores : ∃ s, run step (start three) [.enqueue 0 1 5,.enqueue 0 1 6,.enqueue 2 1 7] = some s ∧
    (∃ t, run step s (single 6) = some t ∧ t.returned 1 = [min 1 ((inbox s 1).queued 1)]) ∧
    ∃ t, run step s (single 6 ++ single 6 ++ single 9) = some t ∧ 0 < (received 2 (t.dispatched 1)).length := by
  obtain ⟨s,runs,fresh,idle,blank,items,⟨t,once,past⟩,u,thrice,calls⟩ :
      ∃ s, run step (start three) [.enqueue 0 1 5,.enqueue 0 1 6,.enqueue 2 1 7] = some s ∧
        s.returned 1 = [] ∧ s.drains 1 = none ∧ s.dispatched 1 = [] ∧ (s.mesh.queues 2 1).items ≠ [] ∧
        (∃ t, run step s (single 6) = some t ∧ t.drains 1 = none) ∧
        ∃ u, run step s (single 6 ++ single 6 ++ single 9) = some u ∧ (u.returned 1).length = 3 := by decide +kernel
  obtain ⟨-,call,fair⟩ := drain_ordered_and_fair three _ s runs 1
  refine ⟨s,runs,⟨t,once,?_⟩,u,thrice,?_⟩
  · have quiet : ∀ action ∈ List.replicate 6 (.proceed 1 : Action 3 Nat Unit), Undisturbed 1 action := by
      intro action member
      cases List.eq_of_mem_replicate member
      trivial
    rw [((call 1 _ t once quiet).2.2 past).1,fresh]
    rfl
  · have served := fair 2 _ u (by decide) idle thrice (by simp [single]) (by rw [fresh,calls]; decide) items
    rwa [blank] at served

end ApexPipeline.SpscMesh
