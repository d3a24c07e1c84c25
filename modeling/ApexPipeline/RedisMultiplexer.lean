import ApexPipeline.Execution

/-! `redis_multiplexer.cpp`: commands of many coroutines share one connection, and a reply goes to the oldest command
that waits. Everything runs on one thread, so a step is what happens between two suspensions; a timer that has
expired or was cancelled only queues its handler. `submit_formatted_command`, `command` and `authenticate` are each a
`submit`. The destructor is left out. -/
namespace ApexPipeline.RedisMultiplexer
open Execution

/-- A reply as the server sent it, with the command that it answers. -/
structure Reply where
  command : Nat
  error : Bool
  body : List UInt8
  deriving DecidableEq, Repr

/-- `Result<RedisReply>`. -/
inductive Outcome where
  | ok (reply : Reply)
  | timeout
  | adapterError
  deriving DecidableEq, Repr

def Outcome.Own (id : Nat) : Outcome → Prop
  | .ok reply => reply.command = id
  | _ => True

/-- `PendingCommand`. Its two timers outlive it in the executor, see `Command`. -/
structure Slot where
  result : Outcome
  timedOut : Bool
  cancelled : Bool
  deriving DecidableEq, Repr

/-- The wait on `timeout`: `queued` is a handler that has not run yet, with no error
when `expired`. -/
inductive Timer where
  | armed
  | queued (expired : Bool)
  | done
  deriving DecidableEq, Repr

/-- Cancelling a wait, or destroying its timer, does not reach a handler that is queued. -/
def Timer.cancel : Timer → Timer
  | .armed => .queued false
  | timer => timer

/-- The coroutine of a command: on `resolver`, queued to go on, or returned. -/
inductive Coroutine where
  | waiting
  | woken
  | finished (outcome : Outcome)
  deriving DecidableEq, Repr

def Coroutine.wake : Coroutine → Coroutine
  | .waiting => .woken
  | coroutine => coroutine

def Coroutine.returned : Coroutine → Bool
  | .finished _ => true
  | _ => false

/-- A command with its slot, `none` before and after the slot's life. `fault` records that
a slot was touched after it had been destroyed. -/
structure Command where
  slot : Option Slot
  constructed : Nat
  destroyed : Nat
  timer : Timer
  coroutine : Coroutine
  fault : Bool
  deriving DecidableEq, Repr

namespace Command

def refused : Command := ⟨none,0,0,.done,.finished .adapterError,false⟩

def submitted : Command := ⟨some ⟨.timeout,false,false⟩,1,0,.armed,.waiting,false⟩

/-- `slab_.destroy`, which also destroys both timers. -/
def destroy (c : Command) : Command :=
  match c.slot with
  | none => { c with destroyed := c.destroyed + 1, fault := true }
  | some _ => { c with
      slot := none
      destroyed := c.destroyed + 1
      timer := c.timer.cancel
      coroutine := c.coroutine.wake }

/-- What `static_on_reply` does to the command at the front of `pending_`. -/
def onReply (reply : Option Reply) (c : Command) : Command :=
  match c.slot with
  | none => { c with fault := true }
  | some slot =>
    if slot.cancelled then c
    else if slot.timedOut then c.destroy
    else
      let result := match reply with
        | some r => if r.error then .adapterError else .ok r
        | none => .adapterError
      { c with slot := some { slot with result := result }, coroutine := c.coroutine.wake }

/-- The body of the loop of `cancel_all_pending`. -/
def cancel (error : Outcome) (c : Command) : Command :=
  match c.slot with
  | none => { c with fault := true }
  | some slot =>
    let c := { c with slot := some { slot with result := error, cancelled := true } }
    if slot.timedOut then c.destroy else { c with coroutine := c.coroutine.wake }

def onTimeout (expired : Bool) (c : Command) : Command :=
  let c := { c with timer := .done }
  if expired then
    match c.slot with
    | none => { c with fault := true }
    | some slot => { c with
        slot := some { slot with timedOut := true, result := .timeout }
        coroutine := c.coroutine.wake }
  else c

def releasePending (c : Command) : Command :=
  match c.slot with
  | none => { c with fault := true }
  | some slot => if slot.timedOut then c else c.destroy

/-- What the coroutine does after its wait on `resolver`. -/
def resume (c : Command) : Command :=
  match c.slot with
  | none => { c with fault := true }
  | some slot =>
    { c with timer := c.timer.cancel, coroutine := .finished slot.result }.releasePending

end Command

/-- `outstanding` are the commands that hiredis has to call back for, oldest first.
`connected` says that there is a `conn_`. -/
structure State where
  commands : Nat → Command
  next : Nat
  pending : List Nat
  outstanding : List Nat
  connected : Bool

namespace State

def update (s : State) (id : Nat) (f : Command → Command) : State :=
  { s with commands := Function.update s.commands id (f (s.commands id)) }

def register (s : State) (c : Command) : State :=
  { s with commands := Function.update s.commands s.next c, next := s.next + 1 }

/-- `room` is the slab's answer, `accepted` that of hiredis. -/
def submit (s : State) (room accepted : Bool) : State :=
  if s.connected ∧ room then
    if accepted then
      { s.register .submitted with
        pending := s.pending ++ [s.next]
        outstanding := s.outstanding ++ [s.next] }
    else s.register { Command.submitted.destroy with coroutine := .finished .adapterError }
  else s.register .refused

/-- A reply that finds no command is dropped. -/
def staticOnReply (s : State) (reply : Option Reply) : State :=
  match s.pending with
  | [] => s
  | front :: rest => { s with pending := rest }.update front (Command.onReply reply)

def cancelAllPending (s : State) (error : Outcome) : State :=
  s.pending.foldl (fun s id => s.update id (Command.cancel error)) { s with pending := [] }

/-- `redisAsyncFree`: every command that waits for hiredis is called back without a reply. -/
def flush (s : State) : State :=
  s.outstanding.foldl (fun s _ => s.staticOnReply none) { s with outstanding := [] }

/-- `conn_.reset()`. -/
def disconnect (s : State) : State :=
  if s.connected then { s.flush with connected := false } else s

def close (s : State) : State := (s.cancelAllPending .adapterError).disconnect

end State

inductive Action where
  | submit (room accepted : Bool)
  | reply (error : Bool) (body : List UInt8)
  | lost
  | connect
  | disconnect
  | onDisconnect
  | close
  | expire (id : Nat)
  | timeout (id : Nat)
  | resume (id : Nat)
  deriving DecidableEq, Repr

/-- `lost` is the server's end of the connection, which `conn_` does not notice.
`on_disconnect` is called after `conn_.reset()` only. -/
def step (s : State) : Action → Option State
  | .submit room accepted => some (s.submit room accepted)
  | .reply error body =>
    match s.outstanding with
    | [] => none
    | id :: rest => some ({ s with outstanding := rest }.staticOnReply (some ⟨id,error,body⟩))
  | .lost => some s.flush
  | .connect => some { s.disconnect with connected := true }
  | .disconnect => some s.disconnect
  | .onDisconnect => if s.connected then none else some (s.cancelAllPending .adapterError)
  | .close => some s.close
  | .expire id =>
    match (s.commands id).timer with
    | .armed => some (s.update id fun c => { c with timer := .queued true })
    | _ => none
  | .timeout id =>
    match (s.commands id).timer with
    | .queued expired => some (s.update id (Command.onTimeout expired))
    | _ => none
  | .resume id =>
    match (s.commands id).coroutine with
    | .woken => some (s.update id Command.resume)
    | _ => none

def start : State := ⟨fun _ => .refused,0,[],[],false⟩

/-- A command whose slot has timed out has also returned. -/
def Command.Settled (c : Command) : Prop :=
  c.slot.any Slot.timedOut = true → c.coroutine.returned = true

instance (c : Command) : Decidable c.Settled := inferInstanceAs (Decidable (_ → _))

/-- A time-out handler without an error finds its command in `pending_`, and a command
that has timed out leaves `pending_` only after its coroutine has gone on. -/
def Ordered (s : State) : Action → Prop
  | .timeout id => (s.commands id).timer = .queued true → id ∈ s.pending
  | .reply _ _ => ∀ id ∈ s.pending.take 1, (s.commands id).Settled
  | .submit _ _ | .expire _ | .resume _ => True
  | _ => ∀ id ∈ s.pending, (s.commands id).Settled

instance (s : State) (action : Action) : Decidable (Ordered s action) := by
  unfold Ordered
  split <;> infer_instance

/-- Who destroys the slot: its coroutine, or, once the slot has timed out, the queue. -/
inductive Owned (id : Nat) (queued : Prop) : Command → Prop
  | waiting : queued → timer = .armed ∨ timer = .queued true → result.Own id →
      Owned id queued ⟨some ⟨result,false,false⟩,1,0,timer,.waiting,false⟩
  | matched : ¬queued → result.Own id → Owned id queued ⟨some ⟨result,false,cancelled⟩,1,0,timer,.woken,false⟩
  | timedOut : queued → result.Own id → Owned id queued ⟨some ⟨result,true,false⟩,1,0,timer,.woken,false⟩
  | abandoned : queued → outcome.Own id →
      Owned id queued ⟨some ⟨result,true,false⟩,1,0,timer,.finished outcome,false⟩
  | closed : ¬queued → outcome.Own id → count ≤ 1 → Owned id queued ⟨none,count,count,timer,.finished outcome,false⟩

namespace Owned
variable {id : Nat} {c : Command} {queued other : Prop}

variable (owned : Owned id queued c)
include owned

theorem onReply (front : queued) (settled : c.Settled) (gone : ¬other)
    (reply : Option Reply) (own : ∀ r ∈ reply, r.command = id) :
    Owned id other (c.onReply reply) := by
  cases owned with
  | waiting _ _ _ =>
    refine .matched gone ?_
    cases reply with
    | none => trivial
    | some r =>
      change Outcome.Own id (if r.error then .adapterError else .ok r)
      split
      · trivial
      · exact own r rfl
  | matched outside _ | closed outside _ _ => exact absurd front outside
  | timedOut _ _ => exact absurd (settled rfl) nofun
  | abandoned _ own => exact .closed gone own (Nat.le_refl 1)

theorem cancel (member : queued) (settled : c.Settled) (gone : ¬other) :
    Owned id other (c.cancel .adapterError) := by
  cases owned with
  | waiting _ _ _ => exact .matched gone trivial
  | matched outside _ | closed outside _ _ => exact absurd member outside
  | timedOut _ _ => exact absurd (settled rfl) nofun
  | abandoned _ own => exact .closed gone own (Nat.le_refl 1)

theorem onTimeout (timer : c.timer = .queued expired) (member : expired = true → queued) :
    Owned id queued (c.onTimeout expired) := by
  cases expired with
  | true =>
    cases owned with
    | waiting inside _ _ | timedOut inside _ => exact .timedOut inside trivial
    | matched outside _ | closed outside _ _ => exact absurd (member rfl) outside
    | abandoned inside own => exact .abandoned inside own
  | false =>
    cases owned with
    | waiting _ pending _ =>
      cases timer
      exact absurd pending (by simp)
    | matched outside own => exact .matched outside own
    | timedOut inside own => exact .timedOut inside own
    | abandoned inside own => exact .abandoned inside own
    | closed outside own count => exact .closed outside own count

theorem expire : Owned id queued { c with timer := .queued true } := by
  cases owned with
  | waiting inside _ own => exact .waiting inside (.inr rfl) own
  | matched outside own => exact .matched outside own
  | timedOut inside own => exact .timedOut inside own
  | abandoned inside own => exact .abandoned inside own
  | closed outside own count => exact .closed outside own count

theorem resume (woken : c.coroutine = .woken) :
    Owned id queued c.resume ∧ c.resume.coroutine.returned = true := by
  cases owned with
  | waiting _ _ _ | abandoned _ _ | closed _ _ _ => cases woken
  | matched outside own => exact ⟨.closed outside own (Nat.le_refl 1),rfl⟩
  | timedOut inside own => exact ⟨.abandoned inside own,rfl⟩

theorem congr (same : queued ↔ other) : Owned id other c :=
  propext same ▸ owned

end Owned

structure Sound (s : State) : Prop where
  matched : s.outstanding = s.pending
  distinct : s.pending.Nodup
  numbered : ∀ id ∈ s.pending, id < s.next
  offline : s.connected = false → s.pending = []
  owned : ∀ id, Owned id (id ∈ s.pending) (s.commands id)

theorem updateAll_eq {ids : List Nat} (distinct : ids.Nodup) (f : Command → Command) (s : State) :
    ids.foldl (fun s id => s.update id f) s =
      { s with commands := fun id => if id ∈ ids then f (s.commands id) else s.commands id } := by
  induction ids generalizing s with
  | nil => simp
  | cons first rest ih =>
    obtain ⟨fresh,distinct⟩ := List.nodup_cons.mp distinct
    rw [List.foldl_cons,ih distinct]
    simp only [State.update,State.mk.injEq,and_true]
    funext id
    by_cases same : id = first
    · subst same
      simp [fresh]
    · simp [same]

theorem flushed_eq (ids : List Nat) (s : State) :
    ids.foldl (fun s _ => s.staticOnReply none) { s with pending := ids } =
      ids.foldl (fun s id => s.update id (Command.onReply none)) { s with pending := [] } := by
  induction ids generalizing s with
  | nil => rfl
  | cons first rest ih => exact ih (s.update first (Command.onReply none))

theorem orphans_eq (ids : List Nat) (s : State) (empty : s.pending = []) :
    ids.foldl (fun s _ => s.staticOnReply none) s = s := by
  have orphan : s.staticOnReply none = s := by
    unfold State.staticOnReply
    rw [empty]
  induction ids with
  | nil => rfl
  | cons _ rest ih => rw [List.foldl_cons,orphan,ih]

namespace Sound
variable {s : State}

section
variable (sound : Sound s)
include sound

theorem update {id : Nat} {f : Command → Command}
    (owned : Owned id (id ∈ s.pending) (f (s.commands id))) : Sound (s.update id f) where
  matched := sound.matched
  distinct := sound.distinct
  numbered := sound.numbered
  offline := sound.offline
  owned := by
    intro other
    by_cases same : other = id
    · subst same
      simpa [State.update] using owned
    · simpa [State.update,same] using sound.owned other

theorem cleared {f : Command → Command} (connected : Bool)
    (leaves : ∀ id ∈ s.pending, Owned id False (f (s.commands id))) :
    Sound ⟨fun id => if id ∈ s.pending then f (s.commands id) else s.commands id,s.next,[],[],connected⟩ where
  matched := rfl
  distinct := .nil
  numbered := nofun
  offline _ := rfl
  owned := by
    intro id
    have outside : False ↔ id ∈ ([] : List Nat) := by simp
    by_cases member : id ∈ s.pending
    · simpa only [if_pos member] using (leaves id member).congr outside
    · simpa only [if_neg member] using (sound.owned id).congr (by simp [member])

theorem flush_eq : s.flush =
    ⟨fun id => if id ∈ s.pending then (s.commands id).onReply none else s.commands id,s.next,[],[],
      s.connected⟩ := by
  unfold State.flush
  rw [sound.matched]
  exact (flushed_eq s.pending { s with outstanding := [] }).trans
    (updateAll_eq sound.distinct (Command.onReply none) _)

theorem cancelAllPending_eq (error : Outcome) : s.cancelAllPending error =
    ⟨fun id => if id ∈ s.pending then (s.commands id).cancel error else s.commands id,s.next,[],
      s.outstanding,s.connected⟩ :=
  updateAll_eq sound.distinct (Command.cancel error) _

theorem close_eq : s.close =
    ⟨fun id => if id ∈ s.pending then (s.commands id).cancel .adapterError else s.commands id,
      s.next,[],[],false⟩ := by
  unfold State.close State.disconnect
  rw [sound.cancelAllPending_eq]
  cases online : s.connected with
  | true =>
    rw [if_pos rfl]
    unfold State.flush
    rw [orphans_eq _ _ rfl]
  | false =>
    have idle : s.outstanding = [] := sound.matched.trans (sound.offline online)
    simp [idle]

end

section
variable (sound : Sound s) (settled : ∀ id ∈ s.pending, (s.commands id).Settled)
include sound settled

theorem onReply_leaves :
    ∀ id ∈ s.pending, Owned id False ((s.commands id).onReply none) :=
  fun id member => (sound.owned id).onReply member (settled id member) not_false none nofun

theorem cancel_leaves :
    ∀ id ∈ s.pending, Owned id False ((s.commands id).cancel .adapterError) :=
  fun id member => (sound.owned id).cancel member (settled id member) not_false

theorem disconnect (connected : Bool) : Sound { s.disconnect with connected := connected } := by
  unfold State.disconnect
  cases online : s.connected with
  | true =>
    rw [if_pos rfl,sound.flush_eq]
    exact sound.cleared connected (sound.onReply_leaves settled)
  | false =>
    have idle := sound.offline online
    exact ⟨sound.matched,sound.distinct,sound.numbered,fun _ => idle,sound.owned⟩

end

theorem disconnect_offline (s : State) : s.disconnect = { s.disconnect with connected := false } := by
  unfold State.disconnect
  split
  · rfl
  · rename_i offline
    rw [← Bool.eq_false_iff.mpr offline]

theorem register (sound : Sound s) (c : Command) (owned : Owned s.next False c) : Sound (s.register c) where
  matched := sound.matched
  distinct := sound.distinct
  numbered id member := Nat.lt_succ_of_lt (sound.numbered id member)
  offline := sound.offline
  owned := by
    intro id
    by_cases same : id = s.next
    · subst same
      have outside : s.next ∉ s.pending := fun member => Nat.lt_irrefl _ (sound.numbered _ member)
      simpa [State.register] using owned.congr (by simp [outside])
    · simpa [State.register,same] using sound.owned id

theorem submit (sound : Sound s) (room accepted : Bool) : Sound (s.submit room accepted) := by
  unfold State.submit
  split
  · rename_i able
    split
    · have fresh : s.next ∉ s.pending := fun member => Nat.lt_irrefl _ (sound.numbered _ member)
      refine ⟨congrArg (· ++ [s.next]) sound.matched,?_,?_,?_,?_⟩
      · exact List.nodup_append.mpr ⟨sound.distinct,List.pairwise_singleton _ _,by
          intro a member b last same
          cases List.mem_singleton.mp last
          exact fresh (same ▸ member)⟩
      · exact forall_concat (fun id earlier => Nat.lt_succ_of_lt (sound.numbered id earlier)) (Nat.lt_succ_self _)
      · intro offline
        cases able.1.symm.trans offline
      · intro id
        by_cases same : id = s.next
        · subst same
          simpa [State.register,Command.submitted] using (Owned.waiting (by simp) (.inl rfl) trivial :
              Owned s.next (s.next ∈ s.pending ++ [s.next]) Command.submitted)
        · simpa [State.register,same] using sound.owned id
    · exact sound.register _ (.closed not_false trivial (Nat.le_refl 1))
  · exact sound.register _ (.closed not_false trivial (Nat.zero_le 1))

theorem reply (sound : Sound s) {id : Nat} {rest : List Nat} (error : Bool) (body : List UInt8)
    (outstanding : s.outstanding = id :: rest) (settled : (s.commands id).Settled) :
    Sound ({ s with outstanding := rest }.staticOnReply (some ⟨id,error,body⟩)) := by
  have pending : s.pending = id :: rest := sound.matched.symm.trans outstanding
  have distinct := sound.distinct
  rw [pending] at distinct
  obtain ⟨gone,distinct⟩ := List.nodup_cons.mp distinct
  simp only [State.staticOnReply,pending]
  refine ⟨rfl,distinct,?_,?_,?_⟩
  · intro other member
    exact sound.numbered other (by rw [pending]; exact List.mem_cons_of_mem _ member)
  · intro offline
    cases pending.symm.trans (sound.offline offline)
  · intro other
    by_cases same : other = id
    · subst same
      have member : other ∈ s.pending := by simp [pending]
      simpa [State.update] using (sound.owned other).onReply member settled gone
        (some ⟨other,error,body⟩) (by rintro r ⟨⟩; rfl)
    · simpa [State.update,same] using (sound.owned other).congr (by simp [pending,same])

end Sound

theorem sound_start : Sound start :=
  ⟨rfl,.nil,nofun,fun _ => rfl,fun _ => .closed nofun trivial (Nat.zero_le 1)⟩

theorem sound_step (s : State) (action : Action) (next : State) (sound : Sound s)
    (ordered : Ordered s action) (stepped : step s action = some next) : Sound next := by
  cases action with
  | submit room accepted =>
    cases stepped
    exact sound.submit room accepted
  | reply error body =>
    simp only [step] at stepped
    split at stepped <;> cases stepped
    rename_i id rest outstanding
    refine sound.reply error body outstanding (ordered id ?_)
    simp [← sound.matched,outstanding]
  | lost =>
    cases stepped
    rw [sound.flush_eq]
    exact sound.cleared _ (sound.onReply_leaves ordered)
  | connect =>
    cases stepped
    exact sound.disconnect ordered true
  | disconnect =>
    cases stepped
    rw [Sound.disconnect_offline]
    exact sound.disconnect ordered false
  | onDisconnect =>
    obtain ⟨offline,rfl⟩ := of_unless stepped
    have idle := sound.offline (Bool.eq_false_iff.mpr offline)
    rw [sound.cancelAllPending_eq,sound.matched,idle]
    simpa [idle] using sound.cleared s.connected (sound.cancel_leaves ordered)
  | close =>
    cases stepped
    rw [sound.close_eq]
    exact sound.cleared false (sound.cancel_leaves ordered)
  | expire id =>
    simp only [step] at stepped
    split at stepped <;> cases stepped
    exact sound.update (sound.owned id).expire
  | timeout id =>
    simp only [step] at stepped
    split at stepped <;> cases stepped
    rename_i expired timer
    refine sound.update ((sound.owned id).onTimeout timer ?_)
    rintro rfl
    exact ordered timer
  | resume id =>
    simp only [step] at stepped
    split at stepped <;> cases stepped
    rename_i woken
    exact sound.update ((sound.owned id).resume woken).1

theorem resume_returns (sound : Sound s) {id : Nat} (woken : (s.commands id).coroutine = .woken) :
    ∃ next, step s (.resume id) = some next ∧ (next.commands id).coroutine.returned = true := by
  refine ⟨s.update id Command.resume,by simp only [step,woken],?_⟩
  simpa [State.update] using ((sound.owned id).resume woken).2

section
variable (sound : Sound s) {id : Nat} (waiting : (s.commands id).coroutine = .waiting)
include sound waiting

theorem waiting_queued :
    id ∈ s.pending ∧ (s.commands id).slot.isSome = true ∧
      ((s.commands id).timer = .armed ∨ (s.commands id).timer = .queued true) := by
  have owned := sound.owned id
  generalize s.commands id = c at owned waiting
  cases owned with
  | waiting member timer _ => exact ⟨member,rfl,timer⟩
  | matched _ _ | timedOut _ _ | abandoned _ _ | closed _ _ _ => cases waiting

end

theorem returns (sound : Sound s) (id : Nat) (running : (s.commands id).coroutine.returned = false) :
    ∃ rest next, (∀ action ∈ rest, action = .expire id ∨ action = .timeout id ∨ action = .resume id) ∧
      Along step Ordered s rest ∧ run step s rest = some next ∧
      (next.commands id).coroutine.returned = true := by
  cases phase : (s.commands id).coroutine with
  | finished outcome =>
    rw [phase] at running
    cases running
  | woken =>
    obtain ⟨next,stepped,returned⟩ := resume_returns sound phase
    exact ⟨[.resume id],next,by simp,⟨trivial,fun _ _ => trivial⟩,by simp [run,stepped],returned⟩
  | waiting =>
    -- from an expired timer on, in whatever state it is
    have expired : ∀ s, Sound s → (s.commands id).coroutine = .waiting →
        (s.commands id).timer = .queued true → ∃ next,
        Along step Ordered s [.timeout id,.resume id] ∧
        run step s [.timeout id,.resume id] = some next ∧
        (next.commands id).coroutine.returned = true := by
      intro s sound waiting timer
      obtain ⟨member,present,_⟩ := waiting_queued sound waiting
      obtain ⟨slot,slot_eq⟩ := Option.isSome_iff_exists.mp present
      have ordered : Ordered s (.timeout id) := fun _ => member
      have fired : step s (.timeout id) = some (s.update id (Command.onTimeout true)) := by simp only [step,timer]
      have woken : ((s.update id (Command.onTimeout true)).commands id).coroutine = .woken := by
        simp [State.update,Command.onTimeout,slot_eq,waiting,Coroutine.wake]
      obtain ⟨next,stepped,returned⟩ := resume_returns (sound_step s _ _ sound ordered fired) woken
      exact ⟨next,⟨ordered,fun _ _ => ⟨trivial,fun _ _ => trivial⟩⟩,by simp [run,fired,stepped],returned⟩
    rcases (waiting_queued sound phase).2.2 with armed | queued
    · have fires : step s (.expire id) =
          some (s.update id fun c => { c with timer := .queued true }) := by simp only [step,armed]
      obtain ⟨next,ordered,runs,returned⟩ := expired _ (sound_step s (.expire id) _ sound trivial fires)
        (by simpa [State.update] using phase) (by simp [State.update])
      refine ⟨[.expire id,.timeout id,.resume id],next,by simp,⟨trivial,?_⟩,?_,returned⟩
      · intro other stepped
        cases fires.symm.trans stepped
        exact ordered
      · exact run_cons.mpr ⟨_,fires,runs⟩
    · obtain ⟨next,ordered,runs,returned⟩ := expired s sound phase queued
      exact ⟨[.timeout id,.resume id],next,by simp,ordered,runs,returned⟩

/-- Along an ordered run no slot is touched after its end, a command returns its own reply or an error, and its slot
is destroyed once, when it has returned and left the queue. A command that has not returned can do so by itself. -/
theorem replies_matched (schedule : List Action) (s : State)
    (ordered : Along step Ordered start schedule) (runs : run step start schedule = some s)
    (id : Nat) :
    (s.commands id).fault = false ∧
    (∀ outcome, (s.commands id).coroutine = .finished outcome → outcome.Own id) ∧
    (s.commands id).constructed ≤ 1 ∧ (s.commands id).destroyed ≤ (s.commands id).constructed ∧
    ((s.commands id).destroyed = (s.commands id).constructed ↔
      (s.commands id).coroutine.returned = true ∧ id ∉ s.pending) ∧
    ((s.commands id).coroutine.returned = false → ∃ rest next,
      (∀ action ∈ rest, action = .expire id ∨ action = .timeout id ∨ action = .resume id) ∧
      Along step Ordered s rest ∧ run step s rest = some next ∧
      (next.commands id).coroutine.returned = true) := by
  have sound : Sound s := run_guarded step Ordered Sound sound_step sound_start ordered runs
  suffices held : (s.commands id).fault = false ∧
      (∀ outcome, (s.commands id).coroutine = .finished outcome → outcome.Own id) ∧
      (s.commands id).constructed ≤ 1 ∧ (s.commands id).destroyed ≤ (s.commands id).constructed ∧
      ((s.commands id).destroyed = (s.commands id).constructed ↔
        (s.commands id).coroutine.returned = true ∧ id ∉ s.pending) by
    obtain ⟨fault,own,once,within,exact'⟩ := held
    exact ⟨fault,own,once,within,exact',returns sound id⟩
  have owned := sound.owned id
  generalize s.commands id = c at owned
  cases owned with
  | waiting _ _ _ | matched _ _ | timedOut _ _ => simp [Coroutine.returned]
  | abandoned member own => simpa [Coroutine.returned,member] using own
  | closed outside own count => simpa [Coroutine.returned,outside,count] using own

/-- A late reply, a cancelled command and a reply in time. -/
theorem replies_matched_late :
    ∃ s, run step start [.connect,.submit true true,.submit true true,.expire 0,.timeout 0,.resume 0,
        .reply false [1],.reply false [2],.submit true true,.resume 1,.close,.resume 2] = some s ∧
      (s.commands 0).coroutine = .finished .timeout ∧ (s.commands 0).destroyed = 1 ∧
      (s.commands 1).coroutine = .finished (.ok ⟨1,false,[2]⟩) ∧ (s.commands 1).destroyed = 1 ∧
      (s.commands 2).coroutine = .finished .adapterError ∧ (s.commands 2).destroyed = 1 ∧
      (s.commands 2).fault = false := by
  refine exists_final (by decide +kernel) fun runs => ?_
  have all := replies_matched _ _ (by decide +kernel) runs 2
  refine ⟨?_,?_,?_,?_,?_,?_,all.1⟩ <;> decide +kernel

structure Forgotten (id : Nat) (c : Command) (s : State) : Prop where
  same : s.commands id = c
  outside : id ∉ s.pending
  numbered : id < s.next

namespace Forgotten
variable {id : Nat} {c : Command} {s : State}

section
variable (forgotten : Forgotten id c s)
include forgotten

theorem update (other : Nat) (different : id ≠ other)
    (f : Command → Command) : Forgotten id c (s.update other f) :=
  ⟨by simpa [State.update,different] using forgotten.same,forgotten.outside,forgotten.numbered⟩

theorem register (fresh : Command) : Forgotten id c (s.register fresh) := by
  have different := Nat.ne_of_lt forgotten.numbered
  exact ⟨by simpa [State.register,different] using forgotten.same,forgotten.outside,
    Nat.lt_succ_of_lt forgotten.numbered⟩

theorem staticOnReply (reply : Option Reply) :
    Forgotten id c (s.staticOnReply reply) := by
  unfold State.staticOnReply
  split
  · exact forgotten
  rename_i front rest pending
  have outside := forgotten.outside
  rw [pending,List.mem_cons,not_or] at outside
  have rest : Forgotten id c { s with pending := rest } :=
    ⟨forgotten.same,outside.2,forgotten.numbered⟩
  exact rest.update front outside.1 _

theorem flush : Forgotten id c s.flush := by
  have all : ∀ (ids : List Nat) (s : State), Forgotten id c s →
      Forgotten id c (ids.foldl (fun s _ => s.staticOnReply none) s) := by
    intro ids
    induction ids with
    | nil => exact fun _ forgotten => forgotten
    | cons _ rest ih => exact fun s forgotten => ih _ (forgotten.staticOnReply none)
  exact all _ _ ⟨forgotten.same,forgotten.outside,forgotten.numbered⟩

theorem cancelAllPending (error : Outcome) :
    Forgotten id c (s.cancelAllPending error) := by
  have all : ∀ (ids : List Nat) (s : State), id ∉ ids → Forgotten id c s →
      Forgotten id c (ids.foldl (fun s other => s.update other (Command.cancel error)) s) := by
    intro ids
    induction ids with
    | nil => exact fun _ _ forgotten => forgotten
    | cons first rest ih =>
      intro s outside forgotten
      obtain ⟨different,outside⟩ := not_or.mp (mt List.mem_cons.mpr outside)
      exact ih _ outside (forgotten.update first different _)
  exact all _ _ forgotten.outside ⟨forgotten.same,nofun,forgotten.numbered⟩

theorem disconnect : Forgotten id c s.disconnect := by
  unfold State.disconnect
  split
  · exact ⟨forgotten.flush.same,forgotten.flush.outside,forgotten.flush.numbered⟩
  · exact forgotten

theorem submit (room accepted : Bool) : Forgotten id c (s.submit room accepted) := by
  unfold State.submit
  split
  · split
    · have registered := forgotten.register .submitted
      refine ⟨registered.same,?_,registered.numbered⟩
      simpa [forgotten.outside] using Nat.ne_of_lt forgotten.numbered
    · exact forgotten.register _
  · exact forgotten.register _

end

theorem step (timer : c.timer = .done) (returned : c.coroutine.returned = true) (s : State)
    (action : Action) (next : State) (forgotten : Forgotten id c s)
    (stepped : step s action = some next) : Forgotten id c next := by
  cases action with
  | submit room accepted =>
    cases stepped
    exact forgotten.submit room accepted
  | reply error body =>
    simp only [RedisMultiplexer.step] at stepped
    split at stepped <;> cases stepped
    rename_i first rest _
    have before : Forgotten id c { s with outstanding := rest } :=
      ⟨forgotten.same,forgotten.outside,forgotten.numbered⟩
    exact before.staticOnReply _
  | lost =>
    cases stepped
    exact forgotten.flush
  | connect =>
    cases stepped
    have gone := forgotten.disconnect
    exact ⟨gone.same,gone.outside,gone.numbered⟩
  | disconnect =>
    cases stepped
    exact forgotten.disconnect
  | onDisconnect =>
    obtain ⟨_,rfl⟩ := of_unless stepped
    exact forgotten.cancelAllPending _
  | close =>
    cases stepped
    exact (forgotten.cancelAllPending _).disconnect
  | expire other =>
    simp only [RedisMultiplexer.step] at stepped
    split at stepped <;> cases stepped
    rename_i armed
    refine forgotten.update other ?_ _
    rintro rfl
    rw [forgotten.same,timer] at armed
    cases armed
  | timeout other =>
    simp only [RedisMultiplexer.step] at stepped
    split at stepped <;> cases stepped
    rename_i expired queued
    refine forgotten.update other ?_ _
    rintro rfl
    rw [forgotten.same,timer] at queued
    cases queued
  | resume other =>
    simp only [RedisMultiplexer.step] at stepped
    split at stepped <;> cases stepped
    rename_i woken
    refine forgotten.update other ?_ _
    rintro rfl
    rw [← forgotten.same,woken] at returned
    cases returned

end Forgotten

/-- The reply arrives while the time-out handler is queued: the slot is never destroyed. A
reply between the time-out and the resumption: the coroutine reads a destroyed slot. -/
theorem slot_mismanaged :
    (∃ s, run step start [.connect,.submit true true,.expire 0,.reply false [1],.timeout 0,.resume 0] =
        some s ∧ (s.commands 0).coroutine.returned = true ∧ (s.commands 0).constructed = 1 ∧
      ∀ rest final, run step s rest = some final → (final.commands 0).destroyed = 0) ∧
    ∃ s, run step start [.connect,.submit true true,.expire 0,.timeout 0,.reply false [1],.resume 0] =
        some s ∧ (s.commands 0).fault = true := by
  obtain ⟨s,runs,timer,returned,constructed,alive,outside,numbered⟩ :
      ∃ s, run step start [.connect,.submit true true,.expire 0,.reply false [1],.timeout 0,.resume 0] =
        some s ∧ (s.commands 0).timer = .done ∧ (s.commands 0).coroutine.returned = true ∧
        (s.commands 0).constructed = 1 ∧ (s.commands 0).destroyed = 0 ∧ 0 ∉ s.pending ∧ 0 < s.next := by
    decide +kernel
  refine ⟨⟨s,runs,returned,constructed,?_⟩,by decide +kernel⟩
  intro rest final later
  have forgotten := run_invariant (Forgotten 0 (s.commands 0)) (Forgotten.step timer returned)
    ⟨rfl,outside,numbered⟩ later
  rw [forgotten.same]
  exact alive

end ApexPipeline.RedisMultiplexer
