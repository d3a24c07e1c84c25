import ApexPipeline.Execution
import ApexPipeline.Interleaving

/-! A database with a write-ahead log and its clients. A transaction reads the snapshot of its first read; its first
write needs the write lock and fails if another transaction has committed since; a statement outside of it is on the
latest committed state. Clients are arbitrary programs of such statements, every statement may fail, and the
interleaving is arbitrary. What a client can conclude from the answers is in `learn`. -/
namespace ApexPipeline.WriteAheadLog

open Coroutine Execution List

variable {D A : Type}

structure Store (D : Type) where
  committed : D
  version : Nat := 0

/-- The transaction of a client. `commits` is a history of what it has committed: the states before and after. -/
structure Session (D : Type) where
  snapshot : Option (Nat × D) := none
  working : Option D := none
  commits : List (D × D) := []

/-- A statement that changes the data fails on `none`. -/
inductive Command (D : Type) where
  | read
  | readOutside
  | write (change : D → Option D)
  | writeOutside (change : D → Option D)
  | commit
  | rollback

/-- The data that a statement has seen; `none` and `false` are failures. -/
def Reply : Command D → Type
  | .commit => Bool
  | .rollback => Unit
  | _ => Option D

abbrev Program (D A : Type) := Coroutine (Command D) Reply A

namespace Session

def close (own : Session D) : Session D := { own with snapshot := none, working := none }

/-- A failed statement keeps the lock. -/
def alter (own : Session D) (visible : D) (change : D → Option D) : Option D × Session D :=
  match change visible with
  | some next => (some visible,{ own with working := some next })
  | none => (none,{ own with working := some visible })

def record (own : Session D) (before after : D) : Session D := { own with commits := own.commits ++ [(before,after)] }

def start (own : Session D) (store : Store D) : Session D :=
  { own with snapshot := some (store.version,store.committed) }

end Session

def Store.publish (store : Store D) (data : D) : Store D := ⟨data,store.version + 1⟩

/-- The answer to a statement, `none` while it has to wait for the lock. -/
def perform (store : Store D) (others : List (Session D)) (own : Session D) :
    (command : Command D) → Option (Reply command × Store D × Session D)
  | .read =>
    match own.snapshot with
    | some (_,data) => some (some (own.working.getD data),store,own)
    | none => some (some store.committed,store,own.start store)
  | .readOutside => some (some store.committed,store,own)
  | .write change =>
    match own.working with
    | some data => some ((own.alter data change).1,store,(own.alter data change).2)
    | none =>
      if others.any fun other => other.working.isSome then none
      else match own.snapshot with
        | some (version,data) =>
          if version = store.version then some ((own.alter data change).1,store,(own.alter data change).2)
          else some (none,store,own)
        | none =>
          some (((own.start store).alter store.committed change).1,store,((own.start store).alter store.committed change).2)
  | .writeOutside change =>
    if own.working.isSome ∨ others.any fun other => other.working.isSome then none
    else match change store.committed with
      | some data => some (some store.committed,store.publish data,own.record store.committed data)
      | none => some (none,store,own)
  | .commit =>
    match own.working with
    | some data => some (true,store.publish data,own.close.record store.committed data)
    | none => some (true,store,own.close)
  | .rollback => some ((),store,own.close)

/-- The statement fails: the lock is not given in time, or the system does not do it. -/
def refuse (store : Store D) (_ : List (Session D)) (own : Session D) :
    (command : Command D) → Option (Reply command × Store D × Session D)
  | .read | .readOutside | .write _ | .writeOutside _ => some (none,store,own)
  | .commit => some (false,store,own.close)
  | .rollback => some ((),store,own.close)

abbrev Clients (D A : Type) := Crew (Store D) (Session D) (Command D) Reply A

inductive Action where
  | perform (client : Nat)
  | refuse (client : Nat)

def step (clients : Clients D A) : Action → Option (Clients D A)
  | .perform client => clients.resume WriteAheadLog.perform client
  | .refuse client => clients.resume WriteAheadLog.refuse client

def opened (data : D) (programs : List (Program D A)) : Clients D A := ⟨⟨data,0⟩,programs.map fun program => ({},program)⟩

/-! What is true of every transaction -/

structure Coherent (store : Store D) (own : Session D) : Prop where
  past : ∀ version data, own.snapshot = some (version,data) → version ≤ store.version
  present : ∀ version data, own.snapshot = some (version,data) → version = store.version → data = store.committed
  latest : ∀ data, own.working = some data → ∃ data, own.snapshot = some (store.version,data)

/-- What the others may do meanwhile: nothing is committed while this client holds the lock. -/
def Passed (own : Session D) (store next : Store D) : Prop := next = store ∨ own.working = none ∧ store.version < next.version

/-- What a client knows: its session, and the data that it has seen outside of its transaction. -/
structure Known (D : Type) where
  session : Session D := {}
  seen : List D := []

/-- What was seen outside is the snapshot, unless the version has moved on. -/
def Holds (store : Store D) (own : Session D) (known : Known D) : Prop :=
  own = known.session ∧ ∀ version data, own.snapshot = some (version,data) →
    ∀ other ∈ known.seen, other = data ∨ version < store.version

/-- What a client knows after an answer. The first write is the moment at which all that it has seen becomes one state. -/
def learn (known : Known D) : (command : Command D) → Reply command → Known D → Prop
  | .read, reply, next =>
    (reply = none ∧ next = known) ∨
    (∃ version data, known.session.snapshot = some (version,data) ∧ next = known ∧
      reply = some (known.session.working.getD data)) ∨
    ∃ version data, known.session.snapshot = none ∧ reply = some data ∧
      next = ⟨{ known.session with snapshot := some (version,data) },[]⟩
  | .readOutside, reply, next =>
    (reply = none ∧ next = known) ∨ ∃ data, reply = some data ∧ next = { known with seen := data :: known.seen }
  | .write change, reply, next =>
    (reply = none ∧ next.session.commits = known.session.commits) ∨
    (∃ version data after, known.session.snapshot = some (version,data) ∧
      (known.session.working = none → ∀ other ∈ known.seen, other = data) ∧
      reply = some (known.session.working.getD data) ∧ change (known.session.working.getD data) = some after ∧
      next = { known with session := { known.session with working := some after } }) ∨
    ∃ version data after, known.session.snapshot = none ∧ reply = some data ∧ change data = some after ∧
      next = ⟨{ known.session with snapshot := some (version,data), working := some after },[]⟩
  | .writeOutside change, reply, next =>
    (reply = none ∧ next = known) ∨
    ∃ before after, reply = some before ∧ change before = some after ∧
      next = { known with session := known.session.record before after }
  | .commit, reply, next =>
    (reply = false ∧ next = ⟨known.session.close,[]⟩) ∨
    (reply = true ∧ known.session.working = none ∧ next = ⟨known.session.close,[]⟩) ∨
    ∃ version data after, reply = true ∧ known.session.snapshot = some (version,data) ∧ known.session.working = some after ∧
      next = ⟨known.session.close.record data after,[]⟩
  | .rollback, _, next => next = ⟨known.session.close,[]⟩

section
variable {store next : Store D} {own : Session D}

theorem Coherent.passed (coherent : Coherent store own)
    (passed : Passed own store next) : Coherent next own := by
  obtain rfl | ⟨idle,later⟩ := passed
  · exact coherent
  refine ⟨fun version data taken => ?_,fun version data taken same => ?_,fun data writes => ?_⟩
  · exact Nat.le_trans (coherent.past version data taken) (Nat.le_of_lt later)
  · have before := coherent.past version data taken
    omega
  · rw [idle] at writes
    cases writes

theorem Holds.passed {known : Known D} (held : Holds store own known)
    (passed : Passed own store next) : Holds next own known := by
  obtain rfl | ⟨_,later⟩ := passed
  · exact held
  · refine ⟨held.1,fun version data taken other member => ?_⟩
    exact (held.2 version data taken other member).imp_right fun before => Nat.lt_trans before later

end

/-- What an answer guarantees to the client and to the others. -/
structure Kept (store : Store D) (others : List (Session D)) (own : Session D) (command : Command D)
    (reply : Reply command) (next : Store D) (own' : Session D) : Prop where
  coherent : Coherent next own'
  passed : ∀ other ∈ others, Passed other store next
  exclusive : ∀ other ∈ others, own'.working = none ∨ other.working = none
  learned : ∀ known, Holds store own known → ∃ then', learn known command reply then' ∧ Holds next own' then'

section Answers
variable {store next : Store D} {others : List (Session D)} {own own' : Session D}

theorem Coherent.close (store : Store D) (own : Session D) : Coherent store own.close := ⟨nofun,nofun,nofun⟩

theorem Coherent.start (idle : own.working = none) : Coherent store (own.start store) := by
  refine ⟨?_,?_,fun data writes => ?_⟩
  · rintro _ _ ⟨⟩
    exact Nat.le_refl _
  · rintro _ _ ⟨⟩ _
    rfl
  · exact absurd (idle.symm.trans writes) nofun

theorem Coherent.write (coherent : Coherent store own) (current : own.snapshot = some (store.version,base)) (data : D) :
    Coherent store { own with working := some data } :=
  ⟨coherent.past,coherent.present,fun _ _ => ⟨base,current⟩⟩

theorem Holds.closed (store : Store D) (own : Session D) : Holds store own.close ⟨own.close,[]⟩ := ⟨rfl,nofun⟩

theorem Kept.still (coherent : Coherent store own') (exclusive : ∀ other ∈ others, own'.working = none ∨ other.working = none)
    (learned : ∀ known, Holds store own known → ∃ then', learn known command reply then' ∧ Holds store own' then') :
    Kept store others own command reply store own' :=
  ⟨coherent,fun _ _ => .inl rfl,exclusive,learned⟩

theorem Kept.refused (coherent : Coherent store own) (exclusive : ∀ other ∈ others, own.working = none ∨ other.working = none)
    (same : ∀ known, learn known command reply known) : Kept store others own command reply store own :=
  .still coherent exclusive fun known held => ⟨known,same known,held⟩

theorem Kept.closed (ends : ∀ known, own = known.session → learn known command reply ⟨own.close,[]⟩) :
    Kept store others own command reply store own.close :=
  .still (.close store own) (fun _ _ => .inl rfl) fun known held => ⟨_,ends known held.1,.closed store own⟩

theorem Kept.write {change : D → Option D} (coherent : Coherent store own)
    (current : own.snapshot = some (store.version,base)) (alone : ∀ other ∈ others, other.working = none) (visible : D)
    (view : own.working.getD base = visible) :
    Kept store others own (.write change) (own.alter visible change).1 store (own.alter visible change).2 := by
  unfold Session.alter
  cases changed : change visible with
  | none =>
    refine .still (coherent.write current visible) (fun other member => .inr (alone other member)) fun known held => ?_
    exact ⟨⟨{ own with working := some visible },known.seen⟩,.inl ⟨rfl,by rw [held.1]⟩,rfl,held.2⟩
  | some after =>
    refine .still (coherent.write current after) (fun other member => .inr (alone other member)) fun known held => ?_
    obtain ⟨rfl,seen⟩ := held
    refine ⟨⟨{ known.session with working := some after },known.seen⟩,.inr (.inl ?_),rfl,seen⟩
    refine ⟨store.version,base,after,current,fun _ other member => ?_,view ▸ rfl,view ▸ changed,rfl⟩
    exact (seen _ _ current other member).resolve_right (Nat.lt_irrefl _)

theorem Kept.firstWrite (idle : own.working = none) (fresh : own.snapshot = none)
    (alone : ∀ other ∈ others, other.working = none) :
    Kept store others own (.write change) ((own.start store).alter store.committed change).1 store
      ((own.start store).alter store.committed change).2 := by
  have coherent : Coherent store (own.start store) := .start idle
  unfold Session.alter
  cases changed : change store.committed with
  | none =>
    refine .still (coherent.write rfl store.committed) (fun other member => .inr (alone other member)) fun known held => ?_
    obtain ⟨rfl,_⟩ := held
    exact ⟨⟨{ known.session.start store with working := some store.committed },[]⟩,.inl ⟨rfl,rfl⟩,rfl,nofun⟩
  | some after =>
    refine .still (coherent.write rfl after) (fun other member => .inr (alone other member)) fun known held => ?_
    obtain ⟨rfl,_⟩ := held
    exact ⟨⟨_,[]⟩,.inr (.inr ⟨_,_,after,fresh,rfl,changed,rfl⟩),rfl,nofun⟩

variable (coherent : Coherent store own) (exclusive : ∀ other ∈ others, own.working = none ∨ other.working = none)
  {command : Command D} {reply : Reply command}
include coherent exclusive

theorem perform_kept (performed : perform store others own command = some (reply,next,own')) :
    Kept store others own command reply next own' := by
  cases command with
  | read =>
    simp only [perform] at performed
    split at performed
    · rename_i version data taken
      cases performed
      refine .still coherent exclusive fun known held => ⟨known,.inr (.inl ⟨version,data,?_,rfl,?_⟩),held⟩
      · exact held.1 ▸ taken
      · rw [held.1]
    · rename_i fresh
      cases performed
      have idle : own.working = none := by
        cases working : own.working with
        | none => rfl
        | some data =>
          obtain ⟨_,taken⟩ := coherent.latest data working
          rw [fresh] at taken
          cases taken
      refine .still (.start idle) exclusive fun known held => ?_
      obtain ⟨rfl,_⟩ := held
      exact ⟨⟨known.session.start store,[]⟩,.inr (.inr ⟨store.version,store.committed,fresh,rfl,rfl⟩),rfl,nofun⟩
  | readOutside =>
    cases performed
    refine .still coherent exclusive fun known held => ⟨_,.inr ⟨store.committed,rfl,rfl⟩,held.1,?_⟩
    intro version data taken other member
    rcases mem_cons.mp member with rfl | before
    · rcases Nat.lt_or_eq_of_le (coherent.past version data taken) with older | same
      · exact .inr older
      · exact .inl (coherent.present version data taken same).symm
    · exact held.2 version data taken other before
  | write change =>
    simp only [perform] at performed
    split at performed
    · rename_i data working
      cases performed
      obtain ⟨base,current⟩ := coherent.latest data working
      refine .write coherent current (fun other member => ?_) data (by simp [working])
      exact (exclusive other member).resolve_left (by simp [working])
    · rename_i idle
      split at performed
      · cases performed
      rename_i unlocked
      have alone : ∀ other ∈ others, other.working = none := by simpa using unlocked
      split at performed
      · rename_i version data taken
        split at performed
        · rename_i same
          cases performed
          exact .write coherent (same ▸ taken) alone data (by simp [idle])
        · cases performed
          exact .refused coherent exclusive fun known => .inl ⟨rfl,rfl⟩
      · rename_i fresh
        cases performed
        exact .firstWrite idle fresh alone
  | writeOutside change =>
    simp only [perform] at performed
    split at performed
    · cases performed
    rename_i unlocked
    obtain ⟨idle,alone⟩ : own.working = none ∧ ∀ other ∈ others, other.working = none := by simpa using unlocked
    split at performed
    · rename_i data changed
      cases performed
      refine ⟨⟨?_,?_,?_⟩,fun other member => .inr ⟨alone other member,Nat.lt_succ_self _⟩,fun _ _ => .inl idle,?_⟩
      · exact fun version data taken => Nat.le_succ_of_le (coherent.past version data taken)
      · intro version data taken same
        exact absurd (coherent.past version data taken) (by simp only [Store.publish] at same; omega)
      · exact fun data writes => absurd (idle.symm.trans writes) nofun
      · rintro known ⟨rfl,seen⟩
        refine ⟨_,.inr ⟨store.committed,data,rfl,changed,rfl⟩,rfl,fun version data taken other member => ?_⟩
        exact (seen version data taken other member).imp_right fun before => Nat.lt_succ_of_lt before
    · cases performed
      exact .refused coherent exclusive fun known => .inl ⟨rfl,rfl⟩
  | commit =>
    simp only [perform] at performed
    split at performed
    · rename_i data working
      cases performed
      obtain ⟨base,current⟩ := coherent.latest data working
      cases coherent.present _ base current rfl
      refine ⟨⟨nofun,nofun,nofun⟩,fun other member => .inr ⟨?_,Nat.lt_succ_self _⟩,fun _ _ => .inl rfl,?_⟩
      · exact (exclusive other member).resolve_left (by simp [working])
      · rintro known ⟨rfl,_⟩
        exact ⟨_,.inr (.inr ⟨_,_,data,rfl,current,working,rfl⟩),rfl,nofun⟩
    · rename_i idle
      cases performed
      exact .closed fun known same => .inr (.inl ⟨rfl,same ▸ idle,by rw [same]⟩)
  | rollback =>
    cases performed
    exact .closed fun known same => by rw [same]; rfl

theorem refuse_kept (refused : refuse store others own command = some (reply,next,own')) :
    Kept store others own command reply next own' := by
  cases command with
  | read | readOutside | write change | writeOutside change =>
    cases refused
    exact .refused coherent exclusive fun known => .inl ⟨rfl,rfl⟩
  | commit =>
    cases refused
    exact .closed fun known same => .inl ⟨rfl,by rw [same]⟩
  | rollback =>
    cases refused
    exact .closed fun known same => by rw [same]; rfl

end Answers

/-! Whole runs -/

section Runs
variable {clients next : Clients D A} {post : Known D → A → Prop}

structure Orderly (clients : Clients D A) : Prop where
  coherent : ∀ (i : Nat) job, clients.jobs[i]? = some job → Coherent clients.shared job.1
  exclusive : ∀ (i j : Nat) first second, i ≠ j → clients.jobs[i]? = some first → clients.jobs[j]? = some second →
    first.1.working = none ∨ second.1.working = none

def Follows (post : Known D → A → Prop) (clients : Clients D A) (i : Nat) : Prop :=
  ∃ own program known, clients.jobs[i]? = some (own,program) ∧ Holds clients.shared own known ∧
    program.Tracks (fun _ _ => True) learn post known

inductive Stepped (clients next : Clients D A) : Prop
  | intro (index : Nat) (own own' : Session D) (command : Command D) (resume : Reply command → Program D A)
      (reply : Reply command) (there : clients.jobs[index]? = some (own,.await command resume))
      (kept : Kept clients.shared (clients.others index) own command reply next.shared own')
      (after : next.jobs = clients.jobs.set index (own',resume reply))

theorem mem_others : other ∈ clients.others index ↔ ∃ i job, i ≠ index ∧ clients.jobs[i]? = some job ∧ job.1 = other := by
  simp only [Crew.others,mem_map,mem_eraseIdx_iff_getElem?]
  grind

theorem resume_stepped (orderly : Orderly clients)
    (fair : ∀ {store next others own own'} {command : Command D} {reply : Reply command}, Coherent store own →
      (∀ other ∈ others, own.working = none ∨ other.working = none) →
      answer store others own command = some (reply,next,own') → Kept store others own command reply next own')
    (resumed : clients.resume answer index = some next) : Stepped clients next := by
  rw [Crew.resume] at resumed
  split at resumed
  · rename_i own command resume there
    obtain ⟨⟨reply,store,own'⟩,answered,rfl⟩ := Option.map_eq_some_iff.mp resumed
    refine ⟨index,own,own',command,resume,reply,there,fair (orderly.coherent _ _ there) ?_ answered,rfl⟩
    intro other member
    obtain ⟨i,job,different,present,rfl⟩ := mem_others.mp member
    exact orderly.exclusive index i _ job (Ne.symm different) there present
  · cases resumed

theorem step_stepped (orderly : Orderly clients) (stepped : step clients action = some next) : Stepped clients next := by
  cases action with
  | perform client =>
    exact resume_stepped orderly (fun coherent alone => perform_kept coherent alone) stepped
  | refuse client =>
    exact resume_stepped orderly (fun coherent alone => refuse_kept coherent alone) stepped

theorem Stepped.orderly (orderly : Orderly clients) (stepped : Stepped clients next) : Orderly next := by
  obtain ⟨index,own,own',command,resume,reply,there,kept,after⟩ := stepped
  have inside : index < clients.jobs.length := (List.getElem?_eq_some_iff.mp there).1
  have elsewhere : ∀ i, i ≠ index → next.jobs[i]? = clients.jobs[i]? := by
    intro i different
    rw [after,getElem?_set_ne (Ne.symm different)]
  have here : next.jobs[index]? = some (own',resume reply) := by rw [after,getElem?_set_self inside]
  have apart : ∀ (i : Nat) job, i ≠ index → next.jobs[i]? = some job → own'.working = none ∨ job.1.working = none := by
    intro i job different present
    rw [elsewhere i different] at present
    exact kept.exclusive job.1 (mem_others.mpr ⟨i,job,different,present,rfl⟩)
  constructor
  · intro i job present
    by_cases same : i = index
    · cases (same ▸ here).symm.trans present
      exact kept.coherent
    · rw [elsewhere i same] at present
      exact (orderly.coherent i job present).passed (kept.passed job.1 (mem_others.mpr ⟨i,job,same,present,rfl⟩))
  · intro i j first second different left right
    by_cases sameLeft : i = index
    · cases (sameLeft ▸ here).symm.trans left
      exact apart j second (fun sameRight => different (sameLeft.trans sameRight.symm)) right
    by_cases sameRight : j = index
    · cases (sameRight ▸ here).symm.trans right
      exact (apart i first sameLeft left).symm
    · rw [elsewhere i sameLeft] at left
      rw [elsewhere j sameRight] at right
      exact orderly.exclusive i j first second different left right

theorem Stepped.follows (follows : Follows post clients i) (stepped : Stepped clients next) : Follows post next i := by
  obtain ⟨index,own,own',command,resume,reply,there,kept,after⟩ := stepped
  obtain ⟨mine,program,known,present,held,tracks⟩ := follows
  have inside : index < clients.jobs.length := (List.getElem?_eq_some_iff.mp there).1
  by_cases same : i = index
  · subst same
    cases there.symm.trans present
    obtain ⟨then',learned,later⟩ := kept.learned known held
    refine ⟨own',resume reply,then',?_,later,tracks.2 reply then' learned⟩
    rw [after,getElem?_set_self inside]
  · refine ⟨mine,program,known,?_,held.passed ?_,tracks⟩
    · rw [after,getElem?_set_ne (Ne.symm same),present]
    · exact kept.passed mine (mem_others.mpr ⟨i,_,same,present,rfl⟩)

theorem opened_orderly (data : D) (programs : List (Program D A)) : Orderly (opened data programs) := by
  have fresh : ∀ (i : Nat) job, (opened data programs).jobs[i]? = some job → job.1 = {} := by
    intro i job present
    simp only [opened,getElem?_map,Option.map_eq_some_iff] at present
    obtain ⟨program,_,rfl⟩ := present
    rfl
  constructor
  · intro i job present
    rw [fresh i job present]
    exact ⟨nofun,nofun,nofun⟩
  · intro i j first second _ present _
    rw [fresh i first present]
    exact .inl rfl

/-- The rule for a client among others that do what they like: what its program establishes from the answers, it has
established when it is done. -/
theorem done_establishes {programs : List (Program D A)} {program : Program D A} {i : Nat}
    (runs : Execution.run step (opened data programs) schedule = some clients) (client : programs[i]? = some program)
    (tracks : program.Tracks (fun _ _ => True) learn post {})
    (done : clients.jobs[i]? = some (own,.done value)) : ∃ known, own = known.session ∧ post known value := by
  have held : Orderly clients ∧ Follows post clients i := by
    refine run_invariant
      (fun clients => Orderly clients ∧ Follows post clients i) ?_ ⟨opened_orderly data programs,?_⟩ runs
    · rintro clients action next ⟨orderly,follows⟩ enabled
      have stepped := step_stepped orderly enabled
      exact ⟨stepped.orderly orderly,stepped.follows follows⟩
    · refine ⟨{},program,{},?_,⟨rfl,nofun⟩,tracks⟩
      simp [opened,client]
  obtain ⟨_,_,known,present,same,tracks⟩ := held.2
  cases done.symm.trans present
  exact ⟨known,same.1,tracks⟩

end Runs

end ApexPipeline.WriteAheadLog
