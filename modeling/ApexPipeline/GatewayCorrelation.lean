import ApexPipeline.Gateway

/-! Requests and their outcomes. A correlation id is a core and a number on it, so pending entries and settled
requests are told apart by it, whatever messages arrive. -/
namespace ApexPipeline.Gateway
open Execution KafkaEnvelope List Gateway.Core State Settlement Function

variable {Tag : Type}

theorem generateCorrId_toNat {core : Core Tag} {k : Nat} (small : k < 2^16)
    (id : core.coreId = .ofNat k) (few : core.corrCounter.toNat + 1 < 2^48) :
    core.generateCorrId.1.toNat = k * 2^48 + (core.corrCounter.toNat + 1) := by
  have next : (core.corrCounter + 1).toNat = core.corrCounter.toNat + 1 := by
    rw [UInt64.toNat_add]
    exact Nat.mod_eq_of_lt (by simp; omega)
  have high : (core.coreId.toUInt64 <<< (48 : UInt64)).toNat = k * 2^48 := by
    rw [id,UInt64.toNat_shiftLeft]
    simp only [UInt16.toNat_toUInt64,UInt16.toNat_ofNat',Nat.mod_eq_of_lt small]
    rw [show (48 : UInt64).toNat % 64 = 48 from rfl,Nat.shiftLeft_eq]
    exact Nat.mod_eq_of_lt (by omega)
  have low : ((core.corrCounter + 1) &&& (((1 : UInt64) <<< (48 : UInt64)) - 1)).toNat =
      core.corrCounter.toNat + 1 := by
    rw [UInt64.toNat_and,next,show (((1 : UInt64) <<< (48 : UInt64)) - 1).toNat = 2^48 - 1 from rfl,
      Nat.and_two_pow_sub_one_eq_mod]
    exact Nat.mod_eq_of_lt few
  show ((core.coreId.toUInt64 <<< (48 : UInt64)) |||
    ((core.corrCounter + 1) &&& (((1 : UInt64) <<< (48 : UInt64)) - 1))).toNat = _
  rw [UInt64.toNat_or,high,low,← Nat.shiftLeft_eq]
  exact (Nat.shiftLeft_add_eq_or_of_lt few k).symm

theorem write_spec (core : Core Tag) (id : Nat) (frame : List UInt8) :
    (∃ sessions, (core.write id frame).2 = { core with sessions }) ∧
      (∀ other, (core.write id frame).2.isOpen other = core.isOpen other) ∧
      ((core.write id frame).1 = .absent ↔ core.isOpen id = false) := by
  unfold Core.write
  split
  · rename_i missing
    exact ⟨⟨_,rfl⟩,fun _ => rfl,by simp [Core.isOpen,missing]⟩
  rename_i session found
  split
  · rename_i closed
    exact ⟨⟨_,rfl⟩,fun _ => rfl,by simpa [Core.isOpen,found] using closed⟩
  rename_i opened
  have isOpen : core.isOpen id = true := by simpa [Core.isOpen,found] using opened
  split
  · exact ⟨⟨_,rfl⟩,fun _ => rfl,by simp [isOpen]⟩
  · rename_i next accepted
    refine ⟨⟨_,rfl⟩,?_,by simp [isOpen]⟩
    intro other
    by_cases same : other = id
    · cases same
      have kept := Session.enqueueWrite_isOpen accepted
      simp [Core.isOpen,found,kept]
    · simp [Core.isOpen,same]

def Few (g : State Tag) : Prop := ∀ k, (g.requests.countP fun r => r.core = k) < 2^48

theorem write_written (core : Core Tag) (id : Nat) (frame : List UInt8) :
    (core.write id frame).1 = .written ↔ core.accepts id = true := by
  unfold write accepts
  cases found : core.sessions id with
  | none => simp
  | some session =>
    cases opened : session.isOpen with
    | false => simp [opened]
    | true =>
      by_cases full : session.writeQueue.length ≥ session.maxQueueDepth
      · have refused : session.enqueueWrite frame = .error .bufferFull := by
          simp [Session.enqueueWrite,opened,full]
        simp [opened,refused,Nat.not_lt.mpr full]
      have accepted : session.enqueueWrite frame = .ok (session.push ⟨frame,none⟩).spawnPump := by
        simp only [Session.enqueueWrite,opened,if_neg full]
        rfl
      simp [opened,accepted,Nat.lt_of_not_le full]

structure Sound (cfg : Config) (g : State Tag) : Prop where
  coreIds : ∀ k, (g.cores k).coreId = .ofNat k
  counted : ∀ k, (g.cores k).corrCounter.toNat = g.requests.countP fun r => r.core = k
  numbered : ∀ r ∈ g.requests, r.core < cfg.numCores ∧ ∃ n, 1 ≤ n ∧
    n ≤ (g.cores r.core).corrCounter.toNat ∧ r.corrId.toNat = r.core * 2^48 + n
  distinct : (g.requests.map Request.corrId).Nodup
  issued : ∀ r ∈ g.requests, r.session < (g.cores r.core).nextId
  registered : ∀ k, ∀ entry ∈ (g.cores k).pending, ∃ r ∈ g.requests, r.corrId = entry.1 ∧
    r.core = k ∧ entry.2 = ⟨r.session,r.msgId,r.time + cfg.requestTimeout⟩
  keys : ∀ k, ((g.cores k).pending.map Prod.fst).Nodup
  unsettled : ∀ k, ∀ entry ∈ (g.cores k).pending, entry.1 ∉ g.settled.map Settlement.corrId
  owned : ∀ m ∈ g.settled, ∃ r ∈ g.requests, r.corrId = m.corrId ∧ r.core = m.core ∧ r.session = m.session
  once : (g.settled.map Settlement.corrId).Nodup
  complete : ∀ r ∈ g.requests, r.corrId ∈ g.settled.map Settlement.corrId ∨
    r.corrId ∈ (g.cores r.core).pending.map Prod.fst
  gone : ∀ m ∈ g.settled, m.result = .absent → (g.cores m.core).isOpen m.session = false

theorem sound_start (cfg : Config) : Sound cfg (start : State Tag) where
  coreIds _ := rfl
  counted _ := rfl
  numbered := by simp [start]
  distinct := .nil
  issued := by simp [start]
  registered := by simp [start]
  keys _ := .nil
  unsettled := by simp [start]
  owned := by simp [start]
  once := .nil
  complete := by simp [start]
  gone := by simp [start]

structure Quiet (core next : Core Tag) : Prop where
  coreId : next.coreId = core.coreId
  corrCounter : next.corrCounter = core.corrCounter
  pending : next.pending = core.pending
  nextId : core.nextId ≤ next.nextId
  isOpen : ∀ id, id < core.nextId → next.isOpen id = true → core.isOpen id = true

theorem Quiet.refl (core : Core Tag) : Quiet core core :=
  ⟨rfl,rfl,rfl,Nat.le_refl _,fun _ _ opened => opened⟩

theorem Quiet.session (core : Core Tag) (id nextId : Nat) (session : Option Session) (later : core.nextId ≤ nextId)
    (still : id < core.nextId → session.any Session.isOpen = true → core.isOpen id = true) :
    Quiet core { core with nextId, sessions := update core.sessions id session } := by
  refine ⟨rfl,rfl,rfl,later,?_⟩
  intro other known opened
  by_cases here : other = id
  · cases here
    apply still known
    simpa [Core.isOpen] using opened
  · simpa [Core.isOpen,here] using opened

variable {cfg : Config} {g next : State Tag}

theorem Sound.quiet (sound : Sound cfg g)
    (cores : ∀ k, Quiet (g.cores k) (next.cores k)) (requests : next.requests = g.requests)
    (settled : next.settled = g.settled) : Sound cfg next where
  coreIds k := by rw [(cores k).coreId]; exact sound.coreIds k
  counted k := by rw [(cores k).corrCounter,requests]; exact sound.counted k
  numbered := by
    rw [requests]
    intro r member
    rw [(cores r.core).corrCounter]
    exact sound.numbered r member
  distinct := by rw [requests]; exact sound.distinct
  issued := by
    rw [requests]
    exact fun r member => Nat.lt_of_lt_of_le (sound.issued r member) (cores r.core).nextId
  registered k := by rw [(cores k).pending,requests]; exact sound.registered k
  keys k := by rw [(cores k).pending]; exact sound.keys k
  unsettled k := by rw [(cores k).pending,settled]; exact sound.unsettled k
  owned := by rw [settled,requests]; exact sound.owned
  once := by rw [settled]; exact sound.once
  complete := by
    rw [settled,requests]
    intro r member
    rw [(cores r.core).pending]
    exact sound.complete r member
  gone := by
    rw [settled]
    intro m member absent
    obtain ⟨r,sent,_,core,session⟩ := sound.owned m member
    have issued := sound.issued r sent
    rw [core,session] at issued
    apply Bool.eq_false_iff.mpr
    intro opened
    have before := (cores m.core).isOpen m.session issued opened
    rw [sound.gone m member absent] at before
    cases before

theorem Sound.put (sound : Sound cfg g) {k : Nat} {core : Core Tag}
    (quiet : Quiet (g.cores k) core) : Sound cfg (g.put k core) := by
  refine @Sound.quiet _ _ _ (g.put k core) sound ?_ rfl rfl
  intro j
  by_cases same : j = k
  · cases same
    simpa [State.put] using quiet
  · simpa [State.put,same] using Quiet.refl (g.cores j)

section
variable (g : State Tag) (k : Nat) (core : Core Tag) (corrId : UInt64) (session : Nat)

variable (outcome : Outcome Tag) (frame : List UInt8)

theorem settle_cores (j : Nat) :
    (g.settle k core corrId session outcome frame).cores j =
      if j = k then (core.write session frame).2 else g.cores j := by
  by_cases same : j = k <;> simp [settle,put,same]

theorem settle_settled :
    (g.settle k core corrId session outcome frame).settled =
      g.settled ++ [⟨corrId,k,session,outcome,(core.write session frame).1⟩] := rfl

end

theorem Sound.sameRequest (sound : Sound cfg g) {r other : Request}
    (first : r ∈ g.requests) (second : other ∈ g.requests) (same : r.corrId = other.corrId) :
    r = other := inj_on_of_nodup_map sound.distinct first second same

theorem nodup_map_concat {items : List A} (nodup : (items.map f).Nodup)
    (new : ∀ other ∈ items, f other ≠ f item) : ((items ++ [item]).map f).Nodup := by
  rw [map_append,map_singleton,← concat_eq_append]
  apply nodup.concat
  intro member
  obtain ⟨other,there,same⟩ := mem_map.mp member
  exact new other there same

structure TakenOut (core : Core Tag) (corrId : UInt64) (next : Core Tag) : Prop where
  coreId : next.coreId = core.coreId
  corrCounter : next.corrCounter = core.corrCounter
  nextId : next.nextId = core.nextId
  sessions : next.sessions = core.sessions
  pending : next.pending = core.pending.filter fun entry => entry.1 ≠ corrId

theorem TakenOut.settle {k : Nat} {corrId : UInt64} {core : Core Tag}
    (taken : TakenOut (g.cores k) corrId core) (session : Nat) (outcome : Outcome Tag) (frame : List UInt8)
    (settles : next = g.settle k core corrId session outcome frame) (j : Nat) :
    (next.cores j).coreId = (g.cores j).coreId ∧ (next.cores j).corrCounter = (g.cores j).corrCounter ∧
      (next.cores j).nextId = (g.cores j).nextId ∧
      (∀ id, (next.cores j).isOpen id = (g.cores j).isOpen id) ∧
      (next.cores j).pending =
        if j = k then (g.cores j).pending.filter (fun e => e.1 ≠ corrId) else (g.cores j).pending := by
  obtain ⟨⟨sessions,written⟩,isOpen,_⟩ := write_spec core session frame
  rw [settles,settle_cores]
  by_cases same : j = k
  · cases same
    rw [if_pos rfl,if_pos rfl]
    refine ⟨?_,?_,?_,?_,?_⟩
    · rw [written]; exact taken.coreId
    · rw [written]; exact taken.corrCounter
    · rw [written]; exact taken.nextId
    · intro id
      rw [isOpen,Core.isOpen,taken.sessions]
      rfl
    · rw [written]; exact taken.pending
  · rw [if_neg same,if_neg same]
    exact ⟨rfl,rfl,rfl,fun _ => rfl,rfl⟩

theorem Sound.settle (sound : Sound cfg g) {k : Nat}
    {entry : UInt64 × PendingEntry} (there : entry ∈ (g.cores k).pending) {core : Core Tag}
    (taken : TakenOut (g.cores k) entry.1 core) (outcome : Outcome Tag) (frame : List UInt8) :
    Sound cfg (g.settle k core entry.1 entry.2.sessionId outcome frame) := by
  obtain ⟨r,sent,corrId,sender,content⟩ := sound.registered k entry there
  obtain ⟨_,_,absent⟩ := write_spec core entry.2.sessionId frame
  obtain ⟨next,named⟩ : ∃ next, next = g.settle k core entry.1 entry.2.sessionId outcome frame :=
    ⟨_,rfl⟩
  have fields := taken.settle entry.2.sessionId outcome frame named
  have settled := settle_settled g k core entry.1 entry.2.sessionId outcome frame
  have requests : next.requests = g.requests := by rw [named]; rfl
  rw [← named] at settled ⊢
  have fewer (j : Nat) : ((next.cores j).pending).Sublist (g.cores j).pending := by
    rw [(fields j).2.2.2.2]
    split
    · exact filter_sublist
    · exact List.Sublist.refl _
  constructor
  · intro j
    rw [(fields j).1]
    exact sound.coreIds j
  · intro j
    rw [(fields j).2.1,requests]
    exact sound.counted j
  · rw [requests]
    intro other member
    rw [(fields other.core).2.1]
    exact sound.numbered other member
  · rw [requests]
    exact sound.distinct
  · rw [requests]
    intro other member
    rw [(fields other.core).2.2.1]
    exact sound.issued other member
  · intro j other member
    rw [requests]
    exact sound.registered j other ((fewer j).subset member)
  · exact fun j => (sound.keys j).sublist ((fewer j).map _)
  · intro j other member old
    rw [settled,map_append,mem_append] at old
    rcases old with before | now
    · exact sound.unsettled j other ((fewer j).subset member) before
    -- the same id on another core would be another request's
    have same : other.1 = entry.1 := by simpa using now
    obtain ⟨r',sent',corrId',sender',_⟩ := sound.registered j other ((fewer j).subset member)
    have one := sound.sameRequest sent' sent (corrId'.trans (same.trans corrId.symm))
    have here : j = k := by rw [← sender',one,sender]
    rw [(fields j).2.2.2.2,if_pos here] at member
    exact of_decide_eq_true (mem_filter.mp member).2 same
  · intro m member
    rw [requests]
    rw [settled] at member
    rcases mem_concat member with before | rfl
    · exact sound.owned m before
    · exact ⟨r,sent,corrId,sender,by rw [content]⟩
  · rw [settled]
    apply nodup_map_concat sound.once
    intro m before same
    exact sound.unsettled k entry there (mem_map.mpr ⟨m,before,same⟩)
  · rw [requests]
    intro other member
    rw [settled,map_append,mem_append]
    rcases sound.complete other member with before | waits
    · exact .inl (.inl before)
    by_cases same : other.corrId = entry.1
    · exact .inl (.inr (by simp [same]))
    right
    obtain ⟨e,kept,key⟩ := mem_map.mp waits
    apply mem_map.mpr
    refine ⟨e,?_,key⟩
    rw [(fields other.core).2.2.2.2]
    split
    · exact mem_filter.mpr ⟨kept,by simpa [key] using same⟩
    · exact kept
  · intro m member
    rw [(fields m.core).2.2.2.1]
    rw [settled] at member
    rcases mem_concat member with before | rfl
    · exact sound.gone m before
    intro nobody
    have closed := absent.mp nobody
    rw [isOpen,taken.sessions] at closed
    exact closed

structure Numbered (core : Core Tag) (next : Core Tag) : Prop where
  coreId : next.coreId = core.coreId
  corrCounter : next.corrCounter.toNat = core.corrCounter.toNat + 1
  nextId : next.nextId = core.nextId
  isOpen : ∀ id, next.isOpen id = core.isOpen id

theorem Sound.fresh (sound : Sound cfg g) (few : Few g) {r : Request}
    (number : r.corrId.toNat = r.core * 2^48 + ((g.cores r.core).corrCounter.toNat + 1))
    (room : (g.cores r.core).corrCounter.toNat + 1 < 2^48) :
    ∀ other ∈ g.requests, other.corrId ≠ r.corrId := by
  intro other member same
  obtain ⟨core,n,_,bound,id⟩ := sound.numbered other member
  have count := few other.core
  rw [← sound.counted] at count
  rw [same,number] at id
  have here : r.core = other.core := by omega
  rw [here] at id
  omega

theorem Sound.unknown (sound : Sound cfg g) {corrId : UInt64}
    (fresh : ∀ other ∈ g.requests, other.corrId ≠ corrId) {k : Nat} {entry : UInt64 × PendingEntry}
    (there : entry ∈ (g.cores k).pending) : entry.1 ≠ corrId := by
  obtain ⟨other,sent,id,_⟩ := sound.registered k entry there
  rw [← id]
  exact fresh other sent

theorem Sound.request (sound : Sound cfg g) (few : Few g)
    {r : Request}
    (inside : r.core < cfg.numCores) (issued : r.session < (g.cores r.core).nextId)
    (number : r.corrId.toNat = r.core * 2^48 + ((g.cores r.core).corrCounter.toNat + 1))
    (room : (g.cores r.core).corrCounter.toNat + 1 < 2^48)
    (requests : next.requests = g.requests ++ [r]) (settled : next.settled = g.settled)
    (others : ∀ j, j ≠ r.core → next.cores j = g.cores j)
    (core : Numbered (g.cores r.core) (next.cores r.core))
    (pending : (next.cores r.core).pending = (g.cores r.core).pending ++
      [(r.corrId,⟨r.session,r.msgId,r.time + cfg.requestTimeout⟩)]) :
    Sound cfg next := by
  have fresh := sound.fresh few number room
  have fields (j : Nat) : (next.cores j).coreId = (g.cores j).coreId ∧
      (g.cores j).corrCounter.toNat ≤ (next.cores j).corrCounter.toNat ∧
      (next.cores j).nextId = (g.cores j).nextId ∧
      ∀ id, (next.cores j).isOpen id = (g.cores j).isOpen id := by
    by_cases here : j = r.core
    · cases here
      exact ⟨core.coreId,by rw [core.corrCounter]; omega,core.nextId,core.isOpen⟩
    · rw [others j here]
      exact ⟨rfl,Nat.le_refl _,rfl,fun _ => rfl⟩
  have entries (j : Nat) : (next.cores j).pending = (g.cores j).pending ++
      if j = r.core then [(r.corrId,⟨r.session,r.msgId,r.time + cfg.requestTimeout⟩)] else [] := by
    by_cases here : j = r.core
    · cases here
      rw [pending,if_pos rfl]
    · rw [others j here,if_neg here,append_nil]
  have known (j : Nat) (entry : UInt64 × PendingEntry) (member : entry ∈ (next.cores j).pending) :
      entry ∈ (g.cores j).pending ∨ j = r.core ∧
        entry = (r.corrId,⟨r.session,r.msgId,r.time + cfg.requestTimeout⟩) := by
    rw [entries] at member
    rcases mem_append.mp member with before | now
    · exact .inl before
    · split at now
      · exact .inr ⟨‹_›,mem_singleton.mp now⟩
      · cases now
  constructor
  · intro j
    rw [(fields j).1]
    exact sound.coreIds j
  · intro j
    rw [requests,countP_append]
    by_cases here : j = r.core
    · cases here
      rw [core.corrCounter,sound.counted]
      simp
    · rw [others j here,sound.counted]
      have not : ¬r.core = j := fun same => here same.symm
      simp [not]
  · intro other member
    rw [requests] at member
    rcases mem_concat member with before | rfl
    · obtain ⟨core,n,low,high,id⟩ := sound.numbered other before
      exact ⟨core,n,low,Nat.le_trans high (fields other.core).2.1,id⟩
    · exact ⟨inside,_,Nat.le_add_left 1 _,Nat.le_of_eq core.corrCounter.symm,number⟩
  · rw [requests]
    exact nodup_map_concat sound.distinct fresh
  · intro other member
    rw [(fields other.core).2.2.1]
    rw [requests] at member
    rcases mem_concat member with before | rfl
    · exact sound.issued other before
    · exact issued
  · intro j entry member
    rw [requests]
    rcases known j entry member with before | ⟨here,new⟩
    · obtain ⟨other,sent,rest⟩ := sound.registered j entry before
      exact ⟨other,mem_append_left _ sent,rest⟩
    · exact ⟨r,by simp,by rw [new],here.symm,by rw [new]⟩
  · intro j
    by_cases here : j = r.core
    · cases here
      rw [pending]
      exact nodup_map_concat (sound.keys r.core) (fun entry there => sound.unknown fresh there)
    · rw [others j here]
      exact sound.keys j
  · intro j entry member old
    rw [settled] at old
    rcases known j entry member with before | ⟨_,new⟩
    · exact sound.unsettled j entry before old
    · obtain ⟨m,before,id⟩ := mem_map.mp old
      obtain ⟨other,sent,same,_⟩ := sound.owned m before
      exact fresh other sent (by rw [same,id,new])
  · intro m member
    rw [settled] at member
    obtain ⟨other,sent,rest⟩ := sound.owned m member
    rw [requests]
    exact ⟨other,mem_append_left _ sent,rest⟩
  · rw [settled]
    exact sound.once
  · intro other member
    rw [settled,entries,map_append]
    rw [requests] at member
    rcases mem_concat member with before | rfl
    · rcases sound.complete other before with old | waits
      · exact .inl old
      · exact .inr (mem_append_left _ waits)
    · exact .inr (by simp)
  · intro m member absent
    rw [(fields m.core).2.2.2]
    rw [settled] at member
    exact sound.gone m member absent

theorem requests_handleRequest (cfg : Config) (g : State Tag) (k session : Nat) (msgId : UInt32)
    (now : Int) (routed : Bool) :
    (handleRequest cfg g k session msgId now routed).requests =
      g.requests ++ [⟨k,session,msgId,(g.cores k).generateCorrId.1,now⟩] := by
  simp only [handleRequest]
  split
  · rfl
  · split <;> rfl

theorem extract_spec (core : Core Tag) (corrId : UInt64) :
    (corrId ∉ core.pending.map Prod.fst ∧ core.extract corrId = (none,core)) ∨
      ∃ entry ∈ core.pending, entry.1 = corrId ∧ core.extract corrId = (some entry.2,core.erase corrId) := by
  unfold Core.extract
  cases found : core.pending.find? fun entry => entry.1 = corrId with
  | none =>
    refine .inl ⟨?_,rfl⟩
    intro member
    obtain ⟨entry,there,key⟩ := mem_map.mp member
    have other := find?_eq_none.mp found entry there
    exact other (decide_eq_true key)
  | some entry =>
    exact .inr ⟨entry,mem_of_find?_eq_some found,by simpa using find?_some found,rfl⟩

def sent (g : State Tag) (k session : Nat) (msgId : UInt32) (now : Int) : State Tag :=
  { g with requests := g.requests ++ [⟨k,session,msgId,(g.cores k).generateCorrId.1,now⟩] }

theorem sound_registered (sound : Sound cfg g) {k session : Nat}
    {msgId : UInt32} {now : Int} (few : Few g) (inside : k < cfg.numCores)
    (issued : session < (g.cores k).nextId)
    (number : (g.cores k).generateCorrId.1.toNat = k * 2^48 + ((g.cores k).corrCounter.toNat + 1))
    (room : (g.cores k).corrCounter.toNat + 1 < 2^48)
    (next : (g.cores k).generateCorrId.2.corrCounter.toNat = (g.cores k).corrCounter.toNat + 1) :
    Sound cfg ((sent g k session msgId now).put k { (g.cores k).generateCorrId.2 with
      pending := (g.cores k).pending ++
        [((g.cores k).generateCorrId.1,⟨session,msgId,now + cfg.requestTimeout⟩)] }) := by
  apply sound.request (r := ⟨k,session,msgId,(g.cores k).generateCorrId.1,now⟩) few inside issued number room rfl
  · rfl
  · intro j other
    exact update_of_ne other _ _
  · simp only [put,update_self]
    exact ⟨rfl,next,rfl,fun _ => rfl⟩
  · simp only [put,update_self]

theorem sound_refused {k session : Nat} {msgId : UInt32} {now : Int}
    (registered : Sound cfg ((sent g k session msgId now).put k { (g.cores k).generateCorrId.2 with
      pending := (g.cores k).pending ++
        [((g.cores k).generateCorrId.1,⟨session,msgId,now + cfg.requestTimeout⟩)] }))
    {core : Core Tag} (taken : TakenOut { (g.cores k).generateCorrId.2 with
      pending := (g.cores k).pending ++ [((g.cores k).generateCorrId.1,⟨session,msgId,now + cfg.requestTimeout⟩)] }
      (g.cores k).generateCorrId.1 core) (outcome : Outcome Tag) (frame : List UInt8) :
    Sound cfg ((sent g k session msgId now).settle k core (g.cores k).generateCorrId.1 session outcome frame) := by
  have same := update_self k { (g.cores k).generateCorrId.2 with
    pending := (g.cores k).pending ++ [((g.cores k).generateCorrId.1,⟨session,msgId,now + cfg.requestTimeout⟩)] }
    (sent g k session msgId now).cores
  have settled := @Sound.settle _ _ _ registered k
    ((g.cores k).generateCorrId.1,⟨session,msgId,now + cfg.requestTimeout⟩) ?_ core ?_ outcome frame
  · simpa [settle,put] using settled
  · simp only [put,same]
    simp
  · simp only [put,same]
    exact taken

theorem sound_handleRequest (cores : cfg.numCores ≤ 2^16)
    (sound : Sound cfg g) {k session : Nat} {msgId : UInt32} {now : Int} {routed : Bool}
    (few : Few (handleRequest cfg g k session msgId now routed)) (before : Few g)
    (inside : k < cfg.numCores) (issued : session < (g.cores k).nextId) :
    Sound cfg (handleRequest cfg g k session msgId now routed) := by
  have room : (g.cores k).corrCounter.toNat + 1 < 2^48 := by
    have count := few k
    rw [requests_handleRequest,countP_append] at count
    rw [sound.counted]
    simpa using count
  have number := generateCorrId_toNat (Nat.lt_of_lt_of_le inside cores) (sound.coreIds k) room
  have next : (g.cores k).generateCorrId.2.corrCounter.toNat = (g.cores k).corrCounter.toNat + 1 := by
    show ((g.cores k).corrCounter + 1).toNat = _
    rw [UInt64.toNat_add]
    exact Nat.mod_eq_of_lt (by simp; omega)
  have unknown {entry : UInt64 × PendingEntry} (there : entry ∈ (g.cores k).pending) :
      entry.1 ≠ (g.cores k).generateCorrId.1 :=
    sound.unknown (sound.fresh (r := ⟨k,session,msgId,(g.cores k).generateCorrId.1,now⟩) before number room) there
  have registered := @sound_registered _ _ _ sound _ _ msgId now before inside issued number room next
  by_cases full : (g.cores k).pending.length ≥ cfg.maxPendingPerCore
  · have refused : (g.cores k).generateCorrId.2.insert cfg (g.cores k).generateCorrId.1 session msgId now =
        .error .serviceError := if_pos full
    simp only [handleRequest,refused]
    apply sound_refused registered
    refine ⟨rfl,rfl,rfl,rfl,?_⟩
    have kept := filter_eq_self.mpr fun entry there => decide_eq_true (@unknown entry there)
    simp only [filter_append,kept]
    simp [Core.generateCorrId]
  · have accepted : (g.cores k).generateCorrId.2.insert cfg (g.cores k).generateCorrId.1 session msgId now =
        .ok { (g.cores k).generateCorrId.2 with pending := (g.cores k).pending ++
          [((g.cores k).generateCorrId.1,⟨session,msgId,now + cfg.requestTimeout⟩)] } := by
      have missing : (g.cores k).generateCorrId.1 ∉ (g.cores k).pending.map Prod.fst := by
        intro member
        obtain ⟨entry,there,key⟩ := mem_map.mp member
        exact unknown there key
      simp only [Core.insert]
      exact (if_neg full).trans (if_neg missing)
    simp only [handleRequest,accepted]
    cases routed with
    | true => exact registered
    | false =>
      apply sound_refused registered
      rcases extract_spec { (g.cores k).generateCorrId.2 with pending := (g.cores k).pending ++
        [((g.cores k).generateCorrId.1,⟨session,msgId,now + cfg.requestTimeout⟩)] }
        (g.cores k).generateCorrId.1 with ⟨missing,_⟩ | ⟨_,_,_,found⟩
      · exact absurd (by simp) missing
      · rw [found]
        exact ⟨rfl,rfl,rfl,rfl,rfl⟩

theorem requests_expire (k : Nat) (entries : List (UInt64 × PendingEntry)) (g : State Tag) :
    (entries.foldl (expire cfg k) g).requests = g.requests := by
  induction entries generalizing g with
  | nil => rfl
  | cons entry rest ih => exact ih (expire cfg k g entry)

theorem requests_receive (cfg : Config) (g : State Tag) (raw : List UInt8) (tag : Tag) :
    (receive cfg g raw tag).requests = g.requests := by
  have post (targets : List Nat) (work : Posted Tag) (g : State Tag) :
      (targets.foldl (post · work ·) g).requests = g.requests := by
    induction targets generalizing g with
    | nil => rfl
    | cons k rest ih => exact ih (g.post work k)
  unfold receive
  split
  · rfl
  · exact post _ _ g

theorem requests_handlePosted (g : State Tag) (k : Nat) (core : Core Tag) (work : Posted Tag) :
    (handlePosted g k core work).requests = g.requests := by
  cases work with
  | push routing sessionId raw tag =>
    simp only [handlePosted,deliverPush]
    split
    · rfl
    · split <;> rfl
  | response corrId routing raw tag =>
    simp only [handlePosted,deliverResponse]
    split
    · rfl
    · split <;> rfl

theorem sound_expire (k : Nat) (entries : List (UInt64 × PendingEntry)) (g : State Tag)
    (sound : Sound cfg g) (there : ∀ entry ∈ entries, entry ∈ (g.cores k).pending)
    (keys : (entries.map Prod.fst).Nodup) :
    Sound cfg (entries.foldl (expire cfg k) g) ∧ g.settled <+: (entries.foldl (expire cfg k) g).settled ∧
      ∀ entry ∈ entries, entry.1 ∈ (entries.foldl (expire cfg k) g).settled.map corrId := by
  induction entries generalizing g with
  | nil => exact ⟨sound,prefix_refl _,by simp⟩
  | cons entry rest ih =>
    have taken : TakenOut (g.cores k) entry.1 ((g.cores k).erase entry.1) :=
      ⟨rfl,rfl,rfl,rfl,rfl⟩
    have settled := sound.settle (there entry mem_cons_self) taken .timeout
      (buildErrorFrame cfg entry.2.originalMsgId .serviceError "" GatewayError.serviceTimeout.code)
    rw [map_cons,nodup_cons] at keys
    have waiting : ∀ other ∈ rest, other ∈ ((expire cfg k g entry).cores k).pending := by
      intro other member
      obtain ⟨⟨sessions,written⟩,_⟩ := write_spec ((g.cores k).erase entry.1) entry.2.sessionId
        (buildErrorFrame cfg entry.2.originalMsgId .serviceError "" GatewayError.serviceTimeout.code)
      rw [expire,settle_cores,if_pos rfl,written]
      apply mem_filter.mpr
      refine ⟨there other (mem_cons_of_mem _ member),?_⟩
      apply decide_eq_true
      intro same
      apply keys.1
      rw [← same]
      exact mem_map_of_mem member
    obtain ⟨after,mono,all⟩ := ih (expire cfg k g entry) settled waiting keys.2
    have first : g.settled <+: (expire cfg k g entry).settled := prefix_append _ _
    refine ⟨after,first.trans mono,?_⟩
    intro other member
    rcases mem_cons.mp member with rfl | later
    · apply (mono.map corrId).subset
      simp [expire,settle_settled]
    · exact all other later

theorem sound_sweep (sound : Sound cfg g) (k : Nat) (now : Int) :
    Sound cfg (sweepExpired cfg g k now) ∧ g.settled <+: (sweepExpired cfg g k now).settled ∧
      ∀ entry ∈ (g.cores k).pending, entry.2.deadline ≤ now →
        entry.1 ∈ (sweepExpired cfg g k now).settled.map corrId := by
  obtain ⟨after,mono,all⟩ := sound_expire k ((g.cores k).pending.filter fun entry => entry.2.deadline ≤ now) g sound
    (fun entry member => (mem_filter.mp member).1)
    ((sound.keys k).sublist (filter_sublist.map _))
  refine ⟨after,mono,?_⟩
  intro entry member expired
  exact all entry (mem_filter.mpr ⟨member,decide_eq_true expired⟩)

theorem sound_post (targets : List Nat) (work : Posted Tag) (g : State Tag) (sound : Sound cfg g) :
    Sound cfg (targets.foldl (post · work ·) g) := by
  induction targets generalizing g with
  | nil => exact sound
  | cons k rest ih =>
    have posted : Sound cfg (g.post work k) :=
      sound.put ⟨rfl,rfl,rfl,Nat.le_refl _,fun _ _ opened => opened⟩
    exact ih (g.post work k) posted

theorem Quiet.posted (core : Core Tag) (place : Nat) :
    Quiet core { core with posted := core.posted.eraseIdx place } :=
  ⟨rfl,rfl,rfl,Nat.le_refl _,fun _ _ opened => opened⟩

theorem sound_handlePosted (sound : Sound cfg g) (k place : Nat) (work : Posted Tag) :
    Sound cfg (handlePosted g k { g.cores k with posted := (g.cores k).posted.eraseIdx place } work) := by
  have quiet := Quiet.posted (g.cores k) place
  obtain ⟨core,named⟩ : ∃ core, core = { g.cores k with posted := (g.cores k).posted.eraseIdx place } :=
    ⟨_,rfl⟩
  rw [← named] at quiet ⊢
  cases work with
  | push routing sessionId raw tag =>
    simp only [handlePosted,deliverPush]
    split
    · exact sound.put quiet
    split
    · exact sound.put quiet
    obtain ⟨⟨sessions,written⟩,isOpen,_⟩ := write_spec core sessionId.toNat
      (buildWireResponse routing (raw.bytes.drop (envelopePayloadOffset routing.flags raw.bytes)) routing.msgId)
    refine (@Sound.put _ _ _ sound k (core.write sessionId.toNat (buildWireResponse routing
      (raw.bytes.drop (envelopePayloadOffset routing.flags raw.bytes)) routing.msgId)).2 ?_).quiet
        (fun j => Quiet.refl _) rfl rfl
    rw [written]
    refine ⟨quiet.coreId,quiet.corrCounter,quiet.pending,quiet.nextId,?_⟩
    intro id known opened
    rw [← written,isOpen] at opened
    exact quiet.isOpen id known opened
  | response corrId routing raw tag =>
    have offset : ¬envelopePayloadOffset routing.flags raw.bytes > raw.bytes.length :=
      Nat.not_lt.mpr (envelopePayloadOffset_le routing.flags raw.long)
    rcases extract_spec core corrId with ⟨_,missing⟩ | ⟨entry,pending,rfl,found⟩
    · simp only [handlePosted,deliverResponse,missing]
      exact sound.put quiet
    simp only [handlePosted,deliverResponse,found,if_neg offset]
    rw [quiet.pending] at pending
    apply sound.settle pending
    refine ⟨quiet.coreId,quiet.corrCounter,by rw [named]; rfl,by rw [named]; rfl,?_⟩
    rw [erase,quiet.pending]

theorem few_append (requests : next.requests = g.requests ++ more) (few : Few next) : Few g := by
  intro k
  have count := few k
  rw [requests,countP_append] at count
  omega

theorem sound_step (cores : cfg.numCores ≤ 2^16) {action : Action Tag}
    (held : Few g → Sound cfg g) (steps : step cfg g action = some next) (few : Few next) :
    Sound cfg next := by
  have same (requests : next.requests = g.requests) : Sound cfg g := by
    apply held
    intro k
    rw [← requests]
    exact few k
  cases action with
  | createSession k =>
    obtain ⟨_,rfl⟩ := of_guard steps
    apply (same rfl).put
    exact Quiet.session _ _ _ _ (Nat.le_succ _) fun known => absurd known (Nat.lt_irrefl _)
  | removeSession k id =>
    obtain ⟨_,rfl⟩ := of_guard steps
    apply (same rfl).put
    exact Quiet.session _ _ _ none (Nat.le_refl _) fun _ opened => by cases opened
  | onSession k id action =>
    simp only [step] at steps
    split at steps
    · obtain ⟨session,found,moved⟩ := Option.bind_eq_some_iff.mp steps
      obtain ⟨after,acts,rfl⟩ := Option.map_eq_some_iff.mp moved
      apply (same rfl).put
      apply Quiet.session _ _ _ (some after) (Nat.le_refl _)
      intro _ opened
      rw [isOpen,found]
      exact Session.step_isOpen acts opened
    · cases steps
  | request k id msgId now routed =>
    obtain ⟨enabled,rfl⟩ := of_guard steps
    have before := few_append (requests_handleRequest cfg g k id msgId now routed) few
    exact sound_handleRequest cores (held before) few before enabled.1 enabled.2
  | sweep k now =>
    obtain ⟨_,rfl⟩ := of_guard steps
    exact (sound_sweep (same (requests_expire k _ g)) k now).1
  | receive raw tag =>
    cases steps
    have sound := same (requests_receive cfg g raw tag)
    unfold receive
    split
    · exact sound
    · exact sound_post _ _ g sound
  | handle k place =>
    simp only [step] at steps
    split at steps
    · obtain ⟨work,_,rfl⟩ := Option.map_eq_some_iff.mp steps
      exact sound_handlePosted (same (requests_handlePosted g k _ work)) k place work
    · cases steps

theorem sound_run (cores : cfg.numCores ≤ 2^16) {schedule : List (Action Tag)}
    {final : State Tag} (runs : run (step cfg) start schedule = some final) (few : Few final) :
    Sound cfg final :=
  run_invariant (fun g => Few g → Sound cfg g)
    (fun _ _ _ held steps few => sound_step cores held steps few) (fun _ => sound_start cfg) runs few

theorem Sound.answered (sound : Sound cfg g) (m : Settlement Tag)
    (member : m ∈ g.settled) (opened : (g.cores m.core).isOpen m.session = true) :
    m.result = .written ∨ m.result = .refused := by
  cases result : m.result with
  | absent =>
    rw [sound.gone m member result] at opened
    cases opened
  | refused => exact .inr rfl
  | written => exact .inl rfl

/-- Within one run, whatever messages arrive: every request has its own id and ends at most once, for the session
that sent it; until then it is pending. An open session has got the frame or refused it with a full queue, and a
sweep ends every request whose time is up. -/
theorem requests_correlated (cfg : Config) (cores : cfg.numCores ≤ 2^16) (schedule : List (Action Tag))
    (final : State Tag) (runs : run (step cfg) start schedule = some final)
    (few : ∀ k, (final.requests.countP fun r => r.core = k) < 2^48) :
    (final.requests.map Request.corrId).Nodup ∧ (final.settled.map Settlement.corrId).Nodup ∧
      (∀ m ∈ final.settled, ∃ r ∈ final.requests, r.corrId = m.corrId ∧ r.core = m.core ∧ r.session = m.session) ∧
      (∀ r ∈ final.requests, r.corrId ∈ final.settled.map Settlement.corrId ∨
        (r.corrId,⟨r.session,r.msgId,r.time + cfg.requestTimeout⟩) ∈ (final.cores r.core).pending) ∧
      (∀ m ∈ final.settled, (final.cores m.core).isOpen m.session = true →
        m.result = .written ∨ m.result = .refused) ∧
      ∀ k now next, step cfg final (.sweep k now) = some next → ∀ r ∈ final.requests, r.core = k →
        r.time + cfg.requestTimeout ≤ now → ∃ m ∈ next.settled, m.corrId = r.corrId ∧
          ((next.cores m.core).isOpen m.session = true → m.result = .written ∨ m.result = .refused) := by
  have sound := sound_run cores runs few
  have pending : ∀ r ∈ final.requests, r.corrId ∈ final.settled.map corrId ∨
      (r.corrId,⟨r.session,r.msgId,r.time + cfg.requestTimeout⟩) ∈ (final.cores r.core).pending := by
    intro r member
    rcases sound.complete r member with settled | waits
    · exact .inl settled
    obtain ⟨entry,there,key⟩ := mem_map.mp waits
    obtain ⟨other,known,id,_,content⟩ := sound.registered r.core entry there
    cases sound.sameRequest known member (id.trans key)
    have same : entry = (r.corrId,⟨r.session,r.msgId,r.time + cfg.requestTimeout⟩) :=
      Prod.ext key content
    exact .inr (same ▸ there)
  refine ⟨sound.distinct,sound.once,sound.owned,pending,fun m => sound.answered m,?_⟩
  · intro k now next steps r member core due
    obtain ⟨_,rfl⟩ := of_guard steps
    obtain ⟨after,mono,all⟩ := sound_sweep sound k now
    cases core
    have settled : r.corrId ∈ (sweepExpired cfg final r.core now).settled.map corrId := by
      rcases pending r member with before | waits
      · exact (mono.map _).subset before
      · exact all _ waits due
    obtain ⟨m,there,id⟩ := mem_map.mp settled
    exact ⟨m,there,id,after.answered m there⟩

def answerTo (coreId : UInt16) (corrId : UInt64) : List UInt8 :=
  buildFullEnvelope { flags := 1, msgId := 2001 } { coreId, corrId } [] [42]

theorem requests_correlated_late : ∃ final : State Unit, run (step ⟨2,8,5,4,fun _ _ _ => []⟩) start
        [.createSession 0,.createSession 1,.request 0 1 7 0 true,.request 1 1 7 0 true,
          .receive (answerTo 1 (2^48 + 1)) (),.handle 1 0,.sweep 0 5,.receive (answerTo 0 1) (),
          .handle 0 0] = some final ∧
      final.settled = [⟨2^48 + 1,1,1,.response (),.written⟩,⟨1,0,1,.timeout,.written⟩] ∧
      (final.settled.map Settlement.corrId).Nodup := by
  refine exists_final (by decide +kernel) fun runs => ⟨by decide +kernel,?_⟩
  refine (requests_correlated _ (by decide) _ _ runs fun k => ?_).2.1
  exact Nat.lt_of_le_of_lt countP_le_length (by decide +kernel)

/-- The queue of the session is full when the response comes: the request is over, the session
stays open, and no frame is ever written for it. -/
theorem response_refused : ∃ final : State Unit, run (step ⟨1,8,5,1,fun _ _ _ => []⟩) start
        [.createSession 0,.request 0 1 7 0 true,.onSession 0 1 (.enqueueWrite [0]),
          .receive (answerTo 0 1) (),.handle 0 0,.sweep 0 100] = some final ∧
      final.requests.map Request.corrId = [1] ∧ (final.cores 0).isOpen 1 = true ∧
      final.settled = [⟨1,0,1,.response (),.refused⟩] ∧ (final.cores 0).pending = [] := by
  decide +kernel

end ApexPipeline.Gateway
