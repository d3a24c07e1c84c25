import ApexPipeline.ChatRooms

/-! How many members a room can have, and what the answer to a join says. -/
namespace ApexPipeline.ChatRooms
open ChatService Service Coroutine KafkaEnvelope Execution List Option Store PgResult

theorem decimal_injective (same : decimal a = decimal b) : a = b := by
  rw [← digitsValue_decimal a,same,digitsValue_decimal]

theorem membersKey_injective (same : membersKey roomId = membersKey other) : roomId = other := by
  rw [membersKey,membersKey] at same
  exact UInt64.toNat_inj.mp (decimal_injective (append_cancel_left (append_cancel_right same)))

theorem update_self (s : Store) (key : Bytes) : s.update key (s.members key) = s := by
  rw [update,Function.update_eq_self]

@[simp] theorem members_update (s : Store) (key : Bytes) (set : Finset Bytes) : (s.update key set).members key = set := by
  simp only [update,Function.update_self]

theorem members_update_of_ne (s : Store) (set : Finset Bytes) (other : key ≠ changed) :
    (s.update changed set).members key = s.members key := by
  simp only [update,Function.update_of_ne other]

def Stage.holds (s : Store) (caller : Caller) : Stage → Prop
  | .start | .ended => True
  | .found roomId maxMembers => ∃ room ∈ s.rooms, room.roomId = roomId ∧ room.maxMembers = maxMembers.toNat
  | .created roomId => ∃ room ∈ s.rooms, room.roomId = roomId
  | .joined roomId memberCount => ∃ insertion ∈ s.insertions, insertion.request = caller.request ∧
      insertion.key = membersKey roomId ∧ insertion.member = decimal caller.userId.toNat ∧
      insertion.size = memberCount.toNat

structure At (s : Store) (caller : Caller) (known : Known) : Prop where
  user : caller.userId = known.1
  holds : known.2.holds s caller

def addition (fate : Fate Table) : Command Table → Option (Bytes × Bytes)
  | .redis _ [verb,key,member] => if verb = ascii "SADD" ∧ fate.carried then some (key,member) else none
  | _ => none

inductive Change (cfg : Config) (s : Store) (caller : Caller) : Option (Bytes × Bytes) → Store → Prop
  | nothing : Change cfg s caller none s
  | room (roomName : Bytes) (maxMembers : UInt32) (positive : cfg.maxRoomMembers ≠ 0 → maxMembers ≠ 0)
      (space : s.lastRoom.toNat + 1 < 2^63) :
      Change cfg s caller none { s with
        lastRoom := s.lastRoom + 1, rooms := s.rooms ++ [⟨s.lastRoom + 1,roomName,maxMembers.toNat⟩] }
  | owner (room : Room) (present : room ∈ s.rooms) (member : Bytes) :
      Change cfg s caller (some (membersKey room.roomId,member))
        (s.update (membersKey room.roomId) (insert member (s.members (membersKey room.roomId))))
  | leave (key member : Bytes) : Change cfg s caller none (s.update key ((s.members key).erase member))
  | join (room : Room) (present : room ∈ s.rooms) (member : Bytes) (new : member ∉ s.members (membersKey room.roomId))
      (space : (s.members (membersKey room.roomId)).card < room.maxMembers) :
      Change cfg s caller none { s.update (membersKey room.roomId) (insert member (s.members (membersKey room.roomId))) with
        insertions := s.insertions ++ [⟨caller.request,membersKey room.roomId,member,
          (insert member (s.members (membersKey room.roomId))).card⟩] }
  | answer (roomId : UInt64) (memberCount : UInt32) (joined : (Stage.joined roomId memberCount).holds s caller) :
      Change cfg s caller none { s with answers := s.answers ++ [⟨caller.request,roomId,caller.userId,memberCount⟩] }

structure Ledger (cfg : Config) (s : Store) : Prop where
  sequence : ∀ room ∈ s.rooms, room.roomId ≤ s.lastRoom
  limit : ∀ room ∈ s.rooms, room.maxMembers < 2^32
  positive : cfg.maxRoomMembers ≠ 0 → ∀ room ∈ s.rooms, 0 < room.maxMembers
  keyed : ∀ roomId, s.members (membersKey roomId) ≠ ∅ → ∃ room ∈ s.rooms, room.roomId = roomId
  distinct : (s.rooms.map Room.roomId).Nodup

structure Performed (cfg : Config) (s : Store) (caller : Caller) (made : Option (Bytes × Bytes)) (next : Stage)
    (s' : Store) : Prop where
  change : Change cfg s caller made s'
  holds : next.holds s' caller
  fresh : ∀ roomId, next = .created roomId → (∀ room ∈ s.rooms, room.roomId ≠ roomId) ∧ s'.members = s.members

section Commands
variable {cfg : Config} {s s' : Store} {caller caller' : Caller} {fate : Fate Table} {known : Known} {others : List Caller}

theorem next_ne (ledger : Ledger cfg s) (space : s.lastRoom.toNat + 1 < 2^63) (room : Room) (member : room ∈ s.rooms) :
    room.roomId ≠ s.lastRoom + 1 := by
  intro same
  have small := UInt64.le_iff_toNat_le.mp (ledger.sequence room member)
  rw [same,UInt64.toNat_add] at small
  simp at small
  omega

theorem parse_decimal (value : UInt64) : safeParseU64 (decimal value.toNat) = .ok value := by
  have number := fromChars_decimal value [] (by simp)
  rw [append_nil] at number
  rw [safeParseU64,number]

theorem afterCreate_row (roomId : UInt64) : afterCreate (.ok ⟨[[some (decimal roomId.toNat)]]⟩) = .created roomId := by
  simp [afterCreate,rowCount,value,cell,parse_decimal]

theorem parse_limit (small : limit < 2^32) :
    ∃ value, safeParseU64 (decimal limit) = .ok value ∧ value.toUInt32.toNat = limit := by
  refine ⟨.ofNat limit,?_,?_⟩
  · have same : (UInt64.ofNat limit).toNat = limit := by
      rw [UInt64.toNat_ofNat']
      omega
    rw [← same,parse_decimal,same]
  · rw [UInt64.toNat_toUInt32,UInt64.toNat_ofNat']
    omega

section
variable {reply : Except ErrorCode PgResult} (ledger : Ledger cfg s)
include ledger

theorem create_performed {maxMembers : UInt32}
    (positive : cfg.maxRoomMembers ≠ 0 → maxMembers ≠ 0)
    (performed : perform fate s others caller (.query createSql [roomName,decimal maxMembers.toNat,owner]) =
      some (reply,s',caller')) : Performed cfg s caller none (afterCreate reply) s' ∧ caller' = caller := by
  by_cases carried : fate.carried
  · by_cases fits : maxMembers.toNat < 2^31 ∧ s.lastRoom.toNat + 1 < 2^63
    · simp only [perform,Store.query,if_true,digitsValue_decimal,if_pos fits,if_pos carried,map_some] at performed
      have change : Change cfg s caller none _ := .room roomName maxMembers positive fits.2
      cases error : fate.error with
      | some code =>
        rw [Fate.result,error] at performed
        cases performed
        exact ⟨⟨change,trivial,nofun⟩,rfl⟩
      | none =>
        rw [Fate.result,error] at performed
        cases performed
        rw [afterCreate_row]
        refine ⟨⟨change,⟨_,mem_append_right _ (mem_singleton_self _),rfl⟩,?_⟩,rfl⟩
        rintro _ ⟨⟩
        exact ⟨next_ne ledger fits.2,rfl⟩
    · simp only [perform,Store.query,if_true,digitsValue_decimal,if_neg fits,if_pos carried,map_none] at performed
      cases performed
  · obtain ⟨code,error⟩ : ∃ code, fate.error = some code := by
      cases error : fate.error with
      | none => simp [Fate.carried,error] at carried
      | some code => exact ⟨code,rfl⟩
    have refused : reply = .error code ∧ s' = s ∧ caller' = caller := by
      simp only [perform,Store.query,if_true,digitsValue_decimal,if_neg carried,Fate.result,error] at performed
      split at performed
      · next none' => split at none' <;> cases none'
      · cases performed
        exact ⟨rfl,rfl,rfl⟩
    obtain ⟨rfl,rfl,rfl⟩ := refused
    exact ⟨⟨.nothing,trivial,nofun⟩,rfl⟩

theorem find_performed
    (performed : perform fate s others caller (.query findSql [decimal roomId.toNat]) = some (reply,s',caller')) :
    Performed cfg s caller none (afterFind roomId reply) s' ∧ caller' = caller := by
  obtain ⟨rfl,rfl,replied⟩ : s' = s ∧ caller' = caller ∧ ((∃ code, reply = .error code) ∨
      reply = .ok ⟨(s.rooms.filter fun room => decimal room.roomId.toNat = decimal roomId.toNat).map Room.cells⟩) := by
    simp only [perform,Store.query,if_true] at performed
    cases error : fate.error with
    | none =>
      simp only [Fate.carried,Fate.result,error,isNone_none,Bool.true_or,if_true,map_some] at performed
      cases performed
      exact ⟨rfl,rfl,.inr rfl⟩
    | some code =>
      simp only [Fate.result,error] at performed
      split at performed <;> cases performed <;> exact ⟨rfl,rfl,.inl ⟨code,rfl⟩⟩
  refine ⟨⟨.nothing,?_,?_⟩,rfl⟩
  · rcases replied with ⟨code,rfl⟩ | rfl
    · trivial
    cases rows : s'.rooms.filter fun room => decimal room.roomId.toNat = decimal roomId.toNat with
    | nil => trivial
    | cons room rest =>
      have member : room ∈ s'.rooms.filter fun room => decimal room.roomId.toNat = decimal roomId.toNat :=
        rows ▸ mem_cons_self
      obtain ⟨inside,same⟩ := mem_filter.mp member
      have named : room.roomId = roomId := UInt64.toNat_inj.mp (decimal_injective (of_decide_eq_true same))
      obtain ⟨value,parsed,exact'⟩ := parse_limit (ledger.limit room inside)
      have stage : afterFind roomId (.ok ⟨(room :: rest).map Room.cells⟩) = .found roomId value.toUInt32 := by
        simp [afterFind,PgResult.rowCount,PgResult.value,PgResult.cell,Room.cells,parsed]
      rw [stage]
      exact ⟨room,inside,named,exact'.symm⟩
  · intro other created
    rcases replied with ⟨code,rfl⟩ | rfl
    · cases created
    · simp only [afterFind] at created
      repeat' split at created
      all_goals cases created

theorem query_performed (permitted : permit cfg known (.query sql params))
    (performed : perform fate s others caller (.query sql params) = some (reply,s',caller')) :
    Performed cfg s caller none (known.2.after (.query sql params) reply) s' ∧ caller' = caller := by
  obtain ⟨-,⟨rfl,roomName,owner,maxMembers,positive,rfl⟩ | ⟨rfl,roomId,rfl⟩⟩ := permitted
  · simp only [Stage.after,if_true]
    exact create_performed ledger positive performed
  · have other : findSql ≠ createSql := by decide
    simp only [Stage.after,if_neg other,roomOf_decimal]
    exact find_performed ledger performed

end

theorem joinRoom_spec (set : Finset Bytes) (member : Bytes) (limit : Nat) : (member ∉ set ∧ set.card < limit ∧
      joinRoom set member (decimal limit) = (((insert member set).card : Int),insert member set)) ∨
    joinRoom set member (decimal limit) = (-1,set) ∨ joinRoom set member (decimal limit) = (0,set) := by
  rw [joinRoom,digitsValue_decimal]
  split
  · exact .inr (.inl rfl)
  next new =>
  split
  · exact .inr (.inr rfl)
  · next space => exact .inl ⟨new,Nat.lt_of_not_le space,rfl⟩

theorem afterJoin_count (roomId : UInt64) {count : Nat} (positive : 0 < count) (small : count < 2^32) :
    ∃ memberCount : UInt32, afterJoin roomId (.ok (integer count)) = .joined roomId memberCount ∧ memberCount.toNat = count := by
  refine ⟨toUInt32 count,?_,?_⟩
  · have first : (count : Int) ≠ -1 := by omega
    have second : (count : Int) ≠ 0 := by omega
    simp only [afterJoin,evalInteger,integer,if_true,interpretJoinResult,if_neg first,if_neg second]
  · rw [toUInt32,UInt32.toNat_ofNat']
    omega

/-- The server is cited through what it does, so that no proof compares the texts of scripts. -/
theorem perform_redis {next : Store} (found : s.redis caller arguments = some (reply,next)) :
    perform fate s others caller (.redis adapter arguments) =
      some (fate.result reply,if fate.carried then next else s,caller) := by
  simp only [perform,found]
  rfl

section
variable (s : Store) (caller : Caller) (roomId userId : UInt64)

theorem redis_joinScript (maxMembers : UInt32) :
    s.redis caller (joinScript roomId userId maxMembers) =
      let outcome := joinRoom (s.members (membersKey roomId)) (decimal userId.toNat) (decimal maxMembers.toNat)
      let inserted := if 0 < outcome.1 then
        [⟨caller.request,membersKey roomId,decimal userId.toNat,outcome.2.card⟩] else []
      some (integer outcome.1,{ s.update (membersKey roomId) outcome.2 with insertions := s.insertions ++ inserted }) := by
  rw [joinScript,Store.redis,if_pos ⟨rfl,rfl⟩]

theorem redis_leaveScript :
    s.redis caller (leaveScript roomId userId) =
      let outcome := leaveRoom (s.members (membersKey roomId)) (decimal userId.toNat)
      some (integer outcome.1,s.update (membersKey roomId) outcome.2) := by
  rw [leaveScript,Store.redis,if_pos ⟨rfl,rfl⟩]

end

section
variable {reply : Except ErrorCode RedisReply} (ledger : Ledger cfg s)
include ledger

theorem join_performed (present : room ∈ s.rooms)
    (limit : room.maxMembers = maxMembers.toNat)
    (performed : perform fate s others caller (.redis adapter (joinScript room.roomId caller.userId maxMembers)) =
      some (reply,s',caller')) : Performed cfg s caller none (afterJoin room.roomId reply) s' ∧ caller' = caller := by
  have limit' := ledger.limit room present
  rw [limit] at limit'
  rw [perform_redis (redis_joinScript ..)] at performed
  rcases joinRoom_spec (s.members (membersKey room.roomId)) (decimal caller.userId.toNat) maxMembers.toNat with
    ⟨new,space,outcome⟩ | outcome
  · have count := Finset.card_insert_of_notMem new
    have positive : 0 < (insert (decimal caller.userId.toNat) (s.members (membersKey room.roomId))).card := by omega
    have change : Change cfg s caller none _ := .join room present _ new (limit ▸ space)
    simp only [outcome,Int.natCast_pos.mpr positive,if_true] at performed
    cases error : fate.error with
    | none =>
      simp only [Fate.carried,Fate.result,error,isNone_none,Bool.true_or,if_true] at performed
      cases performed
      have small : (insert (decimal caller.userId.toNat) (s.members (membersKey room.roomId))).card < 2^32 := by omega
      obtain ⟨memberCount,stage,same⟩ := afterJoin_count room.roomId positive small
      rw [stage]
      exact ⟨⟨change,⟨_,mem_append_right _ (mem_singleton_self _),rfl,rfl,rfl,same.symm⟩,nofun⟩,rfl⟩
    | some code =>
      simp only [Fate.result,error] at performed
      split at performed <;> cases performed
      · exact ⟨⟨change,trivial,nofun⟩,rfl⟩
      · exact ⟨⟨.nothing,trivial,nofun⟩,rfl⟩
  · -- the set and the history stay as they are, and the answer is no success
    obtain ⟨value,failure,outcome⟩ : ∃ value : Int, (value = -1 ∨ value = 0) ∧
        joinRoom (s.members (membersKey room.roomId)) (decimal caller.userId.toNat) (decimal maxMembers.toNat) =
          (value,s.members (membersKey room.roomId)) :=
      outcome.elim (fun same => ⟨-1,.inl rfl,same⟩) (fun same => ⟨0,.inr rfl,same⟩)
    have nonpositive : ¬0 < value := by omega
    have ended : ∀ reply, reply = .ok (integer value) ∨ (∃ code, reply = .error code) → afterJoin room.roomId reply = .ended := by
      rintro reply (rfl | ⟨code,rfl⟩)
      · rcases failure with rfl | rfl <;> rfl
      · rfl
    simp only [outcome,if_neg nonpositive,append_nil,update_self,ite_self] at performed
    cases performed
    rw [ended _ (by rw [Fate.result]; split; exacts [.inr ⟨_,rfl⟩,.inl rfl])]
    exact ⟨⟨.nothing,trivial,nofun⟩,rfl⟩

theorem redis_performed (here : At s caller known)
    (permitted : permit cfg known (.redis adapter arguments))
    (performed : perform fate s others caller (.redis adapter arguments) = some (reply,s',caller')) :
    Performed cfg s caller (addition fate (.redis adapter arguments)) (known.2.after (.redis adapter arguments) reply) s' ∧
      caller' = caller := by
  obtain ⟨userId,stage⟩ := known
  obtain ⟨rfl,holds⟩ := here
  rcases permitted with ⟨roomId,rfl,rfl⟩ | ⟨roomId,maxMembers,rfl,rfl⟩ | ⟨roomId,rfl,rfl⟩
  · obtain ⟨room,present,rfl⟩ := holds
    rw [perform_redis (by rw [addOwner,Store.redis,if_pos rfl])] at performed
    by_cases carried : fate.carried
    · simp only [if_pos carried] at performed
      cases performed
      have made : addition fate (.redis adapter (addOwner room.roomId caller.userId)) =
          some (membersKey room.roomId,decimal caller.userId.toNat) := by
        simp only [addition,addOwner,carried,and_self,if_true]
      rw [made]
      exact ⟨⟨.owner room present _,trivial,nofun⟩,rfl⟩
    · simp only [if_neg carried] at performed
      cases performed
      have made : addition fate (.redis adapter (addOwner room.roomId caller.userId)) = none := by
        simp [addition,addOwner,carried]
      rw [made]
      exact ⟨⟨.nothing,trivial,nofun⟩,rfl⟩
  · obtain ⟨room,present,rfl,limit⟩ := holds
    exact join_performed ledger present limit performed
  · rw [perform_redis (redis_leaveScript ..)] at performed
    cases performed
    refine ⟨⟨?_,trivial,nofun⟩,rfl⟩
    have change : Change cfg s caller none (s.update (membersKey roomId)
        (leaveRoom (s.members (membersKey roomId)) (decimal caller.userId.toNat)).2) := by
      rw [leaveRoom]
      split
      · rw [update_self]
        exact .nothing
      · exact .leave _ _
    split
    · exact change
    · exact .nothing

end

theorem produce_performed {reply : Except ErrorCode Unit} (here : At s caller known)
    (permitted : permit cfg known (.produce topic key message))
    (performed : perform fate s others caller (.produce topic key message) = some (reply,s',caller')) :
    Performed cfg s caller none known.2 s' ∧ caller' = caller := by
  obtain ⟨complete,success⟩ := permitted
  simp only [perform] at performed
  cases performed
  have change : Change cfg s caller none (s.answered caller message) := by
    rw [answered.eq_def]
    split
    · next builder roomId roomName memberCount =>
      have joined := success builder roomId roomName memberCount rfl
      exact .answer roomId memberCount (joined ▸ here.holds)
    · exact .nothing
  refine ⟨⟨change,?_,fun roomId created => absurd created (complete roomId)⟩,rfl⟩
  have holds := here.holds
  rw [answered.eq_def]
  split
  · cases stage : known.2 <;> rw [stage] at holds <;> exact holds
  · exact holds

theorem perform_performed {command : Command Table} {reply : Reply command} (ledger : Ledger cfg s) (here : At s caller known)
    (permitted : permit cfg known command) (performed : perform fate s others caller command = some (reply,s',caller')) :
    Performed cfg s caller (addition fate command) (known.2.after command reply) s' ∧ caller' = caller := by
  cases command with
  | query sql params => exact query_performed ledger permitted performed
  | redis adapter arguments => exact redis_performed ledger here permitted performed
  | produce topic key message => exact produce_performed here permitted performed
  | _ => cases permitted

end Commands

def Bounded (s : Store) : Prop := ∀ room ∈ s.rooms, (s.members (membersKey room.roomId)).card ≤ room.maxMembers

/-- A join was answered with success for a user that its script has added, with the size of the set right
after that. -/
def Joined (s : Store) : Prop :=
  ∀ answer ∈ s.answers, ∃ insertion ∈ s.insertions, insertion.request = answer.request ∧
    insertion.key = membersKey answer.roomId ∧ insertion.member = decimal answer.userId.toNat ∧
    insertion.size = answer.memberCount.toNat

section Changes
variable {cfg : Config} {s s' : Store} {caller : Caller} {made : Option (Bytes × Bytes)}

theorem Change.rooms_mono {room : Room} (change : Change cfg s caller made s') (member : room ∈ s.rooms) : room ∈ s'.rooms := by
  cases change with
  | room => exact mem_append_left _ member
  | nothing | owner | leave | join | answer => exact member

theorem Change.insertions_mono (change : Change cfg s caller made s') (member : insertion ∈ s.insertions) :
    insertion ∈ s'.insertions := by
  cases change with
  | join => exact mem_append_left _ member
  | nothing | room | owner | leave | answer => exact member

theorem At.later {other : Caller} (here : At s other known) (change : Change cfg s caller made s') : At s' other known := by
  obtain ⟨userId,stage⟩ := known
  obtain ⟨user,holds⟩ := here
  refine ⟨user,?_⟩
  cases stage with
  | start | ended => trivial
  | found | created =>
    obtain ⟨room,member,facts⟩ := holds
    exact ⟨room,change.rooms_mono member,facts⟩
  | joined =>
    obtain ⟨insertion,member,facts⟩ := holds
    exact ⟨insertion,change.insertions_mono member,facts⟩

theorem Change.keyed (change : Change cfg s caller made s') (some' : s'.members (membersKey roomId) ≠ ∅) :
    s.members (membersKey roomId) ≠ ∅ ∨ ∃ room ∈ s.rooms, room.roomId = roomId := by
  have updated : ∀ room ∈ s.rooms, ∀ set, (s.update (membersKey room.roomId) set).members (membersKey roomId) ≠ ∅ →
      s.members (membersKey roomId) ≠ ∅ ∨ ∃ room ∈ s.rooms, room.roomId = roomId := by
    intro room present set some'
    by_cases same : membersKey roomId = membersKey room.roomId
    · exact .inr ⟨room,present,(membersKey_injective same).symm⟩
    · rw [members_update_of_ne s set same] at some'
      exact .inl some'
  cases change with
  | nothing | room | answer => exact .inl some'
  | owner room present | join room present => exact updated room present _ some'
  | leave key member =>
    left
    rintro empty
    refine some' ?_
    by_cases same : membersKey roomId = key
    · rw [← same,members_update,empty,Finset.erase_empty]
    · rw [members_update_of_ne s _ same,empty]

theorem Ledger.later (ledger : Ledger cfg s) (change : Change cfg s caller made s') : Ledger cfg s' := by
  have keyed : ∀ roomId, s'.members (membersKey roomId) ≠ ∅ → ∃ room ∈ s'.rooms, room.roomId = roomId := by
    intro roomId some'
    obtain ⟨room,member,same⟩ := (change.keyed some').elim (ledger.keyed roomId) id
    exact ⟨room,change.rooms_mono member,same⟩
  cases change with
  | nothing | owner | leave | join | answer => exact ⟨ledger.sequence,ledger.limit,ledger.positive,keyed,ledger.distinct⟩
  | room roomName maxMembers positive space =>
    have next : (s.lastRoom + 1).toNat = s.lastRoom.toNat + 1 := by
      rw [UInt64.toNat_add]
      simp
      omega
    refine ⟨?_,?_,?_,keyed,?_⟩
    · refine forall_concat (fun room old => ?_) ?_
      · have before := UInt64.le_iff_toNat_le.mp (ledger.sequence room old)
        exact UInt64.le_iff_toNat_le.mpr (by simp only [next]; omega)
      · exact UInt64.le_refl _
    · exact forall_concat ledger.limit maxMembers.toNat_lt
    · intro some' room member
      rcases mem_concat member with old | rfl
      · exact ledger.positive some' room old
      · exact Nat.pos_of_ne_zero fun zero => positive some' (UInt32.toNat_inj.mp zero)
    · rw [map_append,nodup_append]
      refine ⟨ledger.distinct,nodup_singleton _,?_⟩
      rintro _ old _ last rfl
      obtain ⟨room,member,same⟩ := mem_map.mp old
      cases mem_singleton.mp last
      exact next_ne ledger space room member same

theorem Joined.later (joined : Joined s) (change : Change cfg s caller made s') : Joined s' := by
  have kept : ∀ answer ∈ s.answers, ∃ insertion ∈ s'.insertions, insertion.request = answer.request ∧
      insertion.key = membersKey answer.roomId ∧ insertion.member = decimal answer.userId.toNat ∧
      insertion.size = answer.memberCount.toNat := by
    intro answer member
    obtain ⟨insertion,inside,facts⟩ := joined answer member
    exact ⟨insertion,change.insertions_mono inside,facts⟩
  cases change with
  | nothing | room | owner | leave | join => exact kept
  | answer roomId memberCount here =>
    exact forall_concat kept here

def Fits (s : Store) (made : Option (Bytes × Bytes)) : Prop :=
  ∀ key member, made = some (key,member) → ∀ room ∈ s.rooms, membersKey room.roomId = key →
    (insert member (s.members key)).card ≤ room.maxMembers

theorem Bounded.step_iff (bounded : Bounded s) (ledger : Ledger cfg s) (change : Change cfg s caller made s') :
    Bounded s' ↔ Fits s made := by
  cases change with
  | nothing | answer => exact iff_of_true bounded nofun
  | room roomName maxMembers positive space =>
    refine iff_of_true (fun room member => ?_) nofun
    rcases mem_concat member with old | rfl
    · exact bounded room old
    -- the set of a room that has not been there is empty
    have empty : s.members (membersKey (s.lastRoom + 1)) = ∅ := by
      by_contra some'
      obtain ⟨room,member,same⟩ := ledger.keyed _ some'
      exact next_ne ledger space room member same
    simp [empty]
  | leave key member =>
    refine iff_of_true (fun room inside => ?_) nofun
    by_cases same : membersKey room.roomId = key
    · rw [← same,members_update]
      exact (Finset.card_le_card (Finset.erase_subset _ _)).trans (bounded room inside)
    · rw [members_update_of_ne s _ same]
      exact bounded room inside
  | join room present member new space =>
    refine iff_of_true (fun other inside => ?_) nofun
    by_cases same : membersKey other.roomId = membersKey room.roomId
    · have sole : other = room := inj_on_of_nodup_map ledger.distinct inside present (membersKey_injective same)
      subst sole
      simp only [members_update,Finset.card_insert_of_notMem new]
      exact space
    · simp only [members_update_of_ne s _ same]
      exact bounded other inside
  | owner room present member =>
    constructor
    · rintro after _ _ ⟨⟩ other inside same
      have held := after other inside
      rwa [same,members_update] at held
    · intro fits other inside
      by_cases same : membersKey other.roomId = membersKey room.roomId
      · rw [same,members_update]
        exact fits _ _ rfl other inside same
      · rw [members_update_of_ne s _ same]
        exact bounded other inside

end Changes

structure Sane (cfg : Config) (s : System) : Prop where
  ledger : Ledger cfg s.shared
  joined : Joined s.shared
  jobs : ∀ job ∈ s.jobs, Crew.Tracked (permit cfg) learn (At s.shared) job

theorem Sane.started (sane : Sane cfg s) (follows : Follows cfg (userId,.start) program) :
    Sane cfg (s.start ⟨s.jobs.length,userId⟩ program) :=
  ⟨sane.ledger,sane.joined,Crew.tracked_start sane.jobs ⟨(userId,.start),⟨rfl,trivial⟩,follows⟩⟩

theorem Sane.resume {s next : System} (sane : Sane cfg s) (steps : s.resume (perform fate) index = some next) :
    Sane cfg next := by
  obtain ⟨caller,caller',command,resume,reply,known,there,before,after,here,permitted,performed,follows⟩ :=
    Crew.tracked_resumed sane.jobs steps
  obtain ⟨done,rfl⟩ := perform_performed sane.ledger here permitted performed
  refine ⟨sane.ledger.later done.change,sane.joined.later done.change,Crew.tracked_next sane.jobs after ?_ ?_⟩
  · exact ⟨(known.1,known.2.after command reply),⟨here.user,done.holds⟩,follows _ rfl⟩
  · exact fun other _ tracked => tracked.mono fun _ there => there.later done.change

theorem sane_step (cfg : Config) (s : System) (action : Action) (next : System) (sane : Sane cfg s)
    (steps : step cfg s action = some next) : Sane cfg next := by
  cases action with
  | create metadata request =>
    cases steps
    exact sane.started (onCreateRoom_follows cfg metadata request)
  | join metadata request =>
    cases steps
    exact sane.started (onJoinRoom_follows cfg metadata request)
  | leave metadata request =>
    cases steps
    exact sane.started (onLeaveRoom_follows cfg metadata request)
  | resume index fate => exact sane.resume steps

theorem sane_start (cfg : Config) : Sane cfg ⟨{},[]⟩ :=
  ⟨⟨nofun,nofun,fun _ => nofun,fun _ some' => absurd rfl some',.nil⟩,nofun,nofun⟩

def nextCommand (job : Caller × Task Table Outcome) : Option (Command Table) :=
  match job.2 with
  | .done _ => none
  | .await command _ => some command

/-- The owner that is added to a room fits into it. -/
def OwnerFits (s : System) : Action → Prop
  | .resume index fate => ∀ job ∈ s.jobs[index]?, ∀ command ∈ nextCommand job, Fits s.shared (addition fate command)
  | _ => True

theorem bounded_step {next : System} (bounded : Bounded s.shared)
    (sane : Sane cfg s) (steps : step cfg s action = some next) : Bounded next.shared ↔ OwnerFits s action := by
  cases action with
  | create | join | leave =>
    cases steps
    exact iff_of_true bounded trivial
  | resume index fate =>
    obtain ⟨caller,caller',command,resume,reply,known,there,-,-,here,permitted,performed,-⟩ :=
      Crew.tracked_resumed sane.jobs steps
    obtain ⟨done,-⟩ := perform_performed sane.ledger here permitted performed
    rw [bounded.step_iff sane.ledger done.change]
    simp [OwnerFits,there,nextCommand]

def addsTo : Command Table → Option Bytes
  | .redis _ [verb,key,_] => if verb = ascii "SADD" then some key else none
  | _ => none

def joinsTo : Command Table → Option Bytes
  | .redis _ [verb,script,_,key,_,_] => if verb = ascii "EVAL" ∧ script = ascii joinRoomLua then some key else none
  | _ => none

def pending (job : Caller × Task Table Outcome) : Option Bytes := (nextCommand job).bind addsTo

/-- Nobody joins a room between its creation and the addition of its owner. -/
def OwnerFirst (s : System) : Action → Prop
  | .resume index _ => ∀ job ∈ s.jobs[index]?, ∀ command ∈ nextCommand job, ∀ key ∈ joinsTo command,
      ∀ other ∈ s.jobs.eraseIdx index, pending other ≠ some key
  | _ => True

instance (s : System) : (action : Action) → Decidable (OwnerFirst s action)
  | .resume index _ => inferInstanceAs (Decidable (∀ job ∈ s.jobs[index]?, _))
  | .create .. | .join .. | .leave .. => inferInstanceAs (Decidable True)

structure Vacant (cfg : Config) (s : System) : Prop where
  sane : Sane cfg s
  distinct : s.jobs.Pairwise fun job other => ∀ key, pending job = some key → pending other ≠ some key
  empty : ∀ job ∈ s.jobs, ∀ key, pending job = some key → s.shared.members key = ∅

theorem pending_created (tracks : program.Tracks (permit cfg) learn (fun _ _ => True) known)
    (adds : pending (caller,program) = some key) : ∃ roomId, known.2 = .created roomId ∧ key = membersKey roomId := by
  cases program with
  | done outcome => cases adds
  | await command resume =>
    obtain ⟨permitted,-⟩ := tracks
    cases command with
    | redis adapter arguments =>
      rcases permitted with ⟨roomId,stage,rfl⟩ | ⟨_,_,_,rfl⟩ | ⟨_,_,rfl⟩ <;> cases adds
      exact ⟨roomId,stage,rfl⟩
    | _ => cases adds

section Fills
variable {s s' next : Store}

theorem update_filled {set : Finset Bytes} (empty : s.members key = ∅)
    (filled : (s.update other set).members key ≠ ∅) : key = other ∧ set ≠ ∅ := by
  by_cases same : key = other
  · subst same
    rw [members_update] at filled
    exact ⟨rfl,filled⟩
  · rw [members_update_of_ne s set same] at filled
    exact absurd empty filled

theorem redis_fills (outcome : s.redis caller arguments = some (reply,next)) (empty : s.members key = ∅)
    (filled : next.members key ≠ ∅) (adapter : RedisAdapter) :
    addsTo (.redis adapter arguments) = some key ∨ joinsTo (.redis adapter arguments) = some key := by
  simp only [Store.redis] at outcome
  split at outcome
  · next verb other member =>
    split at outcome
    · next sadd =>
      cases outcome
      obtain ⟨rfl,-⟩ := update_filled empty filled
      exact .inl (by rw [addsTo,if_pos sadd])
    · cases outcome
  · next verb script count other member =>
    split at outcome
    · cases outcome
      obtain ⟨rfl,some'⟩ := update_filled empty filled
      rw [empty] at some'
      exact absurd rfl some'
    · cases outcome
  · next verb script count other member maxMembers =>
    split at outcome
    · next join =>
      cases outcome
      obtain ⟨rfl,-⟩ := update_filled empty filled
      exact .inr (by rw [joinsTo,if_pos join])
    · cases outcome
  · cases outcome

theorem query_members (outcome : s.query sql params = some (some (result,next))) : next.members = s.members := by
  simp only [Store.query] at outcome
  repeat' split at outcome
  all_goals cases outcome
  all_goals rfl

theorem perform_fills {command : Command Table} {reply : Reply command}
    (performed : perform fate s others caller command = some (reply,s',caller')) (empty : s.members key = ∅)
    (filled : s'.members key ≠ ∅) : addsTo command = some key ∨ joinsTo command = some key := by
  cases command with
  | redis adapter arguments =>
    simp only [perform] at performed
    split at performed
    · cases performed
      exact absurd empty filled
    next outcome =>
    cases performed
    split at filled
    · exact redis_fills outcome empty filled adapter
    · exact absurd empty filled
  | query sql params =>
    have same : s'.members = s.members := by
      simp only [perform] at performed
      split at performed
      · cases performed
        rfl
      next outcome found =>
      split at performed
      · obtain ⟨⟨result,next⟩,rfl,same⟩ := map_eq_some_iff.mp performed
        cases same
        exact query_members found
      · cases performed
        rfl
    exact absurd (same ▸ empty) filled
  | produce topic other message =>
    cases performed
    have same : (s.answered caller message).members = s.members := by
      rw [answered.eq_def]
      split <;> rfl
    exact absurd (same ▸ empty) filled
  | _ =>
    cases performed
    exact absurd empty filled

end Fills

theorem Vacant.started (vacant : Vacant cfg s)
    (follows : Follows cfg (userId,.start) program) : Vacant cfg (s.start ⟨s.jobs.length,userId⟩ program) := by
  have idle : ∀ caller, pending (caller,program) = none := by
    intro caller
    by_contra adds
    obtain ⟨key,adds⟩ := ne_none_iff_exists'.mp adds
    obtain ⟨roomId,created,-⟩ := pending_created follows adds
    cases created
  refine ⟨vacant.sane.started follows,?_,fun job member => ?_⟩
  · refine pairwise_append.mpr ⟨vacant.distinct,pairwise_singleton _ _,?_⟩
    intro job _ new member key _ adds
    cases mem_singleton.mp member
    rw [idle] at adds
    cases adds
  · rcases mem_concat member with before | rfl
    · exact vacant.empty job before
    · intro key adds
      rw [idle] at adds
      cases adds

theorem Vacant.resume {s next : System} (vacant : Vacant cfg s) (first : OwnerFirst s (.resume index fate))
    (steps : s.resume (perform fate) index = some next) : Vacant cfg next := by
  obtain ⟨caller,caller',command,resume,reply,known,there,before,after,here,permitted,performed,follows⟩ :=
    Crew.tracked_resumed vacant.sane.jobs steps
  obtain ⟨done,rfl⟩ := perform_performed vacant.sane.ledger here permitted performed
  have apart : ∀ {job other : Caller × Task Table Outcome}, (∀ key, pending job = some key → pending other ≠ some key) →
      ∀ key, pending other = some key → pending job ≠ some key := fun unequal key second first => unequal key first second
  obtain ⟨others,rest⟩ := pairwise_cons.mp ((before.pairwise_iff apart).mp vacant.distinct)
  -- what the request adds to next is the set of a room that has just been created
  have new : ∀ key, pending (caller',resume reply) = some key → ∃ roomId, key = membersKey roomId ∧
      (∀ room ∈ s.shared.rooms, room.roomId ≠ roomId) ∧ next.shared.members = s.shared.members := by
    intro key adds
    obtain ⟨roomId,created,rfl⟩ := pending_created (follows _ rfl) adds
    exact ⟨roomId,rfl,done.fresh roomId created⟩
  refine ⟨vacant.sane.resume steps,?_,fun job member key adds => ?_⟩
  · refine (after.pairwise_iff apart).mpr (pairwise_cons.mpr ⟨?_,rest⟩)
    intro other member key adds again
    obtain ⟨roomId,rfl,fresh,-⟩ := new key adds
    obtain ⟨known,held,tracks⟩ := vacant.sane.jobs other (mem_of_mem_eraseIdx member)
    obtain ⟨roomId',created,same⟩ := pending_created tracks again
    have holds := held.holds
    rw [created] at holds
    obtain ⟨room,inside,named⟩ := holds
    exact fresh room inside (named.trans (membersKey_injective same).symm)
  · rcases mem_cons.mp (after.mem_iff.mp member) with rfl | old
    · obtain ⟨roomId,rfl,fresh,members⟩ := new key adds
      rw [members]
      by_contra some'
      obtain ⟨room,inside,named⟩ := vacant.sane.ledger.keyed roomId some'
      exact fresh room inside named
    · by_contra filled
      have empty := vacant.empty job (mem_of_mem_eraseIdx old) key adds
      rcases perform_fills performed empty filled with added | joined
      · exact others job old key added adds
      · exact first _ there command rfl key joined job old adds

theorem vacant_step {next : System} (vacant : Vacant cfg s)
    (first : OwnerFirst s action) (steps : step cfg s action = some next) : Vacant cfg next := by
  cases action with
  | create metadata request =>
    cases steps
    exact vacant.started (onCreateRoom_follows cfg metadata request)
  | join metadata request =>
    cases steps
    exact vacant.started (onJoinRoom_follows cfg metadata request)
  | leave metadata request =>
    cases steps
    exact vacant.started (onLeaveRoom_follows cfg metadata request)
  | resume index fate => exact vacant.resume first steps

theorem Vacant.ownerFits {s next : System} (vacant : Vacant cfg s) (positive : cfg.maxRoomMembers ≠ 0)
    (steps : step cfg s action = some next) : OwnerFits s action := by
  cases action with
  | create | join | leave => trivial
  | resume index fate =>
    obtain ⟨caller,-,command,resume,-,-,there,-,-,-,-,-,-⟩ := Crew.tracked_resumed vacant.sane.jobs steps
    intro job same command' gives key member made room inside named
    cases there.symm.trans same
    cases gives
    have adds : addsTo command = some key := by
      cases command with
      | redis adapter arguments =>
        match arguments, made with
        | [verb,other,new], made =>
          simp only [addition] at made
          split at made
          · next sadd =>
            cases made
            exact if_pos sadd.1
          · cases made
      | _ => cases made
    have empty := vacant.empty _ (mem_of_getElem? there) key adds
    rw [empty,Finset.insert_empty,Finset.card_singleton]
    exact vacant.sane.ledger.positive positive room inside

/-- Rooms keep to their capacity exactly if every owner fits that is added; it does if nobody joins a room before its
owner. A join that succeeds has made the user a member and tells the size of the set right after it. -/
theorem room_capacity_iff (cfg : Config) (schedule : List Action) (final : System)
    (runs : run (step cfg) ⟨{},[]⟩ schedule = some final) :
    (Throughout (step cfg) (fun s => Bounded s.shared) ⟨{},[]⟩ schedule ↔ Along (step cfg) OwnerFits ⟨{},[]⟩ schedule) ∧
    (cfg.maxRoomMembers ≠ 0 → Along (step cfg) OwnerFirst ⟨{},[]⟩ schedule →
      Throughout (step cfg) (fun s => Bounded s.shared) ⟨{},[]⟩ schedule) ∧
    Throughout (step cfg) (fun s => Joined s.shared) ⟨{},[]⟩ schedule := by
  have bounded : Bounded ({} : Store) := nofun
  have sane := along_invariant (step cfg) (Sane cfg) (sane_step cfg) (sane_start cfg) schedule
  refine ⟨?_,fun positive first => ?_,?_⟩
  · refine throughout_iff OwnerFits (fun s _ => Sane cfg s) (fun s => Bounded s.shared) ?_ bounded sane runs
    intro s action next bounded sane steps
    exact bounded_step bounded sane steps
  · have both : Throughout (step cfg) (fun s => Bounded s.shared ∧ Vacant cfg s) ⟨{},[]⟩ schedule := by
      refine throughout_guarded _ ?_ ⟨bounded,⟨sane_start cfg,.nil,nofun⟩⟩ first
      intro s action next held first steps
      have fits := held.2.ownerFits positive steps
      exact ⟨(bounded_step held.1 held.2.sane steps).mpr fits,vacant_step held.2 first steps⟩
    exact both.imp fun _ held => held.1
  · have all := throughout_invariant (step cfg) (sane_step cfg) (sane_start cfg) schedule
    exact all.imp fun _ sane => sane.joined

section Runs

def plainConfig : Config where
  decodeCreateRoom := fun _ => none
  decodeJoinRoom := fun _ => none
  decodeLeaveRoom := fun _ => none
  decodeListRooms := fun _ => none
  decodeSendMessage := fun _ => none
  decodeWhisper := fun _ => none
  decodeChatHistory := fun _ => none
  decodeGlobalBroadcast := fun _ => none
  encode := fun _ => []

def succeeding : (command : Command Table) → Reply command
  | .query .. | .queryAsync _ | .queryParamsAsync .. => .ok ⟨[]⟩
  | .execute .. => .ok 1
  | .acquireConnected | .produce .. => .ok ()
  | .markPoisoned | .release | .discard => ()
  | .redis .. => .ok (integer 0)
  | .verifyPassword .. => true
  | .createAccessToken .. => []
  | .verifyAccessToken _ => .error .invalidMessage
  | .remainingTtl _ => (0 : Int)
  | .generateSecureToken => .ok []
  | .now => (0 : UInt64)

def goesOn (job count : Nat) : List Action := List.replicate count (.resume job { answer := succeeding })

def creates (maxMembers : UInt32) : Action := .create { userId := 1 } ⟨some (ascii "room"),maxMembers⟩

def joins (userId : UInt64) : Action := .join { userId } ⟨1⟩

theorem room_capacity_owner_first :
    ∃ final, run (step plainConfig) ⟨{},[]⟩ (creates 2 :: goesOn 0 3 ++ joins 2 :: goesOn 1 3) = some final ∧
      final.shared.members (membersKey 1) = {decimal 1,decimal 2} ∧ final.shared.answers = [⟨1,1,2,2⟩] ∧
      Throughout (step plainConfig) (fun s => Bounded s.shared) ⟨{},[]⟩ (creates 2 :: goesOn 0 3 ++ joins 2 :: goesOn 1 3) := by
  obtain ⟨⟨final,runs,members,answers⟩,first⟩ : (∃ final,
      run (step plainConfig) ⟨{},[]⟩ (creates 2 :: goesOn 0 3 ++ joins 2 :: goesOn 1 3) = some final ∧
      final.shared.members (membersKey 1) = {decimal 1,decimal 2} ∧ final.shared.answers = [⟨1,1,2,2⟩]) ∧
      Along (step plainConfig) OwnerFirst ⟨{},[]⟩ (creates 2 :: goesOn 0 3 ++ joins 2 :: goesOn 1 3) := by decide +kernel
  refine ⟨final,runs,members,answers,?_⟩
  exact (room_capacity_iff plainConfig _ final runs).2.1 (by decide) first

/-- User 2 takes the one place of the room before its owner is added: then there are two members. -/
theorem owner_exceeds_capacity :
    ∃ final, run (step plainConfig) ⟨{},[]⟩ (creates 1 :: goesOn 0 1 ++ joins 2 :: goesOn 1 3 ++ goesOn 0 2) = some final ∧
      final.shared.rooms = [⟨1,ascii "room",1⟩] ∧ final.shared.members (membersKey 1) = {decimal 1,decimal 2} ∧
      final.shared.answers = [⟨1,1,2,1⟩] ∧ ¬Bounded final.shared := by
  obtain ⟨final,runs,rooms,members,answers⟩ : ∃ final,
      run (step plainConfig) ⟨{},[]⟩ (creates 1 :: goesOn 0 1 ++ joins 2 :: goesOn 1 3 ++ goesOn 0 2) = some final ∧
      final.shared.rooms = [⟨1,ascii "room",1⟩] ∧ final.shared.members (membersKey 1) = {decimal 1,decimal 2} ∧
      final.shared.answers = [⟨1,1,2,1⟩] := by decide +kernel
  refine ⟨final,runs,rooms,members,answers,fun bounded => ?_⟩
  have limit := bounded ⟨1,ascii "room",1⟩ (rooms ▸ mem_singleton_self _)
  rw [members] at limit
  exact absurd limit (by decide)

end Runs

end ApexPipeline.ChatRooms
