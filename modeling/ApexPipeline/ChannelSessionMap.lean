import ApexPipeline.DecimalText
import ApexPipeline.Multimap
import ApexPipeline.WireHeader

/-! `channel_session_map.cpp`: which sessions of a core have subscribed to which channels, stored in
both directions. The two maps are one relation. -/
namespace ApexPipeline

structure ChannelSessionMap where
  maxSubscriptionsPerSession : UInt32
  channelToSessions : Multimap Bytes Nat
  sessionToChannels : Multimap Nat Bytes

namespace ChannelSessionMap

def create (maxSubscriptionsPerSession : UInt32) : ChannelSessionMap := ⟨maxSubscriptionsPerSession,∅,∅⟩

section
local instance lawfulBytes : LawfulBEq Bytes := inferInstance

def subscribe (m : ChannelSessionMap) (channel : Bytes) (sessionId : Nat) :
    Except ErrorCode Unit × ChannelSessionMap :=
  let m := { m with sessionToChannels := m.sessionToChannels.touch sessionId }
  let channels := m.sessionToChannels.values sessionId
  if m.maxSubscriptionsPerSession > 0 ∧ channels.length ≥ m.maxSubscriptionsPerSession.toNat ∧ channel ∉ channels then
    (.error .serviceError,m)
  else (.ok (),{ m with
    channelToSessions := m.channelToSessions.add channel sessionId
    sessionToChannels := m.sessionToChannels.add sessionId channel })

end

def unsubscribe (m : ChannelSessionMap) (channel : Bytes) (sessionId : Nat) : ChannelSessionMap :=
  { m with
    channelToSessions := m.channelToSessions.remove channel sessionId
    sessionToChannels := m.sessionToChannels.remove sessionId channel }

def unsubscribeAll (m : ChannelSessionMap) (sessionId : Nat) : ChannelSessionMap :=
  match m.sessionToChannels.lookup sessionId with
  | none => m
  | some channels => { m with
      channelToSessions := channels.foldl (fun map channel => map.remove channel sessionId) m.channelToSessions
      sessionToChannels := m.sessionToChannels.erase sessionId }

def getSubscribers (m : ChannelSessionMap) (channel : Bytes) : Option (List Nat) := m.channelToSessions.lookup channel

def totalSubscriptions (m : ChannelSessionMap) : Nat := m.channelToSessions.total

def subscriptions (m : ChannelSessionMap) : Set (Bytes × Nat) := m.channelToSessions.relation

structure Consistent (m : ChannelSessionMap) : Prop where
  inverse : ∀ channel sessionId,
    sessionId ∈ m.channelToSessions.values channel ↔ channel ∈ m.sessionToChannels.values sessionId
  channels : m.channelToSessions.Clean
  sessions : m.sessionToChannels.Clean
  limit : m.maxSubscriptionsPerSession > 0 →
    ∀ sessionId, (m.sessionToChannels.values sessionId).length ≤ m.maxSubscriptionsPerSession.toNat

inductive Operation where
  | subscribe (channel : Bytes) (sessionId : Nat)
  | unsubscribe (channel : Bytes) (sessionId : Nat)
  | unsubscribeAll (sessionId : Nat)
  deriving DecidableEq, Repr

def apply (m : ChannelSessionMap) : Operation → ChannelSessionMap
  | .subscribe channel sessionId => (m.subscribe channel sessionId).2
  | .unsubscribe channel sessionId => m.unsubscribe channel sessionId
  | .unsubscribeAll sessionId => m.unsubscribeAll sessionId

def Exceeds (limit : UInt32) (subscriptions : Set (Bytes × Nat)) (channel : Bytes) (sessionId : Nat) : Prop :=
  limit > 0 ∧ {held | (held,sessionId) ∈ subscriptions}.ncard ≥ limit.toNat ∧ (channel,sessionId) ∉ subscriptions

open Classical in
/-- The same operations on the relation. -/
noncomputable def applyAbstract (limit : UInt32) (subscriptions : Set (Bytes × Nat)) : Operation → Set (Bytes × Nat)
  | .subscribe channel sessionId =>
    if Exceeds limit subscriptions channel sessionId then subscriptions
    else insert (channel,sessionId) subscriptions
  | .unsubscribe channel sessionId => subscriptions \ {(channel,sessionId)}
  | .unsubscribeAll sessionId => {pair ∈ subscriptions | pair.2 ≠ sessionId}

section Operations
variable {m : ChannelSessionMap} (consistent : m.Consistent) (channel : Bytes) (sessionId : Nat)
include consistent

theorem Consistent.held : {held | (held,sessionId) ∈ m.subscriptions}.ncard =
    (m.sessionToChannels.values sessionId).length := by
  have same : {held | (held,sessionId) ∈ m.subscriptions} = (m.sessionToChannels.values sessionId).toFinset := by
    ext held
    simpa [subscriptions,Multimap.relation] using consistent.inverse held sessionId
  rw [same,Set.ncard_coe_finset,List.toFinset_card_of_nodup (consistent.sessions.nodup sessionId)]

theorem Consistent.subscribe_cases : (Exceeds m.maxSubscriptionsPerSession m.subscriptions channel sessionId ∧
      m.subscribe channel sessionId = (.error .serviceError,m)) ∨
    (¬ Exceeds m.maxSubscriptionsPerSession m.subscriptions channel sessionId ∧
      m.subscribe channel sessionId = (.ok (),{ m with
        channelToSessions := m.channelToSessions.add channel sessionId
        sessionToChannels := m.sessionToChannels.add sessionId channel })) := by
  have inverse : (channel,sessionId) ∈ m.subscriptions ↔ channel ∈ m.sessionToChannels.values sessionId :=
    consistent.inverse channel sessionId
  have exceeds : Exceeds m.maxSubscriptionsPerSession m.subscriptions channel sessionId ↔
      m.maxSubscriptionsPerSession > 0 ∧
      (m.sessionToChannels.values sessionId).length ≥ m.maxSubscriptionsPerSession.toNat ∧
      channel ∉ m.sessionToChannels.values sessionId := by
    rw [Exceeds,consistent.held,inverse]
  rw [exceeds]
  by_cases refused : m.maxSubscriptionsPerSession > 0 ∧
      (m.sessionToChannels.values sessionId).length ≥ m.maxSubscriptionsPerSession.toNat ∧
      channel ∉ m.sessionToChannels.values sessionId
  · refine .inl ⟨refused,?_⟩
    -- the session has channels, so `operator[]` finds its entry
    have positive : 0 < (m.sessionToChannels.values sessionId).length := by
      have := refused.1
      rw [gt_iff_lt,UInt32.lt_iff_toNat_lt] at this
      exact lt_of_lt_of_le this refused.2.1
    obtain ⟨held,member⟩ := List.exists_mem_of_length_pos positive
    simp only [subscribe,Multimap.touch_of_mem member,if_pos refused]
  · refine .inr ⟨refused,?_⟩
    simp only [subscribe,Multimap.values_touch,if_neg refused,Multimap.touch_add]

theorem Consistent.subscribe : (m.subscribe channel sessionId).2.Consistent := by
  rcases consistent.subscribe_cases channel sessionId with ⟨-,same⟩ | ⟨room,added⟩
  · rwa [same]
  rw [added]
  refine ⟨fun other someone => ?_,consistent.channels.add _ _,consistent.sessions.add _ _,fun bounded someone => ?_⟩
  · simp only [Multimap.mem_add,consistent.inverse]
    tauto
  · have before := consistent.limit bounded
    rw [Multimap.values_add]
    split
    · split
      · exact before sessionId
      rename_i unheld
      rw [List.length_append,List.length_singleton]
      have inverse : (channel,sessionId) ∈ m.subscriptions ↔ channel ∈ m.sessionToChannels.values sessionId :=
        consistent.inverse channel sessionId
      by_contra full
      apply room
      rw [Exceeds,consistent.held,inverse]
      exact ⟨bounded,Nat.le_of_lt_succ (not_le.mp full),unheld⟩
    · exact before someone

theorem Consistent.unsubscribe : (m.unsubscribe channel sessionId).Consistent := by
  refine ⟨fun other someone => ?_,consistent.channels.remove _ _,consistent.sessions.remove _ _,fun bounded someone => ?_⟩
  · simp only [ChannelSessionMap.unsubscribe,Multimap.mem_remove,consistent.inverse]
    tauto
  · rw [ChannelSessionMap.unsubscribe,Multimap.values_remove]
    have before := consistent.limit bounded
    split
    · exact (List.length_filter_le _ _).trans (before sessionId)
    · exact before someone

theorem Consistent.unsubscribeAll : (m.unsubscribeAll sessionId).Consistent := by
  rw [ChannelSessionMap.unsubscribeAll]
  split
  · exact consistent
  rename_i channels found
  have held := Multimap.values_of_lookup found
  refine ⟨fun other someone => ?_,consistent.channels.foldl_remove _ _,consistent.sessions.erase _,
    fun bounded someone => ?_⟩
  · rw [Multimap.mem_foldl_remove,Multimap.values_erase,consistent.inverse]
    by_cases same : someone = sessionId
    · subst same
      rw [held]
      simp
    · simp [same]
  · rw [Multimap.values_erase]
    split
    · exact Nat.zero_le _
    · exact consistent.limit bounded someone

variable (operation : Operation)

theorem Consistent.apply : (m.apply operation).Consistent := by
  cases operation with
  | subscribe channel sessionId => exact consistent.subscribe channel sessionId
  | unsubscribe channel sessionId => exact consistent.unsubscribe channel sessionId
  | unsubscribeAll sessionId => exact consistent.unsubscribeAll sessionId

theorem Consistent.apply_subscriptions : (m.apply operation).subscriptions =
    applyAbstract m.maxSubscriptionsPerSession m.subscriptions operation := by
  ext ⟨other,someone⟩
  cases operation with
  | subscribe channel sessionId =>
    rw [applyAbstract,ChannelSessionMap.apply]
    rcases consistent.subscribe_cases channel sessionId with ⟨exceeds,same⟩ | ⟨room,added⟩
    · rw [if_pos exceeds,same]
    · rw [if_neg room,added]
      simp [subscriptions,Multimap.relation,Multimap.mem_add]
  | unsubscribe channel sessionId =>
    simp [applyAbstract,ChannelSessionMap.apply,ChannelSessionMap.unsubscribe,subscriptions,Multimap.relation,
      Multimap.mem_remove]
  | unsubscribeAll sessionId =>
    rw [applyAbstract,ChannelSessionMap.apply,ChannelSessionMap.unsubscribeAll]
    have inverse := consistent.inverse other someone
    split
    · rename_i unknown
      have nothing : m.sessionToChannels.values sessionId = [] := by simp [Multimap.values,unknown]
      simp only [subscriptions,Multimap.relation,Set.mem_ofPred_eq]
      refine ⟨fun member => ⟨member,?_⟩,And.left⟩
      rintro rfl
      rw [inverse,nothing] at member
      cases member
    · rename_i channels found
      have held := Multimap.values_of_lookup found
      simp only [subscriptions,Multimap.relation,Set.mem_ofPred_eq,Multimap.mem_foldl_remove]
      refine ⟨fun kept => ⟨kept.1,?_⟩,fun kept => ⟨kept.1,fun both => kept.2 both.2⟩⟩
      rintro rfl
      rw [inverse,held] at kept
      exact kept.2 ⟨kept.1,rfl⟩

end Operations

theorem create_consistent (limit : UInt32) : (create limit).Consistent :=
  ⟨fun _ _ => by simp [create,Multimap.values],Multimap.empty_clean,Multimap.empty_clean,
    fun _ _ => by simp [create,Multimap.values]⟩

theorem apply_limit (m : ChannelSessionMap) (operation : Operation) :
    (m.apply operation).maxSubscriptionsPerSession = m.maxSubscriptionsPerSession := by
  cases operation with
  | subscribe channel sessionId =>
    rw [apply,ChannelSessionMap.subscribe]
    simp only
    split <;> rfl
  | unsubscribe channel sessionId => rfl
  | unsubscribeAll sessionId =>
    rw [apply,ChannelSessionMap.unsubscribeAll]
    split <;> rfl

/-- The two maps are one relation with its limit and its size, a refused call changes nothing, and every
operation does to the relation what it is for. -/
structure Exact (limit : UInt32) (m : ChannelSessionMap) : Prop where
  limited : m.maxSubscriptionsPerSession = limit
  consistent : m.Consistent
  total : m.totalSubscriptions = m.subscriptions.ncard
  refused : ∀ channel sessionId code, (m.subscribe channel sessionId).1 = .error code →
    (m.subscribe channel sessionId).2 = m
  refines : ∀ operation, (m.apply operation).subscriptions = applyAbstract limit m.subscriptions operation

theorem Consistent.exact {m : ChannelSessionMap} (consistent : m.Consistent) :
    m.Exact m.maxSubscriptionsPerSession where
  limited := rfl
  consistent := consistent
  total := consistent.channels.total_eq
  refused channel sessionId code failed := by
    rcases consistent.subscribe_cases channel sessionId with ⟨-,same⟩ | ⟨-,added⟩
    · rw [same]
    · rw [added] at failed
      cases failed
  refines := consistent.apply_subscriptions

end ChannelSessionMap
end ApexPipeline
