import ApexPipeline.Execution
import ApexPipeline.WireHeader

/-! `kafka_consumer.cpp`: the loop of `poll_messages`, one step for each call of `rd_kafka_consumer_poll`. A commit
is cumulative: it moves the offset of the partition behind the message. Logs and metrics are left out. -/
namespace ApexPipeline.KafkaConsumer
open Execution

structure TopicPartition where
  topic : String
  partition : Nat
  deriving DecidableEq, Repr

inductive MessageError where
  | noError
  | partitionEof
  | other
  deriving DecidableEq, Repr

structure Message where
  source : TopicPartition
  offset : Nat
  key : List UInt8
  payload : List UInt8
  err : MessageError
  deriving DecidableEq, Repr

structure Record where
  topic : String
  key : List UInt8
  payload : List UInt8
  deriving DecidableEq, Repr

def dlqRecord (m : Message) : Record := ⟨m.source.topic ++ "-dlq",m.key,m.payload⟩

/-- `callback` and `producer` say whether they are set. -/
structure Consumer where
  maxBatch : Int
  dlqMaxRetries : Int
  callback : Bool
  producer : Bool
  deriving DecidableEq, Repr

/-- A polled message, with the result of its callback and the answers to the attempts to
produce it to the DLQ, counted from one. -/
structure Delivery where
  message : Message
  result : Except ErrorCode Unit
  produced : Nat → Bool

/-- `left` counts the iterations of `poll_messages` that are left. `failed` are the messages that failed and were not
accepted by the DLQ, until they are committed. -/
structure State where
  consuming : Bool
  left : Option Nat
  committed : TopicPartition → Nat
  dlq : List Record
  failed : List Message

def start (committed : TopicPartition → Nat) : State := ⟨false,none,committed,[],[]⟩

namespace State

/-- `rd_kafka_commit_message`. -/
def commitOffset (s : State) (m : Message) : State :=
  { s with
    committed := Function.update s.committed m.source (m.offset + 1)
    failed := s.failed.filter fun f => ¬(f.source = m.source ∧ f.offset = m.offset) }

def accept (s : State) (m : Message) : State := { s with dlq := s.dlq ++ [dlqRecord m] }

def fail (s : State) (m : Message) : State := { s with failed := s.failed ++ [m] }

end State

/-- The attempts from `attempt` on, of which at most `left` are made. -/
def attempts (produced : Nat → Bool) (attempt : Nat) : Nat → Bool
  | 0 => false
  | left + 1 => if produced attempt then true else attempts produced (attempt + 1) left

def produceToDlq (c : Consumer) (d : Delivery) : Bool :=
  attempts d.produced 1 c.dlqMaxRetries.toNat

def handle (c : Consumer) (s : State) (d : Delivery) : State :=
  match d.message.err with
  | .noError =>
    if c.callback then
      match d.result with
      | .ok _ => s.commitOffset d.message
      | .error _ =>
        if !c.producer then s.fail d.message
        else if produceToDlq c d then (s.accept d.message).commitOffset d.message
        else s.fail d.message
    else s.commitOffset d.message
  | .partitionEof => s
  | .other => s

inductive Action where
  | startConsuming
  | stopConsuming
  | pollMessages
  | poll (delivery : Option Delivery)
  | leave

def step (c : Consumer) (s : State) : Action → Option State
  | .startConsuming => some { s with consuming := true }
  | .stopConsuming => some { s with consuming := false }
  | .pollMessages =>
    match s.left with
    | none => some (if s.consuming then { s with left := some c.maxBatch.toNat } else s)
    | some _ => none
  | .poll delivery =>
    match s.left, delivery with
    | some (left + 1), some d => some { handle c s d with left := some left }
    | some (_ + 1), none => some { s with left := none }
    | _, _ => none
  | .leave => if s.left = some 0 then some { s with left := none } else none

/-- librdkafka starts at the committed offset of a partition and goes on from there. -/
def Delivered (s : State) : Action → Prop
  | .poll (some d) => s.committed d.message.source ≤ d.message.offset
  | _ => True

instance (s : State) (action : Action) : Decidable (Delivered s action) := by
  unfold Delivered
  split <;> infer_instance

/-- A restart from the committed offsets polls every message that has failed. -/
def Redelivers (s : State) : Prop := ∀ m ∈ s.failed, s.committed m.source ≤ m.offset

instance (s : State) : Decidable (Redelivers s) := inferInstanceAs (Decidable (∀ _ ∈ _, _))

/-- The message was processed, or the DLQ has it, or nobody asked for it. -/
def commits (c : Consumer) (d : Delivery) : Bool :=
  match d.message.err with
  | .noError =>
    if c.callback then
      match d.result with
      | .ok _ => true
      | .error _ => c.producer && produceToDlq c d
    else true
  | _ => false

/-- When a message is committed, no earlier one of its partition is left that has failed. -/
def Resolved (c : Consumer) (s : State) : Action → Prop
  | .poll (some d) => commits c d = true → ∀ m ∈ s.failed, m.source = d.message.source → d.message.offset ≤ m.offset
  | _ => True

instance (c : Consumer) (s : State) (action : Action) : Decidable (Resolved c s action) := by
  unfold Resolved
  split <;> infer_instance

theorem handle_cases (c : Consumer) (s : State) (d : Delivery) :
    if commits c d then handle c s d = s.commitOffset d.message ∨ handle c s d = (s.accept d.message).commitOffset d.message
    else handle c s d = s ∨ handle c s d = s.fail d.message := by
  unfold commits handle
  cases d.message.err with
  | partitionEof | other => exact .inl rfl
  | noError =>
    cases c.callback with
    | false => exact .inl rfl
    | true =>
      cases d.result with
      | ok _ => exact .inl rfl
      | error _ => cases c.producer <;> cases produceToDlq c d <;> exact .inr rfl

theorem commitOffset_redelivers (m : Message) (redelivers : Redelivers s) :
    Redelivers (s.commitOffset m) ↔ ∀ f ∈ s.failed, f.source = m.source → m.offset ≤ f.offset := by
  constructor
  · intro kept f member same
    by_cases equal : f.offset = m.offset
    · exact Nat.le_of_eq equal.symm
    have stays : f ∈ (s.commitOffset m).failed :=
      List.mem_filter.mpr ⟨member,by simp [equal]⟩
    have behind := kept f stays
    simp only [State.commitOffset,same,Function.update_self] at behind
    omega
  · intro resolved f member
    obtain ⟨earlier,other⟩ := List.mem_filter.mp member
    by_cases same : f.source = m.source
    · have after := resolved f earlier same
      have different : f.offset ≠ m.offset := by simpa [same] using other
      simp only [State.commitOffset,same,Function.update_self]
      omega
    · simpa [State.commitOffset,same] using redelivers f earlier

theorem handle_redelivers (c : Consumer) (redelivers : Redelivers s) (delivered : Delivered s (.poll (some d))) :
    Redelivers (handle c s d) ↔ Resolved c s (.poll (some d)) := by
  have outcome := handle_cases c s d
  cases committed : commits c d with
  | true =>
    rw [committed,if_pos rfl] at outcome
    have resolved : Resolved c s (.poll (some d)) ↔
        ∀ f ∈ s.failed, f.source = d.message.source → d.message.offset ≤ f.offset := by
      simp [Resolved,committed]
    rw [resolved]
    rcases outcome with done | done
    all_goals
      rw [done]
      exact commitOffset_redelivers d.message redelivers
  | false =>
    rw [committed,if_neg nofun] at outcome
    have nothing : Resolved c s (.poll (some d)) := by simp [Resolved,committed]
    refine iff_of_true ?_ nothing
    rcases outcome with same | failed
    · rw [same]
      exact redelivers
    · rw [failed]
      exact forall_concat redelivers delivered

theorem redelivers_step (c : Consumer) (s : State) (action : Action) (next : State)
    (redelivers : Redelivers s) (delivered : Delivered s action)
    (stepped : step c s action = some next) : Redelivers next ↔ Resolved c s action := by
  cases action with
  | startConsuming | stopConsuming =>
    cases stepped
    exact iff_of_true redelivers trivial
  | pollMessages =>
    simp only [step] at stepped
    split at stepped <;> cases stepped
    refine iff_of_true ?_ trivial
    split
    · exact redelivers
    · exact redelivers
  | leave =>
    obtain ⟨_,rfl⟩ := of_guard stepped
    exact iff_of_true redelivers trivial
  | poll delivery =>
    simp only [step] at stepped
    split at stepped
    · rename_i d _
      cases stepped
      exact handle_redelivers c redelivers delivered
    · cases stepped
      exact iff_of_true redelivers trivial
    · cases stepped

/-- In a run from any committed offsets, a restart at any moment polls every message that
has failed, exactly when each commit comes after what has failed before it. -/
theorem redelivers_iff_resolved (c : Consumer) (committed : TopicPartition → Nat)
    (schedule : List Action) (final : State)
    (delivered : Along (step c) Delivered (start committed) schedule)
    (runs : run (step c) (start committed) schedule = some final) :
    Throughout (step c) Redelivers (start committed) schedule ↔
      Along (step c) (Resolved c) (start committed) schedule :=
  throughout_iff (Resolved c) Delivered Redelivers (redelivers_step c) nofun delivered runs

/-- A message that no attempt brings to the DLQ is polled again before anything behind it. -/
theorem redelivers_iff_resolved_retrying : ∃ final, run (step ⟨64,3,true,true⟩) (start fun _ => 0)
        [.startConsuming,.pollMessages,.poll (some ⟨⟨⟨"orders",0⟩,0,[],[1],.noError⟩,.ok (),fun _ => false⟩),
          .poll (some ⟨⟨⟨"orders",0⟩,1,[],[2],.noError⟩,.error .timeout,fun _ => false⟩),
          .poll (some ⟨⟨⟨"orders",1⟩,0,[],[3],.noError⟩,.error .timeout,fun k => k == 3⟩),
          .poll none,.pollMessages,
          .poll (some ⟨⟨⟨"orders",0⟩,1,[],[2],.noError⟩,.ok (),fun _ => false⟩)] = some final ∧
      final.committed ⟨"orders",0⟩ = 2 ∧ final.dlq = [⟨"orders-dlq",[],[3]⟩] ∧
      Throughout (step ⟨64,3,true,true⟩) Redelivers (start fun _ => 0) [.startConsuming,.pollMessages,
          .poll (some ⟨⟨⟨"orders",0⟩,0,[],[1],.noError⟩,.ok (),fun _ => false⟩),
          .poll (some ⟨⟨⟨"orders",0⟩,1,[],[2],.noError⟩,.error .timeout,fun _ => false⟩),
          .poll (some ⟨⟨⟨"orders",1⟩,0,[],[3],.noError⟩,.error .timeout,fun k => k == 3⟩),
          .poll none,.pollMessages,
          .poll (some ⟨⟨⟨"orders",0⟩,1,[],[2],.noError⟩,.ok (),fun _ => false⟩)] := by
  refine exists_final (by decide +kernel) fun runs => ⟨by decide +kernel,by decide +kernel,?_⟩
  exact (redelivers_iff_resolved _ _ _ _ (by decide +kernel) runs).mpr (by decide +kernel)

/-- Without a DLQ producer a message fails; the next one of its partition is committed. -/
theorem failed_message_passed : ∃ final, run (step ⟨64,3,true,false⟩) (start fun _ => 0)
        [.startConsuming,.pollMessages,
          .poll (some ⟨⟨⟨"orders",0⟩,0,[],[1],.noError⟩,.error .timeout,fun _ => false⟩),
          .poll (some ⟨⟨⟨"orders",0⟩,1,[],[2],.noError⟩,.ok (),fun _ => false⟩)] = some final ∧
      final.dlq = [] ∧ ⟨⟨"orders",0⟩,0,[],[1],.noError⟩ ∈ final.failed ∧
      final.committed ⟨"orders",0⟩ = 2 := by
  decide +kernel

end ApexPipeline.KafkaConsumer
