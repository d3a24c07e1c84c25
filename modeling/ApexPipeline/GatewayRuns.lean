import ApexPipeline.GatewayCorrelation

/-! Several runs of the gateway on one response topic: restarts, or instances side by side. A service answers with
the core and the correlation id of the request; any run may read any of the answers, any number of times and at any
time. -/
namespace ApexPipeline.GatewayRuns
open Execution KafkaEnvelope Gateway Function Option List

structure Origin where
  run : Nat
  request : Request
  deriving DecidableEq, Repr

structure Runs where
  gateways : Nat → State Origin
  topic : List (List UInt8 × Origin) := []

def answers (raw : List UInt8) (request : Request) : Bool :=
  match MetadataPrefix.parse (raw.drop RoutingHeader.size) with
  | .ok metadata => metadata.coreId = .ofNat request.core ∧ metadata.corrId = request.corrId
  | .error _ => false

inductive Action where
  | inRun (run : Nat) (action : Gateway.Action Origin)
  | respond (run place : Nat) (raw : List UInt8)
  | consume (run place : Nat)

/-- A run reads messages from the topic only. -/
def step (cfg : Nat → Config) (s : Runs) : Action → Option Runs
  | .inRun i action =>
    if action.isReceive then none
    else (Gateway.step (cfg i) (s.gateways i) action).map fun g =>
      { s with gateways := Function.update s.gateways i g }
  | .respond i place raw =>
    (s.gateways i).requests[place]?.bind fun request =>
      if answers raw request then some { s with topic := s.topic ++ [(raw,⟨i,request⟩)] } else none
  | .consume i place =>
    s.topic[place]?.map fun message =>
      let g := receive (cfg i) (s.gateways i) message.1 message.2
      { s with gateways := Function.update s.gateways i g }

def start : Runs := { gateways := fun _ => Gateway.start }

/-- Every response that was written to a session was produced for a request of the same run. -/
def Faithful (s : Runs) : Prop :=
  ∀ i, ∀ m ∈ (s.gateways i).settled, ∀ origin, m.outcome = .response origin → m.result = .written → origin.run = i

/-- The response of another run finds a request of this one under its id, and can be written to
the session of that request. -/
def collides (i : Nat) (core : Core Origin) : Posted Origin → Bool
  | .push .. => false
  | .response corrId _ _ origin =>
    origin.run != i && (core.extract corrId).1.any fun entry => core.accepts entry.sessionId

def Apart (s : Runs) : Action → Prop
  | .inRun i (.handle k place) =>
    (((s.gateways i).cores k).posted[place]?.any (collides i ((s.gateways i).cores k))) = false
  | _ => True

instance (s : Runs) (action : Action) : Decidable (Apart s action) :=
  match action with
  | .inRun _ (.handle ..) => inferInstanceAs (Decidable (_ = false))
  | .inRun _ (.createSession _) | .inRun _ (.removeSession ..) | .inRun _ (.onSession ..)
  | .inRun _ (.request ..) | .inRun _ (.sweep ..) | .inRun _ (.receive ..)
  | .respond .. | .consume .. => inferInstanceAs (Decidable True)

def Silent (g next : State Origin) : Prop :=
  ∃ more, next.settled = g.settled ++ more ∧ ∀ m ∈ more, ∀ origin, m.outcome ≠ .response origin

variable {g next : State Origin} {s : Runs}

theorem Silent.of_eq (same : next.settled = g.settled) : Silent g next :=
  ⟨[],by rw [same,append_nil],by simp⟩

theorem silent_expire (cfg : Config) (k : Nat) (entries : List (UInt64 × PendingEntry))
    (g : State Origin) : Silent g (entries.foldl (expire cfg k) g) := by
  induction entries generalizing g with
  | nil => exact .of_eq rfl
  | cons entry rest ih =>
    obtain ⟨more,settled,none'⟩ := ih (expire cfg k g entry)
    have first : (expire cfg k g entry).settled = g.settled ++ [_] := rfl
    refine ⟨_ :: more,by rw [foldl_cons,settled,first,append_assoc]; rfl,?_⟩
    intro m member
    rcases mem_cons.mp member with rfl | later
    · intro origin same
      cases same
    · exact none' m later

theorem settled_post (targets : List Nat) (work : Posted Origin) (g : State Origin) :
    (targets.foldl (State.post · work ·) g).settled = g.settled := by
  induction targets generalizing g with
  | nil => rfl
  | cons k rest ih => exact ih (g.post work k)

theorem handle_response
    {routing : RoutingHeader}
    (posted : (g.cores k).posted[place]? = some (.response corrId routing raw origin))
    (steps : Gateway.step cfg g (.handle k place) = some next) :
    ((g.cores k).extract corrId).1 = none ∧ Silent g next ∨
      ∃ entry, ((g.cores k).extract corrId).1 = some entry ∧ ∃ m, next.settled = g.settled ++ [m] ∧
        m.outcome = .response origin ∧
        (m.result = .written ↔ (g.cores k).accepts entry.sessionId = true) := by
  simp only [Gateway.step,posted,map_some] at steps
  split at steps
  · obtain ⟨core,named⟩ : ∃ core : Core Origin, core =
        { g.cores k with posted := (g.cores k).posted.eraseIdx place } := ⟨_,rfl⟩
    have offset : ¬envelopePayloadOffset routing.flags raw.bytes > raw.bytes.length :=
      Nat.not_lt.mpr (envelopePayloadOffset_le routing.flags raw.long)
    have same : (core.extract corrId).1 = ((g.cores k).extract corrId).1 := by
      rw [named]
      simp only [Core.extract]
      split <;> rfl
    rw [← named] at steps
    cases steps
    rw [← same]
    rcases extract_spec core corrId with ⟨_,missing⟩ | ⟨entry,_,_,found⟩
    · rw [missing]
      refine .inl ⟨rfl,.of_eq ?_⟩
      simp only [handlePosted,deliverResponse,missing]
      rfl
    · rw [found]
      refine .inr ⟨entry.2,rfl,?_⟩
      simp only [handlePosted,deliverResponse,found,if_neg offset]
      refine ⟨_,settle_settled ..,rfl,(write_written ..).trans ?_⟩
      rw [named]
      rfl
  · cases steps

theorem silent_step (steps : Gateway.step cfg g action = some next)
    (other : ∀ k place corrId routing raw origin, action = .handle k place →
      (g.cores k).posted[place]? ≠ some (.response corrId routing raw origin)) : Silent g next := by
  cases action with
  | createSession k | removeSession k id =>
    obtain ⟨_,rfl⟩ := of_guard steps
    exact .of_eq rfl
  | onSession k id action =>
    simp only [Gateway.step] at steps
    split at steps
    · obtain ⟨session,_,moved⟩ := bind_eq_some_iff.mp steps
      obtain ⟨after,_,rfl⟩ := map_eq_some_iff.mp moved
      exact .of_eq rfl
    · cases steps
  | request k id msgId now routed =>
    obtain ⟨_,rfl⟩ := of_guard steps
    simp only [handleRequest]
    split
    · exact ⟨[_],rfl,by simp⟩
    split
    · exact .of_eq rfl
    · exact ⟨[_],rfl,by simp⟩
  | sweep k now =>
    obtain ⟨_,rfl⟩ := of_guard steps
    exact silent_expire cfg k _ g
  | receive raw origin =>
    cases steps
    unfold receive
    split
    · exact .of_eq rfl
    · exact .of_eq (settled_post _ _ g)
  | handle k place =>
    simp only [Gateway.step] at steps
    split at steps
    · obtain ⟨work,there,rfl⟩ := map_eq_some_iff.mp steps
      cases work with
      | push routing sessionId raw origin =>
        refine .of_eq ?_
        simp only [handlePosted,deliverPush]
        split
        · rfl
        · split <;> rfl
      | response corrId routing raw origin =>
        exact absurd there (other k place corrId routing raw origin rfl)
    · cases steps

section
variable {next : Runs} (faithful : Faithful s) (put : next.gateways = update s.gateways i g)
include faithful put

theorem faithful_put :
    Faithful next ↔ ∀ m ∈ g.settled, ∀ origin, m.outcome = .response origin → m.result = .written →
      origin.run = i := by
  constructor
  · intro after m member
    have mine := after i m
    rw [put,update_self] at mine
    exact mine member
  · intro mine j m member
    rw [put] at member
    by_cases here : j = i
    · cases here
      rw [update_self] at member
      exact mine m member
    · rw [update_of_ne here] at member
      exact faithful j m member

theorem faithful_silent (silent : Silent (s.gateways i) g) :
    Faithful next := by
  apply (faithful_put faithful put).mpr
  obtain ⟨more,settled,none'⟩ := silent
  intro m member origin outcome
  rw [settled] at member
  rcases mem_append.mp member with before | new
  · exact faithful i m before origin outcome
  · exact absurd outcome (none' m new origin)

end

theorem faithful_step {next : Runs} (faithful : Faithful s)
    (steps : step cfg s action = some next) : Faithful next ↔ Apart s action := by
  cases action with
  | inRun i action =>
    simp only [step] at steps
    split at steps
    · cases steps
    obtain ⟨g,moved,rfl⟩ := map_eq_some_iff.mp steps
    by_cases response : ∃ k place corrId routing raw origin, action = .handle k place ∧
        ((s.gateways i).cores k).posted[place]? = some (.response corrId routing raw origin)
    · obtain ⟨k,place,corrId,routing,raw,origin,rfl,posted⟩ := response
      rcases handle_response posted moved with ⟨missing,silent⟩ | ⟨entry,found,m,settled,outcome,result⟩
      · refine iff_of_true (faithful_silent faithful rfl silent) ?_
        simp [Apart,posted,collides,missing]
      have apart : Apart s (.inRun i (.handle k place)) ↔
          (origin.run ≠ i → ((s.gateways i).cores k).accepts entry.sessionId = false) := by
        simp [Apart,posted,collides,found]
      rw [faithful_put faithful rfl,settled,apart]
      constructor
      · intro all foreign
        apply Bool.eq_false_iff.mpr
        intro accepts
        exact foreign (all m (by simp) origin outcome (result.mpr accepts))
      · intro kept other member origin' outcome' written
        rcases mem_concat member with before | rfl
        · exact faithful i other before origin' outcome' written
        cases outcome.symm.trans outcome'
        by_contra foreign
        have refused := kept foreign
        rw [result.mp written] at refused
        cases refused
    · have silent := silent_step moved (fun k place corrId routing raw origin handles posted =>
        response ⟨k,place,corrId,routing,raw,origin,handles,posted⟩)
      refine iff_of_true (faithful_silent faithful rfl silent) ?_
      cases action with
      | handle k place =>
        cases posted : ((s.gateways i).cores k).posted[place]? with
        | none => simp [Apart,posted]
        | some work =>
          cases work with
          | push => simp [Apart,posted,collides]
          | response corrId routing raw origin =>
            exact absurd ⟨k,place,corrId,routing,raw,origin,rfl,posted⟩ response
      | _ => trivial
  | respond i place raw =>
    obtain ⟨request,_,answered⟩ := bind_eq_some_iff.mp steps
    obtain ⟨-,rfl⟩ := of_guard answered
    exact iff_of_true faithful trivial
  | consume i place =>
    obtain ⟨message,_,rfl⟩ := map_eq_some_iff.mp steps
    refine iff_of_true (faithful_silent faithful rfl ?_) trivial
    have received : Gateway.step (cfg i) (s.gateways i) (.receive message.1 message.2) =
        some (receive (cfg i) (s.gateways i) message.1 message.2) := rfl
    exact silent_step received (by simp)

/-- Responses stay within their runs exactly as long as no run handles the response of another one
while a request of its own waits under the same core and number. -/
theorem runs_apart_iff (cfg : Nat → Config) (schedule : List Action) (final : Runs)
    (runs : run (step cfg) start schedule = some final) :
    Throughout (step cfg) Faithful start schedule ↔ Along (step cfg) Apart start schedule := by
  have fairly : Along (step cfg) (fun _ _ => True) start schedule :=
    along_invariant (step cfg) (fun _ => True) (fun _ _ _ _ _ => trivial) trivial schedule
  apply throughout_iff Apart (fun _ _ => True) Faithful _ _ fairly runs
  · intro s action next faithful _ steps
    exact faithful_step faithful steps
  · intro i m member
    cases member

def single : Config := ⟨1,8,5,4,fun _ _ _ => []⟩

/-- A late response of the first run: the second has numbered its request as well, but that one is
over when the response comes. -/
theorem runs_apart_iff_late : ∃ final, run (step fun _ => single) start
        [.inRun 0 (.createSession 0),.inRun 0 (.request 0 1 7 0 true),.respond 0 0 (answerTo 0 1),
          .inRun 1 (.createSession 0),.inRun 1 (.request 0 1 9 0 true),.inRun 1 (.sweep 0 5),
          .consume 1 0,.inRun 1 (.handle 0 0)] = some final ∧
      Throughout (step fun _ => single) Faithful start
        [.inRun 0 (.createSession 0),.inRun 0 (.request 0 1 7 0 true),.respond 0 0 (answerTo 0 1),
          .inRun 1 (.createSession 0),.inRun 1 (.request 0 1 9 0 true),.inRun 1 (.sweep 0 5),
          .consume 1 0,.inRun 1 (.handle 0 0)] := by
  refine exists_final (by decide +kernel) fun runs => ?_
  exact (runs_apart_iff _ _ _ runs).mpr (by decide +kernel)

/-- The gateway restarts with an unread response; the first request of the new run has the same
id, and its session gets the answer to the request of the old run. -/
theorem response_crosses_runs : ∃ final, run (step fun _ => single) start
        [.inRun 0 (.createSession 0),.inRun 0 (.request 0 1 7 0 true),.respond 0 0 (answerTo 0 1),
          .inRun 1 (.createSession 0),.inRun 1 (.request 0 1 9 0 true),.consume 1 0,
          .inRun 1 (.handle 0 0)] = some final ∧
      (final.gateways 1).settled = [⟨1,0,1,.response ⟨0,⟨0,1,7,1,0⟩⟩,.written⟩] ∧ ¬Faithful final := by
  obtain ⟨final,runs,settled⟩ : ∃ s, run (step fun _ => single) start
      [.inRun 0 (.createSession 0),.inRun 0 (.request 0 1 7 0 true),.respond 0 0 (answerTo 0 1),
      .inRun 1 (.createSession 0),.inRun 1 (.request 0 1 9 0 true),.consume 1 0,
      .inRun 1 (.handle 0 0)] = some s ∧
      (s.gateways 1).settled = [⟨1,0,1,.response ⟨0,⟨0,1,7,1,0⟩⟩,.written⟩] := by
    decide +kernel
  refine ⟨final,runs,settled,?_⟩
  intro faithful
  have same := faithful 1 _ (settled ▸ mem_singleton_self _) _ rfl rfl
  cases same

end ApexPipeline.GatewayRuns
