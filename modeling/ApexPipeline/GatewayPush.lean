import ApexPipeline.GatewayCorrelation

/-! Server pushes, from the response topic to the sessions. The messages are numbered as the gateway receives them,
and a push carries the number of its message. Each core counts the ids of its sessions itself. -/
namespace ApexPipeline.Gateway
open Execution KafkaEnvelope List State Function

variable {Tag : Type}

namespace Core

def Issued (core : Core Tag) (id : Nat) : Prop := 1 ≤ id ∧ id < core.nextId

instance (core : Core Tag) (id : Nat) : Decidable (core.Issued id) :=
  inferInstanceAs (Decidable (_ ∧ _))

structure Counted (core : Core Tag) : Prop where
  first : 1 ≤ core.nextId
  issued : ∀ id, core.sessions id ≠ none → core.Issued id

end Core

structure Advance (core next : Core Tag) : Prop where
  posted : ∀ work ∈ next.posted, work ∈ core.posted
  nextId : core.nextId ≤ next.nextId
  counted : core.Counted → next.Counted

namespace Advance

theorem of_eq {core next : Core Tag} (posted : next.posted = core.posted)
    (nextId : next.nextId = core.nextId) (sessions : next.sessions = core.sessions) :
    Advance core next where
  posted := by simp [posted]
  nextId := Nat.le_of_eq nextId.symm
  counted before := by
    constructor
    · exact nextId ▸ before.first
    · intro id known
      have issued := before.issued id (sessions ▸ known)
      exact ⟨issued.1,nextId ▸ issued.2⟩

theorem trans {core middle next : Core Tag} (first : Advance core middle) (second : Advance middle next) :
    Advance core next where
  posted work member := first.posted work (second.posted work member)
  nextId := Nat.le_trans first.nextId second.nextId
  counted before := second.counted (first.counted before)

variable (core : Core Tag)

theorem eraseIdx (place : Nat) :
    Advance core { core with posted := core.posted.eraseIdx place } where
  posted _ member := mem_of_mem_eraseIdx member
  nextId := Nat.le_refl _
  counted before := ⟨before.first,before.issued⟩

theorem update (id nextId : Nat) (session : Option Session) (later : core.nextId ≤ nextId)
    (known : session ≠ none → core.sessions id ≠ none ∨ id = core.nextId ∧ id < nextId) :
    Advance core { core with nextId, sessions := update core.sessions id session } where
  posted _ member := member
  nextId := later
  counted before := by
    constructor
    · exact Nat.le_trans before.first later
    · intro other there
      by_cases same : other = id
      · cases same
        simp only [update_self] at there
        rcases known there with old | ⟨new,small⟩
        · exact ⟨(before.issued _ old).1,Nat.lt_of_lt_of_le (before.issued _ old).2 later⟩
        · exact ⟨new ▸ before.first,small⟩
      · simp only [update_of_ne same] at there
        exact ⟨(before.issued _ there).1,Nat.lt_of_lt_of_le (before.issued _ there).2 later⟩

theorem write (id : Nat) (frame : List UInt8) : Advance core (core.write id frame).2 := by
  simp only [Core.write]
  split
  · exact .of_eq rfl rfl rfl
  rename_i session found
  split
  · exact .of_eq rfl rfl rfl
  split
  · exact .of_eq rfl rfl rfl
  · apply update core id core.nextId _ (Nat.le_refl _)
    intro _
    exact .inl (by simp [found])

theorem extract (corrId : UInt64) : Advance core (core.extract corrId).2 := by
  rcases extract_spec core corrId with ⟨_,missing⟩ | ⟨_,_,_,found⟩
  · rw [missing]
    exact .of_eq rfl rfl rfl
  · rw [found]
    exact .of_eq rfl rfl rfl

end Advance

structure Unpushed (g next : State Tag) : Prop where
  cores : ∀ k, Advance (g.cores k) (next.cores k)
  pushed : next.pushed = g.pushed

namespace Unpushed

theorem refl (g : State Tag) : Unpushed g g := ⟨fun _ => .of_eq rfl rfl rfl,rfl⟩

theorem trans {g middle next : State Tag} (first : Unpushed g middle) (second : Unpushed middle next) :
    Unpushed g next :=
  ⟨fun k => (first.cores k).trans (second.cores k),second.pushed.trans first.pushed⟩

theorem put (g : State Tag) (k : Nat) (core : Core Tag) (advance : Advance (g.cores k) core) :
    Unpushed g (g.put k core) := by
  constructor
  · intro j
    by_cases same : j = k
    · cases same
      simpa [State.put] using advance
    · simpa [State.put,same] using Advance.of_eq rfl rfl rfl
  · rfl

theorem settle (advance : Advance (g.cores k) core)
    (corrId : UInt64) (session : Nat) (outcome : Outcome Tag) (frame : List UInt8) :
    Unpushed g (g.settle k core corrId session outcome frame) := by
  have written := put g k (core.write session frame).2 (advance.trans (.write core session frame))
  exact ⟨written.cores,written.pushed⟩

theorem handleRequest (cfg : Config) (g : State Tag) (k session : Nat) (msgId : UInt32) (now : Int)
    (routed : Bool) : Unpushed g (handleRequest cfg g k session msgId now routed) := by
  obtain ⟨sent,named⟩ : ∃ sent : State Tag, sent = { g with requests := g.requests ++
      [Request.mk k session msgId (g.cores k).generateCorrId.1 now] } := ⟨_,rfl⟩
  have same : Unpushed g sent := by
    rw [named]
    exact ⟨(refl g).cores,rfl⟩
  have numbered : Advance (sent.cores k) (g.cores k).generateCorrId.2 := by
    rw [named]
    exact .of_eq rfl rfl rfl
  simp only [Gateway.handleRequest,← named]
  split
  · exact same.trans (settle numbered ..)
  rename_i core inserted
  have registered : Advance (sent.cores k) core := by
    apply numbered.trans
    simp only [Core.insert] at inserted
    split at inserted
    · cases inserted
    split at inserted
    all_goals
      cases inserted
      exact .of_eq rfl rfl rfl
  split
  · exact same.trans (put sent k core registered)
  · exact same.trans (settle (registered.trans (.extract core _)) ..)

theorem expire (cfg : Config) (k : Nat) (entries : List (UInt64 × PendingEntry)) (g : State Tag) :
    Unpushed g (entries.foldl (expire cfg k) g) := by
  induction entries generalizing g with
  | nil => exact refl g
  | cons entry rest ih =>
    have erased : Advance (g.cores k) ((g.cores k).erase entry.1) := .of_eq rfl rfl rfl
    exact (settle erased ..).trans (ih (Gateway.expire cfg k g entry))

theorem deliverResponse (g : State Tag) (k : Nat) (core : Core Tag) (advance : Advance (g.cores k) core)
    (corrId : UInt64) (routing : RoutingHeader) (raw : Envelope) (tag : Tag) :
    Unpushed g (deliverResponse g k core corrId routing raw tag) := by
  have taken := advance.trans (.extract core corrId)
  simp only [Gateway.deliverResponse]
  split
  · rename_i rest extracted
    rw [extracted] at taken
    exact put g k rest taken
  rename_i entry rest extracted
  rw [extracted] at taken
  split
  · exact put g k rest taken
  · exact settle taken ..

end Unpushed

variable {cfg : Config} {g next : State Tag} {k : Nat}

theorem unpushed_step (steps : step cfg g action = some next) (reads : action.isReceive = false)
    (other : ∀ k place routing sessionId raw tag, action = .handle k place →
      (g.cores k).posted[place]? ≠ some (.push routing sessionId raw tag)) : Unpushed g next := by
  cases action with
  | createSession k =>
    obtain ⟨_,rfl⟩ := of_guard steps
    apply Unpushed.put
    exact .update _ _ _ _ (Nat.le_succ _) fun _ => .inr ⟨rfl,Nat.lt_succ_self _⟩
  | removeSession k id =>
    obtain ⟨_,rfl⟩ := of_guard steps
    apply Unpushed.put
    exact .update _ _ _ _ (Nat.le_refl _) fun there => absurd rfl there
  | onSession k id action =>
    simp only [step] at steps
    split at steps
    · obtain ⟨session,found,moved⟩ := Option.bind_eq_some_iff.mp steps
      obtain ⟨after,_,rfl⟩ := Option.map_eq_some_iff.mp moved
      apply Unpushed.put
      exact .update _ _ _ _ (Nat.le_refl _) fun _ => .inl (by simp [found])
    · cases steps
  | request k id msgId now routed =>
    obtain ⟨_,rfl⟩ := of_guard steps
    exact .handleRequest cfg g k id msgId now routed
  | sweep k now =>
    obtain ⟨_,rfl⟩ := of_guard steps
    exact .expire cfg k _ g
  | receive raw tag => cases reads
  | handle k place =>
    simp only [step] at steps
    split at steps
    · obtain ⟨work,there,rfl⟩ := Option.map_eq_some_iff.mp steps
      cases work with
      | push routing sessionId raw tag =>
        exact absurd there (other k place routing sessionId raw tag rfl)
      | response corrId routing raw tag =>
        exact .deliverResponse g k _ (.eraseIdx _ place) corrId routing raw tag
    · cases steps

theorem handle_push {routing : RoutingHeader}
    (there : (g.cores k).posted[place]? = some (.push routing sessionId raw tag))
    (steps : step cfg g (.handle k place) = some next) :
    k < cfg.numCores ∧ (∀ j, Advance (g.cores j) (next.cores j)) ∧
      (next.pushed = g.pushed ∧ (g.cores k).accepts sessionId.toNat = false ∨
        ∃ result, next.pushed = g.pushed ++ [⟨k,sessionId.toNat,tag,result⟩] ∧
          (result = .written ↔ (g.cores k).accepts sessionId.toNat = true) ∧
          (g.cores k).sessions sessionId.toNat ≠ none) := by
  simp only [step,there,Option.map_some] at steps
  split at steps
  · rename_i inside
    obtain ⟨core,named⟩ : ∃ core : Core Tag, core =
        { g.cores k with posted := (g.cores k).posted.eraseIdx place } := ⟨_,rfl⟩
    have advance : Advance (g.cores k) core := by
      rw [named]
      exact .eraseIdx _ place
    have sessions : core.sessions = (g.cores k).sessions := by rw [named]
    have accepts : core.accepts sessionId.toNat = (g.cores k).accepts sessionId.toNat := by
      simp only [Core.accepts,sessions]
    have offset : ¬envelopePayloadOffset routing.flags raw.bytes > raw.bytes.length :=
      Nat.not_lt.mpr (envelopePayloadOffset_le routing.flags raw.long)
    rw [← named] at steps
    cases steps
    simp only [handlePosted,deliverPush,if_neg offset]
    split
    · rename_i closed
      have put := Unpushed.put g k core advance
      refine ⟨inside,put.cores,.inl ⟨put.pushed,?_⟩⟩
      rw [← accepts]
      cases found : core.sessions sessionId.toNat with
      | none => simp [Core.accepts,found]
      | some session =>
        simp [Core.isOpen,found] at closed
        simp [Core.accepts,found,closed]
    · rename_i opened
      have put := Unpushed.put g k (core.write sessionId.toNat (buildWireResponse routing
        (raw.bytes.drop (envelopePayloadOffset routing.flags raw.bytes)) routing.msgId)).2
        (advance.trans (.write core _ _))
      refine ⟨inside,put.cores,.inr ⟨_,rfl,?_,?_⟩⟩
      · rw [← accepts]
        exact write_written ..
      · intro missing
        rw [← sessions] at missing
        simp [Core.isOpen,missing] at opened
  · cases steps

inductive Pushes (cfg : Config) (g next : State Tag) : Action Tag → Prop where
  | quiet {action : Action Tag} (unpushed : Unpushed g next)
      (other : ∀ k place routing sessionId raw tag, action = .handle k place →
        (g.cores k).posted[place]? ≠ some (.push routing sessionId raw tag)) : Pushes cfg g next action
  | refused {k place : Nat} {routing : RoutingHeader} {sessionId : UInt64} {raw : Envelope} {tag : Tag}
      (there : (g.cores k).posted[place]? = some (.push routing sessionId raw tag))
      (unpushed : Unpushed g next) (refused : (g.cores k).accepts sessionId.toNat = false) :
      Pushes cfg g next (.handle k place)
  | recorded {k place : Nat} {routing : RoutingHeader} {sessionId : UInt64} {raw : Envelope} {tag : Tag}
      {result : Delivery} (there : (g.cores k).posted[place]? = some (.push routing sessionId raw tag))
      (inside : k < cfg.numCores) (cores : ∀ j, Advance (g.cores j) (next.cores j))
      (one : next.pushed = g.pushed ++ [⟨k,sessionId.toNat,tag,result⟩])
      (written : result = .written ↔ (g.cores k).accepts sessionId.toNat = true)
      (known : (g.cores k).sessions sessionId.toNat ≠ none) : Pushes cfg g next (.handle k place)

theorem step_pushes
    (steps : step cfg g action = some next) (reads : ¬action.isReceive = true) : Pushes cfg g next action := by
  by_cases push : ∃ k place routing sessionId raw tag, action = .handle k place ∧
      (g.cores k).posted[place]? = some (.push routing sessionId raw tag)
  · obtain ⟨k,place,routing,sessionId,raw,tag,rfl,there⟩ := push
    obtain ⟨inside,cores,pushed⟩ := handle_push there steps
    rcases pushed with ⟨same,refused⟩ | ⟨result,one,written,known⟩
    · exact .refused there ⟨cores,same⟩ refused
    · exact .recorded there inside cores one written known
  · have other : ∀ k place routing sessionId raw tag, action = .handle k place →
        (g.cores k).posted[place]? ≠ some (.push routing sessionId raw tag) :=
      fun k place routing sessionId raw tag handles there =>
        push ⟨k,place,routing,sessionId,raw,tag,handles,there⟩
    exact .quiet (unpushed_step steps (Bool.eq_false_iff.mpr reads) other) other

/-- The message is a push for the session `id`, and `k` is a core to which it is posted. -/
def PushTo (cfg : Config) (raw : List UInt8) (k id : Nat) : Prop :=
  ∃ metadata, MetadataPrefix.parse ((raw.drop RoutingHeader.size).take MetadataPrefix.size) = .ok metadata ∧
    metadata.corrId = 0 ∧ metadata.sessionId.toNat = id ∧
    (metadata.coreId.toNat < cfg.numCores → k = metadata.coreId.toNat)

theorem PushTo.same {raw : List UInt8} {j id other : Nat} (first : PushTo cfg raw j id)
    (second : PushTo cfg raw k other) : id = other := by
  obtain ⟨metadata,read,_,rfl,_⟩ := first
  obtain ⟨metadata',read',_,rfl,_⟩ := second
  cases read.symm.trans read'
  rfl

theorem onResponse_push (parsed : onResponse cfg raw given = .ok (targets,work))
    (target : k ∈ targets) {routing : RoutingHeader} {copy : Envelope}
    (push : work = .push routing sessionId copy tag) : tag = given ∧ PushTo cfg raw k sessionId.toNat := by
  simp only [onResponse] at parsed
  split at parsed
  · cases parsed
  split at parsed
  · cases parsed
  split at parsed
  · cases parsed
  rename_i metadata read
  split at parsed
  · rename_i zero
    split at parsed
    · cases parsed
      cases push
      exact ⟨rfl,metadata,read,zero,rfl,fun _ => mem_singleton.mp target⟩
    · rename_i unknown
      cases parsed
      cases push
      exact ⟨rfl,metadata,read,zero,rfl,fun known => absurd known unknown⟩
  · split at parsed <;> cases parsed
    cases push

theorem post_spec (targets : List Nat) (work : Posted Tag) (g : State Tag) :
    (targets.foldl (post · work ·) g).pushed = g.pushed ∧ ∀ k,
      ((targets.foldl (post · work ·) g).cores k).nextId = (g.cores k).nextId ∧
      ((targets.foldl (post · work ·) g).cores k).sessions = (g.cores k).sessions ∧
      ∀ item ∈ ((targets.foldl (post · work ·) g).cores k).posted,
        item ∈ (g.cores k).posted ∨ item = work ∧ k ∈ targets := by
  induction targets generalizing g with
  | nil => exact ⟨rfl,fun k => ⟨rfl,rfl,fun item member => .inl member⟩⟩
  | cons target rest ih =>
    obtain ⟨pushed,cores⟩ := ih (g.post work target)
    refine ⟨pushed,fun k => ?_⟩
    obtain ⟨nextId,sessions,posted⟩ := cores k
    by_cases here : k = target
    · cases here
      simp only [post,put,update_self] at nextId sessions posted
      refine ⟨nextId,sessions,fun item member => ?_⟩
      rcases posted item member with before | ⟨same,later⟩
      · rcases mem_append.mp before with old | new
        · exact .inl old
        · exact .inr ⟨mem_singleton.mp new,mem_cons_self⟩
      · exact .inr ⟨same,mem_cons_of_mem _ later⟩
    · simp only [post,put,update_of_ne here] at nextId sessions posted
      refine ⟨nextId,sessions,fun item member => ?_⟩
      rcases posted item member with before | ⟨same,later⟩
      · exact .inl before
      · exact .inr ⟨same,mem_cons_of_mem _ later⟩

end ApexPipeline.Gateway

namespace ApexPipeline.GatewayPush
open Execution KafkaEnvelope Gateway

structure Intake where
  gateway : State Nat
  received : List (List UInt8) := []

inductive Action where
  | receive (raw : List UInt8)
  | other (action : Gateway.Action Nat)

def step (cfg : Config) (s : Intake) : Action → Option Intake
  | .receive raw => some {
      gateway := receive cfg s.gateway raw s.received.length
      received := s.received ++ [raw] }
  | .other action =>
    if action.isReceive then none
    else (Gateway.step cfg s.gateway action).map fun gateway => { s with gateway }

def start : Intake := { gateway := Gateway.start }

def Single (s : Intake) : Prop :=
  ∀ p ∈ s.gateway.pushed, ∀ q ∈ s.gateway.pushed, p.tag = q.tag → p.result = .written →
    q.result = .written → p.core = q.core ∧ p.session = q.session

/-- The push has been written on another core, and there is an open session with its id and with
room on this one. -/
def repeats (pushed : List (Pushed Nat)) (k : Nat) (core : Core Nat) : Posted Nat → Bool
  | .push _ sessionId _ number => core.accepts sessionId.toNat &&
      pushed.any fun p => p.tag = number ∧ p.result = .written ∧ p.core ≠ k
  | .response .. => false

def Once (s : Intake) : Action → Prop
  | .other (.handle k place) =>
    ((s.gateway.cores k).posted[place]?.any (repeats s.gateway.pushed k (s.gateway.cores k))) = false
  | _ => True

instance (s : Intake) (action : Action) : Decidable (Once s action) :=
  match action with
  | .other (.handle ..) => inferInstanceAs (Decidable (_ = false))
  | .other (.createSession _) | .other (.removeSession ..) | .other (.onSession ..)
  | .other (.request ..) | .other (.sweep ..) | .other (.receive ..)
  | .receive _ => inferInstanceAs (Decidable True)

structure Addressed (cfg : Config) (s : Intake) : Prop where
  counted : ∀ k, (s.gateway.cores k).Counted
  posted : ∀ k routing sessionId raw number,.push routing sessionId raw number ∈ (s.gateway.cores k).posted →
    ∃ message, s.received[number]? = some message ∧ PushTo cfg message k sessionId.toNat
  pushed : ∀ p ∈ s.gateway.pushed, p.core < cfg.numCores ∧ (s.gateway.cores p.core).Issued p.session ∧
    ∃ message, s.received[p.tag]? = some message ∧ PushTo cfg message p.core p.session

theorem addressed_start (cfg : Config) : Addressed cfg start where
  counted _ := ⟨Nat.le_refl _,fun _ there => absurd rfl there⟩
  posted _ _ _ _ _ member := by cases member
  pushed _ member := by cases member

variable {cfg : Config} {s : Intake}

theorem addressed_receive (addressed : Addressed cfg s) (raw : List UInt8) :
    Addressed cfg ⟨receive cfg s.gateway raw s.received.length,s.received ++ [raw]⟩ := by
  have kept {number : Nat} {message : List UInt8} (old : s.received[number]? = some message) :
      (s.received ++ [raw])[number]? = some message := by
    rw [List.getElem?_append_left (List.getElem?_eq_some_iff.mp old).1]
    exact old
  simp only [receive]
  split
  · constructor
    · exact addressed.counted
    · intro k routing sessionId copy number member
      obtain ⟨message,old,push⟩ := addressed.posted k routing sessionId copy number member
      exact ⟨message,kept old,push⟩
    · intro p member
      obtain ⟨inside,issued,message,old,push⟩ := addressed.pushed p member
      exact ⟨inside,issued,message,kept old,push⟩
  · rename_i targets work parsed
    obtain ⟨pushed,cores⟩ := post_spec targets work s.gateway
    constructor
    · intro k
      have advance := addressed.counted k
      constructor
      · exact (cores k).1 ▸ advance.first
      · intro id there
        have issued := advance.issued id ((cores k).2.1 ▸ there)
        exact ⟨issued.1,(cores k).1 ▸ issued.2⟩
    · intro k routing sessionId copy number member
      rcases (cores k).2.2 _ member with before | ⟨new,target⟩
      · obtain ⟨message,old,push⟩ := addressed.posted k routing sessionId copy number before
        exact ⟨message,kept old,push⟩
      · obtain ⟨same,push⟩ := onResponse_push parsed target new.symm
        exact ⟨raw,by rw [same]; exact List.getElem?_concat_length,push⟩
    · intro p member
      obtain ⟨inside,issued,message,old,push⟩ := addressed.pushed p (pushed ▸ member)
      exact ⟨inside,⟨issued.1,(cores p.core).1 ▸ issued.2⟩,message,kept old,push⟩

theorem Addressed.advance (addressed : Addressed cfg s) (cores : ∀ k, Advance (s.gateway.cores k) (g.cores k))
    (pushed : ∀ p ∈ g.pushed, p ∈ s.gateway.pushed ∨ p.core < cfg.numCores ∧
      (s.gateway.cores p.core).Issued p.session ∧
      ∃ message, s.received[p.tag]? = some message ∧ PushTo cfg message p.core p.session) :
    Addressed cfg { s with gateway := g } where
  counted k := (cores k).counted (addressed.counted k)
  posted k routing sessionId raw number member :=
    addressed.posted k routing sessionId raw number ((cores k).posted _ member)
  pushed p member := by
    have before : p.core < cfg.numCores ∧ (s.gateway.cores p.core).Issued p.session ∧
        ∃ message, s.received[p.tag]? = some message ∧ PushTo cfg message p.core p.session := by
      rcases pushed p member with old | new
      · exact addressed.pushed p old
      · exact new
    obtain ⟨inside,issued,known⟩ := before
    exact ⟨inside,⟨issued.1,Nat.lt_of_lt_of_le issued.2 (cores p.core).nextId⟩,known⟩

theorem addressed_step {next : Intake} (addressed : Addressed cfg s)
    (steps : step cfg s action = some next) : Addressed cfg next := by
  cases action with
  | receive raw =>
    cases steps
    exact addressed_receive addressed raw
  | other action =>
    obtain ⟨reads,g,moved,rfl⟩ := of_unless_map steps
    have unpushed (same : Unpushed s.gateway g) : Addressed cfg { s with gateway := g } :=
      addressed.advance same.cores (fun p member => .inl (same.pushed ▸ member))
    cases step_pushes moved reads with
    | quiet same | refused _ same => exact unpushed same
    | @recorded k place routing sessionId raw number result there inside cores one _ known =>
      apply addressed.advance cores
      intro p member
      rw [one] at member
      rcases mem_concat member with old | rfl
      · exact .inl old
      · exact .inr ⟨inside,(addressed.counted k).issued _ known,
          addressed.posted k routing sessionId raw number (List.mem_of_getElem? there)⟩

theorem once_quiet (other : ∀ k place routing sessionId raw tag, action = .handle k place →
      (s.gateway.cores k).posted[place]? ≠ some (.push routing sessionId raw tag)) :
    Once s (.other action) := by
  cases action with
  | handle k place =>
    cases posted : (s.gateway.cores k).posted[place]? with
    | none => simp [Once,posted]
    | some work =>
      cases work with
      | response => simp [Once,posted,repeats]
      | push routing sessionId raw number => exact absurd posted (other k place routing sessionId raw number rfl)
  | _ => trivial

theorem once_push {routing : RoutingHeader}
    (there : (s.gateway.cores k).posted[place]? = some (.push routing sessionId raw number)) :
    Once s (.other (.handle k place)) ↔ ((s.gateway.cores k).accepts sessionId.toNat = true →
      ∀ p ∈ s.gateway.pushed, p.tag = number → p.result = .written → p.core = k) := by
  simp [Once,there,repeats]

theorem single_step {next : Intake} (single : Single s)
    (addressed : Addressed cfg s) (steps : step cfg s action = some next) :
    Single next ↔ Once s action := by
  have quiet (pushed : next.gateway.pushed = s.gateway.pushed) : Single next := by
    intro p first q second
    rw [pushed] at first second
    exact single p first q second
  cases action with
  | receive raw =>
    cases steps
    refine iff_of_true (quiet ?_) trivial
    simp only [receive]
    split
    · rfl
    · exact (post_spec _ _ _).1
  | other action =>
    obtain ⟨reads,g,moved,rfl⟩ := of_unless_map steps
    cases step_pushes moved reads with
    | quiet unpushed other => exact iff_of_true (quiet unpushed.pushed) (once_quiet other)
    | refused there unpushed refused =>
      refine iff_of_true (quiet unpushed.pushed) ((once_push there).mpr ?_)
      intro accepts
      rw [refused] at accepts
      cases accepts
    | @recorded k place routing sessionId raw number result there _ _ one written =>
      rw [once_push there]
      constructor
      · intro after accepts p member numbered done
        have new : ⟨k,sessionId.toNat,number,result⟩ ∈ g.pushed := by simp [one]
        exact (after p (by simp [one,member]) _ new numbered done (written.mpr accepts)).1
      · intro only
        obtain ⟨message,found,target⟩ := addressed.posted k routing sessionId raw number
          (List.mem_of_getElem? there)
        have meets (p : Pushed Nat) (member : p ∈ s.gateway.pushed) (numbered : p.tag = number)
            (done : p.result = .written) (accepts : (s.gateway.cores k).accepts sessionId.toNat = true) :
            p.core = k ∧ p.session = sessionId.toNat := by
          obtain ⟨_,_,message',found',target'⟩ := addressed.pushed p member
          rw [numbered] at found'
          cases found.symm.trans found'
          exact ⟨only accepts p member numbered done,target'.same target⟩
        intro p first q second numbered done done'
        rw [one] at first second
        rcases mem_concat first with old | rfl
        · rcases List.mem_append.mp second with old' | new'
          · exact single p old q old' numbered done done'
          · cases List.mem_singleton.mp new'
            exact meets p old numbered done (written.mp done')
        · rcases List.mem_append.mp second with old' | new'
          · obtain ⟨core,session⟩ := meets q old' numbered.symm done' (written.mp done)
            exact ⟨core.symm,session.symm⟩
          · cases List.mem_singleton.mp new'
            exact ⟨rfl,rfl⟩

/-- The push names a core, or no two cores have given out its id. -/
def Unambiguous (cfg : Config) (g : State Nat) (raw : List UInt8) : Prop :=
  ∀ metadata, MetadataPrefix.parse ((raw.drop RoutingHeader.size).take MetadataPrefix.size) = .ok metadata →
    metadata.corrId = 0 → metadata.coreId.toNat < cfg.numCores ∨
      ∀ j k, j < cfg.numCores → k < cfg.numCores → (g.cores j).Issued metadata.sessionId.toNat →
        (g.cores k).Issued metadata.sessionId.toNat → j = k

theorem single_of_unambiguous (addressed : Addressed cfg s)
    (unambiguous : ∀ raw ∈ s.received, Unambiguous cfg s.gateway raw) : Single s := by
  intro p first q second numbered _ _
  obtain ⟨inside,issued,message,found,target⟩ := addressed.pushed p first
  obtain ⟨inside',issued',message',found',target'⟩ := addressed.pushed q second
  rw [← numbered] at found'
  cases found.symm.trans found'
  have session := target.same target'
  refine ⟨?_,session⟩
  obtain ⟨metadata,read,zero,id,named⟩ := target
  obtain ⟨metadata',read',_,_,named'⟩ := target'
  cases read.symm.trans read'
  rcases unambiguous message (List.mem_of_getElem? found) metadata read zero with known | unique
  · exact (named known).trans (named' known).symm
  · rw [← session,← id] at issued'
    rw [← id] at issued
    exact unique p.core q.core inside inside' issued issued'

/-- A push is written to sessions with its id only, on the core that it names if there is one. It is written to one
of them at most exactly as long as no core that has an open session with this id and with room handles it after
another core has written it. -/
theorem push_reaches_one_iff (cfg : Config) (schedule : List Action) (final : Intake)
    (runs : run (step cfg) start schedule = some final) :
    (Throughout (step cfg) Single start schedule ↔ Along (step cfg) Once start schedule) ∧
      (∀ p ∈ final.gateway.pushed, p.core < cfg.numCores ∧ (final.gateway.cores p.core).Issued p.session ∧
        ∃ message, final.received[p.tag]? = some message ∧ PushTo cfg message p.core p.session) ∧
      ((∀ raw ∈ final.received, Unambiguous cfg final.gateway raw) → Single final) := by
  have addressed : Addressed cfg final := run_invariant (Addressed cfg)
    (fun _ _ _ before steps => addressed_step before steps) (addressed_start cfg) runs
  refine ⟨?_,addressed.pushed,single_of_unambiguous addressed⟩
  have fairly : Along (step cfg) (fun s _ => Addressed cfg s) start schedule :=
    along_invariant (step cfg) (Addressed cfg)
      (fun _ _ _ before steps => addressed_step before steps) (addressed_start cfg) schedule
  apply throughout_iff Once (fun s _ => Addressed cfg s) Single _ _ fairly runs
  · intro s action next single here steps
    exact single_step single here steps
  · intro p member
    cases member

def pushEnvelope (coreId : UInt16) (sessionId : UInt64) : List UInt8 :=
  buildFullEnvelope { flags := 1, msgId := 2006 } { coreId, sessionId } [] [42]

def twoCores : Config := ⟨2,8,5,4,fun _ _ _ => []⟩

theorem push_reaches_one_iff_named : ∃ final, run (step twoCores) start
        [.other (.createSession 0),.other (.createSession 1),.receive (pushEnvelope 1 1),
          .other (.handle 1 0)] = some final ∧
      final.gateway.pushed = [⟨1,1,0,.written⟩] ∧
      Throughout (step twoCores) Single start
        [.other (.createSession 0),.other (.createSession 1),.receive (pushEnvelope 1 1),
          .other (.handle 1 0)] := by
  refine exists_final (by decide +kernel) fun runs => ⟨by decide +kernel,?_⟩
  exact (push_reaches_one_iff twoCores _ _ runs).1.mpr (by decide +kernel)

/-- Without a known core the push is looked up on both, and both have a first session. -/
theorem push_reaches_both : ∃ final, run (step twoCores) start
        [.other (.createSession 0),.other (.createSession 1),.receive (pushEnvelope 65535 1),
          .other (.handle 0 0),.other (.handle 1 0)] = some final ∧
      final.gateway.pushed = [⟨0,1,0,.written⟩,⟨1,1,0,.written⟩] ∧ ¬Single final := by
  obtain ⟨final,runs,both⟩ : ∃ s, run (step twoCores) start
      [.other (.createSession 0),.other (.createSession 1),.receive (pushEnvelope 65535 1),
      .other (.handle 0 0),.other (.handle 1 0)] = some s ∧
      s.gateway.pushed = [⟨0,1,0,.written⟩,⟨1,1,0,.written⟩] := by
    decide +kernel
  refine ⟨final,runs,both,?_⟩
  intro single
  have same := (single ⟨0,1,0,.written⟩ (by simp [both]) ⟨1,1,0,.written⟩ (by simp [both]) rfl rfl rfl).1
  cases same

end ApexPipeline.GatewayPush
