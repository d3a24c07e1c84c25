import ApexPipeline.DecimalText
import ApexPipeline.Execution

/-! `pubsub_listener.cpp` on one healthy connection: the listener's thread, the calls from other threads, hiredis
with its reader, and the Redis server. The server answers the commands in order and pushes a message for every
publication on a channel that it has for this connection; both go through one stream. -/
namespace ApexPipeline.PubSubListener
open Execution List

/-- An element of a reply; `str` is null for all but strings. -/
inductive Element where
  | str (bytes : Bytes)
  | integer (value : Nat)
  | nil
  deriving DecidableEq, Repr

inductive Reply where
  | array (elements : List Element)
  | error (text : Bytes)
  deriving DecidableEq, Repr

inductive Command where
  | subscribe (channel : Bytes)
  | unsubscribe (channel : Bytes)
  deriving DecidableEq, Repr

/-- Where the thread is. It holds the mutex of the channels from `initial` to `running` and while it
reads acknowledgements. -/
inductive Phase where
  | connecting
  | initial (rest : List Bytes)
  | awaiting (channel : Bytes) (rest : List Bytes)
  | running
  | acknowledgements (left : Nat)
  deriving DecidableEq, Repr

def Phase.locked : Phase → Bool
  | .connecting | .running => false
  | _ => true

/-- `buffer` are the replies in the reader of hiredis; `read`, everything that has come out of the
socket, is no part of the program. -/
structure Listener where
  subscribedChannels : List Bytes := []
  hasPendingSubs : Bool := false
  activeSubs : List Bytes := []
  phase : Phase := .connecting
  commands : List Command := []
  serverSubs : List Bytes := []
  socket : List Reply := []
  buffer : List Reply := []
  delivered : List (Bytes × Bytes) := []
  read : List Reply := []
  deriving DecidableEq, Repr

/-- The parse loop on one reply: what `on_message_` is called with. -/
def onReply : Reply → Option (Bytes × Bytes)
  | .array [.str type,channel,data] =>
    if type = ascii "message" then
      match channel, data with
      | .str channel, .str data => some (channel,data)
      | _, _ => none
    else none
  | _ => none

def messages (replies : List Reply) : List (Bytes × Bytes) := replies.filterMap onReply

def insertSet (set : List Bytes) (channel : Bytes) : List Bytes := if channel ∈ set then set else set ++ [channel]

def eraseSet (set : List Bytes) (channel : Bytes) : List Bytes := set.filter fun other => other ≠ channel

/-- `redisBufferRead`, which takes any number of complete replies. -/
def Listener.bufferRead (s : Listener) (count : Nat) : Listener :=
  { s with socket := s.socket.drop count, buffer := s.buffer ++ s.socket.take count,
           read := s.read ++ s.socket.take count }

def pushReply (channel data : Bytes) : Reply := .array [.str (ascii "message"),.str channel,.str data]

/-- The server handles a command and answers it. -/
def Listener.execute (s : Listener) : Command → Listener
  | .subscribe channel =>
    let subs := insertSet s.serverSubs channel
    { s with serverSubs := subs
             socket := s.socket ++ [.array [.str (ascii "subscribe"),.str channel,.integer subs.length]] }
  | .unsubscribe channel =>
    let subs := eraseSet s.serverSubs channel
    { s with serverSubs := subs
             socket := s.socket ++ [.array [.str (ascii "unsubscribe"),.str channel,.integer subs.length]] }

/-- The loops over the sets of channels run in any order, which the action gives. -/
inductive Action where
  | subscribe (channel : Bytes)
  | unsubscribe (channel : Bytes)
  | connect (order : List Bytes)
  | sendInitial
  | applyPendingSubscriptions (newlySubscribed toRemove : List Bytes)
  | bufferRead (count : Nat)
  | getReply
  | receive (count : Nat)
  | serve
  | publish (channel data : Bytes)
  deriving DecidableEq, Repr

/-- `initialChannels` are those of the configuration. -/
def step (initialChannels : List Bytes) (s : Listener) : Action → Option Listener
  | .subscribe channel =>
    if s.phase.locked then none
    else some { s with subscribedChannels := insertSet s.subscribedChannels channel, hasPendingSubs := true }
  | .unsubscribe channel =>
    if s.phase.locked then none
    else some { s with subscribedChannels := eraseSet s.subscribedChannels channel, hasPendingSubs := true }
  | .connect order =>
    let subscribed := initialChannels.foldl insertSet s.subscribedChannels
    if s.phase = .connecting ∧ order.isPerm subscribed then
      some { s with subscribedChannels := subscribed, phase := .initial order }
    else none
  | .sendInitial =>
    match s.phase with
    | .initial (channel :: rest) =>
      some { s with commands := s.commands ++ [.subscribe channel], phase := .awaiting channel rest }
    | .initial [] => some { s with hasPendingSubs := false, phase := .running }
    | _ => none
  | .applyPendingSubscriptions newlySubscribed toRemove =>
    if s.phase = .running ∧ s.hasPendingSubs ∧
        newlySubscribed.isPerm (s.subscribedChannels.filter fun channel => channel ∉ s.activeSubs) ∧
        toRemove.isPerm (s.activeSubs.filter fun channel => channel ∉ s.subscribedChannels) then
      let count := newlySubscribed.length + toRemove.length
      some { s with
        commands := s.commands ++ newlySubscribed.map .subscribe ++ toRemove.map .unsubscribe
        activeSubs := (s.activeSubs ++ newlySubscribed).filter fun channel => channel ∉ toRemove
        hasPendingSubs := false
        phase := if count = 0 then .running else .acknowledgements count }
    else none
  | .bufferRead count =>
    -- `redisGetReply` reads the socket when its reader has no reply
    match s.phase, s.buffer with
    | .awaiting .., [] => some (s.bufferRead count)
    | .acknowledgements _, [] => some (s.bufferRead count)
    | _, _ => none
  | .getReply =>
    match s.phase, s.buffer with
    | .awaiting channel rest, _ :: buffer =>
      some { s with buffer := buffer, activeSubs := insertSet s.activeSubs channel, phase := .initial rest }
    | .acknowledgements (left + 1), _ :: buffer =>
      some { s with buffer := buffer, phase := if left = 0 then .running else .acknowledgements left }
    | _, _ => none
  | .receive count =>
    if s.phase = .running ∧ s.socket ≠ [] then
      let s := s.bufferRead count
      some { s with buffer := [], delivered := s.delivered ++ messages s.buffer }
    else none
  | .serve =>
    match s.commands with
    | [] => none
    | command :: rest => some ({ s with commands := rest }.execute command)
  | .publish channel data =>
    if channel ∈ s.serverSubs then some { s with socket := s.socket ++ [pushReply channel data] } else some s

/-- Every message that was read has been handed on, once and in order, or the acknowledgements that are read before it
are still awaited. In the loop the reader is looked at only when the socket has something new, so that a message which
is left there then is not handed on. -/
def Preserved (s : Listener) : Prop :=
  s.delivered ++ messages s.buffer = messages s.read ∧ (s.phase = .running → messages s.buffer = [])

instance (s : Listener) : Decidable (Preserved s) := inferInstanceAs (Decidable (_ ∧ _))

/-- What is read as an acknowledgement is no message, and behind the last one there is none. -/
def Acknowledged (s : Listener) : Action → Prop
  | .getReply => (∀ reply ∈ s.buffer.head?, onReply reply = none) ∧
    (s.phase = .acknowledgements 1 → messages s.buffer.tail = [])
  | .sendInitial => s.phase = .initial [] → messages s.buffer = []
  | _ => True

instance (s : Listener) : (action : Action) → Decidable (Acknowledged s action)
  | .getReply => inferInstanceAs (Decidable (_ ∧ _))
  | .sendInitial => inferInstanceAs (Decidable (_ → _))
  | .subscribe _ | .unsubscribe _ | .connect _ | .applyPendingSubscriptions .. | .bufferRead _
  | .receive _ | .serve | .publish .. => inferInstanceAs (Decidable True)

/-- Nothing is published on the channels of the connection while acknowledgements are awaited, and no
message is on its way when they are asked for. -/
def Quiet (s : Listener) : Action → Prop
  | .publish channel _ => s.phase = .running ∨ channel ∉ s.serverSubs
  | .applyPendingSubscriptions .. => messages (s.buffer ++ s.socket) = []
  | _ => True

instance (s : Listener) : (action : Action) → Decidable (Quiet s action)
  | .publish .. => inferInstanceAs (Decidable (_ ∨ _))
  | .applyPendingSubscriptions .. => inferInstanceAs (Decidable (_ = _))
  | .subscribe _ | .unsubscribe _ | .connect _ | .sendInitial | .bufferRead _ | .getReply | .receive _
  | .serve => inferInstanceAs (Decidable True)

theorem messages_append (first second : List Reply) : messages (first ++ second) = messages first ++ messages second :=
  filterMap_append

theorem messages_cons (reply : Reply) (rest : List Reply) :
    messages (reply :: rest) = (onReply reply).toList ++ messages rest := by
  cases seen : onReply reply <;> simp [messages,seen]

section
variable (s : Listener) (command : Command)

@[simp] theorem execute_phase : (s.execute command).phase = s.phase := by
  cases command <;> rfl

@[simp] theorem execute_buffer : (s.execute command).buffer = s.buffer := by
  cases command <;> rfl

@[simp] theorem execute_delivered : (s.execute command).delivered = s.delivered := by
  cases command <;> rfl

@[simp] theorem execute_read : (s.execute command).read = s.read := by
  cases command <;> rfl

theorem execute_messages : messages (s.execute command).socket = messages s.socket := by
  have subscribed : ascii "subscribe" ≠ ascii "message" := by decide
  have unsubscribed : ascii "unsubscribe" ≠ ascii "message" := by decide
  cases command <;> simp [Listener.execute,messages,onReply,subscribed,unsubscribed]

end

inductive Flow (s next : Listener) : Action → Prop
  | still (delivered : next.delivered = s.delivered) (buffer : next.buffer = s.buffer) (read : next.read = s.read)
      (running : next.phase = .running → s.phase = .running) (passes : Acknowledged s action) (other : action ≠ .getReply) :
      Flow s next action
  | started (initial : s.phase = .initial []) (delivered : next.delivered = s.delivered) (buffer : next.buffer = s.buffer)
      (read : next.read = s.read) (running : next.phase = .running) : Flow s next .sendInitial
  | bufferRead (count : Nat) (same : next = s.bufferRead count) (locked : s.phase.locked) : Flow s next (.bufferRead count)
  | getReply (reply : Reply) (first : s.buffer = reply :: next.buffer) (delivered : next.delivered = s.delivered)
      (read : next.read = s.read) (socket : next.socket = s.socket) (locked : s.phase.locked)
      (running : next.phase = .running ↔ s.phase = .acknowledgements 1) : Flow s next .getReply
  | receive (count : Nat) (buffer : next.buffer = []) (read : next.read = s.read ++ s.socket.take count)
      (delivered : next.delivered = s.delivered ++ messages (s.buffer ++ s.socket.take count)) : Flow s next (.receive count)

section
variable {next : Listener}

theorem not_running_of_locked {s : Listener} (locked : s.phase.locked) : s.phase ≠ .running := by
  intro running
  rw [running] at locked
  cases locked

theorem step_flow (enabled : step initialChannels s action = some next) : Flow s next action := by
  cases action with
  | subscribe channel | unsubscribe channel =>
    obtain ⟨_,rfl⟩ := of_unless enabled
    exact .still rfl rfl rfl id trivial nofun
  | connect order =>
    obtain ⟨_,rfl⟩ := of_guard enabled
    exact .still rfl rfl rfl nofun trivial nofun
  | applyPendingSubscriptions newlySubscribed toRemove =>
    obtain ⟨here,rfl⟩ := of_guard enabled
    exact .still rfl rfl rfl (fun _ => here.1) trivial nofun
  | sendInitial =>
    simp only [step] at enabled
    split at enabled
    · next phase =>
      cases enabled
      refine .still rfl rfl rfl nofun (fun initial => ?_) nofun
      rw [phase] at initial
      cases initial
    · next initial =>
      cases enabled
      exact .started initial rfl rfl rfl rfl
    · cases enabled
  | bufferRead count =>
    simp only [step] at enabled
    split at enabled
    · next phase _ =>
      cases enabled
      exact .bufferRead count rfl (by rw [phase]; rfl)
    · next phase _ =>
      cases enabled
      exact .bufferRead count rfl (by rw [phase]; rfl)
    · cases enabled
  | getReply =>
    simp only [step] at enabled
    split at enabled
    · next reply buffer phase first =>
      cases enabled
      exact .getReply _ first rfl rfl rfl (by rw [phase]; rfl) (by simp [phase])
    · next left reply buffer phase first =>
      cases enabled
      refine .getReply _ first rfl rfl rfl (by rw [phase]; rfl) ?_
      simp only [phase,Phase.acknowledgements.injEq]
      split <;> simp [*]
    · cases enabled
  | receive count =>
    obtain ⟨_,rfl⟩ := of_guard enabled
    exact .receive count rfl rfl rfl
  | serve =>
    simp only [step] at enabled
    split at enabled <;> cases enabled
    exact .still (by simp) (by simp) (by simp) (by simp) trivial nofun
  | publish channel data =>
    simp only [step] at enabled
    split at enabled
    all_goals
      cases enabled
      exact .still rfl rfl rfl id trivial nofun

theorem preserved_step (preserved : Preserved s) (enabled : step initialChannels s action = some next) :
    Preserved next ↔ Acknowledged s action := by
  obtain ⟨kept,rest⟩ := preserved
  unfold Preserved
  cases step_flow enabled with
  | still delivered buffer read running passes =>
    rw [delivered,buffer,read]
    exact iff_of_true ⟨kept,rest ∘ running⟩ passes
  | started initial delivered buffer read running =>
    simp [delivered,buffer,read,running,kept,Acknowledged,initial]
  | bufferRead count same locked =>
    refine iff_of_true ⟨?_,fun running => ?_⟩ trivial
    · rw [same]
      simp only [Listener.bufferRead,messages_append,← kept,append_assoc]
    · rw [same] at running
      exact absurd running (not_running_of_locked locked)
  | getReply reply first delivered read socket locked running =>
    -- the one reply that leaves the reader without having been looked at
    rw [delivered,read,← kept,first,messages_cons,running]
    simp only [Acknowledged,first,head?_cons,tail_cons,Option.mem_def,Option.some.injEq,forall_eq']
    refine and_congr_left fun _ => ?_
    cases seen : onReply reply with
    | none | some message => simp
  | receive count buffer read delivered =>
    have empty : messages ([] : List Reply) = [] := rfl
    refine iff_of_true ⟨?_,fun _ => buffer ▸ empty⟩ trivial
    rw [buffer,read,delivered,empty]
    simp only [messages_append,← kept,append_assoc,append_nil]

def Settled (s : Listener) : Prop := s.phase ≠ .running → messages (s.buffer ++ s.socket) = []

theorem settled_step
    (settled : Settled s) (quiet : Quiet s action) (enabled : step initialChannels s action = some next) :
    Settled next := by
  cases action with
  | subscribe channel | unsubscribe channel =>
    obtain ⟨_,rfl⟩ := of_unless enabled
    exact settled
  | connect order =>
    obtain ⟨here,rfl⟩ := of_guard enabled
    exact fun _ => settled (by rw [here.1]; nofun)
  | sendInitial =>
    simp only [step] at enabled
    split at enabled
    · next phase =>
      cases enabled
      exact fun _ => settled (by rw [phase]; nofun)
    · cases enabled
      exact fun running => absurd rfl running
    · cases enabled
  | applyPendingSubscriptions newlySubscribed toRemove =>
    obtain ⟨_,rfl⟩ := of_guard enabled
    exact fun _ => quiet
  | bufferRead count =>
    have moved : next = s.bufferRead count := by
      simp only [step] at enabled
      split at enabled <;> cases enabled <;> rfl
    intro waiting
    simp only [moved,Listener.bufferRead,append_assoc,take_append_drop] at waiting ⊢
    exact settled waiting
  | getReply =>
    cases step_flow enabled with
    | still _ _ _ _ _ other => exact absurd rfl other
    | getReply reply first delivered read socket locked =>
      intro _
      have before := settled (not_running_of_locked locked)
      rw [first,cons_append,messages_cons,append_eq_nil_iff] at before
      rw [socket]
      exact before.2
  | receive count =>
    obtain ⟨here,rfl⟩ := of_guard enabled
    exact fun waiting => absurd here.1 waiting
  | serve =>
    simp only [step] at enabled
    split at enabled
    · cases enabled
    cases enabled
    intro waiting
    have before := settled (by simpa using waiting)
    rw [messages_append] at before ⊢
    rw [execute_messages,execute_buffer]
    exact before
  | publish channel data =>
    simp only [step] at enabled
    split at enabled
    · next subscribed =>
      cases enabled
      exact fun waiting => (quiet.resolve_right (not_not_intro subscribed) |> waiting).elim
    · cases enabled
      exact settled

theorem Settled.acknowledged (settled : Settled s) (enabled : step initialChannels s action = some next) :
    Acknowledged s action := by
  cases step_flow enabled with
  | still _ _ _ _ passes => exact passes
  | bufferRead | receive => trivial
  | started initial =>
    have before := settled (by rw [initial]; nofun)
    rw [messages_append,append_eq_nil_iff] at before
    exact fun _ => before.1
  | getReply reply first _ _ _ locked =>
    have before := settled (not_running_of_locked locked)
    rw [first,cons_append,messages_cons,messages_append,append_eq_nil_iff,append_eq_nil_iff] at before
    rw [Acknowledged,first]
    refine ⟨fun taken among => ?_,fun _ => before.2.1⟩
    cases among
    exact Option.toList_eq_nil_iff.mp before.1

end

/-- The messages that were read reach the callback, each once and in order, exactly as long as none of them stands where
an acknowledgement is read or behind the last one. Quiet subscriptions are enough for that. -/
theorem messages_preserved_iff (initialChannels : List Bytes) (schedule : List Action) (final : Listener)
    (runs : run (step initialChannels) {} schedule = some final) :
    (Throughout (step initialChannels) Preserved {} schedule ↔ Along (step initialChannels) Acknowledged {} schedule) ∧
    (Along (step initialChannels) Quiet {} schedule → Throughout (step initialChannels) Preserved {} schedule) := by
  constructor
  · refine throughout_iff Acknowledged (fun _ _ => True) Preserved ?_ ⟨rfl,nofun⟩ ?_ runs
    · intro s action next preserved _ enabled
      exact preserved_step preserved enabled
    · exact Along.of_forall fun _ _ _ => trivial
  · intro quiet
    have both : Throughout (step initialChannels) (fun s => Preserved s ∧ Settled s) {} schedule := by
      refine throughout_guarded _ ?_ ⟨⟨rfl,nofun⟩,fun _ => rfl⟩ quiet
      intro s action next held quiet enabled
      have acknowledged := held.2.acknowledged enabled
      exact ⟨(preserved_step held.1 enabled).mpr acknowledged,settled_step held.2 quiet enabled⟩
    exact both.imp fun _ held => held.1

def laterSubscription : List Action :=
  [.connect [ascii "global"],.sendInitial,.serve,.bufferRead 1,.getReply,.sendInitial,.subscribe (ascii "room"),
    .applyPendingSubscriptions [ascii "room"] []]

theorem messages_preserved_quiet : ∃ final, run (step [ascii "global"]) {} (laterSubscription ++
        [.serve,.bufferRead 1,.getReply,.publish (ascii "room") [7],.receive 1]) = some final ∧
      final.delivered = [(ascii "room",[7])] ∧
      Throughout (step [ascii "global"]) Preserved {} (laterSubscription ++
        [.serve,.bufferRead 1,.getReply,.publish (ascii "room") [7],.receive 1]) := by
  refine exists_final (by decide +kernel) fun runs => ⟨by decide +kernel,?_⟩
  exact (messages_preserved_iff _ _ _ runs).2 (by decide +kernel)

/-- A message on the first channel comes before the acknowledgement of the second: it is freed in the
place of the acknowledgement, and never handed on. -/
theorem message_taken_for_acknowledgement : ∃ final, run (step [ascii "global"]) {} (laterSubscription ++
        [.publish (ascii "global") [7],.serve,.bufferRead 2,.getReply,.publish (ascii "global") [8],.receive 1]) = some final ∧
      messages final.read = [(ascii "global",[7]),(ascii "global",[8])] ∧ final.buffer = [] ∧ final.socket = [] ∧
      final.delivered = [(ascii "global",[8])] ∧ ¬Preserved final := by decide +kernel

end ApexPipeline.PubSubListener
