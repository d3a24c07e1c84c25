import Mathlib

/-! Doubly linked lists whose links are stored in their nodes. Memory is partial: an operation that follows a pointer
to nothing has no result, so a result also says that every pointer it followed was valid. -/
namespace ApexPipeline.IntrusiveList
variable {P : Type}

structure Node (P : Type) where
  payload : P
  next : Option Nat
  prev : Option Nat

abbrev Memory (P : Type) := Nat → Option (Node P)

def write (m : Memory P) (a : Nat) (f : Node P → Node P) : Option (Memory P) :=
  (m a).map fun node => Function.update m a (some (f node))

def setNext (m : Memory P) (a : Nat) (next : Option Nat) : Option (Memory P) :=
  write m a fun node => { node with next := next }

def setPrev (m : Memory P) (a : Nat) (prev : Option Nat) : Option (Memory P) :=
  write m a fun node => { node with prev := prev }

def setLinks (m : Memory P) (a : Nat) (next prev : Option Nat) : Option (Memory P) :=
  write m a fun node => { node with next := next, prev := prev }

/-- Pushes a node in front of the list; the result is the memory and the new head. -/
def insert (m : Memory P) (head : Option Nat) (e : Nat) : Option (Memory P × Option Nat) := do
  let m ← setLinks m e head none
  match head with
  | some first => return (← setPrev m first (some e),some e)
  | none => return (m,some e)

def unlinkBefore (m : Memory P) (head prev next : Option Nat) : Option (Memory P × Option Nat) :=
  match prev with
  | some p => (setNext m p next).map fun m => (m,head)
  | none => some (m,next)

def unlinkAfter (m : Memory P) (prev next : Option Nat) : Option (Memory P) :=
  match next with
  | some n => setPrev m n prev
  | none => some m

def remove (m : Memory P) (head : Option Nat) (e : Nat) : Option (Memory P × Option Nat) := do
  let node ← m e
  let (m,head) ← unlinkBefore m head node.prev node.next
  let m ← unlinkAfter m node.prev node.next
  return (← setLinks m e none none,head)

/-- The nodes from a pointer on, following at most `fuel` links. -/
def walk (m : Memory P) : Nat → Option Nat → Option (List Nat)
  | _, none => some []
  | 0, some _ => none
  | fuel + 1, some a => do
    let node ← m a
    return a :: (← walk m fuel node.next)

/-- The nodes `xs` are linked from `head` on. The first points back to `before`, the
last one on to `after`. -/
def Segment (m : Memory P) : Option Nat → Option Nat → List Nat → Option Nat → Prop
  | _, head, [], after => head = after
  | before, head, x :: xs, after => head = some x ∧
      ∃ node, m x = some node ∧ node.prev = before ∧ Segment m (some x) node.next xs after

def Chain (m : Memory P) (head : Option Nat) (xs : List Nat) : Prop := Segment m none head xs none

def last : Option Nat → List Nat → Option Nat
  | before, [] => before
  | _, x :: xs => last (some x) xs

def SamePayloads (m m' : Memory P) : Prop :=
  ∀ a, (m' a).map Node.payload = (m a).map Node.payload

theorem SamePayloads.refl (m : Memory P) : SamePayloads m m := fun _ => rfl

variable {m m' : Memory P} {xs : List Nat}

theorem SamePayloads.trans {m'' : Memory P} (first : SamePayloads m m')
    (second : SamePayloads m' m'') : SamePayloads m m'' :=
  fun a => (second a).trans (first a)

theorem write_spec (m : Memory P) (a : Nat) (f : Node P → Node P) (node : Node P)
    (found : m a = some node) (same : (f node).payload = node.payload) :
    ∃ m', write m a f = some m' ∧ m' a = some (f node) ∧ (∀ x, x ≠ a → m' x = m x) ∧ SamePayloads m m' := by
  refine ⟨Function.update m a (some (f node)),by simp [write,found],Function.update_self ..,
    fun x other => Function.update_of_ne other ..,fun x => ?_⟩
  by_cases here : x = a
  · subst here
    simp [found,same]
  · simp [here]

theorem Segment.congr (same : ∀ x ∈ xs, m' x = m x) :
    ∀ {before head after}, Segment m before head xs after → Segment m' before head xs after := by
  induction xs with
  | nil => exact fun linked => linked
  | cons x xs ih =>
    rintro before head after ⟨rfl,node,found,back,rest⟩
    refine ⟨rfl,node,?_,back,ih (fun y member => same y (List.mem_cons_of_mem x member)) rest⟩
    rw [same x List.mem_cons_self,found]

theorem Segment.relabel (same : ∀ x node, m x = some node →
    ∃ node', m' x = some node' ∧ node'.next = node.next ∧ node'.prev = node.prev) :
    ∀ {before head after}, Segment m before head xs after → Segment m' before head xs after := by
  induction xs with
  | nil => exact fun linked => linked
  | cons x xs ih =>
    rintro before head after ⟨first,node,found,back,rest⟩
    obtain ⟨node',found',next,prev⟩ := same x node found
    exact ⟨first,node',found',prev.trans back,next ▸ ih rest⟩

theorem segment_append : ∀ {before head after},Segment m before head (xs ++ ys) after ↔
      ∃ middle, Segment m before head xs middle ∧ Segment m (last before xs) middle ys after := by
  induction xs with
  | nil =>
    intro before head after
    simp [Segment,last]
  | cons x xs ih =>
    intro before head after
    simp only [List.cons_append,Segment,last]
    constructor
    · rintro ⟨start,node,found,back,rest⟩
      obtain ⟨middle,first,second⟩ := ih.mp rest
      exact ⟨middle,⟨start,node,found,back,first⟩,second⟩
    · rintro ⟨middle,⟨start,node,found,back,first⟩,second⟩
      exact ⟨start,node,found,back,ih.mpr ⟨middle,first,second⟩⟩

theorem last_concat (before : Option Nat) (xs : List Nat) (x : Nat) : last before (xs ++ [x]) = some x := by
  induction xs generalizing before with
  | nil => rfl
  | cons y ys ih => exact ih (some y)

theorem walk_chain : ∀ {fuel before head},
    Segment m before head xs none → xs.length ≤ fuel → walk m fuel head = some xs := by
  induction xs with
  | nil =>
    rintro fuel before head rfl _
    cases fuel <;> rfl
  | cons x xs ih =>
    rintro fuel before head ⟨rfl,node,found,_,rest⟩ enough
    cases fuel with
    | zero => simp at enough
    | succ fuel =>
      simp only [List.length_cons,Nat.add_le_add_iff_right] at enough
      simp [walk,found,ih rest enough]

theorem insert_spec (linked : Chain m head xs) (distinct : xs.Nodup) (fresh : e ∉ xs) (found : m e = some node) :
    ∃ m', insert m head e = some (m',some e) ∧ Chain m' (some e) (e :: xs) ∧
      SamePayloads m m' ∧ ∀ x, x ≠ e → x ∉ xs → m' x = m x := by
  obtain ⟨m₁,linking,new,others,payloads⟩ :=
    write_spec m e (fun node => { node with next := head, prev := none }) node found rfl
  cases xs with
  | nil =>
    cases linked
    refine ⟨m₁,by simp [insert,setLinks,linking],⟨rfl,_,new,rfl,rfl⟩,payloads,?_⟩
    intro x other _
    exact others x other
  | cons h ys =>
    obtain ⟨rfl,first,present,back,rest⟩ := linked
    have apart : h ≠ e := by
      rintro rfl
      exact fresh List.mem_cons_self
    obtain ⟨outside,_⟩ := List.nodup_cons.mp distinct
    obtain ⟨m₂,backLink,second,others',payloads'⟩ :=
      write_spec m₁ h (fun node => { node with prev := some e }) first (by rw [others h apart,present]) rfl
    refine ⟨m₂,by simp [insert,setLinks,setPrev,linking,backLink],?_,payloads.trans payloads',?_⟩
    · refine ⟨rfl,_,by rw [others' e apart.symm,new],rfl,rfl,_,second,rfl,?_⟩
      refine Segment.congr (fun y member => ?_) rest
      have notFirst : y ≠ h := fun same => outside (same ▸ member)
      have notNew : y ≠ e := fun same => fresh (List.mem_cons_of_mem h (same ▸ member))
      rw [others' y notFirst,others y notNew]
    · intro x other away
      have notFirst : x ≠ h := fun same => away (same ▸ List.mem_cons_self)
      rw [others' x notFirst,others x other]

theorem unlinkBefore_spec (next : Option Nat) (linked : Segment m none head xs (some e)) (distinct : xs.Nodup) :
    ∃ m' head', unlinkBefore m head (last none xs) next = some (m',head') ∧
      Segment m' none head' xs next ∧ SamePayloads m m' ∧ ∀ x, x ∉ xs → m' x = m x := by
  rcases List.eq_nil_or_concat xs with rfl | ⟨ys,p,rfl⟩
  · exact ⟨m,next,rfl,rfl,.refl m,fun _ _ => rfl⟩
  rw [List.concat_eq_append] at *
  obtain ⟨middle,first,⟨rfl,node,found,back,_⟩⟩ := segment_append.mp linked
  obtain ⟨m',written,new,others,payloads⟩ :=
    write_spec m p (fun node => { node with next := next }) node found rfl
  have outside : p ∉ ys := fun member =>
    (List.nodup_append.mp distinct).2.2 p member p (List.mem_singleton_self p) rfl
  refine ⟨m',head,by simp [unlinkBefore,last_concat,setNext,written],?_,payloads,?_⟩
  · refine segment_append.mpr ⟨some p,?_,rfl,_,new,back,rfl⟩
    refine Segment.congr (fun y member => others y fun same => outside (same ▸ member)) first
  · intro x away
    exact others x fun same => away (by simp [same])

theorem unlinkAfter_spec (prev : Option Nat) (linked : Segment m before next ys none) (distinct : ys.Nodup) :
    ∃ m', unlinkAfter m prev next = some m' ∧ Segment m' prev next ys none ∧
      SamePayloads m m' ∧ ∀ x, x ∉ ys → m' x = m x := by
  cases ys with
  | nil =>
    cases linked
    exact ⟨m,rfl,rfl,.refl m,fun _ _ => rfl⟩
  | cons y ys =>
    obtain ⟨rfl,node,found,back,rest⟩ := linked
    obtain ⟨outside,_⟩ := List.nodup_cons.mp distinct
    obtain ⟨m',written,new,others,payloads⟩ :=
      write_spec m y (fun node => { node with prev := prev }) node found rfl
    refine ⟨m',by simp [unlinkAfter,setPrev,written],⟨rfl,_,new,rfl,?_⟩,payloads,?_⟩
    · exact Segment.congr (fun z member => others z fun same => outside (same ▸ member)) rest
    · intro x away
      exact others x fun same => away (by simp [same])

theorem remove_spec (linked : Chain m head xs) (distinct : xs.Nodup) (member : e ∈ xs) :
    ∃ m' head', remove m head e = some (m',head') ∧ Chain m' head' (xs.erase e) ∧
      SamePayloads m m' ∧ ∀ x, x ∉ xs → m' x = m x := by
  obtain ⟨front,back,rfl⟩ := List.append_of_mem member
  obtain ⟨middle,first,⟨rfl,node,found,prev,rest⟩⟩ := segment_append.mp linked
  obtain ⟨frontDistinct,tailDistinct,apart⟩ := List.nodup_append.mp distinct
  obtain ⟨notBack,backDistinct⟩ := List.nodup_cons.mp tailDistinct
  have notFront : e ∉ front := fun inside => apart e inside e List.mem_cons_self rfl
  have disjoint (x : Nat) (inside : x ∈ front) : x ∉ back :=
    fun later => apart x inside x (List.mem_cons_of_mem e later) rfl
  obtain ⟨m₁,head',before,first',payloads₁,others₁⟩ :=
    unlinkBefore_spec node.next first frontDistinct
  obtain ⟨m₂,after,rest',payloads₂,others₂⟩ :=
    unlinkAfter_spec (last none front)
      (Segment.congr (fun x inside => others₁ x fun early => disjoint x early inside) rest) backDistinct
  obtain ⟨m₃,cleared,_,others₃,payloads₃⟩ :=
    write_spec m₂ e (fun node => { node with next := none, prev := none }) node
      (by rw [others₂ e notBack,others₁ e notFront,found]) rfl
  refine ⟨m₃,head',?_,?_,payloads₁.trans (payloads₂.trans payloads₃),?_⟩
  · simp only [remove,found,prev,Option.bind_eq_bind,Option.bind_some,before,after,setLinks,cleared]
    rfl
  · rw [List.erase_append_right _ notFront,List.erase_cons_head]
    refine segment_append.mpr ⟨node.next,?_,?_⟩
    · refine Segment.congr (fun x inside => ?_) first'
      rw [others₃ x fun same => notFront (same ▸ inside),others₂ x (disjoint x inside)]
    · exact Segment.congr (fun x inside => others₃ x fun same => notBack (same ▸ inside)) rest'
  · intro x away
    simp only [List.mem_append,List.mem_cons,not_or] at away
    rw [others₃ x away.2.1,others₂ x away.2.2,others₁ x away.1]

end ApexPipeline.IntrusiveList
