import V2IHub.Utils.MessageManager

/-! The messages of one source as they go through `TmxMessageManager`: what can happen to them, and
why they stay with one worker and in order. -/
namespace V2IHub.Utils
open Foundation

inductive SourceEvent where
  | given (msg : MessageStruct)
  | queued (msg : MessageStruct)
  | handled (msg : MessageStruct)
deriving DecidableEq

namespace SourceEvent

def given? : SourceEvent → Option MessageStruct
  | .given msg => some msg
  | _ => none

def queued? : SourceEvent → Option MessageStruct
  | .queued msg => some msg
  | _ => none

def handled? : SourceEvent → Option MessageStruct
  | .handled msg => some msg
  | _ => none

end SourceEvent

section Logs
variable (log : List SourceEvent)

/-- The messages that `IncomingMessage` had a worker for. -/
def given : List MessageStruct := log.filterMap SourceEvent.given?

/-- Those that were pushed on the queue of a worker. -/
def queued : List MessageStruct := log.filterMap SourceEvent.queued?

/-- Those that a worker took to handle them. -/
def handled : List MessageStruct := log.filterMap SourceEvent.handled?

end Logs

/-- What a worker has of the source. -/
structure Lane where
  waiting : List MessageStruct
  working : Option MessageStruct
  cleanups : ℕ

namespace Lane

def empty : Lane := ⟨[], none, 0⟩

def size (lane : Lane) : ℕ :=
  lane.waiting.length + lane.working.toList.length + lane.cleanups

end Lane

/-- The manager as far as it is about the source. -/
structure SourceView where
  count : BitVec 64
  threadId : ℤ
  calls : List (MessageStruct × ℕ)
  lanes : List Lane

namespace SourceView

/-- The messages of the source that are not cleaned up after. -/
def size (v : SourceView) : ℕ := v.calls.length + (v.lanes.map Lane.size).sum

def waiting (v : SourceView) : List MessageStruct := v.lanes.flatMap Lane.waiting

def setLane (v : SourceView) (i : ℕ) (lane : Lane) : SourceView :=
  { v with lanes := v.lanes.set i lane }

/-- What one step of the manager can do to the source, and what is seen of it. -/
inductive Move : SourceView → Option SourceEvent → SourceView → Prop
  | stay (v : SourceView) : Move v none v
  | start (v : SourceView) (n : ℕ) :
      Move v none { v with lanes := v.lanes ++ List.replicate n .empty }
  | give {v : SourceView} (msg : MessageStruct) {thread : ℕ} (hfree : v.calls = [])
      (hpinned : 0 ≤ v.threadId → (thread : ℤ) = v.threadId) :
      Move v (some (.given msg))
        { v with count := v.count + 1, threadId := thread, calls := [(msg, thread)] }
  | queue {v : SourceView} {msg : MessageStruct} {thread : ℕ} {lane : Lane}
      {front back : List (MessageStruct × ℕ)} (hcalls : v.calls = front ++ (msg, thread) :: back)
      (hlane : v.lanes[thread]? = some lane) :
      Move v (some (.queued msg)) ({ v with calls := front ++ back }.setLane thread
        { lane with waiting := lane.waiting ++ [msg] })
  | lose {v : SourceView} {call : MessageStruct × ℕ} {front back : List (MessageStruct × ℕ)}
      (hcalls : v.calls = front ++ call :: back) : Move v none { v with calls := front ++ back }
  | begin {v : SourceView} {i : ℕ} {msg : MessageStruct} {rest : List MessageStruct}
      {cleanups : ℕ} (hlane : v.lanes[i]? = some ⟨msg :: rest, none, cleanups⟩) :
      Move v (some (.handled msg)) (v.setLane i ⟨rest, some msg, cleanups⟩)
  | finish {v : SourceView} {i : ℕ} {msg : MessageStruct} {waiting : List MessageStruct}
      {cleanups cleanups' : ℕ} (hlane : v.lanes[i]? = some ⟨waiting, some msg, cleanups⟩)
      (hcleanups : cleanups' ≤ cleanups + 1) :
      Move v none (v.setLane i ⟨waiting, none, cleanups'⟩)
  | cleanup {v : SourceView} {i : ℕ} {waiting : List MessageStruct}
      {working : Option MessageStruct} {cleanups : ℕ}
      (hlane : v.lanes[i]? = some ⟨waiting, working, cleanups + 1⟩) :
      Move v none ({ v with
        count := v.count - 1
        threadId := if v.count - 1 = 0 then -1 else v.threadId }.setLane i
          ⟨waiting, working, cleanups⟩)

/-- All that is on its way belongs to one worker, and has come so far in the order in which it was
given. `count` also counts what was lost. -/
structure InOrder (log : List SourceEvent) (v : SourceView) : Prop where
  counts : ∃ lost, v.count = BitVec.ofNat 64 (v.size + lost) ∧
    v.size + lost ≤ (given log).length
  oneCall : v.calls.length ≤ 1
  calls : ∀ call ∈ v.calls, (call.2 : ℤ) = v.threadId
  lanes : ∀ (i : ℕ) (lane : Lane), v.lanes[i]? = some lane → lane.size ≠ 0 → (i : ℤ) = v.threadId
  order : handled log ++ v.waiting = queued log
  sublist : (queued log ++ v.calls.map Prod.fst).Sublist (given log)

section Lanes
variable {α β : Type*} {f : α → List β} {l : List α} {i : ℕ} {a : α}

/-- Where no other item gives anything. -/
theorem flatMap_eq_of_single (h : l[i]? = some a)
    (hother : ∀ j b, l[j]? = some b → j ≠ i → f b = []) : l.flatMap f = f a := by
  induction l generalizing i with
  | nil => simp at h
  | cons x l ih =>
    have hnone : ∀ j b, l[j]? = some b → j + 1 ≠ i → f b = [] :=
      fun j b hj hne => hother (j + 1) b (by simpa using hj) hne
    cases i with
    | zero =>
      obtain rfl : x = a := by simpa using h
      have hrest : l.flatMap f = [] := by
        rw [List.flatMap_eq_nil_iff]
        intro b hb
        obtain ⟨j, hj⟩ := List.mem_iff_getElem?.mp hb
        exact hnone j b hj (Nat.succ_ne_zero j)
      rw [List.flatMap_cons, hrest, List.append_nil]
    | succ i =>
      have hx : f x = [] := hother 0 x rfl (Nat.succ_ne_zero i).symm
      rw [List.flatMap_cons, hx, List.nil_append]
      exact ih (by simpa using h) fun j b hj hne => hnone j b hj (by omega)

end Lanes

variable {log : List SourceEvent} {v v' : SourceView} {i : ℕ} {lane lane' : Lane}

theorem size_setLane (lane' : Lane) (h : v.lanes[i]? = some lane) :
    (v.setLane i lane').size + lane.size = v.size + lane'.size := by
  have hsum := MessageManager.sum_map_set (f := Lane.size) lane' h
  unfold size setLane
  dsimp only
  omega

/-- The source is with this worker, so nothing waits elsewhere. -/
theorem InOrder.elsewhere (h : InOrder log v) (hi : (i : ℤ) = v.threadId) {j : ℕ}
    {other : Lane} (hj : v.lanes[j]? = some other) (hne : j ≠ i) : other.waiting = [] := by
  by_contra hnonempty
  have hpos := List.length_pos_of_ne_nil hnonempty
  have hsize : other.size ≠ 0 := by
    unfold Lane.size
    omega
  have hother := h.lanes j other hj hsize
  omega

theorem InOrder.waiting_eq (h : InOrder log v) (hi : (i : ℤ) = v.threadId)
    (hlane : v.lanes[i]? = some lane) : v.waiting = lane.waiting :=
  flatMap_eq_of_single hlane fun _ _ hj hne => h.elsewhere hi hj hne

theorem InOrder.waiting_setLane (h : InOrder log v) (hi : (i : ℤ) = v.threadId)
    (hlane : v.lanes[i]? = some lane) (lane' : Lane) :
    (v.setLane i lane').waiting = lane'.waiting := by
  have hlen : i < v.lanes.length := (List.getElem?_eq_some_iff.mp hlane).1
  apply flatMap_eq_of_single (i := i)
  · rw [setLane, List.getElem?_set_self hlen]
  · intro j other hj hne
    rw [setLane, List.getElem?_set_ne (Ne.symm hne)] at hj
    exact h.elsewhere hi hj hne

/-- Nothing comes to a worker that does not have the source. -/
theorem InOrder.lanes_setLane (h : InOrder log v) (hlane : v.lanes[i]? = some lane)
    (hsize : lane'.size ≠ 0 → (i : ℤ) = v.threadId) (j : ℕ) (other : Lane)
    (hj : (v.setLane i lane').lanes[j]? = some other) (hother : other.size ≠ 0) :
    (j : ℤ) = v.threadId := by
  have hlen : i < v.lanes.length := (List.getElem?_eq_some_iff.mp hlane).1
  by_cases hne : j = i
  · subst hne
    rw [setLane, List.getElem?_set_self hlen] at hj
    obtain rfl := Option.some.inj hj
    exact hsize hother
  · rw [setLane, List.getElem?_set_ne (Ne.symm hne)] at hj
    exact h.lanes j other hj hother

section Moves
variable {msg : MessageStruct} {front back : List (MessageStruct × ℕ)}

theorem InOrder.start (h : InOrder log v) (n : ℕ) :
    InOrder log { v with lanes := v.lanes ++ List.replicate n .empty } := by
  have hempty : (List.replicate n Lane.empty).flatMap Lane.waiting = [] := by
    simp [List.flatMap_replicate, Lane.empty]
  have hnothing : ((List.replicate n Lane.empty).map Lane.size).sum = 0 := by
    simp [Lane.empty, Lane.size]
  obtain ⟨lost, hcount, hle⟩ := h.counts
  have hsize : size { v with lanes := v.lanes ++ List.replicate n .empty } = v.size := by
    simp only [size, List.map_append, List.sum_append, hnothing, add_zero]
  refine ⟨⟨lost, ?_, ?_⟩, h.oneCall, h.calls, fun i lane hi hlane => ?_, ?_, h.sublist⟩
  · rw [hsize]
    exact hcount
  · rwa [hsize]
  · rw [List.getElem?_append] at hi
    split_ifs at hi with hlt
    · exact h.lanes i lane hi hlane
    · rw [List.eq_of_mem_replicate (List.mem_of_getElem? hi)] at hlane
      exact absurd rfl hlane
  · have hsame : waiting { v with lanes := v.lanes ++ List.replicate n .empty } = v.waiting := by
      simp only [waiting, List.flatMap_append, hempty, List.append_nil]
    rw [hsame]
    exact h.order

/-- While nothing of the source is on its way, any worker may get it. -/
theorem InOrder.give (h : InOrder log v) {thread : ℕ} (hfree : v.calls = [])
    (hpinned : 0 ≤ v.threadId → (thread : ℤ) = v.threadId) :
    InOrder (log ++ [.given msg])
      { v with count := v.count + 1, threadId := thread, calls := [(msg, thread)] } := by
  obtain ⟨lost, hcount, hle⟩ := h.counts
  have hsize : size { v with
      count := v.count + 1, threadId := thread, calls := [(msg, thread)] } = v.size + 1 := by
    simp only [size, hfree, List.length_nil, List.length_singleton]
    omega
  have hgiven : given (log ++ [.given msg]) = given log ++ [msg] := List.filterMap_append ..
  have hqueued : queued (log ++ [.given msg]) = queued log := by
    simp [queued, SourceEvent.queued?]
  have hhandled : handled (log ++ [.given msg]) = handled log := by
    simp [handled, SourceEvent.handled?]
  refine ⟨⟨lost, ?_, ?_⟩, le_rfl, ?_, fun i lane hi hlane => ?_, ?_, ?_⟩
  · apply MessageManager.Matched.eq_ofNat (.up rfl _) hcount
    rw [hsize]
    omega
  · rw [hsize, hgiven, List.length_append, List.length_singleton]
    omega
  · intro call hcall
    rw [List.mem_singleton.mp hcall]
  · have hold := h.lanes i lane hi hlane
    rw [hpinned (by omega)]
    exact hold
  · rw [hhandled, hqueued]
    exact h.order
  · have hsublist := h.sublist
    rw [hfree, List.map_nil, List.append_nil] at hsublist
    rw [hqueued, hgiven]
    exact hsublist.append_right [msg]

/-- The call that ends is the only one. -/
theorem InOrder.alone (h : InOrder log v) {call : MessageStruct × ℕ}
    (hcalls : v.calls = front ++ call :: back) : front = [] ∧ back = [] := by
  have hone := h.oneCall
  rw [hcalls, List.length_append, List.length_cons] at hone
  exact ⟨List.eq_nil_of_length_eq_zero (by omega), List.eq_nil_of_length_eq_zero (by omega)⟩

theorem InOrder.queue (h : InOrder log v) {thread : ℕ}
    (hcalls : v.calls = front ++ (msg, thread) :: back) (hlane : v.lanes[thread]? = some lane) :
    InOrder (log ++ [.queued msg]) ({ v with calls := front ++ back }.setLane thread
      { lane with waiting := lane.waiting ++ [msg] }) := by
  obtain ⟨rfl, rfl⟩ := h.alone hcalls
  rw [List.nil_append] at hcalls
  have hpinned : (thread : ℤ) = v.threadId := h.calls (msg, thread) (by simp [hcalls])
  obtain ⟨lost, hcount, hle⟩ := h.counts
  have hgiven : given (log ++ [.queued msg]) = given log := by simp [given, SourceEvent.given?]
  have hqueued : queued (log ++ [.queued msg]) = queued log ++ [msg] := List.filterMap_append ..
  have hhandled : handled (log ++ [.queued msg]) = handled log := by
    simp [handled, SourceEvent.handled?]
  have hlanes := size_setLane (v := v) { lane with waiting := lane.waiting ++ [msg] } hlane
  have hsize : ({ v with calls := [] ++ [] }.setLane thread
      { lane with waiting := lane.waiting ++ [msg] }).size = v.size := by
    simp only [size, setLane, Lane.size, hcalls, List.length_append, List.length_singleton,
      List.nil_append, List.length_nil] at hlanes ⊢
    omega
  refine ⟨⟨lost, ?_, ?_⟩, by simp [setLane], by simp [setLane], ?_, ?_, ?_⟩
  · rw [hsize]
    exact hcount
  · rwa [hsize, hgiven]
  · exact h.lanes_setLane hlane fun _ => hpinned
  · have hold := h.waiting_eq hpinned hlane
    have hnew := h.waiting_setLane hpinned hlane { lane with waiting := lane.waiting ++ [msg] }
    have horder := h.order
    rw [hold] at horder
    rw [hhandled, hqueued, ← horder, List.append_assoc]
    exact congrArg _ hnew
  · have hsublist := h.sublist
    rw [hcalls, List.map_singleton] at hsublist
    rw [hqueued, hgiven]
    simpa [setLane] using hsublist

theorem InOrder.lose (h : InOrder log v) {call : MessageStruct × ℕ}
    (hcalls : v.calls = front ++ call :: back) : InOrder log { v with calls := front ++ back } := by
  obtain ⟨rfl, rfl⟩ := h.alone hcalls
  rw [List.nil_append] at hcalls
  obtain ⟨lost, hcount, hle⟩ := h.counts
  have hsize : size { v with calls := [] ++ [] } + 1 = v.size := by
    simp only [size, hcalls, List.append_nil, List.length_nil, List.length_singleton]
    omega
  have hlost : v.size + lost = size { v with calls := [] ++ [] } + (lost + 1) := by omega
  refine ⟨⟨lost + 1, hcount.trans (congrArg _ hlost), by omega⟩, by simp, by simp, h.lanes,
    h.order, ?_⟩
  · have hsublist := (List.sublist_append_left (queued log) (v.calls.map Prod.fst)).trans h.sublist
    simpa using hsublist

/-- A worker goes on with what it has of the source. -/
theorem InOrder.work (h : InOrder log v) {event : Option SourceEvent}
    (hlane : v.lanes[i]? = some lane) (hhas : lane.size ≠ 0) (hsize : lane'.size ≤ lane.size)
    (hgiven : given (log ++ event.toList) = given log)
    (hqueued : queued (log ++ event.toList) = queued log)
    (horder : handled (log ++ event.toList) ++ lane'.waiting = handled log ++ lane.waiting) :
    InOrder (log ++ event.toList) (v.setLane i lane') := by
  have hpinned := h.lanes i lane hlane hhas
  obtain ⟨lost, hcount, hle⟩ := h.counts
  have hset := size_setLane lane' hlane
  refine ⟨⟨lost + (lane.size - lane'.size), ?_, ?_⟩, h.oneCall, h.calls, ?_, ?_, ?_⟩
  · rw [show (v.setLane i lane').size + (lost + (lane.size - lane'.size)) = v.size + lost by omega]
    exact hcount
  · rw [hgiven]
    omega
  · exact h.lanes_setLane hlane fun _ => hpinned
  · rw [h.waiting_setLane hpinned hlane, horder, hqueued, ← h.order, h.waiting_eq hpinned hlane]
  · rw [hgiven, hqueued]
    exact h.sublist

/-- The worker gives the source up with its last message. -/
theorem InOrder.cleanup (h : InOrder log v) {waiting : List MessageStruct}
    {working : Option MessageStruct} {cleanups : ℕ} (hbound : (given log).length < 2 ^ 64)
    (hlane : v.lanes[i]? = some ⟨waiting, working, cleanups + 1⟩) :
    InOrder log ({ v with
      count := v.count - 1
      threadId := if v.count - 1 = 0 then -1 else v.threadId }.setLane i
        ⟨waiting, working, cleanups⟩) := by
  have hone : Lane.size ⟨waiting, working, cleanups + 1⟩ =
      Lane.size ⟨waiting, working, cleanups⟩ + 1 := rfl
  have hhas : Lane.size ⟨waiting, working, cleanups + 1⟩ ≠ 0 := by
    rw [hone]
    omega
  obtain ⟨lost, hcount, hle⟩ := h.counts
  have hset := size_setLane (v := v) ⟨waiting, working, cleanups⟩ hlane
  have hdown : v.count - 1 =
      BitVec.ofNat 64 ((v.setLane i ⟨waiting, working, cleanups⟩).size + lost) := by
    apply MessageManager.Matched.eq_ofNat (.down rfl _) hcount
    omega
  have hsmaller : (v.setLane i ⟨waiting, working, cleanups⟩).size + lost ≤ (given log).length := by
    omega
  have hwork : InOrder (log ++ (none : Option SourceEvent).toList)
      (v.setLane i ⟨waiting, working, cleanups⟩) := by
    apply h.work hlane hhas
    · omega
    all_goals simp
  rw [Option.toList_none, List.append_nil] at hwork
  by_cases hzero : v.count - 1 = 0
  · -- nothing of the source is left, so it may go to another worker next
    have hnothing : (v.setLane i ⟨waiting, working, cleanups⟩).size + lost = 0 := by
      have hmod := congrArg BitVec.toNat (hdown.symm.trans hzero)
      rw [BitVec.toNat_ofNat, Nat.mod_eq_of_lt (by omega)] at hmod
      simpa using hmod
    rw [if_pos hzero]
    refine ⟨⟨lost, hdown, hsmaller⟩, h.oneCall, fun call hcall => ?_, fun j other hj hother => ?_,
      hwork.order, hwork.sublist⟩
    · have hpos : 0 < v.calls.length := List.length_pos_of_mem hcall
      unfold size at hnothing
      simp only [setLane] at hnothing
      omega
    · have hmem := List.single_le_sum (by simp) _ (List.mem_map_of_mem (f := Lane.size)
        (List.mem_of_getElem? hj))
      unfold size at hnothing
      simp only [setLane] at hnothing hmem
      omega
  · rw [if_neg hzero]
    exact ⟨⟨lost, hdown, hsmaller⟩, h.oneCall, h.calls, hwork.lanes, hwork.order, hwork.sublist⟩

theorem Move.inOrder {event : Option SourceEvent} (hmove : Move v event v') (h : InOrder log v)
    (hbound : (given log).length < 2 ^ 64) : InOrder (log ++ event.toList) v' := by
  cases hmove with
  | stay => simpa using h
  | start n => simpa using h.start n
  | give msg hfree hpinned => exact h.give hfree hpinned
  | queue hcalls hlane => exact h.queue hcalls hlane
  | lose hcalls => simpa using h.lose hcalls
  | begin hlane =>
    apply h.work hlane
    · simp [Lane.size]
    · simp only [Lane.size, List.length_cons, Option.toList_none, Option.toList_some,
        List.length_nil]
      omega
    · simp [given, SourceEvent.given?]
    · simp [queued, SourceEvent.queued?]
    · simp [handled, SourceEvent.handled?]
  | finish hlane hcleanups =>
    apply h.work hlane
    · simp [Lane.size]
    · simp only [Lane.size, Option.toList_none, Option.toList_some, List.length_nil,
        List.length_singleton]
      omega
    · simp
    · simp
    · simp
  | cleanup hlane => simpa using h.cleanup hbound hlane

end Moves
end SourceView
end V2IHub.Utils
