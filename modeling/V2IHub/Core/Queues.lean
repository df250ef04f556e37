import V2IHub.Foundation.Machine

/-! The threads of a `PluginConnection`: the receiver hands messages to the fast and the slow
processor through a queue and an `AutoResetEvent` each. -/
namespace V2IHub.Core
open Foundation

inductive LaneId where
  | fast
  | slow
deriving DecidableEq

/-- The two threads that share the mutexes of a lane. -/
inductive Side where
  | receiver
  | processor
deriving DecidableEq

/-- The next step of a processor thread, `WaitOne` included. -/
inductive ProcessorPc (Msg : Type*) where
  | check
  | waitLock
  | waitTest
  | waitBlock
  | blocked
  | woken
  | waitClear
  | waitUnlock
  | lockQueue
  | take
  | unlockQueue (msg : Option Msg)
  | handle (msg : Msg)
  | exited
deriving DecidableEq

/-- The next step of `AutoResetEvent::Set`. -/
inductive SetPc where
  | lock
  | flag
  | unlock
  | signal
deriving DecidableEq

/-- What the receiver does after a `Set`: on a closed connection both events are set. -/
inductive Next where
  | receive
  | setSlow
  | join
deriving DecidableEq

inductive ReceiverPc (Msg : Type*) where
  | receive
  | lockQueue (l : LaneId) (msg : Msg)
  | push (l : LaneId) (msg : Msg)
  | unlockQueue (l : LaneId)
  | set (l : LaneId) (pc : SetPc) (next : Next)
  | interrupt (l : LaneId)
  | join
  | deleted
deriving DecidableEq

/-- A queue, its mutex, its event and its processor. `pushed` and `processed` record the
messages put on the queue and those handled. -/
structure Lane (Msg : Type*) where
  mutex : Option Side
  queue : List Msg
  protect : Option Side
  flag : Bool
  interrupted : Bool
  messageWaiting : Bool
  pc : ProcessorPc Msg
  pushed : List Msg
  processed : List Msg

structure Connection (Msg : Type*) where
  receiver : ReceiverPc Msg
  lane : LaneId → Lane Msg

inductive ConnectionAct (Msg : Type*) where
  | message (msg : Msg)
  | closed
  | receiver
  | processor (l : LaneId)
  | spuriousWakeup (l : LaneId)

section Steps
variable {Msg : Type*}

def lockFor (side : Side) (m : Option Side) : Option (Option Side) :=
  if m = none then some (some side) else none

/-- One step of a processor thread. -/
def Lane.stepProcessor (q : Lane Msg) : Option (Lane Msg) :=
  match q.pc with
  | .check =>
    if q.interrupted then some { q with pc := .exited }
    else some { q with pc := if q.messageWaiting then .lockQueue else .waitLock }
  | .waitLock => (lockFor .processor q.protect).map fun m =>
    { q with protect := m, pc := .waitTest }
  | .waitTest => some { q with pc := if q.flag then .waitClear else .waitBlock }
  -- pthread_cond_wait gives up the mutex and blocks in one step
  | .waitBlock => some { q with protect := none, pc := .blocked }
  | .blocked => none
  | .woken => (lockFor .processor q.protect).map fun m => { q with protect := m, pc := .waitTest }
  | .waitClear => some { q with flag := false, pc := .waitUnlock }
  | .waitUnlock => some { q with protect := none, pc := .lockQueue }
  | .lockQueue => (lockFor .processor q.mutex).map fun m => { q with mutex := m, pc := .take }
  | .take =>
    match q.queue with
    | msg :: queue => some { q with
        queue := queue, messageWaiting := !queue.isEmpty, pc := .unlockQueue (some msg) }
    | [] => some { q with pc := .unlockQueue none }
  | .unlockQueue none => some { q with mutex := none, pc := .check }
  | .unlockQueue (some msg) => some { q with mutex := none, pc := .handle msg }
  | .handle msg => some { q with processed := q.processed ++ [msg], pc := .check }
  | .exited => none

/-- `pthread_cond_signal`: the one waiting thread, if there is one, wakes up. -/
def Lane.wake (q : Lane Msg) : Lane Msg :=
  match q.pc with
  | .blocked => { q with pc := .woken }
  | _ => q

/-- One step of `Set` on the event of a lane. -/
def Lane.stepSet (q : Lane Msg) : SetPc → Option (Lane Msg)
  | .lock => (lockFor .receiver q.protect).map fun m => { q with protect := m }
  | .flag => some { q with flag := true }
  | .unlock => some { q with protect := none }
  | .signal => some q.wake

def SetPc.next (l : LaneId) (next : Next) : SetPc → ReceiverPc Msg
  | lock => .set l flag next
  | flag => .set l unlock next
  | unlock => .set l signal next
  | signal =>
    match next with
    | .receive => .receive
    | .setSlow => .set .slow lock .join
    | .join => .join

namespace Connection

def onLane (c : Connection Msg) (l : LaneId) (r : ReceiverPc Msg) (q : Lane Msg) :
    Connection Msg := ⟨r, Function.update c.lane l q⟩

/-- One step of the receiver thread. -/
def stepReceiver (c : Connection Msg) : Option (Connection Msg) :=
  match c.receiver with
  | .receive => none
  | .lockQueue l msg => (lockFor .receiver (c.lane l).mutex).map fun m =>
    c.onLane l (.push l msg) { c.lane l with mutex := m }
  | .push l msg => some (c.onLane l (.unlockQueue l) { c.lane l with
      queue := (c.lane l).queue ++ [msg], pushed := (c.lane l).pushed ++ [msg] })
  | .unlockQueue l => some (c.onLane l (.set l .lock .receive) { c.lane l with mutex := none })
  | .set l pc next => ((c.lane l).stepSet pc).map fun q => c.onLane l (pc.next l next) q
  | .interrupt .fast =>
    some (c.onLane .fast (.interrupt .slow) { c.lane .fast with interrupted := true })
  | .interrupt .slow =>
    some (c.onLane .slow (.set .fast .lock .setSlow) { c.lane .slow with interrupted := true })
  | .join =>
    match (c.lane .fast).pc, (c.lane .slow).pc with
    | .exited, .exited => some { c with receiver := .deleted }
    | _, _ => none
  | .deleted => none

/-- `laneOf` says which queue a parsed message goes to. -/
def machine (laneOf : Msg → LaneId) : Machine (Connection Msg) (ConnectionAct Msg) where
  step c
    | .message msg =>
      match c.receiver with
      | .receive => some { c with receiver := .lockQueue (laneOf msg) msg }
      | _ => none
    | .closed =>
      match c.receiver with
      | .receive => some { c with receiver := .interrupt .fast }
      | _ => none
    | .receiver => c.stepReceiver
    | .processor l => ((c.lane l).stepProcessor).map fun q => c.onLane l c.receiver q
    | .spuriousWakeup l => some (c.onLane l c.receiver (c.lane l).wake)

def start : Connection Msg where
  receiver := .receive
  lane := fun _ => {
    mutex := none
    queue := []
    protect := none
    flag := false
    interrupted := false
    messageWaiting := false
    pc := .check
    pushed := []
    processed := [] }

end Connection

end Steps

section Invariant
variable {Msg : Type*}

namespace ProcessorPc

/-- The message taken off the queue and not yet handled. -/
def inHand : ProcessorPc Msg → List Msg
  | unlockQueue (some msg) | handle msg => [msg]
  | _ => []

def holdsProtect : ProcessorPc Msg → Bool
  | waitTest | waitBlock | waitClear | waitUnlock => true
  | _ => false

def holdsMutex : ProcessorPc Msg → Bool
  | take | unlockQueue _ => true
  | _ => false

/-- In `WaitOne`, before the flag is cleared. -/
def inWaitOne : ProcessorPc Msg → Bool
  | waitLock | waitTest | waitBlock | blocked | woken | waitClear => true
  | _ => false

/-- Between clearing the flag, or seeing that messages wait, and looking at the queue. -/
def aboutToTake : ProcessorPc Msg → Bool
  | waitUnlock | lockQueue | take => true
  | _ => false

end ProcessorPc

namespace ReceiverPc
variable (l : LaneId)

def holdsProtect : ReceiverPc Msg → Bool
  | set l' .flag _ | set l' .unlock _ => l' = l
  | _ => false

def holdsMutex : ReceiverPc Msg → Bool
  | push l' _ | unlockQueue l' => l' = l
  | _ => false

/-- Between a push on the queue of `l` and the moment its event is set. -/
def betweenPushAndSet : ReceiverPc Msg → Bool
  | unlockQueue l' | set l' .lock _ | set l' .flag _ => l' = l
  | _ => false

/-- The event of `l` is set and the waiting thread not yet signalled. -/
def owesSignal : ReceiverPc Msg → Bool
  | set l' .unlock _ | set l' .signal _ => l' = l
  | _ => false

end ReceiverPc

/-- The owner of a mutex, from what the two threads are doing. -/
def owner (receiver processor : Bool) : Option Side :=
  if receiver then some .receiver else if processor then some .processor else none

/-- What holds of a lane while the receiver is at `r`. -/
structure LaneInv (r : ReceiverPc Msg) (l : LaneId) (q : Lane Msg) : Prop where
  order : q.pushed = q.processed ++ q.pc.inHand ++ q.queue
  protect : q.protect = owner (r.holdsProtect l) q.pc.holdsProtect
  protectOne : r.holdsProtect l = true → q.pc.holdsProtect = false
  mutex : q.mutex = owner (r.holdsMutex l) q.pc.holdsMutex
  mutexOne : r.holdsMutex l = true → q.pc.holdsMutex = false
  waiting : q.messageWaiting = true → q.queue ≠ []
  idle : q.pc.inWaitOne = true ∨ q.pc = .waitUnlock → q.messageWaiting = false
  unset : q.pc = .waitBlock → q.flag = false
  owed : q.pc.aboutToTake = false → q.messageWaiting = false → q.queue ≠ [] →
    q.flag = true ∨ r.betweenPushAndSet l = true
  signalled : q.pc = .blocked → q.flag = true → r.owesSignal l = true

theorem lockFor_eq {side : Side} {m m' : Option Side} (h : lockFor side m = some m') :
    m = none ∧ m' = some side := by
  unfold lockFor at h
  split at h
  · next hm => exact ⟨hm, (Option.some.inj h).symm⟩
  · simp at h

theorem owner_eq_none {a b : Bool} (h : owner a b = none) : a = false ∧ b = false := by
  cases a <;> cases b <;> simp_all [owner]

theorem laneInv_processor {r : ReceiverPc Msg} {l : LaneId} {q q' : Lane Msg}
    (hi : LaneInv r l q) (h : q.stepProcessor = some q') : LaneInv r l q' := by
  obtain ⟨mutex, queue, protect, flag, interrupted, messageWaiting, pc, pushed, processed⟩ := q
  obtain ⟨horder, hprotect, hprotectOne, hmutex, hmutexOne, hwaiting, hidle, hunset, howed,
    hsignalled⟩ := hi
  cases pc with
  | check =>
    simp only [Lane.stepProcessor] at h
    split at h
    · obtain rfl := Option.some.inj h
      constructor
      all_goals first
        | assumption
        | simp_all [ProcessorPc.inHand, ProcessorPc.holdsProtect, ProcessorPc.holdsMutex,
            ProcessorPc.inWaitOne, ProcessorPc.aboutToTake]
    · obtain rfl := Option.some.inj h
      cases messageWaiting <;> constructor
      all_goals first
        | assumption
        | simp_all [ProcessorPc.inHand, ProcessorPc.holdsProtect, ProcessorPc.holdsMutex,
            ProcessorPc.inWaitOne, ProcessorPc.aboutToTake]
  | waitLock | woken =>
    simp only [Lane.stepProcessor] at h
    obtain ⟨m, hm, rfl⟩ := Option.map_eq_some_iff.mp h
    obtain ⟨hfree, rfl⟩ := lockFor_eq hm
    have hr := (owner_eq_none (hprotect.symm.trans hfree)).1
    constructor
    all_goals first
      | assumption
      | simp_all [owner, ProcessorPc.inHand, ProcessorPc.holdsProtect, ProcessorPc.holdsMutex,
          ProcessorPc.inWaitOne, ProcessorPc.aboutToTake]
  | waitTest =>
    simp only [Lane.stepProcessor] at h
    obtain rfl := Option.some.inj h
    cases flag <;> constructor
    all_goals first
      | assumption
      | simp_all [ProcessorPc.inHand, ProcessorPc.holdsProtect, ProcessorPc.holdsMutex,
          ProcessorPc.inWaitOne, ProcessorPc.aboutToTake]
  | waitBlock =>
    simp only [Lane.stepProcessor] at h
    obtain rfl := Option.some.inj h
    have hr : r.holdsProtect l = false := by
      by_contra hr
      simpa [ProcessorPc.holdsProtect] using hprotectOne (by simpa using hr)
    constructor
    all_goals first
      | assumption
      | simp_all [owner, ProcessorPc.inHand, ProcessorPc.holdsProtect, ProcessorPc.holdsMutex,
          ProcessorPc.inWaitOne, ProcessorPc.aboutToTake]
  | blocked | exited => simp [Lane.stepProcessor] at h
  | waitClear =>
    simp only [Lane.stepProcessor] at h
    obtain rfl := Option.some.inj h
    constructor
    all_goals first
      | assumption
      | simp_all [ProcessorPc.inHand, ProcessorPc.holdsProtect, ProcessorPc.holdsMutex,
          ProcessorPc.inWaitOne, ProcessorPc.aboutToTake]
  | waitUnlock =>
    simp only [Lane.stepProcessor] at h
    obtain rfl := Option.some.inj h
    have hr : r.holdsProtect l = false := by
      by_contra hr
      simpa [ProcessorPc.holdsProtect] using hprotectOne (by simpa using hr)
    constructor
    all_goals first
      | assumption
      | simp_all [owner, ProcessorPc.inHand, ProcessorPc.holdsProtect, ProcessorPc.holdsMutex,
          ProcessorPc.inWaitOne, ProcessorPc.aboutToTake]
  | lockQueue =>
    simp only [Lane.stepProcessor] at h
    obtain ⟨m, hm, rfl⟩ := Option.map_eq_some_iff.mp h
    obtain ⟨hfree, rfl⟩ := lockFor_eq hm
    have hr := (owner_eq_none (hmutex.symm.trans hfree)).1
    constructor
    all_goals first
      | assumption
      | simp_all [owner, ProcessorPc.inHand, ProcessorPc.holdsProtect, ProcessorPc.holdsMutex,
          ProcessorPc.inWaitOne, ProcessorPc.aboutToTake]
  | take =>
    simp only [Lane.stepProcessor] at h
    split at h
    · next msg queue hq =>
      obtain rfl := Option.some.inj h
      constructor
      all_goals first
        | assumption
        | simp_all [ProcessorPc.inHand, ProcessorPc.holdsProtect, ProcessorPc.holdsMutex,
            ProcessorPc.inWaitOne, ProcessorPc.aboutToTake]
    · next hq =>
      obtain rfl := Option.some.inj h
      constructor
      all_goals first
        | assumption
        | simp_all [ProcessorPc.inHand, ProcessorPc.holdsProtect, ProcessorPc.holdsMutex,
            ProcessorPc.inWaitOne, ProcessorPc.aboutToTake]
  | unlockQueue msg =>
    have hr : r.holdsMutex l = false := by
      by_contra hr
      simpa [ProcessorPc.holdsMutex] using hmutexOne (by simpa using hr)
    cases msg with
    | none =>
      simp only [Lane.stepProcessor] at h
      obtain rfl := Option.some.inj h
      constructor
      all_goals first
        | assumption
        | simp_all [owner, ProcessorPc.inHand, ProcessorPc.holdsProtect, ProcessorPc.holdsMutex,
            ProcessorPc.inWaitOne, ProcessorPc.aboutToTake]
    | some msg =>
      simp only [Lane.stepProcessor] at h
      obtain rfl := Option.some.inj h
      constructor
      all_goals first
        | assumption
        | simp_all [owner, ProcessorPc.inHand, ProcessorPc.holdsProtect, ProcessorPc.holdsMutex,
            ProcessorPc.inWaitOne, ProcessorPc.aboutToTake]
  | handle msg =>
    simp only [Lane.stepProcessor] at h
    obtain rfl := Option.some.inj h
    constructor
    all_goals first
      | assumption
      | simp_all [ProcessorPc.inHand, ProcessorPc.holdsProtect, ProcessorPc.holdsMutex,
          ProcessorPc.inWaitOne, ProcessorPc.aboutToTake]

theorem laneInv_wake {r : ReceiverPc Msg} {l : LaneId} {q : Lane Msg} (hi : LaneInv r l q) :
    LaneInv r l q.wake := by
  unfold Lane.wake
  split
  · next hpc =>
    obtain ⟨horder, hprotect, hprotectOne, hmutex, hmutexOne, hwaiting, hidle, hunset, howed,
      hsignalled⟩ := hi
    constructor
    all_goals first
      | assumption
      | simp_all [ProcessorPc.inHand, ProcessorPc.holdsProtect, ProcessorPc.holdsMutex,
          ProcessorPc.inWaitOne, ProcessorPc.aboutToTake]
  · exact hi

/-- A move of the receiver that concerns another lane, or only releases obligations. -/
theorem LaneInv.move {r r' : ReceiverPc Msg} {l : LaneId} {q : Lane Msg} (hi : LaneInv r l q)
    (hp : r'.holdsProtect l = r.holdsProtect l) (hm : r'.holdsMutex l = r.holdsMutex l)
    (hb : r.betweenPushAndSet l = true → r'.betweenPushAndSet l = true)
    (hs : r.owesSignal l = true → r'.owesSignal l = true ∨ q.pc ≠ .blocked) :
    LaneInv r' l q := by
  obtain ⟨horder, hprotect, hprotectOne, hmutex, hmutexOne, hwaiting, hidle, hunset, howed,
    hsignalled⟩ := hi
  constructor
  case owed =>
    intro hpc hw hq
    exact (howed hpc hw hq).imp id hb
  case signalled =>
    intro hpc hf
    exact (hs (hsignalled hpc hf)).resolve_right (fun h => h hpc)
  all_goals simp_all

theorem laneInv_set {l : LaneId} {q q' : Lane Msg} {pc : SetPc} {next : Next}
    (hi : LaneInv (.set l pc next) l q) (h : q.stepSet pc = some q') :
    LaneInv (pc.next l next) l q' := by
  cases pc with
  | lock =>
    obtain ⟨horder, hprotect, hprotectOne, hmutex, hmutexOne, hwaiting, hidle, hunset, howed,
      hsignalled⟩ := hi
    obtain ⟨m, hm, rfl⟩ := Option.map_eq_some_iff.mp h
    obtain ⟨hfree, rfl⟩ := lockFor_eq hm
    have hp := (owner_eq_none (hprotect.symm.trans hfree)).2
    constructor
    all_goals first
      | assumption
      | simp_all [SetPc.next, owner, ReceiverPc.holdsProtect, ReceiverPc.holdsMutex,
          ReceiverPc.betweenPushAndSet, ReceiverPc.owesSignal]
  | flag =>
    obtain ⟨horder, hprotect, hprotectOne, hmutex, hmutexOne, hwaiting, hidle, hunset, howed,
      hsignalled⟩ := hi
    obtain rfl := Option.some.inj h
    have hfree : q.pc.holdsProtect = false := hprotectOne (by simp [ReceiverPc.holdsProtect])
    constructor
    all_goals first
      | assumption
      | simp_all [SetPc.next, owner, ReceiverPc.holdsProtect, ReceiverPc.holdsMutex,
          ReceiverPc.betweenPushAndSet, ReceiverPc.owesSignal]
    intro hpc
    simp [hpc, ProcessorPc.holdsProtect] at hfree
  | unlock =>
    obtain ⟨horder, hprotect, hprotectOne, hmutex, hmutexOne, hwaiting, hidle, hunset, howed,
      hsignalled⟩ := hi
    obtain rfl := Option.some.inj h
    constructor
    all_goals first
      | assumption
      | simp_all [SetPc.next, owner, ReceiverPc.holdsProtect, ReceiverPc.holdsMutex,
          ReceiverPc.betweenPushAndSet, ReceiverPc.owesSignal]
  | signal =>
    obtain rfl := Option.some.inj h
    have hawake : q.wake.pc ≠ .blocked := by
      unfold Lane.wake
      split <;> simp_all
    refine (laneInv_wake hi).move ?_ ?_ ?_ fun _ => Or.inr hawake
    all_goals cases next <;> simp [SetPc.next, ReceiverPc.holdsProtect, ReceiverPc.holdsMutex,
      ReceiverPc.betweenPushAndSet]

/-- The receiver is at a step that concerns no lane but `l₀`. -/
def ReceiverPc.Only (l₀ : LaneId) (r : ReceiverPc Msg) : Prop :=
  ∀ l ≠ l₀, r.holdsProtect l = false ∧ r.holdsMutex l = false ∧
    r.betweenPushAndSet l = false ∧ r.owesSignal l = false

/-- The lane that the receiver is working on. -/
def ReceiverPc.lane : ReceiverPc Msg → Option LaneId
  | lockQueue l _ | push l _ | unlockQueue l | set l _ _ => some l
  | _ => none

theorem ReceiverPc.only_of_lane {r : ReceiverPc Msg} {l₀ : LaneId} (h : ∀ l ∈ r.lane, l = l₀) :
    r.Only l₀ := by
  intro l hl
  cases r with
  | set l' pc next =>
    have hne : l' ≠ l := fun he => hl (he ▸ h l' rfl)
    cases pc <;> simp [holdsProtect, holdsMutex, betweenPushAndSet, owesSignal, hne]
  | lockQueue l' msg | push l' msg | unlockQueue l' =>
    have hne : l' ≠ l := fun he => hl (he ▸ h l' rfl)
    simp [holdsProtect, holdsMutex, betweenPushAndSet, owesSignal, hne]
  | _ => simp [holdsProtect, holdsMutex, betweenPushAndSet, owesSignal]

/-- A step of the receiver on one lane leaves the other as it is. -/
theorem laneInv_onLane {c : Connection Msg} {l₀ : LaneId} {r' : ReceiverPc Msg} {q' : Lane Msg}
    (hi : ∀ l, LaneInv c.receiver l (c.lane l)) (hr : c.receiver.Only l₀)
    (hr' : ∀ l ≠ l₀, r'.holdsProtect l = false ∧ r'.holdsMutex l = false)
    (hq : LaneInv r' l₀ q') (l : LaneId) :
    LaneInv (c.onLane l₀ r' q').receiver l ((c.onLane l₀ r' q').lane l) := by
  by_cases hl : l = l₀
  · subst hl
    simpa [Connection.onLane] using hq
  · obtain ⟨hp, hm, hb, hs⟩ := hr l hl
    obtain ⟨hp', hm'⟩ := hr' l hl
    simp only [Connection.onLane, Function.update_of_ne hl]
    exact (hi l).move (hp'.trans hp.symm) (hm'.trans hm.symm) (by simp [hb]) (by simp [hs])

theorem laneInv_lockQueue {l : LaneId} {msg : Msg} {q : Lane Msg} {m : Option Side}
    (hi : LaneInv (.lockQueue l msg) l q) (h : lockFor .receiver q.mutex = some m) :
    LaneInv (.push l msg) l { q with mutex := m } := by
  obtain ⟨horder, hprotect, hprotectOne, hmutex, hmutexOne, hwaiting, hidle, hunset, howed,
    hsignalled⟩ := hi
  obtain ⟨hfree, rfl⟩ := lockFor_eq h
  have hp := (owner_eq_none (hmutex.symm.trans hfree)).2
  constructor
  all_goals first
    | assumption
    | simp_all [owner, ReceiverPc.holdsProtect, ReceiverPc.holdsMutex, ReceiverPc.betweenPushAndSet,
        ReceiverPc.owesSignal]

theorem laneInv_push {l : LaneId} {msg : Msg} {q : Lane Msg} (hi : LaneInv (.push l msg) l q) :
    LaneInv (.unlockQueue l) l
      { q with queue := q.queue ++ [msg], pushed := q.pushed ++ [msg] } := by
  obtain ⟨horder, hprotect, hprotectOne, hmutex, hmutexOne, hwaiting, hidle, hunset, howed,
    hsignalled⟩ := hi
  constructor
  all_goals first
    | assumption
    | simp_all [owner, ReceiverPc.holdsProtect, ReceiverPc.holdsMutex, ReceiverPc.betweenPushAndSet,
        ReceiverPc.owesSignal]

theorem laneInv_unlockQueue {l : LaneId} {q : Lane Msg} (hi : LaneInv (.unlockQueue l) l q) :
    LaneInv (.set l .lock .receive) l { q with mutex := none } := by
  obtain ⟨horder, hprotect, hprotectOne, hmutex, hmutexOne, hwaiting, hidle, hunset, howed,
    hsignalled⟩ := hi
  constructor
  all_goals first
    | assumption
    | simp_all [owner, ReceiverPc.holdsProtect, ReceiverPc.holdsMutex, ReceiverPc.betweenPushAndSet,
        ReceiverPc.owesSignal]

theorem laneInv_interrupt {r : ReceiverPc Msg} {l : LaneId} {q : Lane Msg} (hi : LaneInv r l q) :
    LaneInv r l { q with interrupted := true } := by
  obtain ⟨horder, hprotect, hprotectOne, hmutex, hmutexOne, hwaiting, hidle, hunset, howed,
    hsignalled⟩ := hi
  constructor <;> assumption

theorem laneInv_receiver {c c' : Connection Msg} (hi : ∀ l, LaneInv c.receiver l (c.lane l))
    (h : c.stepReceiver = some c') : ∀ l, LaneInv c'.receiver l (c'.lane l) := by
  have hone : ∀ {l₀ r}, c.receiver = r → LaneInv r l₀ (c.lane l₀) := fun hr => hr ▸ hi _
  unfold Connection.stepReceiver at h
  split at h
  case h_1 | h_9 => simp at h
  case h_2 l₀ msg hr =>
    obtain ⟨m, hm, rfl⟩ := Option.map_eq_some_iff.mp h
    refine laneInv_onLane hi (ReceiverPc.only_of_lane (by simp [hr, ReceiverPc.lane])) ?_
      (laneInv_lockQueue (hone hr) hm)
    simp +contextual [ReceiverPc.holdsProtect, ReceiverPc.holdsMutex, eq_comm]
  case h_3 l₀ msg hr =>
    obtain rfl := Option.some.inj h
    refine laneInv_onLane hi (ReceiverPc.only_of_lane (by simp [hr, ReceiverPc.lane])) ?_
      (laneInv_push (hone hr))
    simp +contextual [ReceiverPc.holdsProtect, ReceiverPc.holdsMutex, eq_comm]
  case h_4 l₀ hr =>
    obtain rfl := Option.some.inj h
    refine laneInv_onLane hi (ReceiverPc.only_of_lane (by simp [hr, ReceiverPc.lane])) ?_
      (laneInv_unlockQueue (hone hr))
    simp [ReceiverPc.holdsProtect, ReceiverPc.holdsMutex]
  case h_5 l₀ pc next hr =>
    obtain ⟨q, hq, rfl⟩ := Option.map_eq_some_iff.mp h
    refine laneInv_onLane hi (ReceiverPc.only_of_lane (by simp [hr, ReceiverPc.lane])) ?_
      (laneInv_set (hone hr) hq)
    cases pc <;> cases next <;>
      simp +contextual [SetPc.next, ReceiverPc.holdsProtect, ReceiverPc.holdsMutex, eq_comm]
  case h_6 hr =>
    obtain rfl := Option.some.inj h
    refine laneInv_onLane hi (ReceiverPc.only_of_lane (by simp [hr, ReceiverPc.lane]))
      (by simp [ReceiverPc.holdsProtect, ReceiverPc.holdsMutex]) ?_
    refine (laneInv_interrupt (hone hr)).move rfl rfl ?_ ?_ <;>
      simp [ReceiverPc.betweenPushAndSet, ReceiverPc.owesSignal]
  case h_7 hr =>
    obtain rfl := Option.some.inj h
    refine laneInv_onLane hi (ReceiverPc.only_of_lane (by simp [hr, ReceiverPc.lane]))
      (by simp [ReceiverPc.holdsProtect, ReceiverPc.holdsMutex]) ?_
    refine (laneInv_interrupt (hone hr)).move rfl rfl ?_ ?_ <;>
      simp [ReceiverPc.betweenPushAndSet, ReceiverPc.owesSignal]
  case h_8 hr =>
    split at h
    · obtain rfl := Option.some.inj h
      intro l
      refine (hi l).move ?_ ?_ ?_ ?_ <;> simp [hr, ReceiverPc.holdsProtect, ReceiverPc.holdsMutex,
        ReceiverPc.betweenPushAndSet, ReceiverPc.owesSignal]
    · simp at h

theorem laneInv_machine (laneOf : Msg → LaneId) (c : Connection Msg) (a : ConnectionAct Msg)
    (c' : Connection Msg) (hi : ∀ l, LaneInv c.receiver l (c.lane l))
    (h : (Connection.machine laneOf).step c a = some c') :
    ∀ l, LaneInv c'.receiver l (c'.lane l) := by
  cases a with
  | message msg | closed =>
    simp only [Connection.machine] at h
    split at h
    · next hr =>
      obtain rfl := Option.some.inj h
      intro l
      refine (hi l).move ?_ ?_ ?_ ?_ <;> simp [hr, ReceiverPc.holdsProtect, ReceiverPc.holdsMutex,
        ReceiverPc.betweenPushAndSet, ReceiverPc.owesSignal]
    · simp at h
  | receiver => exact laneInv_receiver hi h
  | processor l₀ =>
    obtain ⟨q, hq, rfl⟩ := Option.map_eq_some_iff.mp h
    intro l
    by_cases hl : l = l₀
    · subst hl
      simpa [Connection.onLane] using laneInv_processor (hi l) hq
    · simpa [Connection.onLane, hl] using hi l
  | spuriousWakeup l₀ =>
    obtain rfl := Option.some.inj h
    intro l
    by_cases hl : l = l₀
    · subst hl
      simpa [Connection.onLane] using laneInv_wake (hi l)
    · simpa [Connection.onLane, hl] using hi l

theorem laneInv_start (l : LaneId) :
    LaneInv (Connection.start : Connection Msg).receiver l (Connection.start.lane l) := by
  constructor <;> simp [Connection.start, ProcessorPc.inHand, ProcessorPc.holdsProtect,
    ProcessorPc.holdsMutex, ReceiverPc.holdsProtect, ReceiverPc.holdsMutex, owner]

/-- In every interleaving a processor has handled a prefix of what was pushed on its queue, in
order; and if it is in `WaitOne` on an unset event while the queue holds a message, the
receiver is between its push and its `Set`. A processor still asleep on a set event is
about to be signalled. -/
theorem queue_delivery (laneOf : Msg → LaneId) (acts : List (ConnectionAct Msg))
    {c : Connection Msg} (hr : (Connection.machine laneOf).run Connection.start acts = some c)
    (l : LaneId) :
    (c.lane l).processed <+: (c.lane l).pushed ∧
      (c.lane l).pushed = (c.lane l).processed ++ (c.lane l).pc.inHand ++ (c.lane l).queue ∧
      ((c.lane l).pc.inWaitOne = true → (c.lane l).flag = false → (c.lane l).queue ≠ [] →
        c.receiver.betweenPushAndSet l = true) ∧
      ((c.lane l).pc = .blocked → (c.lane l).flag = true → c.receiver.owesSignal l = true) := by
  have hi : LaneInv c.receiver l (c.lane l) :=
    Machine.run_invariant (laneInv_machine laneOf) laneInv_start hr l
  refine ⟨⟨(c.lane l).pc.inHand ++ (c.lane l).queue, ?_⟩, hi.order, fun hpc hf hq => ?_,
    hi.signalled⟩
  · rw [hi.order, List.append_assoc]
  · have hnot : (c.lane l).pc.aboutToTake = false := by
      cases hp : (c.lane l).pc <;> simp_all [ProcessorPc.inWaitOne, ProcessorPc.aboutToTake]
    have howed := hi.owed hnot (hi.idle (Or.inl hpc)) hq
    simpa [hf] using howed

/-- The fast processor falls asleep, then a message is pushed on its queue. -/
def sampleActs : List (ConnectionAct ℕ) :=
  List.replicate 4 (.processor .fast) ++ [.message 1, .receiver, .receiver]

def sampleConnection : Connection ℕ :=
  ((Connection.machine fun _ => .fast).run Connection.start sampleActs).getD Connection.start

theorem queue_delivery_sample :
    (sampleConnection.lane .fast).pc = .blocked ∧
      (sampleConnection.lane .fast).processed <+: (sampleConnection.lane .fast).pushed ∧
      sampleConnection.receiver.betweenPushAndSet .fast = true := by
  obtain ⟨hordered, -, hpending, -⟩ :=
    queue_delivery (fun _ => .fast) sampleActs (c := sampleConnection) rfl .fast
  exact ⟨rfl, hordered, hpending rfl rfl (by decide)⟩

end Invariant

end V2IHub.Core
