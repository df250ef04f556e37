import V2IHub.Utils.SignalTime

/-! What an `Intersection` answers from the SPAT that it keeps: the light of a signal group, the time
that is left for it, and whether a pedestrian is reported for a connection. -/
namespace V2IHub.Utils.SpatQueries
open Foundation Spat

structure MovementEvent where
  eventState : ℤ
  /-- `timing->minEndTime`, where there is a timing. -/
  minEndTime : Option ℤ
deriving DecidableEq

structure MovementState where
  signalGroup : ℤ
  state_time_speed : List MovementEvent
deriving DecidableEq

structure IntersectionState where
  id : ℤ
  moy : Option ℤ
  timeStamp : Option ℤ
  states : List MovementState
  maneuverAssistList : Option (List ConnectionManeuverAssist)
deriving DecidableEq

/-- `FindIntersections` of a message: none without any contents. -/
abbrev SpatMessage := Option (List IntersectionState)

inductive Signal where
  | Unknown | Green | Yellow | Red
deriving DecidableEq

/-- The part of an `Intersection` that the queries read. -/
structure Intersection where
  isSpatLoaded : Bool
  isMapLoaded : Bool
  intersectionId : ℤ
  spatMsg : SpatMessage
  lastSpatTime : ℕ

def signal (eventState : ℤ) : Signal :=
  if eventState = 5 ∨ eventState = 6 then .Green
  else if eventState = 9 ∨ eventState = 7 ∨ eventState = 8 then .Yellow
  else if eventState = 3 ∨ eventState = 2 then .Red
  else .Unknown

/-- The first item of the nested loops over the intersections and over what they hold. -/
def firstItem {α : Type} (items : IntersectionState → List α) (p : α → Bool)
    (interX : List IntersectionState) : Option (IntersectionState × α) :=
  (interX.flatMap fun state => (items state).map fun item => (state, item)).find? fun i => p i.2

def findMovement (signalGroupId : ℤ) : List IntersectionState →
    Option (IntersectionState × MovementState) :=
  firstItem IntersectionState.states fun movement => movement.signalGroup = signalGroupId

def findAssist (connectionId : ℤ) : List IntersectionState →
    Option (IntersectionState × ConnectionManeuverAssist) :=
  firstItem (fun state => state.maneuverAssistList.getD [])
    fun cma => cma.connectionID = connectionId

/-- What is read of the movement; `none` is an access outside of the list of events, or through a
timing that is not there. -/
def movementSignal : Option (IntersectionState × MovementState) → Option Signal
  | none => some .Unknown
  | some (_, movement) => movement.state_time_speed.head?.map fun event => signal event.eventState

def movementTime (processTime now : ℕ) : Option (IntersectionState × MovementState) → Option ℚ
  | none => some (-1)
  | some (state, movement) => do
    let event ← movement.state_time_speed.head?
    let minTime ← event.minEndTime
    let timeDiff := match state.moy, state.timeStamp with
      | some moy, some timeStamp => (messageDiff moy timeStamp minTime - processTime).bmod (2 ^ 64)
      | _, _ => clockDiff (adjustedTime now 0) minTime
    some (Binary64.round (Binary64.round timeDiff / 10))

def assistReport : Option (IntersectionState × ConnectionManeuverAssist) → Bool
  | none => false
  | some (_, cma) => cma.pedBicycleDetect.isSome

namespace Intersection

def doesSpatMatchMap (x : Intersection) (msg : SpatMessage) : Bool :=
  x.isMapLoaded && (msg.getD []).any fun state => state.id = x.intersectionId

def updateSpat (x : Intersection) (msg : SpatMessage) (now : ℕ) : Bool × Intersection :=
  if x.doesSpatMatchMap msg then
    (true, { x with spatMsg := msg, lastSpatTime := now, isSpatLoaded := true })
  else (false, x)

def getSignalForSignalGroup (x : Intersection) (signalGroupId : ℤ) : Option Signal :=
  if signalGroupId < 0 then some .Unknown
  else movementSignal (findMovement signalGroupId (x.spatMsg.getD []))

/-- The tenths of a second since the message came. -/
def processTime (x : Intersection) (msTimeSinceEpoch : ℕ) : ℕ :=
  (2 ^ 64 + msTimeSinceEpoch - x.lastSpatTime) % 2 ^ 64 / 100

/-- `now` is the instant that `getAdjustedTime` reads. -/
def timeRemainingForSignalGroup (x : Intersection) (msTimeSinceEpoch now : ℕ) (signalGroupId : ℤ) :
    Option ℚ :=
  if !x.isSpatLoaded || !x.isMapLoaded then some (-1)
  else movementTime (x.processTime msTimeSinceEpoch) now
    (findMovement signalGroupId (x.spatMsg.getD []))

def isPedestrianReportedForConnectionId (x : Intersection) (connectionId : ℤ) : Bool :=
  if !x.isSpatLoaded then false
  else assistReport (findAssist connectionId (x.spatMsg.getD []))

/-- The intersections of the message that are the one of the map. -/
def ownStates (x : Intersection) : List IntersectionState :=
  (x.spatMsg.getD []).filter fun state => state.id = x.intersectionId

/-- The intersection with no other one in its message. -/
def alone (x : Intersection) : Intersection := { x with spatMsg := some x.ownStates }

end Intersection

section FirstItem
variable {α : Type} {items : IntersectionState → List α} {p : α → Bool}
  {interX : List IntersectionState} {id : ℤ}

/-- If the first item of all is in an intersection with that id, it is also the first one among
those. -/
theorem firstItem_filter_of_own {state : IntersectionState} {item : α}
    (hfirst : firstItem items p interX = some (state, item)) (hown : state.id = id) :
    firstItem items p (interX.filter fun s => s.id = id) = some (state, item) := by
  induction interX with
  | nil => cases hfirst
  | cons s interX ih =>
    rw [firstItem, List.flatMap_cons, List.find?_append] at hfirst
    cases hhere : ((items s).map fun item => (s, item)).find? fun i => p i.2 with
    | some i =>
      rw [hhere, Option.some_or] at hfirst
      obtain rfl : i = (state, item) := Option.some.inj hfirst
      obtain ⟨_, -, heq⟩ := List.mem_map.mp (List.mem_of_find?_eq_some hhere)
      obtain rfl : s = state := congrArg Prod.fst heq
      rw [List.filter_cons_of_pos (by simpa using hown), firstItem, List.flatMap_cons,
        List.find?_append, hhere, Option.some_or]
    | none =>
      rw [hhere, Option.none_or] at hfirst
      by_cases hs : s.id = id
      · rw [List.filter_cons_of_pos (by simpa using hs), firstItem, List.flatMap_cons,
          List.find?_append, hhere, Option.none_or]
        exact ih hfirst
      · rw [List.filter_cons_of_neg (by simpa using hs)]
        exact ih hfirst

/-- Without any item, there is none in the intersections with that id. -/
theorem firstItem_filter_of_none (hnone : firstItem items p interX = none) :
    firstItem items p (interX.filter fun s => s.id = id) = none := by
  rw [firstItem, List.find?_eq_none] at hnone ⊢
  intro i hi
  obtain ⟨s, hs, hmem⟩ := List.mem_flatMap.mp hi
  exact hnone i (List.mem_flatMap.mpr ⟨s, List.mem_of_mem_filter hs, hmem⟩)

/-- What is read of the first item is what is read of the first one with that id, exactly if that is
where the first one is, or if it reads the same. -/
theorem read_firstItem_iff {β : Type} (read : Option (IntersectionState × α) → β) :
    read (firstItem items p interX) =
        read (firstItem items p (interX.filter fun s => s.id = id)) ↔
      ∀ state item, firstItem items p interX = some (state, item) → state.id = id ∨
        read (some (state, item)) =
          read (firstItem items p (interX.filter fun s => s.id = id)) := by
  cases hfirst : firstItem items p interX with
  | none => simp [firstItem_filter_of_none hfirst]
  | some i =>
    obtain ⟨state, item⟩ := i
    simp only [Option.some.injEq, Prod.mk.injEq, and_imp, forall_apply_eq_imp_iff, forall_eq']
    refine ⟨.inr, ?_⟩
    rintro (hown | hsame)
    · rw [firstItem_filter_of_own hfirst hown]
    · exact hsame

end FirstItem

namespace Intersection

/-- The first item for the query is in the intersection of the map, or it reads the same as there. -/
def FirstIsOwn {α β : Type} (x : Intersection)
    (find : List IntersectionState → Option (IntersectionState × α))
    (read : Option (IntersectionState × α) → β) : Prop :=
  ∀ state item, find (x.spatMsg.getD []) = some (state, item) →
    state.id = x.intersectionId ∨ read (some (state, item)) = read (find x.ownStates)

/-- All three queries of an object answer as if the intersection of the map were alone. -/
def AnswersOwn (x : Intersection) (msTimeSinceEpoch now : ℕ) (signalGroupId connectionId : ℤ) :
    Prop :=
  x.getSignalForSignalGroup signalGroupId = x.alone.getSignalForSignalGroup signalGroupId ∧
    x.timeRemainingForSignalGroup msTimeSinceEpoch now signalGroupId =
      x.alone.timeRemainingForSignalGroup msTimeSinceEpoch now signalGroupId ∧
    x.isPedestrianReportedForConnectionId connectionId =
      x.alone.isPedestrianReportedForConnectionId connectionId

/-- If the intersection of the map is not in the message, what it answers alone is that nothing was
found. -/
theorem alone_not_found {x : Intersection} (hnone : x.ownStates = []) (msTimeSinceEpoch now : ℕ)
    (signalGroupId connectionId : ℤ) :
    x.alone.getSignalForSignalGroup signalGroupId = some .Unknown ∧
      x.alone.timeRemainingForSignalGroup msTimeSinceEpoch now signalGroupId = some (-1) ∧
      x.alone.isPedestrianReportedForConnectionId connectionId = false := by
  refine ⟨?_, ?_, ?_⟩
  · rw [getSignalForSignalGroup, alone, hnone]
    exact ite_self _
  · rw [timeRemainingForSignalGroup, alone, hnone]
    exact ite_self _
  · rw [isPedestrianReportedForConnectionId, alone, hnone]
    exact ite_self _

/-- The map of intersection 7, and a message with intersection 3 before it. -/
def sampleIntersection : Intersection := ⟨false, true, 7, none, 0⟩

def sampleSpat : SpatMessage := some
  [⟨3, none, none, [⟨1, [⟨6, some 100⟩]⟩], none⟩, ⟨7, none, none, [⟨1, [⟨3, some 300⟩]⟩], none⟩]

end Intersection

end V2IHub.Utils.SpatQueries
