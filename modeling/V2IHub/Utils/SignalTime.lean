import V2IHub.Spat.Movements

/-! `TimeRemainingForSignalGroup` of an `Intersection`: the time until a movement ends, from the
end times that `getAdjustedTime` has written into the SPAT. -/
namespace V2IHub.Utils
open Foundation Spat

section TimeRemaining

/-- The difference from the time of the message, in tenths of a second. -/
def messageDiff (moy timeStamp minTime : ℤ) : ℤ :=
  let mohc := minTime.tdiv 600
  let mohb := moy - moy.tdiv 60 * 60
  let dsohb := mohb * 60 * 10 + timeStamp.tdiv 100
  let mdiff := if mohb > mohc then mohc + 60 - mohb else mohc - mohb
  if dsohb > minTime then (mdiff - 1) * 600 + (minTime + 600 - dsohb)
  else mdiff * 600 + minTime - dsohb

/-- The difference from the clock. -/
def clockDiff (currentTime minTime : ℤ) : ℤ :=
  let timeDiff := minTime - currentTime
  if timeDiff < 0 then -1 * timeDiff else timeDiff

/-- The time is that of the message if it has one. -/
def timeDiff (state : IntersectionState) (minTime : ℤ) (processTime now : ℕ) : ℤ :=
  match state.moy, state.timeStamp with
  | some moy, some timeStamp => messageDiff moy timeStamp minTime - processTime
  | _, _ => clockDiff (adjustedTime now 0) minTime

/-- The first movement of the signal group. -/
def findMovement (interX : List IntersectionState) (signalGroupId : ℤ) :
    Option (IntersectionState × MovementState) :=
  (interX.flatMap fun state => state.states.map fun movement => (state, movement)).find? fun p =>
    p.2.signalGroup = signalGroupId

/-- `none` is an access outside of the list of events. -/
def timeRemainingForSignalGroup (isSpatLoaded isMapLoaded : Bool)
    (interX : Option (List IntersectionState)) (processTime now : ℕ) (signalGroupId : ℤ) :
    Option ℚ :=
  if !isSpatLoaded || !isMapLoaded then some (-1)
  else
    match findMovement (interX.getD []) signalGroupId with
    | none => some (-1)
    | some (state, movement) =>
      movement.state_time_speed.head?.map fun event =>
        Binary64.round (timeDiff state event.timing.minEndTime processTime now / 10)

theorem timeDiff_clock {state : IntersectionState} {minTime : ℤ} {processTime now : ℕ}
    (h : state.moy = none ∨ state.timeStamp = none) :
    timeDiff state minTime processTime now = clockDiff (adjustedTime now 0) minTime := by
  unfold timeDiff
  rcases h with h | h <;> rw [h]
  cases state.moy <;> rfl

theorem timeRemaining_of_found {interX : List IntersectionState} {state : IntersectionState}
    {movement : MovementState} {event : MovementEvent} {events : List MovementEvent}
    {processTime now : ℕ} {signalGroupId : ℤ}
    (hfound : findMovement interX signalGroupId = some (state, movement))
    (hevent : movement.state_time_speed = event :: events) :
    timeRemainingForSignalGroup true true (some interX) processTime now signalGroupId =
      some (Binary64.round (timeDiff state event.timing.minEndTime processTime now / 10)) := by
  simp [timeRemainingForSignalGroup, hfound, hevent]

end TimeRemaining

section Inversion
variable {moy timeStamp minTime : ℤ} {now countdown tm_yday : ℕ}

/-- The minute and the tenths of the hour that the message time stands for. -/
def messageTenths (moy timeStamp : ℤ) : ℤ := moy % 60 * 600 + timeStamp / 100

/-- The difference of the minutes is counted on top of the whole difference. -/
theorem messageDiff_eq (hmoy : 0 ≤ moy) (hstamp : 0 ≤ timeStamp) (hmin : 0 ≤ minTime) :
    messageDiff moy timeStamp minTime =
      (minTime / 600 - moy % 60 + if moy % 60 > minTime / 600 then 60 else 0) * 600 +
        (minTime - messageTenths moy timeStamp) := by
  have hminutes : moy - moy / 60 * 60 = moy % 60 := by omega
  simp only [messageDiff, messageTenths, Int.tdiv_eq_ediv_of_nonneg hmoy,
    Int.tdiv_eq_ediv_of_nonneg hstamp, Int.tdiv_eq_ediv_of_nonneg hmin, hminutes]
  split_ifs <;> ring

theorem messageDiff_mod_iff (hmoy : 0 ≤ moy) (hstamp : 0 ≤ timeStamp ∧ timeStamp < 60000)
    (hmin : 0 ≤ minTime ∧ minTime < 36000) :
    messageDiff moy timeStamp minTime = (minTime - messageTenths moy timeStamp) % 36000 ↔
      minTime / 600 = moy % 60 ∧ messageTenths moy timeStamp ≤ minTime := by
  rw [messageDiff_eq hmoy hstamp.1 hmin.1]
  unfold messageTenths
  split_ifs <;> omega

theorem clockDiff_mod_iff {currentTime : ℤ} (hcurrent : 0 ≤ currentTime ∧ currentTime < 36000)
    (hmin : 0 ≤ minTime ∧ minTime < 36000) :
    clockDiff currentTime minTime = (minTime - currentTime) % 36000 ↔
      currentTime ≤ minTime ∨ currentTime = minTime + 18000 := by
  unfold clockDiff
  dsimp only
  split_ifs <;> omega

/-- The message time is the tenth of the hour at which the message was made. -/
theorem messageTenths_eq (now tm_yday : ℕ) :
    messageTenths (minOfYear now tm_yday) (msOfMin now) = (epochTenths now % 36000 : ℕ) := by
  simp only [messageTenths, minOfYear, msOfMin, epochTenths, HOUR, MINUTE, SECOND, MILLISECOND,
    Nat.reduceMul]
  omega

theorem minOfYear_mod (now tm_yday : ℕ) :
    (minOfYear now tm_yday : ℤ) % 60 = (epochTenths now % 36000 / 600 : ℕ) := by
  simp only [minOfYear, epochTenths, HOUR, MINUTE, SECOND, MILLISECOND, Nat.reduceMul]
  omega

theorem msOfMin_lt (now : ℕ) : msOfMin now < 60000 := by
  unfold msOfMin
  omega

theorem messageDiff_adjusted_iff (tm_yday : ℕ) (hcountdown : countdown < 36000) :
    messageDiff (minOfYear now tm_yday) (msOfMin now) (adjustedTime now countdown) = countdown ↔
      epochTenths now % 600 + countdown < 600 := by
  have htenths := messageTenths_eq now tm_yday
  have hminute := minOfYear_mod now tm_yday
  have hadjusted := adjustedTime_eq now countdown
  have hms := msOfMin_lt now
  have hmod : (adjustedTime now countdown - messageTenths (minOfYear now tm_yday) (msOfMin now)) %
      36000 = countdown := by
    rw [htenths, hadjusted]
    generalize epochTenths now = tenths
    omega
  have hmoy : (0 : ℤ) ≤ minOfYear now tm_yday := Int.natCast_nonneg _
  have hstamp : (0 : ℤ) ≤ msOfMin now ∧ (msOfMin now : ℤ) < 60000 := by omega
  have hmin : 0 ≤ adjustedTime now countdown ∧ adjustedTime now countdown < 36000 := by
    rw [hadjusted]
    omega
  have hiff := messageDiff_mod_iff hmoy hstamp hmin
  rw [hmod] at hiff
  rw [hiff, htenths, hminute, hadjusted]
  generalize epochTenths now = tenths
  omega

theorem clockDiff_adjusted_iff (hcountdown : countdown < 36000) :
    clockDiff (adjustedTime now 0) (adjustedTime now countdown) = countdown ↔
      epochTenths now % 36000 + countdown < 36000 ∨ countdown = 18000 := by
  rw [adjustedTime_eq, adjustedTime_eq]
  generalize epochTenths now = tenths
  unfold clockDiff
  dsimp only
  split_ifs <;> omega

/-- The time that is left comes out right only within a minute of the message time, and only
within an hour of the clock. -/
theorem timeDiff_iff (moy timeStamp minEndTime : ℤ) (hmoy : 0 ≤ moy)
    (hstamp : 0 ≤ timeStamp ∧ timeStamp < 60000) (hmin : 0 ≤ minEndTime ∧ minEndTime < 36000)
    (now processTime tm_yday countdown : ℕ) (hcountdown : countdown < 36000)
    (state : IntersectionState) :
    (state.moy = some moy → state.timeStamp = some timeStamp →
      (timeDiff state minEndTime processTime now + processTime =
          (minEndTime - messageTenths moy timeStamp) % 36000 ↔
        minEndTime / 600 = moy % 60 ∧ messageTenths moy timeStamp ≤ minEndTime)) ∧
    (state.moy = none ∨ state.timeStamp = none →
      (timeDiff state minEndTime processTime now =
          (minEndTime - (epochTenths now % 36000 : ℕ)) % 36000 ↔
        (epochTenths now % 36000 : ℕ) ≤ minEndTime ∨
          (epochTenths now % 36000 : ℕ) = minEndTime + 18000)) ∧
    (state.moy = some (minOfYear now tm_yday : ℤ) → state.timeStamp = some (msOfMin now : ℤ) →
      (timeDiff state (adjustedTime now countdown) processTime now + processTime = countdown ↔
        epochTenths now % 600 + countdown < 600)) ∧
    (state.moy = none ∨ state.timeStamp = none →
      (timeDiff state (adjustedTime now countdown) processTime now = countdown ↔
        epochTenths now % 36000 + countdown < 36000 ∨ countdown = 18000)) := by
  refine ⟨fun hm ht => ?_, fun hnone => ?_, fun hm ht => ?_, fun hnone => ?_⟩
  · rw [timeDiff, hm, ht, sub_add_cancel]
    exact messageDiff_mod_iff hmoy hstamp hmin
  · rw [timeDiff_clock hnone, adjustedTime_eq, add_zero]
    exact clockDiff_mod_iff (by omega) hmin
  · rw [timeDiff, hm, ht, sub_add_cancel]
    exact messageDiff_adjusted_iff tm_yday hcountdown
  · rw [timeDiff_clock hnone]
    exact clockDiff_adjusted_iff hcountdown

/-- A SPAT of one movement that ends at a tenth of the hour. -/
def oneMovement (moy timeStamp : Option ℤ) (minEndTime : ℤ) : IntersectionState where
  name := none
  id := 1
  revision := 1
  status := [0, 0]
  moy := moy
  timeStamp := timeStamp
  states := [⟨4, [⟨.stop_And_Remain, ⟨minEndTime, none⟩⟩], none⟩]

theorem timeDiff_sameMinute : timeDiff (oneMovement (some 0) (some 0) 599) 599 0 0 + 0 = 599 := by
  have h := ((timeDiff_iff 0 0 599 le_rfl (by decide) (by decide) 0 0 0 0 (by decide)
    (oneMovement (some 0) (some 0) 599)).1 rfl rfl).mpr (by decide)
  exact h

/-- A minute after the message time counts as two. -/
theorem timeDiff_nextMinute :
    timeDiff (oneMovement (some 0) (some 0) 600) 600 0 0 + 0 ≠
      (600 - messageTenths 0 0) % 36000 := by
  decide

end Inversion
end V2IHub.Utils
