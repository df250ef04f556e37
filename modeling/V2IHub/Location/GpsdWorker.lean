import V2IHub.Foundation.Bytes

/-! The position that `LocationPlugin` latches while the vehicle stands still. -/
namespace V2IHub.Location
open Foundation

/-- `FixTypes`, in its order. -/
inductive FixType where
  | Unknown
  | NoFix
  | TwoD
  | ThreeD
deriving DecidableEq

inductive SignalQuality where
  | Invalid
  | GPS
  | DGPS
  | PPS
  | RealTimeKinematic
  | FloatRTK
  | DeadReckoning
  | ManualInputMode
  | SimulationMode
deriving DecidableEq

/-- What `read()` has of `gps_data`, and the latch speed at that moment. The altitude is there when
`ALTITUDE_SET` is, and the speed is what `get_Speed_mph` makes of it. -/
structure Sample where
  time : ℕ
  latitude : ℚ
  longitude : ℚ
  altitude : Option ℚ
  heading : ℚ
  speed_mph : ℚ
  fix : FixType
  quality : SignalQuality
  latchSpeed : ℚ
deriving DecidableEq

/-- The fields of a `LocationMessage` that are latched. -/
structure LocationMessage where
  latitude : ℚ
  longitude : ℚ
  altitude : ℚ
  heading : ℚ
  speed : ℚ
deriving DecidableEq

abbrev Position := ℚ × ℚ

def Sample.position (s : Sample) : Position := (s.latitude, s.longitude)

def LocationMessage.position (loc : LocationMessage) : Position := (loc.latitude, loc.longitude)

def Sample.message (s : Sample) : LocationMessage where
  latitude := s.latitude
  longitude := s.longitude
  altitude := s.altitude.getD 0
  heading := s.heading
  speed := s.speed_mph

def Sample.hasFix (s : Sample) : Bool := s.fix = .TwoD ∨ s.fix = .ThreeD

/-- The static variables of `DoSampleGPS`, and the samples that were new, the last one first. -/
structure Worker where
  lastTime : ℕ
  lastLat : ℚ
  lastLon : ℚ
  lastAlt : ℚ
  lastHeading : ℕ
  samples : List Sample
deriving DecidableEq

namespace Worker

def initial : Worker := ⟨0, 0, 0, 0, 0, []⟩

/-- `DoSampleGPS`: the variables after a sample, and the location that is broadcast. -/
def doSampleGPS (w : Worker) (s : Sample) : Worker × Option LocationMessage :=
  if s.time > w.lastTime then
    let loc := s.message
    let (w, loc) :=
      if s.hasFix then
        if s.quality = .ManualInputMode then (w, some loc)
        else if s.latchSpeed > loc.speed then
          (w, some
            { latitude := w.lastLat
              longitude := w.lastLon
              altitude := w.lastAlt
              heading := w.lastHeading
              speed := 0 })
        else
          ({ w with
            lastLat := loc.latitude
            lastLon := loc.longitude
            lastAlt := loc.altitude
            lastHeading := ⌊loc.heading⌋₊ }, some loc)
      else ({ w with lastLat := 0, lastLon := 0, lastAlt := 0, lastHeading := 0 }, none)
    ({ w with lastTime := s.time, samples := s :: w.samples }, loc)
  else (w, none)

def run (readings : List Sample) : Worker := readings.foldl (fun w s => (w.doSampleGPS s).1) initial

def position (w : Worker) : Position := (w.lastLat, w.lastLon)

/-- The samples since the last loss of the fix. -/
def sinceLoss (w : Worker) : List Sample := w.samples.takeWhile Sample.hasFix

/-- A position that the sample reports, or one before it at or above the latch speed with no loss
of the fix in between. -/
def Reports (w : Worker) (s : Sample) (position : Position) : Prop :=
  position = s.position ∨
    ∃ q ∈ w.sinceLoss, q.latchSpeed ≤ q.speed_mph ∧ q.position = position

end Worker

/-- Every location that is broadcast for a new sample is a reported one. -/
def Reported (readings : List Sample) : Prop :=
  ∀ before s loc, before ++ [s] <+: readings →
    ((Worker.run before).doSampleGPS s).2 = some loc →
    (Worker.run before).Reports s loc.position

/-- The position of this sample is latched. -/
def Sample.latched (s : Sample) : Bool := s.quality ≠ .ManualInputMode ∧ s.latchSpeed ≤ s.speed_mph

/-- A sample below the latch speed gets the latched position. -/
def Sample.Slow (s : Sample) : Prop :=
  s.hasFix ∧ s.quality ≠ .ManualInputMode ∧ s.speed_mph < s.latchSpeed

/-- Every new sample below the latch speed has one before it that was latched, with no loss of the
fix in between, unless latitude and longitude 0 are reported. -/
def Latched (readings : List Sample) : Prop :=
  ∀ before s, before ++ [s] <+: readings → (Worker.run before).lastTime < s.time → s.Slow →
    (∃ q ∈ (Worker.run before).sinceLoss, q.latched) ∨ (Worker.run before).Reports s (0, 0)

section Runs
variable {readings before : List Sample} {w : Worker} {s : Sample} {loc : LocationMessage}

theorem run_concat (before : List Sample) (s : Sample) :
    Worker.run (before ++ [s]) = ((Worker.run before).doSampleGPS s).1 := by
  unfold Worker.run
  rw [List.foldl_append]
  rfl

/-- The latched position is that of the last latched sample since the loss of the fix. -/
theorem run_position (readings : List Sample) :
    (Worker.run readings).position =
      (((Worker.run readings).sinceLoss.find? Sample.latched).map Sample.position).getD (0, 0) := by
  induction readings using List.reverseRecOn with
  | nil => rfl
  | append_singleton before s ih =>
    rw [run_concat]
    unfold Worker.doSampleGPS
    by_cases hnew : s.time > (Worker.run before).lastTime
    · simp only [hnew, ↓reduceIte]
      cases hfix : s.hasFix with
      | false =>
        simp [Worker.position, Worker.sinceLoss, hfix]
      | true =>
        simp only [↓reduceIte]
        by_cases hmanual : s.quality = .ManualInputMode
        · have hlatched : s.latched = false := by simp [Sample.latched, hmanual]
          simp only [hmanual, ↓reduceIte]
          simpa [Worker.sinceLoss, Worker.position, hfix, hlatched] using ih
        · by_cases hslow : s.latchSpeed > s.speed_mph
          · have hlatched : s.latched = false := by
              simpa [Sample.latched, hmanual] using hslow
            simp only [hmanual, Sample.message, hslow, ↓reduceIte]
            simpa [Worker.sinceLoss, Worker.position, hfix, hlatched] using ih
          · have hlatched : s.latched = true := by
              simpa [Sample.latched, hmanual] using hslow
            simp [hmanual, Sample.message, hslow, Worker.position, Worker.sinceLoss, hfix, hlatched,
              Sample.position]
    · simp only [hnew, ↓reduceIte]
      exact ih

/-- A location has the position of its sample or, for a slow sample, the latched one. -/
theorem doSampleGPS_position (h : (w.doSampleGPS s).2 = some loc) :
    (¬ s.Slow ∧ loc.position = s.position) ∨
      (w.lastTime < s.time ∧ s.Slow ∧ loc.position = w.position) := by
  unfold Worker.doSampleGPS at h
  by_cases hnew : s.time > w.lastTime
  · simp only [hnew, ↓reduceIte] at h
    cases hfix : s.hasFix with
    | false => simp [hfix] at h
    | true =>
      simp only [hfix, ↓reduceIte] at h
      by_cases hmanual : s.quality = .ManualInputMode
      · simp only [hmanual, ↓reduceIte, Option.some.injEq] at h
        exact .inl ⟨fun hs => hs.2.1 hmanual, h ▸ rfl⟩
      · by_cases hslow : s.latchSpeed > s.speed_mph
        · simp only [hmanual, Sample.message, hslow, ↓reduceIte, Option.some.injEq] at h
          exact .inr ⟨hnew, ⟨hfix, hmanual, hslow⟩, h ▸ rfl⟩
        · simp only [hmanual, Sample.message, hslow, ↓reduceIte, Option.some.injEq] at h
          exact .inl ⟨fun hs => hslow hs.2.2, h ▸ rfl⟩
  · simp [hnew] at h

theorem doSampleGPS_slow (hnew : w.lastTime < s.time) (hslow : s.Slow) :
    ∃ loc, (w.doSampleGPS s).2 = some loc ∧ loc.position = w.position := by
  obtain ⟨hfix, hmanual, hspeed⟩ := hslow
  unfold Worker.doSampleGPS
  simp only [gt_iff_lt, hnew, hfix, hmanual, Sample.message, hspeed, ↓reduceIte]
  exact ⟨_, rfl, rfl⟩

/-- Once a sample is latched, the latched position is a reported one. -/
theorem reports_position (readings : List Sample) (s : Sample)
    (h : ∃ q ∈ (Worker.run readings).sinceLoss, q.latched) :
    (Worker.run readings).Reports s (Worker.run readings).position := by
  cases hfind : (Worker.run readings).sinceLoss.find? Sample.latched with
  | none =>
    obtain ⟨q, hq, hlatched⟩ := h
    exact absurd hlatched (List.find?_eq_none.mp hfind q hq)
  | some q =>
    have hlatched := List.find?_some hfind
    rw [run_position, hfind]
    refine .inr ⟨q, List.mem_of_find?_eq_some hfind, ?_, rfl⟩
    simp only [Sample.latched, decide_eq_true_eq] at hlatched
    exact hlatched.2

theorem position_of_unlatched (h : ¬ ∃ q ∈ (Worker.run readings).sinceLoss, q.latched) :
    (Worker.run readings).position = (0, 0) := by
  have hfind : (Worker.run readings).sinceLoss.find? Sample.latched = none :=
    List.find?_eq_none.mpr fun q hq hlatched => h ⟨q, hq, hlatched⟩
  rw [run_position, hfind]
  rfl

theorem Reported.latched (h : Reported readings) : Latched readings := by
  intro before s hpre hnew hslow
  obtain ⟨loc, hloc, hposition⟩ := doSampleGPS_slow hnew hslow
  by_cases hlatched : ∃ q ∈ (Worker.run before).sinceLoss, q.latched
  · exact .inl hlatched
  · have hreal := h before s loc hpre hloc
    rw [hposition, position_of_unlatched hlatched] at hreal
    exact .inr hreal

end Runs

/-- Every location is a reported one exactly when slow samples come after latched ones. -/
theorem reported_iff (readings : List Sample) : Reported readings ↔ Latched readings := by
  refine ⟨Reported.latched, ?_⟩
  intro h before s loc hpre hloc
  rcases doSampleGPS_position hloc with ⟨-, hposition⟩ | ⟨hnew, hslow, hposition⟩
  · exact .inl hposition
  · rw [hposition]
    rcases h before s hpre hnew hslow with hlatched | hzero
    · exact reports_position before s hlatched
    · by_cases hlatched : ∃ q ∈ (Worker.run before).sinceLoss, q.latched
      · exact reports_position before s hlatched
      · rw [position_of_unlatched hlatched]
        exact hzero

/-- A vehicle that has not moved since the start is put at latitude and longitude 0. -/
theorem reported_fails : ¬ Reported [⟨1, 42, -83, some 250, 90, 0, .ThreeD, .GPS, 1 / 10⟩] := by
  intro h
  have hlatched := h.latched [] ⟨1, 42, -83, some 250, 90, 0, .ThreeD, .GPS, 1 / 10⟩
    (List.prefix_refl _) (by decide) ⟨by decide, by decide, by norm_num⟩
  simp [Worker.run, Worker.initial, Worker.sinceLoss, Worker.Reports, Sample.position] at hlatched

end V2IHub.Location
