import V2IHub.Csw.CswPlugin

/-! How long `UpdateVehicleInZone` keeps a vehicle in its zone. -/
namespace V2IHub.Csw
open Foundation

/-- The map after these calls. -/
def tracked (reports : List Report) : Vehicles := reports.foldl updateVehicleInZone .empty

/-- The last call with a zone for that vehicle. -/
def lastInside (reports : List Report) (vehicleId : ℤ) : Option Report :=
  reports.reverse.find? fun r => r.vehicleId = vehicleId ∧ r.zoneId ≠ 0

/-- No entry has zone 0, and a recorded vehicle that reports zone 0 keeps its zone while less than
the interval has passed since it was last inside a zone, and is removed afterwards. -/
def Snaps (reports : List Report) : Prop :=
  ∀ before r, before ++ [r] <+: reports →
    (∀ e ∈ (tracked (before ++ [r])).entries, e.2.ZoneId ≠ 0) ∧
    ∀ info, (tracked before).find r.vehicleId = some info → r.zoneId = 0 →
      ∃ inside, lastInside before r.vehicleId = some inside ∧
        if r.now.toNat - inside.now.toNat < r.snapInterval.toNat then
          ∃ info', (tracked (before ++ [r])).find r.vehicleId = some info' ∧
            info'.ZoneId = info.ZoneId
        else (tracked (before ++ [r])).find r.vehicleId = none

/-- No vehicle reports zone 0 once it has reported a zone. -/
def Stays (reports : List Report) : Prop :=
  reports.Pairwise fun q r => q.vehicleId = r.vehicleId → r.zoneId = 0 → q.zoneId = 0

/-- The clock does not go back. -/
def Timed (reports : List Report) : Prop := reports.Pairwise fun q r => q.now ≤ r.now

instance (reports : List Report) : Decidable (Timed reports) :=
  inferInstanceAs (Decidable (List.Pairwise _ _))

section Lookups
variable {reports before : List Report} {r : Report} {vehicleId : ℤ}

theorem tracked_concat (before : List Report) (r : Report) :
    tracked (before ++ [r]) = updateVehicleInZone (tracked before) r := by
  unfold tracked
  rw [List.foldl_append]
  rfl

theorem lastInside_concat (before : List Report) (r : Report) (vehicleId : ℤ) :
    lastInside (before ++ [r]) vehicleId =
      if r.vehicleId = vehicleId ∧ r.zoneId ≠ 0 then some r else lastInside before vehicleId := by
  unfold lastInside
  rw [List.reverse_append, List.reverse_singleton, List.singleton_append, List.find?_cons]
  by_cases h : r.vehicleId = vehicleId ∧ r.zoneId ≠ 0
  · simp [h]
  · rw [if_neg h, decide_eq_false h]

theorem mem_of_lastInside (h : lastInside reports vehicleId = some r) :
    r ∈ reports ∧ r.vehicleId = vehicleId ∧ r.zoneId ≠ 0 := by
  have hmem := List.mem_of_find?_eq_some h
  have hfound := List.find?_some h
  exact ⟨List.mem_reverse.mp hmem, by simpa using hfound⟩

theorem lastInside_eq_none (h : lastInside reports vehicleId = none) :
    ∀ q ∈ reports, q.vehicleId = vehicleId → q.zoneId = 0 := by
  intro q hq hvehicle
  have hnot := List.find?_eq_none.mp h q (List.mem_reverse.mpr hq)
  simpa [hvehicle] using hnot

/-- A report with a zone is recorded. -/
theorem find_update_inside (vehicles : Vehicles) (hzone : r.zoneId ≠ 0) (vehicleId : ℤ) :
    (updateVehicleInZone vehicles r).find vehicleId =
      if r.vehicleId = vehicleId then some r.info else vehicles.find vehicleId := by
  unfold updateVehicleInZone
  cases hfind : vehicles.find r.vehicleId with
  | none =>
    dsimp only
    rw [if_pos hzone, OrderedMap.find_insert]
  | some info =>
    dsimp only
    rw [if_neg fun h => hzone h.1, OrderedMap.find_insert]
    split_ifs with hsame hchanged
    · rfl
    · obtain ⟨hsameZone, hspeed⟩ := not_or.mp hchanged
      rw [ne_eq, not_not] at hsameZone hspeed
      rw [Report.info, ← hsameZone, ← hspeed]
    · rfl

/-- A report without a zone, of a vehicle that is not recorded. -/
theorem update_outside {vehicles : Vehicles} (hzone : r.zoneId = 0)
    (hnone : vehicles.find r.vehicleId = none) : updateVehicleInZone vehicles r = vehicles := by
  unfold updateVehicleInZone
  rw [hnone]
  dsimp only
  rw [if_neg (not_not.mpr hzone)]

/-- A report without a zone, of a recorded vehicle: in the interval the vehicle is removed, and
behind it the vehicle is recorded in zone 0. -/
theorem find_update_outside {vehicles : Vehicles} {info : ZoneInfo} (hzone : r.zoneId = 0)
    (hsome : vehicles.find r.vehicleId = some info) :
    (updateVehicleInZone vehicles r).find r.vehicleId =
      if r.now - info.LastUpdateTime < r.snapInterval then none else some r.info := by
  unfold updateVehicleInZone
  rw [hsome]
  dsimp only
  by_cases hsnap : r.now - info.LastUpdateTime < r.snapInterval
  · rw [if_pos ⟨hzone, hsnap⟩, if_pos hsnap, OrderedMap.find_erase, if_pos rfl]
  · rw [if_neg fun h => hsnap h.2, if_neg hsnap, OrderedMap.find_insert, if_pos rfl]
    split_ifs with hchanged
    · rfl
    · obtain ⟨hsameZone, hspeed⟩ := not_or.mp hchanged
      rw [ne_eq, not_not] at hsameZone hspeed
      rw [Report.info, ← hsameZone, ← hspeed]

/-- Vehicles that stay in their zones are recorded as they were last reported. -/
theorem tracked_find (h : Stays reports) (vehicleId : ℤ) :
    (tracked reports).find vehicleId = (lastInside reports vehicleId).map Report.info := by
  induction reports using List.reverseRecOn generalizing vehicleId with
  | nil => rfl
  | append_singleton before r ih =>
    obtain ⟨hbefore, -, hstays⟩ := List.pairwise_append.mp h
    rw [tracked_concat, lastInside_concat]
    by_cases hzone : r.zoneId = 0
    · have hnone : lastInside before r.vehicleId = none := by
        cases hinside : lastInside before r.vehicleId with
        | none => rfl
        | some q =>
          obtain ⟨hq, hvehicle, hqzone⟩ := mem_of_lastInside hinside
          exact absurd (hstays q hq r (by simp) hvehicle hzone) hqzone
      have hfind : (tracked before).find r.vehicleId = none := by
        rw [ih hbefore, hnone, Option.map_none]
      rw [update_outside hzone hfind, ih hbefore, if_neg fun hr => hr.2 hzone]
    · rw [find_update_inside _ hzone, ih hbefore]
      by_cases hvehicle : r.vehicleId = vehicleId
      · rw [if_pos hvehicle, if_pos ⟨hvehicle, hzone⟩, Option.map_some]
      · rw [if_neg hvehicle, if_neg fun hr => hvehicle hr.1]

/-- A vehicle that leaves its zone makes the map wrong. -/
theorem Snaps.stays (h : Snaps reports) (htimed : Timed reports) : Stays reports := by
  induction reports using List.reverseRecOn with
  | nil => exact .nil
  | append_singleton before r ih =>
    obtain ⟨htimes, -, hlater⟩ := List.pairwise_append.mp htimed
    have hbefore := ih (fun before' r' hpre => h before' r' (hpre.trans (List.prefix_append before [r])))
      htimes
    refine List.pairwise_append.mpr ⟨hbefore, List.pairwise_singleton _ _, ?_⟩
    intro q hq r' hr' hvehicle hzone
    obtain rfl := List.mem_singleton.mp hr'
    by_contra hqzone
    have hfind := tracked_find hbefore r'.vehicleId
    cases hinside : lastInside before r'.vehicleId with
    | none => exact hqzone (lastInside_eq_none hinside q hq hvehicle)
    | some inside =>
      rw [hinside, Option.map_some] at hfind
      obtain ⟨inside', hinside', hsnap⟩ := (h before r' (List.prefix_refl _)).2 _ hfind hzone
      obtain rfl := Option.some.inj (hinside.symm.trans hinside')
      have hle := hlater inside (mem_of_lastInside hinside).1 r' (by simp)
      have hsub := UInt64.toNat_sub_of_le _ _ hle
      have houtside := find_update_outside hzone hfind
      rw [← tracked_concat] at houtside
      rw [houtside] at hsnap
      simp only [Report.info, UInt64.lt_iff_toNat_lt, hsub] at hsnap
      split_ifs at hsnap with hshort
      obtain ⟨info', hnone, -⟩ := hsnap
      simp at hnone

/-- While every vehicle stays, no report without a zone is of a recorded vehicle. -/
theorem Stays.snaps (h : Stays reports) : Snaps reports := by
  rintro before r ⟨after, rfl⟩
  have hpre : Stays (before ++ [r]) := (List.pairwise_append.mp h).1
  obtain ⟨hbefore, -, hstays⟩ := List.pairwise_append.mp hpre
  refine ⟨?_, ?_⟩
  · intro e he
    have hfind := OrderedMap.mem_entries_iff.mp he
    rw [tracked_find hpre] at hfind
    obtain ⟨inside, hinside, hinfo⟩ := Option.map_eq_some_iff.mp hfind
    rw [← hinfo]
    exact (mem_of_lastInside hinside).2.2
  · intro info hinfo hzone
    rw [tracked_find hbefore] at hinfo
    obtain ⟨inside, hinside, -⟩ := Option.map_eq_some_iff.mp hinfo
    obtain ⟨hmem, hvehicle, hinzone⟩ := mem_of_lastInside hinside
    exact absurd (hstays inside hmem r (by simp) hvehicle hzone) hinzone

end Lookups

/-- The map is right exactly when no vehicle leaves its zone. -/
theorem snaps_iff (reports : List Report) (htimed : Timed reports) :
    Snaps reports ↔ Stays reports :=
  ⟨fun h => h.stays htimed, Stays.snaps⟩

theorem snaps_iff_sample : Snaps [⟨7, 2, 30, 1000, 300⟩, ⟨8, 0, 30, 1100, 300⟩] ↔
    Stays [⟨7, 2, 30, 1000, 300⟩, ⟨8, 0, 30, 1100, 300⟩] :=
  snaps_iff _ (by decide)

/-- A vehicle is dropped by one report without a zone, 100 ms after it was in zone 2. -/
theorem snaps_fails : Timed [⟨7, 2, 30, 1000, 300⟩, ⟨7, 0, 30, 1100, 300⟩] ∧
    ¬ Snaps [⟨7, 2, 30, 1000, 300⟩, ⟨7, 0, 30, 1100, 300⟩] := by
  refine ⟨by decide, fun h => ?_⟩
  have hstays := h.stays (by decide)
  have hzone := List.pairwise_iff_getElem.mp hstays 0 1 (by decide) (by decide) (by decide)
  simp at hzone

end V2IHub.Csw
