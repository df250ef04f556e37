import V2IHub.Foundation.OrderedMap

/-! The vehicles that `CswPlugin` tracks, and the message on the sign. -/
namespace V2IHub.Csw
open Foundation

/-- The speed is a `float`, of which only comparisons are made. -/
structure ZoneInfo where
  ZoneId : ℤ
  Speed_mph : ℚ
  LastUpdateTime : UInt64
deriving DecidableEq

abbrev Vehicles := OrderedMap ℤ ZoneInfo

/-- A call of `UpdateVehicleInZone`, with the time and the setting that it reads. -/
structure Report where
  vehicleId : ℤ
  zoneId : ℤ
  speed_mph : ℚ
  now : UInt64
  snapInterval : UInt64
deriving DecidableEq

def Report.info (r : Report) : ZoneInfo := ⟨r.zoneId, r.speed_mph, r.now⟩

def updateVehicleInZone (vehicleInZone : Vehicles) (r : Report) : Vehicles :=
  match vehicleInZone.find r.vehicleId with
  | none => if r.zoneId ≠ 0 then vehicleInZone.insert r.vehicleId r.info else vehicleInZone
  | some info =>
    if r.zoneId = 0 ∧ r.now - info.LastUpdateTime < r.snapInterval then
      vehicleInZone.erase r.vehicleId
    else
      let info :=
        if info.ZoneId ≠ r.zoneId ∨ info.Speed_mph ≠ r.speed_mph then
          { info with ZoneId := r.zoneId, Speed_mph := r.speed_mph }
        else info
      vehicleInZone.insert r.vehicleId { info with LastUpdateTime := r.now }

def removeOldVehicles (vehicleInZone : Vehicles) (vehicleTimeout now : UInt64) : Vehicles :=
  vehicleInZone.filter fun e => ¬ now - e.2.LastUpdateTime > vehicleTimeout

/-- The loop of `GetHighestPriorityZoneId` over the vehicles, after the old ones are removed. The
limit is compared as a `float`. -/
def getHighestPriorityZoneId (vehicleInZone : Vehicles) (speedLimit_mph : ℚ) : ℤ :=
  let id := vehicleInZone.entries.foldl (fun id e =>
    if e.2.ZoneId ≠ 0 ∧ id > e.2.ZoneId ∧ e.2.Speed_mph > speedLimit_mph then e.2.ZoneId else id) 9999
  if id = 9999 then 0 else id

/-- A message with a known speed. `region` is what `FindRegion` returns, and `removeTime` the time
that `RemoveOldVehicles` reads. -/
structure Bsm where
  vehicleId : ℤ
  region : ℤ
  speed_mph : ℚ
  now : UInt64
  removeTime : UInt64
  snapInterval : UInt64
  vehicleTimeout : UInt64
  speedLimit : ℚ
deriving DecidableEq

/-- `ProcessBsmMessage` makes zone 0 of no region. -/
def Bsm.report (bsm : Bsm) : Report where
  vehicleId := bsm.vehicleId
  zoneId := if bsm.region < 0 then 0 else bsm.region
  speed_mph := bsm.speed_mph
  now := bsm.now
  snapInterval := bsm.snapInterval

/-- The members of the plugin, and the ids of the messages it has broadcast. -/
structure CswPlugin where
  vehicleInZone : Vehicles
  lastMsgIdSent : ℤ
  broadcasts : List ℤ
deriving DecidableEq

namespace CswPlugin

def initial : CswPlugin := ⟨.empty, -1, []⟩

def handleBasicSafetyMessage (p : CswPlugin) (bsm : Bsm) : CswPlugin :=
  let vehicleInZone := updateVehicleInZone p.vehicleInZone bsm.report
  let vehicleInZone := removeOldVehicles vehicleInZone bsm.vehicleTimeout bsm.removeTime
  let zoneId := getHighestPriorityZoneId vehicleInZone bsm.speedLimit
  let msgId := if zoneId ≥ 1 ∧ zoneId ≤ 3 then 3 else 0
  if p.lastMsgIdSent ≠ msgId then
    { vehicleInZone := vehicleInZone
      lastMsgIdSent := msgId
      broadcasts := p.broadcasts ++ [msgId] }
  else { p with vehicleInZone := vehicleInZone }

def run (bsms : List Bsm) : CswPlugin := bsms.foldl handleBasicSafetyMessage initial

end CswPlugin

def Bsm.times (bsm : Bsm) : List UInt64 := [bsm.now, bsm.removeTime]

/-- The clock does not go back. -/
def Nondecreasing (bsms : List Bsm) : Prop := (bsms.flatMap Bsm.times).Pairwise (· ≤ ·)

instance (bsms : List Bsm) : Decidable (Nondecreasing bsms) :=
  inferInstanceAs (Decidable (List.Pairwise _ _))

/-- Some vehicle that has reported within the timeout speeds in one of the three zones. -/
def Warns (vehicles : Vehicles) (bsm : Bsm) : Prop :=
  ∃ e ∈ vehicles.entries,
    bsm.removeTime.toNat ≤ e.2.LastUpdateTime.toNat + bsm.vehicleTimeout.toNat ∧
    1 ≤ e.2.ZoneId ∧ e.2.ZoneId ≤ 3 ∧ bsm.speedLimit < e.2.Speed_mph

instance (vehicles : Vehicles) (bsm : Bsm) : Decidable (Warns vehicles bsm) :=
  inferInstanceAs (Decidable (∃ e ∈ vehicles.entries, _ ∧ _ ∧ _ ∧ _))

section Vehicles
variable {vehicles : Vehicles} {r : Report}

/-- Every entry after a report is the entry of the report or was there before. -/
theorem mem_updateVehicleInZone {e : ℤ × ZoneInfo}
    (h : e ∈ (updateVehicleInZone vehicles r).entries) :
    e = (r.vehicleId, r.info) ∨ e ∈ vehicles.entries := by
  unfold updateVehicleInZone at h
  cases hfind : vehicles.find r.vehicleId with
  | none =>
    rw [hfind] at h
    dsimp only at h
    split_ifs at h with hzone
    · exact OrderedMap.mem_insertEntry h
    · exact .inr h
  | some info =>
    rw [hfind] at h
    dsimp only at h
    split_ifs at h with hsnap hchanged
    · exact .inr (List.mem_of_mem_filter h)
    · exact OrderedMap.mem_insertEntry h
    · obtain ⟨hzone, hspeed⟩ := not_or.mp hchanged
      rw [ne_eq, not_not] at hzone hspeed
      rcases OrderedMap.mem_insertEntry h with hnew | hold
      · refine .inl ?_
        rw [hnew, Report.info, ← hzone, ← hspeed]
      · exact .inr hold

/-- What the loop has found, from any number on. -/
theorem foldl_zoneId (speedLimit : ℚ) (entries : List (ℤ × ZoneInfo)) (init : ℤ) :
    let id := entries.foldl (fun id e =>
      if e.2.ZoneId ≠ 0 ∧ id > e.2.ZoneId ∧ e.2.Speed_mph > speedLimit then e.2.ZoneId else id) init
    id ≤ init ∧ (∀ e ∈ entries, e.2.ZoneId ≠ 0 → speedLimit < e.2.Speed_mph → id ≤ e.2.ZoneId) ∧
      (id = init ∨ ∃ e ∈ entries, e.2.ZoneId ≠ 0 ∧ speedLimit < e.2.Speed_mph ∧ id = e.2.ZoneId) := by
  induction entries generalizing init with
  | nil => simp
  | cons e entries ih =>
    rw [List.foldl_cons]
    obtain ⟨hle, hall, hfrom⟩ := ih
      (if e.2.ZoneId ≠ 0 ∧ init > e.2.ZoneId ∧ e.2.Speed_mph > speedLimit then e.2.ZoneId else init)
    refine ⟨?_, ?_, ?_⟩
    · split_ifs at hle ⊢ <;> omega
    · intro e' he' hzone hspeed
      rcases List.mem_cons.mp he' with rfl | he'
      · split_ifs at hle ⊢ with htaken
        · exact hle
        · have hkept : ¬ init > e'.2.ZoneId := fun hlt => htaken ⟨hzone, hlt, hspeed⟩
          omega
      · exact hall e' he' hzone hspeed
    · rcases hfrom with hinit | ⟨e', he', hfound⟩
      · rw [hinit]
        split_ifs with htaken
        · exact .inr ⟨e, by simp, htaken.1, htaken.2.2, rfl⟩
        · exact .inl rfl
      · exact .inr ⟨e', by simp [he'], hfound⟩

theorem getHighestPriorityZoneId_shown (speedLimit : ℚ) (h : ∀ e ∈ vehicles.entries, 0 ≤ e.2.ZoneId) :
    getHighestPriorityZoneId vehicles speedLimit ≥ 1 ∧
      getHighestPriorityZoneId vehicles speedLimit ≤ 3 ↔
    ∃ e ∈ vehicles.entries, 1 ≤ e.2.ZoneId ∧ e.2.ZoneId ≤ 3 ∧ speedLimit < e.2.Speed_mph := by
  obtain ⟨hle, hall, hfrom⟩ := foldl_zoneId speedLimit vehicles.entries 9999
  unfold getHighestPriorityZoneId
  set id := vehicles.entries.foldl _ (9999 : ℤ)
  dsimp only
  constructor
  · rintro ⟨hlow, hhigh⟩
    split_ifs at hlow hhigh with hnone
    · omega
    · rcases hfrom with hinit | ⟨e, he, hzone, hspeed, heq⟩
      · contradiction
      · exact ⟨e, he, heq ▸ hlow, heq ▸ hhigh, hspeed⟩
  · rintro ⟨e, he, hlow, hhigh, hspeed⟩
    have hid := hall e he (by omega) hspeed
    rcases hfrom with hinit | ⟨e', he', hzone, hspeed', heq⟩
    · omega
    · have hnonneg := h e' he'
      rw [if_neg (by omega)]
      omega

end Vehicles

/-- No entry is newer than the clock, and no zone has a negative number. -/
structure Sound (clock : UInt64) (vehicles : Vehicles) : Prop where
  times : ∀ e ∈ vehicles.entries, e.2.LastUpdateTime ≤ clock
  zones : ∀ e ∈ vehicles.entries, 0 ≤ e.2.ZoneId

section Runs
variable {vehicles : Vehicles} {bsm : Bsm} {bsms before : List Bsm} {clock : UInt64}

theorem Sound.update (h : Sound clock vehicles) (hclock : clock ≤ bsm.now) :
    Sound bsm.now (updateVehicleInZone vehicles bsm.report) where
  times := by
    intro e he
    rcases mem_updateVehicleInZone he with rfl | he
    · exact UInt64.le_refl _
    · exact UInt64.le_trans (h.times e he) hclock
  zones := by
    intro e he
    rcases mem_updateVehicleInZone he with rfl | he
    · simp only [Report.info, Bsm.report]
      split_ifs <;> omega
    · exact h.zones e he

theorem Sound.removeOld {now : UInt64} (h : Sound clock vehicles) (vehicleTimeout : UInt64)
    (hclock : clock ≤ now) : Sound now (removeOldVehicles vehicles vehicleTimeout now) where
  times := fun e he => UInt64.le_trans (h.times e (List.mem_of_mem_filter he)) hclock
  zones := fun e he => h.zones e (List.mem_of_mem_filter he)

/-- A vehicle is kept as long as it has reported within the timeout. -/
theorem mem_removeOldVehicles {vehicleTimeout now : UInt64} (h : Sound clock vehicles)
    (hclock : clock ≤ now) {e : ℤ × ZoneInfo} :
    e ∈ (removeOldVehicles vehicles vehicleTimeout now).entries ↔ e ∈ vehicles.entries ∧
      now.toNat ≤ e.2.LastUpdateTime.toNat + vehicleTimeout.toNat := by
  unfold removeOldVehicles
  change e ∈ vehicles.entries.filter _ ↔ _
  rw [List.mem_filter]
  apply and_congr_right
  intro he
  have hle := UInt64.le_trans (h.times e he) hclock
  have hsub := UInt64.toNat_sub_of_le _ _ hle
  rw [UInt64.le_iff_toNat_le] at hle
  simp only [gt_iff_lt, UInt64.lt_iff_toNat_lt, hsub, decide_eq_true_eq]
  omega

theorem handle_vehicleInZone (p : CswPlugin) (bsm : Bsm) :
    (p.handleBasicSafetyMessage bsm).vehicleInZone =
      removeOldVehicles (updateVehicleInZone p.vehicleInZone bsm.report) bsm.vehicleTimeout
        bsm.removeTime := by
  unfold CswPlugin.handleBasicSafetyMessage
  dsimp only
  split_ifs <;> rfl

/-- The message on the sign after a message, and whether it is broadcast. -/
theorem handle_sign (p : CswPlugin) (bsm : Bsm) {msgId : ℤ}
    (h : (if getHighestPriorityZoneId (p.handleBasicSafetyMessage bsm).vehicleInZone bsm.speedLimit ≥ 1
        ∧ getHighestPriorityZoneId (p.handleBasicSafetyMessage bsm).vehicleInZone bsm.speedLimit ≤ 3
      then 3 else 0) = msgId) :
    (p.handleBasicSafetyMessage bsm).lastMsgIdSent = msgId ∧
      (p.handleBasicSafetyMessage bsm).broadcasts =
        p.broadcasts ++ if msgId = p.lastMsgIdSent then [] else [msgId] := by
  rw [handle_vehicleInZone] at h
  unfold CswPlugin.handleBasicSafetyMessage
  simp only [h]
  by_cases hsame : p.lastMsgIdSent = msgId
  · simp [hsame]
  · simp [hsame, Ne.symm hsame]

theorem run_concat (before : List Bsm) (bsm : Bsm) :
    CswPlugin.run (before ++ [bsm]) = (CswPlugin.run before).handleBasicSafetyMessage bsm := by
  unfold CswPlugin.run
  rw [List.foldl_append]
  rfl

/-- The entries of a run are not newer than any time behind it. -/
theorem run_sound (h : Nondecreasing before) (hclock : ∀ t ∈ before.flatMap Bsm.times, t ≤ clock) :
    Sound clock (CswPlugin.run before).vehicleInZone := by
  induction before using List.reverseRecOn generalizing clock with
  | nil => exact ⟨fun e he => absurd he (by simp [CswPlugin.run, CswPlugin.initial, OrderedMap.empty]),
      fun e he => absurd he (by simp [CswPlugin.run, CswPlugin.initial, OrderedMap.empty])⟩
  | append_singleton before bsm ih =>
    unfold Nondecreasing at h
    rw [List.flatMap_append, List.flatMap_singleton] at h hclock
    obtain ⟨hbefore, htimes, hlater⟩ := List.pairwise_append.mp h
    have hremove : bsm.now ≤ bsm.removeTime := by simpa [Bsm.times] using htimes
    have hsound := ih hbefore fun t ht => hlater t ht bsm.now (by simp [Bsm.times])
    rw [run_concat, handle_vehicleInZone]
    have hkept := (hsound.update (UInt64.le_refl bsm.now)).removeOld bsm.vehicleTimeout hremove
    have hend := hclock bsm.removeTime (by simp [Bsm.times])
    exact ⟨fun e he => UInt64.le_trans (hkept.times e he) hend, hkept.zones⟩

end Runs

/-- After each message, the sign shows message 3 while some vehicle speeds in one of the zones, and
is blank otherwise; a change of it is broadcast, and nothing else is. -/
theorem run_shows_warning (bsms : List Bsm) (h : Nondecreasing bsms) (before : List Bsm) (bsm : Bsm)
    (hpre : before ++ [bsm] <+: bsms) :
    let p := CswPlugin.run before
    let p' := CswPlugin.run (before ++ [bsm])
    p'.lastMsgIdSent =
        (if Warns (updateVehicleInZone p.vehicleInZone bsm.report) bsm then 3 else 0) ∧
      p'.broadcasts =
        p.broadcasts ++ if p'.lastMsgIdSent = p.lastMsgIdSent then [] else [p'.lastMsgIdSent] := by
  obtain ⟨after, rfl⟩ := hpre
  unfold Nondecreasing at h
  rw [List.flatMap_append, List.flatMap_append, List.flatMap_singleton] at h
  obtain ⟨hbefore, htimes, hlater⟩ := List.pairwise_append.mp (List.pairwise_append.mp h).1
  have hremove : bsm.now ≤ bsm.removeTime := by simpa [Bsm.times] using htimes
  have hsound := (run_sound hbefore fun t ht => hlater t ht bsm.now (by simp [Bsm.times])).update
    (UInt64.le_refl bsm.now)
  have hkept := hsound.removeOld bsm.vehicleTimeout hremove
  have hshown := getHighestPriorityZoneId_shown bsm.speedLimit hkept.zones
  simp only [mem_removeOldVehicles hsound hremove, and_assoc] at hshown
  have hmsg : (if getHighestPriorityZoneId _ bsm.speedLimit ≥ 1 ∧
      getHighestPriorityZoneId _ bsm.speedLimit ≤ 3 then (3 : ℤ) else 0) =
      if Warns _ bsm then 3 else 0 := if_congr hshown rfl rfl
  rw [← handle_vehicleInZone] at hmsg
  obtain ⟨hsent, hbroadcasts⟩ := handle_sign _ bsm hmsg
  dsimp only
  rw [run_concat]
  refine ⟨hsent, ?_⟩
  rw [hsent]
  exact hbroadcasts

/-- One vehicle speeds in zone 2 and leaves. -/
theorem run_shows_warning_sample :
    let near : Bsm := ⟨7, 2, 60, 1000, 1001, 0, 2000, 45⟩
    let away : Bsm := ⟨7, -1, 60, 2000, 2001, 0, 2000, 45⟩
    let p := CswPlugin.run [near]
    let p' := CswPlugin.run [near, away]
    p'.lastMsgIdSent =
        (if Warns (updateVehicleInZone p.vehicleInZone away.report) away then 3 else 0) ∧
      p'.broadcasts =
        p.broadcasts ++ if p'.lastMsgIdSent = p.lastMsgIdSent then [] else [p'.lastMsgIdSent] :=
  run_shows_warning [⟨7, 2, 60, 1000, 1001, 0, 2000, 45⟩, ⟨7, -1, 60, 2000, 2001, 0, 2000, 45⟩]
    (by decide) [⟨7, 2, 60, 1000, 1001, 0, 2000, 45⟩] ⟨7, -1, 60, 2000, 2001, 0, 2000, 45⟩
    (List.prefix_refl _)

end V2IHub.Csw
