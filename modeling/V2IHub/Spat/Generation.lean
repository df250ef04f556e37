import V2IHub.Spat.Movements

/-! When the movement list has one movement for each entry of the mapping. -/
namespace V2IHub.Spat
open Foundation Utils

section Events
variable {d : Decoded} {now : ℕ} {phase : UInt8} {slot : PhaseTime} {kind : Kind}

/-- The state that the bits of the phase give. -/
def stateOf (d : Decoded) (phase : UInt8) : Kind → PhaseState
  | .vehicle =>
    vehicleState (bit d.ext.flashingOutputPhaseStatus phase)
      (d.isFlashingStatus && !d.isPhaseFlashing) (bit d.ext.phaseStatusGroupReds phase)
      (bit d.ext.phaseStatusGroupYellows phase) (bit d.ext.phaseStatusGroupGreens phase)
  | .pedestrian =>
    pedestrianState (bit d.ext.phaseStatusGroupDontWalks phase)
      (bit d.ext.phaseStatusGroupPedClears phase) (bit d.ext.phaseStatusGroupWalks phase)
  | .overlap =>
    overlapState (bit d.ext.flashingOutputOverlapStatus phase)
      (bit d.ext.overlapStatusGroupReds phase) (bit d.ext.overlapStatusGroupYellows phase)
      (bit d.ext.overlapStatusGroupGreens phase)

def Kind.minTime (slot : PhaseTime) : Kind → UInt16
  | .vehicle => slot.spatVehMinTimeToChange
  | .pedestrian => slot.spatPedMinTimeToChange
  | .overlap => slot.spatOvlpMinTimeToChange

def Kind.maxTime (slot : PhaseTime) : Kind → UInt16
  | .vehicle => slot.spatVehMaxTimeToChange
  | .pedestrian => slot.spatPedMaxTimeToChange
  | .overlap => slot.spatOvpMaxTimeToChange

/-- The movement of an entry with the times of the slot; a time of 0 is no latest end. -/
structure Kept (d : Decoded) (now : ℕ) (kind : Kind) (signalGroup : ℤ) (phase : UInt8)
    (slot : PhaseTime) (movement : MovementState) : Prop where
  signalGroup : movement.signalGroup = signalGroup
  event : movement.state_time_speed = [⟨stateOf d phase kind,
    timing now (ntohs (kind.minTime slot)).toNat (ntohs (kind.maxTime slot)).toNat
      (kind.maxTime slot ≠ 0)⟩]

theorem ntohs_pos_iff (v : UInt16) : 0 < (ntohs v).toNat ↔ v ≠ 0 := by
  have hlt := v.toNat_lt
  rw [Nat.pos_iff_ne_zero, not_iff_not, ← UInt16.toNat_inj]
  simp only [ntohs, UInt16.toNat_or, UInt16.toNat_shiftLeft, UInt16.toNat_shiftRight,
    Nat.or_eq_zero_iff, UInt16.toNat_zero]
  simp [Nat.shiftLeft_eq, Nat.shiftRight_eq_div_pow]
  omega

theorem statusBit_eq_none (word : UInt16) (h : ¬ (1 ≤ phase ∧ phase ≤ 32)) :
    statusBit word phase = none :=
  if_neg h

theorem populate_none (h : ¬ (1 ≤ phase ∧ phase ≤ 32)) (kind : Kind) (signalGroup : ℤ) :
    populate d now kind signalGroup phase = none := by
  cases kind <;>
    simp [populate, populateVehicleSignalGroup, populatePedestrianSignalGroup,
      populateOverlapSignalGroup, Decoded.getPhaseFlashingStatus, Decoded.getPhaseDontWalkStatus,
      Decoded.getOverlapFlashingStatus, statusBit_eq_none _ h]

theorem populate_kept_iff (hd : d.Mapped) (hlow : 1 ≤ phase)
    (hslot : slotOf d.ext.phaseTimes phase = some slot) (kind : Kind) (signalGroup : ℤ) :
    (∃ movement, populate d now kind signalGroup phase = some movement ∧
        Kept d now kind signalGroup phase slot movement) ↔
      phase ≤ 32 ∧ (kind = .pedestrian → PedestrianTimed d phase slot) := by
  by_cases hhigh : phase ≤ 32
  · rw [iff_true_intro hhigh, true_and]
    cases kind with
    | vehicle =>
      simp only [populate, populateVehicleSignalGroup, Decoded.getPhaseFlashingStatus,
        Decoded.getPhaseRedStatus, Decoded.getPhaseYellowStatus, Decoded.getPhaseGreensStatus,
        statusBit_eq _ hlow hhigh, Decoded.getVehicleMinTime, Decoded.getVehicleMaxTime,
        timeOf_eq hd hlow hslot, Option.bind_eq_bind, Option.bind_some]
      refine iff_of_true ⟨_, rfl, rfl, ?_⟩ (fun hkind => Kind.noConfusion hkind)
      simp only [gt_iff_lt, ntohs_pos_iff]
      rfl
    | pedestrian =>
      rw [populate, populatePedestrian_eq hd hlow hhigh hslot, PedestrianTimed]
      rcases d.ext.phaseTimes[phase.toNat]? with _ | atPhase
      · simp
      · constructor
        · rintro ⟨movement, hmovement, hkept⟩
          rw [Option.map_some, Option.some.injEq] at hmovement
          subst hmovement
          have htiming := (List.cons.inj hkept.event).1
          rw [MovementEvent.mk.injEq] at htiming
          have hmax := (timing_inj_hasMax _ _ _ _).mp htiming.2
          rw [decide_eq_decide, gt_iff_lt, UInt16.pos_iff_ne_zero] at hmax
          exact fun _ => ⟨atPhase, rfl, hmax⟩
        · intro h
          obtain ⟨other, hother, hmax⟩ := h rfl
          rw [← Option.some.inj hother] at hmax
          refine ⟨_, rfl, rfl, ?_⟩
          simp only [gt_iff_lt, UInt16.pos_iff_ne_zero, hmax]
          rfl
    | overlap =>
      simp only [populate, populateOverlapSignalGroup, Decoded.getOverlapFlashingStatus,
        Decoded.getOverlapRedStatus, Decoded.getOverlapYellowStatus, Decoded.getOverlapGreenStatus,
        statusBit_eq _ hlow hhigh, Decoded.getOverlapMinTime, Decoded.getOverlapMaxTime,
        timeOf_eq hd hlow hslot, Option.bind_eq_bind, Option.bind_some]
      refine iff_of_true ⟨_, rfl, rfl, ?_⟩ (fun hkind => Kind.noConfusion hkind)
      simp only [gt_iff_lt, ntohs_pos_iff]
      rfl
  · refine iff_of_false ?_ (fun h => hhigh h.1)
    rintro ⟨movement, hmovement, -⟩
    rw [populate_none (fun h => hhigh h.2)] at hmovement
    cases hmovement

end Events

section Entries
variable {d : Decoded} {now : ℕ} {list : List SignalGroupMapping} {it : SignalGroupMapping}
  {kind : Kind} {phase : UInt8}

/-- The type is one of the three, whatever the case of its letters. -/
def SignalGroupMapping.Named (it : SignalGroupMapping) : Prop :=
  ∃ kind ∈ Kind.all, Client.iequals it.Type' kind.text = true

/-- A positive signal group, a type and a positive phase that is in a slot. -/
def SignalGroupMapping.Listed (d : Decoded) (it : SignalGroupMapping) : Prop :=
  it.SignalGroupId > 0 ∧ it.Named ∧ it.PhaseId > 0 ∧
    ∃ slot ∈ d.ext.phaseTimes, it.PhaseId = slot.phaseNumber.toNat

instance : DecidablePred SignalGroupMapping.Named := fun it =>
  inferInstanceAs (Decidable (∃ kind ∈ Kind.all, Client.iequals it.Type' kind.text = true))

instance : DecidablePred (SignalGroupMapping.Listed d) := fun it =>
  inferInstanceAs (Decidable (it.SignalGroupId > 0 ∧ it.Named ∧ it.PhaseId > 0 ∧
    ∃ slot ∈ d.ext.phaseTimes, it.PhaseId = slot.phaseNumber.toNat))

/-- One movement for each listed entry and none for another, with the times and the state of the
slot that has the phase. -/
structure OnePerEntry (d : Decoded) (now : ℕ) (list : List SignalGroupMapping)
    (made : List Made) : Prop where
  entries : (made.map Prod.fst).Perm (list.filter fun it => it.Listed d)
  kept : ∀ x ∈ made, ∃ kind phase slot, x.1.Selected kind phase ∧
    slotOf d.ext.phaseTimes phase = some slot ∧ Kept d now kind x.1.SignalGroupId phase slot x.2

/-- No entry without a phase finds an empty slot, no phase of an entry is in two slots, and each is
in the status words; the phase of a pedestrian entry is found by its number as well. -/
structure CleanTables (d : Decoded) (list : List SignalGroupMapping) : Prop where
  unset : ∀ it ∈ list, it.SignalGroupId > 0 → it.Named → it.PhaseId = 0 →
    ∀ slot ∈ d.ext.phaseTimes, slot.phaseNumber ≠ 0
  once : ∀ it ∈ list, it.Listed d →
    (d.ext.phaseTimes.filter fun slot => it.PhaseId = slot.phaseNumber.toNat).length = 1
  timed : ∀ it ∈ list, ∀ kind phase slot, it.Selected kind phase → 1 ≤ phase →
    slotOf d.ext.phaseTimes phase = some slot →
    phase ≤ 32 ∧ (kind = .pedestrian → PedestrianTimed d phase slot)

theorem Kind.mem_all (kind : Kind) : kind ∈ Kind.all := by
  cases kind <;> decide

theorem Kind.text_inj {kind kind' : Kind} (h : Client.iequals it.Type' kind.text = true)
    (h' : Client.iequals it.Type' kind'.text = true) : kind = kind' := by
  simp only [Client.iequals, decide_eq_true_eq] at h h'
  have htext := h.symm.trans h'
  revert htext
  cases kind <;> cases kind' <;> decide

/-- An entry is selected in one pass at most. -/
theorem SignalGroupMapping.Selected.inj {kind' : Kind} {phase' : UInt8}
    (h : it.Selected kind phase) (h' : it.Selected kind' phase') : kind = kind' ∧ phase = phase' :=
  ⟨Kind.text_inj h.1.2 h'.1.2, UInt8.toNat_inj.mp (by exact_mod_cast h.1.1.symm.trans h'.1.1)⟩

theorem exists_selected_iff (phase : UInt8) : (∃ kind, it.Selected kind phase) ↔
    it.PhaseId = phase.toNat ∧ it.Named ∧ it.SignalGroupId > 0 := by
  constructor
  · rintro ⟨kind, ⟨hphase, htext⟩, hgroup⟩
    exact ⟨hphase, ⟨kind, kind.mem_all, htext⟩, hgroup⟩
  · rintro ⟨hphase, ⟨kind, -, htext⟩, hgroup⟩
    exact ⟨kind, ⟨hphase, htext⟩, hgroup⟩

/-- The entries that the passes for a phase select. -/
def entriesAt (list : List SignalGroupMapping) (phase : UInt8) : List SignalGroupMapping :=
  Kind.all.flatMap fun kind => list.filter fun it => it.Selected kind phase

theorem count_filter_selected (it : SignalGroupMapping) (kind : Kind) (phase : UInt8) :
    (list.filter fun it => it.Selected kind phase).count it =
      if it.Selected kind phase then list.count it else 0 := by
  split_ifs with h
  · exact List.count_filter (by simpa using h)
  · exact List.count_eq_zero_of_not_mem fun hmem => h (by simpa using (List.mem_filter.mp hmem).2)

theorem count_entriesAt (it : SignalGroupMapping) (phase : UInt8) :
    (entriesAt list phase).count it =
      if it.PhaseId = phase.toNat ∧ it.Named ∧ it.SignalGroupId > 0 then list.count it else 0 := by
  simp only [entriesAt, Kind.all, List.flatMap_cons, List.flatMap_nil, List.append_nil,
    List.count_append, count_filter_selected]
  by_cases h : ∃ kind, it.Selected kind phase
  · obtain ⟨kind, hkind⟩ := h
    have hother : ∀ kind', kind ≠ kind' → ¬ it.Selected kind' phase :=
      fun kind' hne hkind' => hne (hkind.inj hkind').1
    rw [if_pos ((exists_selected_iff phase).mp ⟨kind, hkind⟩)]
    cases kind <;> simp [hkind, hother]
  · have hnone : ∀ kind, ¬ it.Selected kind phase := fun kind hkind => h ⟨kind, hkind⟩
    rw [if_neg (mt (exists_selected_iff phase).mpr h)]
    simp [hnone]

theorem count_flatMap_entriesAt (it : SignalGroupMapping) (phaseTimes : List PhaseTime) :
    (phaseTimes.flatMap fun slot => entriesAt list slot.phaseNumber).count it =
      if it.Named ∧ it.SignalGroupId > 0 then
        (phaseTimes.filter fun slot => it.PhaseId = slot.phaseNumber.toNat).length * list.count it
      else 0 := by
  induction phaseTimes with
  | nil => simp
  | cons slot phaseTimes ih =>
    rw [List.flatMap_cons, List.count_append, ih, count_entriesAt]
    by_cases hnamed : it.Named ∧ it.SignalGroupId > 0
    · by_cases hphase : it.PhaseId = slot.phaseNumber.toNat
      · simp only [hnamed, hphase, and_self, if_true, List.filter_cons, decide_true,
          List.length_cons]
        ring
      · simp [hnamed, hphase]
    · simp [hnamed]

end Entries

section Generation
variable {d : Decoded} {now : ℕ} {list : List SignalGroupMapping} {made : List Made}

theorem map_fst_movementList (h : movementList d now list = some made) :
    made.map Prod.fst = d.ext.phaseTimes.flatMap fun slot => entriesAt list slot.phaseNumber := by
  refine map_collect _ _ (fun slot _ part hpart => ?_) h
  refine map_collect _ _ (fun kind _ part hpart => ?_) hpart
  rw [map_collect Prod.fst (fun it => [it]) (fun it _ part hpart => ?_) hpart,
    List.flatMap_singleton']
  obtain ⟨movement, -, rfl⟩ := Option.map_eq_some_iff.mp hpart
  rfl

/-- Each selected entry has a movement, which is in the list. -/
theorem exists_made (h : movementList d now list = some made) {slot : PhaseTime}
    (hslot : slot ∈ d.ext.phaseTimes) {it : SignalGroupMapping} (hit : it ∈ list) {kind : Kind}
    (hselected : it.Selected kind slot.phaseNumber) :
    ∃ movement, populate d now kind it.SignalGroupId slot.phaseNumber = some movement ∧
      (it, movement) ∈ made := by
  obtain ⟨atSlot, hatSlot, hsubSlot⟩ := collect_subset h hslot
  obtain ⟨inPass, hinPass, hsubPass⟩ := collect_subset hatSlot kind.mem_all
  obtain ⟨part, hpart, hsub⟩ := collect_subset hinPass
    (List.mem_filter.mpr ⟨hit, by simpa using hselected⟩)
  obtain ⟨movement, hmovement, rfl⟩ := Option.map_eq_some_iff.mp hpart
  exact ⟨movement, hmovement, hsubSlot (hsubPass (hsub List.mem_cons_self))⟩

theorem mem_made (h : movementList d now list = some made) {x : Made} (hx : x ∈ made) :
    ∃ slot ∈ d.ext.phaseTimes, ∃ kind, x.1 ∈ list ∧ x.1.Selected kind slot.phaseNumber ∧
      populate d now kind x.1.SignalGroupId slot.phaseNumber = some x.2 := by
  obtain ⟨slot, hslot, atSlot, hatSlot, hx⟩ := mem_collect h hx
  obtain ⟨kind, -, inPass, hinPass, hx⟩ := mem_collect hatSlot hx
  obtain ⟨it, hit, part, hpart, hx⟩ := mem_collect hinPass hx
  obtain ⟨movement, hmovement, rfl⟩ := Option.map_eq_some_iff.mp hpart
  rw [List.mem_singleton] at hx
  subst hx
  obtain ⟨hmem, hselected⟩ := List.mem_filter.mp hit
  exact ⟨slot, hslot, kind, hmem, by simpa using hselected, hmovement⟩

theorem count_filter_listed (it : SignalGroupMapping) :
    (list.filter fun it => it.Listed d).count it = if it.Listed d then list.count it else 0 := by
  split_ifs with h
  · exact List.count_filter (by simpa using h)
  · exact List.count_eq_zero_of_not_mem fun hmem => h (by simpa using (List.mem_filter.mp hmem).2)

theorem OnePerEntry.cleanTables (hd : d.Mapped) (h : movementList d now list = some made)
    (hone : OnePerEntry d now list made) : CleanTables d list := by
  refine ⟨fun it hit hgroup hnamed hzero slot hslot hempty => ?_, fun it hit hlisted => ?_,
    fun it hit kind phase slot hselected hlow hslot => ?_⟩
  · obtain ⟨kind, hkind⟩ : ∃ kind, it.Selected kind slot.phaseNumber :=
      (exists_selected_iff slot.phaseNumber).mpr ⟨by rw [hzero, hempty]; rfl, hnamed, hgroup⟩
    obtain ⟨movement, hmovement, -⟩ := exists_made h hslot hit hkind
    rw [hempty, populate_none (by decide)] at hmovement
    exact absurd hmovement nofun
  · have hcount := hone.entries.count_eq it
    rw [map_fst_movementList h, count_flatMap_entriesAt, count_filter_listed, if_pos hlisted,
      if_pos ⟨hlisted.2.1, hlisted.1⟩] at hcount
    exact Nat.eq_of_mul_eq_mul_right (List.count_pos_iff.mpr hit) (by rw [hcount, one_mul])
  · obtain ⟨hmem, rfl⟩ := slotOf_phaseNumber hslot
    obtain ⟨movement, hmovement, hmade⟩ := exists_made h hmem hit hselected
    obtain ⟨kind', phase', slot', hselected', hslot', hkept⟩ := hone.kept _ hmade
    obtain ⟨rfl, rfl⟩ := hselected.inj hselected'
    rw [← Option.some.inj (hslot.symm.trans hslot')] at hkept
    exact (populate_kept_iff hd hlow hslot kind _).mp ⟨movement, hmovement, hkept⟩

/-- With clean tables a selected entry is a listed one. -/
theorem CleanTables.listed (hclean : CleanTables d list) {it : SignalGroupMapping} (hit : it ∈ list)
    {slot : PhaseTime} (hslot : slot ∈ d.ext.phaseTimes) {kind : Kind}
    (hselected : it.Selected kind slot.phaseNumber) : it.Listed d ∧ 1 ≤ slot.phaseNumber := by
  obtain ⟨hphase, hnamed, hgroup⟩ := (exists_selected_iff slot.phaseNumber).mp ⟨kind, hselected⟩
  have hne : slot.phaseNumber ≠ 0 := by
    intro hempty
    rw [hempty] at hphase
    exact hclean.unset it hit hgroup hnamed hphase slot hslot hempty
  have hpos : 0 < slot.phaseNumber.toNat :=
    Nat.pos_of_ne_zero fun h => hne (UInt8.toNat_inj.mp h)
  exact ⟨⟨hgroup, hnamed, by rw [hphase]; exact_mod_cast hpos, slot, hslot, hphase⟩,
    UInt8.le_iff_toNat_le.mpr hpos⟩

theorem CleanTables.length_filter (hclean : CleanTables d list) {it : SignalGroupMapping}
    (hit : it ∈ list) (hgroup : it.SignalGroupId > 0) (hnamed : it.Named) :
    (d.ext.phaseTimes.filter fun slot => it.PhaseId = slot.phaseNumber.toNat).length =
      if it.Listed d then 1 else 0 := by
  split_ifs with hlisted
  · exact hclean.once it hit hlisted
  · rw [List.length_eq_zero_iff, List.filter_eq_nil_iff]
    intro slot hslot hphase
    obtain ⟨kind, hselected⟩ := (exists_selected_iff slot.phaseNumber).mpr
      ⟨of_decide_eq_true hphase, hnamed, hgroup⟩
    exact hlisted (hclean.listed hit hslot hselected).1

theorem CleanTables.kept (hd : d.Mapped) (hclean : CleanTables d list) (now : ℕ)
    {it : SignalGroupMapping} (hit : it ∈ list) {slot : PhaseTime}
    (hslot : slot ∈ d.ext.phaseTimes) {kind : Kind}
    (hselected : it.Selected kind slot.phaseNumber) :
    ∃ last, slotOf d.ext.phaseTimes slot.phaseNumber = some last ∧ ∃ movement,
      populate d now kind it.SignalGroupId slot.phaseNumber = some movement ∧
        Kept d now kind it.SignalGroupId slot.phaseNumber last movement := by
  obtain ⟨last, hlast⟩ := exists_slotOf hslot rfl
  have hlow := (hclean.listed hit hslot hselected).2
  exact ⟨last, hlast, (populate_kept_iff hd hlow hlast kind _).mpr
    (hclean.timed it hit kind _ last hselected hlow hlast)⟩

theorem CleanTables.exists_onePerEntry (hd : d.Mapped) (hclean : CleanTables d list) (now : ℕ) :
    ∃ made, movementList d now list = some made ∧ OnePerEntry d now list made := by
  obtain ⟨made, hmade⟩ : ∃ made, movementList d now list = some made := by
    refine exists_collect fun slot hslot => exists_collect fun kind _ => exists_collect
      fun it hit => ?_
    obtain ⟨hmem, hselected⟩ := List.mem_filter.mp hit
    obtain ⟨-, -, movement, hmovement, -⟩ :=
      hclean.kept hd now hmem hslot (by simpa using hselected)
    exact ⟨_, by rw [hmovement, Option.map_some]⟩
  refine ⟨made, hmade, List.perm_iff_count.mpr fun it => ?_, fun x hx => ?_⟩
  · rw [map_fst_movementList hmade, count_flatMap_entriesAt, count_filter_listed]
    by_cases hit : it ∈ list
    · by_cases hnamed : it.Named ∧ it.SignalGroupId > 0
      · rw [if_pos hnamed, hclean.length_filter hit hnamed.2 hnamed.1]
        split_ifs
        · rw [one_mul]
        · rw [zero_mul]
      · rw [if_neg hnamed, if_neg fun h => hnamed ⟨h.2.1, h.1⟩]
    · rw [List.count_eq_zero_of_not_mem hit, mul_zero, ite_self, ite_self]
  · obtain ⟨slot, hslot, kind, hmem, hselected, hpopulate⟩ := mem_made hmade hx
    obtain ⟨last, hlast, movement, hmovement, hkept⟩ :=
      hclean.kept hd now hmem hslot hselected
    rw [← Option.some.inj (hpopulate.symm.trans hmovement)] at hkept
    exact ⟨kind, _, last, hselected, hlast, hkept⟩

/-- There is a movement list, and it has one movement for each entry. -/
def GeneratesOnePerEntry (d : Decoded) (now : ℕ) (list : List SignalGroupMapping)
    (intersectionName : Bytes) (intersectionId : ℤ) (tm_yday : ℕ) : Prop :=
  ∃ made intersection, movementList d now list = some made ∧
    ToJ2735r41SPAT d now list intersectionName intersectionId tm_yday = some intersection ∧
    intersection.states = made.map Prod.snd ∧ OnePerEntry d now list made

/-- The movements of the intersection are one for each entry, with the times and states of its
slot, exactly when the tables are clean. -/
theorem generatesOnePerEntry_iff (n n' : Ntcip1202) (buff : Bytes)
    (hcopy : n.copyBytesIntoNtcip1202 buff = some n') (list : List SignalGroupMapping) (now : ℕ)
    (intersectionName : Bytes) (intersectionId : ℤ) (tm_yday : ℕ) :
    GeneratesOnePerEntry n'.decoded now list intersectionName intersectionId tm_yday ↔
      CleanTables n'.decoded list := by
  constructor
  · rintro ⟨made, -, hmade, -, -, hone⟩
    exact hone.cleanTables (mapped_of_copy hcopy) hmade
  · intro hclean
    obtain ⟨made, hmade, hone⟩ := hclean.exists_onePerEntry (mapped_of_copy hcopy) now
    exact ⟨made, _, hmade, by rw [ToJ2735r41SPAT, hmade, Option.map_some], rfl, hone⟩

theorem copy_phaseNumbers :
    (Ntcip1202.new.copyBytesIntoNtcip1202 (packetOf [slotBytes 1 30 50])).map
        (fun n => n.decoded.ext.phaseTimes.map PhaseTime.phaseNumber) =
      some (1 :: List.replicate 15 0) := by
  rw [copy_packetOf]
  decide +kernel

theorem iequals_vehicle : Client.iequals (cstr "vehicle") Kind.vehicle.text = true := by decide

/-- An entry for vehicles alone is clean if its phase is in one slot. -/
theorem cleanTables_vehicle {phase : UInt8}
    (hphases : (d.ext.phaseTimes.map PhaseTime.phaseNumber).count phase = 1)
    (hlow : 1 ≤ phase) (hhigh : phase ≤ 32) :
    CleanTables d [⟨4, phase.toNat, cstr "vehicle"⟩] := by
  have hpos : 0 < phase.toNat := UInt8.le_iff_toNat_le.mp hlow
  refine ⟨fun it hit _ _ hzero => ?_, fun it hit _ => ?_,
    fun it hit kind phase' slot hselected _ _ => ?_⟩
  all_goals
    rw [List.mem_singleton] at hit
    subst hit
  · exact absurd hzero (by simp only; omega)
  · rw [List.count, List.countP_map, List.countP_eq_length_filter] at hphases
    rw [← hphases]
    congr 2
    funext slot
    change decide ((phase.toNat : ℤ) = slot.phaseNumber.toNat) = (slot.phaseNumber == phase)
    have hiff : ((phase.toNat : ℤ) = slot.phaseNumber.toNat) ↔ slot.phaseNumber = phase := by
      rw [Nat.cast_inj, UInt8.toNat_inj, eq_comm]
    simp only [hiff]
    rfl
  · have hvehicle : kind = .vehicle := Kind.text_inj hselected.1.2 iequals_vehicle
    have hphase : phase = phase' := UInt8.toNat_inj.mp (Nat.cast_inj.mp hselected.1.1)
    subst hvehicle hphase
    exact ⟨hhigh, nofun⟩

theorem generatesOnePerEntry_vehicle : ∃ n', Ntcip1202.new.copyBytesIntoNtcip1202
      (packetOf [slotBytes 1 30 50]) = some n' ∧
    GeneratesOnePerEntry n'.decoded 0 [⟨4, 1, cstr "vehicle"⟩] [] 1 0 := by
  obtain ⟨n', hcopy, hphases⟩ := Option.map_eq_some_iff.mp copy_phaseNumbers
  have hclean : CleanTables n'.decoded [⟨4, (1 : UInt8).toNat, cstr "vehicle"⟩] :=
    cleanTables_vehicle (by rw [hphases]; decide) (by decide) (by decide)
  exact ⟨n', hcopy, (generatesOnePerEntry_iff _ n' _ hcopy _ 0 [] 1 0).mpr hclean⟩

/-- An entry without a phase is taken for each of the empty slots. -/
theorem generatesOnePerEntry_fails : ∃ n', Ntcip1202.new.copyBytesIntoNtcip1202
      (packetOf [slotBytes 1 30 50]) = some n' ∧
    ¬ GeneratesOnePerEntry n'.decoded 0 [⟨5, 0, cstr "vehicle"⟩] [] 1 0 := by
  obtain ⟨n', hcopy, hphases⟩ := Option.map_eq_some_iff.mp copy_phaseNumbers
  refine ⟨n', hcopy, ?_⟩
  rintro ⟨made, -, hmade, -, -, hone⟩
  have hclean := hone.cleanTables (mapped_of_copy hcopy) hmade
  have hempty : 0 ∈ n'.decoded.ext.phaseTimes.map PhaseTime.phaseNumber := by
    rw [hphases]
    decide
  obtain ⟨slot, hslot, hzero⟩ := List.mem_map.mp hempty
  exact hclean.unset _ List.mem_cons_self (by decide) ⟨.vehicle, by decide, by decide⟩ rfl slot
    hslot hzero

end Generation
end V2IHub.Spat
