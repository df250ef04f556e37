import V2IHub.Messages.IvpJ2735

/-! What `getMsgIdFromRaw` reads, whether its loop ends, and the identifier it returns, for
buffers that its index of 16 bits can and cannot count. -/
namespace V2IHub.Messages.IvpJ2735
open Foundation

section Reads

inductive ScanFault where
  | outside
  | endless
deriving DecidableEq

def readByte (mem : Bytes) (i : ℕ) : Except ScanFault UInt8 :=
  (mem[i]?).elim (.error .outside) .ok

/-- `msg[i] == 128 && msg[i + 1] == 1` -/
def readMarker (mem : Bytes) (i : ℕ) : Except ScanFault Bool := do
  if (← readByte mem i) = 128 then return (← readByte mem (i + 1)) = 1 else return false

/-- The loop of `findMarker` with its reads from the memory behind `msg`. -/
def scanMarker (mem : Bytes) (msgLength : BitVec 32) :
    ℕ → BitVec 16 → Except ScanFault (BitVec 16)
  | 0, _ => .error .endless
  | fuel + 1, i =>
    if i.toNat + 1 < msgLength.toNat then do
      if ← readMarker mem i.toNat then return i else scanMarker mem msgLength fuel (i + 1)
    else return i

/-- `getMsgIdFromRaw(msg, msgLength)` after at most so many rounds of its loop. -/
def scanMsgId (mem : Bytes) (msgLength : BitVec 32) (fuel : ℕ) : Except ScanFault UInt8 := do
  let i ← scanMarker mem msgLength fuel 2
  if i ≠ 0 ∧ i.toNat + 2 < msgLength.toNat then readByte mem (i.toNat + 2)
  else return DSRCmsgID_reserved

end Reads

section Spec

/-- The two bytes before an identifier stand at this place. -/
def Marked (msg : Bytes) (p : ℕ) : Prop := msg[p]? = some 128 ∧ msg[p + 1]? = some 1

instance (msg : Bytes) (p : ℕ) : Decidable (Marked msg p) := inferInstanceAs (Decidable (_ ∧ _))

def firstMarker (msg : Bytes) : Option ℕ :=
  (List.range msg.length).find? fun p => 2 ≤ p ∧ Marked msg p

/-- What the scan is for: the byte that follows the first marker behind the first two bytes. -/
def idAfterMarker (msg : Bytes) : UInt8 :=
  ((firstMarker msg).bind fun p => msg[p + 2]?).getD DSRCmsgID_reserved

/-- The index reaches the end of the bytes or a marker before it starts again from zero, or the
marker at the start that it finds then has the same identifier. -/
def Scannable (msg : Bytes) : Prop :=
  msg.length ≤ 2 ^ 16 ∨ (∃ p < 2 ^ 16, 2 ≤ p ∧ Marked msg p) ∨
    (Marked msg 0 ∧ idAfterMarker msg = DSRCmsgID_reserved) ∨
      (Marked msg 1 ∧ msg[3]? = some (idAfterMarker msg))

end Spec

section Loop
variable {msg mem : Bytes} {p : ℕ}

theorem lt_length_of_marked (h : Marked msg p) : p + 1 < msg.length :=
  (List.getElem?_eq_some_iff.mp h.2).1

theorem firstMarker_eq_some_iff :
    firstMarker msg = some p ↔ 2 ≤ p ∧ Marked msg p ∧ ∀ q < p, 2 ≤ q → ¬ Marked msg q := by
  rw [firstMarker, List.find?_range_eq_some]
  simp only [decide_eq_true_eq, Bool.not_eq_true', decide_eq_false_iff_not, List.mem_range,
    not_and]
  constructor
  · rintro ⟨⟨hp, hmarked⟩, -, hfirst⟩
    exact ⟨hp, hmarked, hfirst⟩
  · rintro ⟨hp, hmarked, hfirst⟩
    have hlt := lt_length_of_marked hmarked
    exact ⟨⟨hp, hmarked⟩, by omega, hfirst⟩

theorem firstMarker_eq_none_iff : firstMarker msg = none ↔ ∀ p, 2 ≤ p → ¬ Marked msg p := by
  rw [firstMarker, List.find?_eq_none]
  simp only [decide_eq_true_eq, List.mem_range, not_and]
  constructor
  · intro h p hp hmarked
    have hlt := lt_length_of_marked hmarked
    exact h p (by omega) hp hmarked
  · exact fun h p _ => h p

/-- The loop ends at this index. -/
def Stops (msg : Bytes) (p : ℕ) : Prop := msg.length ≤ p + 1 ∨ Marked msg p

instance (msg : Bytes) (p : ℕ) : Decidable (Stops msg p) := inferInstanceAs (Decidable (_ ∨ _))

theorem findMarker_succ (fuel : ℕ) (i : BitVec 16) :
    findMarker msg (fuel + 1) i =
      if Stops msg i.toNat then some i else findMarker msg fuel (i + 1) := by
  rw [findMarker]
  by_cases hend : i.toNat + 1 < msg.length
  · have hstops : Stops msg i.toNat ↔ msg[i.toNat]? = some 128 ∧ msg[i.toNat + 1]? = some 1 :=
      or_iff_right (by omega)
    rw [if_pos hend]
    exact if_congr hstops.symm rfl rfl
  · have hstops : Stops msg i.toNat := Or.inl (by omega)
    rw [if_neg hend, if_pos hstops]

/-- The index after so many rounds. -/
def place (k : ℕ) : BitVec 16 := BitVec.ofNat 16 (k + 2)

theorem toNat_place (k : ℕ) : (place k).toNat = (k + 2) % 2 ^ 16 := BitVec.toNat_ofNat _ _

theorem place_succ (k : ℕ) : place (k + 1) = place k + 1 := by
  rw [← BitVec.toNat_inj, BitVec.toNat_add, toNat_place, toNat_place]
  simp

/-- The loop ends for the first time after so many rounds. -/
def FirstStop (msg : Bytes) (k : ℕ) : Prop :=
  Stops msg (place k).toNat ∧ ∀ j < k, ¬ Stops msg (place j).toNat

/-- The loop from one round on ends in the first round from there on that stops. -/
theorem findMarker_place_iff {fuel k : ℕ} {i : BitVec 16} :
    findMarker msg fuel (place k) = some i ↔
      ∃ m, k ≤ m ∧ m < k + fuel ∧ place m = i ∧ Stops msg (place m).toNat ∧
        ∀ j, k ≤ j → j < m → ¬ Stops msg (place j).toNat := by
  induction fuel generalizing k with
  | zero =>
    constructor
    · exact fun h => absurd h (by simp [findMarker])
    · rintro ⟨m, hk, hm, -⟩
      omega
  | succ fuel ih =>
    rw [findMarker_succ]
    by_cases hstops : Stops msg (place k).toNat
    · rw [if_pos hstops, Option.some_inj]
      constructor
      · rintro rfl
        exact ⟨k, le_rfl, by omega, rfl, hstops, fun j hk hj => absurd hj (by omega)⟩
      · rintro ⟨m, hk, -, rfl, -, hfirst⟩
        obtain rfl | hlt := hk.eq_or_lt
        · rfl
        · exact absurd hstops (hfirst k le_rfl hlt)
    · rw [if_neg hstops, ← place_succ, ih]
      constructor
      · rintro ⟨m, hk, hm, hi, hstop, hfirst⟩
        refine ⟨m, by omega, by omega, hi, hstop, fun j hj hjm => ?_⟩
        obtain rfl | hlt := hj.eq_or_lt
        · exact hstops
        · exact hfirst j hlt hjm
      · rintro ⟨m, hk, hm, hi, hstop, hfirst⟩
        have hne : k ≠ m := by
          rintro rfl
          exact hstops hstop
        exact ⟨m, by omega, by omega, hi, hstop, fun j hj hjm => hfirst j (by omega) hjm⟩

theorem exists_findMarker_iff {i : BitVec 16} :
    (∃ fuel, findMarker msg fuel 2 = some i) ↔ ∃ k, FirstStop msg k ∧ place k = i := by
  have hstart : (2 : BitVec 16) = place 0 := rfl
  rw [hstart]
  simp only [findMarker_place_iff, Nat.zero_le, true_and, Nat.zero_add, true_imp_iff]
  constructor
  · rintro ⟨fuel, m, -, hi, hstop⟩
    exact ⟨m, hstop, hi⟩
  · rintro ⟨m, hstop, hi⟩
    exact ⟨m + 1, m, m.lt_succ_self, hi, hstop⟩

/-- The index has been everywhere after as many rounds as it has values. -/
theorem firstStop_lt {k : ℕ} (h : FirstStop msg k) : k < 2 ^ 16 := by
  by_contra hk
  have hback : place (k - 2 ^ 16) = place k := by
    rw [← BitVec.toNat_inj, toNat_place, toNat_place]
    omega
  refine h.2 (k - 2 ^ 16) (by omega) ?_
  rw [hback]
  exact h.1

theorem firstStop_unique {k l : ℕ} (hk : FirstStop msg k) (hl : FirstStop msg l) : k = l := by
  rcases Nat.lt_trichotomy k l with hlt | heq | hlt
  · exact absurd hk.1 (hl.2 k hlt)
  · exact heq
  · exact absurd hl.1 (hk.2 l hlt)

end Loop

section Scan
variable {mem : Bytes} {msgLength : BitVec 32} {i : ℕ}

theorem getElem?_take_msgLength (h : i < msgLength.toNat)
    (hmem : msgLength.toNat ≤ mem.length) :
    ∃ b, (mem.take msgLength.toNat)[i]? = some b ∧ readByte mem i = .ok b := by
  have hread : mem[i]? = some (mem.get ⟨i, by omega⟩) := List.getElem?_eq_getElem _
  exact ⟨_, (List.getElem?_take_of_lt h).trans hread, by rw [readByte, hread]; rfl⟩

/-- Both bytes are read inside of the buffer. -/
theorem readMarker_of_lt (h : i + 1 < msgLength.toNat) (hmem : msgLength.toNat ≤ mem.length) :
    readMarker mem i = .ok (decide (Marked (mem.take msgLength.toNat) i)) := by
  obtain ⟨b, hb, hreadb⟩ := getElem?_take_msgLength (by omega : i < msgLength.toNat) hmem
  obtain ⟨c, hc, hreadc⟩ := getElem?_take_msgLength h hmem
  have hmarked : Marked (mem.take msgLength.toNat) i ↔ b = 128 ∧ c = 1 := by
    unfold Marked
    rw [hb, hc, Option.some_inj, Option.some_inj]
  have hdecide : decide (Marked (mem.take msgLength.toNat) i) = decide (b = 128 ∧ c = 1) :=
    decide_eq_decide.mpr hmarked
  rw [readMarker, hreadb, hreadc, hdecide]
  by_cases hfirst : b = 128
  · simp [hfirst, bind, Except.bind, pure, Except.pure]
  · simp [hfirst, bind, Except.bind, pure, Except.pure]

/-- The loop reads nothing but the buffer, and does what it does on the buffer alone. -/
theorem scanMarker_eq (hmem : msgLength.toNat ≤ mem.length) (fuel : ℕ) (i : BitVec 16) :
    scanMarker mem msgLength fuel i =
      (findMarker (mem.take msgLength.toNat) fuel i).elim (.error .endless) .ok := by
  induction fuel generalizing i with
  | zero => rfl
  | succ fuel ih =>
    have hlen : (mem.take msgLength.toNat).length = msgLength.toNat :=
      List.length_take_of_le hmem
    rw [scanMarker, findMarker_succ]
    by_cases hend : i.toNat + 1 < msgLength.toNat
    · have hstops : Stops (mem.take msgLength.toNat) i.toNat ↔
          Marked (mem.take msgLength.toNat) i.toNat := or_iff_right (by omega)
      rw [if_pos hend, readMarker_of_lt hend hmem]
      by_cases hmarked : Marked (mem.take msgLength.toNat) i.toNat
      · rw [if_pos (hstops.mpr hmarked), decide_eq_true hmarked]
        rfl
      · rw [if_neg (mt hstops.mp hmarked), decide_eq_false hmarked, ← ih]
        rfl
    · have hstops : Stops (mem.take msgLength.toNat) i.toNat := Or.inl (by omega)
      rw [if_neg hend, if_pos hstops]
      rfl

/-- The identifier that is returned when the loop ends at this index. -/
def idAt (msg : Bytes) (i : BitVec 16) : UInt8 :=
  if i ≠ 0 ∧ i.toNat + 2 < msg.length then msg.getD (i.toNat + 2) 0 else DSRCmsgID_reserved

theorem scanMsgId_eq (hmem : msgLength.toNat ≤ mem.length) (fuel : ℕ) :
    scanMsgId mem msgLength fuel =
      ((findMarker (mem.take msgLength.toNat) fuel 2).map
        (idAt (mem.take msgLength.toNat))).elim (.error .endless) .ok := by
  rw [scanMsgId, scanMarker_eq hmem]
  cases findMarker (mem.take msgLength.toNat) fuel 2 with
  | none => rfl
  | some i =>
    have hlen : (mem.take msgLength.toNat).length = msgLength.toNat :=
      List.length_take_of_le hmem
    rw [Option.map_some, Option.elim_some, Option.elim_some, idAt, hlen]
    by_cases hid : i ≠ 0 ∧ i.toNat + 2 < msgLength.toNat
    · obtain ⟨b, hb, hread⟩ := getElem?_take_msgLength hid.2 hmem
      rw [if_pos hid, List.getD_eq_getElem?_getD, hb]
      exact (if_pos hid).trans hread
    · rw [if_neg hid]
      exact if_neg hid

end Scan

section Identifier
variable {msg : Bytes} {k : ℕ}

/-- The scan of these bytes ends with this identifier. -/
def Returns (msg : Bytes) (id : UInt8) : Prop :=
  ∃ fuel, (findMarker msg fuel 2).map (idAt msg) = some id

theorem returns_iff {id : UInt8} :
    Returns msg id ↔ ∃ k, FirstStop msg k ∧ idAt msg (place k) = id := by
  simp only [Returns, Option.map_eq_some_iff]
  rw [exists_comm]
  simp only [exists_and_right, exists_findMarker_iff]
  constructor
  · rintro ⟨i, ⟨k, hk, rfl⟩, hid⟩
    exact ⟨k, hk, hid⟩
  · rintro ⟨k, hk, hid⟩
    exact ⟨_, ⟨k, hk, rfl⟩, hid⟩

theorem returns_iff_of_firstStop (h : FirstStop msg k) {id : UInt8} :
    Returns msg id ↔ idAt msg (place k) = id := by
  rw [returns_iff]
  constructor
  · rintro ⟨l, hl, hid⟩
    rwa [firstStop_unique h hl]
  · exact fun hid => ⟨k, h, hid⟩

theorem idAt_of_lt {p : ℕ} (hp : 2 ≤ p) (hlt : p < 2 ^ 16) :
    idAt msg (BitVec.ofNat 16 p) = (msg[p + 2]?).getD DSRCmsgID_reserved := by
  have htoNat : (BitVec.ofNat 16 p).toNat = p := by
    rw [BitVec.toNat_ofNat]
    omega
  have hne : BitVec.ofNat 16 p ≠ 0 := by
    rw [ne_eq, ← BitVec.toNat_inj, htoNat]
    simp
    omega
  rw [idAt, htoNat]
  by_cases hend : p + 2 < msg.length
  · rw [if_pos ⟨hne, hend⟩, List.getD_eq_getElem?_getD]
    rfl
  · rw [if_neg (fun h => hend h.2), List.getElem?_eq_none (by omega)]
    rfl

/-- Before the index starts again from zero the scan does what it is for. -/
theorem idAt_of_firstStop (h : FirstStop msg k) (hk : k + 2 < 2 ^ 16) :
    idAt msg (place k) = idAfterMarker msg := by
  have hplace : ∀ j ≤ k, (place j).toNat = j + 2 := by
    intro j hj
    rw [toNat_place]
    omega
  have hfirst : ∀ q < k + 2, 2 ≤ q → ¬ Marked msg q := by
    intro q hq hq2 hmarked
    have hnot := h.2 (q - 2) (by omega)
    rw [hplace _ (by omega), Nat.sub_add_cancel hq2] at hnot
    exact hnot (Or.inr hmarked)
  have hstop := h.1
  rw [hplace k le_rfl] at hstop
  rw [place, idAt_of_lt (by omega) hk, idAfterMarker]
  rcases hstop with hend | hmarked
  · have hnone : firstMarker msg = none := by
      refine firstMarker_eq_none_iff.mpr fun p hp hmarked => ?_
      have hlt := lt_length_of_marked hmarked
      exact hfirst p (by omega) hp hmarked
    rw [hnone, List.getElem?_eq_none (by omega)]
    rfl
  · rw [firstMarker_eq_some_iff.mpr ⟨by omega, hmarked, hfirst⟩]
    rfl

theorem exists_firstStop {p : ℕ} (hp : 2 ≤ p) (hlt : p < 2 ^ 16) (h : Stops msg p) :
    ∃ k, k + 2 < 2 ^ 16 ∧ FirstStop msg k := by
  have hplace : (place (p - 2)).toNat = p := by
    rw [toNat_place]
    omega
  have hex : ∃ k, Stops msg (place k).toNat := ⟨p - 2, by rwa [hplace]⟩
  have hle : Nat.find hex ≤ p - 2 := Nat.find_min' hex (by rwa [hplace])
  exact ⟨Nat.find hex, by omega, Nat.find_spec hex, fun j hj => Nat.find_min hex hj⟩

theorem not_stops_place (hnone : ∀ p < 2 ^ 16, 2 ≤ p → ¬ Stops msg p)
    (h : 2 ≤ (place k).toNat) : ¬ Stops msg (place k).toNat :=
  hnone _ (place k).isLt h

/-- The index starts again from zero, and finds a marker there. -/
theorem firstStop_zero (hnone : ∀ p < 2 ^ 16, 2 ≤ p → ¬ Stops msg p) (h : Marked msg 0) :
    FirstStop msg 65534 := by
  refine ⟨Or.inr h, fun j hj => not_stops_place hnone ?_⟩
  rw [toNat_place]
  omega

theorem firstStop_one (hnone : ∀ p < 2 ^ 16, 2 ≤ p → ¬ Stops msg p) (hzero : ¬ Stops msg 0)
    (h : Marked msg 1) : FirstStop msg 65535 := by
  refine ⟨Or.inr h, fun j hj => ?_⟩
  obtain rfl | hne := eq_or_ne j 65534
  · exact hzero
  · refine not_stops_place hnone ?_
    rw [toNat_place]
    omega

theorem not_firstStop (hnone : ∀ p < 2 ^ 16, 2 ≤ p → ¬ Stops msg p) (hzero : ¬ Stops msg 0)
    (hone : ¬ Stops msg 1) : ¬ FirstStop msg k := by
  intro h
  by_cases hlow : 2 ≤ (place k).toNat
  · exact not_stops_place hnone hlow h.1
  · have hcases : (place k).toNat = 0 ∨ (place k).toNat = 1 := by omega
    rcases hcases with heq | heq
    · exact hzero (heq ▸ h.1)
    · exact hone (heq ▸ h.1)

/-- Two markers do not overlap. -/
theorem not_marked_succ {p : ℕ} (h : Marked msg p) : ¬ Marked msg (p + 1) := by
  intro hnext
  have hbytes : (1 : UInt8) = 128 := Option.some_inj.mp (h.2.symm.trans hnext.1)
  exact absurd hbytes (by decide)

theorem returns_idAfterMarker_iff : Returns msg (idAfterMarker msg) ↔ Scannable msg := by
  by_cases hlow : ∃ p < 2 ^ 16, 2 ≤ p ∧ Stops msg p
  · obtain ⟨p, hlt, hp, hstop⟩ := hlow
    obtain ⟨k, hk, hfirst⟩ := exists_firstStop hp hlt hstop
    refine iff_of_true ((returns_iff_of_firstStop hfirst).mpr (idAt_of_firstStop hfirst hk)) ?_
    rcases hstop with hend | hmarked
    · exact Or.inl (by omega)
    · exact Or.inr (Or.inl ⟨p, hlt, hp, hmarked⟩)
  · push Not at hlow
    have hlong : 2 ^ 16 < msg.length := by
      have hlast := hlow 65535 (by norm_num) (by norm_num)
      have hend : ¬ msg.length ≤ 65535 + 1 := fun h => hlast (Or.inl h)
      omega
    have hend : ∀ p < 2 ^ 16, Stops msg p ↔ Marked msg p := fun p hp => or_iff_right (by omega)
    have hstart : Scannable msg ↔
        (Marked msg 0 ∧ idAfterMarker msg = DSRCmsgID_reserved) ∨
          (Marked msg 1 ∧ msg[3]? = some (idAfterMarker msg)) := by
      refine (or_iff_right (by omega)).trans (or_iff_right ?_)
      rintro ⟨p, hlt, hp, hmarked⟩
      exact hlow p hlt hp (Or.inr hmarked)
    rw [hstart]
    by_cases hzero : Marked msg 0
    · rw [returns_iff_of_firstStop (firstStop_zero hlow hzero)]
      have hid : idAt msg (place 65534) = DSRCmsgID_reserved := if_neg fun h => h.1 rfl
      simp only [hid, hzero, not_marked_succ hzero, true_and, false_and, or_false]
      exact eq_comm
    · have hzeroStop := mt (hend 0 (by norm_num)).mp hzero
      simp only [hzero, false_and, false_or]
      by_cases hone : Marked msg 1
      · rw [returns_iff_of_firstStop (firstStop_one hlow hzeroStop hone)]
        have hid : idAt msg (place 65535) = msg.getD 3 0 :=
          if_pos ⟨by decide, show 1 + 2 < msg.length by omega⟩
        have hread : msg[3]? = some (msg.getD 3 0) := by
          rw [List.getD_eq_getElem?_getD, List.getElem?_eq_getElem (by omega)]
          rfl
        rw [hid, hread, Option.some_inj]
        simp only [hone, true_and]
      · have honeStop := mt (hend 1 (by norm_num)).mp hone
        simp only [hone, false_and, iff_false, returns_iff]
        rintro ⟨k, hk, -⟩
        exact not_firstStop hlow hzeroStop honeStop hk

end Identifier

/-- So many rounds as the index has values are enough for a loop that ends. -/
theorem getMsgIdFromRaw_eq_some_iff {msg : Bytes} {id : UInt8} :
    getMsgIdFromRaw msg = some id ↔ Returns msg id := by
  constructor
  · exact fun h => ⟨2 ^ 16, h⟩
  · rw [returns_iff]
    rintro ⟨k, hk, hid⟩
    have hfound : findMarker msg (2 ^ 16) (place 0) = some (place k) :=
      findMarker_place_iff.mpr ⟨k, Nat.zero_le k, by rw [Nat.zero_add]; exact firstStop_lt hk, rfl,
        hk.1, fun j _ hj => hk.2 j hj⟩
    exact Option.map_eq_some_iff.mpr ⟨place k, hfound, hid⟩

theorem exists_scanMsgId_iff {mem : Bytes} {msgLength : BitVec 32} {id : UInt8}
    (hmem : msgLength.toNat ≤ mem.length) :
    (∃ fuel, scanMsgId mem msgLength fuel = .ok id) ↔ Returns (mem.take msgLength.toNat) id := by
  refine exists_congr fun fuel => ?_
  rw [scanMsgId_eq hmem]
  cases (findMarker (mem.take msgLength.toNat) fuel 2).map (idAt (mem.take msgLength.toNat)) with
  | none => simp only [Option.elim_none, reduceCtorEq]
  | some found => rw [Option.elim_some, Except.ok.injEq, Option.some_inj]

/-- Nothing outside of the buffer is read however long the loop runs, and it ends with the
identifier behind the first marker exactly for the buffers that it can scan. -/
theorem scanMsgId_iff (mem : Bytes) (msgLength : BitVec 32)
    (hmem : msgLength.toNat ≤ mem.length) :
    (∀ fuel, scanMsgId mem msgLength fuel ≠ .error .outside) ∧
      ((∃ fuel, scanMsgId mem msgLength fuel =
          .ok (idAfterMarker (mem.take msgLength.toNat))) ↔
        Scannable (mem.take msgLength.toNat)) := by
  refine ⟨fun fuel houtside => ?_, (exists_scanMsgId_iff hmem).trans returns_idAfterMarker_iff⟩
  rw [scanMsgId_eq hmem] at houtside
  cases hid : (findMarker (mem.take msgLength.toNat) fuel 2).map
      (idAt (mem.take msgLength.toNat)) with
  | none =>
    simp only [hid, Option.elim_none, Except.error.injEq, reduceCtorEq] at houtside
  | some found => simp only [hid, Option.elim_some, reduceCtorEq] at houtside

theorem scanMsgId_sampleEncoded : ∃ fuel, scanMsgId sampleEncoded 5 fuel = .ok 7 :=
  (scanMsgId_iff sampleEncoded 5 (by decide)).2.mpr (Or.inl (by decide))

/-- A buffer of zeros is too long by one byte. -/
theorem scanMsgId_endless :
    (65537 : BitVec 32).toNat ≤ (List.replicate 65537 (0 : UInt8)).length ∧
      ∀ fuel, scanMsgId (List.replicate 65537 0) 65537 fuel = .error .endless := by
  have hmem : (65537 : BitVec 32).toNat ≤ (List.replicate 65537 (0 : UInt8)).length := by
    rw [List.length_replicate]
    decide
  refine ⟨hmem, fun fuel => ?_⟩
  have hbuffer : (List.replicate 65537 (0 : UInt8)).take (65537 : BitVec 32).toNat =
      List.replicate 65537 0 := List.take_of_length_le (by rw [List.length_replicate]; decide)
  have hstops : ∀ p < 2 ^ 16, ¬ Stops (List.replicate 65537 0) p := by
    rintro p hp (hend | hmarked)
    · rw [List.length_replicate] at hend
      omega
    · have hread := hmarked.1
      rw [List.getElem?_replicate_of_lt (by omega), Option.some_inj] at hread
      exact absurd hread (by decide)
  rw [scanMsgId_eq hmem, hbuffer]
  cases hid : (findMarker (List.replicate 65537 0) fuel 2).map
      (idAt (List.replicate 65537 0)) with
  | none => rfl
  | some found =>
    obtain ⟨k, hk, -⟩ := returns_iff.mp ⟨fuel, hid⟩
    exact absurd hk.1 (hstops _ (place k).isLt)

end V2IHub.Messages.IvpJ2735
