import V2IHub.Map.MapBlob

/-! Every field of a MAP blob, read back by the loop of `map_decode`. -/
namespace V2IHub.Map
open V2IHub.Foundation

namespace Geometry
variable (geometry : Geometry) (group group' : MapGroup) (d : Direction)

@[simp] theorem group_setGroup : (geometry.setGroup group d).group d = group := by
  cases d <;> rfl

@[simp] theorem setGroup_setGroup :
    (geometry.setGroup group d).setGroup group' d = geometry.setGroup group' d := by
  cases d <;> rfl

@[simp] theorem setGroup_group : geometry.setGroup (geometry.group d) d = geometry := by
  cases d <;> rfl

end Geometry

namespace MapMessage
variable (message : MapMessage)

section Geometry
variable (g : Fin maxgeometries) (geometry geometry' : Geometry)

@[simp] theorem geometry_setGeometry : (message.setGeometry g geometry).geometry g = geometry := by
  simp [setGeometry]

@[simp] theorem setGeometry_setGeometry :
    (message.setGeometry g geometry).setGeometry g geometry' = message.setGeometry g geometry' := by
  simp [setGeometry]

@[simp] theorem setGeometry_geometry : message.setGeometry g (message.geometry g) = message := by
  simp [setGeometry]

@[simp] theorem attributes_setGeometry :
    (message.setGeometry g geometry).attributes = message.attributes := rfl

end Geometry

section Group
variable (p : Fin maxgeometries × Direction) (group group' : MapGroup)

@[simp] theorem group_setGroup : (message.setGroup p group).group p = group := by
  simp [setGroup, MapMessage.group]

@[simp] theorem setGroup_setGroup :
    (message.setGroup p group).setGroup p group' = message.setGroup p group' := by
  simp [setGroup]

@[simp] theorem setGroup_group : message.setGroup p (message.group p) = message := by
  simp [setGroup, MapMessage.group]

@[simp] theorem attributes_setGroup :
    (message.setGroup p group).attributes = message.attributes := rfl

end Group

section Lane
variable (p : (Fin maxgeometries × Direction) × Fin maxlanes) (lane lane' : MapLane)

@[simp] theorem lane_setLane : (message.setLane p lane).lane p = lane := by
  simp [setLane, MapMessage.lane]

@[simp] theorem setLane_setLane :
    (message.setLane p lane).setLane p lane' = message.setLane p lane' := by
  simp [setLane]

@[simp] theorem setLane_lane : message.setLane p (message.lane p) = message := by
  rw [setLane, MapMessage.lane, Function.update_eq_self]
  exact message.setGroup_group p.1

@[simp] theorem attributes_setLane :
    (message.setLane p lane).attributes = message.attributes := rfl

end Lane

section Barrier
variable (p : Fin maxgeometries × Fin maxbarriers) (barrier barrier' : Barrier)

@[simp] theorem barrier_setBarrier : (message.setBarrier p barrier).barrier p = barrier := by
  simp [setBarrier, MapMessage.barrier]

@[simp] theorem setBarrier_setBarrier :
    (message.setBarrier p barrier).setBarrier p barrier' = message.setBarrier p barrier' := by
  simp [setBarrier]

@[simp] theorem setBarrier_barrier : message.setBarrier p (message.barrier p) = message := by
  rw [setBarrier, MapMessage.barrier, Function.update_eq_self]
  exact message.setGeometry_geometry p.1

@[simp] theorem attributes_setBarrier :
    (message.setBarrier p barrier).attributes = message.attributes := rfl

end Barrier
end MapMessage

namespace Decoder
variable {s t : Decoder} {front : Bytes}

/-- Two bytes follow any field: the end of the blob and its CRC are three. -/
abbrev Reads (s : Decoder) (front : Bytes) (t : Decoder) : Prop := reader.Reads 2 s front t

theorem run_bind {α β : Type} {f : Read α} {k : α → Read β} {bytes rest : Bytes} {x : α}
    (h : f bytes = some (x, rest)) : (f >>= k) bytes = k x rest := by
  simp only [bind, StateT.bind, h, Option.bind_some]

theorem reads_partly {tag : UInt8} {body : Bytes} (htag : tag ≠ 255)
    (hfield : ∀ rest, ∃ unread, s.decodeField tag.toNat (body ++ rest) = some (t, unread ++ rest) ∧
      Reads t unread t) : Reads s (tag :: body) t := by
  apply RecordReader.Reads.record _ hfield
  intro rest hrest
  have hlength : 2 < (body ++ rest).length + 1 := by
    rw [List.length_append]
    omega
  simpa [reader, more, htag] using hlength

theorem reads_record {tag : UInt8} {body : Bytes} (htag : tag ≠ 255)
    (hfield : ∀ rest, s.decodeField tag.toNat (body ++ rest) = some (t, rest)) :
    Reads s (tag :: body) t :=
  reads_partly htag fun rest => ⟨[], hfield rest, RecordReader.Reads.refl⟩

/-- The low half of a padding byte is empty, so it is no tag. -/
theorem reads_padding {pad : Bytes} (h : Padding pad) : Reads s pad s := by
  obtain rfl | ⟨v, rfl⟩ := h
  · exact RecordReader.Reads.refl
  · have hbyte := lowByte_toNat (v % 16 * 16)
    apply reads_record
    · intro h255
      have hval : (lowByte (v % 16 * 16)).toNat = 255 := by rw [h255]; rfl
      omega
    · intro rest
      obtain h0 | ⟨k, hk⟩ : (lowByte (v % 16 * 16)).toNat = 0 ∨
          ∃ k, (lowByte (v % 16 * 16)).toNat = k + 16 := by
        rcases Nat.eq_zero_or_pos (lowByte (v % 16 * 16)).toNat with h | h
        · exact .inl h
        · exact .inr ⟨(lowByte (v % 16 * 16)).toNat - 16, by omega⟩
      · rw [h0]
        rfl
      · rw [hk]
        rfl

section Words

theorem joinedWord (x : UInt16) :
    UInt16.ofNat ((x.toNat / 256) <<< 8) ||| UInt16.ofNat (x.toNat % 256) = x := by
  have hx := x.toNat_lt
  have hhigh : (x.toNat / 256) <<< 8 < 2 ^ 16 := by
    rw [Nat.shiftLeft_eq]
    omega
  have hlow : x.toNat % 256 < 2 ^ 8 := Nat.mod_lt _ (by norm_num)
  apply UInt16.toNat_inj.mp
  rw [UInt16.toNat_or, UInt16.toNat_ofNat', UInt16.toNat_ofNat', Nat.mod_eq_of_lt hhigh,
    Nat.mod_eq_of_lt (by omega : x.toNat % 256 < 2 ^ 16), ← Nat.shiftLeft_add_eq_or_of_lt hlow,
    Nat.shiftLeft_eq]
  omega

theorem orWord_wordBytes (value x : UInt16) (rest : Bytes) :
    orWord value (wordBytes x.toNat ++ rest) = some (value ||| x, rest) := by
  have hhigh : (lowByte ((x.toNat : ℤ) / 256)).toNat = x.toNat / 256 := by
    have h := lowByte_toNat ((x.toNat : ℤ) / 256)
    have hx := x.toNat_lt
    omega
  have hlow : (lowByte (x.toNat : ℤ)).toNat = x.toNat % 256 := lowByte_toNat_of_nat _
  have hjoin := joinedWord x
  simp only [orWord, wordBytes, List.cons_append, List.nil_append, next, bind, StateT.bind,
    Option.bind_some, reader_pure, hhigh, hlow, UInt16.or_assoc, hjoin]

theorem signedWord_wordBytes {v : ℤ} (h : -32768 ≤ v) (h' : v < 32768) (rest : Bytes) :
    signedWord (wordBytes v ++ rest) = some (v, rest) := by
  have hjoin := word_joined h h'
  simp only [signedWord, wordBytes, List.cons_append, List.nil_append, next, bind, StateT.bind,
    Option.bind_some, reader_pure, hjoin]

theorem signedWord_map {β : Type} {v : ℤ} (h : -32768 ≤ v) (h' : v < 32768) (f : ℤ → β)
    (rest : Bytes) : (f <$> signedWord) (wordBytes v ++ rest) = some (f v, rest) := by
  simp only [Functor.map, StateT.map, signedWord_wordBytes h h']
  rfl

theorem signedDword_dwordBytes (x : Int32) (rest : Bytes) :
    signedDword (dwordBytes x.toInt ++ rest) = some (x.toInt, rest) := by
  have hjoin := dword_joined (v := x.toInt) x.le_toInt x.toInt_lt
  simp only [signedDword, dwordBytes, List.cons_append, List.nil_append, next, bind, StateT.bind,
    Option.bind_some, reader_pure, hjoin]

end Words

section Advances

theorem next_shrinks : Shrinks List.length next := by
  rintro (_ | ⟨byte, rest⟩) r h
  · cases h
  · cases h
    simp

theorem skip_shrinks : Shrinks List.length skip := by
  refine .bind next_shrinks fun length => ?_
  intro bytes r h
  cases h
  simp

theorem need_shrinks {α : Type} (x : Option α) : Shrinks List.length (need x) := by
  intro bytes r h
  obtain ⟨a, -, rfl⟩ := Option.map_eq_some_iff.mp h
  exact le_rfl

theorem orWord_shrinks (value : UInt16) : Shrinks List.length (orWord value) :=
  .bind next_shrinks fun _ => .bind next_shrinks fun _ => .pure _

theorem signedWord_shrinks : Shrinks List.length signedWord :=
  .bind next_shrinks fun _ => .bind next_shrinks fun _ => .pure _

theorem signedDword_shrinks : Shrinks List.length signedDword :=
  .bind next_shrinks fun _ => .bind next_shrinks fun _ => .bind next_shrinks fun _ =>
    .bind next_shrinks fun _ => .pure _

theorem orIntersectionId_shrinks (js : List ℕ) (intersectionid : UInt64) :
    Shrinks List.length (orIntersectionId intersectionid js) := by
  induction js generalizing intersectionid with
  | nil => exact .pure _
  | cons j js ih => exact .bind next_shrinks fun _ => ih _

theorem decodeNodelist_shrinks (nodes : Nodes) (msgAttributes : UInt8) :
    Shrinks List.length fun blob => decodeNodelist nodes blob msgAttributes := by
  intro blob r h
  have hlt := decodeNodelist_lt h
  omega

variable (s : Decoder)

theorem decodeAttributes_shrinks : Shrinks List.length s.decodeAttributes :=
  .bind next_shrinks fun _ => .bind next_shrinks fun _ => .pure _

theorem decodeIntersectionId_shrinks : Shrinks List.length s.decodeIntersectionId :=
  .bind next_shrinks fun _ => (orIntersectionId_shrinks _ _).bind fun _ => .pure _

theorem decodeRefpoint_shrinks : Shrinks List.length s.decodeRefpoint := by
  refine .bind next_shrinks fun _ => (need_shrinks _).bind fun g =>
    .bind signedDword_shrinks fun _ => .bind signedDword_shrinks fun _ => ?_
  dsimp only
  split
  · exact .bind (.map _ signedWord_shrinks) fun _ => .pure _
  · exact Shrinks.bind (.pure _) fun _ => .pure _

theorem decodeFlag_shrinks : Shrinks List.length s.decodeFlag := by
  refine .bind next_shrinks fun _ => .bind next_shrinks fun flag => ?_
  split
  · exact (need_shrinks _).bind fun _ => .pure _
  · exact (need_shrinks _).bind fun _ => .pure _
  · exact (need_shrinks _).bind fun _ => (need_shrinks _).bind fun _ => .pure _
  · exact .pure _

theorem decodeLane_shrinks : Shrinks List.length s.decodeLane := by
  simp only [decodeLane]
  split
  · exact .pure _
  · split
    · exact .bind skip_shrinks fun _ => .pure _
    · exact .bind next_shrinks fun _ => .bind next_shrinks fun _ => .bind next_shrinks fun _ => .pure _

theorem decodeLaneAttributes_shrinks : Shrinks List.length s.decodeLaneAttributes := by
  simp only [decodeLaneAttributes]
  split
  · exact .bind skip_shrinks fun _ => .pure _
  · exact .bind next_shrinks fun _ => (orWord_shrinks _).bind fun _ => .pure _

theorem decodeBarrierAttributes_shrinks : Shrinks List.length s.decodeBarrierAttributes := by
  simp only [decodeBarrierAttributes]
  split
  · exact .bind skip_shrinks fun _ => .pure _
  · exact .bind next_shrinks fun _ => (orWord_shrinks _).bind fun _ => .pure _

theorem decodeWidth_shrinks : Shrinks List.length s.decodeWidth := by
  simp only [decodeWidth]
  split
  · exact .bind next_shrinks fun _ => (orWord_shrinks _).bind fun _ => .pure _
  · exact .bind next_shrinks fun _ => (orWord_shrinks _).bind fun _ => .pure _
  · exact .bind skip_shrinks fun _ => .pure _

theorem decodeNodeList_shrinks : Shrinks List.length s.decodeNodeList := by
  simp only [decodeNodeList]
  split
  · split
    · exact (decodeNodelist_shrinks _ _).bind fun _ => .pure _
    · exact .bind skip_shrinks fun _ => .pure _
  · exact (decodeNodelist_shrinks _ _).bind fun _ => .pure _
  · exact .bind skip_shrinks fun _ => .pure _

theorem decodeConnection_shrinks : Shrinks List.length s.decodeConnection := by
  simp only [decodeConnection]
  split
  · exact .bind skip_shrinks fun _ => .pure _
  · split
    · exact .bind skip_shrinks fun _ => .pure _
    · exact .bind next_shrinks fun _ => .bind next_shrinks fun _ => .bind next_shrinks fun _ =>
        .bind next_shrinks fun _ => .pure _

theorem decodeReferencelane_shrinks : Shrinks List.length s.decodeReferencelane := by
  simp only [decodeReferencelane]
  split
  · exact .bind skip_shrinks fun _ => .pure _
  · split
    · exact .bind next_shrinks fun _ => .bind next_shrinks fun _ =>
        .bind (.map _ signedWord_shrinks) fun _ => .pure _
    · exact .bind skip_shrinks fun _ => .pure _

theorem decodeField_shrinks (tag : ℕ) : Shrinks List.length (s.decodeField tag) := by
  simp only [decodeField]
  split
  · exact decodeAttributes_shrinks s
  · exact decodeIntersectionId_shrinks s
  · exact decodeRefpoint_shrinks s
  · exact decodeFlag_shrinks s
  · exact decodeLane_shrinks s
  · exact decodeLaneAttributes_shrinks s
  · exact decodeBarrierAttributes_shrinks s
  · exact decodeWidth_shrinks s
  · exact decodeNodeList_shrinks s
  · exact decodeConnection_shrinks s
  · exact decodeReferencelane_shrinks s
  · exact .pure _

theorem reader_advances : reader.Advances := by
  intro s bytes r h
  obtain ⟨⟨tag, rest⟩, htag, hfield⟩ := Option.bind_eq_some_iff.mp h
  have hfirst : rest.length < bytes.length := by
    cases bytes with
    | nil => cases htag
    | cons byte bytes =>
      cases htag
      simp
  exact lt_of_le_of_lt (decodeField_shrinks s tag.toNat rest r hfield) hfirst

end Advances

section Header

theorem reads_attributes (a : UInt8) : Reads s [1, 1, a] { s with message.attributes := a } :=
  reads_record (by decide) fun _ => rfl

/-- Only the lowest byte of the intersection id is in the blob. -/
theorem encodeIntersectionId_bytes (intersectionid : UInt64) :
    (List.range 4).map (encodeIntersectionId intersectionid) =
      [0, 0, 0, UInt8.ofNat intersectionid.toNat] := by
  have hhigh (j : ℕ) (hj : j < 3) : encodeIntersectionId intersectionid j = 0 := by
    have hpow : 2 ^ 8 ≤ 2 ^ (8 * (3 - j)) := Nat.pow_le_pow_right (by norm_num) (by omega)
    have hbyte := (UInt8.ofNat (intersectionid.toNat &&& (0xff000000 >>> (8 * j)))).toNat_lt
    rw [encodeIntersectionId, Nat.shiftRight_eq_div_pow, Nat.div_eq_of_lt (by omega)]
    rfl
  have hlow : encodeIntersectionId intersectionid 3 = UInt8.ofNat intersectionid.toNat := by
    have hmask := Nat.and_two_pow_sub_one_eq_mod intersectionid.toNat 8
    apply UInt8.toNat_inj.mp
    simp only [encodeIntersectionId, UInt8.toNat_ofNat', Nat.shiftRight_eq_div_pow] at hmask ⊢
    norm_num at hmask ⊢
    rw [hmask]
    omega
  simp only [List.range_succ_eq_map, List.range_zero, List.map_cons, List.map_nil, hhigh 0 (by omega),
    hhigh 1 (by omega), hhigh 2 (by omega), hlow]

theorem widened_byte {n : ℕ} (h : n < 256) :
    (BitVec.ofNat 32 n).signExtend 64 = BitVec.ofNat 64 n := by
  have hmsb : (BitVec.ofNat 32 n).msb = false := by
    rw [BitVec.msb_eq_false_iff_two_mul_lt, BitVec.toNat_ofNat]
    omega
  apply BitVec.eq_of_toNat_eq
  rw [BitVec.signExtend_eq_setWidth_of_msb_false hmsb, BitVec.toNat_setWidth, BitVec.toNat_ofNat,
    BitVec.toNat_ofNat]
  omega

/-- A zero byte changes nothing. -/
theorem orIntersectionId_zero (intersectionid : UInt64) (j : ℕ) (js : List ℕ) (rest : Bytes) :
    orIntersectionId intersectionid (j :: js) (0 :: rest) =
      orIntersectionId intersectionid js rest := by
  have hshifted : (BitVec.ofNat 32 (UInt8.toNat 0 <<< (8 * (3 - j)))).signExtend 64 = 0 := by
    rw [UInt8.toNat_zero, Nat.zero_shiftLeft]
    rfl
  rw [orIntersectionId, run_bind rfl, hshifted]
  exact congrArg (fun x => orIntersectionId x js rest) UInt64.or_zero

theorem reads_intersectionId (hzero : s.message.intersectionid = 0) (intersectionid : UInt64) :
    Reads s ([2, 4] ++ (List.range 4).map (encodeIntersectionId intersectionid))
      { s with message.intersectionid := .ofNat (intersectionid.toNat % 256) } := by
  have hbyte : (UInt8.ofNat intersectionid.toNat).toNat = intersectionid.toNat % 256 :=
    UInt8.toNat_ofNat'
  have hlow : (BitVec.ofNat 32 (intersectionid.toNat % 256)).signExtend 64 =
      BitVec.ofNat 64 (intersectionid.toNat % 256) := widened_byte (Nat.mod_lt _ (by norm_num))
  have hread (rest : Bytes) : orIntersectionId 0 (List.range 4)
      ([0, 0, 0, UInt8.ofNat intersectionid.toNat] ++ rest) =
        some (.ofNat (intersectionid.toNat % 256), rest) := by
    simp only [List.range_succ_eq_map, List.range_zero, List.map_cons, List.map_nil,
      List.cons_append, List.nil_append, orIntersectionId_zero]
    have hlast : (0 : UInt64) ||| .ofBitVec (BitVec.ofNat 64 (intersectionid.toNat % 256)) =
        .ofNat (intersectionid.toNat % 256) := UInt64.zero_or
    rw [orIntersectionId, run_bind rfl, hbyte, ← hlast, ← hlow]
    rfl
  rw [encodeIntersectionId_bytes]
  refine reads_record (by decide) fun rest => ?_
  have hid := hread rest
  rw [← hzero] at hid
  change s.decodeIntersectionId ([4] ++ [0, 0, 0, UInt8.ofNat intersectionid.toNat] ++ rest) = _
  rw [List.append_assoc, List.singleton_append, decodeIntersectionId, run_bind rfl, run_bind hid]
  rfl

theorem reads_refpoint {g : Fin maxgeometries} {a : UInt8} {refpoint : ReferencePoint}
    (hg : s.g = g) (ha : s.message.attributes = a)
    (helevation : if hasElevation a then
        -32768 ≤ refpoint.elevation.toInt ∧ refpoint.elevation.toInt < 32768
      else refpoint.elevation = (s.message.geometry g).refpoint.elevation) :
    Reads s (encodeRefpoint a refpoint)
      { s with
        message := s.message.setGeometry g { s.message.geometry g with refpoint := refpoint }
        g := g + 1
        geometry := some g } := by
  have hslot : (if h : s.g < maxgeometries then some (⟨s.g, h⟩ : Fin maxgeometries) else none) =
      some g := by
    rw [dif_pos (hg ▸ g.isLt)]
    exact congrArg some (Fin.ext hg)
  have hread (rest : Bytes) : decodeRefpoint s ((if hasElevation a then 10 else 8) ::
      (dwordBytes refpoint.latitude.toInt ++ (dwordBytes refpoint.longitude.toInt ++
        ((if hasElevation a then wordBytes refpoint.elevation.toInt else []) ++ rest)))) =
      some ({ s with
        message := s.message.setGeometry g { s.message.geometry g with refpoint := refpoint }
        g := g + 1
        geometry := some g }, rest) := by
    rw [decodeRefpoint, run_bind rfl, hslot, run_bind rfl,
      run_bind (signedDword_dwordBytes refpoint.latitude _),
      run_bind (signedDword_dwordBytes refpoint.longitude _), ha]
    dsimp only
    split_ifs at helevation ⊢
    · rw [run_bind (signedWord_map helevation.1 helevation.2 _ _)]
      simp [reader_pure, hg]
    · rw [run_bind rfl, ← helevation]
      simp [reader_pure, hg]
  simp only [encodeRefpoint, List.append_assoc, List.cons_append, List.nil_append]
  refine reads_record (by decide) fun rest => ?_
  change s.decodeRefpoint _ = _
  simpa only [List.cons_append, List.append_assoc] using hread rest

theorem reads_group {g : Fin maxgeometries} (hgeometry : s.geometry = some g) (d : Direction) :
    Reads s [4, 1, d.code] { s with group := some (g, d), barrier := none } := by
  refine reads_record (by decide) fun rest => ?_
  cases d <;>
    simp [next, decodeField, decodeFlag, Direction.code, bind, StateT.bind, need, hgeometry,
      reader_pure]

theorem reads_barrierFlag {g : Fin maxgeometries} {b : Fin maxbarriers}
    (hgeometry : s.geometry = some g) (hb : s.b = b) :
    Reads s [4, 1, 3] { s with barrier := some (g, b), b := b + 1, group := none } := by
  refine reads_record (by decide) fun rest => ?_
  simp [next, decodeField, decodeFlag, bind, StateT.bind, need, hgeometry, hb, reader_pure]

/-- Before any lane and barrier there is no place for a width. -/
theorem reads_noWidth (hlane : s.lane = none) (hbarrier : s.barrier = none) (width : UInt16) :
    Reads s (encodeWidth width) s := by
  rw [encodeWidth]
  split
  · refine reads_record (by decide) fun rest => ?_
    simp [next, decodeField, decodeWidth, hlane, hbarrier, skip, bind, StateT.bind,
      wordBytes, modify, modifyGet, MonadStateOf.modifyGet, StateT.modifyGet, reader_pure]
  · exact RecordReader.Reads.refl

end Header

section Lane
variable {p : (Fin maxgeometries × Direction) × Fin maxlanes} {lane : MapLane} {a : UInt8}

/-- The decoder at a lane that holds these values so far. -/
def atLane (s : Decoder) (p : (Fin maxgeometries × Direction) × Fin maxlanes) (lane : MapLane) :
    Decoder :=
  { s with message := s.message.setLane p lane, lane := some p }

/-- A field of a lane changes that lane only. -/
theorem atLane_setLane (lane' : MapLane) :
    { s.atLane p lane with
      message := (s.atLane p lane).message.setLane p lane', lane := some p } =
      s.atLane p lane' := by
  simp [atLane]

theorem lane_atLane : (s.atLane p lane).lane = some p := rfl

theorem attributes_atLane : (s.atLane p lane).message.attributes = s.message.attributes := rfl

theorem message_lane_atLane : (s.atLane p lane).message.lane p = lane :=
  MapMessage.lane_setLane _ _ _

theorem reads_lane {g : Fin maxgeometries × Direction} {l : Fin maxlanes}
    (hgroup : s.group = some g)
    (hfree : ((List.finRange maxlanes).find? fun l => ((s.message.group g).lane l).number = 0) =
      some l) (number type : UInt8) :
    Reads s [5, 2, number, type] (s.atLane (g, l) { s.message.lane (g, l) with number, type }) := by
  refine reads_record (by decide) fun rest => ?_
  change s.decodeLane _ = _
  simp only [decodeLane, hgroup, hfree]
  rw [List.cons_append, run_bind rfl, List.cons_append, run_bind rfl, List.cons_append, run_bind rfl]
  simp [atLane, hgroup, reader_pure]

theorem decodeLaneAttributes_atLane : (s.atLane p lane).decodeLaneAttributes = do
    let _ ← next
    let attributes ← orWord lane.attributes
    return s.atLane p { lane with attributes } := by
  simp only [decodeLaneAttributes, lane_atLane, message_lane_atLane, atLane_setLane]

theorem decodeWidth_atLane : (s.atLane p lane).decodeWidth = do
    let _ ← next
    let width ← orWord lane.width
    return s.atLane p { lane with width } := by
  simp only [decodeWidth, lane_atLane, message_lane_atLane, atLane_setLane]

theorem decodeNodeList_atLane : (s.atLane p lane).decodeNodeList =
    if lane.type ≠ computed then do
      let node ← fun blob => decodeNodelist lane.node blob s.message.attributes
      return s.atLane p { lane with node }
    else do
      skip
      return s.atLane p lane := by
  simp only [decodeNodeList, lane_atLane, message_lane_atLane, atLane_setLane, attributes_atLane]

theorem decodeReferencelane_atLane : (s.atLane p lane).decodeReferencelane =
    if lane.type = computed then do
      let _ ← next
      let lanenumber ← next
      let lateraloffset ← Int16.ofInt <$> signedWord
      return s.atLane p { lane with
        referencelane := { lane.referencelane with lanenumber, lateraloffset } }
    else do
      skip
      return s.atLane p lane := by
  simp only [decodeReferencelane, lane_atLane, message_lane_atLane, atLane_setLane]

theorem reads_laneAttributes (lane : MapLane) (x : UInt16) :
    Reads (s.atLane p lane) ([6, 2] ++ wordBytes x.toNat)
      (s.atLane p { lane with attributes := lane.attributes ||| x }) := by
  refine reads_record (by decide) fun rest => ?_
  change (s.atLane p lane).decodeLaneAttributes (2 :: (wordBytes x.toNat ++ rest)) = _
  rw [decodeLaneAttributes_atLane, run_bind rfl, run_bind (orWord_wordBytes _ x rest)]
  rfl

theorem reads_laneWidth (lane : MapLane) (x : UInt16) :
    Reads (s.atLane p lane) (encodeWidth x) (s.atLane p { lane with width := lane.width ||| x }) := by
  rw [encodeWidth]
  split_ifs with hx
  · refine reads_record (by decide) fun rest => ?_
    change (s.atLane p lane).decodeWidth (2 :: (wordBytes x.toNat ++ rest)) = _
    rw [decodeWidth_atLane, run_bind rfl, run_bind (orWord_wordBytes _ x rest)]
    rfl
  · rw [not_not] at hx
    rw [hx, UInt16.or_zero]
    exact RecordReader.Reads.refl

theorem reads_laneNodes {nodes : Nodes} (ha : s.message.attributes = a)
    (htype : lane.type ≠ computed) (hleading : Leading fun n => (nodes n).Listed)
    (hfirst : (nodes 0).Listed) :
    Reads (s.atLane p lane) (encodeNodes a nodes) (s.atLane p { lane with
      node := fun n => if (nodes n).Listed then
        (lane.node n).carried (hasElevation a) (hasWidth nodes) (nodes n) else lane.node n }) := by
  refine reads_partly (by decide) fun rest => ?_
  obtain ⟨pad, hpad, hlist⟩ := decodeNodelist_encodeNodelist hleading hfirst a lane.node rest
  refine ⟨pad, ?_, reads_padding hpad⟩
  change (s.atLane p lane).decodeNodeList
    (UInt8.ofNat (encodeNodelist nodes a).length :: encodeNodelist nodes a ++ rest) = _
  rw [decodeNodeList_atLane, if_pos htype, ha, run_bind hlist]
  rfl

theorem skip_cons (bytes rest : Bytes) (h : bytes.length < 256) :
    skip (UInt8.ofNat bytes.length :: bytes ++ rest) = some ((), rest) := by
  have hlength : (UInt8.ofNat bytes.length).toNat = bytes.length := by
    rw [UInt8.toNat_ofNat']
    exact Nat.mod_eq_of_lt h
  rw [skip, List.cons_append, run_bind rfl, hlength]
  simp [modify, modifyGet, MonadStateOf.modifyGet, StateT.modifyGet, pure]

/-- The node list of a computed lane is passed over. -/
theorem reads_computedNodes (htype : lane.type = computed) (nodes : Nodes) :
    Reads (s.atLane p lane) (encodeNodes a nodes) (s.atLane p lane) := by
  refine reads_record (by decide) fun rest => ?_
  change (s.atLane p lane).decodeNodeList
    (UInt8.ofNat (encodeNodelist nodes a).length :: encodeNodelist nodes a ++ rest) = _
  rw [decodeNodeList_atLane, if_neg (not_not.mpr htype),
    run_bind (skip_cons _ rest (encodeNodelist_length nodes a))]
  rfl

theorem reads_referencelane (htype : lane.type = computed) (referencelane : ReferenceLane) :
    Reads (s.atLane p lane) (encodeReferencelane referencelane)
      (s.atLane p { lane with referencelane := { lane.referencelane with
        lanenumber := referencelane.lanenumber
        lateraloffset := referencelane.lateraloffset } }) := by
  have hlow := referencelane.lateraloffset.le_toInt
  have hhigh := referencelane.lateraloffset.toInt_lt
  refine reads_record (by decide) fun rest => ?_
  change (s.atLane p lane).decodeReferencelane
    (3 :: referencelane.lanenumber :: (wordBytes referencelane.lateraloffset.toInt ++ rest)) = _
  rw [decodeReferencelane_atLane, if_pos htype, run_bind rfl, run_bind rfl,
    run_bind (signedWord_map (by omega) (by omega) _ rest), Int16.ofInt_toInt]
  rfl

theorem reads_connection {c : Fin maxconnections} {connection : Connection}
    (htype : lane.type ≠ pedestrian)
    (hfree : ((List.finRange maxconnections).find? fun c =>
      (lane.connection c).lanenumber = 0) = some c)
    (hmaneuver : connection.maneuver.toNat < 256)
    (hsignal : connection.signalGroup = (lane.connection c).signalGroup) :
    Reads (s.atLane p lane) (encodeConnection connection)
      (s.atLane p { lane with connection := Function.update lane.connection c connection }) := by
  have hlow : UInt16.ofNat (lowByte connection.maneuver.toNat).toNat = connection.maneuver := by
    rw [lowByte_toNat_of_nat, Nat.mod_eq_of_lt hmaneuver, UInt16.ofNat_toNat]
  refine reads_record (by decide) fun rest => ?_
  change (s.atLane p lane).decodeConnection (2 :: connection.lanenumber ::
    lowByte connection.maneuver.toNat :: connection.connectionID :: rest) = _
  simp only [decodeConnection, lane_atLane, message_lane_atLane, atLane_setLane, hfree, htype, ne_eq,
    not_false_eq_true, if_true]
  rw [run_bind rfl, run_bind rfl, run_bind rfl, run_bind rfl, hlow, ← hsignal]
  rfl

end Lane

section Barrier
variable {p : Fin maxgeometries × Fin maxbarriers} {barrier : Barrier} {a : UInt8}

/-- The decoder at a barrier that holds these values so far. -/
def atBarrier (s : Decoder) (p : Fin maxgeometries × Fin maxbarriers) (barrier : Barrier) :
    Decoder :=
  { s with message := s.message.setBarrier p barrier, barrier := some p }

theorem atBarrier_setBarrier (barrier' : Barrier) :
    { s.atBarrier p barrier with
      message := (s.atBarrier p barrier).message.setBarrier p barrier', barrier := some p } =
      s.atBarrier p barrier' := by
  simp [atBarrier]

theorem barrier_atBarrier : (s.atBarrier p barrier).barrier = some p := rfl

theorem message_barrier_atBarrier : (s.atBarrier p barrier).message.barrier p = barrier :=
  MapMessage.barrier_setBarrier _ _ _

theorem reads_barrierAttributes (barrier : Barrier) (x : UInt16) :
    Reads (s.atBarrier p barrier) ([7, 2] ++ wordBytes x.toNat)
      (s.atBarrier p { barrier with attributes := barrier.attributes ||| x }) := by
  refine reads_record (by decide) fun rest => ?_
  change (s.atBarrier p barrier).decodeBarrierAttributes (2 :: (wordBytes x.toNat ++ rest)) = _
  simp only [decodeBarrierAttributes, barrier_atBarrier, message_barrier_atBarrier,
    atBarrier_setBarrier]
  rw [run_bind rfl, run_bind (orWord_wordBytes _ x rest)]
  rfl

theorem reads_barrierWidth (hlane : s.lane = none) (barrier : Barrier) (x : UInt16) :
    Reads (s.atBarrier p barrier) (encodeWidth x)
      (s.atBarrier p { barrier with width := barrier.width ||| x }) := by
  rw [encodeWidth]
  split_ifs with hx
  · refine reads_record (by decide) fun rest => ?_
    change (s.atBarrier p barrier).decodeWidth (2 :: (wordBytes x.toNat ++ rest)) = _
    have hnone : (s.atBarrier p barrier).lane = none := hlane
    simp only [decodeWidth, hnone, barrier_atBarrier, message_barrier_atBarrier]
    rw [run_bind rfl, run_bind (orWord_wordBytes _ x rest)]
    simp [reader_pure, atBarrier, hlane]
  · rw [not_not] at hx
    rw [hx, UInt16.or_zero]
    exact RecordReader.Reads.refl

theorem reads_barrierNodes {nodes : Nodes} (hlane : s.lane = none)
    (ha : s.message.attributes = a) (barrier : Barrier)
    (hleading : Leading fun n => (nodes n).Listed) (hfirst : (nodes 0).Listed) :
    Reads (s.atBarrier p barrier) (encodeNodes a nodes) (s.atBarrier p { barrier with
      node := fun n => if (nodes n).Listed then
        (barrier.node n).carried (hasElevation a) (hasWidth nodes) (nodes n)
        else barrier.node n }) := by
  refine reads_partly (by decide) fun rest => ?_
  obtain ⟨pad, hpad, hlist⟩ := decodeNodelist_encodeNodelist hleading hfirst a barrier.node rest
  refine ⟨pad, ?_, reads_padding hpad⟩
  change (s.atBarrier p barrier).decodeNodeList
    (UInt8.ofNat (encodeNodelist nodes a).length :: encodeNodelist nodes a ++ rest) = _
  have hnone : (s.atBarrier p barrier).lane = none := hlane
  have hattributes : (s.atBarrier p barrier).message.attributes = a := ha
  simp only [decodeNodeList, hnone, barrier_atBarrier, message_barrier_atBarrier, hattributes]
  rw [run_bind hlist]
  simp [reader_pure, atBarrier, hlane]

end Barrier
end Decoder
end V2IHub.Map
