import Mathlib.Algebra.BigOperators.Group.Finset.Basic
import Mathlib.Data.Nat.Factorization.Basic
import V2IHub.Rtcm.EncodedMessage
import V2IHub.Rtcm.Retention

/-! The RTCM frames that the location plugin sends on. -/
namespace V2IHub.Location
open Foundation Rtcm

/-- The first byte of the preamble of a new message. -/
def rtcmByte : RtcmVersion → UInt8
  | .SC10402_3 => UInt8.ofNat Rtcm2Message.new.header.preamble
  | .SC10403_3 => UInt8.ofNat Rtcm3Message.new.preamble

/-- What is stored in an `int`. -/
@[irreducible] def toInt (value : ℤ) : ℤ := value.bmod (2 ^ 32)

/-- The variables of the loop, and the payloads of the messages that were sent. -/
structure Forwarding where
  bytesRemaining : ℤ
  i : ℕ
  sent : List Bytes
deriving DecidableEq

namespace Forwarding

/-- The end of a pass. -/
def next (s : Forwarding) (i : ℕ) (sent : List Bytes) : Forwarding :=
  ⟨toInt (s.bytesRemaining - i), i, sent⟩

def pass (v : RtcmVersion) (fuel : ℕ) (bytes : Bytes) (s : Forwarding) :
    Except Failure Forwarding :=
  let i := s.i + ((bytes.drop s.i).takeWhile (· ≠ rtcmByte v)).length
  if i < bytes.length then do
    let rtcmMsg ← (TmxRtcmMessage.create v 0).setContents fuel (bytes.drop i)
    if rtcmMsg.isValid then
      let payload ← rtcmMsg.getContents
      .ok (s.next (i + payload.length) (s.sent ++ [payload]))
    else .ok (s.next (i + 1) s.sent)
  else .ok (s.next i s.sent)

def loop (v : RtcmVersion) (fuel : ℕ) (bytes : Bytes) : ℕ → Forwarding →
    Except Failure (List Bytes)
  | steps, s =>
    if s.bytesRemaining ≤ 0 then .ok s.sent
    else
      match steps with
      | 0 => .error .unfinished
      | steps + 1 => s.pass v fuel bytes >>= loop v fuel bytes steps

end Forwarding

/-- What `decodeRtcm` sends. A message is decoded within `fuel` passes, and the buffer within
`steps`. -/
def decodeRtcm (v : RtcmVersion) (fuel steps : ℕ) (bytes : Bytes) : Except Failure (List Bytes) :=
  Forwarding.loop v fuel bytes steps ⟨toInt bytes.length, 0, []⟩

section Counter

/-- Where the first `k` frames end. -/
def framesEnd {v : RtcmVersion} (frames : List (Frame v)) (k : ℕ) : ℕ :=
  ((frames.take k).flatMap Frame.bytes).length

/-- Every frame starts with the preamble as it is, and the ends of the frames in front of each one
do not use up the size of the buffer. -/
structure Forwards {v : RtcmVersion} (frames : List (Frame v)) : Prop where
  preamble : ∀ X ∈ frames, X.bytes.head? = some (rtcmByte v)
  counter : ∀ k < frames.length, 0 < toInt
    ((frames.flatMap Frame.bytes).length - ∑ j ∈ Finset.range k, framesEnd frames (j + 1))

theorem toInt_toInt_sub (a b : ℤ) : toInt (toInt a - b) = toInt (a - b) := by
  simp only [toInt, Int.bmod_sub_bmod]

theorem toInt_toInt (a : ℤ) : toInt (toInt a) = toInt a := by
  simp only [toInt, Int.bmod_bmod]

theorem toInt_lt (a : ℤ) : toInt a < 2 ^ 31 := by
  have h := Int.bmod_lt (x := a) (m := 2 ^ 32) (by positivity)
  rw [toInt]
  omega

/-- A number that is not zero as an `int` is taken away until the counter is not positive. -/
theorem exists_toInt_nonpos {n : ℕ} (hn : toInt n ≠ 0) (remaining : ℤ) (hpos : 0 < toInt remaining) :
    ∃ t : ℕ, toInt (remaining - t * n) ≤ 0 := by
  have hzero : n ≠ 0 := by
    rintro rfl
    exact hn (by simp [toInt])
  obtain ⟨k, m, hodd, hnk⟩ := Nat.exists_eq_two_pow_mul_odd hzero
  obtain ⟨w, hw⟩ := hodd
  have hk : k < 32 := by
    by_contra hle
    apply hn
    rw [toInt, hnk]
    apply Int.bmod_eq_zero_of_dvd
    exact_mod_cast Dvd.dvd.mul_right (Nat.pow_dvd_pow 2 (by omega)) m
  -- these multiples of the number are half of the range
  have hhalf : 2 ^ (31 - k) * n = 2 ^ 31 + 2 ^ 32 * w := by
    rw [hnk, hw, ← Nat.mul_assoc, ← Nat.pow_add, Nat.sub_add_cancel (by omega)]
    ring
  refine ⟨2 ^ (31 - k), ?_⟩
  have hcast : ((2 ^ (31 - k) : ℕ) : ℤ) * n = 2 ^ 31 + 2 ^ 32 * w := by exact_mod_cast hhalf
  have hlt := toInt_lt remaining
  rw [hcast, ← toInt_toInt_sub]
  generalize toInt remaining = r at hpos hlt
  rw [toInt, Int.bmod]
  omega

end Counter

namespace Forwarding
variable {v : RtcmVersion} {bytes : Bytes} {s : Forwarding}

/-- A frame at the place where the loop is, with its preamble as it is, is sent. -/
theorem pass_frame (fuel : ℕ) {X : Frame v} {rest : Bytes} (hdrop : bytes.drop s.i = X.bytes ++ rest)
    (hpreamble : X.bytes.head? = some (rtcmByte v)) :
    s.pass v (fuel + 1) bytes = .ok (s.next (s.i + X.bytes.length) (s.sent ++ [X.bytes])) := by
  have hnone : ∀ byte ∈ ([] : Bytes), v.startsFrame byte = false := by simp
  obtain ⟨m, hset, hm⟩ := X.found fuel rest hnone
  have hskip : (X.bytes ++ rest).takeWhile (· ≠ rtcmByte v) = [] := by
    obtain ⟨tail, htail⟩ := List.head?_eq_some_iff.mp hpreamble
    simp [htail]
  have hlt : s.i < bytes.length := by
    have hlen := congrArg List.length hdrop
    have hpos := X.bytes_pos
    rw [List.length_drop, List.length_append] at hlen
    omega
  rw [List.nil_append] at hset
  simp only [pass, hdrop, hskip, List.length_nil, Nat.add_zero, if_pos hlt, hset]
  change (if m.isValid = true then m.getContents >>= _ else _) = _
  rw [if_pos hm.isValid, hm.getContents]
  rfl

/-- What is left behind the place where the loop is can be decoded within a few passes. Any bytes
can in version 2. -/
def Readable (v : RtcmVersion) (rest : Bytes) : Prop :=
  match v with
  | .SC10402_3 => True
  | .SC10403_3 => ∃ frames : List (Frame .SC10403_3), rest = frames.flatMap Frame.bytes

/-- What a pass does for any bytes that can be decoded. -/
structure Progress (v : RtcmVersion) (bytes : Bytes) (s s' : Forwarding) : Prop where
  remaining : s'.bytesRemaining = toInt (s.bytesRemaining - s'.i)
  bounded : s'.i ≤ bytes.length
  advance : s.i < bytes.length → s.i < s'.i
  sent : s'.sent.flatten.length + s.i ≤ s.sent.flatten.length + s'.i
  skipped : s.i < bytes.length → (bytes.drop s.i).head? ≠ some (rtcmByte v) →
    s'.sent.flatten.length + s.i < s.sent.flatten.length + s'.i
  readable : Readable v (bytes.drop s'.i)

/-- What a message of version 2 is decoded from has its length at least. -/
theorem contents_length {fuel : ℕ} {input payload : Bytes} {m : TmxRtcmMessage}
    (hset : (TmxRtcmMessage.create .SC10402_3 0).setContents fuel input = .ok m)
    (hvalid : m.isValid = true) (hcontents : m.getContents = .ok payload) :
    0 < payload.length ∧ payload.length ≤ input.length := by
  obtain ⟨X, hX⟩ := Frame.accepted hset hvalid
  have hpayload : X.bytes = payload := Except.ok.inj (hX.getContents.symm.trans hcontents)
  have hsize := hX.size
  cases hset
  have hflag : (Rtcm2Message.new.scan input).valid = true := by
    simp only [TmxRtcmMessage.isValid, Rtcm2Message.isValid, Bool.and_eq_true] at hvalid
    exact hvalid.1.1.1.1
  rw [← hpayload, ← hsize]
  exact ⟨hsize ▸ X.bytes_pos, (Rtcm2Message.scan_loaded hflag).size⟩

theorem takeWhile_pos {byte : UInt8} {l : Bytes} (hl : l ≠ []) (h : l.head? ≠ some byte) :
    0 < (l.takeWhile (· ≠ byte)).length := by
  cases l with
  | nil => exact absurd rfl hl
  | cons b l =>
    have hb : b ≠ byte := by simpa using h
    rw [List.takeWhile_cons_of_pos (by simpa using hb)]
    exact Nat.succ_pos _

theorem pass_rtcm2 (fuel : ℕ) (hle : s.i ≤ bytes.length) :
    ∃ s', s.pass .SC10402_3 fuel bytes = .ok s' ∧ Progress .SC10402_3 bytes s s' := by
  have htake := (List.takeWhile_prefix (l := bytes.drop s.i) (· ≠ rtcmByte .SC10402_3)).length_le
  have hskip : s.i < bytes.length → (bytes.drop s.i).head? ≠ some (rtcmByte .SC10402_3) →
      0 < ((bytes.drop s.i).takeWhile (· ≠ rtcmByte .SC10402_3)).length := by
    intro hlt
    apply takeWhile_pos
    intro hnil
    rw [List.drop_eq_nil_iff] at hnil
    omega
  rw [List.length_drop] at htake
  rw [pass]
  generalize ((bytes.drop s.i).takeWhile (· ≠ rtcmByte .SC10402_3)).length = n at htake hskip
  split_ifs with hfound
  · let m : TmxRtcmMessage := .rtcm2 (Rtcm2Message.new.setContents (bytes.drop (s.i + n)))
    have hset : (TmxRtcmMessage.create .SC10402_3 0).setContents fuel (bytes.drop (s.i + n)) =
        .ok m := rfl
    rw [hset]
    change ∃ s', (if m.isValid = true then m.getContents >>= _ else _) = _ ∧ _
    split_ifs with hvalid
    · obtain ⟨hpos, hlen⟩ := contents_length hset hvalid rfl
      rw [List.length_drop] at hlen
      refine ⟨_, rfl, rfl, ?_, fun _ => ?_, ?_, fun hlt hhead => ?_, trivial⟩
      · simp only [next]
        omega
      · simp only [next]
        omega
      · simp only [next, List.flatten_append, List.flatten_singleton, List.length_append]
        omega
      · have hn := hskip hlt hhead
        simp only [next, List.flatten_append, List.flatten_singleton, List.length_append]
        omega
    · refine ⟨_, rfl, rfl, ?_, fun _ => ?_, ?_, fun _ _ => ?_, trivial⟩ <;> simp only [next] <;> omega
  · refine ⟨_, rfl, rfl, ?_, fun _ => ?_, ?_, fun _ _ => ?_, trivial⟩ <;> simp only [next] <;> omega

theorem rtcm3_preamble (X : Frame .SC10403_3) : X.bytes.head? = some (rtcmByte .SC10403_3) := by
  cases X
  rfl

/-- The place behind a frame. -/
theorem drop_frame {X : Frame v} {rest : Bytes} (hdrop : bytes.drop s.i = X.bytes ++ rest) :
    bytes.drop (s.i + X.bytes.length) = rest ∧ s.i + X.bytes.length ≤ bytes.length := by
  have hlen := congrArg List.length hdrop
  have hpos := X.bytes_pos
  rw [List.length_drop, List.length_append] at hlen
  refine ⟨?_, by omega⟩
  rw [← List.drop_drop, hdrop, List.drop_left]

theorem pass_end (fuel : ℕ) (hend : bytes.length ≤ s.i) :
    s.pass v fuel bytes = .ok (s.next s.i s.sent) := by
  have hnil : bytes.drop s.i = [] := List.drop_eq_nil_of_le hend
  simp only [pass, hnil, List.takeWhile_nil, List.length_nil, Nat.add_zero, if_neg hend.not_gt]

theorem pass_rtcm3 (fuel : ℕ) (hle : s.i ≤ bytes.length)
    (hread : Readable .SC10403_3 (bytes.drop s.i)) :
    ∃ s', s.pass .SC10403_3 (fuel + 1) bytes = .ok s' ∧ Progress .SC10403_3 bytes s s' := by
  obtain ⟨frames, hdrop⟩ := hread
  cases frames with
  | nil =>
    have hend : bytes.length ≤ s.i := List.drop_eq_nil_iff.mp hdrop
    refine ⟨_, pass_end _ hend, rfl, hle, fun hlt => ?_, le_rfl, fun hlt => ?_, [], hdrop⟩ <;> omega
  | cons X frames =>
    rw [List.flatMap_cons] at hdrop
    obtain ⟨hrest, hbounded⟩ := drop_frame hdrop
    have hpos := X.bytes_pos
    refine ⟨_, pass_frame fuel hdrop (rtcm3_preamble X), rfl, hbounded, fun _ => ?_, ?_,
      fun _ hhead => ?_, frames, hrest⟩
    · simp only [next]
      omega
    · simp only [next, List.flatten_append, List.flatten_singleton, List.length_append]
      omega
    · rw [hdrop, List.head?_append, rtcm3_preamble] at hhead
      exact absurd rfl hhead

theorem pass_progress (fuel : ℕ) (hle : s.i ≤ bytes.length) (hread : Readable v (bytes.drop s.i)) :
    ∃ s', s.pass v (fuel + 1) bytes = .ok s' ∧ Progress v bytes s s' := by
  cases v with
  | SC10402_3 => exact pass_rtcm2 (fuel + 1) hle
  | SC10403_3 => exact pass_rtcm3 fuel hle hread

section Loop
variable {fuel steps : ℕ} {sent : List Bytes}

theorem loop_done (fuel : ℕ) (bytes : Bytes) (h : s.bytesRemaining ≤ 0) :
    loop v fuel bytes steps s = .ok s.sent := by
  rw [loop.eq_def]
  exact if_pos h

theorem loop_succ {s' : Forwarding} (h : 0 < s.bytesRemaining)
    (hpass : s.pass v fuel bytes = .ok s') :
    loop v fuel bytes (steps + 1) s = loop v fuel bytes steps s' := by
  rw [loop, if_neg h.not_ge, hpass]
  rfl

/-- More steps change nothing. -/
theorem loop_mono (h : loop v fuel bytes steps s = .ok sent) :
    loop v fuel bytes (steps + 1) s = .ok sent := by
  induction steps generalizing s with
  | zero =>
    by_cases hdone : s.bytesRemaining ≤ 0
    · rw [loop_done fuel bytes hdone] at h ⊢
      exact h
    · rw [loop, if_neg hdone] at h
      cases h
  | succ steps ih =>
    by_cases hdone : s.bytesRemaining ≤ 0
    · rw [loop_done fuel bytes hdone] at h ⊢
      exact h
    · rw [loop, if_neg hdone] at h ⊢
      obtain ⟨s', hpass, hloop⟩ := bind_eq_ok.mp h
      exact bind_eq_ok.mpr ⟨s', hpass, ih hloop⟩

theorem loop_le {steps' : ℕ} (hle : steps ≤ steps') (h : loop v fuel bytes steps s = .ok sent) :
    loop v fuel bytes steps' s = .ok sent := by
  induction hle with
  | refl => exact h
  | step _ ih => exact loop_mono ih

/-- At the end of the buffer, the counter goes down by its size until the loop ends. -/
theorem loop_end (fuel : ℕ) (hend : s.i = bytes.length) (t : ℕ)
    (ht : toInt (s.bytesRemaining - t * bytes.length) ≤ 0)
    (hint : toInt s.bytesRemaining = s.bytesRemaining) :
    ∃ steps, loop v fuel bytes steps s = .ok s.sent := by
  induction t generalizing s with
  | zero =>
    refine ⟨0, loop_done fuel bytes ?_⟩
    rw [Nat.cast_zero, zero_mul, sub_zero, hint] at ht
    exact ht
  | succ t ih =>
    by_cases hdone : s.bytesRemaining ≤ 0
    · exact ⟨0, loop_done fuel bytes hdone⟩
    have hnext : toInt ((s.next s.i s.sent).bytesRemaining - t * bytes.length) ≤ 0 := by
      rw [next, toInt_toInt_sub, hend]
      have hsum : s.bytesRemaining - bytes.length - t * bytes.length =
          s.bytesRemaining - (t + 1 : ℕ) * bytes.length := by
        push_cast
        ring
      rw [hsum]
      exact ht
    obtain ⟨steps, hloop⟩ := ih (s := s.next s.i s.sent) hend hnext (toInt_toInt _)
    refine ⟨steps + 1, ?_⟩
    rw [loop_succ (by omega) (pass_end fuel hend.ge)]
    exact hloop

/-- The loop ends, and what it sends was in the buffer behind the place where it is. -/
theorem loop_progress (fuel : ℕ) (hn : toInt bytes.length ≠ 0) (hle : s.i ≤ bytes.length)
    (hread : Readable v (bytes.drop s.i)) (hint : toInt s.bytesRemaining = s.bytesRemaining) :
    ∃ steps sent, loop v (fuel + 1) bytes steps s = .ok sent ∧
      sent.flatten.length + s.i ≤ s.sent.flatten.length + bytes.length := by
  induction hleft : bytes.length - s.i using Nat.strong_induction_on generalizing s with
  | _ left ih =>
    by_cases hdone : s.bytesRemaining ≤ 0
    · exact ⟨0, s.sent, loop_done _ bytes hdone, by omega⟩
    by_cases hend : s.i = bytes.length
    · obtain ⟨t, ht⟩ := exists_toInt_nonpos hn s.bytesRemaining (by omega)
      obtain ⟨steps, hloop⟩ := loop_end (v := v) (fuel + 1) hend t ht hint
      exact ⟨steps, s.sent, hloop, by omega⟩
    obtain ⟨s', hpass, hs'⟩ := pass_progress fuel hle hread
    have hadvance := hs'.advance (by omega)
    have hbounded := hs'.bounded
    obtain ⟨steps, sent, hloop, hsent⟩ := ih (bytes.length - s'.i) (by omega) hbounded hs'.readable
      (by rw [hs'.remaining, toInt_toInt]) rfl
    refine ⟨steps + 1, sent, ?_, ?_⟩
    · rw [loop_succ (by omega) hpass]
      exact hloop
    · have hstep := hs'.sent
      omega

end Loop

/-- The counter lasts from `i` on until each of the frames was sent. -/
def Lasts {v : RtcmVersion} : ℤ → ℕ → List (Frame v) → Prop
  | _, _, [] => True
  | remaining, i, X :: frames =>
    0 < remaining ∧ X.bytes.head? = some (rtcmByte v) ∧
      Lasts (toInt (remaining - (i + X.bytes.length : ℕ))) (i + X.bytes.length) frames

theorem framesEnd_cons (X : Frame v) (frames : List (Frame v)) (k : ℕ) :
    framesEnd (X :: frames) (k + 1) = X.bytes.length + framesEnd frames k := by
  rw [framesEnd, List.take_succ_cons, List.flatMap_cons, List.length_append, framesEnd]

theorem lasts_iff {frames : List (Frame v)} {remaining : ℤ} (i : ℕ)
    (hint : toInt remaining = remaining) :
    Lasts remaining i frames ↔ (∀ X ∈ frames, X.bytes.head? = some (rtcmByte v)) ∧
      ∀ k < frames.length, 0 < toInt
        (remaining - ∑ j ∈ Finset.range k, ((i + framesEnd frames (j + 1) : ℕ) : ℤ)) := by
  induction frames generalizing remaining i with
  | nil => simp [Lasts]
  | cons X frames ih =>
    have hsum : ∀ k, toInt (toInt (remaining - (i + X.bytes.length : ℕ)) -
        ∑ j ∈ Finset.range k, ((i + X.bytes.length + framesEnd frames (j + 1) : ℕ) : ℤ)) =
        toInt (remaining - ∑ j ∈ Finset.range (k + 1),
          ((i + framesEnd (X :: frames) (j + 1) : ℕ) : ℤ)) := by
      intro k
      have hzero : framesEnd frames 0 = 0 := rfl
      simp only [Finset.sum_range_succ' _ k, framesEnd_cons, hzero, ← Nat.add_assoc, Nat.add_zero]
      rw [toInt_toInt_sub, sub_sub, add_comm]
    rw [Lasts, ih (i + X.bytes.length) (toInt_toInt _), List.forall_mem_cons]
    simp only [hsum]
    constructor
    · rintro ⟨hpos, hX, hframes, hcounter⟩
      refine ⟨⟨hX, hframes⟩, fun k hk => ?_⟩
      cases k with
      | zero => simpa [hint] using hpos
      | succ k => exact hcounter k (Nat.lt_of_succ_lt_succ hk)
    · rintro ⟨⟨hX, hframes⟩, hcounter⟩
      refine ⟨?_, hX, hframes, fun k hk => hcounter (k + 1) (Nat.succ_lt_succ hk)⟩
      have hfirst := hcounter 0 (Nat.succ_pos _)
      simpa [hint] using hfirst

theorem readable_frames (frames : List (Frame v)) : Readable v (frames.flatMap Frame.bytes) := by
  cases v with
  | SC10402_3 => trivial
  | SC10403_3 => exact ⟨frames, rfl⟩

/-- A frame whose first byte is not the preamble is skipped at least in part, and what is sent does
not make up for it. -/
theorem loop_skips (fuel : ℕ) {X : Frame v} {frames : List (Frame v)}
    (hdrop : bytes.drop s.i = X.bytes ++ frames.flatMap Frame.bytes)
    (hX : X.bytes.head? ≠ some (rtcmByte v)) (hn : toInt bytes.length ≠ 0)
    (hpos : 0 < s.bytesRemaining) :
    ∃ steps sent, loop v (fuel + 1) bytes steps s = .ok sent ∧
      sent.flatten.length + s.i < s.sent.flatten.length + bytes.length := by
  have hlt : s.i < bytes.length := by
    have hlen := congrArg List.length hdrop
    have hpos := X.bytes_pos
    rw [List.length_drop, List.length_append] at hlen
    omega
  have hread : Readable v (bytes.drop s.i) := by
    rw [hdrop, ← List.flatMap_cons]
    exact readable_frames _
  have hhead : (bytes.drop s.i).head? ≠ some (rtcmByte v) := by
    rw [hdrop, List.head?_append_of_ne_nil _ (List.ne_nil_of_length_pos X.bytes_pos)]
    exact hX
  obtain ⟨s', hpass, hs'⟩ := pass_progress fuel hlt.le hread
  obtain ⟨steps, sent, hloop, hsent⟩ := loop_progress fuel hn hs'.bounded hs'.readable
    (by rw [hs'.remaining, toInt_toInt])
  have hskipped := hs'.skipped hlt hhead
  refine ⟨steps + 1, sent, ?_, by omega⟩
  rw [loop_succ hpos hpass]
  exact hloop

/-- Where frames are, the loop sends them all as long as the counter lasts, and less otherwise. -/
theorem loop_sends (fuel : ℕ) {frames : List (Frame v)}
    (hdrop : bytes.drop s.i = frames.flatMap Frame.bytes) (hle : s.i ≤ bytes.length)
    (hn : 0 < s.bytesRemaining → toInt bytes.length ≠ 0)
    (hint : toInt s.bytesRemaining = s.bytesRemaining) :
    ∃ steps sent, loop v (fuel + 1) bytes steps s = .ok sent ∧
      (sent = s.sent ++ frames.map Frame.bytes ↔ Lasts s.bytesRemaining s.i frames) := by
  induction frames generalizing s with
  | nil =>
    have hend : s.i = bytes.length := le_antisymm hle (List.drop_eq_nil_iff.mp hdrop)
    obtain ⟨t, ht⟩ : ∃ t : ℕ, toInt (s.bytesRemaining - t * bytes.length) ≤ 0 := by
      by_cases hpos : 0 < s.bytesRemaining
      · exact exists_toInt_nonpos (hn hpos) _ (by rw [hint]; exact hpos)
      · exact ⟨0, by simpa [hint] using hpos⟩
    obtain ⟨steps, hloop⟩ := loop_end (v := v) (fuel + 1) hend t ht hint
    exact ⟨steps, s.sent, hloop, by simp [Lasts]⟩
  | cons X frames ih =>
    rw [List.flatMap_cons] at hdrop
    by_cases hdone : s.bytesRemaining ≤ 0
    · refine ⟨0, s.sent, loop_done _ bytes hdone, ?_⟩
      simp [Lasts, hdone.not_gt]
    by_cases hX : X.bytes.head? = some (rtcmByte v)
    · obtain ⟨hrest, hbounded⟩ := drop_frame hdrop
      obtain ⟨steps, sent, hloop, hsent⟩ :=
        ih (s := s.next (s.i + X.bytes.length) (s.sent ++ [X.bytes])) hrest hbounded
          (fun _ => hn (by omega)) (toInt_toInt _)
      refine ⟨steps + 1, sent, ?_, ?_⟩
      · rw [loop_succ (by omega) (pass_frame fuel hdrop hX)]
        exact hloop
      · rw [List.map_cons, List.append_cons, Lasts]
        simp only [next] at hsent
        rw [hsent]
        exact ⟨fun h => ⟨by omega, hX, h⟩, fun h => h.2.2⟩
    · obtain ⟨steps, sent, hloop, hsent⟩ := loop_skips fuel hdrop hX (hn (by omega))
        (by omega)
      refine ⟨steps, sent, hloop, iff_of_false (fun heq => ?_) fun h => hX h.2.1⟩
      have hlen := congrArg List.length hdrop
      rw [heq, List.flatten_append, List.length_append, List.map_cons, List.flatten_cons,
        ← List.flatMap_def] at hsent
      rw [List.length_drop] at hlen
      omega

end Forwarding

/-- The counter starts with the size of the buffer, and each pass takes the place of the loop from
it: all frames are sent, each once and in their order, if and only if it lasts. -/
theorem decodeRtcm_sends_iff (fuel : ℕ) {v : RtcmVersion} (frames : List (Frame v)) :
    ∃ sent, (∃ least, ∀ steps ≥ least,
        decodeRtcm v (fuel + 1) steps (frames.flatMap Frame.bytes) = .ok sent) ∧
      (sent = frames.map Frame.bytes ↔ Forwards frames) := by
  let buffer := frames.flatMap Frame.bytes
  let start : Forwarding := ⟨toInt buffer.length, 0, []⟩
  have hdrop : buffer.drop start.i = frames.flatMap Frame.bytes := rfl
  have hn : 0 < start.bytesRemaining → toInt buffer.length ≠ 0 := fun hpos => hpos.ne'
  have hint : toInt start.bytesRemaining = start.bytesRemaining := toInt_toInt _
  obtain ⟨steps, sent, hloop, hsent⟩ :=
    Forwarding.loop_sends fuel hdrop (Nat.zero_le _) hn hint
  refine ⟨sent, ⟨steps, fun steps' hle => Forwarding.loop_le hle hloop⟩, ?_⟩
  rw [List.nil_append, Forwarding.lasts_iff 0 hint] at hsent
  simp only [start, toInt_toInt_sub, Nat.zero_add, ← Nat.cast_sum] at hsent
  rw [hsent]
  constructor
  · rintro ⟨hpreamble, hlasts⟩
    exact ⟨hpreamble, hlasts⟩
  · rintro ⟨hpreamble, hlasts⟩
    exact ⟨hpreamble, hlasts⟩

def attributes : Bytes := [0x3E, 0xD0, 0]

theorem attributes_length : attributes.length = (0 : UInt8).toNat % 4 * 256 + (3 : UInt8).toNat :=
  rfl

theorem attributes_length_ge : 3 ≤ attributes.length := le_rfl

/-- A frame of version 3 with the two attributes alone. -/
def attributesFrame : Frame .SC10403_3 :=
  .rtcm3 ⟨0, 3, attributes, attributes_length, attributes_length_ge⟩

/-- The last of three frames of one size is lost. -/
theorem decodeRtcm_loses_frame : ¬ ∃ fuel steps,
    decodeRtcm .SC10403_3 (fuel + 1) steps
      ([attributesFrame, attributesFrame, attributesFrame].flatMap Frame.bytes) =
        .ok ([attributesFrame, attributesFrame, attributesFrame].map Frame.bytes) := by
  rintro ⟨fuel, steps, hall⟩
  let frames := [attributesFrame, attributesFrame, attributesFrame]
  let buffer := frames.flatMap Frame.bytes
  let start : Forwarding := ⟨toInt buffer.length, 0, []⟩
  have hdrop : buffer.drop start.i = frames.flatMap Frame.bytes := rfl
  obtain ⟨least, sent, hloop, hsent⟩ := Forwarding.loop_sends fuel hdrop (Nat.zero_le _)
    (fun hpos => hpos.ne') (toInt_toInt _)
  have hmost := Forwarding.loop_le (le_max_left steps least) hall
  rw [Forwarding.loop_le (le_max_right steps least) hloop] at hmost
  obtain ⟨-, -, -, -, hthird, -⟩ := hsent.mp (Except.ok.inj hmost)
  revert hthird
  decide +kernel

end V2IHub.Location
