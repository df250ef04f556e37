import Mathlib.Data.List.GetD
import V2IHub.Rtcm.Resynchronization

/-! Which frame the loop of the RTCM 3 decoder finds. A try that fails leaves its check bytes in the
buffer twice, which is the same as a second copy of them behind the claimed frame. -/
namespace V2IHub.Rtcm
open Foundation

/-- The bytes with something put in before each of them. -/
def spread (pad : ℕ → Bytes) : ℕ → Bytes → Bytes
  | i, [] => pad i
  | i, byte :: bytes => pad i ++ byte :: spread pad (i + 1) bytes

section Spread
variable {pad pad' : ℕ → Bytes} {i : ℕ} {bytes : Bytes}

theorem spread_congr (h : ∀ j ≥ i, pad j = pad' j) : spread pad i bytes = spread pad' i bytes := by
  induction bytes generalizing i with
  | nil => exact h i le_rfl
  | cons byte bytes ih =>
    rw [spread, spread, h i le_rfl, ih fun j hj => h j (Nat.le_of_succ_le hj)]

/-- Bytes with nothing in between. -/
theorem spread_split {n : ℕ} (hn : 0 < n) (hle : n ≤ bytes.length)
    (hclear : ∀ j, i < j → j < i + n → pad j = []) :
    spread pad i bytes = pad i ++ (bytes.take n ++ spread pad (i + n) (bytes.drop n)) := by
  induction n generalizing i bytes with
  | zero => omega
  | succ n ih =>
    cases bytes with
    | nil => simp at hle
    | cons byte bytes =>
      rw [spread, List.take_succ_cons, List.drop_succ_cons, List.cons_append]
      cases n with
      | zero => rfl
      | succ n =>
        have hnext : pad (i + 1) = [] := hclear (i + 1) (by omega) (by omega)
        have htail : spread pad (i + 1) bytes = pad (i + 1) ++
            (bytes.take (n + 1) ++ spread pad (i + 1 + (n + 1)) (bytes.drop (n + 1))) :=
          ih (by omega) (by simpa using hle) fun j hj hlt => hclear j (by omega) (by omega)
        rw [htail, hnext, List.nil_append, Nat.add_assoc, Nat.add_comm 1]

theorem spread_insert (x : Bytes) :
    spread (Function.update pad i (x ++ pad i)) i bytes = x ++ spread pad i bytes := by
  cases bytes with
  | nil => simp [spread]
  | cons byte bytes =>
    have hrest : spread (Function.update pad i (x ++ pad i)) (i + 1) bytes =
        spread pad (i + 1) bytes :=
      spread_congr fun j hj => Function.update_of_ne (by omega) _ _
    rw [spread, spread, Function.update_self, hrest, List.append_assoc]

end Spread

namespace Rtcm3Message

section Claimed
variable {X : Bytes} (hX : frameEnd X = X.length) (rest : Bytes)
include hX

theorem checkStart_le : checkStart X ≤ X.length := by
  rw [← hX, frameEnd]
  exact Nat.le_add_right _ _

theorem claimedLength_append : claimedLength (X ++ rest) = claimedLength X := by
  have hlen : 3 ≤ X.length := by
    rw [← hX, frameEnd, checkStart]
    simp only [headerBytes, crcBytes]
    omega
  have hget : ∀ i < 3, (X ++ rest).getD i 0 = X.getD i 0 := by
    intro i hi
    rw [List.getD_append _ _ _ _ (by omega)]
  rw [claimedLength, claimedLength, hget 1 (by decide), hget 2 (by decide)]

theorem checkStart_append : checkStart (X ++ rest) = checkStart X := by
  rw [checkStart, claimedLength_append hX, checkStart]

/-- A claimed frame is given by its own bytes. -/
theorem frameEnd_append : frameEnd (X ++ rest) = X.length := by
  rw [← hX, frameEnd, checkStart_append hX, frameEnd]

theorem checkBytes_append : checkBytes (X ++ rest) = X.drop (checkStart X) := by
  have hlen : (X.drop (checkStart X)).length = crcBytes := by
    rw [List.length_drop, ← hX, frameEnd, Nat.add_sub_cancel_left]
  rw [checkBytes, checkStart_append hX, List.drop_append_of_le_length (checkStart_le hX),
    List.take_left' hlen]

theorem intact_append : intact (X ++ rest) = intact X := by
  have hcheck := checkBytes_append hX []
  rw [List.append_nil] at hcheck
  rw [intact, intact, checkBytes_append hX, hcheck, checkStart_append hX,
    List.take_append_of_le_length (checkStart_le hX)]

/-- The check bytes are put in again behind the claimed frame. -/
theorem retry_append : retry (X ++ rest) = X.tail ++ (X.drop (checkStart X) ++ rest) := by
  have hpos : X ≠ [] := by
    rintro rfl
    simp [frameEnd, crcBytes] at hX
  rw [retry, checkBytes_append hX, checkStart_append hX,
    List.take_append_of_le_length (checkStart_le hX), List.take_append_drop,
    List.drop_append_of_le_length (checkStart_le hX), List.tail_append_of_ne_nil hpos]

omit hX in
theorem frameEnd_take {bytes : Bytes} (h : frameEnd bytes ≤ bytes.length) :
    frameEnd (bytes.take (frameEnd bytes)) = (bytes.take (frameEnd bytes)).length := by
  have hget : ∀ i < 3, (bytes.take (frameEnd bytes)).getD i 0 = bytes.getD i 0 := by
    intro i hi
    have hlt : i < frameEnd bytes := by
      simp only [frameEnd, checkStart, headerBytes, crcBytes]
      omega
    rw [List.getD_eq_getElem?_getD, List.getElem?_take_of_lt hlt, List.getD_eq_getElem?_getD]
  have hclaimed : claimedLength (bytes.take (frameEnd bytes)) = claimedLength bytes := by
    rw [claimedLength, hget 1 (by decide), hget 2 (by decide), claimedLength]
  rw [List.length_take, Nat.min_eq_left h, frameEnd, checkStart, hclaimed]
  rfl

theorem rejects_append (h : intact X = false) : rejects (X ++ rest) = true := by
  rw [rejects_iff, intact_append hX, frameEnd_append hX, List.length_append]
  have hhead : headerBytes ≤ X.length := by
    rw [← hX, frameEnd, checkStart]
    omega
  exact ⟨by omega, by omega, h⟩

end Claimed

section Scan
variable {m : Rtcm3Message}

theorem candidate_append {garbage : Bytes} (hg : preambleByte ∉ garbage) (bytes : Bytes) :
    candidate (garbage ++ bytes) = candidate bytes := by
  rw [candidate, List.dropWhile_append_of_pos]
  · rfl
  · intro byte hbyte
    have hne : byte ≠ preambleByte := fun h => hg (h ▸ hbyte)
    simpa using hne

/-- What the loop returns does not depend on the fuel. -/
theorem scan_unique {fuel fuel' : ℕ} {a b : Rtcm3Message} (h : scan fuel m = some a)
    (h' : scan fuel' m = some b) : a = b := by
  induction fuel generalizing m fuel' with
  | zero => simp [scan] at h
  | succ fuel ih =>
    cases fuel' with
    | zero => simp [scan] at h'
    | succ fuel' =>
      rw [scan] at h h'
      dsimp only at h h'
      split_ifs at h h' with hshort
      · exact Option.some.inj (h.symm.trans h')
      cases hheader : assignHeader { m with bytes := m.bytes.dropWhile (· ≠ preambleByte) } with
      | error m₁ =>
        simp only [hheader] at h h'
        exact Option.some.inj (h.symm.trans h')
      | ok m₁ =>
        simp only [hheader] at h h'
        split_ifs at h h' with hfew
        · exact Option.some.inj (h.symm.trans h')
        cases hcrc : m₁.assignCrc
            ((m₁.bytes.drop (headerBytes + m₁.messageLength)).take crcBytes) with
        | error m₂ =>
          simp only [hcrc] at h h'
          exact Option.some.inj (h.symm.trans h')
        | ok m₂ =>
          simp only [hcrc] at h h'
          split_ifs at h h' with hparity
          · exact Option.some.inj (h.symm.trans h')
          · exact ih h h'

theorem candidate_cons (bytes : Bytes) :
    candidate (preambleByte :: bytes) = preambleByte :: bytes := by
  simp [candidate]

/-- Bytes that cannot start a frame are passed over. -/
theorem scan_skip (fuel : ℕ) (hdata : m.data = []) {garbage bytes : Bytes}
    (hg : preambleByte ∉ garbage) :
    scan fuel { m with bytes := garbage ++ bytes } = scan fuel { m with bytes := bytes } := by
  cases fuel with
  | zero => rfl
  | succ fuel =>
    have hskip := scan_succ (m := { m with bytes := garbage ++ bytes }) fuel hdata
    simp only [candidate_append hg] at hskip
    exact hskip.trans (scan_succ (m := { m with bytes := bytes }) fuel hdata).symm

/-- After a try that fails, the next pass starts behind its preamble. -/
theorem scan_reject (fuel : ℕ) (hdata : m.data = []) {bytes : Bytes}
    (hstart : candidate bytes = bytes) (h : rejects bytes = true) :
    scan (fuel + 1) { m with bytes := bytes } =
      scan fuel { m.tried bytes with bytes := retry bytes } := by
  obtain ⟨hheader, hframe, hintact⟩ := rejects_iff.mp h
  have hpass := scan_succ (m := { m with bytes := bytes }) fuel hdata
  simp only [hstart, hintact] at hpass
  rw [if_neg (Nat.not_lt.mpr hheader), if_neg (Nat.not_lt.mpr hframe), if_neg (by decide)] at hpass
  exact hpass

end Scan
end Rtcm3Message

namespace Frame3
variable (F : Frame3) {m : Rtcm3Message}

theorem frameEnd_bytes : Rtcm3Message.frameEnd F.bytes = F.bytes.length := by
  have hclaimed : Rtcm3Message.claimedLength F.bytes = F.payload.length := F.length_eq.symm
  rw [bytes_length, Rtcm3Message.frameEnd, Rtcm3Message.checkStart, hclaimed]
  simp only [Rtcm3Message.headerBytes, Rtcm3Message.crcBytes]
  omega

theorem claimedLength_bytes : Rtcm3Message.claimedLength F.bytes = F.payload.length :=
  F.length_eq.symm

theorem drop_checkStart : F.bytes.drop (Rtcm3Message.checkStart F.bytes) = bigEndian 3 F.crc := by
  rw [Rtcm3Message.checkStart, F.claimedLength_bytes, bytes, List.drop_left']
  rw [body_length, Nat.add_comm]
  rfl

theorem take_checkStart : F.bytes.take (Rtcm3Message.checkStart F.bytes) = F.body := by
  rw [Rtcm3Message.checkStart, F.claimedLength_bytes, bytes, List.take_left']
  rw [body_length, Nat.add_comm]
  rfl

theorem packWords_crc : packWords 8 ((bigEndian 3 F.crc).map UInt8.toNat) = F.crc := by
  rw [bigEndian_toNat, Nat.mod_eq_of_lt F.crc_lt]

theorem intact_bytes : Rtcm3Message.intact F.bytes = true := by
  have hcheck := Rtcm3Message.checkBytes_append F.frameEnd_bytes []
  rw [List.append_nil, drop_checkStart] at hcheck
  rw [Rtcm3Message.intact, hcheck, packWords_crc, take_checkStart]
  exact decide_eq_true rfl

/-- A frame at the front of the buffer is found by the next pass. -/
theorem scan_frame (fuel : ℕ) (rest : Bytes) (hdata : m.data = []) :
    Rtcm3Message.scan (fuel + 1) { m with bytes := F.bytes ++ rest } =
      some { F.decoded (F.payload ++ (bigEndian 3 F.crc ++ rest)) with valid := m.valid } := by
  have hcandidate : Rtcm3Message.candidate (F.bytes ++ rest) = F.bytes ++ rest :=
    Rtcm3Message.candidate_cons _
  have hlen : (F.bytes ++ rest).length = F.payload.length + 6 + rest.length := by
    rw [List.length_append, bytes_length]
  have hend := Rtcm3Message.frameEnd_append F.frameEnd_bytes rest
  have hclaimed := Rtcm3Message.claimedLength_append F.frameEnd_bytes rest
  have hintact : Rtcm3Message.intact (F.bytes ++ rest) = true := by
    rw [Rtcm3Message.intact_append F.frameEnd_bytes, intact_bytes]
  have htried : Rtcm3Message.tried { m with bytes := F.bytes ++ rest } (F.bytes ++ rest) =
      { m with
        bytes := F.bytes ++ rest
        preamble := Rtcm3Message.preambleByte.toNat
        reserved := F.high.toNat / 4
        messageLength := F.payload.length
        crc := F.crc } := by
    rw [Rtcm3Message.tried, Rtcm3Message.headed, Rtcm3Message.checkBytes_append F.frameEnd_bytes,
      drop_checkStart, packWords_crc, hclaimed, claimedLength_bytes]
    rfl
  have hpass := Rtcm3Message.scan_succ (m := { m with bytes := F.bytes ++ rest }) fuel hdata
  simp only [hcandidate] at hpass
  rw [if_neg (by rw [hlen]; simp only [Rtcm3Message.headerBytes]; omega),
    if_neg (by rw [hend, List.length_append]; omega), if_pos hintact, htried] at hpass
  exact hpass.trans (congrArg some (F.loadMessage_eq rest hdata rfl rfl))

end Frame3

namespace Rtcm3Message

/-- Where the frame claimed at a position ends. -/
def claimEnd (bytes : Bytes) (p : ℕ) : ℕ := p + frameEnd (bytes.drop p)

/-- The check bytes of what is claimed at `p` are not put into the frame from `k` to `n`, hold no
preamble if they come before it, and are not put into what is claimed between `p` and `k`. -/
def Nests (bytes : Bytes) (k n p : ℕ) : Prop :=
  (claimEnd bytes p ≤ k ∧ preambleByte ∉ checkBytes (bytes.drop p) ∨ n ≤ claimEnd bytes p) ∧
    ∀ q < k, p < q → bytes[q]? = some preambleByte →
      claimEnd bytes p ≤ q ∨ claimEnd bytes q ≤ claimEnd bytes p

instance (bytes : Bytes) (k n p : ℕ) : Decidable (Nests bytes k n p) :=
  inferInstanceAs (Decidable (_ ∧ _))

/-- What was put in so far does not change how the bytes from `i` on are read. -/
structure Sound (bytes : Bytes) (k n : ℕ) (pad : ℕ → Bytes) (i : ℕ) : Prop where
  quiet : ∀ j ≤ k, preambleByte ∉ pad j
  clear : ∀ j, k < j → j < n → pad j = []
  whole : ∀ q, i ≤ q → q < k → bytes[q]? = some preambleByte →
    ∀ j, q < j → j < claimEnd bytes q → pad j = []

section Run
variable {bytes : Bytes} {k n i : ℕ} {pad : ℕ → Bytes}

theorem Sound.succ (h : Sound bytes k n pad i) : Sound bytes k n pad (i + 1) :=
  ⟨h.quiet, h.clear, fun q hq => h.whole q (Nat.le_of_succ_le hq)⟩

/-- The check bytes of a try that fails are put in where they do no harm. -/
theorem Sound.insert (h : Sound bytes k n pad i) (hkn : k < n) (hnests : Nests bytes k n i) :
    Sound bytes k n (Function.update pad (claimEnd bytes i)
      (checkBytes (bytes.drop i) ++ pad (claimEnd bytes i))) (i + 1) := by
  obtain ⟨hplace, hinner⟩ := hnests
  refine ⟨fun j hj => ?_, fun j hk hn => ?_, fun q hq hqk hpre j hj hend => ?_⟩
  · by_cases hij : j = claimEnd bytes i
    · have hcheck : preambleByte ∉ checkBytes (bytes.drop i) := by
        rcases hplace with ⟨-, hcheck⟩ | hbehind
        · exact hcheck
        · omega
      rw [hij, Function.update_self, List.mem_append]
      exact fun hmem => hmem.elim hcheck (h.quiet _ (hij ▸ hj))
    · rw [Function.update_of_ne hij]
      exact h.quiet j hj
  · rw [Function.update_of_ne (by omega)]
    exact h.clear j hk hn
  · have hside := hinner q hqk hq hpre
    rw [Function.update_of_ne (by omega)]
    exact h.whole q (by omega) hqk hpre j hj hend

theorem spread_nothing (i : ℕ) (bytes : Bytes) : spread (fun _ => []) i bytes = bytes := by
  induction bytes generalizing i with
  | nil => rfl
  | cons byte bytes ih => rw [spread, ih, List.nil_append]

/-- The frame claimed at a position. -/
def claim (bytes : Bytes) (i : ℕ) : Bytes := (bytes.drop i).take (frameEnd (bytes.drop i))

theorem claim_append (bytes : Bytes) (i : ℕ) :
    claim bytes i ++ bytes.drop (claimEnd bytes i) = bytes.drop i := by
  rw [claim, claimEnd, ← List.drop_drop, List.take_append_drop]

theorem frameEnd_claim (h : rejects (bytes.drop i) = true) :
    frameEnd (claim bytes i) = (claim bytes i).length :=
  frameEnd_take (rejects_iff.mp h).2.1

theorem six_le_frameEnd (bytes : Bytes) : 6 ≤ frameEnd bytes := by
  simp only [frameEnd, checkStart, headerBytes, crcBytes]
  omega

/-- Nothing was put into the claimed frame. -/
theorem spread_claim (hsound : Sound bytes k n pad i) (hik : i < k)
    (hpre : bytes[i]? = some preambleByte) (h : rejects (bytes.drop i) = true) :
    spread pad i (bytes.drop i) =
      pad i ++ (claim bytes i ++ spread pad (claimEnd bytes i) (bytes.drop (claimEnd bytes i))) := by
  have hlong := six_le_frameEnd (bytes.drop i)
  rw [spread_split (n := frameEnd (bytes.drop i)) (by omega) (rejects_iff.mp h).2.1
    (hsound.whole i le_rfl hik hpre), List.drop_drop]
  rfl

/-- The buffer after a try that fails. -/
theorem retry_claim (hsound : Sound bytes k n pad i) (hik : i < k)
    (hpre : bytes[i]? = some preambleByte) (h : rejects (bytes.drop i) = true) :
    retry (claim bytes i ++ spread pad (claimEnd bytes i) (bytes.drop (claimEnd bytes i))) =
      spread (Function.update pad (claimEnd bytes i)
        (checkBytes (bytes.drop i) ++ pad (claimEnd bytes i))) (i + 1) (bytes.drop (i + 1)) := by
  obtain ⟨l, hl⟩ : ∃ l, frameEnd (bytes.drop i) = l + 1 :=
    ⟨_, (Nat.succ_pred (by have := six_le_frameEnd (bytes.drop i); omega)).symm⟩
  have hlong := six_le_frameEnd (bytes.drop i)
  have hcheck : checkBytes (bytes.drop i) = (claim bytes i).drop (checkStart (claim bytes i)) := by
    have hown := checkBytes_append (frameEnd_claim h) (bytes.drop (claimEnd bytes i))
    rwa [claim_append] at hown
  have htail : (claim bytes i).tail = (bytes.drop (i + 1)).take l := by
    rw [claim, hl, ← List.drop_one, List.drop_take, List.drop_drop, Nat.add_sub_cancel]
  have hend : i + 1 + l = claimEnd bytes i := by
    rw [claimEnd, hl]
    omega
  have hle := (rejects_iff.mp h).2.1
  rw [List.length_drop] at hle
  have hclear : ∀ j, i < j → j < claimEnd bytes i → Function.update pad (claimEnd bytes i)
      (checkBytes (bytes.drop i) ++ pad (claimEnd bytes i)) j = [] := by
    intro j hj hlt
    rw [Function.update_of_ne (by omega)]
    exact hsound.whole i le_rfl hik hpre j hj hlt
  have hlength : l ≤ (bytes.drop (i + 1)).length := by
    rw [List.length_drop]
    omega
  have hsplit := spread_split (i := i + 1) (by omega) hlength
    fun j hj hlt => hclear j (by omega) (by omega)
  rw [hclear (i + 1) (by omega) (by omega), List.nil_append, List.drop_drop, hend] at hsplit
  rw [retry_append (frameEnd_claim h), ← hcheck, htail, ← spread_insert, hsplit]

/-- One pass at a preamble: the claimed frame is passed over, and its check bytes are put in behind
it. -/
theorem scan_claim {m : Rtcm3Message} (hdata : m.data = [])
    (hsound : Sound bytes k n pad i) (hik : i < k) (hpre : bytes[i]? = some preambleByte)
    (h : rejects (bytes.drop i) = true) :
    ∃ m' : Rtcm3Message, m'.data = [] ∧ m'.valid = m.valid ∧ ∀ fuel,
      scan (fuel + 1) { m with bytes := spread pad i (bytes.drop i) } =
        scan fuel { m' with bytes := spread (Function.update pad (claimEnd bytes i)
          (checkBytes (bytes.drop i) ++ pad (claimEnd bytes i))) (i + 1) (bytes.drop (i + 1)) } := by
  have hstart : candidate (claim bytes i ++ spread pad (claimEnd bytes i)
      (bytes.drop (claimEnd bytes i))) = claim bytes i ++ spread pad (claimEnd bytes i)
      (bytes.drop (claimEnd bytes i)) := by
    obtain ⟨tail, htail⟩ : ∃ tail, claim bytes i = preambleByte :: tail := by
      obtain ⟨hlt, hget⟩ := List.getElem?_eq_some_iff.mp hpre
      obtain ⟨l, hl⟩ : ∃ l, frameEnd (bytes.drop i) = l + 1 :=
        ⟨_, (Nat.succ_pred (by have := six_le_frameEnd (bytes.drop i); omega)).symm⟩
      exact ⟨_, by rw [claim, hl, List.drop_eq_getElem_cons hlt, hget, List.take_succ_cons]⟩
    rw [htail]
    exact candidate_cons _
  have hbad : intact (claim bytes i) = false := by
    rw [← (rejects_iff.mp h).2.2, ← intact_append (frameEnd_claim h)
      (bytes.drop (claimEnd bytes i)), claim_append]
  refine ⟨m.tried (claim bytes i ++
    spread pad (claimEnd bytes i) (bytes.drop (claimEnd bytes i))), hdata, rfl, fun fuel => ?_⟩
  rw [spread_claim hsound hik hpre h, scan_skip _ hdata (hsound.quiet i hik.le),
    scan_reject fuel hdata hstart (rejects_append (frameEnd_claim h) _ hbad),
    retry_claim hsound hik hpre h]

/-- From every position before the frame, the loop gets to the frame. -/
theorem scan_spread (F : Frame3) (hframe : F.bytes <+: bytes.drop k)
    (hmisread : ∀ p < k, bytes[p]? = some preambleByte → rejects (bytes.drop p) = true)
    (hnests : ∀ p < k, bytes[p]? = some preambleByte → Nests bytes k (k + F.bytes.length) p)
    (hik : i ≤ k) (hsound : Sound bytes k (k + F.bytes.length) pad i) {m : Rtcm3Message}
    (hdata : m.data = []) (hvalid : m.valid = true) :
    ∃ fuel front, scan fuel { m with bytes := spread pad i (bytes.drop i) } =
      some (F.decoded front) := by
  have hpos : k < k + F.bytes.length := by
    rw [F.bytes_length]
    omega
  induction hleft : k - i generalizing i pad m with
  | zero =>
    obtain rfl : i = k := by omega
    have hlen := hframe.length_le
    have hfront : (bytes.drop i).take F.bytes.length = F.bytes :=
      (List.prefix_iff_eq_take.mp hframe).symm
    have hscan : ∀ rest, scan 1 { m with bytes := F.bytes ++ rest } =
        some (F.decoded (F.payload ++ (bigEndian 3 F.crc ++ rest))) := by
      intro rest
      rw [F.scan_frame 0 rest hdata, hvalid]
      rfl
    rw [spread_split (by omega) hlen fun j hj hlt => hsound.clear j hj (by omega), hfront]
    exact ⟨1, _, (scan_skip _ hdata (hsound.quiet i le_rfl)).trans (hscan _)⟩
  | succ left ih =>
    have hlt : i < k := by omega
    have hlong : i < bytes.length := by
      have hlen := hframe.length_le
      rw [List.length_drop] at hlen
      omega
    by_cases hpre : bytes[i]? = some preambleByte
    · obtain ⟨m', hdata', hvalid', hpass⟩ := scan_claim hdata hsound hlt hpre (hmisread i hlt hpre)
      obtain ⟨fuel, front, hscan⟩ := ih hlt (hsound.insert hpos (hnests i hlt hpre)) hdata'
        (hvalid'.trans hvalid) (by omega)
      exact ⟨fuel + 1, front, (hpass fuel).trans hscan⟩
    · obtain ⟨fuel, front, hscan⟩ := ih hlt hsound.succ hdata hvalid (by omega)
      refine ⟨fuel, front, Eq.trans ?_ hscan⟩
      have hskip : preambleByte ∉ pad i ++ [bytes[i]] := by
        rw [List.getElem?_eq_getElem hlong, Option.some.injEq] at hpre
        rw [List.mem_append, List.mem_singleton]
        exact fun hmem => hmem.elim (hsound.quiet i hik) fun heq => hpre heq.symm
      rw [List.drop_eq_getElem_cons hlong, spread, List.append_cons]
      exact scan_skip fuel hdata hskip

end Run

/-- The first frame is found behind bytes that only look like frames, if the check bytes that these
leave in the buffer hold no preamble and go neither into it nor into what is claimed later. -/
theorem setContents_firstFrame (bytes : Bytes) (k : ℕ) (F : Frame3)
    (hframe : F.bytes <+: bytes.drop k)
    (hmisread : ∀ p < k, bytes[p]? = some preambleByte → rejects (bytes.drop p) = true)
    (hnests : ∀ p < k, bytes[p]? = some preambleByte → Nests bytes k (k + F.bytes.length) p) :
    ∃ fuel m, setContents fuel .new bytes = some m ∧ m.isValid = true ∧
      m.getContents = some F.bytes := by
  have hsound : Sound bytes k (k + F.bytes.length) (fun _ => []) 0 :=
    ⟨fun _ _ => List.not_mem_nil, fun _ _ _ => rfl, fun _ _ _ _ _ _ _ => rfl⟩
  obtain ⟨fuel, front, hscan⟩ := scan_spread F hframe hmisread hnests (Nat.zero_le k) hsound
    (m := .new) rfl rfl
  rw [List.drop_zero, spread_nothing] at hscan
  exact ⟨fuel, _, hscan, F.isValid_decoded front, F.getContents_decoded front⟩

/-- A frame with the two attributes alone. -/
def shortFrame : Frame3 := ⟨0, 3, [0x3E, 0xD0, 0], rfl, by decide⟩

/-- Something that looks like a frame with three other bytes, and the frame. -/
theorem setContents_behind_misread :
    ∃ fuel m, setContents fuel .new ([0xD3, 0, 3, 7, 7, 7, 1, 2, 3] ++ shortFrame.bytes) = some m ∧
      m.isValid = true ∧ m.getContents = some shortFrame.bytes :=
  setContents_firstFrame _ 9 shortFrame (List.prefix_refl _) (by decide +kernel) (by decide +kernel)

/-- A header without data takes the header of the frame for its check bytes, and the frame is
lost. -/
theorem setContents_loses_frame :
    ¬ ∀ (bytes : Bytes) (k : ℕ) (F : Frame3), F.bytes <+: bytes.drop k →
      (∀ p < k, bytes[p]? = some preambleByte → rejects (bytes.drop p) = true) →
      ∃ fuel m, setContents fuel .new bytes = some m ∧ m.isValid = true ∧
        m.getContents = some F.bytes := by
  intro hclaim
  obtain ⟨fuel, m, hset, hvalid, -⟩ := hclaim ([0xD3, 0, 0] ++ shortFrame.bytes) 3 shortFrame
    (List.prefix_refl _) (by decide +kernel)
  have hlost : (setContents 8 .new ([0xD3, 0, 0] ++ shortFrame.bytes)).map isValid =
      some false := by decide +kernel
  obtain ⟨m', hrun, hinvalid⟩ := Option.map_eq_some_iff.mp hlost
  rw [scan_unique hrun hset, hvalid] at hinvalid
  cases hinvalid

end Rtcm3Message
end V2IHub.Rtcm
