import Mathlib.Data.List.TakeWhile
import Mathlib.Tactic

/-! Byte strings and the memory of a fixed-size `char` array. -/
namespace V2IHub.Foundation

/-- The characters of a C string, or the bytes of a buffer, without a terminator. -/
abbrev Bytes := List UInt8

/-- The bytes of a string literal of the source; every such literal is ASCII. -/
def cstr (s : String) : Bytes := s.toList.map fun c => UInt8.ofNat c.toNat

theorem cstr_ofList (l : List Char) :
    cstr (String.ofList l) = l.map fun c => UInt8.ofNat c.toNat := by
  rw [cstr, String.toList_ofList]

/-- The C string that starts at the head of `mem`. -/
def cstringAt (mem : Bytes) : Bytes := mem.takeWhile (· ≠ 0)

/-- `strstr` for a needle of one nonzero byte: the search ends at the terminator. -/
def strstrByte (c : UInt8) : Bytes → Option ℕ
  | [] => none
  | b :: mem => if b = 0 then none else if b = c then some 0 else (strstrByte c mem).map (· + 1)

/-- The next index of a text whose length an `unsigned int` holds. -/
theorem toNat_next {str : Bytes} {i : BitVec 32} (hlen : str.length < 2 ^ 32)
    (hi : i.toNat < str.length) : (i + 1).toNat = i.toNat + 1 := by
  have hone : (1 : BitVec 32).toNat = 1 := rfl
  rw [BitVec.toNat_add, hone, Nat.mod_eq_of_lt (by omega)]

namespace Memory
variable {n : ℕ}

/-- `for (i = 0; i < count; i++) buf[i] = buf[i + shift];` -/
def shiftDown (shift : ℕ) : ℕ → Vector UInt8 n → Vector UInt8 n
  | 0, buf => buf
  | i + 1, buf =>
    let done := shiftDown shift i buf
    done.setIfInBounds i (done[i + shift]?.getD 0)

/-- Store `bytes` at consecutive positions from `pos` on. -/
def store (buf : Vector UInt8 n) : ℕ → Bytes → Vector UInt8 n
  | _, [] => buf
  | pos, b :: bytes => store (buf.setIfInBounds pos b) (pos + 1) bytes

theorem shiftDown_get (shift count : ℕ) (buf : Vector UInt8 n) (hb : count + shift ≤ n) (i : ℕ) :
    (shiftDown shift count buf).toList[i]? =
      if i < count then buf.toList[i + shift]? else buf.toList[i]? := by
  induction count generalizing i with
  | zero => simp [shiftDown]
  | succ c ih =>
    have hc := ih (by omega)
    have hread : (shiftDown shift c buf)[c + shift]? = buf[c + shift]? := by
      have h := hc (c + shift)
      simpa [Vector.getElem?_toList] using h
    have hlt : c + shift < n := by omega
    simp only [shiftDown, Vector.toList_setIfInBounds, List.getElem?_set, hread]
    rcases Nat.lt_trichotomy i c with hi | rfl | hi
    · rw [if_neg (by omega), hc, if_pos hi, if_pos (by omega)]
    · have hl : i < (shiftDown shift i buf).toList.length := by simp; omega
      simp only [if_true, hl, Nat.lt_succ_self]
      simp [Vector.getElem?_toList, Vector.getElem?_eq_getElem hlt]
    · rw [if_neg (by omega), hc, if_neg (by omega), if_neg (by omega)]

/-- Dropping the first `pre.length` bytes of what the buffer holds, terminator included. -/
theorem shiftDown_toList {pre data junk : Bytes} {buf : Vector UInt8 n}
    (hb : buf.toList = pre ++ data ++ 0 :: junk) :
    ∃ junk', (shiftDown pre.length (data.length + 1) buf).toList = data ++ 0 :: junk' := by
  have hn : n = pre.length + data.length + 1 + junk.length := by
    have h := congrArg List.length hb
    simp only [Vector.length_toList, List.length_append, List.length_cons] at h
    omega
  set moved := (shiftDown pre.length (data.length + 1) buf).toList with hm
  refine ⟨moved.drop (data.length + 1), ?_⟩
  have htake : moved.take (data.length + 1) = data ++ [0] := by
    apply List.ext_getElem?
    intro i
    rw [List.getElem?_take]
    split
    · next hi =>
      have hget := shiftDown_get pre.length (data.length + 1) buf (by omega) i
      rw [hm, hget, if_pos hi, hb, List.append_assoc,
        List.getElem?_append_right (by omega), Nat.add_sub_cancel]
      have hs : data ++ 0 :: junk = (data ++ [0]) ++ junk := by simp
      rw [hs, List.getElem?_append_left (by simpa using hi)]
    · next hi => exact (List.getElem?_eq_none (by simp; omega)).symm
  calc moved = moved.take (data.length + 1) ++ moved.drop (data.length + 1) :=
        (List.take_append_drop _ _).symm
    _ = data ++ 0 :: moved.drop (data.length + 1) := by rw [htake]; simp

theorem store_toList (bytes : Bytes) {front back : Bytes} {buf : Vector UInt8 n}
    (hb : buf.toList = front ++ back) (hl : bytes.length ≤ back.length) :
    (store buf front.length bytes).toList = front ++ bytes ++ back.drop bytes.length := by
  induction bytes generalizing front back buf with
  | nil => simpa [store] using hb
  | cons b bytes ih =>
    cases back with
    | nil => simp at hl
    | cons c back =>
      have hset : (buf.setIfInBounds front.length b).toList = (front ++ [b]) ++ back := by
        rw [Vector.toList_setIfInBounds, hb, List.set_append_right _ _ (le_refl _)]
        simp
      have h := ih hset (by simpa using hl)
      simpa [store] using h

end Memory

theorem strstrByte_absent {c : UInt8} {data junk : Bytes} (hc : c ∉ data) (hz : 0 ∉ data) :
    strstrByte c (data ++ 0 :: junk) = none := by
  induction data with
  | nil => simp [strstrByte]
  | cons b data ih =>
    simp only [List.mem_cons, not_or] at hc hz
    simp [strstrByte, Ne.symm hz.1, Ne.symm hc.1, ih hc.2 hz.2]

theorem strstrByte_first {c : UInt8} {front rest : Bytes} (h0 : c ≠ 0) (hc : c ∉ front)
    (hz : 0 ∉ front) : strstrByte c (front ++ c :: rest) = some front.length := by
  induction front with
  | nil => simp [strstrByte, h0]
  | cons b front ih =>
    simp only [List.mem_cons, not_or] at hc hz
    simp [strstrByte, Ne.symm hz.1, Ne.symm hc.1, ih hc.2 hz.2]

theorem zero_notMem_cstringAt (mem : Bytes) : 0 ∉ cstringAt mem := by
  induction mem with
  | nil => simp [cstringAt]
  | cons b mem ih =>
    rw [cstringAt, List.takeWhile_cons]
    split_ifs with hb
    · have hb : b ≠ 0 := by simpa using hb
      simpa [Ne.symm hb, cstringAt] using ih
    · simp

theorem cstringAt_eq {data : Bytes} (hz : 0 ∉ data) (rest : Bytes) : cstringAt (data ++ 0 :: rest) = data := by
  induction data with
  | nil => simp [cstringAt]
  | cons b data ih =>
    simp only [List.mem_cons, not_or] at hz
    simp only [cstringAt, ne_eq, decide_not] at ih ⊢
    simp [Ne.symm hz.1, ih hz.2]

theorem cstringAt_of_not_mem {s : Bytes} (h : 0 ∉ s) : cstringAt s = s := by
  have hall : ∀ b ∈ s, decide (b ≠ 0) = true := by
    intro b hb
    simpa using ne_of_mem_of_not_mem hb h
  exact List.takeWhile_eq_self_iff.mpr hall

end V2IHub.Foundation
