import V2IHub.Rtcm.Accepted

/-! When the loop ends with which the RTCM 3 decoder looks for a frame. -/
namespace V2IHub.Rtcm
open Foundation

namespace Rtcm3Message

/-- A pass over the buffer; `none` if the loop ends with it. -/
def pass (bytes : Bytes) : Option Bytes :=
  if rejects (candidate bytes) then some (retry (candidate bytes)) else none

/-- The buffer after so many passes. -/
def passes : ℕ → Bytes → Option Bytes
  | 0, bytes => some bytes
  | i + 1, bytes => (pass bytes).bind (passes i)

/-- If the next pass fails, the check bytes that it puts in once more hold no preamble. -/
def Quiet (bytes : Bytes) : Prop :=
  rejects (candidate bytes) = true → preambleByte ∉ checkBytes (candidate bytes)

instance (bytes : Bytes) : Decidable (Quiet bytes) :=
  inferInstanceAs (Decidable (_ → _))

section Ends
variable {bytes next : Bytes}

theorem rejects_iff : rejects bytes = true ↔
    headerBytes ≤ bytes.length ∧ frameEnd bytes ≤ bytes.length ∧ intact bytes = false := by
  simp [rejects, and_assoc]

theorem pass_eq_some : pass bytes = some next ↔
    rejects (candidate bytes) = true ∧ retry (candidate bytes) = next := by
  rw [pass]
  split_ifs with h <;> simp [h]

theorem passes_add (i j : ℕ) (bytes : Bytes) :
    passes (i + j) bytes = (passes i bytes).bind (passes j) := by
  induction i generalizing bytes with
  | zero => rw [Nat.zero_add, passes, Option.bind_some]
  | succ i ih =>
    rw [Nat.add_right_comm, passes, passes, Option.bind_assoc]
    exact congrArg _ (funext ih)

/-- The call returns exactly when the passes come to an end. -/
theorem scan_isSome_iff (fuel : ℕ) {m : Rtcm3Message} (hdata : m.data = []) :
    (scan fuel m).isSome = true ↔ passes fuel m.bytes = none := by
  induction fuel generalizing m with
  | zero => simp [scan, passes]
  | succ fuel ih =>
    rw [scan_succ fuel hdata, passes, pass]
    by_cases hreject : rejects (candidate m.bytes) = true
    · obtain ⟨hheader, hframe, hintact⟩ := rejects_iff.mp hreject
      rw [if_neg (Nat.not_lt.mpr hheader), if_neg (Nat.not_lt.mpr hframe), hintact,
        if_pos hreject, Option.bind_some]
      exact ih hdata
    · have hends : headerBytes ≤ (candidate m.bytes).length →
          frameEnd (candidate m.bytes) ≤ (candidate m.bytes).length →
          intact (candidate m.bytes) = true := by
        intro hheader hframe
        cases hintact : intact (candidate m.bytes) with
        | true => rfl
        | false => exact absurd (rejects_iff.mpr ⟨hheader, hframe, hintact⟩) hreject
      rw [if_neg hreject]
      split_ifs with hshort hfew hintact
      · simp
      · simp
      · simp
      · exact absurd (hends (Nat.le_of_not_lt hshort) (Nat.le_of_not_lt hfew)) hintact

theorem count_candidate (bytes : Bytes) :
    (candidate bytes).count preambleByte = bytes.count preambleByte := by
  have hsplit := List.takeWhile_append_dropWhile (p := (· ≠ preambleByte)) (l := bytes)
  have hnone : (bytes.takeWhile (· ≠ preambleByte)).count preambleByte = 0 := by
    rw [List.count_eq_zero]
    intro hmem
    simpa using List.mem_takeWhile_imp hmem
  conv_rhs => rw [← hsplit, List.count_append, hnone, Nat.zero_add]
  rfl

/-- A pass that fails takes one preamble away and adds those of the check bytes. -/
theorem count_retry (h : rejects (candidate bytes) = true) :
    (retry (candidate bytes)).count preambleByte + 1 =
      bytes.count preambleByte + (checkBytes (candidate bytes)).count preambleByte := by
  obtain ⟨hheader, -, -⟩ := rejects_iff.mp h
  rcases candidate_cases bytes with hshort | ⟨x, y, rest, hcons⟩
  · omega
  obtain ⟨k, hk⟩ : ∃ k, checkStart (candidate bytes) = k + 1 :=
    ⟨claimedLength (candidate bytes) + 2, by simp only [checkStart, headerBytes]; omega⟩
  have hretry : preambleByte :: retry (candidate bytes) =
      (candidate bytes).take (checkStart (candidate bytes)) ++ checkBytes (candidate bytes) ++
        (candidate bytes).drop (checkStart (candidate bytes)) := by
    rw [retry, hk]
    generalize checkBytes (candidate bytes) = check
    rw [hcons]
    rfl
  have hcount := congrArg (List.count preambleByte) hretry
  rw [List.count_cons_self, List.count_append, List.count_append] at hcount
  have hsplit := congrArg (List.count preambleByte)
    (List.take_append_drop (checkStart (candidate bytes)) (candidate bytes))
  rw [List.count_append, count_candidate] at hsplit
  omega

/-- Quiet passes come to an end, at the latest when no preamble is left. -/
theorem passes_end (h : ∀ i, ∀ next ∈ passes i bytes, Quiet next) :
    passes (bytes.count preambleByte + 1) bytes = none := by
  induction hcount : bytes.count preambleByte generalizing bytes with
  | zero =>
    rw [passes]
    cases hpass : pass bytes with
    | none => rfl
    | some next =>
      obtain ⟨hreject, -⟩ := pass_eq_some.mp hpass
      have hretry := count_retry hreject
      have hnone := List.count_eq_zero.mpr (h 0 bytes rfl hreject)
      omega
  | succ n ih =>
    rw [passes]
    cases hpass : pass bytes with
    | none => rfl
    | some next =>
      obtain ⟨hreject, rfl⟩ := pass_eq_some.mp hpass
      have hretry := count_retry hreject
      have hnone := List.count_eq_zero.mpr (h 0 bytes rfl hreject)
      apply ih
      · intro i next hnext
        apply h (i + 1) next
        rw [passes, hpass]
        exact hnext
      · omega

end Ends

end Rtcm3Message
end V2IHub.Rtcm
