import V2IHub.Foundation.Bytes

/-! The buffer between the raw connection of `gpsd` and the decoders. -/
namespace V2IHub.Location
open Foundation

def newline : UInt8 := 10

/-- `find_last_of`, with `none` for `npos`. -/
def findLastOf (byte : UInt8) : Bytes → Option ℕ
  | [] => none
  | b :: text =>
    match findLastOf byte text with
    | some i => some (i + 1)
    | none => if b = byte then some 0 else none

/-- `rawString`, and the payloads of the messages that were sent to the decoders. -/
structure RawBuffer where
  rawString : Bytes
  forwarded : List Bytes
deriving DecidableEq

namespace RawBuffer

def empty : RawBuffer := ⟨[], []⟩

/-- `DoSampleGPS<WATCH_RAW>` with what `read` stores; there is nothing if it returns no positive
number. -/
def doSampleGPS (buffer : RawBuffer) (bytes : Bytes) : RawBuffer :=
  if bytes = [] then buffer
  else
    let rawString := buffer.rawString ++ bytes
    let len := rawString.length - (findLastOf newline rawString).getD 0
    ⟨if len = rawString.length then [] else rawString.drop len,
      buffer.forwarded ++ [rawString.take len]⟩

def run (reads : List Bytes) : RawBuffer := reads.foldl doSampleGPS empty

end RawBuffer

/-- There is as much behind the last newline as in front of it. -/
def Centred (text : Bytes) : Prop :=
  ∀ front tail, text = front ++ newline :: tail → newline ∉ tail → tail.length = front.length

section Search
variable {byte : UInt8} {front tail : Bytes}

theorem findLastOf_none (h : byte ∉ tail) : findLastOf byte tail = none := by
  induction tail with
  | nil => rfl
  | cons b tail ih =>
    rw [List.mem_cons, not_or] at h
    rw [findLastOf, ih h.2]
    exact if_neg (Ne.symm h.1)

theorem findLastOf_append (h : byte ∉ tail) :
    findLastOf byte (front ++ byte :: tail) = some front.length := by
  induction front with
  | nil => simp [findLastOf, findLastOf_none h]
  | cons b front ih => simp [findLastOf, ih]

end Search

namespace RawBuffer
variable {buffer : RawBuffer} {bytes : Bytes}

theorem doSampleGPS_flatten (buffer : RawBuffer) (bytes : Bytes) :
    (buffer.doSampleGPS bytes).forwarded.flatten ++ (buffer.doSampleGPS bytes).rawString =
      buffer.forwarded.flatten ++ (buffer.rawString ++ bytes) := by
  rw [doSampleGPS]
  split_ifs with hempty
  · rw [hempty, List.append_nil]
  · dsimp only
    rw [List.flatten_append, List.flatten_singleton, List.append_assoc]
    split_ifs with hall
    · rw [hall, List.take_length, List.append_nil]
    · rw [List.take_append_drop]

theorem run_append (before : List Bytes) (bytes : Bytes) :
    run (before ++ [bytes]) = (run before).doSampleGPS bytes := by
  rw [run, List.foldl_append]
  rfl

/-- No byte gets lost. -/
theorem run_flatten (reads : List Bytes) :
    (run reads).forwarded.flatten ++ (run reads).rawString = reads.flatten := by
  induction reads using List.reverseRecOn with
  | nil => rfl
  | append_singleton before bytes ih =>
    rw [run_append, doSampleGPS_flatten, ← List.append_assoc, ih, List.flatten_append,
      List.flatten_singleton]

/-- Behind a newline, as many bytes are sent as there are from it on. -/
theorem doSampleGPS_newline (hne : bytes ≠ []) {front tail : Bytes}
    (htext : buffer.rawString ++ bytes = front ++ newline :: tail) (htail : newline ∉ tail) :
    buffer.doSampleGPS bytes =
        ⟨tail, buffer.forwarded ++ [front ++ [newline]]⟩ ↔ tail.length = front.length := by
  have hlen : (front ++ newline :: tail).length - (some front.length).getD 0 = tail.length + 1 := by
    simp only [List.length_append, List.length_cons, Option.getD_some]
    omega
  have hsplit : front ++ newline :: tail = (front ++ [newline]) ++ tail := by simp
  have hsample : buffer.doSampleGPS bytes =
      ⟨if tail.length + 1 = (front ++ newline :: tail).length then []
        else (front ++ newline :: tail).drop (tail.length + 1),
        buffer.forwarded ++ [(front ++ newline :: tail).take (tail.length + 1)]⟩ := by
    rw [doSampleGPS, if_neg hne, htext]
    simp only [findLastOf_append htail, hlen]
  rw [hsample, RawBuffer.mk.injEq, List.append_cancel_left_eq, List.singleton_inj]
  constructor
  · rintro ⟨-, hblock⟩
    have hblockLen := congrArg List.length hblock
    simp only [List.length_take, List.length_append, List.length_cons, List.length_nil] at hblockLen
    omega
  · intro hcentred
    have hfront : (front ++ [newline]).length = tail.length + 1 := by simp [hcentred]
    rw [hsplit, List.take_left' hfront, List.drop_left' hfront]
    refine ⟨?_, rfl⟩
    split_ifs with hall
    · rw [List.length_append, hfront] at hall
      exact (List.length_eq_zero_iff.mp (by omega)).symm
    · rfl

/-- For any reads, the bytes sent and those retained are the bytes read; and the bytes sent are those
up to the last newline, wherever there is one, exactly if that is always in the middle. -/
theorem run_splits_iff (reads : List Bytes) :
    (run reads).forwarded.flatten ++ (run reads).rawString = reads.flatten ∧
      ((∀ before bytes after, reads = before ++ bytes :: after → bytes ≠ [] →
          ∀ front tail, (run before).rawString ++ bytes = front ++ newline :: tail →
            newline ∉ tail → run (before ++ [bytes]) =
              ⟨tail, (run before).forwarded ++ [front ++ [newline]]⟩) ↔
        ∀ before bytes after, reads = before ++ bytes :: after → bytes ≠ [] →
          Centred ((run before).rawString ++ bytes)) := by
  refine ⟨run_flatten reads, ?_⟩
  constructor
  · intro hright before bytes after hreads hne front tail htext htail
    have hsplit := hright before bytes after hreads hne front tail htext htail
    rw [run_append] at hsplit
    exact (doSampleGPS_newline hne htext htail).mp hsplit
  · intro hcentred before bytes after hreads hne front tail htext htail
    rw [run_append]
    exact (doSampleGPS_newline hne htext htail).mpr
      (hcentred before bytes after hreads hne front tail htext htail)

/-- Of `ab`, a newline and `c`, the first half is sent. -/
theorem run_breaks_line :
    run [[97, 98, 10, 99]] = ⟨[10, 99], [[97, 98]]⟩ ∧
      ¬ ∀ (reads before : List Bytes) (bytes : Bytes) (after : List Bytes),
        reads = before ++ bytes :: after → bytes ≠ [] →
        ∀ front tail, (run before).rawString ++ bytes = front ++ newline :: tail →
          newline ∉ tail → run (before ++ [bytes]) =
            ⟨tail, (run before).forwarded ++ [front ++ [newline]]⟩ := by
  have hrun : run [[97, 98, 10, 99]] = ⟨[10, 99], [[97, 98]]⟩ := by decide
  refine ⟨hrun, fun hclaim => ?_⟩
  have h := hclaim [[97, 98, 10, 99]] [] [97, 98, 10, 99] [] rfl (by decide) [97, 98] [99] rfl
    (by decide)
  exact absurd (hrun.symm.trans h) (by decide)

end RawBuffer
end V2IHub.Location
