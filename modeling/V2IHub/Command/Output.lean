import V2IHub.Foundation.Machine
import V2IHub.Utils.Base64

/-! The output buffer of a session of `CommandPlugin` and `SendData`, which passes it on in
chunks. -/
namespace V2IHub.Command.Output
open V2IHub.Foundation V2IHub.Utils

def MAX_SEND_BYTES : ℕ := 5000

/-- What is still to be sent, and the data of the calls of `lws_write` so far. -/
structure State where
  outputBuffer : Bytes
  written : List Bytes
deriving DecidableEq

/-- The loop that waits while the pipe is choked, with `left` rounds to go; `choked i` is the
answer to the call after `i` rounds. The fifth answer ends the loop whatever it is. -/
def chokeLoop (choked : ℕ → Bool) : (left count : ℕ) → ℕ
  | 0, count => count
  | left + 1, count => if choked count then chokeLoop choked left (count + 1) else count

/-- A chunk, or all of a buffer that is not larger, leaves the buffer before the pipe is asked. -/
def sendData (s : State) (choked : ℕ → Bool) : State :=
  if s.outputBuffer.length = 0 then s
  else
    let pluginList64 := Base64.encode (s.outputBuffer.take MAX_SEND_BYTES)
    let s := { s with outputBuffer := s.outputBuffer.drop MAX_SEND_BYTES }
    if chokeLoop choked 4 0 < 4 then { s with written := s.written ++ [pluginList64] } else s

inductive Act where
  /-- A telemetry message or a command response. -/
  | append (data : Bytes)
  | sendData (choked : ℕ → Bool)

def step (s : State) : Act → State
  | .append data => { s with outputBuffer := s.outputBuffer ++ data }
  | .sendData choked => sendData s choked

/-- The buffer of a session from its beginning on. -/
def run (acts : List Act) : State := acts.foldl step ⟨[], []⟩

def appended : List Act → Bytes
  | [] => []
  | .append data :: acts => data ++ appended acts
  | .sendData _ :: acts => appended acts

/-- What a client decodes of the data written. -/
def decoded (s : State) : Bytes := (s.written.map Base64.decode).flatten

/-- One of the four answers that count says that the pipe is free. -/
def Opens (choked : ℕ → Bool) : Prop := ∃ i < 4, choked i = false

theorem chokeLoop_lt_iff (choked : ℕ → Bool) (left count : ℕ) :
    chokeLoop choked left count < count + left ↔ ∃ i < left, choked (count + i) = false := by
  induction left generalizing count with
  | zero => simp [chokeLoop]
  | succ left ih =>
    unfold chokeLoop
    cases hchoked : choked count with
    | false =>
      simp only [Bool.false_eq_true, ↓reduceIte]
      exact ⟨fun _ => ⟨0, by omega, by simpa using hchoked⟩, fun _ => by omega⟩
    | true =>
      simp only [↓reduceIte]
      rw [show count + (left + 1) = count + 1 + left by omega, ih]
      constructor
      · rintro ⟨i, hi, hfree⟩
        exact ⟨i + 1, by omega, by rw [← hfree]; congr 1; omega⟩
      · rintro ⟨i, hi, hfree⟩
        cases i with
        | zero => simp [hchoked] at hfree
        | succ i => exact ⟨i, by omega, by rw [← hfree]; congr 1; omega⟩

theorem opens_iff (choked : ℕ → Bool) : chokeLoop choked 4 0 < 4 ↔ Opens choked := by
  simpa [Opens] using chokeLoop_lt_iff choked 4 0

/-- What is written and what is left in the buffer, after the chunk is passed on. -/
theorem sendData_keeps {s : State} {choked : ℕ → Bool}
    (h : s.outputBuffer ≠ [] → Opens choked) :
    decoded (sendData s choked) ++ (sendData s choked).outputBuffer =
      decoded s ++ s.outputBuffer := by
  unfold sendData
  by_cases hempty : s.outputBuffer.length = 0
  · rw [if_pos hempty]
  · rw [if_neg hempty]
    have hopens : chokeLoop choked 4 0 < 4 :=
      (opens_iff choked).mpr (h fun hnil => hempty (by simp [hnil]))
    simp only [hopens, ↓reduceIte, decoded, List.map_append, List.map_cons, List.map_nil,
      Base64.decode_encode, List.flatten_append, List.flatten_cons, List.flatten_nil,
      List.append_nil, List.append_assoc, List.take_append_drop]

theorem appended_append (acts : List Act) (act : Act) :
    appended (acts ++ [act]) = appended acts ++ appended [act] := by
  induction acts with
  | nil => simp [appended]
  | cons a acts ih =>
    cases a with
    | append data => simp [appended, ih]
    | sendData choked => simp [appended, ih]

/-- Nothing is lost on the way of the buffer as long as each send finds the pipe free. -/
theorem run_keeps {acts : List Act}
    (h : ∀ pre choked, pre ++ [.sendData choked] <+: acts → (run pre).outputBuffer ≠ [] →
      Opens choked) :
    decoded (run acts) ++ (run acts).outputBuffer = appended acts := by
  induction acts using List.reverseRecOn with
  | nil => rfl
  | append_singleton acts act ih =>
    have hrun : run (acts ++ [act]) = step (run acts) act := by
      unfold run
      rw [List.foldl_append]
      rfl
    have hpre := ih fun pre choked hpre =>
      h pre choked (hpre.trans (List.prefix_append acts [act]))
    rw [hrun, appended_append, ← hpre]
    cases act with
    | append data => simp [step, decoded, appended]
    | sendData choked =>
      rw [step, sendData_keeps (h acts choked (List.prefix_refl _))]
      simp [appended]

/-- What the client has is a prefix of what was appended, after every step of a run whose
sends all find the pipe free within the four answers. -/
theorem run_decoded_prefix {acts : List Act}
    (h : ∀ pre choked, pre ++ [.sendData choked] <+: acts → (run pre).outputBuffer ≠ [] →
      Opens choked) :
    ∀ pre, pre <+: acts → decoded (run pre) <+: appended pre := by
  intro pre hpre
  have hkeeps := run_keeps fun pre' choked hpre' => h pre' choked (hpre'.trans hpre)
  exact ⟨(run pre).outputBuffer, hkeeps⟩

theorem run_decoded_prefix_sample :
    decoded (run [.append [1, 2], .sendData fun i => decide (i < 2), .append [3]]) <+:
      appended [.append [1, 2], .sendData fun i => decide (i < 2), .append [3]] := by
  refine run_decoded_prefix ?_ _ (List.prefix_refl _)
  intro pre choked hpre _
  have hmem := hpre.subset (List.mem_append_right pre (List.mem_singleton_self _))
  simp only [List.mem_cons, reduceCtorEq, Act.sendData.injEq, List.not_mem_nil, or_false,
    false_or] at hmem
  subst hmem
  exact ⟨2, by decide, by decide⟩

/-- A chunk that finds the pipe choked four times is gone. -/
theorem run_decoded_prefix_fails :
    ¬ decoded (run [.append [1, 2], .sendData fun _ => true, .append [3],
        .sendData fun _ => false]) <+:
      appended [.append [1, 2], .sendData fun _ => true, .append [3], .sendData fun _ => false] := by
  decide +kernel

end V2IHub.Command.Output
