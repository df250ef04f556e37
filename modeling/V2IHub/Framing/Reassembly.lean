import V2IHub.Framing.MsgFramer

/-! Stream reassembly: for every way of cutting a stream into received chunks the framer
returns what a one-pass scanner finds in the whole stream. -/
namespace V2IHub.Framing
open Foundation

/-- The reference scanner either looks for a start marker or has a frame open. -/
inductive ScanState where
  | skipping
  | collecting (frame : Bytes)
  deriving DecidableEq

namespace ScanState

/-- The bytes counted from the start marker of the open frame. -/
def pendingBytes : ScanState → Bytes
  | skipping => []
  | collecting frame => STX :: frame

/-- An open frame is given up when `cap` bytes counted from its marker hold no end. -/
def collect (cap : ℕ) (frame : Bytes) : ScanState :=
  if frame.length + 1 = cap then skipping else collecting frame

def scanByte (cap : ℕ) : ScanState → UInt8 → ScanState × List Bytes
  | skipping, b => (if b = STX then collect cap [] else skipping, [])
  | collecting frame, b =>
    if b = ETX then (skipping, [frame]) else (collect cap (frame ++ [b]), [])

def scanFrom (cap : ℕ) : ScanState → Bytes → ScanState × List Bytes
  | σ, [] => (σ, [])
  | σ, b :: stream =>
    let now := scanByte cap σ b
    let later := scanFrom cap now.1 stream
    (later.1, now.2 ++ later.2)

theorem scanFrom_append (cap : ℕ) (σ : ScanState) (a b : Bytes) :
    scanFrom cap σ (a ++ b) = ((scanFrom cap (scanFrom cap σ a).1 b).1,
      (scanFrom cap σ a).2 ++ (scanFrom cap (scanFrom cap σ a).1 b).2) := by
  induction a generalizing σ with
  | nil => simp [scanFrom]
  | cons x a ih => simp [scanFrom, ih]

theorem scanFrom_garbage {cap : ℕ} {garbage : Bytes} (hs : STX ∉ garbage) :
    scanFrom cap skipping garbage = (skipping, []) := by
  induction garbage with
  | nil => rfl
  | cons b garbage ih =>
    simp only [List.mem_cons, not_or] at hs
    simp [scanFrom, scanByte, Ne.symm hs.1, ih hs.2]

theorem scanFrom_collect {cap : ℕ} (acc : Bytes) {frame : Bytes} (he : ETX ∉ frame)
    (hl : acc.length + frame.length + 1 ≤ cap) :
    scanFrom cap (collect cap acc) frame = (collect cap (acc ++ frame), []) := by
  induction frame generalizing acc with
  | nil => simp [scanFrom]
  | cons b frame ih =>
    simp only [List.mem_cons, not_or] at he
    simp only [List.length_cons] at hl
    have hopen : collect cap acc = collecting acc := if_neg (by omega)
    have hrest := ih (acc ++ [b]) he.2 (by simp; omega)
    simp [scanFrom, hopen, scanByte, Ne.symm he.1, hrest]

theorem scanFrom_open {cap : ℕ} {garbage frame : Bytes} (hs : STX ∉ garbage) (he : ETX ∉ frame)
    (hl : frame.length + 1 ≤ cap) :
    scanFrom cap skipping (garbage ++ STX :: frame) = (collect cap frame, []) := by
  have h := scanFrom_collect [] he (by simpa using hl)
  rw [scanFrom_append, scanFrom_garbage hs]
  simp only [scanFrom, scanByte, if_true]
  simpa using h

/-- A frame that fits is returned, and the scan resumes behind it. -/
theorem scanFrom_frame {cap : ℕ} {garbage frame : Bytes} (rest : Bytes) (hs : STX ∉ garbage)
    (he : ETX ∉ frame) (hl : frame.length + 2 ≤ cap) :
    scanFrom cap skipping (garbage ++ STX :: frame ++ ETX :: rest) =
      ((scanFrom cap skipping rest).1, frame :: (scanFrom cap skipping rest).2) := by
  have hopen : collect cap frame = collecting frame := if_neg (by omega)
  rw [scanFrom_append, scanFrom_open hs he (by omega), hopen]
  simp [scanFrom, scanByte]

end ScanState

/-- The frames the reference scanner finds in a whole stream. -/
def scan (cap : ℕ) (stream : Bytes) : List Bytes := (ScanState.scanFrom cap .skipping stream).2

theorem scan_frames {cap : ℕ} {msgs : List Bytes}
    (h : ∀ m ∈ msgs, Frameable m ∧ (createFramedMsg m).length ≤ cap) :
    scan cap (msgs.map createFramedMsg).flatten = msgs := by
  induction msgs with
  | nil => rfl
  | cons m msgs ih =>
    obtain ⟨hm, hl⟩ := h m (by simp)
    have hl' : m.length + 2 ≤ cap := by
      simp only [createFramedMsg, List.length_append, List.length_cons, List.length_nil] at hl
      omega
    have hrest := ih fun x hx => h x (by simp [hx])
    have hframe := ScanState.scanFrom_frame (msgs.map createFramedMsg).flatten
      (List.not_mem_nil : STX ∉ []) hm.2.2 hl'
    simp only [scan] at hrest ⊢
    simpa [createFramedMsg, hrest] using congrArg Prod.snd hframe

namespace MsgFramer
variable {cap : ℕ}

/-- `while ((rawMessage = msgFramer_getNextMsg(&framer)) != NULL)`; `none` is lack of fuel. -/
def drain : ℕ → MsgFramer cap → Option (MsgFramer cap × List Bytes)
  | 0, _ => none
  | fuel + 1, f =>
    match f.getNextMsg with
    | (f', none) => some (f', [])
    | (f', some msg) => (drain fuel f').map fun r => (r.1, msg :: r.2)

/-- One pass of the receive loop. A message takes at least two of the `cap` bytes,
so the inner loop never needs as many iterations as it is given. -/
def receiveChunk (f : MsgFramer cap) (chunk : Bytes) : Option (MsgFramer cap × List Bytes) :=
  (f.receive chunk).drain (cap + 1)

def receiveAll (f : MsgFramer cap) : List Bytes → Option (MsgFramer cap × List Bytes)
  | [] => some (f, [])
  | chunk :: chunks =>
    match f.receiveChunk chunk with
    | none => none
    | some (g, msgs) => (receiveAll g chunks).map fun r => (r.1, msgs ++ r.2)

/-- Every chunk is nonempty and no longer than `msgFramer_getBufLength` reports for it. -/
def ChunksFit (f : MsgFramer cap) : List Bytes → Prop
  | [] => True
  | chunk :: chunks => chunk ≠ [] ∧ chunk.length ≤ f.getBufLength ∧
    match f.receiveChunk chunk with
    | none => True
    | some (g, _) => ChunksFit g chunks

/-- Between two chunks the framer keeps the open frame of the scanner, and room for more. -/
structure Drained (f : MsgFramer cap) (σ : ScanState) : Prop where
  readpos_eq : f.readpos = 0
  bufpos_eq : f.bufpos = σ.pendingBytes.length
  bufpos_lt : f.bufpos < cap
  layout : ∃ junk, f.buf.toList = σ.pendingBytes ++ junk
  nonzero : 0 ∉ σ.pendingBytes
  rescan : ScanState.scanFrom cap .skipping σ.pendingBytes = (σ, [])

theorem drained_empty {f : MsgFramer cap} (h0 : 0 < cap) (hp : f.bufpos = 0) (hr : f.readpos = 0) :
    f.Drained .skipping where
  readpos_eq := hr
  bufpos_eq := hp
  bufpos_lt := hp ▸ h0
  layout := ⟨_, rfl⟩
  nonzero := by simp [ScanState.pendingBytes]
  rescan := rfl

theorem drained_pending {f : MsgFramer cap} {garbage frame : Bytes} (hr : f.readpos = 0)
    (hz : 0 ∉ garbage ++ STX :: frame) (he : ETX ∉ frame) (hl : frame.length + 1 ≤ cap)
    (hf : if frame.length + 1 = cap then f.bufpos = 0
      else f.bufpos = frame.length + 1 ∧ ∃ junk, f.buf.toList = STX :: frame ++ junk) :
    f.Drained (ScanState.collect cap frame) := by
  unfold ScanState.collect
  split at hf
  · next hfull =>
    rw [if_pos hfull]
    exact drained_empty (by omega) hf hr
  · next hroom =>
    rw [if_neg hroom]
    obtain ⟨hp, junk, hb⟩ := hf
    have hrescan := ScanState.scanFrom_open (List.not_mem_nil : STX ∉ []) he hl
    have hopen : ScanState.collect cap frame = .collecting frame := if_neg hroom
    exact ⟨hr, by simp [hp, ScanState.pendingBytes], by omega, ⟨junk, hb⟩,
      fun hm => hz (by simp only [ScanState.pendingBytes] at hm; simp_all),
      by simpa [ScanState.pendingBytes, hopen] using hrescan⟩

/-- The inner loop ends, returns what the scanner finds, and leaves its open frame. -/
theorem drain_scan {f : MsgFramer cap} {data : Bytes} {fuel : ℕ} (h0 : 0 < cap)
    (h : f.Holds data) (hz : 0 ∉ data) (hfuel : data.length < fuel) :
    ∃ f', f.drain fuel = some (f', (ScanState.scanFrom cap .skipping data).2) ∧
      f'.Drained (ScanState.scanFrom cap .skipping data).1 := by
  induction fuel generalizing f data with
  | zero => omega
  | succ fuel ih =>
    have hcap := h.bufpos_le
    have hpos := h.bufpos_eq
    by_cases hs : STX ∈ data
    · obtain ⟨garbage, tail, rfl, hg⟩ := List.eq_append_cons_of_mem hs
      simp only [List.length_append, List.length_cons] at hpos hfuel
      by_cases he : ETX ∈ tail
      · obtain ⟨frame, rest, rfl, hf⟩ := List.eq_append_cons_of_mem he
        have hsplit : garbage ++ STX :: (frame ++ ETX :: rest) =
            garbage ++ STX :: frame ++ ETX :: rest := by simp
        simp only [List.length_append, List.length_cons] at hpos hfuel
        rw [hsplit] at h hz ⊢
        obtain ⟨g, hnext, hrest⟩ := getNextMsg_frame h hz hg hf
        obtain ⟨f', hd, hdr⟩ := ih hrest (fun hm => hz (by simp [hm])) (by omega)
        rw [ScanState.scanFrom_frame rest hg hf (by omega)]
        exact ⟨f', by simp [drain, hnext, hd], hdr⟩
      · obtain ⟨f', hnext, hr, hf⟩ := getNextMsg_noEnd h hz hg he
        rw [ScanState.scanFrom_open hg he (by omega)]
        exact ⟨f', by simp [drain, hnext], drained_pending hr hz he (by omega) hf⟩
    · obtain ⟨f', hnext, hp, hr⟩ := getNextMsg_noStart h hz hs
      rw [ScanState.scanFrom_garbage hs]
      exact ⟨f', by simp [drain, hnext], drained_empty h0 hp hr⟩

/-- One chunk advances framer and scanner together. -/
theorem receiveChunk_scan {f : MsgFramer cap} {σ : ScanState} {chunk : Bytes} (h : f.Drained σ)
    (hl : chunk.length ≤ f.getBufLength) (hz : 0 ∉ chunk) :
    ∃ f', f.receiveChunk chunk = some (f', (ScanState.scanFrom cap σ chunk).2) ∧
      f'.Drained (ScanState.scanFrom cap σ chunk).1 := by
  obtain ⟨junk, hb⟩ := h.layout
  have hlt := h.bufpos_lt
  have hholds := receive_holds hb h.bufpos_eq h.readpos_eq hl hlt.le
  have hzero : 0 ∉ σ.pendingBytes ++ chunk := by
    simpa using ⟨h.nonzero, hz⟩
  have hfuel : (σ.pendingBytes ++ chunk).length < cap + 1 := by
    have := h.bufpos_eq
    unfold getBufLength at hl
    simp only [List.length_append]
    omega
  have hd := drain_scan (by omega) hholds hzero hfuel
  rw [ScanState.scanFrom_append, h.rescan] at hd
  simpa [receiveChunk] using hd

/-- The receive loop over a whole legal run. -/
theorem receiveAll_scan {f : MsgFramer cap} {σ : ScanState} {chunks : List Bytes}
    (h : f.Drained σ) (hfit : f.ChunksFit chunks) (hz : 0 ∉ chunks.flatten) :
    ∃ f', f.receiveAll chunks = some (f', (ScanState.scanFrom cap σ chunks.flatten).2) ∧
      f'.Drained (ScanState.scanFrom cap σ chunks.flatten).1 := by
  induction chunks generalizing f σ with
  | nil => exact ⟨f, rfl, h⟩
  | cons chunk chunks ih =>
    obtain ⟨-, hl, hfit⟩ := hfit
    simp only [List.flatten_cons, List.mem_append, not_or] at hz
    obtain ⟨g, hg, hdrained⟩ := receiveChunk_scan h hl hz.1
    rw [hg] at hfit
    obtain ⟨f', hf', hd⟩ := ih hdrained hfit hz.2
    rw [List.flatten_cons, ScanState.scanFrom_append]
    exact ⟨f', by simp [receiveAll, hg, hf'], hd⟩

theorem ChunksFit.take {f : MsgFramer cap} {chunks : List Bytes} (h : f.ChunksFit chunks)
    (n : ℕ) : f.ChunksFit (chunks.take n) := by
  induction chunks generalizing f n with
  | nil => simpa using h
  | cons chunk chunks ih =>
    cases n with
    | zero => trivial
    | succ n =>
      obtain ⟨hne, hl, hrest⟩ := h
      refine ⟨hne, hl, ?_⟩
      cases hc : f.receiveChunk chunk with
      | none => trivial
      | some r =>
        rw [hc] at hrest
        exact ih hrest n

end MsgFramer

open MsgFramer in
/-- Reassembly at the buffer size of the source: the messages are those of the scanner,
whatever the chunks; frames that fit come back unchanged; and there is always room to receive. -/
theorem stream_reassembly (chunks : List Bytes)
    (hfit : MSG_FRAMER_INITIALIZER.ChunksFit chunks) (hz : 0 ∉ chunks.flatten) :
    (∃ f, MSG_FRAMER_INITIALIZER.receiveAll chunks =
      some (f, scan MSG_FRAMER_MAX_BUF_SIZE chunks.flatten)) ∧
    (∀ others, MSG_FRAMER_INITIALIZER.ChunksFit others → others.flatten = chunks.flatten →
      (MSG_FRAMER_INITIALIZER.receiveAll others).map Prod.snd =
        (MSG_FRAMER_INITIALIZER.receiveAll chunks).map Prod.snd) ∧
    (∀ msgs : List Bytes,
      (∀ m ∈ msgs, Frameable m ∧ (createFramedMsg m).length ≤ MSG_FRAMER_MAX_BUF_SIZE) →
      chunks.flatten = (msgs.map createFramedMsg).flatten →
      (MSG_FRAMER_INITIALIZER.receiveAll chunks).map Prod.snd = some msgs) ∧
    (∀ n, ∃ f msgs, MSG_FRAMER_INITIALIZER.receiveAll (chunks.take n) = some (f, msgs) ∧
      0 ≤ f.readpos ∧ f.readpos ≤ f.bufpos ∧ f.bufpos < MSG_FRAMER_MAX_BUF_SIZE ∧
      0 < f.getBufLength) := by
  have hinit : MSG_FRAMER_INITIALIZER.Drained .skipping := drained_empty (by decide) rfl rfl
  obtain ⟨f, hf, -⟩ := receiveAll_scan hinit hfit hz
  refine ⟨⟨f, hf⟩, ?_, ?_, ?_⟩
  · intro others hfit' hsame
    obtain ⟨f', hf', -⟩ := receiveAll_scan hinit hfit' (hsame ▸ hz)
    rw [hf, hf', hsame]
    rfl
  · intro msgs hmsgs hframes
    have hscan := scan_frames hmsgs
    rw [hf, hframes]
    simpa [scan] using hscan
  · intro n
    have hz' : 0 ∉ (chunks.take n).flatten := by
      intro hm
      obtain ⟨c, hc, h0⟩ := List.mem_flatten.mp hm
      exact hz (List.mem_flatten.mpr ⟨c, List.mem_of_mem_take hc, h0⟩)
    obtain ⟨g, hg, hd⟩ := receiveAll_scan hinit (hfit.take n) hz'
    have hr := hd.readpos_eq
    have hlt := hd.bufpos_lt
    exact ⟨g, _, hg, by omega, by omega, hlt, by unfold getBufLength; omega⟩

theorem stream_reassembly_oneFrame :
    ∃ f, MSG_FRAMER_INITIALIZER.receiveAll [[0x41, STX, 0x42, ETX]] = some (f, [[0x42]]) :=
  (stream_reassembly [[0x41, STX, 0x42, ETX]]
    ⟨by decide, by decide, by split <;> trivial⟩ (by decide)).1

end V2IHub.Framing
