import V2IHub.Api.IvpMessage
import V2IHub.Framing.Reassembly

/-! Messages over a socket: what a receiver parses of the frames that a sender wrote, however
the stream was cut and whatever the sizes of the messages. -/
namespace V2IHub.Framing
open Foundation

namespace ScanState

/-- A frame that does not fit is given up, and the scan resumes behind it. -/
theorem scanFrom_oversize {cap : ℕ} {text : Bytes} (rest : Bytes) (h0 : 0 < cap)
    (hs : STX ∉ text) (he : ETX ∉ text) (hl : cap < text.length + 2) :
    scanFrom cap skipping (createFramedMsg text ++ rest) = scanFrom cap skipping rest := by
  have hlength : (text.take (cap - 1)).length + 1 = cap := by
    rw [List.length_take]
    omega
  have hopen := scanFrom_open (List.not_mem_nil : STX ∉ [])
    (fun hm => he (List.mem_of_mem_take hm)) hlength.le
  have hgiven : collect cap (text.take (cap - 1)) = skipping := if_pos hlength
  have hrest : scanFrom cap skipping (text.drop (cap - 1) ++ [ETX]) = (skipping, []) := by
    apply scanFrom_garbage
    rw [List.mem_append, not_or]
    exact ⟨fun hm => hs (List.mem_of_mem_drop hm), by decide⟩
  have hsplit : createFramedMsg text ++ rest =
      ([] ++ STX :: text.take (cap - 1)) ++ ((text.drop (cap - 1) ++ [ETX]) ++ rest) := by
    rw [← List.append_assoc, List.nil_append, List.cons_append, ← List.append_assoc,
      List.take_append_drop]
    rfl
  rw [hsplit, scanFrom_append, hopen, hgiven, scanFrom_append, hrest]
  simp

/-- The frames of a list of texts: those that fit are found. -/
theorem scanFrom_frames {cap : ℕ} {texts : List Bytes} (h0 : 0 < cap)
    (h : ∀ text ∈ texts, Frameable text) :
    scanFrom cap skipping (texts.map createFramedMsg).flatten =
      (skipping, texts.filter fun text => (createFramedMsg text).length ≤ cap) := by
  induction texts with
  | nil => rfl
  | cons text texts ih =>
    obtain ⟨⟨-, hs, he⟩, hrest⟩ := List.forall_mem_cons.mp h
    have hlength : (createFramedMsg text).length = text.length + 2 := by simp [createFramedMsg]
    rw [List.map_cons, List.flatten_cons]
    by_cases hfits : text.length + 2 ≤ cap
    · have hframe := scanFrom_frame (texts.map createFramedMsg).flatten
        (List.not_mem_nil : STX ∉ []) he hfits
      rw [ih hrest] at hframe
      rw [List.filter_cons_of_pos (by simpa [hlength] using hfits)]
      simpa [createFramedMsg] using hframe
    · rw [scanFrom_oversize _ h0 hs he (by omega), ih hrest, List.filter_cons_of_neg]
      simpa [hlength] using hfits

end ScanState

namespace MsgFramer

/-- After any part of a stream of frames, some of the texts that fit have come out, in their
order; after all of it, all of them. -/
theorem receiveAll_frames {texts chunks : List Bytes} (htexts : ∀ text ∈ texts, Frameable text)
    (hfit : MSG_FRAMER_INITIALIZER.ChunksFit chunks)
    (hstream : chunks.flatten <+: (texts.map createFramedMsg).flatten) :
    ∃ f out, MSG_FRAMER_INITIALIZER.receiveAll chunks = some (f, out) ∧
      out <+: (texts.filter fun text => (createFramedMsg text).length ≤ MSG_FRAMER_MAX_BUF_SIZE) ∧
      (chunks.flatten = (texts.map createFramedMsg).flatten → out =
        texts.filter fun text => (createFramedMsg text).length ≤ MSG_FRAMER_MAX_BUF_SIZE) := by
  have hpos : 0 < MSG_FRAMER_MAX_BUF_SIZE := by decide
  have hinit : MSG_FRAMER_INITIALIZER.Drained .skipping := drained_empty hpos rfl rfl
  have hscan := ScanState.scanFrom_frames hpos htexts
  have hz : 0 ∉ (texts.map createFramedMsg).flatten := by
    intro hm
    obtain ⟨frame, hframe, h0⟩ := List.mem_flatten.mp hm
    obtain ⟨text, htext, rfl⟩ := List.mem_map.mp hframe
    have hclean := (htexts text htext).1
    simp [createFramedMsg, hclean, STX, ETX] at h0
  obtain ⟨f, hf, -⟩ := receiveAll_scan hinit hfit fun hm => hz (hstream.subset hm)
  refine ⟨f, _, hf, ?_, fun hall => ?_⟩
  · obtain ⟨rest, hrest⟩ := hstream
    rw [← hrest, ScanState.scanFrom_append] at hscan
    have hout := congrArg Prod.snd hscan
    dsimp only at hout
    rw [← hout]
    exact List.prefix_append _ _
  · rw [hall, hscan]

end MsgFramer
end V2IHub.Framing

namespace V2IHub.Api
open Foundation Json Framing

namespace IvpMessage

/-- What `ivp_broadcastMessage` and `PluginConnection::onMessageReceived` write to the socket. -/
def frame (msg : IvpMessage) : Bytes := createFramedMsg (msg.createJsonString .none)

/-- The frame has room in the buffer of the receiver. -/
def Fits (msg : IvpMessage) : Prop := msg.frame.length ≤ MSG_FRAMER_MAX_BUF_SIZE

instance (msg : IvpMessage) : Decidable msg.Fits := inferInstanceAs (Decidable (_ ≤ _))

/-- What arrives of a list of messages. -/
def arrivals (msgs : List IvpMessage) : List IvpMessage :=
  (msgs.filter fun msg => msg.Fits).map received

/-- The loop of a receiver over the chunks of its socket, up to the call of `ivpMsg_parse`. -/
def receiveMessages (fresh : IvpDsrcMetadata) (chunks : List Bytes) :
    Option (List (Option IvpMessage)) :=
  (MSG_FRAMER_INITIALIZER.receiveAll chunks).map fun r => r.2.map (parse fresh)

/-- The JSON text of a message can be framed, whatever the message holds. -/
theorem frameable_createJsonString (msg : IvpMessage) (options : IvpMsgFormatOptions) :
    Frameable (msg.createJsonString options) := by
  have hvisible := print_printable options.isFormatted msg.toJson
  exact ⟨fun h => absurd (hvisible _ h) (by decide), fun h => absurd (hvisible _ h) (by decide),
    fun h => absurd (hvisible _ h) (by decide)⟩

theorem filter_texts (msgs : List IvpMessage) :
    (msgs.map fun msg => msg.createJsonString .none).filter
        (fun text => (createFramedMsg text).length ≤ MSG_FRAMER_MAX_BUF_SIZE) =
      (msgs.filter fun msg => msg.Fits).map fun msg => msg.createJsonString .none := by
  rw [List.filter_map]
  rfl

theorem frames_eq (msgs : List IvpMessage) :
    (msgs.map frame).flatten =
      ((msgs.map fun msg => msg.createJsonString .none).map createFramedMsg).flatten := by
  rw [List.map_map]
  rfl

/-- The texts that a receiver has found after a part of the stream. -/
theorem receiveAll_messages {msgs : List IvpMessage} {chunks : List Bytes}
    (hfit : MSG_FRAMER_INITIALIZER.ChunksFit chunks)
    (hstream : chunks.flatten <+: (msgs.map frame).flatten) :
    ∃ f out, MSG_FRAMER_INITIALIZER.receiveAll chunks = some (f, out) ∧
      out <+: ((msgs.filter fun msg => msg.Fits).map fun msg => msg.createJsonString .none) ∧
      (chunks.flatten = (msgs.map frame).flatten →
        out = (msgs.filter fun msg => msg.Fits).map fun msg => msg.createJsonString .none) := by
  have htexts : ∀ text ∈ msgs.map fun msg => msg.createJsonString .none, Frameable text := by
    simp [frameable_createJsonString]
  rw [frames_eq] at hstream ⊢
  have hframes := MsgFramer.receiveAll_frames htexts hfit hstream
  rwa [filter_texts] at hframes

theorem parse_texts (fresh : IvpDsrcMetadata) (msgs : List IvpMessage) :
    (msgs.map fun msg => msg.createJsonString .none).map (parse fresh) =
      (msgs.map received).map some := by
  simp [parse_createJsonString]

theorem receiveMessages_total (fresh : IvpDsrcMetadata) {msgs : List IvpMessage}
    {chunks : List Bytes} (hfit : MSG_FRAMER_INITIALIZER.ChunksFit chunks)
    (hstream : chunks.flatten <+: (msgs.map frame).flatten) :
    ∃ parsed, receiveMessages fresh chunks = some parsed := by
  obtain ⟨f, out, hreceive, -⟩ := receiveAll_messages hfit hstream
  exact ⟨out.map (parse fresh), by rw [receiveMessages, hreceive, Option.map_some]⟩

theorem receiveMessages_arrivals {fresh : IvpDsrcMetadata} {msgs : List IvpMessage}
    {chunks : List Bytes} {parsed : List (Option IvpMessage)}
    (hparsed : receiveMessages fresh chunks = some parsed)
    (hfit : MSG_FRAMER_INITIALIZER.ChunksFit chunks)
    (hstream : chunks.flatten <+: (msgs.map frame).flatten) :
    parsed <+: (arrivals msgs).map some ∧
      (chunks.flatten = (msgs.map frame).flatten → parsed = (arrivals msgs).map some) := by
  obtain ⟨f, out, hreceive, hbegins, hall⟩ := receiveAll_messages hfit hstream
  rw [receiveMessages, hreceive, Option.map_some, Option.some.injEq] at hparsed
  subst hparsed
  have htexts := parse_texts fresh (msgs.filter fun msg => msg.Fits)
  unfold arrivals
  rw [← htexts]
  refine ⟨hbegins.map _, fun hstream => ?_⟩
  rw [hall hstream]

theorem chunksFit_frame {msg : IvpMessage} (h : msg.Fits) :
    MSG_FRAMER_INITIALIZER.ChunksFit [msg.frame] :=
  ⟨by simp [frame, createFramedMsg], h, by split <;> trivial⟩

theorem arrivals_singleton {msg : IvpMessage} (h : msg.Fits) : arrivals [msg] = [msg.received] := by
  have hall : ([msg].filter fun msg => msg.Fits) = [msg] := by simpa using h
  rw [arrivals, hall, List.map_singleton]

/-- One frame, read at once. -/
theorem receiveMessages_frame (fresh : IvpDsrcMetadata) {msg : IvpMessage} (h : msg.Fits) :
    receiveMessages fresh [msg.frame] = some [some msg.received] := by
  have hstream : [msg.frame].flatten = ([msg].map frame).flatten := rfl
  have hbegins : [msg.frame].flatten <+: ([msg].map frame).flatten := List.prefix_rfl
  obtain ⟨parsed, hparsed⟩ := receiveMessages_total fresh (chunksFit_frame h) hbegins
  have hall := (receiveMessages_arrivals hparsed (chunksFit_frame h) hbegins).2 hstream
  rw [hparsed, hall, arrivals_singleton h, List.map_singleton]

/-- Whatever a sender writes and however the stream is cut: what has been parsed at any time is
the beginning of the messages that fit, in their order, and in the end it is all of them. -/
theorem transport (fresh : IvpDsrcMetadata) (msgs : List IvpMessage) (chunks : List Bytes)
    (hfit : MSG_FRAMER_INITIALIZER.ChunksFit chunks)
    (hstream : chunks.flatten <+: (msgs.map frame).flatten) :
    ∃ parsed, receiveMessages fresh chunks = some parsed ∧
      parsed <+: (arrivals msgs).map some ∧
      (chunks.flatten = (msgs.map frame).flatten → parsed = (arrivals msgs).map some) := by
  obtain ⟨parsed, hparsed⟩ := receiveMessages_total fresh hfit hstream
  exact ⟨parsed, hparsed, receiveMessages_arrivals hparsed hfit hstream⟩

/-- A message without any optional field. -/
def sampleNotice : IvpMessage := create 0 none none none 0 none

theorem fits_sampleNotice : sampleNotice.Fits := by decide +kernel

theorem transport_sampleNotice :
    receiveMessages ⟨0, 0⟩ [sampleNotice.frame] = some [some sampleNotice.received] := by
  have hfits := fits_sampleNotice
  have hstream : [sampleNotice.frame].flatten = ([sampleNotice].map frame).flatten := rfl
  obtain ⟨parsed, hparsed, -, hall⟩ := transport ⟨0, 0⟩ [sampleNotice] [sampleNotice.frame]
    (chunksFit_frame hfits) List.prefix_rfl
  rw [hparsed, hall hstream, arrivals_singleton hfits]
  rfl

end IvpMessage
end V2IHub.Api
