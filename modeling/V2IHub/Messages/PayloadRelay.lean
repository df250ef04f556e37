import V2IHub.Core.Relay
import V2IHub.Messages.J2735Codec
import V2IHub.Messages.Payload

/-! The bytes of a payload, from the plugin that sets them to one that gets them, however often
the message went through the core. -/
namespace V2IHub.Messages
open Foundation Api Json V2IHub.Core Location

/-- What a subscriber receives of a message that this plugin broadcasts. -/
def relayedBy (msg : IvpMessage) (info : PluginEntry) : IvpMessage :=
  (info.stamp msg.received).received

/-- `get_payload_bytes` -/
def Routed.getPayloadBytes (json : Format) (r : Routed) : Option (Reading × Routed) :=
  (r.getPayloadStr json).map fun (text, r) => (decodeStream text, r)

section Text

theorem hexDigit_plain {n : ℕ} (h : n < 16) : Plain (Location.hexDigit n) := by
  have hall : ∀ n < 16, 31 < Location.hexDigit n ∧ Location.hexDigit n ≠ QUOTE ∧
      Location.hexDigit n ≠ BACKSLASH := by decide
  exact hall n h

theorem byteStreamEncode_plain (bytes : Bytes) : ∀ c ∈ byteStreamEncode bytes, Plain c := by
  intro c hc
  obtain ⟨byte, -, hdigit⟩ := List.mem_flatMap.mp hc
  have hlt := byte.toNat_lt
  simp only [List.mem_cons, List.not_mem_nil, or_false] at hdigit
  rcases hdigit with rfl | rfl
  · exact hexDigit_plain (by omega)
  · exact hexDigit_plain (by omega)

theorem cstringAt_byteStreamEncode (bytes : Bytes) :
    cstringAt (byteStreamEncode bytes) = byteStreamEncode bytes :=
  List.takeWhile_eq_self_iff.mpr fun c hc =>
    decide_eq_true (byteStreamEncode_plain bytes c hc).ne_zero

theorem escape_byteStreamEncode (bytes : Bytes) :
    escape (byteStreamEncode bytes) = byteStreamEncode bytes :=
  (escape_eq_self_iff fun h => (byteStreamEncode_plain bytes 0 h).ne_zero rfl).mpr
    (byteStreamEncode_plain bytes)

theorem decodeStream_byteStreamEncode (bytes : Bytes) :
    decodeStream (byteStreamEncode bytes) = .done bytes := by
  have heven : (byteStreamEncode bytes).length % 2 = 0 := by
    rw [byteStreamEncode_length]
    omega
  rw [decodeStream_even heven, pairBytes_byteStreamEncode]

end Text

theorem cstringAt_IVP_ENCODING_BYTEARRAY :
    cstringAt IVP_ENCODING_BYTEARRAY = IVP_ENCODING_BYTEARRAY := by decide

/-- The payload of the message is the text of these bytes, and its encoding says so. -/
structure CarriesBytes (bytes : Bytes) (msg : IvpMessage) : Prop where
  payload : msg.payload = some (.string (byteStreamEncode bytes))
  encoding : msg.encoding = some IVP_ENCODING_BYTEARRAY

section Trips
variable {bytes : Bytes} {msg : IvpMessage}

theorem CarriesBytes.received (h : CarriesBytes bytes msg) : CarriesBytes bytes msg.received := by
  constructor
  · rw [IvpMessage.received, h.payload, Option.map_some, CJson.reparsed,
      cstringAt_byteStreamEncode]
  · rw [IvpMessage.received, h.encoding, Option.map_some, cstringAt_IVP_ENCODING_BYTEARRAY]

theorem CarriesBytes.stamp (h : CarriesBytes bytes msg) (info : PluginEntry) :
    CarriesBytes bytes (info.stamp msg) := ⟨h.payload, h.encoding⟩

theorem CarriesBytes.relayed (h : CarriesBytes bytes msg) (hops : List PluginEntry) :
    CarriesBytes bytes (hops.foldl relayedBy msg) := by
  induction hops generalizing msg with
  | nil => exact h
  | cons info hops ih => exact ih (h.received.stamp info).received

end Trips

namespace Routed
variable {r : Routed} {m : IvpMessage}

/-- The encoding of an object that is bound to its structure. -/
theorem set_encoding (hm : r.ivpMsg = some m) (hactive : (r.attrs .encoding).active = .field)
    (hstr : (r.attrs .encoding)._str ≠ .freed) (text : Bytes) :
    ∃ r', r.set .encoding text = some r' ∧
      r'.ivpMsg = some { m with encoding := some (cstringAt text) } ∧
      (r'.attrs .encoding).active = .field ∧ (r'.attrs .encoding)._str ≠ .freed := by
  have hnot : ¬ (Header.encoding.attr.isString = true ∧ (r.attrs .encoding)._str = .freed) :=
    fun h => hstr h.2
  simp only [set, Wrapped.set, Wrapped.construct, if_neg hnot, hactive, hm, Option.map_some,
    Option.bind_eq_bind, Option.bind_some, Wrapped.held]
  refine ⟨_, rfl, rfl, ?_, ?_⟩
  · simp only [Wrapped.flush_eq, Function.update_self]
  · simp only [Wrapped.flush_eq, Function.update_self]
    intro hfreed
    cases hfreed

/-- `set_payload_bytes` of an object that can be used. -/
theorem setPayloadBytes_carries (hr : r.Valid) (hmsg : r.ivpMsg.isSome)
    (hstr : (r.attrs .encoding)._str ≠ .freed) (bytes : Bytes) :
    ∃ r' m, r.setPayloadBytes bytes = some r' ∧ r'.ivpMsg = some m ∧ CarriesBytes bytes m := by
  obtain ⟨m, hm⟩ := Option.isSome_iff_exists.mp hmsg
  obtain ⟨r₁, hset, hm₁, hactive, hstr₁⟩ :=
    set_encoding hm (hr.bound hmsg .encoding rfl) hstr (cstr "string")
  obtain ⟨r₂, hset₂, hm₂, -⟩ := set_encoding
    (r := ⟨r₁.msg.store PAYLOAD (byteStreamEncode bytes),
      some { m with
        encoding := some (cstringAt (cstr "string"))
        payload := some (.string (cstringAt (byteStreamEncode bytes))) }, r₁.attrs⟩)
    rfl hactive hstr₁ IVP_ENCODING_BYTEARRAY
  refine ⟨r₂, _, ?_, hm₂, ?_, ?_⟩
  · simp only [setPayloadBytes, setPayload, hset, hm₁, Option.bind_eq_bind, Option.bind_some]
    exact hset₂
  · rw [cstringAt_byteStreamEncode]
  · rw [cstringAt_IVP_ENCODING_BYTEARRAY]

/-- A new object takes the message, and its getters return what it carries. -/
theorem new_getPayloadBytes (json : Format) (now : BitVec 64) {bytes : Bytes} {msg : IvpMessage}
    (h : CarriesBytes bytes msg) :
    ∃ r, new.setContents now (some msg) = some r ∧
      (r.getPayloadBytes json).map Prod.fst = some (.done bytes) ∧
      r.value .encoding = some IVP_ENCODING_BYTEARRAY := by
  obtain ⟨r, m, hset, hto⟩ := (setContents_iff now new_valid msg).1 (new_accepts msg)
  have hread : Header.encoding.attr.read msg = some IVP_ENCODING_BYTEARRAY := h.encoding
  have htext : (r.getPayloadStr json).map Prod.fst = some (escape (byteStreamEncode bytes)) :=
    getPayloadStr_string hto.msg (hto.payload.trans h.payload)
  refine ⟨r, hset, ?_, (hto.texts .encoding (by simp) (hread ▸ rfl)).2.trans hread⟩
  rw [escape_byteStreamEncode] at htext
  obtain ⟨⟨text, r'⟩, hget, rfl⟩ := Option.map_eq_some_iff.mp htext
  simp only [getPayloadBytes, hget, Option.map_some, decodeStream_byteStreamEncode]

/-- Bytes that a plugin sets as the payload come back from `get_payload_bytes` in any plugin that
the message reaches, whatever the bytes are and whichever plugins it went through, exactly if the
object of the sender has its structure and no freed text of the encoding. -/
theorem payloadBytes_relayed_iff (json : Format) (now : BitVec 64) (sender : RouteableMessage)
    (bytes : Bytes) (hops : List PluginEntry) :
    (∃ sent msg receiver, sender.1.setPayloadBytes bytes = some sent ∧ sent.ivpMsg = some msg ∧
      new.setContents now (some (hops.foldl relayedBy msg)) = some receiver ∧
      (receiver.getPayloadBytes json).map Prod.fst = some (.done bytes) ∧
      receiver.value .encoding = some IVP_ENCODING_BYTEARRAY) ↔
      sender.1.ivpMsg.isSome ∧ (sender.1.attrs .encoding)._str ≠ .freed := by
  constructor
  · rintro ⟨sent, msg, receiver, hset, -⟩
    by_contra hnot
    simp only [setPayloadBytes, setPayload_eq_none hnot sender.2] at hset
    cases hset
  · rintro ⟨hmsg, hstr⟩
    obtain ⟨sent, msg, hset, hm, hcarries⟩ := setPayloadBytes_carries sender.2 hmsg hstr bytes
    obtain ⟨receiver, hcontents, hget⟩ := new_getPayloadBytes json now (hcarries.relayed hops)
    exact ⟨sent, msg, receiver, hset, hm, hcontents, hget⟩

end Routed
end V2IHub.Messages
