import V2IHub.Foundation.Program
import V2IHub.Messages.ByteStream
import V2IHub.Messages.ContentsReuse

/-! The encoded J2735 message: a routeable message that keeps what it decoded. -/
namespace V2IHub.Messages
open Foundation Api Json Location

def ENCODING_ASN1_BER_STRING : Bytes := cstr "asn.1-ber/hexstring"
def ENCODING_ASN1_UPER_STRING : Bytes := cstr "asn.1-uper/hexstring"
def IVP_ENCODING_BYTEARRAY : Bytes := cstr "bytearray/hexstring"

/-- `api::uperFrame_D`, the identifier of a message frame -/
def uperFrame_D : ℤ := 17

/-- The argument of `set_payload`. What `to_string` makes of a `double` is given with it. -/
inductive PayloadArg where
  | message (payload : PTree)
  | otherFormat (text format : Bytes)
  | text (payload : Bytes)
  | bool (payload : Bool)
  | int (number : BitVec 32)
  | double (text : Bytes) (number : ℚ)

namespace Routed

/-- What the overloads of `set_payload` do with a text and the item of it. -/
def putPayload (r : Routed) (text : Bytes) (payload : CJson) : Option Routed := do
  let r ← r.set .encoding (cstr "string")
  let ivpMsg ← r.ivpMsg
  some ⟨r.msg.store PAYLOAD text, some { ivpMsg with payload := some payload }, r.attrs⟩

/-- `set_payload` of a message in the same format. The exception of `save` leaves the object as it
is then. -/
def setPayloadMessage (json : Format) (r : Routed) (payload : PTree) : Option Routed := do
  let r := { r with msg := r.msg.setTree (r.msg.tree.change (fun _ => payload) PAYLOAD) }
  let r ← r.set .encoding (cstr "json")
  let (encoding, r) ← r.get .encoding
  if (show Bytes from encoding).take 4 = cstr "json" then
    match json.write payload with
    | none => some r
    | some text => do
      let ivpMsg ← r.ivpMsg
      some { r with ivpMsg := some { ivpMsg with payload := CJson.parse (cstringAt text) } }
  else some r

def setPayloadArg (json : Format) (r : Routed) : PayloadArg → Option Routed
  | .message payload => r.setPayloadMessage json payload
  | .otherFormat text format => do
    let r ← r.setPayload text
    r.set .encoding (format ++ cstr "string")
  | .text payload => r.setPayload payload
  | .bool payload => r.putPayload (if payload then cstr "1" else cstr "0") (.bool payload)
  | .int number =>
    r.putPayload (DecimalText.formatInt number.toInt) (.createNumber (signedDouble number))
  | .double text number => r.putPayload text (.createNumber number)

def setPayloadBytes (r : Routed) (bytes : Bytes) : Option Routed := do
  let r ← r.setPayload (byteStreamEncode bytes)
  r.set .encoding IVP_ENCODING_BYTEARRAY

end Routed

section ContentId

/-- The loop of `ber_fetch_length` over the octets of a long length; the result and the length. -/
def longLength : ℕ → Bytes → ℤ → ℕ → ℤ × Option ℤ
  | 0, _, len, skipped =>
    if 2 ^ 63 ≤ len + 1024 then (-1, none) else (skipped, some len)
  | oct + 1, buf, len, skipped =>
    match buf with
    | [] => (0, none)
    | b :: buf =>
      let len := len * 256 + b.toNat
      if 2 ^ 63 ≤ len ∨ 2 ^ 56 ≤ len ∧ 0 < oct then (-1, none)
      else longLength oct buf len (skipped + 1)

/-- `ber_fetch_length` of a constructed value -/
def ber_fetch_length (buf : Bytes) : ℤ × Option ℤ :=
  match buf with
  | [] => (0, none)
  | oct :: rest =>
    if oct < 128 then (1, some oct.toNat)
    else if oct = 128 then (1, some (-1))
    else if oct = 255 then (-1, none)
    else longLength (oct.toNat - 128) rest 0 1

/-- The loop over the segments, which the length of a frame does not count. -/
def segments (bytes : Bytes) : ℕ → ℕ → ℤ → ℤ × ℤ → ℤ × ℤ
  | 0, _, _, found => found
  | fuel + 1, idx, count, found =>
    if count < 5 ∧ idx ≤ bytes.length then
      let (lenBytes, written) := ber_fetch_length (bytes.drop idx)
      let len := written.getD found.2
      if lenBytes = 0 ∨ lenBytes = -1 then (lenBytes, 0)
      else
        segments bytes fuel (idx + lenBytes.toNat)
          ((if len = uperFrame_D then count - 1 else count) + 1) (lenBytes, len)
    else found

/-- How many bytes are skipped in search of a sequence. -/
def skipped (bytes : Bytes) : ℕ := min (bytes.findIdx (· = 0x30)) 17

/-- `der::decode_contentId` -/
def der_contentId (bytes : Bytes) : ℤ :=
  if skipped bytes < 16 then
    let (lenBytes, len) := segments bytes (bytes.length + 2) (skipped bytes) 0 (1, 0)
    let len := if 1 < lenBytes then len / 256 % 256 else len
    if 1 < len ∧ len < 256 then len else -1
  else -1

end ContentId

/-- The message type, and the functions of the ASN.1 library for it and for its frame. A decoder
fails behind so many bytes. -/
structure Codec (M : Type) where
  SAEJ2735_SPEC : ℕ
  default_messageId : ℤ
  /-- `MsgType()` -/
  empty : M
  Frame : Type
  contentID : Frame → ℤ
  ofFrame : Frame → M
  uper_decode : Bytes → Except ℕ M
  uper_decode_frame : Bytes → Except ℕ Frame
  ber_decode : Bytes → Except ℕ M
  ber_decode_frame : Bytes → Except ℕ Frame
  uper_encode : M → Option Bytes
  uper_encode_frame : M → Option Bytes
  der_encode : M → Option Bytes
  der_encode_frame : M → Option Bytes

inductive J2735Exception where
  | unableToDecode (frame : Bool) (encoding : Bytes) (consumed : ℕ)
  | unableToEncode (encoding : Bytes)
  | unknownEncoding (encoding : Bytes)

namespace Codec
variable {M : Type} (c : Codec M)

def ASN1_CODEC : Bytes :=
  if c.SAEJ2735_SPEC < 63 then ENCODING_ASN1_BER_STRING else ENCODING_ASN1_UPER_STRING

/-- `uper::decode_contentId`. Where there is no identifier in the bytes, its variable is returned as
it was. -/
def uper_contentId (id₀ : ℤ) (bytes : Bytes) : ℤ :=
  if c.SAEJ2735_SPEC < 63 then
    match c.uper_decode_frame bytes with
    | .ok frame => c.contentID frame
    | .error _ => -1
  else
    match bytes with
    | a :: b :: _ :: _ => a.toNat * 256 + b.toNat
    | [a, _] => a.toNat
    | _ => id₀

/-- `der::decode` begins where a sequence begins, if it finds one. -/
def derBytes (bytes : Bytes) : Bytes :=
  if 15 < skipped bytes then bytes else bytes.drop (skipped bytes)

def outcome {α : Type} (frame : Bool) (encoding : Bytes) (f : α → M) :
    Except ℕ α → Outcome J2735Exception M
  | .ok a => .ok (f a)
  | .error consumed => .throws (.unableToDecode frame encoding consumed)

def decodeUper (framed : Bool) (bytes : Bytes) : Outcome J2735Exception M :=
  if framed then outcome true ENCODING_ASN1_UPER_STRING c.ofFrame (c.uper_decode_frame bytes)
  else outcome false ENCODING_ASN1_UPER_STRING id (c.uper_decode bytes)

def decodeDer (framed : Bool) (bytes : Bytes) : Outcome J2735Exception M :=
  if framed then
    outcome true ENCODING_ASN1_BER_STRING c.ofFrame (c.ber_decode_frame (derBytes bytes))
  else outcome false ENCODING_ASN1_BER_STRING id (c.ber_decode (derBytes bytes))

end Codec

/-- `TmxJ2735EncodedMessage` -/
structure Encoded (M : Type) where
  base : Routed
  _decoded : Option M

namespace Encoded
variable {M : Type} (c : Codec M)

abbrev Method (M α : Type) := Program (Encoded M) J2735Exception α

/-- A method of the base class. Memory that is used after it was freed ends the process. -/
def call {α : Type} (f : Routed → Option (α × Routed)) : Method M α := fun s =>
  match f s.base with
  | some (a, base) => (.ok a, { s with base := base })
  | none => (.crash, s)

def update (f : Routed → Option Routed) : Method M Unit := call fun r => (f r).map ((), ·)

def deliver {α : Type} (o : Outcome J2735Exception α) : Method M α := fun s => (o, s)

variable (json : Format)

def get_encoding : Method M Bytes := call fun r => r.get .encoding

/-- `get_data`; a payload with an odd number of digits is read past its end. -/
def get_data : Method M Bytes := call fun r => do
  let (text, r) ← r.getPayloadStr json
  match decodeStream text with
  | .done bytes => some (bytes, r)
  | _ => none

def is_uper : Method M Bool := do
  let encoding ← get_encoding
  pure (encoding == ENCODING_ASN1_UPER_STRING)

def is_der : Method M Bool := do
  let encoding ← get_encoding
  pure (encoding == ENCODING_ASN1_BER_STRING)

def get_contentId (id₀ : ℤ) : Method M ℤ := do
  let uper ← is_uper
  if uper then
    let data ← get_data json
    pure (c.uper_contentId id₀ data)
  else
    let der ← is_der
    if der then
      let data ← get_data json
      pure (der_contentId data)
    else pure (-1)

def get_msgId (id₀ : ℤ) : Method M ℤ := do
  let id ← get_contentId c json id₀
  pure (if 0 < id then id else c.default_messageId)

def set_data (data : Bytes) : Method M Unit := do
  Program.modify fun s => { s with _decoded := none }
  let enc ← get_encoding
  update fun r => r.setPayloadBytes data
  update fun r => r.set .encoding enc
  if data.head? = some 0x30 then update fun r => r.set .encoding ENCODING_ASN1_BER_STRING
  else pure ()

/-- The branches for the two encodings. -/
def decode_into (o : Outcome J2735Exception M) : Method M M := do
  let message ← deliver o
  Program.modify fun s => { s with _decoded := some message }
  pure message

def decode_j2735_message (id₀ : ℤ) : Method M M := do
  let msgId ← get_msgId c json id₀
  let s ← Program.get
  match s._decoded with
  | some decoded => pure decoded
  | none =>
    let theData ← get_data json
    let encoding ← get_encoding
    if cstringAt encoding ≠ c.ASN1_CODEC then pure c.empty
    else
      let uper ← is_uper
      if uper then decode_into (c.decodeUper (uperFrame_D < msgId) theData)
      else
        let der ← is_der
        if der then decode_into (c.decodeDer (uperFrame_D < msgId) theData)
        else
          let encoding ← get_encoding
          Program.throw (.unknownEncoding encoding)

/-- The encoded bytes, or the exception of `encode_j2735_message<EncType>`. -/
def encoded (encoding : Bytes) : Option Bytes → Method M Bytes
  | some bytes => pure bytes
  | none => Program.throw (.unableToEncode encoding)

def encode_j2735_message (id₀ : ℤ) (message : M) : Method M Unit := do
  let msgId ← get_msgId c json id₀
  let uper ← is_uper
  if uper then
    let bytes ← encoded ENCODING_ASN1_UPER_STRING
      (if uperFrame_D < msgId then c.uper_encode_frame message else c.uper_encode message)
    set_data bytes
  else
    let der ← is_der
    if der then
      let bytes ← encoded ENCODING_ASN1_BER_STRING
        (if uperFrame_D < msgId then c.der_encode_frame message else c.der_encode message)
      set_data bytes
    else
      let encoding ← get_encoding
      Program.throw (.unknownEncoding encoding)

/-- `set_contents` of a text, which only the container sees. The exception of `load` leaves it as
it was. -/
def set_contents_text (contents : Bytes) : Method M Unit := Program.modify fun s =>
  match json.read contents with
  | none => s
  | some tree => { s with base := { s.base with msg := s.base.msg.loaded tree } }

/-- `set_contents` of a tree, which `clear` calls without one. -/
def set_contents_tree (contents : PTree) : Method M Unit := Program.modify fun s =>
  { s with base := { s.base with msg := s.base.msg.setTree contents } }

inductive Act (M : Type) where
  | set_data (data : Bytes)
  | decode_j2735_message (id₀ : ℤ)
  | encode_j2735_message (id₀ : ℤ) (message : M)
  | set_payload (payload : PayloadArg)
  | set_payload_bytes (bytes : Bytes)
  | set_contents (now : BitVec 64) (msg : Option IvpMessage)
  | set_contents_text (contents : Bytes)
  | set_contents_tree (contents : PTree)
  | clear

/-- What an operation does, but for what it returns. -/
def method : Act M → Method M Unit
  | .set_data data => set_data data
  | .decode_j2735_message id₀ => do
    let _ ← decode_j2735_message c json id₀
    pure ()
  | .encode_j2735_message id₀ message => encode_j2735_message c json id₀ message
  | .set_payload payload => update fun r => r.setPayloadArg json payload
  | .set_payload_bytes bytes => update fun r => r.setPayloadBytes bytes
  | .set_contents now msg => update fun r => r.setContents now msg
  | .set_contents_text contents => set_contents_text json contents
  | .set_contents_tree contents => set_contents_tree contents
  | .clear => set_contents_tree .empty

/-- An exception leaves the object as it is then, and a crash leaves none. -/
def machine : Machine (Encoded M) (Act M) where
  step s a :=
    match method c json a s with
    | (.crash, _) => none
    | (_, t) => some t

end Encoded
end V2IHub.Messages
