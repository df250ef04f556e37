import V2IHub.Json.Print
import V2IHub.Messages.WrappedAttribute

/-! The routeable message: the C structure that it holds, its header attributes and its payload. -/
namespace V2IHub.Messages
open Foundation Api Json

/-- `tmx_routeable_message`, but for the text that its base class caches. -/
structure Routed where
  msg : Container
  ivpMsg : Option IvpMessage
  attrs : (h : Header) → Wrapped h.Val

def PAYLOAD : Path := [cstr "payload"]

/-- The quotation marks that `get_payload_str` takes off. -/
def stripQuotes (text : Bytes) : Bytes :=
  let text := if text.head? = some QUOTE then text.tail else text
  if text.getLast? = some QUOTE then text.dropLast else text

namespace Routed

/-- The members before the body of a constructor is run. -/
def new : Routed := ⟨.new, none, fun _ => .new⟩

def get (r : Routed) (h : Header) : Option (h.Val × Routed) :=
  ((r.attrs h).get h.attr r.msg r.ivpMsg).map fun (v, w, msg, ivpMsg) =>
    (v, ⟨msg, ivpMsg, Function.update r.attrs h w⟩)

def set (r : Routed) (h : Header) (v : h.Val) : Option Routed :=
  ((r.attrs h).set h.attr r.msg r.ivpMsg v).map fun (w, msg, ivpMsg) =>
    ⟨msg, ivpMsg, Function.update r.attrs h w⟩

/-- `destroy`, after which the structure is always replaced. -/
def destroy (r : Routed) : Routed :=
  if r.ivpMsg.isSome then { r with attrs := fun h => (r.attrs h).orphan } else r

def initOrder : List Header := [.type, .subtype, .encoding, .timestamp, .flags]

def initAttributes (r : Routed) : Option Routed :=
  initOrder.foldlM (fun r h => (r.get h).map Prod.snd) r

/-- A copy of the structure, to which the attributes are bound. -/
def bindTo (r : Routed) (msg : IvpMessage) : Routed where
  msg := r.msg
  ivpMsg := some msg
  attrs h := if h.isDsrc ∧ msg.dsrcMetadata = none then r.attrs h else (r.attrs h).bind

/-- `set_contents`; `none` stands for what `Wrapped.get` does. -/
def setContents (now : BitVec 64) (r : Routed) (msg : Option IvpMessage) : Option Routed :=
  (r.destroy.bindTo (msg.getD (.create now none none none 0 none))).initAttributes

/-- The constructor without an argument. -/
def fresh (now : BitVec 64) : Option Routed := new.setContents now none

def getPayloadStr (json : Format) (r : Routed) : Option (Bytes × Routed) :=
  match r.ivpMsg with
  | none => none
  | some ivpMsg =>
    match ivpMsg.payload with
    | none => some ([], r)
    | some payload =>
      let payloadStr := stripQuotes (payload.print false)
      match payload with
      | .object _ | .array _ => (json.read payloadStr).map fun tree =>
        (payloadStr, { r with msg := r.msg.setTree (r.msg.tree.change (fun _ => tree) PAYLOAD) })
      | _ => some (payloadStr, { r with msg := r.msg.store PAYLOAD payloadStr })

/-- The tree that `get_payload` makes a message of, before it asks for the text. -/
def payloadTree (r : Routed) : Option PTree := r.msg.tree.getChild PAYLOAD

/-- `set_payload` of a string. -/
def setPayload (r : Routed) (payload : Bytes) : Option Routed := do
  let r ← r.set .encoding (cstr "string")
  let ivpMsg ← r.ivpMsg
  some ⟨r.msg.store PAYLOAD payload,
    some { ivpMsg with payload := some (.string (cstringAt payload)) }, r.attrs⟩

/-- What `get` of that attribute returns. -/
def value (r : Routed) (h : Header) : Option h.Val := (r.attrs h).value h.attr r.msg r.ivpMsg

/-- What holds of every object: attributes are bound to the structure as long as there is one, those
of the metadata only if they were there once, and hold nothing that is newer than the container. -/
structure Valid (r : Routed) : Prop where
  bounded : ∀ h, (r.attrs h).storage_version ≤ r.msg.storage_version
  bound : r.ivpMsg.isSome → ∀ h, h.isDsrc = false → (r.attrs h).active = .field
  loose : r.ivpMsg = none → ∀ h, (∃ v, (r.attrs h).active = .internal v) ∧ (r.attrs h)._str = .own
  metadata : ∀ h, h.isDsrc = true → (r.attrs h).active = .field →
    ∃ m, r.ivpMsg = some m ∧ m.dsrcMetadata.isSome

theorem new_valid : new.Valid where
  bounded _ := Int.zero_le_ofNat 1
  bound h := by cases h
  loose _ _ := ⟨⟨none, rfl⟩, rfl⟩
  metadata _ _ h := by cases h

end Routed

/-- A message as an object of the class. -/
def RouteableMessage : Type := { r : Routed // r.Valid }

namespace Header
variable {h h' : Header} (m : IvpMessage)

theorem path_not_prefix (hne : h ≠ h') : ¬ h.attr.path <+: h'.attr.path := by
  cases h <;> cases h' <;> first | exact absurd rfl hne | decide

theorem path_not_payload : ¬ h.attr.path <+: PAYLOAD ∧ ¬ PAYLOAD <+: h.attr.path := by
  cases h <;> decide

theorem read_write (hdsrc : h.isDsrc = false) (v : h.Val) :
    h.attr.read (h.attr.write m v) = some v := by
  cases h <;> first | rfl | cases hdsrc

theorem read_write_of_ne (hdsrc : h.isDsrc = false) (hne : h' ≠ h) (v : h.Val) :
    h'.attr.read (h.attr.write m v) = h'.attr.read m := by
  cases h <;> cases h' <;> first | exact absurd rfl hne | rfl | cases hdsrc

theorem write_rest (hdsrc : h.isDsrc = false) (v : h.Val) :
    (h.attr.write m v).dsrcMetadata = m.dsrcMetadata ∧
      (h.attr.write m v).payload = m.payload := by
  cases h <;> first | exact ⟨rfl, rfl⟩ | cases hdsrc

end Header

end V2IHub.Messages
