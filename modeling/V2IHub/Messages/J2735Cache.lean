import V2IHub.Messages.J2735Codec

/-! What an encoded J2735 message returns as decoded is the decoding of its payload, as long as the
payload is not replaced behind its back. -/
namespace V2IHub.Messages
open Foundation Api Json Location

/-- The text that `get_payload_str` returns. -/
def payloadText (payload : Option CJson) : Bytes :=
  match payload with
  | none => []
  | some item => stripQuotes (item.print false)

namespace Codec
variable {M : Type} (c : Codec M)

/-- What `decode_contentId` finds in bytes with an encoding. -/
def contentIdOf (id₀ : ℤ) (encoding bytes : Bytes) : ℤ :=
  if encoding == ENCODING_ASN1_UPER_STRING then c.uper_contentId id₀ bytes
  else if encoding == ENCODING_ASN1_BER_STRING then der_contentId bytes
  else -1

def msgId (id₀ : ℤ) (encoding bytes : Bytes) : ℤ :=
  let id := c.contentIdOf id₀ encoding bytes
  if 0 < id then id else c.default_messageId

/-- The decoding of bytes with an encoding, without a cache. -/
def decoding (id₀ : ℤ) (encoding bytes : Bytes) : Outcome J2735Exception M :=
  if cstringAt encoding ≠ c.ASN1_CODEC then .ok c.empty
  else if encoding == ENCODING_ASN1_UPER_STRING then
    c.decodeUper (uperFrame_D < c.msgId id₀ encoding bytes) bytes
  else if encoding == ENCODING_ASN1_BER_STRING then
    c.decodeDer (uperFrame_D < c.msgId id₀ encoding bytes) bytes
  else .throws (.unknownEncoding encoding)

end Codec

namespace Encoded
variable {M : Type} {c : Codec M} {json : Format}

/-- What was decoded, and the encoding and the payload in the structure. -/
structure Held (d : Option M) (v : Bytes) (p : Option CJson) (s : Encoded M) : Prop where
  decoded : s._decoded = d
  active : (s.base.attrs .encoding).active = .field
  message : ∃ m, s.base.ivpMsg = some m ∧ m.encoding = some v ∧ m.payload = p

/-- The same before the encoding was read for the first time, when it may still be missing in the
structure. -/
structure Known (d : Option M) (v : Option Bytes) (p : Option CJson) (s : Encoded M) : Prop where
  decoded : s._decoded = d
  active : (s.base.attrs .encoding).active = .field
  value : s.base.value .encoding = v
  message : ∃ m, s.base.ivpMsg = some m ∧ m.payload = p

section Reading
variable {d : Option M} {v : Bytes} {p : Option CJson} {E : J2735Exception → Encoded M → Prop}

theorem triple_call {α : Type} {f : Routed → Option (α × Routed)} {P : Encoded M → Prop}
    {Q : α → Encoded M → Prop}
    (h : ∀ s a base, P s → f s.base = some (a, base) → Q a { s with base := base }) :
    Program.Triple P (call f) Q E := by
  intro s hs
  unfold call
  cases hf : f s.base with
  | none => trivial
  | some r => exact h s r.1 r.2 hs hf

theorem Held.known {s : Encoded M} (h : Held d v p s) : Known d (some v) p s := by
  obtain ⟨m, hm, hencoding, hpayload⟩ := h.message
  refine ⟨h.decoded, h.active, ?_, m, hm, hpayload⟩
  rw [Routed.value, hm, Wrapped.value_field h.active]
  have hgiven : Header.encoding.attr.given (Header.encoding.attr.read m) = some v :=
    (Routed.given_text (by simp) _).trans hencoding
  simp only [hgiven]
  rfl

theorem get_encoding_known :
    Program.Triple (Known d (some v) p) get_encoding (fun a s => a = v ∧ Held d v p s) E := by
  apply triple_call
  intro s a base hs hget
  obtain ⟨m, hm, hpayload⟩ := hs.message
  obtain ⟨r', hget', hgot⟩ := Routed.get_spec hm hs.active rfl _ hs.value
  rw [hget] at hget'
  obtain ⟨rfl, rfl⟩ := Prod.mk.inj (Option.some.inj hget')
  obtain ⟨m', hm', hpayload', -, -, hkept, hfilled⟩ := hgot.message rfl
  refine ⟨rfl, hs.decoded, hgot.active, m', hm', ?_, hpayload'.trans hpayload⟩
  cases hgiven : Header.encoding.attr.given (Header.encoding.attr.read m) with
  | none => exact hfilled hgiven
  | some e =>
    have hvalue := hs.value
    rw [Routed.value, hm, Wrapped.value_field hs.active, hgiven] at hvalue
    obtain rfl : e = a := Option.some.inj hvalue
    have hread : Header.encoding.attr.read m = some e :=
      (Routed.given_text (by simp) _).symm.trans hgiven
    exact (hkept (by rw [hgiven]; rfl)).trans hread

theorem get_encoding_held :
    Program.Triple (Held d v p) get_encoding (fun a s => a = v ∧ Held d v p s) E :=
  Program.triple_mono get_encoding_known (fun _ => Held.known) (fun _ _ => id) fun _ _ => id

/-- Without a value for the encoding, the process ends where it is read. -/
theorem get_encoding_none :
    Program.Triple (Known d none p) get_encoding (fun _ _ => False) E := by
  apply triple_call
  intro s a base hs hget
  obtain ⟨m, hm, -⟩ := hs.message
  have hnone := Routed.get_spec hm hs.active rfl _ hs.value
  rw [hget] at hnone
  cases hnone

theorem getPayloadStr_spec {r r' : Routed} {text : Bytes}
    (h : r.getPayloadStr json = some (text, r')) :
    r'.ivpMsg = r.ivpMsg ∧ r'.attrs = r.attrs ∧
      ∃ m, r.ivpMsg = some m ∧ text = payloadText m.payload := by
  unfold Routed.getPayloadStr at h
  cases hm : r.ivpMsg with
  | none => simp [hm] at h
  | some m =>
    suffices hdone : text = payloadText m.payload ∧ r'.ivpMsg = some m ∧ r'.attrs = r.attrs from
      ⟨hdone.2.1, hdone.2.2, m, rfl, hdone.1⟩
    cases hp : m.payload with
    | none =>
      simp only [hm, hp, Option.some.injEq, Prod.mk.injEq] at h
      obtain ⟨rfl, rfl⟩ := h
      exact ⟨rfl, hm, rfl⟩
    | some payload =>
      simp only [hm, hp] at h
      cases payload with
      | object | array =>
        simp only [Option.map_eq_some_iff, Prod.mk.injEq] at h
        obtain ⟨tree, -, rfl, rfl⟩ := h
        exact ⟨rfl, rfl, rfl⟩
      | null | bool | number | string =>
        simp only [Option.some.injEq, Prod.mk.injEq] at h
        obtain ⟨rfl, rfl⟩ := h
        exact ⟨rfl, rfl, rfl⟩

theorem get_data_held :
    Program.Triple (Held d v p) (get_data json)
      (fun a s => decodeStream (payloadText p) = .done a ∧ Held d v p s) E := by
  apply triple_call
  intro s a base hs hget
  simp only [Option.bind_eq_bind, Option.bind_eq_some_iff, Prod.exists] at hget
  obtain ⟨text, r', hstr, hget⟩ := hget
  obtain ⟨hmsg, hattrs, m, hm, rfl⟩ := getPayloadStr_spec hstr
  obtain ⟨m', hm', hencoding, hpayload⟩ := hs.message
  obtain rfl : m = m' := Option.some.inj (hm.symm.trans hm')
  rw [← hpayload]
  split at hget
  case h_1 bytes hdone =>
    obtain ⟨rfl, rfl⟩ := Prod.mk.inj (Option.some.inj hget)
    exact ⟨hdone, hs.decoded, by rw [hattrs]; exact hs.active, m, hmsg.trans hm, hencoding, rfl⟩
  case h_2 => cases hget

theorem is_uper_known :
    Program.Triple (Known d (some v) p) is_uper
      (fun a s => a = (v == ENCODING_ASN1_UPER_STRING) ∧ Held d v p s) E :=
  Program.triple_bind_eq get_encoding_known (Program.triple_pure fun _ hs => ⟨rfl, hs⟩)

theorem is_uper_held :
    Program.Triple (Held d v p) is_uper
      (fun a s => a = (v == ENCODING_ASN1_UPER_STRING) ∧ Held d v p s) E :=
  Program.triple_bind_eq get_encoding_held (Program.triple_pure fun _ hs => ⟨rfl, hs⟩)

theorem is_der_held :
    Program.Triple (Held d v p) is_der
      (fun a s => a = (v == ENCODING_ASN1_BER_STRING) ∧ Held d v p s) E :=
  Program.triple_bind_eq get_encoding_held (Program.triple_pure fun _ hs => ⟨rfl, hs⟩)

/-- The bytes of the payload, if there are any. -/
theorem get_contentId_known (id₀ : ℤ) :
    Program.Triple (Known d (some v) p) (get_contentId c json id₀)
      (fun a s => (∀ bytes, decodeStream (payloadText p) = .done bytes →
        a = c.contentIdOf id₀ v bytes) ∧ Held d v p s) E := by
  unfold get_contentId Codec.contentIdOf
  refine Program.triple_bind_eq is_uper_known ?_
  cases v == ENCODING_ASN1_UPER_STRING with
  | true =>
    refine Program.triple_bind get_data_held fun data => Program.triple_pure ?_
    rintro s ⟨hdata, hs⟩
    refine ⟨fun bytes hbytes => ?_, hs⟩
    obtain rfl : data = bytes := Reading.done.inj (hdata.symm.trans hbytes)
    rfl
  | false =>
    refine Program.triple_bind_eq is_der_held ?_
    cases v == ENCODING_ASN1_BER_STRING with
    | true =>
      refine Program.triple_bind get_data_held fun data => Program.triple_pure ?_
      rintro s ⟨hdata, hs⟩
      refine ⟨fun bytes hbytes => ?_, hs⟩
      obtain rfl : data = bytes := Reading.done.inj (hdata.symm.trans hbytes)
      rfl
    | false => exact Program.triple_pure fun _ hs => ⟨fun _ _ => rfl, hs⟩

theorem get_msgId_known (id₀ : ℤ) :
    Program.Triple (Known d (some v) p) (get_msgId c json id₀)
      (fun a s => (∀ bytes, decodeStream (payloadText p) = .done bytes →
        a = c.msgId id₀ v bytes) ∧ Held d v p s) E := by
  refine Program.triple_bind (get_contentId_known id₀) fun id => Program.triple_pure ?_
  rintro s ⟨hid, hs⟩
  refine ⟨fun bytes hbytes => ?_, hs⟩
  rw [hid bytes hbytes]
  rfl

/-- What `decode_j2735_message` returns and keeps when nothing is cached: the decoding of the
payload. -/
structure Decoded (c : Codec M) (id₀ : ℤ) (v : Bytes) (p : Option CJson)
    (o : Outcome J2735Exception M) (s : Encoded M) : Prop where
  held : Held s._decoded v p s
  outcome : ∃ bytes, decodeStream (payloadText p) = .done bytes ∧ o = c.decoding id₀ v bytes
  kept : ∀ message, s._decoded = some message → o = .ok message

/-- Nothing is kept of an outcome that was not decoded. -/
theorem Held.decoded_of_none {id₀ : ℤ} {bytes : Bytes} {o : Outcome J2735Exception M}
    {s : Encoded M} (hs : Held none v p s) (hbytes : decodeStream (payloadText p) = .done bytes)
    (ho : o = c.decoding id₀ v bytes) : Decoded c id₀ v p o s := by
  have hkept := hs.decoded
  refine ⟨hkept ▸ hs, ⟨bytes, hbytes, ho⟩, fun message hmessage => ?_⟩
  rw [hkept] at hmessage
  cases hmessage

theorem decode_into_held (o : Outcome J2735Exception M) :
    Program.Triple (Held none v p) (decode_into o)
      (fun a s => o = .ok a ∧ Held (some a) v p s) (fun e s => o = .throws e ∧ Held none v p s) := by
  intro s hs
  rw [decode_into, Program.bind_run]
  cases o with
  | ok message => exact ⟨rfl, rfl, hs.active, hs.message⟩
  | throws e => exact ⟨rfl, hs⟩
  | crash => trivial

theorem decode_into_decoded {id₀ : ℤ} {bytes : Bytes} {o : Outcome J2735Exception M}
    (hbytes : decodeStream (payloadText p) = .done bytes) (ho : o = c.decoding id₀ v bytes) :
    Program.Triple (Held none v p) (decode_into o) (fun a s => Decoded c id₀ v p (.ok a) s)
      (fun e s => Decoded c id₀ v p (.throws e) s) := by
  refine Program.triple_mono (decode_into_held o) (fun _ => id) ?_ ?_
  · rintro a s ⟨rfl, hs⟩
    have hkept := hs.decoded
    refine ⟨hkept ▸ hs, ⟨bytes, hbytes, ho⟩, fun message hmessage => ?_⟩
    rw [hkept] at hmessage
    rw [Option.some.inj hmessage]
  · rintro e s ⟨rfl, hs⟩
    exact hs.decoded_of_none hbytes ho

theorem decode_known (id₀ : ℤ) :
    Program.Triple (Known none (some v) p) (decode_j2735_message c json id₀)
      (fun a s => Decoded c id₀ v p (.ok a) s) (fun e s => Decoded c id₀ v p (.throws e) s) := by
  unfold decode_j2735_message
  refine Program.triple_bind (get_msgId_known id₀) fun msgId => Program.triple_of_imp fun hid => ?_
  have hget : Program.Triple (Held none v p) (Program.get : Method M (Encoded M))
      (fun a s => a._decoded = none ∧ Held none v p s)
      (fun e s => Decoded c id₀ v p (.throws e) s) :=
    Program.triple_get fun s hs => ⟨hs.decoded, hs⟩
  refine Program.triple_bind hget fun a => Program.triple_of_imp fun hnone => ?_
  rw [hnone]
  refine Program.triple_bind get_data_held fun bytes => Program.triple_of_imp fun hbytes => ?_
  obtain rfl := hid bytes hbytes
  refine Program.triple_bind_eq get_encoding_held ?_
  by_cases hcodec : cstringAt v ≠ c.ASN1_CODEC
  · rw [if_pos hcodec]
    exact Program.triple_pure fun s hs =>
      hs.decoded_of_none hbytes (by rw [Codec.decoding, if_pos hcodec])
  · rw [if_neg hcodec]
    refine Program.triple_bind_eq is_uper_held ?_
    cases huper : v == ENCODING_ASN1_UPER_STRING with
    | true =>
      refine decode_into_decoded hbytes ?_
      rw [Codec.decoding, if_neg hcodec, huper]
      rfl
    | false =>
      refine Program.triple_bind_eq is_der_held ?_
      cases hder : v == ENCODING_ASN1_BER_STRING with
      | true =>
        refine decode_into_decoded hbytes ?_
        rw [Codec.decoding, if_neg hcodec, huper, hder]
        rfl
      | false =>
        refine Program.triple_bind_eq get_encoding_held (Program.triple_throw fun s hs => ?_)
        refine hs.decoded_of_none hbytes ?_
        rw [Codec.decoding, if_neg hcodec, huper, hder]
        rfl

/-- What is cached is returned. -/
theorem decode_cached (id₀ : ℤ) (message : M) :
    Program.Triple (Held (some message) v p) (decode_j2735_message c json id₀)
      (fun a s => a = message ∧ Held (some message) v p s) fun _ _ => False := by
  unfold decode_j2735_message
  refine Program.triple_bind (Program.triple_mono (get_msgId_known id₀) (fun _ => Held.known)
    (fun _ _ => And.right) fun _ _ => id) fun _ => ?_
  have hget : Program.Triple (Held (some message) v p) (Program.get : Method M (Encoded M))
      (fun a s => a._decoded = some message ∧ Held (some message) v p s) fun _ _ => False :=
    Program.triple_get fun s hs => ⟨hs.decoded, hs⟩
  refine Program.triple_bind hget fun a => Program.triple_of_imp fun hsome => ?_
  rw [hsome]
  exact Program.triple_pure fun s hs => ⟨rfl, hs⟩

end Reading

section Absent
variable {E : J2735Exception → Encoded M → Prop}

/-- An object without a structure, of which nothing was decoded. -/
structure Absent (s : Encoded M) : Prop where
  decoded : s._decoded = none
  message : s.base.ivpMsg = none

theorem construct_absent {α : Type} {a : HeaderAttribute α} {w w' : Wrapped α} {data : α}
    {msg : Option IvpMessage} (h : w.construct a none data = some (w', msg)) : msg = none := by
  unfold Wrapped.construct at h
  split at h
  · cases h
  · cases hactive : w.active with
    | internal value =>
      simp only [hactive, Option.some.injEq, Prod.mk.injEq] at h
      exact h.2.symm
    | field => simp [hactive] at h
    | gone => simp [hactive] at h

theorem set_absent {α : Type} {a : HeaderAttribute α} {w w' : Wrapped α} {data : α}
    {container container' : Container} {msg : Option IvpMessage}
    (h : w.set a container none data = some (w', container', msg)) : msg = none := by
  simp only [Wrapped.set, Option.bind_eq_bind, Option.bind_eq_some_iff, Prod.exists,
    Option.some.injEq, Prod.mk.injEq] at h
  obtain ⟨w₁, msg₁, hconstruct, v₁, -, v₂, -, -, -, rfl⟩ := h
  exact construct_absent hconstruct

theorem get_absent {r r' : Routed} {h : Header} {v : h.Val} (hm : r.ivpMsg = none)
    (hget : r.get h = some (v, r')) : r'.ivpMsg = none := by
  simp only [Routed.get, hm, Option.map_eq_some_iff, Prod.exists, Prod.mk.injEq] at hget
  obtain ⟨v', w, container, msg, hwrapped, rfl, rfl⟩ := hget
  simp only [Wrapped.get, Option.bind_eq_bind, Option.bind_eq_some_iff] at hwrapped
  obtain ⟨u, -, hwrapped⟩ := hwrapped
  split at hwrapped
  · simp only [Option.some.injEq, Prod.mk.injEq] at hwrapped
    exact hwrapped.2.2.2.symm
  · split at hwrapped
    · cases hwrapped
    · simp only [Option.bind_eq_some_iff, Prod.exists, Option.some.injEq, Prod.mk.injEq]
        at hwrapped
      obtain ⟨w₁, container₁, msg₁, hset, -, -, -, -, -, -, -, rfl⟩ := hwrapped
      exact set_absent hset

theorem get_encoding_absent :
    Program.Triple Absent (get_encoding : Method M Bytes) (fun _ => Absent) E :=
  triple_call fun _ _ _ hs hget => ⟨hs.decoded, get_absent hs.message hget⟩

theorem get_data_absent :
    Program.Triple Absent (get_data json : Method M Bytes) (fun _ _ => False) E := by
  refine triple_call fun s a base hs hget => ?_
  simp only [Option.bind_eq_bind, Option.bind_eq_some_iff, Prod.exists] at hget
  obtain ⟨text, r', hstr, -⟩ := hget
  obtain ⟨-, -, m, hm, -⟩ := getPayloadStr_spec hstr
  rw [hs.message] at hm
  cases hm

theorem get_msgId_absent (id₀ : ℤ) :
    Program.Triple Absent (get_msgId c json id₀) (fun _ => Absent) E := by
  have hencoding : ∀ encoding : Bytes, Program.Triple Absent
      (do let e ← get_encoding; pure (e == encoding) : Method M Bool) (fun _ => Absent) E :=
    fun _ => Program.triple_bind get_encoding_absent fun _ => Program.triple_pure fun _ hs => hs
  have hcontent : Program.Triple Absent (get_contentId c json id₀) (fun _ => Absent) E := by
    unfold get_contentId
    refine Program.triple_bind (hencoding _) fun uper => ?_
    cases uper with
    | true => exact Program.triple_bind_never get_data_absent
    | false =>
      refine Program.triple_bind (hencoding _) fun der => ?_
      cases der with
      | true => exact Program.triple_bind_never get_data_absent
      | false => exact Program.triple_pure fun _ hs => hs
  exact Program.triple_bind hcontent fun _ => Program.triple_pure fun _ hs => hs

/-- The payload of no structure is asked for. -/
theorem decode_absent (id₀ : ℤ) {Q : M → Encoded M → Prop} :
    Program.Triple Absent (decode_j2735_message c json id₀) Q E := by
  unfold decode_j2735_message
  refine Program.triple_bind (get_msgId_absent id₀) fun _ => ?_
  have hget : Program.Triple Absent (Program.get : Method M (Encoded M))
      (fun a s => a._decoded = none ∧ Absent s) E :=
    Program.triple_get fun s hs => ⟨hs.decoded, hs⟩
  refine Program.triple_bind hget fun a => Program.triple_of_imp fun hnone => ?_
  rw [hnone]
  exact Program.triple_bind_never get_data_absent

/-- Neither is a payload whose encoding cannot be read. -/
theorem decode_unreadable {d : Option M} {p : Option CJson} (id₀ : ℤ) {Q : M → Encoded M → Prop} :
    Program.Triple (Known d none p) (decode_j2735_message c json id₀) Q E :=
  Program.triple_bind_never (Program.triple_bind_never (Program.triple_bind_never
    (Program.triple_bind_never get_encoding_none)))

end Absent

section Bound

/-- The encoding is bound to the structure, if there is one. -/
def Bound (r : Routed) : Prop := r.ivpMsg.isSome → (r.attrs .encoding).active = .field

theorem construct_active {α : Type} {a : HeaderAttribute α} {w w' : Wrapped α} {data : α}
    {msg msg' : Option IvpMessage} (h : w.construct a msg data = some (w', msg'))
    (hactive : w.active = .field) : w'.active = .field := by
  unfold Wrapped.construct at h
  split at h
  · cases h
  · simp only [hactive, Option.map_eq_some_iff, Prod.mk.injEq] at h
    obtain ⟨m, -, rfl, -⟩ := h
    rfl

theorem set_active {α : Type} {a : HeaderAttribute α} {w w' : Wrapped α} {data : α}
    {container container' : Container} {msg msg' : Option IvpMessage}
    (h : w.set a container msg data = some (w', container', msg')) (hactive : w.active = .field) :
    w'.active = .field := by
  simp only [Wrapped.set, Option.bind_eq_bind, Option.bind_eq_some_iff, Prod.exists,
    Option.some.injEq, Prod.mk.injEq] at h
  obtain ⟨w₁, msg₁, hconstruct, v₁, -, v₂, -, rfl, -, -⟩ := h
  have hactive₁ := construct_active hconstruct hactive
  exact hactive₁

theorem get_active {α : Type} {a : HeaderAttribute α} {w w' : Wrapped α} {x : α}
    {container container' : Container} {msg msg' : Option IvpMessage}
    (h : w.get a container msg = some (x, w', container', msg')) (hactive : w.active = .field) :
    w'.active = .field := by
  simp only [Wrapped.get, Option.bind_eq_bind, Option.bind_eq_some_iff] at h
  obtain ⟨u, -, h⟩ := h
  split at h
  · simp only [Option.some.injEq, Prod.mk.injEq] at h
    obtain ⟨-, rfl, -, -⟩ := h
    exact hactive
  · split at h
    · cases h
    · simp only [Option.bind_eq_some_iff, Prod.exists, Option.some.injEq, Prod.mk.injEq] at h
      obtain ⟨w₁, container₁, msg₁, hset, v₁, -, v₂, -, -, rfl, -, -⟩ := h
      have hactive₁ : w₁.active = .field := set_active hset hactive
      exact hactive₁

variable {r r' : Routed}

theorem Bound.withMsg (hr : Bound r) (msg : Container) : Bound { r with msg := msg } := hr

theorem Bound.get (hr : Bound r) {h : Header} {v : h.Val} (hget : r.get h = some (v, r')) :
    Bound r' := by
  intro hsome
  have hold : r.ivpMsg.isSome := by
    by_contra hnone
    rw [get_absent (Option.not_isSome_iff_eq_none.mp hnone) hget] at hsome
    cases hsome
  simp only [Routed.get, Option.map_eq_some_iff, Prod.exists, Prod.mk.injEq] at hget
  obtain ⟨v', w, container, msg, hwrapped, -, rfl⟩ := hget
  by_cases hh : h = .encoding
  · subst hh
    simp only [Function.update_self]
    exact get_active hwrapped (hr hold)
  · simp only [Function.update_of_ne (Ne.symm hh)]
    exact hr hold

theorem Bound.set (hr : Bound r) {v : Bytes} (hset : r.set .encoding v = some r') : Bound r' := by
  simp only [Routed.set, Option.map_eq_some_iff, Prod.exists] at hset
  obtain ⟨w, container, msg, hwrapped, rfl⟩ := hset
  intro hsome
  have hold : r.ivpMsg.isSome := by
    by_contra hnone
    rw [Option.not_isSome_iff_eq_none.mp hnone] at hwrapped
    obtain rfl := set_absent hwrapped
    cases hsome
  simp only [Function.update_self]
  exact set_active hwrapped (hr hold)

theorem Bound.putPayload (hr : Bound r) {text : Bytes} {payload : CJson}
    (hput : r.putPayload text payload = some r') : Bound r' := by
  simp only [Routed.putPayload, Option.bind_eq_bind, Option.bind_eq_some_iff, Option.some.injEq]
    at hput
  obtain ⟨r₁, hset, m, hm, rfl⟩ := hput
  have h₁ : Bound r₁ := hr.set hset
  exact fun _ => h₁ (by rw [hm]; rfl)

theorem Bound.setPayload (hr : Bound r) {payload : Bytes}
    (hset : r.setPayload payload = some r') : Bound r' :=
  hr.putPayload (show r.putPayload payload (.string (cstringAt payload)) = some r' from hset)

theorem Bound.setPayloadBytes (hr : Bound r) {bytes : Bytes}
    (hset : r.setPayloadBytes bytes = some r') : Bound r' := by
  simp only [Routed.setPayloadBytes, Option.bind_eq_bind, Option.bind_eq_some_iff] at hset
  obtain ⟨r₁, hpayload, hset⟩ := hset
  exact (hr.setPayload hpayload).set hset

theorem Bound.setPayloadMessage {json : Format} (hr : Bound r) {payload : PTree}
    (hset : r.setPayloadMessage json payload = some r') : Bound r' := by
  simp only [Routed.setPayloadMessage, Option.bind_eq_bind, Option.bind_eq_some_iff, Prod.exists]
    at hset
  obtain ⟨r₁, hset, encoding, r₂, hget, hrest⟩ := hset
  have h₂ : Bound r₂ := ((hr.withMsg _).set hset).get hget
  split at hrest
  · split at hrest
    · obtain rfl := Option.some.inj hrest
      exact h₂
    · obtain ⟨m, hm, hrest⟩ := Option.bind_eq_some_iff.mp hrest
      obtain rfl := Option.some.inj hrest
      exact fun _ => h₂ (by rw [hm]; rfl)
  · obtain rfl := Option.some.inj hrest
    exact h₂

theorem Bound.setPayloadArg {json : Format} (hr : Bound r) {payload : PayloadArg}
    (hset : r.setPayloadArg json payload = some r') : Bound r' := by
  cases payload with
  | message payload => exact hr.setPayloadMessage hset
  | otherFormat text format =>
    simp only [Routed.setPayloadArg, Option.bind_eq_bind, Option.bind_eq_some_iff] at hset
    obtain ⟨r₁, hpayload, hset⟩ := hset
    exact (hr.setPayload hpayload).set hset
  | text payload => exact hr.setPayload hset
  | bool payload => exact hr.putPayload hset
  | int number => exact hr.putPayload hset
  | double text number => exact hr.putPayload hset

theorem Bound.getAll {hs : List Header} (hr : Bound r)
    (hfold : hs.foldlM (fun r h => (r.get h).map Prod.snd) r = some r') : Bound r' := by
  induction hs generalizing r with
  | nil =>
    obtain rfl := Option.some.inj hfold
    exact hr
  | cons h hs ih =>
    rw [List.foldlM_cons] at hfold
    simp only [Option.bind_eq_bind, Option.bind_eq_some_iff, Option.map_eq_some_iff, Prod.exists]
      at hfold
    obtain ⟨r₁, ⟨v, r₂, hget, rfl⟩, hfold⟩ := hfold
    exact ih (hr.get hget) hfold

theorem Bound.of_setContents {now : BitVec 64} {msg : Option IvpMessage}
    (hset : r.setContents now msg = some r') : Bound r' :=
  Bound.getAll (r := r.destroy.bindTo _) (fun _ => rfl) hset

end Bound

/-- Nothing is cached. -/
structure Idle (s : Encoded M) : Prop where
  decoded : s._decoded = none
  bound : Bound s.base

/-- What is cached is the decoding of the payload. -/
inductive Coherent (c : Codec M) (s : Encoded M) : Prop
  | idle (h : Idle s)
  | cached {message : M} {id₀ : ℤ} {v : Bytes} {p : Option CJson} {bytes : Bytes}
      (held : Held (some message) v p s) (read : decodeStream (payloadText p) = .done bytes)
      (decoded : c.decoding id₀ v bytes = .ok message)

/-- The outcome is the decoding of the bytes that the payload holds now. -/
def Current (c : Codec M) (s : Encoded M) (o : Outcome J2735Exception M) : Prop :=
  ∃ id₀ m v bytes, s.base.ivpMsg = some m ∧ s.base.value .encoding = some v ∧
    decodeStream (payloadText m.payload) = .done bytes ∧ o = c.decoding id₀ v bytes

section Coherent
variable {s t : Encoded M} {E : J2735Exception → Encoded M → Prop}

theorem Held.bound {d : Option M} {v : Bytes} {p : Option CJson} (h : Held d v p s) :
    Bound s.base := fun _ => h.active

theorem Absent.idle (h : Absent s) : Idle s where
  decoded := h.decoded
  bound hsome := by
    rw [h.message] at hsome
    cases hsome

/-- Where nothing is cached, there is no structure, or its encoding and payload are what they
are. -/
theorem Idle.split (h : Idle s) : Absent s ∨ ∃ v p, Known none v p s := by
  cases hm : s.base.ivpMsg with
  | none => exact .inl ⟨h.decoded, hm⟩
  | some m =>
    exact .inr ⟨_, _, h.decoded, h.bound (by rw [hm]; rfl), rfl, m, hm, rfl⟩

theorem get_encoding_idle :
    Program.Triple Idle (get_encoding : Method M Bytes) (fun _ => Idle) E :=
  triple_call fun _ _ _ hs hget => ⟨hs.decoded, hs.bound.get hget⟩

theorem get_data_idle : Program.Triple Idle (get_data json : Method M Bytes) (fun _ => Idle) E := by
  refine triple_call fun s a base hs hget => ⟨hs.decoded, ?_⟩
  simp only [Option.bind_eq_bind, Option.bind_eq_some_iff, Prod.exists] at hget
  obtain ⟨text, r', hstr, hget⟩ := hget
  obtain ⟨hmsg, hattrs, -⟩ := getPayloadStr_spec hstr
  have h' : Bound r' := by
    rw [Bound, hmsg, hattrs]
    exact hs.bound
  split at hget
  · obtain ⟨-, rfl⟩ := Prod.mk.inj (Option.some.inj hget)
    exact h'
  · cases hget

/-- What keeps an idle object idle and a cache with its encoding and payload keeps the object
coherent. -/
theorem coherent_of {α : Type} {p : Method M α} (hidle : Program.Triple Idle p (fun _ => Idle) E)
    (hheld : ∀ d v q, Program.Triple (Held d v q) p (fun _ => Held d v q) E) :
    Program.Triple (Coherent c) p (fun _ => Coherent c) E := by
  intro s hs
  cases hs with
  | idle h => exact Program.triple_mono hidle (fun _ => id) (fun _ _ => .idle) (fun _ _ => id) s h
  | cached held read decoded =>
    exact Program.triple_mono (hheld _ _ _) (fun _ => id) (fun _ _ h => .cached h read decoded)
      (fun _ _ => id) s held

theorem get_encoding_coherent :
    Program.Triple (Coherent c) (get_encoding : Method M Bytes) (fun _ => Coherent c) E :=
  coherent_of get_encoding_idle fun _ _ _ =>
    Program.triple_mono get_encoding_held (fun _ => id) (fun _ _ => And.right) fun _ _ => id

theorem get_data_coherent :
    Program.Triple (Coherent c) (get_data json : Method M Bytes) (fun _ => Coherent c) E :=
  coherent_of get_data_idle fun _ _ _ =>
    Program.triple_mono get_data_held (fun _ => id) (fun _ _ => And.right) fun _ _ => id

theorem encoding_test_coherent (encoding : Bytes) :
    Program.Triple (Coherent c) (do let e ← get_encoding; pure (e == encoding) : Method M Bool)
      (fun _ => Coherent c) E :=
  Program.triple_bind get_encoding_coherent fun _ => Program.triple_pure fun _ => id

theorem get_msgId_coherent (id₀ : ℤ) :
    Program.Triple (Coherent c) (get_msgId c json id₀) (fun _ => Coherent c) E := by
  have hcontent : Program.Triple (Coherent c) (get_contentId c json id₀) (fun _ => Coherent c) E := by
    unfold get_contentId
    refine Program.triple_bind (encoding_test_coherent _) fun uper => ?_
    cases uper with
    | true => exact Program.triple_bind get_data_coherent fun _ => Program.triple_pure fun _ => id
    | false =>
      refine Program.triple_bind (encoding_test_coherent _) fun der => ?_
      cases der with
      | true => exact Program.triple_bind get_data_coherent fun _ => Program.triple_pure fun _ => id
      | false => exact Program.triple_pure fun _ => id
  exact Program.triple_bind hcontent fun _ => Program.triple_pure fun _ => id

/-- The current decoding, with the structure that is known. -/
theorem current_of {d : Option M} {v : Bytes} {p : Option CJson} {id₀ : ℤ} {bytes : Bytes}
    {o : Outcome J2735Exception M} (h : Known d (some v) p s)
    (hbytes : decodeStream (payloadText p) = .done bytes) (ho : o = c.decoding id₀ v bytes) :
    Current c s o := by
  obtain ⟨m, hm, rfl⟩ := h.message
  exact ⟨id₀, m, v, bytes, hm, h.value, hbytes, ho⟩

theorem Decoded.coherent {id₀ : ℤ} {v : Bytes} {p : Option CJson} {o : Outcome J2735Exception M}
    (h : Decoded c id₀ v p o s) : Coherent c s := by
  have hheld := h.held
  cases hmessage : s._decoded with
  | none => exact .idle ⟨hmessage, hheld.bound⟩
  | some message =>
    rw [hmessage] at hheld
    obtain ⟨bytes, hbytes, ho⟩ := h.outcome
    exact .cached hheld hbytes (ho.symm.trans (h.kept message hmessage))

/-- A coherent object decodes its payload and stays coherent. -/
theorem Coherent.decode (h : Coherent c s) (id₀ : ℤ) {o : Outcome J2735Exception M}
    (ho : decode_j2735_message c json id₀ s = (o, t)) (hcrash : o ≠ .crash) :
    Coherent c t ∧ Current c s o := by
  cases h with
  | idle h =>
    rcases h.split with habsent | ⟨v, p, hknown⟩
    · have hnever := (decode_absent (Q := fun _ _ => False) (E := fun _ _ => False) id₀).ends
        habsent ho hcrash
      simp at hnever
    · cases v with
      | none =>
        have hnever := (decode_unreadable (Q := fun _ _ => False) (E := fun _ _ => False) id₀).ends
          hknown ho hcrash
        simp at hnever
      | some v =>
        have hdecoded : Decoded c id₀ v p o t := by
          rcases (decode_known id₀).ends hknown ho hcrash with ⟨a, rfl, h⟩ | ⟨e, rfl, h⟩
          · exact h
          · exact h
        obtain ⟨bytes, hbytes, hout⟩ := hdecoded.outcome
        exact ⟨hdecoded.coherent, current_of hknown hbytes hout⟩
  | cached held read decoded =>
    rcases (decode_cached id₀ _).ends held ho hcrash with ⟨a, rfl, rfl, held'⟩ | ⟨e, rfl, h⟩
    · exact ⟨.cached held' read decoded, current_of held.known read decoded.symm⟩
    · exact h.elim

theorem update_idle {f : Routed → Option Routed}
    (hf : ∀ r r', Bound r → f r = some r' → Bound r') :
    Program.Triple Idle (update f : Method M Unit) (fun _ => Idle) E := by
  refine triple_call fun s _ base hs hupdate => ⟨hs.decoded, ?_⟩
  obtain ⟨r', hr', hpair⟩ := Option.map_eq_some_iff.mp hupdate
  obtain rfl : r' = base := (Prod.mk.inj hpair).2
  exact hf s.base r' hs.bound hr'

/-- `set_data` empties the cache. -/
theorem set_data_coherent (data : Bytes) :
    Program.Triple (Coherent c) (set_data data) (fun _ => Coherent c) E := by
  have hreset : Program.Triple (Coherent c)
      (Program.modify fun s => { s with _decoded := none } : Method M Unit) (fun _ => Idle) E := by
    refine Program.triple_modify fun s hs => ⟨rfl, ?_⟩
    cases hs with
    | idle h => exact h.bound
    | cached held => exact held.bound
  have hset : ∀ encoding : Bytes, Program.Triple Idle
      (update fun r => r.set .encoding encoding : Method M Unit) (fun _ => Idle) E :=
    fun _ => update_idle fun _ _ hr hr' => hr.set hr'
  have hidle : Program.Triple (Coherent c) (set_data data) (fun _ => Idle) E := by
    refine Program.triple_bind hreset fun _ => Program.triple_bind get_encoding_idle fun enc =>
      Program.triple_bind (update_idle fun _ _ hr hr' => hr.setPayloadBytes hr') fun _ =>
        Program.triple_bind (hset enc) fun _ => ?_
    split
    · exact hset _
    · exact Program.triple_pure fun _ => id
  exact Program.triple_mono hidle (fun _ => id) (fun _ _ => .idle) fun _ _ => id

theorem encoded_coherent (encoding : Bytes) (bytes : Option Bytes) :
    Program.Triple (Coherent c) (encoded encoding bytes) (fun _ => Coherent c)
      fun _ => Coherent c := by
  cases bytes with
  | none => exact Program.triple_throw fun _ => id
  | some bytes => exact Program.triple_pure fun _ => id

theorem encode_coherent (id₀ : ℤ) (message : M) :
    Program.Triple (Coherent c) (encode_j2735_message c json id₀ message) (fun _ => Coherent c)
      fun _ => Coherent c := by
  unfold encode_j2735_message
  refine Program.triple_bind (get_msgId_coherent id₀) fun msgId =>
    Program.triple_bind (encoding_test_coherent _) fun uper => ?_
  cases uper with
  | true => exact Program.triple_bind (encoded_coherent _ _) fun _ => set_data_coherent _
  | false =>
    refine Program.triple_bind (encoding_test_coherent _) fun der => ?_
    cases der with
    | true => exact Program.triple_bind (encoded_coherent _ _) fun _ => set_data_coherent _
    | false =>
      exact Program.triple_bind get_encoding_coherent fun _ => Program.triple_throw fun _ => id

/-- Only the container is written. -/
theorem Coherent.withMsg (h : Coherent c s) (msg : Container) :
    Coherent c { s with base := { s.base with msg := msg } } := by
  cases h with
  | idle h => exact .idle ⟨h.decoded, h.bound⟩
  | cached held read decoded =>
    exact .cached ⟨held.decoded, held.active, held.message⟩ read decoded

/-- The methods of the base class that replace the payload or its encoding are called only while
nothing is cached. -/
def Guarded (s : Encoded M) : Act M → Prop
  | .set_payload _ => s._decoded = none
  | .set_payload_bytes _ => s._decoded = none
  | .set_contents _ _ => s._decoded = none
  | _ => True

theorem step_ends {a : Act M} (hstep : (machine c json).step s a = some t) :
    ∃ o, method c json a s = (o, t) ∧ o ≠ .crash := by
  simp only [machine] at hstep
  rcases hmethod : method c json a s with ⟨o, t'⟩
  rw [hmethod] at hstep
  cases o with
  | crash => cases hstep
  | ok u =>
    obtain rfl := Option.some.inj hstep
    exact ⟨_, rfl, by simp⟩
  | throws e =>
    obtain rfl := Option.some.inj hstep
    exact ⟨_, rfl, by simp⟩

theorem coherent_of_ends {a : Act M} {P : Encoded M → Prop}
    (h : Program.Triple P (method c json a) (fun _ => Coherent c) fun _ => Coherent c) (hs : P s)
    (hstep : (machine c json).step s a = some t) : Coherent c t := by
  obtain ⟨o, ho, hcrash⟩ := step_ends hstep
  rcases h.ends hs ho hcrash with ⟨-, -, ht⟩ | ⟨-, -, ht⟩
  · exact ht
  · exact ht

theorem decode_coherent (id₀ : ℤ) :
    Program.Triple (Coherent c) (decode_j2735_message c json id₀) (fun _ => Coherent c)
      fun _ => Coherent c := by
  intro s hs
  rcases ho : decode_j2735_message c json id₀ s with ⟨a | e | _, t⟩
  · exact (hs.decode id₀ ho (by simp)).1
  · exact (hs.decode id₀ ho (by simp)).1
  · trivial

theorem Coherent.step {a : Act M} (h : Coherent c s) (hguard : Guarded s a)
    (hstep : (machine c json).step s a = some t) : Coherent c t := by
  have hidle : s._decoded = none → Idle s := by
    intro hnone
    cases h with
    | idle h => exact h
    | cached held => exact ⟨hnone, held.bound⟩
  have hupdate : ∀ {f : Routed → Option Routed}, (∀ r r', Bound r → f r = some r' → Bound r') →
      Program.Triple Idle (update f : Method M Unit) (fun _ => Coherent c) fun _ => Coherent c :=
    fun hf => Program.triple_mono (update_idle hf) (fun _ => id) (fun _ _ => .idle) fun _ _ => id
  cases a with
  | set_data data => exact coherent_of_ends (set_data_coherent data) h hstep
  | decode_j2735_message id₀ =>
    exact coherent_of_ends (Program.triple_bind (decode_coherent id₀) fun _ =>
      Program.triple_pure fun _ => id) h hstep
  | encode_j2735_message id₀ message =>
    exact coherent_of_ends (encode_coherent id₀ message) h hstep
  | set_payload payload =>
    exact coherent_of_ends (hupdate fun _ _ hr hr' => hr.setPayloadArg hr') (hidle hguard) hstep
  | set_payload_bytes bytes =>
    exact coherent_of_ends (hupdate fun _ _ hr hr' => hr.setPayloadBytes hr') (hidle hguard) hstep
  | set_contents now msg =>
    exact coherent_of_ends (hupdate fun _ _ _ hr' => .of_setContents hr') (hidle hguard) hstep
  | set_contents_text contents =>
    refine coherent_of_ends (Program.triple_modify fun s hs => ?_) h hstep
    cases json.read contents with
    | none => exact hs
    | some tree => exact hs.withMsg _
  | set_contents_tree contents =>
    exact coherent_of_ends (Program.triple_modify fun s hs => hs.withMsg _) h hstep
  | clear => exact coherent_of_ends (Program.triple_modify fun s hs => hs.withMsg _) h hstep

end Coherent

/-- An object of which nothing was decoded, as every constructor leaves it. -/
def start (r : RouteableMessage) : Encoded M := ⟨r.1, none⟩

section Sample

/-- A message that is decoded to its bytes. -/
def sampleCodec : Codec Bytes where
  SAEJ2735_SPEC := 63
  default_messageId := 20
  empty := []
  Frame := Bytes
  contentID _ := 0
  ofFrame := id
  uper_decode := .ok
  uper_decode_frame := .ok
  ber_decode := .ok
  ber_decode_frame := .ok
  uper_encode := some
  uper_encode_frame := some
  der_encode := some
  der_encode_frame := some

theorem decoding_sample (id₀ : ℤ) (bytes : Bytes) :
    (sampleCodec.decoding id₀ ENCODING_ASN1_UPER_STRING bytes).value = some bytes := by
  have hcodec : ¬ cstringAt ENCODING_ASN1_UPER_STRING ≠ sampleCodec.ASN1_CODEC := by
    decide +kernel
  have huper : (ENCODING_ASN1_UPER_STRING == ENCODING_ASN1_UPER_STRING) = true := by
    exact beq_self_eq_true _
  rw [Codec.decoding, if_neg hcodec, if_pos huper, Codec.decodeUper]
  split
  · rfl
  · rfl

def sampleEncoded (bytes : Bytes) : IvpMessage :=
  .create 1000 (some (cstr "J2735")) (some (cstr "BSM")) (some ENCODING_ASN1_UPER_STRING) 8
    (some (.string (byteStreamEncode bytes)))

def sampleJson : Format := ⟨fun _ => none, fun _ => none⟩

def sampleStart : RouteableMessage := ⟨.new, Routed.new_valid⟩

/-- A received message is decoded, gets other data, and is decoded again. -/
def sampleActs : List (Act Bytes) :=
  [.set_contents 1000 (some (sampleEncoded [0, 20, 1])), .decode_j2735_message 0,
    .set_data [0, 20, 2, 3], .clear, .decode_j2735_message 0]

/-- The object of a received message is set to the next message. -/
def sampleReuse : List (Act Bytes) :=
  [.set_contents 1000 (some (sampleEncoded [0, 20, 1])), .decode_j2735_message 0,
    .set_contents 2000 (some (sampleEncoded [0, 20, 2, 3]))]

theorem sampleActs_guarded :
    (machine sampleCodec sampleJson).Obeys Guarded (start sampleStart) sampleActs := by
  refine ⟨rfl, ?_⟩
  split
  · refine ⟨trivial, ?_⟩
    split
    · refine ⟨trivial, ?_⟩
      split
      · refine ⟨trivial, ?_⟩
        split
        · refine ⟨trivial, ?_⟩
          split
          · trivial
          · trivial
        · trivial
      · trivial
    · trivial
  · trivial

end Sample


end Encoded
end V2IHub.Messages
