import V2IHub.Utils.MessageManager

/-! Which encodings `IsByteHexEncoded` takes for encoded bytes, and what the workers make of a
message of bytes. -/
namespace V2IHub.Utils
open V2IHub.Foundation Incoming

def hexstring : Bytes := cstr "hexstring"

def ENCODING_STRING_STRING : Bytes := cstr "string"

def ENCODING_BYTEARRAY_STRING : Bytes := cstr "bytearray/hexstring"

/-- The branches of `doWork`: the factory for J2735 messages, which falls back to the payload
bytes; the payload bytes at once; the contents of a message; a payload string. -/
inductive Conversion where
  | newMessage
  | payloadBytes
  | contents
  | payload
deriving DecidableEq

/-- The branch for an encoding that is taken for encoded bytes, or is not. -/
def Conversion.of (byteHexEncoded : Bool) (enc : Bytes) : Conversion :=
  if byteHexEncoded then
    if enc ≠ ENCODING_BYTEARRAY_STRING then newMessage else payloadBytes
  else if enc.take 4 = cstr "json" then contents
  else payload

/-- The encoding of a message in `doWork`. -/
def MessageStruct.enc (msg : MessageStruct) : Bytes :=
  let enc := msg.encoding.getD []
  if enc = [] then ENCODING_STRING_STRING else enc

/-- Nothing is made of a message without bytes. -/
def RxThread.convert (msg : MessageStruct) : Option Conversion :=
  if msg.msgBytes.getD [] = [] then none
  else some (Conversion.of (isByteHexEncoded msg.enc) msg.enc)

section Suffix
variable {α : Type*} {needle l : List α} {i : ℕ}

/-- Where a list occurs in another one. -/
theorem take_drop_eq_iff :
    (l.drop i).take needle.length = needle ↔ needle <+: l.drop i := by
  rw [List.prefix_iff_eq_take, eq_comm]

/-- A list occurs at its last possible place when it is at the end. -/
theorem suffix_iff_prefix_drop :
    needle <:+ l ↔ needle.length ≤ l.length ∧ needle <+: l.drop (l.length - needle.length) := by
  constructor
  · intro h
    exact ⟨h.length_le, (List.suffix_iff_eq_drop.mp h) ▸ List.prefix_rfl⟩
  · rintro ⟨hle, h⟩
    rw [List.suffix_iff_eq_drop]
    exact h.eq_of_length (by rw [List.length_drop]; omega)

end Suffix

section Classification
variable {encoding : Bytes} {i : ℕ}

/-- `encoding.find(hexstring)` -/
def found (encoding : Bytes) : Option ℕ :=
  (List.range encoding.length).find? fun i => (encoding.drop i).take 9 = hexstring

theorem length_hexstring : hexstring.length = 9 := by
  rw [hexstring, cstr_ofList]
  rfl

theorem isByteHexEncoded_iff :
    isByteHexEncoded encoding = true ↔ encoding ≠ [] ∧
      ((found encoding).map (BitVec.ofNat 64)).getD (-1) =
        BitVec.ofNat 64 encoding.length - 9 := by
  rw [isByteHexEncoded, decide_eq_true_iff]
  rfl

theorem match_iff (j : ℕ) :
    (encoding.drop j).take 9 = hexstring ↔ hexstring <+: encoding.drop j := by
  rw [← take_drop_eq_iff, length_hexstring]

theorem length_le_of_match {j : ℕ} (h : hexstring <+: encoding.drop j) :
    j + 9 ≤ encoding.length := by
  have hlen := h.length_le
  rw [length_hexstring, List.length_drop] at hlen
  omega

theorem found_eq_some_iff :
    found encoding = some i ↔ hexstring <+: encoding.drop i ∧
      ∀ j < i, ¬ hexstring <+: encoding.drop j := by
  rw [found, List.find?_range_eq_some]
  simp only [match_iff, decide_eq_true_eq, Bool.not_eq_true', decide_eq_false_iff_not,
    List.mem_range]
  constructor
  · rintro ⟨hmatch, -, hfirst⟩
    exact ⟨hmatch, hfirst⟩
  · rintro ⟨hmatch, hfirst⟩
    have hlen := length_le_of_match hmatch
    exact ⟨hmatch, by omega, hfirst⟩

theorem found_eq_none_iff : found encoding = none ↔ ∀ i, ¬ hexstring <+: encoding.drop i := by
  rw [found, List.find?_eq_none]
  simp only [match_iff, decide_eq_true_eq, List.mem_range]
  constructor
  · intro h i hmatch
    have hlen := length_le_of_match hmatch
    exact h i (by omega) hmatch
  · exact fun h i _ => h i

/-- The position of the search result fits, and equals the difference of the lengths only at
the end of the encoding; when nothing is found, the difference has to wrap to `npos`. -/
theorem isByteHexEncoded_iff_found (h : encoding.length < 2 ^ 64) :
    isByteHexEncoded encoding = true ↔
      encoding.length = 8 ∨ found encoding = some (encoding.length - 9) := by
  rw [isByteHexEncoded_iff]
  cases hfound : found encoding with
  | none =>
    have hwrap : (-1 : BitVec 64) = BitVec.ofNat 64 encoding.length - 9 ↔
        encoding.length = 8 := by
      rw [← BitVec.toNat_inj]
      simp
      omega
    simp only [Option.map_none, Option.getD_none, hwrap, reduceCtorEq, or_false]
    constructor
    · exact And.right
    · exact fun hlen => ⟨List.ne_nil_of_length_pos (by omega), hlen⟩
  | some i =>
    have hlen := length_le_of_match (found_eq_some_iff.mp hfound).1
    have hplace : BitVec.ofNat 64 i = BitVec.ofNat 64 encoding.length - 9 ↔
        i = encoding.length - 9 := by
      rw [← BitVec.toNat_inj]
      simp
      omega
    simp only [Option.map_some, Option.getD_some, hplace, Option.some.injEq]
    constructor
    · exact fun hi => Or.inr hi.2
    · rintro (h8 | hi)
      · omega
      · exact ⟨List.ne_nil_of_length_pos (by omega), hi⟩

/-- The encoding does not have eight bytes, and where the suffix is at its end, it is nowhere
else. -/
def Classified (encoding : Bytes) : Prop :=
  encoding.length ≠ 8 ∧ ¬ (hexstring <:+ encoding ∧ hexstring <:+: encoding.dropLast)

theorem suffix_iff_match :
    hexstring <:+ encoding ↔
      9 ≤ encoding.length ∧ hexstring <+: encoding.drop (encoding.length - 9) := by
  rw [suffix_iff_prefix_drop, length_hexstring]

/-- An occurrence that is not at the end lies in what is left without the last byte. -/
theorem infix_dropLast_iff :
    hexstring <:+: encoding.dropLast ↔
      ∃ i, i + 9 < encoding.length ∧ hexstring <+: encoding.drop i := by
  have hplace : ∀ i, hexstring <+: encoding.dropLast.drop i ↔
      i + 9 < encoding.length ∧ hexstring <+: encoding.drop i := by
    intro i
    rw [List.dropLast_eq_take, List.drop_take, List.prefix_take_iff, length_hexstring, and_comm]
    exact and_congr_left fun _ => by omega
  rw [List.infix_iff_prefix_suffix]
  constructor
  · rintro ⟨rest, hmatch, hrest⟩
    rw [List.suffix_iff_eq_drop.mp hrest] at hmatch
    exact ⟨_, (hplace _).mp hmatch⟩
  · rintro ⟨i, hi⟩
    exact ⟨_, (hplace i).mpr hi, List.drop_suffix i _⟩

/-- The first occurrence is the one at the end when there is no earlier one. -/
theorem found_last_iff :
    found encoding = some (encoding.length - 9) ↔
      hexstring <:+ encoding ∧ ¬ hexstring <:+: encoding.dropLast := by
  rw [found_eq_some_iff, suffix_iff_match, infix_dropLast_iff]
  constructor
  · rintro ⟨hmatch, hfirst⟩
    have hlen := length_le_of_match hmatch
    refine ⟨⟨by omega, hmatch⟩, ?_⟩
    rintro ⟨i, hi, hearlier⟩
    exact hfirst i (by omega) hearlier
  · rintro ⟨⟨_, hmatch⟩, hnone⟩
    exact ⟨hmatch, fun j hj hearlier => hnone ⟨j, by omega, hearlier⟩⟩

theorem isByteHexEncoded_right_iff (h : encoding.length < 2 ^ 64) :
    (isByteHexEncoded encoding = true ↔ hexstring <:+ encoding) ↔ Classified encoding := by
  rw [isByteHexEncoded_iff_found h, found_last_iff, Classified]
  by_cases h8 : encoding.length = 8
  · have hshort : ¬ hexstring <:+ encoding := by
      intro hsuffix
      have hlen := hsuffix.length_le
      rw [length_hexstring] at hlen
      omega
    simp only [h8, hshort, ne_eq, not_true_eq_false, true_or, true_iff, false_and]
  · simp only [h8, false_or, ne_eq, not_false_eq_true, true_and]
    tauto

/-- The branches for encoded bytes are none of those for text. -/
theorem Conversion.of_true_ne_false (enc : Bytes) :
    Conversion.of true enc ≠ Conversion.of false enc := by
  rw [Conversion.of, Conversion.of, if_pos rfl, if_neg Bool.false_ne_true]
  split_ifs <;> exact Conversion.noConfusion

theorem Conversion.of_injective (enc : Bytes) :
    Function.Injective fun byteHexEncoded => Conversion.of byteHexEncoded enc :=
  Bool.injective_iff.mpr (Conversion.of_true_ne_false enc).symm

/-- The branch taken for a message of bytes is the one its encoding calls for when the
predicate is right about its encoding. -/
theorem convert_iff {msg : MessageStruct} (hbytes : msg.msgBytes.getD [] ≠ [])
    (hlength : msg.enc.length < 2 ^ 64) :
    RxThread.convert msg = some (Conversion.of (decide (hexstring <:+ msg.enc)) msg.enc) ↔
      Classified msg.enc := by
  rw [RxThread.convert, if_neg hbytes, Option.some_inj,
    (Conversion.of_injective msg.enc).eq_iff, Bool.eq_iff_iff, decide_eq_true_iff,
    isByteHexEncoded_right_iff hlength]

/-- The predicate is right about an encoding, and with it the branch for each message of bytes
that has the encoding, exactly when the encoding is neither of the length of `npos` nor repeats
the suffix that it ends with. -/
theorem hexEncoding_right_iff (encoding : Bytes) (hlength : encoding.length < 2 ^ 64) :
    ((isByteHexEncoded encoding = true ↔ hexstring <:+ encoding) ↔ Classified encoding) ∧
      ∀ msg : MessageStruct, msg.msgBytes.getD [] ≠ [] → msg.enc = encoding →
        (RxThread.convert msg =
            some (Conversion.of (decide (hexstring <:+ encoding)) encoding) ↔
          Classified encoding) := by
  refine ⟨isByteHexEncoded_right_iff hlength, ?_⟩
  rintro msg hbytes rfl
  exact convert_iff hbytes hlength

end Classification

theorem hexEncoding_right_sample :
    isByteHexEncoded ENCODING_BYTEARRAY_STRING = true ∧
      ∀ source timestamp,
        RxThread.convert ⟨source, timestamp, some ENCODING_BYTEARRAY_STRING, some [0, 20]⟩ =
          some .payloadBytes := by
  have hsuffix : hexstring <:+ ENCODING_BYTEARRAY_STRING := by
    rw [hexstring, ENCODING_BYTEARRAY_STRING]
    repeat rw [cstr_ofList]
    decide +kernel
  have hclassified : Classified ENCODING_BYTEARRAY_STRING := by
    rw [Classified, ENCODING_BYTEARRAY_STRING, hexstring]
    repeat rw [cstr_ofList]
    decide +kernel
  have hshort : ENCODING_BYTEARRAY_STRING.length < 2 ^ 64 := by
    rw [ENCODING_BYTEARRAY_STRING, cstr_ofList]
    decide +kernel
  have hright := hexEncoding_right_iff ENCODING_BYTEARRAY_STRING hshort
  refine ⟨(hright.1.mpr hclassified).mpr hsuffix, fun source timestamp => ?_⟩
  have hne : ENCODING_BYTEARRAY_STRING ≠ [] := by
    rw [ENCODING_BYTEARRAY_STRING, cstr_ofList]
    decide +kernel
  have hbranch := (hright.2 ⟨source, timestamp, some ENCODING_BYTEARRAY_STRING, some [0, 20]⟩
    (by rw [Option.getD_some]; exact List.cons_ne_nil _ _)
    (by rw [MessageStruct.enc, Option.getD_some, if_neg hne])).mpr hclassified
  rw [hbranch, decide_eq_true hsuffix]
  simp [Conversion.of]

/-- Eight bytes are taken for encoded ones, since the difference of the lengths is `npos`, and
an encoding that ends with the suffix is not when it also begins with it. -/
theorem hexEncoding_wrong :
    isByteHexEncoded (cstr "asn1uper") = true ∧ ¬ hexstring <:+ cstr "asn1uper" ∧
      isByteHexEncoded (cstr "hexstringhexstring") = false ∧
        hexstring <:+ cstr "hexstringhexstring" := by
  simp only [hexstring]
  repeat rw [cstr_ofList]
  decide +kernel

end V2IHub.Utils
