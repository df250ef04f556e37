import V2IHub.Json.RoundTrip
import V2IHub.Messages.ContentsReuse

/-! The payload as a string: what is put into a message and what is read out of it. -/
namespace V2IHub.Messages
open Foundation Api Json

/-- The byte is printed as it is. -/
def Plain (b : UInt8) : Prop := 31 < b ∧ b ≠ QUOTE ∧ b ≠ BACKSLASH

theorem stripQuotes_printStringPtr (str : Bytes) : stripQuotes (printStringPtr str) = escape str := by
  simp [stripQuotes, printStringPtr]

theorem escapeByte_plain {b : UInt8} (h : Plain b) : escapeByte b = [b] := if_pos h

theorem escapeByte_length {b : UInt8} (h : ¬ Plain b) : 2 ≤ (escapeByte b).length := by
  rw [Plain] at h
  rw [escapeByte, if_neg h]
  split_ifs <;> simp

theorem Plain.ne_zero {b : UInt8} (h : Plain b) : b ≠ 0 := by
  rintro rfl
  exact absurd h.1 (by decide)

theorem length_le_length_escape {str : Bytes} (h0 : 0 ∉ str) :
    str.length ≤ (escape str).length := by
  induction str with
  | nil => simp
  | cons b str ih =>
    rw [List.mem_cons, not_or] at h0
    have hbyte : 1 ≤ (escapeByte b).length := by
      by_cases h : Plain b
      · simp [escapeByte_plain h]
      · exact le_trans (by norm_num) (escapeByte_length h)
    rw [escape, if_neg (Ne.symm h0.1), List.length_append, List.length_cons]
    have := ih h0.2
    omega

theorem escape_eq_self_iff {str : Bytes} (h0 : 0 ∉ str) :
    escape str = str ↔ ∀ b ∈ str, Plain b := by
  induction str with
  | nil => simp [escape]
  | cons b str ih =>
    rw [List.mem_cons, not_or] at h0
    rw [escape, if_neg (Ne.symm h0.1), List.forall_mem_cons, ← ih h0.2]
    by_cases h : Plain b
    · simp [escapeByte_plain h, h]
    · simp only [h, false_and, iff_false]
      intro heq
      have hlength := congrArg List.length heq
      rw [List.length_append, List.length_cons] at hlength
      have := escapeByte_length h
      have := length_le_length_escape h0.2
      omega

/-- A text is printed as it is exactly if every byte is. -/
theorem escape_cstringAt_eq_iff (str : Bytes) :
    escape (cstringAt str) = str ↔ ∀ b ∈ str, Plain b := by
  by_cases h0 : 0 ∈ str
  · constructor
    · intro heq
      rw [← heq] at h0
      exact absurd (escape_printable _ 0 h0) (by decide)
    · exact fun hall => absurd rfl (hall 0 h0).ne_zero
  · have hwhole : cstringAt str = str :=
      List.takeWhile_eq_self_iff.mpr fun b hb => decide_eq_true fun hb0 => h0 (hb0 ▸ hb)
    rw [hwhole, escape_eq_self_iff h0]

theorem Routed.getPayloadStr_string {json : Format} {r : Routed} {m : IvpMessage} {str : Bytes}
    (hm : r.ivpMsg = some m) (hpayload : m.payload = some (.string str)) :
    (r.getPayloadStr json).map Prod.fst = some (escape str) := by
  simp only [getPayloadStr, hm, hpayload, Option.map_some, CJson.print, printValue,
    stripQuotes_printStringPtr]

/-- `set_payload` puts the text into the structure. -/
theorem Routed.setPayload_eq {r : Routed} (hr : r.Valid) (hmsg : r.ivpMsg.isSome)
    (hstr : (r.attrs .encoding)._str ≠ .freed) (payload : Bytes) :
    ∃ r' m, r.setPayload payload = some r' ∧ r'.ivpMsg = some m ∧
      m.payload = some (.string (cstringAt payload)) := by
  obtain ⟨m, hm⟩ := Option.isSome_iff_exists.mp hmsg
  have hactive := hr.bound hmsg .encoding rfl
  have hwritable : (r.attrs .encoding).Writable Header.encoding.attr r.ivpMsg :=
    fun _ => ⟨m, hm, Header.read_write m rfl⟩
  have hheld : (r.attrs .encoding).held Header.encoding.attr r.ivpMsg = some m.encoding := by
    rw [Wrapped.held, hactive, hm]
    rfl
  obtain ⟨w, msg, hconstruct, -, hset⟩ := Wrapped.set_eq hwritable hheld
    (fun h => hstr h.2) r.msg (cstr "string")
  have hnew : msg = some { m with encoding := some (cstringAt (cstr "string")) } := by
    have hnot : ¬ (Header.encoding.attr.isString = true ∧ (r.attrs .encoding)._str = .freed) :=
      fun h => hstr h.2
    simp only [Wrapped.construct, if_neg hnot, hactive, hm, Option.map_some, Option.some.injEq,
      Prod.mk.injEq] at hconstruct
    exact hconstruct.2.symm
  subst hnew
  obtain ⟨r', hr', hm'⟩ : ∃ r', r.set .encoding (cstr "string") = some r' ∧
      r'.ivpMsg = some { m with encoding := some (cstringAt (cstr "string")) } := by
    simp only [Routed.set, hset, Option.map_some]
    exact ⟨_, rfl, rfl⟩
  simp only [setPayload, hr', hm', Option.bind_eq_bind, Option.bind_some]
  exact ⟨_, _, rfl, rfl, rfl⟩

theorem Routed.setPayload_eq_none {r : Routed} {payload : Bytes}
    (h : ¬ (r.ivpMsg.isSome ∧ (r.attrs .encoding)._str ≠ .freed)) (hr : r.Valid) :
    r.setPayload payload = none := by
  by_cases hstr : (r.attrs .encoding)._str = .freed
  · have hset : (r.attrs .encoding).set Header.encoding.attr r.msg r.ivpMsg (cstr "string") =
        none := Wrapped.set_eq_none ⟨rfl, hstr⟩ _ _
    simp only [setPayload, Routed.set, hset]
    rfl
  · have hmsg : r.ivpMsg = none := by
      by_contra hsome
      exact h ⟨Option.isSome_iff_ne_none.mpr hsome, hstr⟩
    obtain ⟨⟨v, hactive⟩, -⟩ := hr.loose hmsg .encoding
    have hstring : ¬ (Header.encoding.attr.isString = true ∧ (r.attrs .encoding)._str = .freed) :=
      fun h => hstr h.2
    simp only [setPayload, Routed.set, Wrapped.set, Wrapped.construct, if_neg hstring, hactive,
      hmsg]
    rfl

/-- The text of a payload comes back exactly if it holds nothing that the printed text would
escape, in an object that has its structure and no freed text of the encoding. -/
theorem payloadStr_of_setPayload_iff (json : Format) (r : RouteableMessage) (s : Bytes) :
    (∃ r', r.1.setPayload s = some r' ∧ (r'.getPayloadStr json).map Prod.fst = some s) ↔
      (r.1.ivpMsg.isSome ∧ (r.1.attrs .encoding)._str ≠ .freed) ∧ ∀ b ∈ s, Plain b := by
  by_cases h : r.1.ivpMsg.isSome ∧ (r.1.attrs .encoding)._str ≠ .freed
  · obtain ⟨r', m, hset, hm, hpayload⟩ := Routed.setPayload_eq r.2 h.1 h.2 s
    simp only [hset, Option.some.injEq, exists_eq_left',
      Routed.getPayloadStr_string hm hpayload, escape_cstringAt_eq_iff, h, ne_eq, not_false_eq_true,
      and_self, true_and]
  · simp only [Routed.setPayload_eq_none h r.2, h, reduceCtorEq, false_and, exists_false]

/-- A quotation mark in the payload of a new message. -/
theorem payloadStr_of_quote :
    ¬ ∀ (json : Format) (r : RouteableMessage) (s : Bytes), 0 ∉ s →
      ∃ r', r.1.setPayload s = some r' ∧ (r'.getPayloadStr json).map Prod.fst = some s := by
  intro hall
  obtain ⟨f, m, -, h₀⟩ := Routed.fresh_spec 0
  have hkept : (f.attrs .encoding)._str ≠ .freed := by
    rw [h₀.shared .encoding (by simp) rfl]
    decide
  have hmsg : f.ivpMsg.isSome := by rw [h₀.msg]; rfl
  obtain ⟨r', n, hset, hn, hpayload⟩ := Routed.setPayload_eq h₀.valid hmsg hkept [QUOTE]
  obtain ⟨r'', hset', hget⟩ := hall ⟨fun _ => none, fun _ => none⟩ ⟨f, h₀.valid⟩ [QUOTE] (by decide)
  obtain rfl : r' = r'' := Option.some.inj (hset.symm.trans hset')
  rw [Routed.getPayloadStr_string hn hpayload] at hget
  exact absurd hget (by decide)

end V2IHub.Messages
