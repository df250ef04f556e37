import V2IHub.Client.ConfigValue
import V2IHub.Foundation.Strtol
import V2IHub.Location.NavPvt

/-! The text of a byte stream: two hexadecimal digits a byte, and the loop of `operator>>` that reads
them again. -/
namespace V2IHub.Messages
open Foundation Location

/-- The number of the hexadecimal digits in front. -/
def leadingHex : Bytes → ℕ → ℕ
  | [], n => n
  | c :: rest, n =>
    match digitValue c with
    | some d => leadingHex rest (16 * n + d)
    | none => n

/-- `strtoul` in base 16 of the text of the buffer, which is too short for a number behind `0x`. -/
def strtoulBuf (buf : Bytes) : ℕ :=
  match buf.dropWhile isSpace with
  | 43 :: rest => leadingHex rest 0
  | 45 :: rest => (2 ^ 64 - leadingHex rest 0) % 2 ^ 64
  | text => leadingHex text 0

/-- Where the loop of `operator>>` stands: its iterator, and the bytes pushed so far. -/
structure StreamLoop where
  i : ℕ
  bytes : Bytes
  deriving DecidableEq

inductive Reading
  | done (bytes : Bytes)
  /-- The iterator is no longer in the string. -/
  | outside
  | unfinished
  deriving DecidableEq

/-- The body of the loop and the increment behind it. -/
def StreamLoop.turn (str : Bytes) (s : StreamLoop) : Option StreamLoop := do
  let c ← str[s.i]?
  let i := s.i + 1
  let d ← if i ≠ str.length then str[i]? else some 48
  some ⟨i + 1, s.bytes ++ [UInt8.ofNat (strtoulBuf [c, d])]⟩

/-- At most so many tests of the loop's condition. -/
def StreamLoop.read (str : Bytes) : ℕ → StreamLoop → Reading
  | 0, _ => .unfinished
  | fuel + 1, s =>
    if s.i ≠ str.length then
      match s.turn str with
      | some s' => StreamLoop.read str fuel s'
      | none => .outside
    else .done s.bytes

/-- `byte_stream_decode`, with enough turns to come to the end or to pass over it. -/
def decodeStream (str : Bytes) : Reading := StreamLoop.read str (str.length + 2) ⟨0, []⟩

section Loop
variable {str : Bytes}

/-- A turn with two characters left takes both. -/
theorem StreamLoop.turn_eq {pre rest : Bytes} {c d : UInt8} {bytes : Bytes}
    (hstr : str = pre ++ c :: d :: rest) :
    StreamLoop.turn str ⟨pre.length, bytes⟩ =
      some ⟨(pre ++ [c, d]).length, bytes ++ [UInt8.ofNat (strtoulBuf [c, d])]⟩ := by
  subst hstr
  simp [StreamLoop.turn]

/-- The last character is taken alone, and the iterator passes over the end. -/
theorem StreamLoop.turn_last {pre : Bytes} {c : UInt8} {bytes : Bytes} (hstr : str = pre ++ [c]) :
    StreamLoop.turn str ⟨pre.length, bytes⟩ =
      some ⟨str.length + 1, bytes ++ [UInt8.ofNat (strtoulBuf [c, 48])]⟩ := by
  subst hstr
  simp [StreamLoop.turn]

end Loop

/-- The bytes of the pairs of characters. -/
def pairBytes : Bytes → Bytes
  | c :: d :: text => UInt8.ofNat (strtoulBuf [c, d]) :: pairBytes text
  | _ => []

theorem pairBytes_length (text : Bytes) : (pairBytes text).length = text.length / 2 := by
  fun_induction pairBytes text with
  | case1 c d text ih =>
    simp only [List.length_cons, ih]
    omega
  | case2 text h =>
    rcases text with _ | ⟨c, _ | ⟨d, text⟩⟩
    · rfl
    · simp
    · exact absurd rfl (h c d text)

/-- From a position in the string, the loop reads what is left, if that is a whole number of
pairs. -/
theorem StreamLoop.read_even (str pre rest : Bytes) (bytes : Bytes) (hstr : str = pre ++ rest)
    (heven : rest.length % 2 = 0) {fuel : ℕ} (hfuel : rest.length / 2 < fuel) :
    StreamLoop.read str fuel ⟨pre.length, bytes⟩ = .done (bytes ++ pairBytes rest) := by
  fun_induction pairBytes rest generalizing pre bytes fuel with
  | case1 c d rest ih =>
    obtain ⟨fuel, rfl⟩ := Nat.exists_eq_succ_of_ne_zero (show fuel ≠ 0 by omega)
    simp only [List.length_cons] at heven hfuel
    rw [StreamLoop.read, if_pos (by simp [hstr]), StreamLoop.turn_eq hstr]
    simp only
    rw [ih (pre ++ [c, d]) (bytes ++ [UInt8.ofNat (strtoulBuf [c, d])]) (by simp [hstr]) (by omega)
      (by omega)]
    simp
  | case2 rest h =>
    match rest with
    | [] =>
      obtain ⟨fuel, rfl⟩ := Nat.exists_eq_succ_of_ne_zero (show fuel ≠ 0 by omega)
      rw [StreamLoop.read, if_neg (by simp [hstr])]
      simp
    | [_] => simp at heven
    | c :: d :: text => exact absurd rfl (h c d text)

/-- With an odd number of characters left, the loop reads outside of the string. -/
theorem StreamLoop.read_odd (str pre rest : Bytes) (bytes : Bytes) (hstr : str = pre ++ rest)
    (hodd : rest.length % 2 = 1) {fuel : ℕ} (hfuel : rest.length / 2 + 1 < fuel) :
    StreamLoop.read str fuel ⟨pre.length, bytes⟩ = .outside := by
  fun_induction pairBytes rest generalizing pre bytes fuel with
  | case1 c d rest ih =>
    obtain ⟨fuel, rfl⟩ := Nat.exists_eq_succ_of_ne_zero (show fuel ≠ 0 by omega)
    simp only [List.length_cons] at hodd hfuel
    rw [StreamLoop.read, if_pos (by simp [hstr]), StreamLoop.turn_eq hstr]
    exact ih (pre ++ [c, d]) _ (by simp [hstr]) (by omega) (by omega)
  | case2 rest h =>
    match rest with
    | [] => simp at hodd
    | [c] =>
      obtain ⟨fuel, rfl⟩ : ∃ fuel', fuel = fuel' + 2 := ⟨fuel - 2, by omega⟩
      rw [StreamLoop.read, if_pos (by simp [hstr]), StreamLoop.turn_last hstr]
      simp [StreamLoop.read, StreamLoop.turn]
    | c :: d :: text => exact absurd rfl (h c d text)

theorem decodeStream_even {str : Bytes} (heven : str.length % 2 = 0) :
    decodeStream str = .done (pairBytes str) :=
  StreamLoop.read_even str [] str [] rfl heven (by omega)

theorem decodeStream_odd {str : Bytes} (hodd : str.length % 2 = 1) :
    decodeStream str = .outside :=
  StreamLoop.read_odd str [] str [] rfl hodd (by omega)

/-- The operator yields the bytes of the whole text, exactly if the characters come in pairs. -/
theorem decodeStream_isDone_iff (str : Bytes) :
    (∃ bytes, decodeStream str = .done bytes ∧ bytes.length = (str.length + 1) / 2 ∧
      (str.length % 2 = 1 →
        bytes.getLast? = str.getLast?.map fun c => UInt8.ofNat (strtoulBuf [c, 48]))) ↔
      str.length % 2 = 0 := by
  constructor
  · rintro ⟨bytes, hdone, -, -⟩
    by_contra hodd
    rw [decodeStream_odd (by omega)] at hdone
    cases hdone
  · intro heven
    refine ⟨pairBytes str, decodeStream_even heven, ?_, by omega⟩
    rw [pairBytes_length]
    omega

/-- Of three characters, the loop goes on behind the last one. -/
theorem decodeStream_three :
    decodeStream (cstr "b56") = .outside ∧
      ¬ ∀ str : Bytes, ∃ bytes, decodeStream str = .done bytes ∧
        bytes.length = (str.length + 1) / 2 ∧ (str.length % 2 = 1 →
          bytes.getLast? = str.getLast?.map fun c => UInt8.ofNat (strtoulBuf [c, 48])) := by
  have hout : decodeStream (cstr "b56") = .outside := decodeStream_odd (by decide)
  refine ⟨hout, fun hall => ?_⟩
  obtain ⟨bytes, hdone, -⟩ := hall (cstr "b56")
  rw [hout] at hdone
  cases hdone

section Pairs

theorem digitValue_hexDigit {n : ℕ} (h : n < 16) : digitValue (hexDigit n) = some n := by
  have hall : ∀ n < 16, digitValue (hexDigit n) = some n := by decide
  exact hall n h

/-- What a digit stands for is written again as the digit in lower case. -/
theorem digitValue_spec {c : UInt8} {n : ℕ} (h : digitValue c = some n) :
    n < 16 ∧ hexDigit n = Client.toLower c ∧ 48 ≤ c.toNat := by
  simp only [digitValue, UInt8.le_iff_toNat_le, UInt8.reduceToNat] at h
  split_ifs at h with hdecimal hupper hlower
  all_goals
    obtain rfl := Option.some_inj.mp h
    refine ⟨by omega, ?_, by omega⟩
    simp only [hexDigit, Client.toLower, UInt8.le_iff_toNat_le, UInt8.reduceToNat]
  · rw [if_pos (by omega), if_neg (by omega), Nat.add_sub_cancel' hdecimal.1, UInt8.ofNat_toNat]
  · rw [if_neg (by omega), if_pos (by omega), show 87 + (c.toNat - 55) = c.toNat + 32 by omega,
      UInt8.ofNat_add, UInt8.ofNat_toNat]
    rfl
  · rw [if_neg (by omega), if_neg (by omega), show 87 + (c.toNat - 87) = c.toNat by omega,
      UInt8.ofNat_toNat]

/-- A text that begins with a character above the signs is read as it is. -/
theorem strtoulBuf_cons {c : UInt8} (hc : 48 ≤ c.toNat) (rest : Bytes) :
    strtoulBuf (c :: rest) = leadingHex (c :: rest) 0 := by
  have hspace : ¬ isSpace c = true := by
    simp only [isSpace, Bool.or_eq_true, Bool.and_eq_true, decide_eq_true_eq,
      UInt8.le_iff_toNat_le, ← UInt8.toNat_inj, UInt8.reduceToNat]
    omega
  rw [strtoulBuf, List.dropWhile_cons_of_neg hspace]
  split
  · simp_all
  · simp_all
  · rfl

theorem strtoulBuf_digits {c d : UInt8} {m n : ℕ} (hm : digitValue c = some m)
    (hn : digitValue d = some n) : strtoulBuf [c, d] = 16 * m + n := by
  rw [strtoulBuf_cons (digitValue_spec hm).2.2]
  simp [leadingHex, hm, hn]

theorem pairBytes_byteStreamEncode (b : Bytes) : pairBytes (byteStreamEncode b) = b := by
  induction b with
  | nil => rfl
  | cons byte b ih =>
    have hlt := byte.toNat_lt
    have hpair := strtoulBuf_digits (digitValue_hexDigit (show byte.toNat / 16 < 16 by omega))
      (digitValue_hexDigit (show byte.toNat % 16 < 16 by omega))
    rw [byteStreamEncode, List.flatMap_cons, List.cons_append, List.cons_append, List.nil_append,
      pairBytes, hpair, Nat.div_add_mod, UInt8.ofNat_toNat]
    exact congrArg _ ih

theorem byteStreamEncode_pairBytes (s : Bytes) (heven : s.length % 2 = 0)
    (hhex : ∀ c ∈ s, (digitValue c).isSome) :
    byteStreamEncode (pairBytes s) = s.map Client.toLower := by
  fun_induction pairBytes s with
  | case1 c d text ih =>
    simp only [List.length_cons] at heven
    obtain ⟨m, hm⟩ := Option.isSome_iff_exists.mp (hhex c (by simp))
    obtain ⟨n, hn⟩ := Option.isSome_iff_exists.mp (hhex d (by simp))
    obtain ⟨hm16, hmc, -⟩ := digitValue_spec hm
    obtain ⟨hn16, hnd, -⟩ := digitValue_spec hn
    have hbyte : (UInt8.ofNat (16 * m + n)).toNat = 16 * m + n :=
      UInt8.toNat_ofNat_of_lt (by simp only [UInt8.size]; omega)
    have hhigh : (16 * m + n) / 16 = m := by omega
    have hlow : (16 * m + n) % 16 = n := by omega
    have hrest := ih (by omega) fun c hc => hhex c (by simp [hc])
    rw [strtoulBuf_digits hm hn, byteStreamEncode, List.flatMap_cons, hbyte, hhigh, hlow, hmc, hnd]
    simp only [byteStreamEncode] at hrest
    simp [hrest]
  | case2 text h =>
    rcases text with _ | ⟨c, _ | ⟨d, text⟩⟩
    · rfl
    · simp at heven
    · exact absurd rfl (h c d text)

/-- Bytes come back from their text, and the text from the bytes, but for the case of its digits. -/
theorem byteStream_roundTrip :
    (∀ b : Bytes, decodeStream (byteStreamEncode b) = .done b) ∧
      ∀ s : Bytes, s.length % 2 = 0 → (∀ c ∈ s, (digitValue c).isSome) →
        ∃ b, decodeStream s = .done b ∧ byteStreamEncode b = s.map Client.toLower := by
  constructor
  · intro b
    rw [decodeStream_even (by rw [byteStreamEncode_length]; omega), pairBytes_byteStreamEncode]
  · intro s heven hhex
    exact ⟨pairBytes s, decodeStream_even heven, byteStreamEncode_pairBytes s heven hhex⟩

/-- For letters and digits, the bytes are the ones that the plugins take from such texts. -/
theorem byteStreamDecode_eq {s : Bytes} (heven : s.length % 2 = 0)
    (halnum : ∀ c ∈ s, isAlnum c = true) : byteStreamDecode s = pairBytes s := by
  fun_induction pairBytes s with
  | case1 c d text ih =>
    simp only [List.length_cons] at heven
    have hc : 48 ≤ c.toNat := by
      have := halnum c (by simp)
      simp only [isAlnum, Bool.or_eq_true, Bool.and_eq_true, decide_eq_true_eq,
        UInt8.le_iff_toNat_le, UInt8.reduceToNat] at this
      omega
    have hpair : strtoulBuf [c, d] = strtoul c d := by
      rw [strtoulBuf_cons hc, strtoul]
      cases hm : digitValue c <;> cases hn : digitValue d <;> simp [leadingHex, hm, hn, mul_comm]
    rw [byteStreamDecode, hpair, ih (by omega) fun c hc => halnum c (by simp [hc])]
  | case2 text h =>
    rcases text with _ | ⟨c, _ | ⟨d, text⟩⟩
    · rfl
    · simp at heven
    · exact absurd rfl (h c d text)

end Pairs

end V2IHub.Messages
