import V2IHub.Foundation.DecimalText

/-! A strict reader of JSON texts, byte by byte: the grammar of RFC 8259, with the members of an
object in their order. Bytes from 0x80 on stand for themselves. -/
namespace V2IHub.Foundation.JsonText
open DecimalText

inductive Value where
  | null
  | bool (b : Bool)
  | number (text : Bytes)
  | string (s : Bytes)
  | array (items : List Value)
  | object (members : List (Bytes × Value))

namespace Value

mutual

/-- No object has two members of one name, so that every reader finds the same ones. -/
def Unambiguous : Value → Prop
  | array items => UnambiguousItems items
  | object members => (members.map Prod.fst).Nodup ∧ UnambiguousMembers members
  | _ => True

def UnambiguousItems : List Value → Prop
  | [] => True
  | item :: items => Unambiguous item ∧ UnambiguousItems items

def UnambiguousMembers : List (Bytes × Value) → Prop
  | [] => True
  | (_, value) :: members => Unambiguous value ∧ UnambiguousMembers members

end

theorem unambiguousMembers_iff {members : List (Bytes × Value)} :
    UnambiguousMembers members ↔ ∀ m ∈ members, m.2.Unambiguous := by
  induction members with
  | nil => simp [UnambiguousMembers]
  | cons m members ih => simp [UnambiguousMembers, ih]

end Value

/-- Returns what was read and the rest of the text. -/
abbrev Reader (α : Type) := Bytes → Option (α × Bytes)

def blank (b : UInt8) : Bool := b = 32 || b = 9 || b = 10 || b = 13

def skip (text : Bytes) : Bytes := text.dropWhile blank

/-- Past this byte, which is next but for blanks. -/
def expect (b : UInt8) (text : Bytes) : Option Bytes :=
  match skip text with
  | [] => none
  | c :: rest => if c = b then some rest else none

section Strings

def hexValue (b : UInt8) : Option ℕ :=
  if 48 ≤ b ∧ b ≤ 57 then some (b.toNat - 48)
  else if 65 ≤ b ∧ b ≤ 70 then some (b.toNat - 55)
  else if 97 ≤ b ∧ b ≤ 102 then some (b.toNat - 87)
  else none

def readHex : ℕ → ℕ → Reader ℕ
  | 0, n, text => some (n, text)
  | _ + 1, _, [] => none
  | count + 1, n, b :: text =>
    match hexValue b with
    | none => none
    | some digit => readHex count (16 * n + digit) text

def utf8 (code : ℕ) : Bytes := String.utf8EncodeChar (Char.ofNat code)

/-- The second half of a surrogate pair. -/
def readLow (high : ℕ) : Reader Bytes
  | 92 :: 117 :: text =>
    match readHex 4 0 text with
    | none => none
    | some (low, text) =>
      if 0xDC00 ≤ low ∧ low < 0xE000 then
        some (utf8 (0x10000 + (high - 0xD800) * 0x400 + (low - 0xDC00)), text)
      else none
  | _ => none

/-- What follows `\u`. -/
def readUnicode : Reader Bytes := fun text =>
  match readHex 4 0 text with
  | none => none
  | some (code, text) =>
    if 0xD800 ≤ code ∧ code < 0xDC00 then readLow code text
    else if 0xDC00 ≤ code ∧ code < 0xE000 then none
    else some (utf8 code, text)

/-- The escapes of one letter. -/
def escapeLetter (b : UInt8) : Option UInt8 :=
  if b = 34 ∨ b = 92 ∨ b = 47 then some b
  else if b = 98 then some 8
  else if b = 102 then some 12
  else if b = 110 then some 10
  else if b = 114 then some 13
  else if b = 116 then some 9
  else none

/-- What follows a backslash. -/
def readEscape : Reader Bytes
  | [] => none
  | b :: text =>
    if b = 117 then readUnicode text else (escapeLetter b).map fun c => ([c], text)

/-- The characters of a string up to its closing quote. -/
def readChars : ℕ → Reader Bytes
  | 0, _ => none
  | _ + 1, [] => none
  | fuel + 1, b :: text =>
    if b = 34 then some ([], text)
    else if b = 92 then
      match readEscape text with
      | none => none
      | some (bytes, text) => (readChars fuel text).map fun r => (bytes ++ r.1, r.2)
    else if b < 32 then none
    else (readChars fuel text).map fun r => (b :: r.1, r.2)

/-- Past the opening quote. -/
def readString : Reader Bytes := fun text => readChars text.length text

end Strings

section Numbers

/-- At least one digit. -/
def readDigits : Reader Bytes := fun text =>
  let digits := text.takeWhile isDigit
  if digits = [] then none else some (digits, text.dropWhile isDigit)

/-- No digit follows a leading zero. -/
def readWhole : Reader Bytes := fun text =>
  match readDigits text with
  | some (48 :: _ :: _, _) => none
  | r => r

def readFraction : Reader Bytes := fun text =>
  match text with
  | 46 :: text => (readDigits text).map fun r => (46 :: r.1, r.2)
  | text => some ([], text)

def readSign (signs : Bytes) : Reader Bytes
  | [] => some ([], [])
  | b :: text => if b ∈ signs then some ([b], text) else some ([], b :: text)

def readExponent : Reader Bytes
  | [] => some ([], [])
  | b :: text =>
    if b = LOWER_E ∨ b = UPPER_E then do
      let (sign, text) ← readSign [PLUS, MINUS] text
      let (digits, text) ← readDigits text
      some (b :: sign ++ digits, text)
    else some ([], b :: text)

def readNumber : Reader Bytes := fun text => do
  let (sign, text) ← readSign [MINUS] text
  let (whole, text) ← readWhole text
  let (fraction, text) ← readFraction text
  let (exponent, text) ← readExponent text
  some (sign ++ whole ++ fraction ++ exponent, text)

end Numbers

section Values
variable {α : Type}

def readWord (word : Bytes) (value : Value) : Reader Value := fun text =>
  if word.isPrefixOf text then some (value, text.drop word.length) else none

/-- Elements between commas, up to the closing bracket. -/
def readSequence (element : Reader α) (closing : UInt8) : ℕ → Reader (List α)
  | 0, _ => none
  | fuel + 1, text =>
    match element text with
    | none => none
    | some (a, text) =>
      match skip text with
      | [] => none
      | b :: text =>
        if b = closing then some ([a], text)
        else if b = 44 then
          (readSequence element closing fuel text).map fun r => (a :: r.1, r.2)
        else none

/-- Past the opening bracket. -/
def readList (element : Reader α) (closing : UInt8) (fuel : ℕ) : Reader (List α) := fun text =>
  match skip text with
  | [] => none
  | b :: rest =>
    if b = closing then some ([], rest) else readSequence element closing fuel (b :: rest)

def readMember (value : Reader α) : Reader (Bytes × α) := fun text => do
  let (name, text) ← (expect 34 text).bind readString
  let (a, text) ← (expect 58 text).bind value
  some ((name, a), text)

def readValue : ℕ → Reader Value
  | 0, _ => none
  | fuel + 1, text =>
    match skip text with
    | [] => none
    | b :: text =>
      if b = 34 then (readString text).map fun r => (.string r.1, r.2)
      else if b = 123 then
        (readList (readMember (readValue fuel)) 125 fuel text).map fun r => (.object r.1, r.2)
      else if b = 91 then
        (readList (readValue fuel) 93 fuel text).map fun r => (.array r.1, r.2)
      else if b = 116 then readWord (cstr "true") (.bool true) (b :: text)
      else if b = 102 then readWord (cstr "false") (.bool false) (b :: text)
      else if b = 110 then readWord (cstr "null") .null (b :: text)
      else (readNumber (b :: text)).map fun r => (.number r.1, r.2)

/-- Nothing but blanks follows the value. -/
def read (text : Bytes) : Option Value :=
  match readValue (text.length + 1) text with
  | none => none
  | some (value, rest) => if skip rest = [] then some value else none

end Values

section Rules
variable {s u t d r : Bytes} {fuel : ℕ}

/-- The bytes that a JSON string holds as themselves. -/
def PlainByte (b : UInt8) : Prop := 32 ≤ b ∧ b ≠ 34 ∧ b ≠ 92

instance : DecidablePred PlainByte := fun _ => instDecidableAnd

def Plain (s : Bytes) : Prop := ∀ b ∈ s, PlainByte b

instance (s : Bytes) : Decidable (Plain s) := List.decidableBAll _ _

theorem skip_cons {b : UInt8} (h : blank b = false) (text : Bytes) : skip (b :: text) = b :: text := by
  simp [skip, h]

theorem skip_blank {b : UInt8} (h : blank b = true) (text : Bytes) : skip (b :: text) = skip text := by
  simp [skip, h]

theorem expect_cons {b : UInt8} (h : blank b = false) (text : Bytes) :
    expect b (b :: text) = some text := by
  simp [expect, skip_cons h]

theorem readMember_iff {α : Type} {value : Reader α} {name : Bytes} {a : α} :
    readMember value (34 :: t) = some ((name, a), r) ↔
      ∃ t', readString t = some (name, t') ∧ (expect 58 t').bind value = some (a, r) := by
  rw [readMember, expect_cons (by decide), Option.bind_some]
  cases hread : readString t with
  | none => simp
  | some p =>
    obtain ⟨name', t'⟩ := p
    cases hvalue : (expect 58 t').bind value with
    | none => simp [hvalue]
    | some q => aesop

theorem readChars_quote : readChars (fuel + 1) (34 :: t) = some ([], t) := by
  simp [readChars]

theorem readChars_plain {b : UInt8} (h : PlainByte b) :
    readChars (fuel + 1) (b :: t) = (readChars fuel t).map fun r => (b :: r.1, r.2) := by
  have hlow : ¬ b < 32 := UInt8.not_lt.mpr h.1
  rw [readChars, if_neg h.2.1, if_neg h.2.2, if_neg hlow]

theorem readChars_escapedQuote :
    readChars (fuel + 1) (92 :: 34 :: t) = (readChars fuel t).map fun r => (34 :: r.1, r.2) := by
  simp [readChars, readEscape, escapeLetter]

theorem readHex_drops {count n code : ℕ} (hu : 34 ∉ u)
    (h : readHex count n (u ++ 34 :: t) = some (code, r)) :
    ∃ v, r = v ++ 34 :: t ∧ 34 ∉ v ∧ v.length + count = u.length := by
  induction count generalizing n u with
  | zero =>
    simp only [readHex, Option.some.injEq, Prod.mk.injEq] at h
    exact ⟨u, h.2.symm, hu, rfl⟩
  | succ count ih =>
    cases u with
    | nil =>
      have hquote : hexValue 34 = none := by decide
      simp [readHex, hquote] at h
    | cons b u =>
      rw [List.cons_append, readHex] at h
      cases hb : hexValue b with
      | none => simp [hb] at h
      | some digit =>
        obtain ⟨v, hr, hv, hlen⟩ := ih (fun hc => hu (List.mem_cons_of_mem _ hc)) (by simpa [hb] using h)
        exact ⟨v, hr, hv, by simp only [List.length_cons]; omega⟩

theorem length_utf8_le (code : ℕ) : (utf8 code).length ≤ 4 := by
  rw [utf8, String.length_utf8EncodeChar]
  exact Char.utf8Size_le_four _

theorem readLow_drops {high : ℕ} {bytes : Bytes} (hu : 34 ∉ u)
    (h : readLow high (u ++ 34 :: t) = some (bytes, r)) :
    ∃ v, r = v ++ 34 :: t ∧ 34 ∉ v ∧ bytes.length + v.length ≤ u.length := by
  unfold readLow at h
  split at h
  case h_2 => simp at h
  case h_1 text htext =>
    obtain ⟨w, rfl, hw⟩ : ∃ w, u = 92 :: 117 :: w ∧ text = w ++ 34 :: t := by
      rcases u with _ | ⟨a, _ | ⟨b, w⟩⟩
      · simp at htext
      · simp at htext
      · simp only [List.cons_append, List.cons.injEq] at htext
        exact ⟨w, by rw [htext.1, htext.2.1], htext.2.2.symm⟩
    have hquote : 34 ∉ w := fun hc => hu (by simp [hc])
    cases hread : readHex 4 0 text with
    | none => simp [hread] at h
    | some p =>
      obtain ⟨low, rest⟩ := p
      obtain ⟨v, hrest, hv, hlen⟩ := readHex_drops hquote (hw ▸ hread)
      simp only [hread] at h
      split_ifs at h
      simp only [Option.some.injEq, Prod.mk.injEq] at h
      have hbytes := length_utf8_le (0x10000 + (high - 0xD800) * 0x400 + (low - 0xDC00))
      refine ⟨v, h.2.symm.trans hrest, hv, ?_⟩
      rw [← h.1]
      simp only [List.length_cons]
      omega

theorem readUnicode_drops {bytes : Bytes} (hu : 34 ∉ u)
    (h : readUnicode (u ++ 34 :: t) = some (bytes, r)) :
    ∃ v, r = v ++ 34 :: t ∧ 34 ∉ v ∧ bytes.length + v.length ≤ u.length := by
  rw [readUnicode] at h
  cases hread : readHex 4 0 (u ++ 34 :: t) with
  | none => simp [hread] at h
  | some p =>
    obtain ⟨code, rest⟩ := p
    obtain ⟨v, rfl, hv, hlen⟩ := readHex_drops hu hread
    simp only [hread] at h
    split_ifs at h
    · obtain ⟨w, hr, hw, hle⟩ := readLow_drops hv h
      exact ⟨w, hr, hw, by omega⟩
    · simp only [Option.some.injEq, Prod.mk.injEq] at h
      have hbytes := length_utf8_le code
      exact ⟨v, h.2.symm, hv, by rw [← h.1]; omega⟩

/-- An escape takes at least as many bytes as it stands for, and passes over a quote only by
escaping it. -/
theorem readEscape_drops {bytes : Bytes} (hu : 34 ∉ u)
    (h : readEscape (u ++ 34 :: t) = some (bytes, r)) :
    (u = [] ∧ bytes = [34] ∧ r = t) ∨
      ∃ v, r = v ++ 34 :: t ∧ 34 ∉ v ∧ bytes.length + v.length ≤ u.length := by
  cases u with
  | nil =>
    simp only [List.nil_append, readEscape, escapeLetter] at h
    simp at h
    exact Or.inl ⟨rfl, h.1.symm, h.2.symm⟩
  | cons b u =>
    have hquote : 34 ∉ u := fun hc => hu (List.mem_cons_of_mem _ hc)
    rw [List.cons_append, readEscape] at h
    split_ifs at h with hb
    · obtain ⟨v, hr, hv, hlen⟩ := readUnicode_drops hquote h
      exact Or.inr ⟨v, hr, hv, by rw [List.length_cons]; omega⟩
    · obtain ⟨c, -, hc⟩ := Option.map_eq_some_iff.mp h
      simp only [Prod.mk.injEq] at hc
      exact Or.inr ⟨u, hc.2.symm, hquote, by rw [← hc.1, List.length_cons]; simp; omega⟩

/-- At the first quote of a text, the string that is being read either ends, and is shorter than
the text up to there unless that is plain, or has this quote as a character. -/
theorem readChars_firstQuote (hu : 34 ∉ u) (h : readChars fuel (u ++ 34 :: t) = some (d, r)) :
    (d.length ≤ u.length ∧ (d.length = u.length → Plain u)) ∨
      ∃ k, d[k]? = some 34 ∧ k < u.length ∧ (k + 1 = u.length → Plain u.dropLast) := by
  induction fuel generalizing u d with
  | zero => simp [readChars] at h
  | succ fuel ih =>
    cases u with
    | nil =>
      rw [List.nil_append, readChars_quote] at h
      simp only [Option.some.injEq, Prod.mk.injEq] at h
      exact Or.inl ⟨by simp [← h.1], fun _ => List.forall_mem_nil _⟩
    | cons b u =>
      have hb : b ≠ 34 := fun hc => hu (by simp [hc])
      have hquote : 34 ∉ u := fun hc => hu (List.mem_cons_of_mem _ hc)
      rw [List.cons_append, readChars, if_neg hb] at h
      split_ifs at h with hback hlow
      · -- an escape
        cases hread : readEscape (u ++ 34 :: t) with
        | none => simp [hread] at h
        | some p =>
          obtain ⟨bytes, rest⟩ := p
          simp only [hread] at h
          obtain ⟨⟨chars, last⟩, hp, hd⟩ := Option.map_eq_some_iff.mp h
          simp only [Prod.mk.injEq] at hd
          rw [hd.2] at hp
          rcases readEscape_drops hquote hread with ⟨rfl, rfl, -⟩ | ⟨v, rfl, hv, hlen⟩
          · refine Or.inr ⟨0, by simp [← hd.1], by simp, fun _ => ?_⟩
            exact List.forall_mem_nil _
          · rcases ih hv hp with ⟨hle, -⟩ | ⟨k, hk, hklt, -⟩
            · have hshort : d.length < (b :: u).length := by
                rw [← hd.1, List.length_append, List.length_cons]
                omega
              exact Or.inl ⟨hshort.le, fun hc => absurd hc hshort.ne⟩
            · refine Or.inr ⟨bytes.length + k, ?_, ?_, fun hc => ?_⟩
              · rw [← hd.1, List.getElem?_append_right (Nat.le_add_right _ _), Nat.add_sub_cancel_left]
                exact hk
              · rw [List.length_cons]
                omega
              · rw [List.length_cons] at hc
                omega
      · -- a character of its own
        have hplain : PlainByte b := ⟨UInt8.not_lt.mp hlow, hb, hback⟩
        obtain ⟨⟨chars, last⟩, hp, hd⟩ := Option.map_eq_some_iff.mp h
        simp only [Prod.mk.injEq] at hd
        rw [hd.2] at hp
        rcases ih hquote hp with ⟨hle, heq⟩ | ⟨k, hk, hklt, heq⟩
        · refine Or.inl ⟨by simpa [← hd.1] using hle, fun hlen => ?_⟩
          have hrest : Plain u := heq (by simpa [← hd.1] using hlen)
          exact List.forall_mem_cons.mpr ⟨hplain, hrest⟩
        · refine Or.inr ⟨k + 1, by simpa [← hd.1] using hk, by simpa using hklt, fun hlen => ?_⟩
          have hne : u ≠ [] := List.ne_nil_of_length_pos (by omega)
          rw [List.dropLast_cons_of_ne_nil hne]
          exact List.forall_mem_cons.mpr ⟨hplain, heq (by simpa using hlen)⟩

end Rules
end V2IHub.Foundation.JsonText
