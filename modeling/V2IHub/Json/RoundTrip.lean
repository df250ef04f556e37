import Mathlib.Data.List.TakeWhile
import V2IHub.Json.NumberText

/-! Parsing what was printed: the tree comes back up to the text of its numbers, and the
text holds no control character that the framing of messages relies on. -/
namespace V2IHub.Json
open Foundation DecimalText

namespace CJson

mutual

/-- The tree that the printed text describes: strings end at their terminator, and a
number is what its digits say. -/
def reparsed : CJson → CJson
  | null => null
  | bool b => bool b
  | number valueint valuedouble => (parseNumber (printNumber valueint valuedouble)).1
  | string valuestring => string (cstringAt valuestring)
  | array items => array (reparsedItems items)
  | object members => object (reparsedMembers members)

def reparsedItems : List CJson → List CJson
  | [] => []
  | item :: items => reparsed item :: reparsedItems items

def reparsedMembers : List (Bytes × CJson) → List (Bytes × CJson)
  | [] => []
  | (name, item) :: members => (cstringAt name, reparsed item) :: reparsedMembers members

end

mutual

/-- The recursion depth the parser needs for the printed tree. -/
def depthNeeded : CJson → ℕ
  | array (item :: items) => 2 + depthNeeded item + depthNeededItems items
  | object ((_, item) :: members) => 3 + depthNeeded item + depthNeededMembers members
  | _ => 2

def depthNeededItems : List CJson → ℕ
  | [] => 1
  | item :: items => 1 + depthNeeded item + depthNeededItems items

def depthNeededMembers : List (Bytes × CJson) → ℕ
  | [] => 1
  | (_, item) :: members => 2 + depthNeeded item + depthNeededMembers members

end

end CJson

section Strings

theorem parseHex4_hexDigit {b : UInt8} (h : b < 32) :
    parseHex4 48 48 (hexDigit (b / 16)) (hexDigit (b % 16)) = b.toNat := by
  have hall : ∀ n < 32, parseHex4 48 48 (hexDigit (UInt8.ofNat n / 16))
      (hexDigit (UInt8.ofNat n % 16)) = n := by decide
  have hb := hall b.toNat (by simpa [UInt8.lt_iff_toNat_lt] using h)
  simpa using hb

theorem unescape_quote (text : Bytes) : unescape (QUOTE :: text) = ([], text) := by
  unfold unescape
  simp

theorem unescape_plain {b : UInt8} (hq : b ≠ QUOTE) (hb : b ≠ BACKSLASH) (text : Bytes) :
    unescape (b :: text) = (b :: (unescape text).1, (unescape text).2) := by
  conv_lhs => unfold unescape
  simp [hq, hb]

theorem unescape_letter {e : UInt8} (he : e ≠ 117) (text : Bytes) :
    unescape (BACKSLASH :: e :: text) =
      (unescapeByte e :: (unescape text).1, (unescape text).2) := by
  conv_lhs => unfold unescape
  simp [he, BACKSLASH, QUOTE]

theorem unescape_control {b : UInt8} (h0 : b ≠ 0) (h : b < 32) (text : Bytes) :
    unescape (BACKSLASH :: 117 :: 48 :: 48 :: hexDigit (b / 16) :: hexDigit (b % 16) :: text) =
      (b :: (unescape text).1, (unescape text).2) := by
  have hn : b.toNat < 32 := by simpa [UInt8.lt_iff_toNat_lt] using h
  have hz : b.toNat ≠ 0 := fun hc => h0 (UInt8.toNat_inj.mp hc)
  have hutf : utf8Bytes b.toNat = [b] := by
    rw [utf8Bytes, if_pos (by omega), UInt8.ofNat_toNat]
  conv_lhs => unfold unescape
  simp only [parseHex4_hexDigit h]
  rw [if_neg (by decide), if_neg (by decide), if_neg (by decide), if_neg (by omega),
    if_neg (by omega), hutf]
  rfl

theorem unescape_escapeByte {b : UInt8} (h0 : b ≠ 0) (text : Bytes) :
    unescape (escapeByte b ++ text) = (b :: (unescape text).1, (unescape text).2) := by
  unfold escapeByte
  split_ifs with hplain h₁ h₂ h₃ h₄ h₅ h₆ h₇
  · exact unescape_plain hplain.2.1 hplain.2.2 text
  all_goals try (subst b; exact unescape_letter (by decide) text)
  have hlow : b < 32 := by
    have hle : ¬ 31 < b := fun hc => hplain ⟨hc, h₂, h₁⟩
    rw [UInt8.lt_iff_toNat_lt] at hle ⊢
    simp at hle ⊢
    omega
  exact unescape_control h0 hlow text

theorem unescape_escape (str rest : Bytes) :
    unescape (escape str ++ QUOTE :: rest) = (cstringAt str, rest) := by
  induction str with
  | nil => simp [escape, unescape_quote, cstringAt]
  | cons b str ih =>
    by_cases h0 : b = 0
    · simp [escape, unescape_quote, cstringAt, h0]
    · have hhead : cstringAt (b :: str) = b :: cstringAt str := by simp [cstringAt, h0]
      rw [escape, if_neg h0, List.append_assoc, unescape_escapeByte h0, ih, hhead]

theorem parseString_printStringPtr (str rest : Bytes) :
    parseString (printStringPtr str ++ rest) = some (cstringAt str, rest) := by
  have h := unescape_escape str rest
  simpa [printStringPtr, parseString] using h

end Strings

section Blanks

theorem skip_cons {b : UInt8} (h : 32 < b) (text : Bytes) : skip (b :: text) = b :: text := by
  have hb : ¬ b ≤ 32 := by simpa using h
  simp [skip, hb]

theorem skip_blanks {blanks : Bytes} (h : ∀ b ∈ blanks, b ≤ 32) (text : Bytes) :
    skip (blanks ++ text) = skip text := by
  induction blanks with
  | nil => rfl
  | cons b blanks ih =>
    have hb : b ≤ 32 := h b (by simp)
    have hrest := ih fun x hx => h x (by simp [hx])
    simpa [skip, hb] using hrest

theorem newline_blank (fmt : Bool) : ∀ b ∈ newline fmt, b ≤ 32 := by
  cases fmt <;> simp [newline, NEWLINE]

theorem indent_blank (fmt : Bool) (depth : ℕ) : ∀ b ∈ indent fmt depth, b ≤ 32 := by
  cases fmt with
  | false => simp [indent]
  | true =>
    intro b hb
    have htab : b = TAB := List.eq_of_mem_replicate (n := depth) (by simpa [indent] using hb)
    rw [htab]
    decide

theorem skip_lineBreak (fmt : Bool) (depth : ℕ) (text : Bytes) :
    skip (newline fmt ++ (indent fmt depth ++ text)) = skip text := by
  rw [skip_blanks (newline_blank fmt), skip_blanks (indent_blank fmt depth)]

end Blanks

section Values

theorem parseWord_append (word rest : Bytes) : parseWord word (word ++ rest) = some rest := by
  simp [parseWord]

theorem parseWord_head {w b : UInt8} (h : w ≠ b) (word text : Bytes) :
    parseWord (w :: word) (b :: text) = none := by
  simp [parseWord, h]

/-- Past the three words, the first byte decides what is parsed. -/
theorem parseValue_cons {fuel : ℕ} {b : UInt8} (hb : b ≠ 110 ∧ b ≠ 102 ∧ b ≠ 116) (text : Bytes) :
    parseValue (fuel + 1) (b :: text) =
      if b = QUOTE then (parseString (b :: text)).map fun r => (.string r.1, r.2)
      else if b = MINUS ∨ b = POINT ∨ isDigit b then some (parseNumber (b :: text))
      else if b = LBRACKET then parseArray fuel text
      else if b = LBRACE then parseObject fuel text
      else none := by
  obtain ⟨hn, hf, ht⟩ := hb
  have hnull : parseWord (cstr "null") (b :: text) = none := parseWord_head hn.symm _ _
  have hfalse : parseWord (cstr "false") (b :: text) = none := parseWord_head hf.symm _ _
  have htrue : parseWord (cstr "true") (b :: text) = none := parseWord_head ht.symm _ _
  simp only [parseValue, hnull, hfalse, htrue]

/-- The first byte of a printed number. -/
theorem NumberText.text_head (t : NumberText) :
    ∃ b tail, t.text = b :: tail ∧ (b = MINUS ∨ isDigit b = true) := by
  obtain ⟨b, ds, hw⟩ := List.exists_cons_of_ne_nil t.whole_ne
  have hb := t.whole_digits b (by simp [hw])
  unfold NumberText.text
  cases t.negative with
  | true => exact ⟨MINUS, _, rfl, Or.inl rfl⟩
  | false =>
    refine ⟨b, ds ++ (t.fractionText ++ t.exponentPart), ?_, Or.inr hb⟩
    simp [signText, hw]

theorem isDigit_iff {b : UInt8} : isDigit b = true ↔ 48 ≤ b.toNat ∧ b.toNat ≤ 57 := by
  simp [isDigit, UInt8.le_iff_toNat_le]

theorem numberHead_toNat {b : UInt8} (h : b = MINUS ∨ isDigit b = true) :
    45 ≤ b.toNat ∧ b.toNat ≤ 57 := by
  rcases h with rfl | h
  · decide
  · have := isDigit_iff.mp h
    omega

theorem parseValue_number {fuel : ℕ} (valueint : ℤ) (d : ℚ) {rest : Bytes} (hr : EndsNumber rest) :
    parseValue (fuel + 1) (printNumber valueint d ++ rest) =
      some ((parseNumber (printNumber valueint d)).1, rest) := by
  obtain ⟨t, ht⟩ := printNumber_text valueint d
  obtain ⟨b, tail, htext, hb⟩ := t.text_head
  have hrange := numberHead_toNat hb
  have hwhole : parseNumber (t.text ++ rest) = (t.value, rest) := parseNumber_text t hr
  have halone : parseNumber t.text = (t.value, []) := by
    simpa using parseNumber_text t (show EndsNumber [] by simp [EndsNumber])
  have hwords : b ≠ 110 ∧ b ≠ 102 ∧ b ≠ 116 := by
    refine ⟨?_, ?_, ?_⟩ <;> (rintro rfl; simp at hrange)
  have hquote : b ≠ QUOTE := by rintro rfl; simp [QUOTE] at hrange
  rw [ht, halone]
  rw [htext] at hwhole ⊢
  rw [List.cons_append] at hwhole ⊢
  rw [parseValue_cons hwords, if_neg hquote, if_pos (by tauto), hwhole]

/-- A printed value starts with a visible byte that closes no array. -/
theorem printValue_head (fmt : Bool) (depth : ℕ) (t : CJson) :
    ∃ b tail, printValue fmt depth t = b :: tail ∧ 32 < b ∧ b ≠ RBRACKET := by
  cases t with
  | null => exact ⟨_, _, rfl, by decide, by decide⟩
  | bool b => cases b <;> exact ⟨_, _, rfl, by decide, by decide⟩
  | number valueint d =>
    obtain ⟨t, ht⟩ := printNumber_text valueint d
    obtain ⟨b, tail, htext, hb⟩ := t.text_head
    have hrange := numberHead_toNat hb
    refine ⟨b, tail, by rw [printValue, ht, htext], ?_, ?_⟩
    · rw [UInt8.lt_iff_toNat_lt]
      simp
      omega
    · rintro rfl
      simp [RBRACKET] at hrange
  | string s => exact ⟨QUOTE, _, rfl, by decide, by decide⟩
  | array items =>
    cases items with
    | nil => exact ⟨LBRACKET, _, rfl, by decide, by decide⟩
    | cons item items => exact ⟨LBRACKET, _, rfl, by decide, by decide⟩
  | object members =>
    cases members with
    | nil => exact ⟨LBRACE, _, rfl, by decide, by decide⟩
    | cons m members => exact ⟨LBRACE, _, rfl, by decide, by decide⟩

theorem skip_printValue (fmt : Bool) (depth : ℕ) (t : CJson) (rest : Bytes) :
    skip (printValue fmt depth t ++ rest) = printValue fmt depth t ++ rest := by
  obtain ⟨b, tail, hv, hb, -⟩ := printValue_head fmt depth t
  rw [hv]
  exact skip_cons hb _

end Values

section Trees

theorem printItems_ends (fmt : Bool) (depth : ℕ) (items : List CJson) (rest : Bytes) :
    EndsNumber (printItems fmt depth items ++ RBRACKET :: rest) ∧
      skip (printItems fmt depth items ++ RBRACKET :: rest) =
        printItems fmt depth items ++ RBRACKET :: rest := by
  cases items with
  | nil => exact ⟨endsNumber_cons (by decide), skip_cons (by decide) _⟩
  | cons item items => exact ⟨endsNumber_cons (by decide), skip_cons (by decide) _⟩

theorem printMembers_ends (fmt : Bool) (depth depth' : ℕ) (members : List (Bytes × CJson))
    (rest : Bytes) :
    EndsNumber (printMembers fmt depth members ++
      (newline fmt ++ (indent fmt depth' ++ RBRACE :: rest))) := by
  cases members with
  | cons m members => exact endsNumber_cons (by decide)
  | nil =>
    cases fmt with
    | true => exact endsNumber_cons (by decide)
    | false => exact endsNumber_cons (by decide)

theorem skip_afterColon (fmt : Bool) (text : Bytes) :
    skip ((if fmt then [TAB] else []) ++ text) = skip text := by
  refine skip_blanks ?_ text
  cases fmt <;> simp [TAB]

theorem parseMember_printed {fmt : Bool} {depth fuel : ℕ} (name : Bytes) {rest : Bytes}
    {item : CJson}
    (h : parseValue fuel (printValue fmt depth item ++ rest) = some (item.reparsed, rest)) :
    parseMember (fuel + 1) (printStringPtr name ++
      COLON :: ((if fmt then [TAB] else []) ++ (printValue fmt depth item ++ rest))) =
      some ((cstringAt name, item.reparsed), rest) := by
  simp only [parseMember, parseString_printStringPtr, skip_cons (show 32 < COLON by decide),
    if_true, skip_afterColon, skip_printValue, h, Option.map_some]

theorem parseValue_bracket (fuel : ℕ) (text : Bytes) :
    parseValue (fuel + 1) (LBRACKET :: text) = parseArray fuel text := by
  rw [parseValue_cons (by decide), if_neg (by decide), if_neg (by decide), if_pos rfl]

theorem parseValue_brace (fuel : ℕ) (text : Bytes) :
    parseValue (fuel + 1) (LBRACE :: text) = parseObject fuel text := by
  rw [parseValue_cons (by decide), if_neg (by decide), if_neg (by decide), if_neg (by decide),
    if_pos rfl]

theorem parseValue_string (fuel : ℕ) (s rest : Bytes) :
    parseValue (fuel + 1) (printStringPtr s ++ rest) = some (.string (cstringAt s), rest) := by
  have hstring := parseString_printStringPtr s rest
  simp only [printStringPtr, List.cons_append] at hstring ⊢
  rw [parseValue_cons (by decide), if_pos rfl, hstring, Option.map_some]

theorem parseValue_array {fmt : Bool} {depth fuel : ℕ} {item : CJson} {items : List CJson}
    {rest : Bytes}
    (hitem : ∀ rest, EndsNumber rest →
      parseValue fuel (printValue fmt (depth + 1) item ++ rest) = some (item.reparsed, rest))
    (hitems : parseItems fuel (printItems fmt (depth + 1) items ++ RBRACKET :: rest) =
      some (CJson.reparsedItems items, rest)) :
    parseValue (fuel + 2) (printValue fmt depth (.array (item :: items)) ++ rest) =
      some ((CJson.array (item :: items)).reparsed, rest) := by
  obtain ⟨hends, hskip⟩ := printItems_ends fmt (depth + 1) items rest
  obtain ⟨b, tail, hv, -, hnb⟩ := printValue_head fmt (depth + 1) item
  have hshape : printValue fmt depth (.array (item :: items)) ++ rest = LBRACKET ::
      (printValue fmt (depth + 1) item ++
        (printItems fmt (depth + 1) items ++ RBRACKET :: rest)) := by
    simp [printValue]
  have hfirst := hitem _ hends
  rw [hshape, parseValue_bracket]
  simp only [parseArray, skip_printValue]
  rw [hv, List.cons_append] at hfirst ⊢
  simp [hnb, hfirst, hskip, hitems, CJson.reparsed, CJson.reparsedItems]

theorem parseItems_cons {fmt : Bool} {depth fuel : ℕ} {item : CJson} {items : List CJson}
    {rest : Bytes}
    (hitem : ∀ rest, EndsNumber rest →
      parseValue fuel (printValue fmt depth item ++ rest) = some (item.reparsed, rest))
    (hitems : parseItems fuel (printItems fmt depth items ++ RBRACKET :: rest) =
      some (CJson.reparsedItems items, rest)) :
    parseItems (fuel + 1) (printItems fmt depth (item :: items) ++ RBRACKET :: rest) =
      some (CJson.reparsedItems (item :: items), rest) := by
  obtain ⟨hends, hskip⟩ := printItems_ends fmt depth items rest
  have hblank : ∀ b ∈ (if fmt then [SPACE] else [] : Bytes), b ≤ 32 := by
    cases fmt <;> simp [SPACE]
  have hshape : printItems fmt depth (item :: items) ++ RBRACKET :: rest = COMMA ::
      ((if fmt then [SPACE] else []) ++ (printValue fmt depth item ++
        (printItems fmt depth items ++ RBRACKET :: rest))) := by
    simp [printItems]
  rw [hshape]
  simp only [parseItems, if_true, skip_blanks hblank, skip_printValue, hitem _ hends, hskip, hitems,
    Option.map_some, CJson.reparsedItems]

theorem parseValue_object {fmt : Bool} {depth fuel : ℕ} {name rest : Bytes} {item : CJson}
    {members : List (Bytes × CJson)}
    (hitem : ∀ rest, EndsNumber rest →
      parseValue fuel (printValue fmt (depth + 1) item ++ rest) = some (item.reparsed, rest))
    (hmembers : parseMembers (fuel + 1) (skip (printMembers fmt (depth + 1) members ++
      (newline fmt ++ (indent fmt depth ++ RBRACE :: rest)))) =
      some (CJson.reparsedMembers members, rest)) :
    parseValue (fuel + 3) (printValue fmt depth (.object ((name, item) :: members)) ++ rest) =
      some ((CJson.object ((name, item) :: members)).reparsed, rest) := by
  have hends := printMembers_ends fmt (depth + 1) depth members rest
  have hmember := parseMember_printed name (hitem _ hends)
  have hshape : printValue fmt depth (.object ((name, item) :: members)) ++ rest = LBRACE ::
      (newline fmt ++ (indent fmt (depth + 1) ++ (printStringPtr name ++ COLON ::
        ((if fmt then [TAB] else []) ++ (printValue fmt (depth + 1) item ++
          (printMembers fmt (depth + 1) members ++
            (newline fmt ++ (indent fmt depth ++ RBRACE :: rest)))))))) := by
    simp [printValue]
  rw [hshape, parseValue_brace]
  simp only [printStringPtr, List.cons_append] at hmember ⊢
  simp only [parseObject, skip_lineBreak, skip_cons (show 32 < QUOTE by decide)]
  rw [if_neg (by decide), hmember]
  simp only [hmembers, Option.map_some, CJson.reparsed, CJson.reparsedMembers]

theorem parseMembers_nil (fmt : Bool) (depth depth' fuel : ℕ) (rest : Bytes) :
    parseMembers (fuel + 1) (skip (printMembers fmt depth [] ++
      (newline fmt ++ (indent fmt depth' ++ RBRACE :: rest)))) = some ([], rest) := by
  rw [printMembers, List.nil_append, skip_lineBreak, skip_cons (by decide)]
  simp [parseMembers, RBRACE, COMMA]

theorem parseMembers_cons {fmt : Bool} {depth depth' fuel : ℕ} {name rest : Bytes} {item : CJson}
    {members : List (Bytes × CJson)}
    (hitem : ∀ rest, EndsNumber rest →
      parseValue fuel (printValue fmt depth item ++ rest) = some (item.reparsed, rest))
    (hmembers : parseMembers (fuel + 1) (skip (printMembers fmt depth members ++
      (newline fmt ++ (indent fmt depth' ++ RBRACE :: rest)))) =
      some (CJson.reparsedMembers members, rest)) :
    parseMembers (fuel + 2) (skip (printMembers fmt depth ((name, item) :: members) ++
      (newline fmt ++ (indent fmt depth' ++ RBRACE :: rest)))) =
      some (CJson.reparsedMembers ((name, item) :: members), rest) := by
  have hends := printMembers_ends fmt depth depth' members rest
  have hmember := parseMember_printed name (hitem _ hends)
  have hshape : printMembers fmt depth ((name, item) :: members) ++
      (newline fmt ++ (indent fmt depth' ++ RBRACE :: rest)) = COMMA ::
      (newline fmt ++ (indent fmt depth ++ (printStringPtr name ++ COLON ::
        ((if fmt then [TAB] else []) ++ (printValue fmt depth item ++
          (printMembers fmt depth members ++
            (newline fmt ++ (indent fmt depth' ++ RBRACE :: rest)))))))) := by
    simp [printMembers]
  rw [hshape, skip_cons (by decide), parseMembers]
  simp only [printStringPtr, List.cons_append] at hmember ⊢
  simp only [if_true, skip_lineBreak, skip_cons (show 32 < QUOTE by decide), hmember, hmembers,
    Option.map_some, CJson.reparsedMembers]

mutual

/-- Parsing the printed tree, wherever it stands in the text. -/
theorem parseValue_printValue (fmt : Bool) (depth fuel : ℕ) :
    (t : CJson) → (rest : Bytes) → t.depthNeeded ≤ fuel → EndsNumber rest →
    parseValue fuel (printValue fmt depth t ++ rest) = some (t.reparsed, rest)
  | .null, rest, h, _ => by
    obtain ⟨fuel, rfl⟩ := Nat.exists_eq_add_of_le' (show 2 ≤ fuel from h)
    simp only [printValue, parseValue, parseWord_append, CJson.reparsed]
  | .bool false, rest, h, _ => by
    obtain ⟨fuel, rfl⟩ := Nat.exists_eq_add_of_le' (show 2 ≤ fuel from h)
    have hnull : parseWord (cstr "null") (cstr "false" ++ rest) = none :=
      parseWord_head (by decide) _ _
    simp only [printValue, parseValue, hnull, parseWord_append, CJson.reparsed]
  | .bool true, rest, h, _ => by
    obtain ⟨fuel, rfl⟩ := Nat.exists_eq_add_of_le' (show 2 ≤ fuel from h)
    have hnull : parseWord (cstr "null") (cstr "true" ++ rest) = none :=
      parseWord_head (by decide) _ _
    have hfalse : parseWord (cstr "false") (cstr "true" ++ rest) = none :=
      parseWord_head (by decide) _ _
    simp only [printValue, parseValue, hnull, hfalse, parseWord_append, CJson.reparsed]
  | .number valueint d, rest, h, hr => by
    obtain ⟨fuel, rfl⟩ := Nat.exists_eq_add_of_le' (show 2 ≤ fuel from h)
    simp only [printValue, CJson.reparsed]
    exact parseValue_number valueint d hr
  | .string s, rest, h, _ => by
    obtain ⟨fuel, rfl⟩ := Nat.exists_eq_add_of_le' (show 2 ≤ fuel from h)
    simp only [printValue, CJson.reparsed]
    exact parseValue_string (fuel + 1) s rest
  | .array [], rest, h, _ => by
    obtain ⟨fuel, rfl⟩ := Nat.exists_eq_add_of_le' (show 2 ≤ fuel from h)
    rw [printValue, List.cons_append, List.cons_append, parseValue_bracket, List.nil_append]
    simp [parseArray, skip_cons (show 32 < RBRACKET by decide), CJson.reparsed,
      CJson.reparsedItems]
  | .array (item :: items), rest, h, _ => by
    simp only [CJson.depthNeeded] at h
    obtain ⟨fuel, rfl⟩ := Nat.exists_eq_add_of_le' (show 2 ≤ fuel by omega)
    exact parseValue_array
      (fun rest hr => parseValue_printValue fmt (depth + 1) fuel item rest (by omega) hr)
      (parseItems_printItems fmt (depth + 1) fuel items rest (by omega))
  | .object [], rest, h, _ => by
    obtain ⟨fuel, rfl⟩ := Nat.exists_eq_add_of_le' (show 2 ≤ fuel from h)
    have hshape : printValue fmt depth (.object []) ++ rest =
        LBRACE :: (newline fmt ++ (indent fmt (depth - 1) ++ RBRACE :: rest)) := by
      simp [printValue]
    rw [hshape, parseValue_brace]
    simp only [parseObject, skip_lineBreak, skip_cons (show 32 < RBRACE by decide), if_true,
      CJson.reparsed, CJson.reparsedMembers]
  | .object ((name, item) :: members), rest, h, _ => by
    simp only [CJson.depthNeeded] at h
    obtain ⟨fuel, rfl⟩ := Nat.exists_eq_add_of_le' (show 3 ≤ fuel by omega)
    exact parseValue_object
      (fun rest hr => parseValue_printValue fmt (depth + 1) fuel item rest (by omega) hr)
      (parseMembers_printMembers fmt (depth + 1) depth (fuel + 1) members rest (by omega))

theorem parseItems_printItems (fmt : Bool) (depth fuel : ℕ) :
    (items : List CJson) → (rest : Bytes) → CJson.depthNeededItems items ≤ fuel →
    parseItems fuel (printItems fmt depth items ++ RBRACKET :: rest) =
      some (CJson.reparsedItems items, rest)
  | [], rest, h => by
    obtain ⟨fuel, rfl⟩ := Nat.exists_eq_add_of_le' (show 1 ≤ fuel from h)
    simp [printItems, parseItems, RBRACKET, COMMA, CJson.reparsedItems]
  | item :: items, rest, h => by
    simp only [CJson.depthNeededItems] at h
    obtain ⟨fuel, rfl⟩ := Nat.exists_eq_add_of_le' (show 1 ≤ fuel by omega)
    exact parseItems_cons
      (fun rest hr => parseValue_printValue fmt depth fuel item rest (by omega) hr)
      (parseItems_printItems fmt depth fuel items rest (by omega))

theorem parseMembers_printMembers (fmt : Bool) (depth depth' fuel : ℕ) :
    (members : List (Bytes × CJson)) → (rest : Bytes) → CJson.depthNeededMembers members ≤ fuel →
    parseMembers fuel (skip (printMembers fmt depth members ++
      (newline fmt ++ (indent fmt depth' ++ RBRACE :: rest)))) =
      some (CJson.reparsedMembers members, rest)
  | [], rest, h => by
    obtain ⟨fuel, rfl⟩ := Nat.exists_eq_add_of_le' (show 1 ≤ fuel from h)
    exact parseMembers_nil fmt depth depth' fuel rest
  | (name, item) :: members, rest, h => by
    simp only [CJson.depthNeededMembers] at h
    obtain ⟨fuel, rfl⟩ := Nat.exists_eq_add_of_le' (show 2 ≤ fuel by omega)
    exact parseMembers_cons
      (fun rest hr => parseValue_printValue fmt depth fuel item rest (by omega) hr)
      (parseMembers_printMembers fmt depth depth' (fuel + 1) members rest (by omega))

end

mutual

theorem depthNeeded_le (fmt : Bool) (depth : ℕ) :
    (t : CJson) → t.depthNeeded ≤ 3 * (printValue fmt depth t).length
  | .null => by simp [CJson.depthNeeded, printValue, cstr]
  | .bool false => by simp [CJson.depthNeeded, printValue, cstr]
  | .bool true => by simp [CJson.depthNeeded, printValue, cstr]
  | .number valueint d => by
    obtain ⟨t, ht⟩ := printNumber_text valueint d
    obtain ⟨b, tail, htext, -⟩ := t.text_head
    simp only [CJson.depthNeeded, printValue, ht, htext, List.length_cons]
    omega
  | .string s => by
    simp only [CJson.depthNeeded, printValue, printStringPtr, List.length_append, List.length_cons]
    omega
  | .array [] => by simp [CJson.depthNeeded, printValue]
  | .array (item :: items) => by
    have hitem := depthNeeded_le fmt (depth + 1) item
    have hitems := depthNeededItems_le fmt (depth + 1) items
    simp only [CJson.depthNeeded, printValue, List.length_append, List.length_cons]
    omega
  | .object [] => by
    simp only [CJson.depthNeeded, printValue, List.length_append, List.length_cons]
    omega
  | .object ((name, item) :: members) => by
    have hitem := depthNeeded_le fmt (depth + 1) item
    have hmembers := depthNeededMembers_le fmt (depth + 1) members
    simp only [CJson.depthNeeded, printValue, List.length_append, List.length_cons]
    omega

theorem depthNeededItems_le (fmt : Bool) (depth : ℕ) :
    (items : List CJson) →
      CJson.depthNeededItems items ≤ 1 + 3 * (printItems fmt depth items).length
  | [] => by simp [CJson.depthNeededItems]
  | item :: items => by
    have hitem := depthNeeded_le fmt depth item
    have hitems := depthNeededItems_le fmt depth items
    simp only [CJson.depthNeededItems, printItems, List.length_append, List.length_cons]
    omega

theorem depthNeededMembers_le (fmt : Bool) (depth : ℕ) :
    (members : List (Bytes × CJson)) →
      CJson.depthNeededMembers members ≤ 1 + 3 * (printMembers fmt depth members).length
  | [] => by simp [CJson.depthNeededMembers]
  | (name, item) :: members => by
    have hitem := depthNeeded_le fmt depth item
    have hmembers := depthNeededMembers_le fmt depth members
    simp only [CJson.depthNeededMembers, printMembers, List.length_append, List.length_cons]
    omega

end

/-- `cJSON_Parse` on the text of `cJSON_Print` or `cJSON_PrintUnformatted`. -/
theorem parse_print (fmt : Bool) (t : CJson) : CJson.parse (t.print fmt) = some t.reparsed := by
  have hneed := depthNeeded_le fmt 0 t
  have hskip := skip_printValue fmt 0 t []
  have hvalue := parseValue_printValue fmt 0 (3 * (printValue fmt 0 t).length + 3) t []
    (by omega) (by simp [EndsNumber])
  rw [List.append_nil] at hskip hvalue
  rw [CJson.parse, CJson.print, hskip, hvalue, Option.map_some]

end Trees

section Visible

theorem printable_of_all {text : Bytes} (h : (text.all fun b => Printable b) = true) :
    ∀ b ∈ text, Printable b := by
  simpa using h

theorem printable_digit {b : UInt8} (h : isDigit b = true) : Printable b := by
  have hb := isDigit_iff.mp h
  left
  rw [UInt8.le_iff_toNat_le]
  simp
  omega

theorem NumberText.text_printable (t : NumberText) : ∀ b ∈ t.text, Printable b := by
  intro b hb
  simp only [NumberText.text, List.mem_append] at hb
  rcases hb with hb | hb | hb | hb
  · cases hn : t.negative <;> simp [signText, hn] at hb
    rw [hb]
    decide
  · exact printable_digit (t.whole_digits b hb)
  · cases hf : t.fraction with
    | none => simp [NumberText.fractionText, hf] at hb
    | some ds =>
      simp only [NumberText.fractionText, hf, Option.elim_some, List.mem_cons] at hb
      rcases hb with rfl | hb
      · decide
      · exact printable_digit (t.fraction_digits ds (by simp [hf]) b hb)
  · cases he : t.exponent with
    | none => simp [NumberText.exponentPart, he] at hb
    | some e =>
      simp only [NumberText.exponentPart, he, Option.elim_some, List.mem_cons] at hb
      rcases hb with rfl | hb | hb
      · decide
      · rw [hb]
        cases e.1 <;> decide
      · exact printable_digit (t.exponent_digits e (by simp [he]) b hb)

theorem escapeByte_printable (c : UInt8) : ∀ b ∈ escapeByte c, Printable b := by
  by_cases hlow : c.toNat < 32
  · have hall : ∀ n < 32, ((escapeByte (UInt8.ofNat n)).all fun b => Printable b) = true := by
      decide
    have hc := printable_of_all (hall c.toNat hlow)
    rwa [UInt8.ofNat_toNat] at hc
  · have hc : 32 ≤ c := by
      rw [UInt8.le_iff_toNat_le]
      simp
      omega
    by_cases hplain : c ≠ QUOTE ∧ c ≠ BACKSLASH
    · have hlt : 31 < c := by
        rw [UInt8.lt_iff_toNat_lt]
        simp
        omega
      rw [escapeByte, if_pos ⟨hlt, hplain⟩]
      simpa [Printable] using Or.inl hc
    · have hcases : c = QUOTE ∨ c = BACKSLASH := by tauto
      rcases hcases with rfl | rfl <;> exact printable_of_all (by decide)

theorem escape_printable (str : Bytes) : ∀ b ∈ escape str, Printable b := by
  induction str with
  | nil => simp [escape]
  | cons c str ih =>
    intro b hb
    rw [escape] at hb
    split at hb
    · simp at hb
    · rcases List.mem_append.mp hb with hb | hb
      · exact escapeByte_printable c b hb
      · exact ih b hb

theorem printStringPtr_printable (str : Bytes) : ∀ b ∈ printStringPtr str, Printable b := by
  intro b hb
  simp only [printStringPtr, List.cons_append, List.mem_cons, List.mem_append,
    List.not_mem_nil, or_false] at hb
  rcases hb with rfl | hb | rfl
  · decide
  · exact escape_printable str b hb
  · decide

theorem newline_printable (fmt : Bool) : ∀ b ∈ newline fmt, Printable b :=
  printable_of_all (by cases fmt <;> decide)

theorem indent_printable (fmt : Bool) (depth : ℕ) : ∀ b ∈ indent fmt depth, Printable b := by
  intro b hb
  cases fmt with
  | false => simp [indent] at hb
  | true =>
    have htab : b = TAB := List.eq_of_mem_replicate (n := depth) (by simpa [indent] using hb)
    rw [htab]
    decide

theorem afterColon_printable (fmt : Bool) :
    ∀ b ∈ (if fmt then [TAB] else [] : Bytes), Printable b :=
  printable_of_all (by cases fmt <;> decide)

mutual

theorem printValue_printable (fmt : Bool) (depth : ℕ) :
    (t : CJson) → ∀ b ∈ printValue fmt depth t, Printable b
  | .null => printable_of_all (by rw [printValue]; decide)
  | .bool false => printable_of_all (by rw [printValue]; decide)
  | .bool true => printable_of_all (by rw [printValue]; decide)
  | .number valueint d => by
    obtain ⟨t, ht⟩ := printNumber_text valueint d
    rw [printValue, ht]
    exact t.text_printable
  | .string s => by
    rw [printValue]
    exact printStringPtr_printable s
  | .array [] => printable_of_all (by rw [printValue]; decide)
  | .array (item :: items) => by
    have hitem := printValue_printable fmt (depth + 1) item
    have hitems := printItems_printable fmt (depth + 1) items
    simp only [printValue, List.cons_append, List.forall_mem_cons, List.forall_mem_append]
    exact ⟨by decide, ⟨hitem, hitems⟩, by decide, List.forall_mem_nil _⟩
  | .object [] => by
    simp only [printValue, List.cons_append, List.forall_mem_cons, List.forall_mem_append]
    exact ⟨by decide, ⟨newline_printable fmt, indent_printable fmt (depth - 1)⟩,
      by decide, List.forall_mem_nil _⟩
  | .object ((name, item) :: members) => by
    have hitem := printValue_printable fmt (depth + 1) item
    have hmembers := printMembers_printable fmt (depth + 1) members
    have hname := printStringPtr_printable name
    simp only [printValue, List.cons_append, List.append_assoc, List.forall_mem_cons,
      List.forall_mem_append]
    exact ⟨by decide, newline_printable fmt, indent_printable fmt (depth + 1), hname, by decide,
      afterColon_printable fmt, hitem, hmembers, newline_printable fmt, indent_printable fmt depth,
      by decide, List.forall_mem_nil _⟩

theorem printItems_printable (fmt : Bool) (depth : ℕ) :
    (items : List CJson) → ∀ b ∈ printItems fmt depth items, Printable b
  | [] => by simp [printItems]
  | item :: items => by
    have hitem := printValue_printable fmt depth item
    have hitems := printItems_printable fmt depth items
    have hspace : ∀ b ∈ (if fmt then [SPACE] else [] : Bytes), Printable b :=
      printable_of_all (by cases fmt <;> decide)
    simp only [printItems, List.cons_append, List.append_assoc, List.forall_mem_cons,
      List.forall_mem_append]
    exact ⟨by decide, hspace, hitem, hitems⟩

theorem printMembers_printable (fmt : Bool) (depth : ℕ) :
    (members : List (Bytes × CJson)) → ∀ b ∈ printMembers fmt depth members, Printable b
  | [] => by simp [printMembers]
  | (name, item) :: members => by
    have hitem := printValue_printable fmt depth item
    have hmembers := printMembers_printable fmt depth members
    have hname := printStringPtr_printable name
    simp only [printMembers, List.cons_append, List.append_assoc, List.forall_mem_cons,
      List.forall_mem_append]
    exact ⟨by decide, newline_printable fmt, indent_printable fmt depth, hname, by decide,
      afterColon_printable fmt, hitem, hmembers⟩

end

/-- A printed tree holds no byte below the space but tab and newline. -/
theorem print_printable (fmt : Bool) (t : CJson) : ∀ b ∈ t.print fmt, Printable b :=
  printValue_printable fmt 0 t

end Visible

section Reparsed

theorem reparsedMembers_map (members : List (Bytes × CJson)) :
    CJson.reparsedMembers members = members.map fun m => (cstringAt m.1, m.2.reparsed) := by
  induction members with
  | nil => rfl
  | cons m members ih => rw [CJson.reparsedMembers, ih, List.map_cons]

theorem reparsedItems_map (items : List CJson) :
    CJson.reparsedItems items = items.map CJson.reparsed := by
  induction items with
  | nil => rfl
  | cons item items ih => rw [CJson.reparsedItems, ih, List.map_cons]

/-- Integers of at most 53 bits survive creation, printing and parsing. -/
theorem reparsed_createNumber {z : ℤ} (hz : |z| < 2 ^ 53) :
    (CJson.createNumber z).reparsed = .number z z := by
  have htext := printNumber_createNumber hz
  have hparse := parseNumber_text (integerText (z < 0) z.natAbs)
    (show EndsNumber [] by simp [EndsNumber])
  rw [List.append_nil, ← formatInt_text, integerText_value hz] at hparse
  rw [CJson.createNumber, CJson.reparsed, htext, hparse]

end Reparsed

end V2IHub.Json
