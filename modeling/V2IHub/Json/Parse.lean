import V2IHub.Json.Print

/-! The cJSON parser on a C string. Where the source would read past the terminator of a
text that ends in the middle of an escape, the text simply ends here. -/
namespace V2IHub.Json
open Foundation DecimalText

def skip (text : Bytes) : Bytes := text.dropWhile (· ≤ 32)

/-- `do n = (n * 10.0) + (*num++ - '0'); while (digit);`, in `double` arithmetic, with
the number of digits read. -/
def scanDigits : ℚ → Bytes → ℚ × ℕ × Bytes
  | n, [] => (n, 0, [])
  | n, b :: text =>
    if isDigit b then
      let r := scanDigits (Binary64.add (Binary64.mul n 10) (digitVal b)) text
      (r.1, r.2.1 + 1, r.2.2)
    else (n, 0, b :: text)

/-- The digits of the exponent are summed in an `int`. -/
def scanExponent : ℤ → Bytes → ℤ × Bytes
  | n, [] => (n, [])
  | n, b :: text => if isDigit b then scanExponent (n * 10 + digitVal b) text else (n, b :: text)

def scanSign : Bytes → ℚ × Bytes
  | [] => (1, [])
  | b :: text => if b = MINUS then (-1, text) else (1, b :: text)

/-- Leading zeros are skipped before the digits are read. -/
def scanInteger (text : Bytes) : ℚ × Bytes :=
  let r := scanDigits 0 (text.dropWhile (· = ZERO))
  (r.1, r.2.2)

/-- Returns the digits so far, and minus the number of digits after the point. -/
def scanFraction (n : ℚ) : Bytes → ℚ × ℤ × Bytes
  | [] => (n, 0, [])
  | b :: text =>
    if b = POINT then
      let r := scanDigits n text
      (r.1, -(r.2.1 : ℤ), r.2.2)
    else (n, 0, b :: text)

def scanExponentPart : Bytes → ℤ × Bytes
  | [] => (0, [])
  | b :: text =>
    if b = LOWER_E ∨ b = UPPER_E then
      match text with
      | [] => (0, [])
      | s :: text =>
        if s = PLUS then scanExponent 0 text
        else if s = MINUS then
          let r := scanExponent 0 text
          (-r.1, r.2)
        else scanExponent 0 (s :: text)
    else (0, b :: text)

/-- `parse_number` -/
def parseNumber (num : Bytes) : CJson × Bytes :=
  let (sign, num) := scanSign num
  let (n, num) := scanInteger num
  let (n, scale, num) := scanFraction n num
  let (subscale, num) := scanExponentPart num
  let n := Binary64.mul (Binary64.mul sign n) (Binary64.round (10 ^ (scale + subscale)))
  (.number (Binary64.toInt64 n) n, num)

def hexValue (b : UInt8) : Option ℕ :=
  if 48 ≤ b ∧ b ≤ 57 then some (b.toNat - 48)
  else if 65 ≤ b ∧ b ≤ 70 then some (b.toNat - 55)
  else if 97 ≤ b ∧ b ≤ 102 then some (b.toNat - 87)
  else none

/-- `parse_hex4`; the answer for anything but four hexadecimal digits is 0. -/
def parseHex4 (a b c d : UInt8) : ℕ :=
  match hexValue a, hexValue b, hexValue c, hexValue d with
  | some a, some b, some c, some d => ((a * 16 + b) * 16 + c) * 16 + d
  | _, _, _, _ => 0

/-- The UTF-8 bytes that `parse_string` writes for a code point. -/
def utf8Bytes (uc : ℕ) : Bytes :=
  if uc < 0x80 then [UInt8.ofNat uc]
  else if uc < 0x800 then [UInt8.ofNat (0xC0 + uc / 64), UInt8.ofNat (0x80 + uc % 64)]
  else if uc < 0x10000 then
    [UInt8.ofNat (0xE0 + uc / 4096), UInt8.ofNat (0x80 + uc / 64 % 64),
      UInt8.ofNat (0x80 + uc % 64)]
  else
    [UInt8.ofNat (0xF0 + uc / 262144), UInt8.ofNat (0x80 + uc / 4096 % 64),
      UInt8.ofNat (0x80 + uc / 64 % 64), UInt8.ofNat (0x80 + uc % 64)]

/-- The letter behind a backslash, other than `u`. -/
def unescapeByte (e : UInt8) : UInt8 :=
  if e = 98 then 8 else if e = 102 then 12 else if e = 110 then 10
  else if e = 114 then 13 else if e = 116 then 9 else e

/-- The loop of `parse_string` behind the opening quote: the text and what follows it. -/
def unescape : Bytes → Bytes × Bytes
  | [] => ([], [])
  | b :: text =>
    if b = QUOTE then ([], text)
    else if b ≠ BACKSLASH then
      let r := unescape text
      (b :: r.1, r.2)
    else
      match text with
      | [] => ([], [])
      | e :: text =>
        if e ≠ 117 then
          let r := unescape text
          (unescapeByte e :: r.1, r.2)
        else
          match text with
          | h₁ :: h₂ :: h₃ :: h₄ :: text =>
            let uc := parseHex4 h₁ h₂ h₃ h₄
            if (0xDC00 ≤ uc ∧ uc ≤ 0xDFFF) ∨ uc = 0 then unescape text
            else if 0xD800 ≤ uc ∧ uc ≤ 0xDBFF then
              match text with
              | s :: u :: l₁ :: l₂ :: l₃ :: l₄ :: low =>
                if s ≠ BACKSLASH ∨ u ≠ 117 then unescape (s :: u :: l₁ :: l₂ :: l₃ :: l₄ :: low)
                else
                  let uc2 := parseHex4 l₁ l₂ l₃ l₄
                  let r := unescape low
                  if uc2 < 0xDC00 ∨ 0xDFFF < uc2 then r
                  else (utf8Bytes (0x10000 + (uc % 0x400) * 0x400 + uc2 % 0x400) ++ r.1, r.2)
              | text => unescape text
            else
              let r := unescape text
              (utf8Bytes uc ++ r.1, r.2)
          | _ => ([], [])

/-- `parse_string` -/
def parseString : Bytes → Option (Bytes × Bytes)
  | [] => none
  | b :: text => if b = QUOTE then some (unescape text) else none

/-- `strncmp(value, word, length) == 0`, with the text behind the word. -/
def parseWord (word : Bytes) (value : Bytes) : Option Bytes :=
  if word.isPrefixOf value then some (value.drop word.length) else none

mutual

/-- `parse_value`; the fuel bounds the recursion depth. -/
def parseValue : ℕ → Bytes → Option (CJson × Bytes)
  | 0, _ => none
  | fuel + 1, value =>
    match parseWord (cstr "null") value with
    | some rest => some (.null, rest)
    | none =>
    match parseWord (cstr "false") value with
    | some rest => some (.bool false, rest)
    | none =>
    match parseWord (cstr "true") value with
    | some rest => some (.bool true, rest)
    | none =>
    match value with
    | [] => none
    | b :: text =>
      if b = QUOTE then (parseString (b :: text)).map fun r => (.string r.1, r.2)
      else if b = MINUS ∨ b = POINT ∨ isDigit b then some (parseNumber (b :: text))
      else if b = LBRACKET then parseArray fuel text
      else if b = LBRACE then parseObject fuel text
      else none

/-- `parse_array` behind the bracket. -/
def parseArray : ℕ → Bytes → Option (CJson × Bytes)
  | 0, _ => none
  | fuel + 1, text =>
    match skip text with
    | b :: rest =>
      if b = RBRACKET then some (.array [], rest)
      else
        match parseValue fuel (b :: rest) with
        | none => none
        | some (item, rest) =>
          (parseItems fuel (skip rest)).map fun r => (.array (item :: r.1), r.2)
    | [] => none

/-- The loop of `parse_array` over the items after the first. -/
def parseItems : ℕ → Bytes → Option (List CJson × Bytes)
  | 0, _ => none
  | fuel + 1, text =>
    match text with
    | b :: rest =>
      if b = COMMA then
        match parseValue fuel (skip rest) with
        | none => none
        | some (item, rest) => (parseItems fuel (skip rest)).map fun r => (item :: r.1, r.2)
      else if b = RBRACKET then some ([], rest)
      else none
    | [] => none

/-- `parse_object` behind the brace. -/
def parseObject : ℕ → Bytes → Option (CJson × Bytes)
  | 0, _ => none
  | fuel + 1, text =>
    match skip text with
    | b :: rest =>
      if b = RBRACE then some (.object [], rest)
      else
        match parseMember fuel (b :: rest) with
        | none => none
        | some (member, rest) =>
          (parseMembers fuel (skip rest)).map fun r => (.object (member :: r.1), r.2)
    | [] => none

/-- A name, a colon and a value. -/
def parseMember : ℕ → Bytes → Option ((Bytes × CJson) × Bytes)
  | 0, _ => none
  | fuel + 1, text =>
    match parseString text with
    | none => none
    | some (name, rest) =>
      match skip rest with
      | b :: rest =>
        if b = COLON then (parseValue fuel (skip rest)).map fun r => ((name, r.1), r.2) else none
      | [] => none

/-- The loop of `parse_object` over the members after the first. -/
def parseMembers : ℕ → Bytes → Option (List (Bytes × CJson) × Bytes)
  | 0, _ => none
  | fuel + 1, text =>
    match text with
    | b :: rest =>
      if b = COMMA then
        match parseMember fuel (skip rest) with
        | none => none
        | some (member, rest) => (parseMembers fuel (skip rest)).map fun r => (member :: r.1, r.2)
      else if b = RBRACE then some ([], rest)
      else none
    | [] => none

end

namespace CJson

/-- `cJSON_Parse`. Every level of the recursion takes a byte of the text or is one of at
most three calls made for it; bytes behind the value are ignored, as in the source. -/
def parse (value : Bytes) : Option CJson :=
  (parseValue (3 * value.length + 3) (skip value)).map Prod.fst

end CJson
end V2IHub.Json
