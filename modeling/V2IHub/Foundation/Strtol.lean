import V2IHub.Foundation.Bytes

/-! Numbers as `strtol` reads them from the beginning of a text. -/
namespace V2IHub.Foundation

def isSpace (c : UInt8) : Bool := c = 32 || (9 ≤ c && c ≤ 13)

/-- What a letter or digit stands for in the bases up to 36. -/
def digitOf (c : UInt8) : Option ℕ :=
  if 48 ≤ c ∧ c ≤ 57 then some (c.toNat - 48)
  else if 65 ≤ c ∧ c ≤ 90 then some (c.toNat - 55)
  else if 97 ≤ c ∧ c ≤ 122 then some (c.toNat - 87)
  else none

/-- The number of the digits in front, behind a number. -/
def leadingDigits (base : ℕ) : Bytes → ℕ → ℕ
  | [], n => n
  | c :: rest, n =>
    match digitOf c with
    | some d => if d < base then leadingDigits base rest (base * n + d) else n
    | none => n

/-- The base that base 0 stands for, and the text behind its prefix. -/
def detectBase : Bytes → ℕ × Bytes
  | 48 :: x :: d :: rest =>
    if (x = 120 ∨ x = 88) ∧ (digitOf d).any (· < 16) then (16, d :: rest)
    else (8, 48 :: x :: d :: rest)
  | 48 :: rest => (8, 48 :: rest)
  | rest => (10, rest)

/-- `strtol(text, NULL, 0)` with a `long` of 64 bits. -/
def strtol0 (text : Bytes) : ℤ :=
  let (negative, text) :=
    match text.dropWhile isSpace with
    | 45 :: rest => (true, rest)
    | 43 :: rest => (false, rest)
    | rest => (false, rest)
  let (base, text) := detectBase text
  let magnitude : ℤ := leadingDigits base text 0
  if negative then max (-2 ^ 63) (-magnitude) else min (2 ^ 63 - 1) magnitude

/-- The tokens that `strtok` with one delimiter takes from a text one after the other. -/
def strtokAll (delimiter : UInt8) (text : Bytes) : List Bytes :=
  (text.splitOn delimiter).filter (· ≠ [])

example : (strtokAll 44 (cstr ",8,0x12,,010")).map strtol0 = [8, 18, 8] := by decide

end V2IHub.Foundation
