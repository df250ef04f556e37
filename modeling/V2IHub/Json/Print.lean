import V2IHub.Foundation.DecimalText
import V2IHub.Json.Tree

/-! Printing of cJSON trees, formatted and unformatted. -/
namespace V2IHub.Json
open Foundation DecimalText

def QUOTE : UInt8 := 34
def BACKSLASH : UInt8 := 92
def COMMA : UInt8 := 44
def COLON : UInt8 := 58
def TAB : UInt8 := 9
def NEWLINE : UInt8 := 10
def SPACE : UInt8 := 32
def LBRACKET : UInt8 := 91
def RBRACKET : UInt8 := 93
def LBRACE : UInt8 := 123
def RBRACE : UInt8 := 125

def hexDigit (d : UInt8) : UInt8 := if d < 10 then 48 + d else 87 + d

/-- What `print_string_ptr` writes for one byte. -/
def escapeByte (b : UInt8) : Bytes :=
  if 31 < b ∧ b ≠ QUOTE ∧ b ≠ BACKSLASH then [b]
  else BACKSLASH ::
    if b = BACKSLASH then [BACKSLASH]
    else if b = QUOTE then [QUOTE]
    else if b = 8 then [98]
    else if b = 12 then [102]
    else if b = 10 then [110]
    else if b = 13 then [114]
    else if b = 9 then [116]
    else [117, 48, 48, hexDigit (b / 16), hexDigit (b % 16)]

def escape : Bytes → Bytes
  | [] => []
  | b :: str => if b = 0 then [] else escapeByte b ++ escape str

def printStringPtr (str : Bytes) : Bytes := QUOTE :: escape str ++ [QUOTE]

def DBL_EPSILON : ℚ := 1 / 2 ^ 52
def INT_MAX : ℚ := 2 ^ 31 - 1
def INT_MIN : ℚ := -2 ^ 31

def printNumber (valueint : ℤ) (d : ℚ) : Bytes :=
  if |Binary64.add (Binary64.round valueint) (-d)| ≤ DBL_EPSILON ∧ d ≤ INT_MAX ∧ INT_MIN ≤ d then
    formatInt valueint
  else if |Binary64.add ⌊d⌋ (-d)| ≤ DBL_EPSILON ∧ |d| < Binary64.round (10 ^ 60) then
    formatWhole d
  else if |d| < Binary64.round (1 / 10 ^ 6) ∨ 10 ^ 9 < |d| then formatExponent d
  else formatFixed d

/-- `for (j = 0; j < depth; j++) *ptr++ = '\t';`, only when formatting. -/
def indent (fmt : Bool) (depth : ℕ) : Bytes := if fmt then List.replicate depth TAB else []

def newline (fmt : Bool) : Bytes := if fmt then [NEWLINE] else []

mutual

/-- `print_value(item, depth, fmt)` -/
def printValue (fmt : Bool) : ℕ → CJson → Bytes
  | _, .null => cstr "null"
  | _, .bool false => cstr "false"
  | _, .bool true => cstr "true"
  | _, .number valueint valuedouble => printNumber valueint valuedouble
  | _, .string valuestring => printStringPtr valuestring
  | _, .array [] => [LBRACKET, RBRACKET]
  | depth, .array (item :: items) =>
    LBRACKET :: printValue fmt (depth + 1) item ++ printItems fmt (depth + 1) items ++ [RBRACKET]
  | depth, .object [] => LBRACE :: newline fmt ++ indent fmt (depth - 1) ++ [RBRACE]
  | depth, .object ((name, item) :: members) =>
    LBRACE :: newline fmt ++ indent fmt (depth + 1) ++ printStringPtr name ++ COLON ::
      (if fmt then [TAB] else []) ++ printValue fmt (depth + 1) item ++
      printMembers fmt (depth + 1) members ++ newline fmt ++ indent fmt depth ++ [RBRACE]

/-- The items of an array after the first. -/
def printItems (fmt : Bool) : ℕ → List CJson → Bytes
  | _, [] => []
  | depth, item :: items =>
    COMMA :: (if fmt then [SPACE] else []) ++ printValue fmt depth item ++
      printItems fmt depth items

/-- The members of an object after the first. -/
def printMembers (fmt : Bool) : ℕ → List (Bytes × CJson) → Bytes
  | _, [] => []
  | depth, (name, item) :: members =>
    COMMA :: newline fmt ++ indent fmt depth ++ printStringPtr name ++ COLON ::
      (if fmt then [TAB] else []) ++ printValue fmt depth item ++ printMembers fmt depth members

end

namespace CJson

/-- `cJSON_Print` and `cJSON_PrintUnformatted` -/
def print (fmt : Bool) (item : CJson) : Bytes := printValue fmt 0 item

end CJson

/-- The bytes a printed tree may hold: no control character but tab and newline. -/
def Printable (b : UInt8) : Prop := 32 ≤ b ∨ b = TAB ∨ b = NEWLINE

instance : DecidablePred Printable := fun _ => inferInstanceAs (Decidable (_ ∨ _))

end V2IHub.Json
