import V2IHub.Foundation.OrderedMap
import V2IHub.Foundation.DecimalText
import V2IHub.Messages.PropertyTree

/-! `GetConfigValue`: the value of a configuration key at the type that a plugin asks for. -/
namespace V2IHub.Client
open Foundation Foundation.DecimalText Messages

/-- `boost::lexical_cast<int>`: a sign and digits, and nothing else. -/
def lexicalInt (text : Bytes) : Option ℤ :=
  let (negative, digits) :=
    match text with
    | 45 :: rest => (true, rest)
    | 43 :: rest => (false, rest)
    | rest => (false, rest)
  if digits ≠ [] ∧ digits.all isDigit then
    let value : ℤ := digits.foldl (fun n b => 10 * n + digitVal b) 0
    let value := if negative then -value else value
    if -2 ^ 31 ≤ value ∧ value < 2 ^ 31 then some value else none
  else none

/-- `boost::lexical_cast<uint32_t>`, which negates modulo `2 ^ 32`. -/
def lexicalUInt32 (text : Bytes) : Option ℕ :=
  let (negative, digits) :=
    match text with
    | 45 :: rest => (true, rest)
    | 43 :: rest => (false, rest)
    | rest => (false, rest)
  if digits ≠ [] ∧ digits.all isDigit then
    let value : ℕ := digits.foldl (fun n b => 10 * n + digitVal b) 0
    if value < 2 ^ 32 then some (if negative then (2 ^ 32 - value) % 2 ^ 32 else value) else none
  else none

def toLower (b : UInt8) : UInt8 := if 65 ≤ b ∧ b ≤ 90 then b + 32 else b

/-- `boost::iequals` -/
def iequals (s t : Bytes) : Bool := s.map toLower = t.map toLower

/-- The texts that `GetConfigValue<bool>` takes for true. -/
def isTrueText (text : Bytes) : Bool :=
  iequals text (cstr "1") || iequals text (cstr "true") || iequals text (cstr "t") ||
    iequals text (cstr "on")

/-- The current text of each key, of the plugin and of the system. -/
abbrev ConfigValues := OrderedMap Bytes Bytes

namespace ConfigValues
variable (config : ConfigValues) (key : Bytes)

def getInt : Option ℤ := (config.find key).bind lexicalInt

def getUInt32 : Option ℕ := (config.find key).bind lexicalUInt32

def getBool : Option Bool := (config.find key).map isTrueText

/-- With `read_json`, which leaves the tree empty where it throws. -/
def getTree (readJson : Bytes → Option PTree) : PTree :=
  ((config.find key).bind readJson).getD .empty

/-- A key whose text is not one of those counts as false. -/
def isOn : Bool := (config.getBool key).getD false

section Insert
variable {config key} {key' value : Bytes}

theorem getInt_insert_of_ne (h : key ≠ key') :
    getInt (config.insert key value) key' = config.getInt key' := by
  rw [getInt, OrderedMap.find_insert, if_neg h, getInt]

theorem getTree_insert_of_ne (readJson : Bytes → Option PTree) (h : key ≠ key') :
    getTree (config.insert key value) key' readJson = config.getTree key' readJson := by
  rw [getTree, OrderedMap.find_insert, if_neg h, getTree]

theorem isOn_insert_self : isOn (config.insert key value) key = isTrueText value := by
  rw [isOn, getBool, OrderedMap.find_insert, if_pos rfl]
  rfl

theorem isOn_insert_of_ne (h : key ≠ key') :
    isOn (config.insert key value) key' = config.isOn key' := by
  rw [isOn, getBool, OrderedMap.find_insert, if_neg h, isOn, getBool]

end Insert
end ConfigValues
end V2IHub.Client
