import V2IHub.Foundation.Binary64
import V2IHub.Foundation.Bytes

/-! The cJSON tree as the API uses it: construction, lookup and replacement of items. -/
namespace V2IHub.Json
open Foundation

/-- A `cJSON` node without its sibling links. A number keeps both of its fields, since
`cJSON_CreateNumber` and the parser do not set them alike. -/
inductive CJson where
  | null
  | bool (b : Bool)
  | number (valueint : ℤ) (valuedouble : ℚ)
  | string (valuestring : Bytes)
  | array (items : List CJson)
  | object (members : List (Bytes × CJson))

namespace CJson

def tolower (c : UInt8) : UInt8 := if 65 ≤ c ∧ c ≤ 90 then c + 32 else c

/-- `cJSON_strcasecmp(s1, s2) == 0` -/
def sameName (s1 s2 : Bytes) : Bool := s1.map tolower = s2.map tolower

/-- `cJSON_CreateNumber`; the argument is a `double`. -/
def createNumber (num : ℚ) : CJson := number (Binary64.toInt64 (Binary64.add num (1 / 2))) num

/-- The children of an array have no name, so that a lookup in one finds nothing. -/
def getObjectItem (node : CJson) (name : Bytes) : Option CJson :=
  match node with
  | object members => (members.find? fun m => sameName m.1 name).map Prod.snd
  | _ => none

def isArray : CJson → Bool
  | array _ => true
  | _ => false

/-- `cJSON_GetArraySize` and `cJSON_GetArrayItem` together: the children as a list. -/
def arrayItems : CJson → List CJson
  | array items => items
  | object members => members.map Prod.snd
  | _ => []

def addItemToArray (node item : CJson) : CJson :=
  match node with
  | array items => array (items ++ [item])
  | node => node

def addItemToObject (node : CJson) (name : Bytes) (item : CJson) : CJson :=
  match node with
  | object members => object (members ++ [(name, item)])
  | node => node

/-- `cJSON_ReplaceItemInObject`: the first member of that name, whatever its case, is
exchanged and takes the spelling of the argument. -/
def replaceMember (name : Bytes) (item : CJson) : List (Bytes × CJson) → List (Bytes × CJson)
  | [] => []
  | m :: members =>
    if sameName m.1 name then (name, item) :: members
    else m :: replaceMember name item members

def replaceItemInObject (node : CJson) (name : Bytes) (item : CJson) : CJson :=
  match node with
  | object members => object (replaceMember name item members)
  | node => node

/-- The string of a member, when there is one and it is a string. -/
def stringField (node : CJson) (name : Bytes) : Option Bytes :=
  match node.getObjectItem name with
  | some (string s) => some s
  | _ => none

/-- `field->valueint` of a member, when there is one and it is a number. -/
def intField (node : CJson) (name : Bytes) : Option ℤ :=
  match node.getObjectItem name with
  | some (number valueint _) => some valueint
  | _ => none

/-- `cJSONxtra_tryGetStr` on an output that starts as `NULL`. -/
def tryGetStr (root : CJson) (fieldName : Bytes) : Option Bytes := root.stringField fieldName

/-- `cJSONxtra_tryGetUnsignedInt`, `cJSONxtra_tryGetInt` and `cJSONxtra_tryGetInt64`: the
64-bit `valueint` is converted to the width of the output, which otherwise keeps `out`. -/
def tryGetBits (w : ℕ) (root : CJson) (fieldName : Bytes) (out : BitVec w) : BitVec w :=
  match root.intField fieldName with
  | some valueint => BitVec.ofInt w valueint
  | none => out

def tryGetUnsignedInt (root : CJson) (fieldName : Bytes) (out : BitVec 32) : BitVec 32 :=
  tryGetBits 32 root fieldName out

def tryGetInt (root : CJson) (fieldName : Bytes) (out : BitVec 32) : BitVec 32 :=
  tryGetBits 32 root fieldName out

def tryGetInt64 (root : CJson) (fieldName : Bytes) (out : BitVec 64) : BitVec 64 :=
  tryGetBits 64 root fieldName out

theorem sameName_refl (s : Bytes) : sameName s s = true := by simp [sameName]

theorem getObjectItem_addItem {members : List (Bytes × CJson)} {name name' : Bytes} {item : CJson} :
    (addItemToObject (object members) name item).getObjectItem name' =
      ((object members).getObjectItem name').or
        (if sameName name name' then some item else none) := by
  simp only [addItemToObject, getObjectItem, List.find?_append, Option.map_or]
  congr 1
  by_cases h : sameName name name' <;> simp [h]

section Replace
variable {members : List (Bytes × CJson)} {name name' : Bytes} {item : CJson}

/-- A replacement is not seen under another name. -/
theorem getObjectItem_replace_other (h : sameName name name' = false) :
    (replaceItemInObject (object members) name item).getObjectItem name' =
      (object members).getObjectItem name' := by
  simp only [replaceItemInObject, getObjectItem]
  congr 1
  induction members with
  | nil => rfl
  | cons m members ih =>
    by_cases hm : sameName m.1 name = true
    · have hm' : sameName m.1 name' = false := by
        simp only [sameName, decide_eq_true_eq, decide_eq_false_iff_not] at hm h ⊢
        rwa [hm]
      simp [replaceMember, hm, hm', h]
    · simp only [replaceMember, if_neg hm, List.find?_cons]
      cases sameName m.1 name' <;> simp [ih]

theorem getObjectItem_replace_same (h : ((object members).getObjectItem name).isSome) :
    (replaceItemInObject (object members) name item).getObjectItem name = some item := by
  simp only [replaceItemInObject, getObjectItem] at h ⊢
  induction members with
  | nil => simp at h
  | cons m members ih =>
    by_cases hm : sameName m.1 name = true
    · simp [replaceMember, hm, sameName_refl]
    · have hfind : (members.find? fun m => sameName m.1 name).isSome := by simpa [hm] using h
      simpa [replaceMember, hm] using ih (by simpa using hfind)

end Replace

end CJson
end V2IHub.Json
