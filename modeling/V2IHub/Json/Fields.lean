import V2IHub.Json.RoundTrip

/-! Objects built from a table of optional fields, and what a lookup finds in them once they
were printed and parsed. -/
namespace V2IHub.Json
open Foundation

/-- `if (value != NULL) cJSON_AddItemToObject(node, name, value);` -/
def CJson.addOptional (node : CJson) (name : Bytes) (value : Option CJson) : CJson :=
  match value with
  | some item => node.addItemToObject name item
  | none => node

/-- A field of an object under construction. -/
abbrev Field := Bytes × Option CJson

namespace Field

def members (f : Field) : List (Bytes × CJson) := f.2.toList.map fun item => (f.1, item)

def reparsed (f : Field) : Field := (cstringAt f.1, f.2.map CJson.reparsed)

end Field

/-- The object with those fields of the table that are present. -/
def ofFields (fields : List Field) : CJson := .object (fields.flatMap Field.members)

theorem addOptional_ofFields (fields : List Field) (name : Bytes) (value : Option CJson) :
    (ofFields fields).addOptional name value = ofFields (fields ++ [(name, value)]) := by
  cases value with
  | none => simp [CJson.addOptional, ofFields, Field.members]
  | some item => simp [CJson.addOptional, ofFields, Field.members, CJson.addItemToObject]

theorem addItemToObject_ofFields (fields : List Field) (name : Bytes) (item : CJson) :
    (ofFields fields).addItemToObject name item = ofFields (fields ++ [(name, some item)]) :=
  addOptional_ofFields fields name (some item)

theorem reparsed_ofFields (fields : List Field) :
    (ofFields fields).reparsed = ofFields (fields.map Field.reparsed) := by
  rw [ofFields, CJson.reparsed, reparsedMembers_map, ofFields, List.flatMap_map, List.map_flatMap]
  congr 2
  funext f
  cases h : f.2 <;> simp [Field.members, Field.reparsed, h]

/-- No two names of the table are taken for one another. -/
def DistinctNames (names : List Bytes) : Prop :=
  names.Pairwise fun a b => CJson.sameName a b = false

instance (names : List Bytes) : Decidable (DistinctNames names) :=
  inferInstanceAs (Decidable (names.Pairwise _))

theorem sameName_comm (a b : Bytes) : CJson.sameName a b = CJson.sameName b a := by
  simp [CJson.sameName, eq_comm]

theorem getObjectItem_append (a b : List (Bytes × CJson)) (name : Bytes) :
    (CJson.object (a ++ b)).getObjectItem name =
      ((CJson.object a).getObjectItem name).or ((CJson.object b).getObjectItem name) := by
  simp [CJson.getObjectItem, List.find?_append, Option.map_or]

theorem getObjectItem_members (f : Field) (name : Bytes) :
    (CJson.object f.members).getObjectItem name =
      if CJson.sameName f.1 name then f.2 else none := by
  cases hv : f.2 with
  | none => simp [Field.members, CJson.getObjectItem, hv]
  | some item =>
    by_cases h : CJson.sameName f.1 name <;> simp [Field.members, CJson.getObjectItem, h, hv]

theorem ofFields_cons (f : Field) (fields : List Field) (name : Bytes) :
    (ofFields (f :: fields)).getObjectItem name =
      (if CJson.sameName f.1 name then f.2 else none).or
        ((ofFields fields).getObjectItem name) := by
  rw [ofFields, List.flatMap_cons, getObjectItem_append, getObjectItem_members, ofFields]

theorem ofFields_absent {fields : List Field} {name : Bytes}
    (h : ∀ n ∈ fields.map Prod.fst, CJson.sameName n name = false) :
    (ofFields fields).getObjectItem name = none := by
  induction fields with
  | nil => rfl
  | cons f fields ih =>
    rw [ofFields_cons, h f.1 (by simp), ih fun n hn => h n (by simp [hn])]
    simp

/-- A lookup finds the value of the field. -/
theorem ofFields_lookup {fields : List Field} {name : Bytes} {value : Option CJson}
    (hd : DistinctNames (fields.map Prod.fst)) (h : (name, value) ∈ fields) :
    (ofFields fields).getObjectItem name = value := by
  induction fields with
  | nil => simp at h
  | cons f fields ih =>
    obtain ⟨hf, hd⟩ := List.pairwise_cons.mp hd
    rw [ofFields_cons]
    rcases List.mem_cons.mp h with rfl | h
    · rw [CJson.sameName_refl, ofFields_absent fun n hn => by rw [sameName_comm]; exact hf n hn]
      simp
    · rw [hf name (List.mem_map_of_mem h), ih hd h]
      simp

/-- The same after printing and parsing the object. -/
theorem reparsed_lookup {fields : List Field} {name : Bytes} {value : Option CJson}
    (hd : DistinctNames ((fields.map Field.reparsed).map Prod.fst)) (h : (name, value) ∈ fields)
    (hname : cstringAt name = name) :
    (ofFields fields).reparsed.getObjectItem name = value.map CJson.reparsed := by
  have hmem := List.mem_map_of_mem (f := Field.reparsed) h
  rw [Field.reparsed, hname] at hmem
  rw [reparsed_ofFields]
  exact ofFields_lookup hd hmem

end V2IHub.Json
