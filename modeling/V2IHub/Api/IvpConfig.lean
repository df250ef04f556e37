import V2IHub.Api.IvpError

/-! Collections of configuration items: JSON arrays of objects with a key, a value and a
default. A result `none` is a failed assertion. -/
namespace V2IHub.Api
open Foundation Json

def IVP_CONFIG_FIELD_KEY : Bytes := cstr "key"
def IVP_CONFIG_FIELD_VALUE : Bytes := cstr "value"
def IVP_CONFIG_FIELD_DEFAULT : Bytes := cstr "default"
def IVP_CONFIG_FIELD_DESCRIPTION : Bytes := cstr "description"

structure IvpConfigItem where
  key : Option Bytes
  value : Option Bytes
  defaultValue : Option Bytes
  description : Option Bytes
deriving DecidableEq

namespace IvpConfig

def createMsg (now : BitVec 64) (collection : Option CJson) : IvpMessage :=
  IvpMessage.create now (some IVPMSG_TYPE_APIRESV_CONFIG) none (some IVP_ENCODING_JSON) 0 collection

def isConfigMsg (msg : IvpMessage) : Bool := msg.hasType IVPMSG_TYPE_APIRESV_CONFIG

/-- A field that may be missing but not of another type than a string. -/
def wrongType (item : CJson) (name : Bytes) : Bool :=
  (item.getObjectItem name).isSome && (item.stringField name).isNone

/-- The loop of `ivpConfig_validate`; `checked` are the items already seen. -/
def validateItems (checked : List CJson) : List CJson → IvpError
  | [] => IVP_ERROR_INITIALIZER
  | item :: items =>
    match item.stringField IVP_CONFIG_FIELD_KEY with
    | none => IvpError.createError .fatal .configMissingKey 0
    | some key =>
      if (item.stringField IVP_CONFIG_FIELD_DEFAULT).isNone then
        IvpError.createError .fatal .configMissingDefault 0
      else if wrongType item IVP_CONFIG_FIELD_DESCRIPTION then
        IvpError.createError .fatal .configFormat 0
      else if checked.any fun c => c.stringField IVP_CONFIG_FIELD_KEY = some key then
        IvpError.createError .fatal .configDuplicateKey 0
      else validateItems (checked ++ [item]) items

/-- `ivpConfig_validate` -/
def validate (collection : Option CJson) : IvpError :=
  match collection with
  | none => IVP_ERROR_INITIALIZER
  | some (.array items) => validateItems [] items
  | some _ => IvpError.createError .fatal .configFormat 0

/-- `ivpConfig_getItemCount` and the items it counts. -/
def getItems (collection : Option CJson) : Option (List CJson) :=
  match collection with
  | none => some []
  | some (.array items) => some items
  | some _ => none

/-- The body of `ivpConfig_getItem`. -/
def getItem (item : CJson) : IvpConfigItem where
  key := item.stringField IVP_CONFIG_FIELD_KEY
  value := item.stringField IVP_CONFIG_FIELD_VALUE
  defaultValue := item.stringField IVP_CONFIG_FIELD_DEFAULT
  description := item.stringField IVP_CONFIG_FIELD_DESCRIPTION

def itemObject (key : Bytes) (value defaultValue : Option Bytes) : CJson :=
  let item := CJson.object []
  let item := item.addItemToObject IVP_CONFIG_FIELD_KEY (.string key)
  let item := item.addOptional IVP_CONFIG_FIELD_VALUE (value.map CJson.string)
  item.addOptional IVP_CONFIG_FIELD_DEFAULT (defaultValue.map CJson.string)

/-- `ivpConfig_addItemToCollection` -/
def addItemToCollection (collection : Option CJson) (key : Bytes)
    (value defaultValue : Option Bytes) : Option CJson :=
  match collection.getD (.array []) with
  | .array items =>
    if value.isSome || defaultValue.isSome then
      some (.array (items ++ [itemObject key value defaultValue]))
    else some (.array items)
  | _ => none

/-- What `ivpConfig_updateValueInCollection` does to the item with the key. -/
def updateItem (item : CJson) (value : Bytes) : CJson :=
  match item.getObjectItem IVP_CONFIG_FIELD_VALUE with
  | none => item.addItemToObject IVP_CONFIG_FIELD_VALUE (.string value)
  | some (.string old) =>
    if old = value then item else item.replaceItemInObject IVP_CONFIG_FIELD_VALUE (.string value)
  | some _ => item.replaceItemInObject IVP_CONFIG_FIELD_VALUE (.string value)

/-- The loop of `ivpConfig_updateValueInCollection`, which ends at the first item with the
key. The function returns 1 in any case. -/
def updateItems (key value : Bytes) : List CJson → Option (List CJson)
  | [] => some []
  | item :: items =>
    match item.stringField IVP_CONFIG_FIELD_KEY with
    | none => none
    | some k =>
      if key = k then some (updateItem item value :: items)
      else (updateItems key value items).map (item :: ·)

def updateValueInCollection (collection : Option CJson) (key value : Bytes) :
    Option (Option CJson) :=
  match collection with
  | none => some none
  | some (.array items) => (updateItems key value items).map fun items => some (.array items)
  | some _ => none

/-- The value that `ivpConfig_updateValueInCollection` returns for the items of an array. Only
the two branches that write a value have a `return` of their own; the one that finds the value
already there breaks out of the loop. -/
def updateItemsReturn (key value : Bytes) : List CJson → Option ℕ
  | [] => some 1
  | item :: items =>
    match item.stringField IVP_CONFIG_FIELD_KEY with
    | none => none
    | some k =>
      if key = k then
        match item.getObjectItem IVP_CONFIG_FIELD_VALUE with
        | none => some 1
        | some (.string old) =>
          -- the old value is kept, and `break` leads to the `return` after the loop
          if old = value then some 1 else some 1
        | some _ => some 1
      else updateItemsReturn key value items

def updateValueReturn (collection : Option CJson) (key value : Bytes) : Option ℕ :=
  match collection with
  | none => some 1
  | some (.array items) => updateItemsReturn key value items
  | some _ => none

/-- The value of an item, or its default. -/
def itemValue (item : CJson) : Option (Option Bytes) :=
  match item.getObjectItem IVP_CONFIG_FIELD_VALUE with
  | some (.string value) => some (some value)
  | some _ => none
  | none =>
    match item.stringField IVP_CONFIG_FIELD_DEFAULT with
    | some value => some (some value)
    | none => none

/-- The loop of `ivpConfig_getCopyOfValueFromCollection`. -/
def findValue (key : Bytes) : List CJson → Option (Option Bytes)
  | [] => some none
  | item :: items =>
    match item.stringField IVP_CONFIG_FIELD_KEY with
    | none => none
    | some k => if k ≠ key then findValue key items else itemValue item

def getCopyOfValueFromCollection (collection : CJson) (key : Bytes) : Option (Option Bytes) :=
  match collection with
  | .array items => findValue key items
  | _ => none

section Validation
variable {checked items : List CJson} {item : CJson}

/-- One iteration of the loop of `ivpConfig_validate` without an error. -/
theorem validateItems_cons (h : (validateItems checked (item :: items)).isNone = true) :
    ∃ key, item.stringField IVP_CONFIG_FIELD_KEY = some key ∧
      (item.stringField IVP_CONFIG_FIELD_DEFAULT).isSome ∧
      (∀ c ∈ checked, c.stringField IVP_CONFIG_FIELD_KEY ≠ some key) ∧
      (validateItems (checked ++ [item]) items).isNone = true := by
  rw [validateItems] at h
  cases hkey : item.stringField IVP_CONFIG_FIELD_KEY with
  | none => simp [hkey] at h
  | some key =>
    simp only [hkey] at h
    split_ifs at h with hdefault hdescription hduplicate <;>
      try exact absurd ((IvpError.createError_isNone _ _ _).mp h) (by decide)
    refine ⟨key, rfl, ?_, ?_, h⟩
    · exact Option.isNone_eq_false_iff.mp (Bool.not_eq_true _ ▸ hdefault)
    · simpa using hduplicate

theorem validateItems_fields (h : (validateItems checked items).isNone = true) :
    ∀ json ∈ items, (getItem json).key.isSome ∧ (getItem json).defaultValue.isSome := by
  induction items generalizing checked with
  | nil => simp
  | cons item items ih =>
    obtain ⟨key, hkey, hdefault, -, h⟩ := validateItems_cons h
    intro json hjson
    rcases List.mem_cons.mp hjson with rfl | hjson
    · exact ⟨by simp [getItem, hkey], hdefault⟩
    · exact ih h json hjson

/-- A collection without errors is an array, or not there. -/
theorem validate_getItems {collection : Option CJson} (h : (validate collection).isNone = true) :
    ∃ items, getItems collection = some items ∧ (validateItems [] items).isNone = true := by
  cases collection with
  | none => exact ⟨[], rfl, rfl⟩
  | some json =>
    cases json with
    | array items => exact ⟨items, rfl, h⟩
    | _ => simp [validate] at h

end Validation

section Values
variable {items : List CJson} {item : CJson} {key value : Bytes}

theorem exists_object {name s : Bytes} (h : item.stringField name = some s) :
    ∃ members, item = .object members := by
  cases item with
  | object members => exact ⟨members, rfl⟩
  | _ => simp [CJson.stringField, CJson.getObjectItem] at h

theorem updateItem_key (h : item.stringField IVP_CONFIG_FIELD_KEY = some key) :
    (updateItem item value).stringField IVP_CONFIG_FIELD_KEY = some key := by
  obtain ⟨members, rfl⟩ := exists_object h
  have hnames : CJson.sameName IVP_CONFIG_FIELD_VALUE IVP_CONFIG_FIELD_KEY = false := by decide
  have hreplace : ((CJson.object members).replaceItemInObject IVP_CONFIG_FIELD_VALUE
      (.string value)).stringField IVP_CONFIG_FIELD_KEY = some key := by
    rwa [CJson.stringField, CJson.getObjectItem_replace_other hnames]
  unfold updateItem
  split
  · simpa [CJson.stringField, CJson.getObjectItem_addItem, hnames] using h
  · split_ifs
    · exact h
    · exact hreplace
  · exact hreplace

theorem updateItem_value (h : item.stringField IVP_CONFIG_FIELD_KEY = some key) :
    itemValue (updateItem item value) = some (some value) := by
  obtain ⟨members, rfl⟩ := exists_object h
  have hvalue : (updateItem (.object members) value).getObjectItem IVP_CONFIG_FIELD_VALUE =
      some (.string value) := by
    unfold updateItem
    split
    · next hnone => simp [CJson.getObjectItem_addItem, hnone, CJson.sameName_refl]
    · next old hold =>
      split_ifs with heq
      · rw [hold, heq]
      · exact CJson.getObjectItem_replace_same (by simp [hold])
    · next other hother => exact CJson.getObjectItem_replace_same (by simp [hother])
  simp [itemValue, hvalue]

/-- Every item has a key. -/
def Keyed (items : List CJson) : Prop :=
  ∀ item ∈ items, (item.stringField IVP_CONFIG_FIELD_KEY).isSome

def keys (items : List CJson) : List Bytes :=
  items.filterMap fun item => item.stringField IVP_CONFIG_FIELD_KEY

/-- An update changes the value of its key, if the collection has it, and nothing else. -/
theorem updateItems_spec (key value : Bytes) (h : Keyed items) :
    ∃ items', updateItems key value items = some items' ∧ Keyed items' ∧ keys items' = keys items ∧
      ∀ key', findValue key' items' =
        if key' = key ∧ key ∈ keys items then some (some value) else findValue key' items := by
  induction items with
  | nil => exact ⟨[], rfl, h, rfl, by simp [keys]⟩
  | cons item items ih =>
    have hitems : Keyed items := fun i hi => h i (by simp [hi])
    obtain ⟨k, hk⟩ := Option.isSome_iff_exists.mp (h item (by simp))
    by_cases heq : key = k
    · subst heq
      have hkey : (updateItem item value).stringField IVP_CONFIG_FIELD_KEY = some key :=
        updateItem_key hk
      refine ⟨updateItem item value :: items, by simp [updateItems, hk], ?_, ?_, fun key' => ?_⟩
      · intro i hi
        rcases List.mem_cons.mp hi with rfl | hi
        · simp [hkey]
        · exact hitems i hi
      · simp [keys, hk, hkey]
      · by_cases hne : key' = key
        · simp [findValue, hkey, hne, updateItem_value hk, keys, hk]
        · simp [findValue, hkey, hk, hne, Ne.symm hne]
    · obtain ⟨items', hupdate, hkeyed, hkeys, hfind⟩ := ih hitems
      refine ⟨item :: items', by simp [updateItems, hk, heq, hupdate], ?_, ?_, fun key' => ?_⟩
      · intro i hi
        rcases List.mem_cons.mp hi with rfl | hi
        · simp [hk]
        · exact hkeyed i hi
      · simpa [keys, hk] using hkeys
      · have hmem : key ∈ keys (item :: items) ↔ key ∈ keys items := by simp [keys, hk, heq]
        by_cases hne : k = key'
        · have hkey' : key' ≠ key := fun he => heq (he ▸ hne).symm
          simp [findValue, hk, hne, hkey']
        · simp [findValue, hk, hne, hfind, hmem]

/-- The return value does not depend on what the collection held. -/
theorem updateItemsReturn_eq (key value : Bytes) (h : Keyed items) :
    updateItemsReturn key value items = some 1 := by
  induction items with
  | nil => rfl
  | cons item items ih =>
    have hitems : Keyed items := fun i hi => h i (by simp [hi])
    obtain ⟨k, hk⟩ := Option.isSome_iff_exists.mp (h item (by simp))
    simp only [updateItemsReturn, hk]
    split_ifs
    · split
      · rfl
      · rw [ite_self]
      · rfl
    · exact ih hitems

end Values

section Reporting

/-- An update from `before` to `after` gives `key` the value, keeps every other effective value
and is reported if and only if the effective value of `key` changed. -/
structure Updates (key value : Bytes) (before after : CJson) (returned : ℕ) : Prop where
  value : getCopyOfValueFromCollection after key = some (some value)
  others : ∀ other ≠ key,
    getCopyOfValueFromCollection after other = getCopyOfValueFromCollection before other
  reported : returned ≠ 0 ↔
    getCopyOfValueFromCollection after key ≠ getCopyOfValueFromCollection before key

/-- An update that reports 1 must have met another value, or none. -/
theorem Updates.before_ne {key value : Bytes} {before after : CJson}
    (h : Updates key value before after 1) :
    getCopyOfValueFromCollection before key ≠ some (some value) := by
  have hchanged := h.reported.mp one_ne_zero
  rw [h.value] at hchanged
  exact hchanged.symm

/-- The values are right after every update of a key of the collection. The report is right
unless the key had that value before. -/
theorem updateValueInCollection_updates_iff (items : List CJson) (key value : Bytes)
    (hkeyed : Keyed items) (hkey : key ∈ keys items) :
    (∃ after returned,
      updateValueInCollection (some (.array items)) key value = some (some after) ∧
      updateValueReturn (some (.array items)) key value = some returned ∧
      Updates key value (.array items) after returned) ↔
      getCopyOfValueFromCollection (.array items) key ≠ some (some value) := by
  obtain ⟨items', hupdate, -, -, hfind⟩ := updateItems_spec key value hkeyed
  have hvalue : findValue key items' = some (some value) := by
    rw [hfind, if_pos ⟨rfl, hkey⟩]
  have hreturn := updateItemsReturn_eq key value hkeyed
  constructor
  · rintro ⟨after, returned, -, hreturned, hupdates⟩
    obtain rfl : 1 = returned := Option.some.inj (hreturn.symm.trans hreturned)
    exact hupdates.before_ne
  · intro hdiffers
    refine ⟨.array items', 1, by simp [updateValueInCollection, hupdate], hreturn, ?_⟩
    constructor
    · exact hvalue
    · intro other hother
      exact (hfind other).trans (if_neg fun h => hother h.1)
    · simpa [getCopyOfValueFromCollection, hvalue] using hdiffers.symm

/-- The item of a manifest that no one has set yet. -/
def sampleItem : CJson := itemObject (cstr "Port") none (some (cstr "20152"))

theorem updateValueInCollection_updates_iff_sampleItem :
    ∃ after returned,
      updateValueInCollection (some (.array [sampleItem])) (cstr "Port") (cstr "26789") =
        some (some after) ∧
      updateValueReturn (some (.array [sampleItem])) (cstr "Port") (cstr "26789") =
        some returned ∧
      Updates (cstr "Port") (cstr "26789") (.array [sampleItem]) after returned :=
  (updateValueInCollection_updates_iff [sampleItem] (cstr "Port") (cstr "26789")
    (by simp only [Keyed]; decide) (by decide)).mpr (by decide)

/-- The default sent as an explicit value is reported as a change. -/
theorem not_updates_sampleItem_default :
    ¬ ∃ after returned,
      updateValueInCollection (some (.array [sampleItem])) (cstr "Port") (cstr "20152") =
        some (some after) ∧
      updateValueReturn (some (.array [sampleItem])) (cstr "Port") (cstr "20152") =
        some returned ∧
      Updates (cstr "Port") (cstr "20152") (.array [sampleItem]) after returned := by
  rintro ⟨after, returned, -, hreturned, hupdates⟩
  have hreturn : updateItemsReturn (cstr "Port") (cstr "20152") [sampleItem] = some 1 :=
    updateItemsReturn_eq _ _ (by simp only [Keyed]; decide)
  obtain rfl : 1 = returned := Option.some.inj (hreturn.symm.trans hreturned)
  exact hupdates.before_ne (by decide)

end Reporting

/-- An item that the core sends, as the plugin reads it. -/
theorem getItem_itemObject (key value : Bytes) :
    getItem (itemObject key (some value) none).reparsed =
      ⟨some (cstringAt key), some (cstringAt value), none, none⟩ := by
  let fields : List Field := [(IVP_CONFIG_FIELD_KEY, some (.string key)),
    (IVP_CONFIG_FIELD_VALUE, some (.string value)), (IVP_CONFIG_FIELD_DEFAULT, none),
    (IVP_CONFIG_FIELD_DESCRIPTION, none)]
  have hfields : itemObject key (some value) none = ofFields fields := rfl
  have hnames : DistinctNames ((fields.map Field.reparsed).map Prod.fst) := by
    simp only [fields, List.map_cons, List.map_nil, Field.reparsed]
    decide
  have hlookup : ∀ name v, (name, v) ∈ fields → cstringAt name = name →
      (itemObject key (some value) none).reparsed.getObjectItem name = v.map CJson.reparsed :=
    fun name v hmem hname => hfields ▸ reparsed_lookup hnames hmem hname
  have hkey := hlookup IVP_CONFIG_FIELD_KEY (some (.string key)) (by simp [fields]) (by decide)
  have hvalue := hlookup IVP_CONFIG_FIELD_VALUE (some (.string value)) (by simp [fields]) (by decide)
  have hdefault := hlookup IVP_CONFIG_FIELD_DEFAULT none (by simp [fields]) (by decide)
  have hdescription := hlookup IVP_CONFIG_FIELD_DESCRIPTION none (by simp [fields]) (by decide)
  simp [getItem, CJson.stringField, hkey, hvalue, hdefault, hdescription, CJson.reparsed]

end IvpConfig
end V2IHub.Api
