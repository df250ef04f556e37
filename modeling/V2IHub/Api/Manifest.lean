import V2IHub.Api.IvpRegister

/-! Which manifests `ivpRegister_validateManifest` accepts. -/
namespace V2IHub.Api
open Foundation Json

/-- A member that is not there, or a string. -/
def AbsentOrString (item : CJson) (name : Bytes) : Prop :=
  item.getObjectItem name = none ∨ ∃ s, item.stringField name = some s

/-- An absent collection, or an array of objects that are valid and differ pairwise in `key`. -/
def ValidCollection {κ : Type} (Valid : CJson → Prop) (key : CJson → κ) :
    Option CJson → Prop
  | none => True
  | some collection =>
    ∃ items, collection = .array items ∧
      (∀ item ∈ items, (∃ members, item = .object members) ∧ Valid item) ∧
      items.Pairwise fun a b => key a ≠ key b

/-- A configuration item has a key and a default. -/
structure ValidConfigItem (item : CJson) : Prop where
  key : ∃ s, item.stringField (cstr "key") = some s
  default : ∃ s, item.stringField (cstr "default") = some s
  description : AbsentOrString item (cstr "description")

structure ValidMessageType (item : CJson) : Prop where
  type : ∃ s, item.stringField (cstr "type") = some s
  subtype : ∃ s, item.stringField (cstr "subtype") = some s
  description : AbsentOrString item (cstr "description")

structure ValidManifest (manifest : CJson) : Prop where
  name : ∃ s, manifest.stringField (cstr "name") = some s ∧ s ≠ []
  configuration : ValidCollection ValidConfigItem (fun item => item.stringField (cstr "key"))
    (manifest.getObjectItem (cstr "configuration"))
  messageTypes : ValidCollection ValidMessageType
    (fun item => (item.stringField (cstr "type"), item.stringField (cstr "subtype")))
    (manifest.getObjectItem (cstr "messageTypes"))

/-- The configuration items and message types of the manifest, taken by their index, have what a
registration reads of them. -/
structure Extractable (manifest : IvpManifest) : Prop where
  configuration : ∃ items, IvpConfig.getItems manifest.configuration = some items ∧
    ∀ i (hi : i < items.length), (IvpConfig.getItem (items.get ⟨i, hi⟩)).key.isSome ∧
      (IvpConfig.getItem (items.get ⟨i, hi⟩)).defaultValue.isSome
  messageTypes : ∃ entries, IvpMsgType.getEntries manifest.messageTypes = some entries ∧
    ∀ i (hi : i < entries.length), (IvpMsgType.getEntry (entries.get ⟨i, hi⟩)).type.isSome ∧
      (IvpMsgType.getEntry (entries.get ⟨i, hi⟩)).subtype.isSome

section Loop
variable {κ : Type} {key : CJson → κ} {Valid : CJson → Prop}
  {loop : List CJson → List CJson → IvpError}

/-- A loop that checks each item, and against all the items before it. -/
theorem loop_isNone_iff (hnil : ∀ checked, (loop checked []).isNone = true)
    (hcons : ∀ checked item items, (loop checked (item :: items)).isNone = true ↔
      Valid item ∧ (∀ c ∈ checked, key c ≠ key item) ∧
        (loop (checked ++ [item]) items).isNone = true) (checked items : List CJson) :
    (loop checked items).isNone = true ↔
      (∀ item ∈ items, Valid item) ∧ (∀ c ∈ checked, ∀ item ∈ items, key c ≠ key item) ∧
        items.Pairwise fun a b => key a ≠ key b := by
  induction items generalizing checked with
  | nil => simp [hnil]
  | cons item items ih =>
    rw [hcons, ih, List.pairwise_cons]
    simp only [List.mem_append, List.mem_singleton, List.forall_mem_cons, or_imp, forall_and,
      forall_eq]
    tauto

/-- Such a loop over a whole array accepts the valid collections. -/
theorem loop_isNone_iff_validCollection (hnil : ∀ checked, (loop checked []).isNone = true)
    (hcons : ∀ checked item items, (loop checked (item :: items)).isNone = true ↔
      Valid item ∧ (∀ c ∈ checked, key c ≠ key item) ∧
        (loop (checked ++ [item]) items).isNone = true)
    (hobject : ∀ item, Valid item → ∃ members, item = .object members) (items : List CJson) :
    (loop [] items).isNone = true ↔ ValidCollection Valid key (some (.array items)) := by
  rw [loop_isNone_iff hnil hcons]
  constructor
  · rintro ⟨hvalid, -, hpairwise⟩
    exact ⟨items, rfl, fun item hitem => ⟨hobject item (hvalid item hitem), hvalid item hitem⟩,
      hpairwise⟩
  · rintro ⟨items', heq, hvalid, hpairwise⟩
    obtain rfl : items = items' := by simpa using heq
    exact ⟨fun item hitem => (hvalid item hitem).2, by simp, hpairwise⟩

theorem isObject_of_stringField {item : CJson} {name : Bytes}
    (h : ∃ s, item.stringField name = some s) : ∃ members, item = .object members := by
  obtain ⟨s, hs⟩ := h
  exact IvpConfig.exists_object hs

theorem not_wrongType_iff {item : CJson} {name : Bytes} :
    ¬ IvpConfig.wrongType item name = true ↔ AbsentOrString item name := by
  unfold IvpConfig.wrongType AbsentOrString
  cases hitem : item.getObjectItem name <;> cases hfield : item.stringField name <;> simp

end Loop

theorem createError_ne_none {level : IvpLogLevel} {number : IvpErrorNumber} {code : BitVec 32}
    (h : number ≠ .none) : ¬ (IvpError.createError level number code).isNone = true :=
  fun hnone => h ((IvpError.createError_isNone _ _ _).mp hnone)

/-- One iteration of the loop of `ivpConfig_validate`. -/
theorem validateItems_cons_iff (checked : List CJson) (item : CJson) (items : List CJson) :
    (IvpConfig.validateItems checked (item :: items)).isNone = true ↔
      ValidConfigItem item ∧
        (∀ c ∈ checked, c.stringField (cstr "key") ≠ item.stringField (cstr "key")) ∧
        (IvpConfig.validateItems (checked ++ [item]) items).isNone = true := by
  constructor
  · intro h
    obtain ⟨key, hkey, hdefault, hother, hrest⟩ := IvpConfig.validateItems_cons h
    have hdescription : ¬ IvpConfig.wrongType item IVP_CONFIG_FIELD_DESCRIPTION = true := by
      intro hwrong
      rw [IvpConfig.validateItems, hkey] at h
      simp only [Option.isNone_eq_false_iff.mpr hdefault, hwrong, ↓reduceIte] at h
      exact createError_ne_none (by decide) h
    refine ⟨⟨⟨key, hkey⟩, Option.isSome_iff_exists.mp hdefault, not_wrongType_iff.mp hdescription⟩,
      fun c hc => ?_, hrest⟩
    exact hkey ▸ hother c hc
  · rintro ⟨⟨⟨key, hkey⟩, ⟨default, hdefault⟩, hdescription⟩, hother, hrest⟩
    have hwrong := not_wrongType_iff.mpr hdescription
    have hduplicate :
        ¬ (checked.any fun c => c.stringField IVP_CONFIG_FIELD_KEY = some key) = true := by
      rw [hkey] at hother
      change ∀ c ∈ checked, c.stringField IVP_CONFIG_FIELD_KEY ≠ some key at hother
      simpa using hother
    change item.stringField IVP_CONFIG_FIELD_KEY = _ at hkey
    change item.stringField IVP_CONFIG_FIELD_DEFAULT = _ at hdefault
    change ¬ IvpConfig.wrongType item IVP_CONFIG_FIELD_DESCRIPTION = true at hwrong
    rw [IvpConfig.validateItems, hkey]
    simp only [hdefault, Option.isNone_some, Bool.false_eq_true, if_neg hwrong, if_neg hduplicate,
      ↓reduceIte]
    exact hrest

/-- One iteration of the loop of `ivpMsgType_validateCollection`. -/
theorem validateEntries_cons_iff (checked : List CJson) (item : CJson) (items : List CJson) :
    (IvpMsgType.validateEntries checked (item :: items)).isNone = true ↔
      ValidMessageType item ∧
        (∀ c ∈ checked, (c.stringField (cstr "type"), c.stringField (cstr "subtype")) ≠
          (item.stringField (cstr "type"), item.stringField (cstr "subtype"))) ∧
        (IvpMsgType.validateEntries (checked ++ [item]) items).isNone = true := by
  change _ ↔ _ ∧ (∀ c ∈ checked, (c.stringField IVP_IVPMSGTYPE_FIELD_TYPE,
    c.stringField IVP_IVPMSGTYPE_FIELD_SUBTYPE) ≠ (item.stringField IVP_IVPMSGTYPE_FIELD_TYPE,
      item.stringField IVP_IVPMSGTYPE_FIELD_SUBTYPE)) ∧ _
  rw [IvpMsgType.validateEntries]
  cases htype : item.stringField IVP_IVPMSGTYPE_FIELD_TYPE with
  | none =>
    refine iff_of_false (createError_ne_none (by decide)) ?_
    rintro ⟨⟨⟨type, h⟩, -, -⟩, -⟩
    exact absurd (h.symm.trans htype) (by simp)
  | some type =>
    cases hsubtype : item.stringField IVP_IVPMSGTYPE_FIELD_SUBTYPE with
    | none =>
      refine iff_of_false (createError_ne_none (by decide)) ?_
      rintro ⟨⟨-, ⟨subtype, h⟩, -⟩, -⟩
      exact absurd (h.symm.trans hsubtype) (by simp)
    | some subtype =>
      by_cases hwrong : IvpConfig.wrongType item IVP_IVPMSGTYPE_FIELD_DESCRIPTION = true
      · simp only [hwrong, ↓reduceIte]
        refine iff_of_false (createError_ne_none (by decide)) ?_
        rintro ⟨⟨-, -, h⟩, -⟩
        exact not_wrongType_iff.mpr h hwrong
      · have hvalid : ValidMessageType item :=
          ⟨⟨type, htype⟩, ⟨subtype, hsubtype⟩, not_wrongType_iff.mp hwrong⟩
        simp only [if_neg hwrong, hvalid, true_and]
        split_ifs with hduplicate
        · refine iff_of_false (createError_ne_none (by decide)) ?_
          rintro ⟨h, -⟩
          simp only [List.any_eq_true, Bool.and_eq_true, decide_eq_true_eq] at hduplicate
          obtain ⟨c, hc, hsame⟩ := hduplicate
          exact h c hc (Prod.ext hsame.1 hsame.2)
        · refine (and_iff_right ?_).symm
          intro c hc hsame
          apply hduplicate
          simp only [Prod.mk.injEq] at hsame
          simp only [List.any_eq_true, Bool.and_eq_true, decide_eq_true_eq]
          exact ⟨c, hc, hsame⟩

theorem validate_iff (collection : Option CJson) :
    (IvpConfig.validate collection).isNone = true ↔
      ValidCollection ValidConfigItem (fun item => item.stringField (cstr "key")) collection := by
  cases collection with
  | none => exact iff_of_true rfl trivial
  | some json =>
    cases json with
    | array items =>
      exact loop_isNone_iff_validCollection (fun _ => rfl) validateItems_cons_iff
        (fun item h => isObject_of_stringField h.key) items
    | _ =>
      refine iff_of_false (createError_ne_none (by decide)) ?_
      rintro ⟨items, heq, -⟩
      simp at heq

theorem validateCollection_iff (collection : Option CJson) :
    (IvpMsgType.validateCollection collection).isNone = true ↔
      ValidCollection ValidMessageType
        (fun item => (item.stringField (cstr "type"), item.stringField (cstr "subtype")))
        collection := by
  cases collection with
  | none => exact iff_of_true rfl trivial
  | some json =>
    cases json with
    | array items =>
      exact loop_isNone_iff_validCollection (fun _ => rfl) validateEntries_cons_iff
        (fun item h => isObject_of_stringField h.type) items
    | _ =>
      refine iff_of_false (createError_ne_none (by decide)) ?_
      rintro ⟨items, heq, -⟩
      simp at heq

theorem validateManifest_isNone_iff (manifest : CJson) :
    (IvpRegister.validateManifest (IvpRegister.getManifestFromJson manifest)).isNone = true ↔
      ValidManifest manifest := by
  constructor
  · intro h
    obtain ⟨hname, hconfig, htypes⟩ := IvpRegister.validateManifest_isNone h
    exact ⟨hname, (validate_iff _).mp hconfig, (validateCollection_iff _).mp htypes⟩
  · rintro ⟨⟨name, hname, hne⟩, hconfig, htypes⟩
    have hgiven : ¬ ((IvpRegister.getManifestFromJson manifest).name = none ∨
        (IvpRegister.getManifestFromJson manifest).name = some []) := by
      change ¬ (manifest.stringField (cstr "name") = none ∨
        manifest.stringField (cstr "name") = some [])
      rw [hname]
      simpa using hne
    have hconfig' := (validate_iff _).mpr hconfig
    have htypes' := (validateCollection_iff _).mpr htypes
    change (IvpConfig.validate (IvpRegister.getManifestFromJson manifest).configuration).isNone =
      true at hconfig'
    change (IvpMsgType.validateCollection
      (IvpRegister.getManifestFromJson manifest).messageTypes).isNone = true at htypes'
    unfold IvpRegister.validateManifest
    rw [if_neg hgiven]
    simp only [hconfig', htypes', Bool.not_true, Bool.false_eq_true, ↓reduceIte]
    rfl

theorem extractable_of_isNone {manifest : IvpManifest}
    (h : (IvpRegister.validateManifest manifest).isNone = true) : Extractable manifest := by
  obtain ⟨-, hconfig, htypes⟩ := IvpRegister.validateManifest_isNone h
  obtain ⟨items, hitems, hvalid⟩ := IvpConfig.validate_getItems hconfig
  obtain ⟨entries, hentries, hvalid'⟩ := IvpMsgType.validateCollection_getEntries htypes
  constructor
  · exact ⟨items, hitems, fun i hi => IvpConfig.validateItems_fields hvalid _ (List.get_mem _ _)⟩
  · exact ⟨entries, hentries,
      fun i hi => IvpMsgType.validateEntries_fields hvalid' _ (List.get_mem _ _)⟩

/-- The manifests that are accepted are the valid ones, and a registration reads what is there. -/
theorem validateManifest_iff (manifest : CJson) :
    let accepted :=
      (IvpRegister.validateManifest (IvpRegister.getManifestFromJson manifest)).isNone = true
    (accepted ↔ ValidManifest manifest) ∧
      (accepted → Extractable (IvpRegister.getManifestFromJson manifest)) :=
  ⟨validateManifest_isNone_iff manifest, extractable_of_isNone⟩

end V2IHub.Api
