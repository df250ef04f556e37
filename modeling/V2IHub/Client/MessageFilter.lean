import V2IHub.Core.Exceptions

/-! The filter of a subscription: how a plugin builds it, and what the core makes of it. -/
namespace V2IHub.Api
open Foundation Json

namespace IvpSubscribe

def FILTER_TYPE : Bytes := cstr "type"
def FILTER_SUBTYPE : Bytes := cstr "subtype"
def FILTER_FLAGMASK : Bytes := cstr "flagmask"

/-- The object that is added for one entry. -/
def filterObject (type : Bytes) (subtype : Option Bytes) (flags : BitVec 32) : CJson :=
  let newFilter := CJson.object []
  let newFilter := newFilter.addItemToObject FILTER_TYPE (.string type)
  let newFilter := newFilter.addOptional FILTER_SUBTYPE (subtype.map CJson.string)
  newFilter.addOptional FILTER_FLAGMASK
    (if flags ≠ 0 then some (CJson.createNumber (unsignedDouble flags)) else none)

/-- `ivpSubscribe_addFilterEntryWithFlagMask` -/
def addFilterEntryWithFlagMask (filter : Option CJson) (type subtype : Option Bytes)
    (flags : BitVec 32) : CJson :=
  match filter.getD (.array []) with
  | .array items =>
    match type with
    | some type => .array (items ++ [filterObject type subtype flags])
    | none => .array items
  | other => other

/-- An entry that a plugin sends, as the core reads it. -/
theorem getFilterEntry_filterObject (type : Bytes) (subtype : Option Bytes) (flags : BitVec 32) :
    getFilterEntry (filterObject type subtype flags).reparsed =
      (some (cstringAt type), subtype.map cstringAt, flags) := by
  let fields : List Field := [(FILTER_TYPE, some (.string type)),
    (FILTER_SUBTYPE, subtype.map CJson.string),
    (FILTER_FLAGMASK,
      if flags ≠ 0 then some (CJson.createNumber (unsignedDouble flags)) else none)]
  have hempty : CJson.object [] = ofFields [] := rfl
  have hfields : filterObject type subtype flags = ofFields fields := by
    simp only [filterObject, hempty, addOptional_ofFields, addItemToObject_ofFields,
      List.nil_append, List.cons_append, fields]
  have hnames : DistinctNames ((fields.map Field.reparsed).map Prod.fst) := by
    simp only [fields, List.map_cons, List.map_nil, Field.reparsed]
    decide
  have hlookup : ∀ name v, (name, v) ∈ fields → cstringAt name = name →
      (filterObject type subtype flags).reparsed.getObjectItem name = v.map CJson.reparsed :=
    fun name v hmem hname => hfields ▸ reparsed_lookup hnames hmem hname
  have htype := hlookup FILTER_TYPE (some (.string type)) (by simp [fields]) (by decide)
  have hsubtype := hlookup FILTER_SUBTYPE (subtype.map CJson.string) (by simp [fields]) (by decide)
  have hflags := hlookup FILTER_FLAGMASK
    (if flags ≠ 0 then some (CJson.createNumber (unsignedDouble flags)) else none)
    (by simp [fields]) (by decide)
  unfold getFilterEntry
  congr 1
  · change CJson.stringField _ FILTER_TYPE = _
    simp [CJson.stringField, htype, CJson.reparsed]
  congr 1
  · change CJson.stringField _ FILTER_SUBTYPE = _
    cases subtype <;> simp [CJson.stringField, hsubtype, CJson.reparsed]
  · change CJson.tryGetUnsignedInt _ FILTER_FLAGMASK 0 = _
    rw [CJson.tryGetUnsignedInt, CJson.tryGetBits, CJson.intField, hflags]
    by_cases h0 : flags = 0
    · simp [h0]
    · have hlt : flags.toNat < 2 ^ 53 := flags.isLt.trans (by norm_num)
      rw [if_pos h0, Option.map_some, reparsed_unsigned hlt]
      simp

end IvpSubscribe
end V2IHub.Api

namespace V2IHub.Client
open Foundation Json Api Router V2IHub.Core Program

/-- The arguments of `PluginClient::AddMessageFilter`. -/
structure FilterRequest where
  type : Option Bytes
  subtype : Option Bytes
  flags : BitVec 32
deriving DecidableEq

namespace FilterRequest

/-- What the router gets to see of a request; without a type, nothing. -/
def entry (r : FilterRequest) : Option MessageFilterEntry :=
  r.type.map fun type => ⟨cstringAt type, (r.subtype.map cstringAt).getD [], r.flags⟩

def object (r : FilterRequest) : Option CJson :=
  r.type.map fun type => IvpSubscribe.filterObject type r.subtype r.flags

end FilterRequest

/-- `PluginClient::AddMessageFilter` -/
def addMessageFilter (msgFilter : Option CJson) (r : FilterRequest) : Option CJson :=
  some (IvpSubscribe.addFilterEntryWithFlagMask msgFilter r.type r.subtype r.flags)

/-- `_msgFilter` after these calls. -/
def builtFilter (rs : List FilterRequest) : Option CJson := rs.foldl addMessageFilter none

def requestedEntries (rs : List FilterRequest) : List MessageFilterEntry :=
  rs.filterMap FilterRequest.entry

theorem addMessageFilter_array (items : List CJson) (r : FilterRequest) :
    addMessageFilter (some (.array items)) r = some (.array (items ++ r.object.toList)) := by
  cases htype : r.type <;>
    simp [addMessageFilter, IvpSubscribe.addFilterEntryWithFlagMask, FilterRequest.object, htype]

theorem foldl_addMessageFilter (items : List CJson) (rs : List FilterRequest) :
    rs.foldl addMessageFilter (some (.array items)) =
      some (.array (items ++ rs.filterMap FilterRequest.object)) := by
  induction rs generalizing items with
  | nil => simp
  | cons r rs ih =>
    rw [List.foldl_cons, addMessageFilter_array, ih, List.append_assoc, List.filterMap_cons]
    cases r.object <;> rfl

theorem builtFilter_cons (r : FilterRequest) (rs : List FilterRequest) :
    builtFilter (r :: rs) = some (.array ((r :: rs).filterMap FilterRequest.object)) :=
  foldl_addMessageFilter [] (r :: rs)

theorem builtFilter_concat (rs : List FilterRequest) (r : FilterRequest) :
    addMessageFilter (builtFilter rs) r = builtFilter (rs ++ [r]) := by
  rw [builtFilter, builtFilter, List.foldl_append]
  rfl

/-- The entries that the core registers for the filter. -/
theorem filterEntries_builtFilter (now : BitVec 64) (rs : List FilterRequest) :
    filterEntries (IvpSubscribe.createMsg now (builtFilter rs)).received = requestedEntries rs := by
  have hone (r : FilterRequest) : (r.object.bind fun json =>
      ((IvpSubscribe.getFilterEntry json.reparsed).1.map fun type =>
        (⟨type, (IvpSubscribe.getFilterEntry json.reparsed).2.1.getD [],
          (IvpSubscribe.getFilterEntry json.reparsed).2.2⟩ : MessageFilterEntry))) = r.entry := by
    cases htype : r.type <;>
      simp [FilterRequest.object, FilterRequest.entry, htype,
        IvpSubscribe.getFilterEntry_filterObject]
  cases rs with
  | nil => rfl
  | cons r rs =>
    have hpayload : (IvpSubscribe.createMsg now (builtFilter (r :: rs))).received.payload =
        some (.array (((r :: rs).filterMap FilterRequest.object).map CJson.reparsed)) := by
      rw [builtFilter_cons, ← reparsedItems_map]
      rfl
    rw [filterEntries, IvpSubscribe.getFilterEntries, hpayload, requestedEntries]
    simp only [List.filterMap_map, List.filterMap_filterMap, Function.comp_def, hone]

theorem isSubscribeMsg_createMsg (now : BitVec 64) (filter : Option CJson) :
    IvpSubscribe.isSubscribeMsg (IvpSubscribe.createMsg now filter).received = true := by
  have htype : (IvpSubscribe.createMsg now filter).received.type =
      some (cstringAt IVPMSG_TYPE_APIRESV_SUBSCRIBE) := rfl
  rw [IvpSubscribe.isSubscribeMsg, IvpMessage.hasType, htype]
  decide

/-- A registered plugin's subscription is stored. -/
theorem processSubscribeMessage_run {D : Type} {s : CoreState D}
    (hreg : s.plugin.mRegistered = true) (msg : IvpMessage) :
    processSubscribeMessage msg s = (.ok (), { s with filter := some (filterEntries msg) }) := by
  unfold processSubscribeMessage Program.tryCatch subscribeForMessages
  rw [requireRegistered_bind, if_pos hreg]
  rfl

/-- What a plugin means by a request. A missing subtype stands for an empty one, not for any. -/
def FilterRequest.Wants (r : FilterRequest) (msg : IvpMessage) : Prop :=
  (∃ type ∈ r.type, cstringAt type = STAR ∨ msg.type = some (cstringAt type) ∧
      ((r.subtype.map cstringAt).getD [] = STAR ∨
        msg.subtype = some ((r.subtype.map cstringAt).getD []))) ∧
    (r.flags = 0 ∨ r.flags &&& msg.flags ≠ 0)

/-- A receiver with these entries gets what one of the requests wants. -/
theorem mem_broadcastMessage_requested {R : Type} [DecidableEq R] {map : ReceiverMap R}
    {sender : Option R} {receiver : R} {rs : List FilterRequest} (msg : IvpMessage)
    (hmap : map.lookup receiver = some (requestedEntries rs)) :
    receiver ∈ broadcastMessage map sender msg ↔
      sender ≠ some receiver ∧ ∃ r ∈ rs, r.Wants msg := by
  rw [mem_broadcastMessage, Addressed, hmap]
  apply and_congr_right
  intro _
  simp only [Option.mem_some_iff, exists_eq_left', requestedEntries, List.mem_filterMap,
    FilterRequest.entry, Option.map_eq_some_iff]
  constructor
  · rintro ⟨entry, ⟨r, hr, type, htype, rfl⟩, hkind, hflags⟩
    exact ⟨r, hr, ⟨type, htype, hkind⟩, hflags⟩
  · rintro ⟨r, hr, ⟨type, htype, hkind⟩, hflags⟩
    exact ⟨_, ⟨r, hr, type, htype, rfl⟩, hkind, hflags⟩

/-- Whatever filters a registered plugin has added: with the message that it sends the core
registers one entry for each of them that has a type, and from then on a message goes to the
plugin when one of the requests wants it. -/
theorem subscribe_registers {D : Type} (now : BitVec 64) (rs : List FilterRequest)
    (s : CoreState D) (hreg : s.plugin.mRegistered = true) :
    (processSubscribeMessage (IvpSubscribe.createMsg now (builtFilter rs)).received s =
        (.ok (), { s with filter := some (requestedEntries rs) })) ∧
      ∀ (R : Type) [DecidableEq R] (map : ReceiverMap R) (sender : Option R) (receiver : R)
        (msg : IvpMessage), map.lookup receiver = some (requestedEntries rs) →
        (receiver ∈ broadcastMessage map sender msg ↔
          sender ≠ some receiver ∧ ∃ r ∈ rs, r.Wants msg) := by
  constructor
  · rw [processSubscribeMessage_run hreg, filterEntries_builtFilter]
  · intro R _ map sender receiver msg hmap
    exact mem_broadcastMessage_requested msg hmap

/-- Two requests, and one without a type. -/
def sampleRequests : List FilterRequest :=
  [⟨some (cstr "J2735"), some (cstr "BSM"), 0⟩, ⟨none, some STAR, 1⟩, ⟨some STAR, none, 2⟩]

def registeredState : CoreState Unit where
  db := ()
  clock := 0
  clientNames := ∅
  plugin := (Plugin.new 0).registered ⟨⟨7, cstr "A", [], []⟩, [], []⟩ .empty
  filter := none
  routed := []
  socket := []

theorem subscribe_registers_sample :
    (processSubscribeMessage (IvpSubscribe.createMsg 0 (builtFilter sampleRequests)).received
        registeredState).2.filter =
      some [⟨cstr "J2735", cstr "BSM", 0⟩, ⟨STAR, [], 2⟩] := by
  rw [(subscribe_registers 0 sampleRequests registeredState rfl).1]
  decide

end V2IHub.Client
