import V2IHub.Core.Plugin
import V2IHub.Foundation.DecimalText
import V2IHub.Foundation.Machine

/-! `MessageProfiler`: the statistics kept for each source and type of message. -/
namespace V2IHub.Core
open V2IHub.Foundation V2IHub.Foundation.DecimalText V2IHub.Api

/-- The text by which two message types are compared. -/
def typeKey (type subtype : Bytes) : Bytes := type ++ cstr "||" ++ subtype

structure PluginIdMessageTypeKey where
  pluginId : BitVec 32
  messageType : MessageTypeEntry
deriving DecidableEq

/-- What a message is counted under. -/
structure MessageSource where
  pluginId : BitVec 32
  type : Bytes
  subtype : Bytes
deriving DecidableEq

/-- The text by which two keys of the profile data are compared. -/
def profileKey (k : MessageSource) : Bytes :=
  decimal k.pluginId.toNat ++ cstr "||" ++ typeKey k.type k.subtype

def PluginIdMessageTypeKey.messageSource (k : PluginIdMessageTypeKey) : MessageSource :=
  ⟨k.pluginId, k.messageType.type, k.messageType.subtype⟩

structure ProfileData where
  messageCounts : BitVec 32
  lastReceivedTime : ℕ
  receiveTimeForAveraging : List ℕ
deriving DecidableEq

structure MessageActivityEntry where
  messageTypeId : BitVec 32
  pluginId : BitVec 32
  count : BitVec 32
  lastReceivedTimestamp : ℕ
  averageInterval : ℕ
deriving DecidableEq

/-- Besides the profiler's own data: the messages it has profiled, in order, with their
receive times; the clock; and the start of the window at the last refresh. -/
structure MessageProfiler where
  mMessageTypes : OrderedMap Bytes MessageTypeEntry
  mProfileData : OrderedMap Bytes (PluginIdMessageTypeKey × ProfileData)
  activityEntries : List MessageActivityEntry
  received : List (MessageSource × ℕ)
  clock : ℕ
  windowStart : ℤ

/-- `inserted` is the id that the database gives a new message type, if it does not fail. -/
inductive ProfilerAct where
  | message (msg : IvpMessage) (rxTime : ℕ) (inserted : Option (BitVec 32))
  | refresh (averagingWindow : BitVec 32) (currentTime : ℕ)

/-- The source of a message that is profiled: heartbeats and messages without a source are
dropped. -/
def messageSource (msg : IvpMessage) : Option MessageSource :=
  match msg.type with
  | none => none
  | some type =>
    if msg.source.getD [] = [] ∨ msg.sourceId = 0 then none
    else some ⟨msg.sourceId, type, msg.subtype.getD []⟩

namespace MessageProfiler

/-- `insert` of a `set<MessageTypeEntry>` keeps an entry that compares equal. -/
def insertType (m : OrderedMap Bytes MessageTypeEntry) (e : MessageTypeEntry) :
    OrderedMap Bytes MessageTypeEntry :=
  match m.find (typeKey e.type e.subtype) with
  | none => m.insert (typeKey e.type e.subtype) e
  | some _ => m

/-- The constructor, with the types that the database knows. -/
def init (types : List MessageTypeEntry) : MessageProfiler where
  mMessageTypes := types.foldl insertType .empty
  mProfileData := .empty
  activityEntries := []
  received := []
  clock := 0
  windowStart := -2 ^ 32

/-- The message type that `onMessageReceived` goes on with, and the known types. -/
def lookupType (types : OrderedMap Bytes MessageTypeEntry) (type subtype : Bytes)
    (inserted : Option (BitVec 32)) : MessageTypeEntry × OrderedMap Bytes MessageTypeEntry :=
  match types.find (typeKey type subtype) with
  | some known => (known, types)
  | none =>
    match inserted with
    | none => (⟨0, type, subtype, []⟩, types)
    | some id =>
      let messageType : MessageTypeEntry := ⟨id, type, subtype, []⟩
      (messageType, if id ≠ 0 then insertType types messageType else types)

def count (data : Option ProfileData) (rxTime : ℕ) : ProfileData :=
  match data with
  | some data =>
    { messageCounts := data.messageCounts + 1
      lastReceivedTime := rxTime
      receiveTimeForAveraging := data.receiveTimeForAveraging ++ [rxTime] }
  | none => ⟨1, rxTime, [rxTime]⟩

/-- `onMessageReceived` for a message that is not dropped. A type without an id fails an
assertion; a build without assertions goes on. -/
def profile (s : MessageProfiler) (k : MessageSource) (rxTime : ℕ)
    (inserted : Option (BitVec 32)) : MessageProfiler :=
  let looked := lookupType s.mMessageTypes k.type k.subtype inserted
  let pluginIdMsgType : PluginIdMessageTypeKey := ⟨k.pluginId, looked.1⟩
  let key := profileKey pluginIdMsgType.messageSource
  let entry := match s.mProfileData.find key with
    | some (stored, data) => (stored, count (some data) rxTime)
    | none => (pluginIdMsgType, count none rxTime)
  { s with
    mMessageTypes := looked.2
    mProfileData := s.mProfileData.insert key entry
    received := s.received ++ [(k, rxTime)] }

def onMessageReceived (s : MessageProfiler) (msg : IvpMessage) (rxTime : ℕ)
    (inserted : Option (BitVec 32)) : MessageProfiler :=
  match messageSource msg with
  | none => s
  | some k => s.profile k rxTime inserted

/-- `if (purgeWindow + *rxTimeItr < currentTime) erase` for each receive time. -/
def purge (purgeWindow : BitVec 32) (currentTime : ℕ) (data : ProfileData) : ProfileData :=
  { data with
    receiveTimeForAveraging := data.receiveTimeForAveraging.filter fun t =>
      ¬ (purgeWindow.toNat + t) % 2 ^ 64 < currentTime }

/-- `(uint64_t)((double)purgeWindow / size)` -/
def averageInterval (purgeWindow : BitVec 32) (size : ℕ) : ℕ :=
  if size = 0 then 0
  else ⌊Binary64.round (purgeWindow.toNat / Binary64.round size)⌋.toNat

def activityEntry (purgeWindow : BitVec 32) (k : PluginIdMessageTypeKey) (data : ProfileData) :
    MessageActivityEntry where
  messageTypeId := k.messageType.id
  pluginId := k.pluginId
  count := data.messageCounts
  lastReceivedTimestamp := data.lastReceivedTime / 1000
  averageInterval := averageInterval purgeWindow data.receiveTimeForAveraging.length

def purgeWindow (averagingWindow : BitVec 32) : BitVec 32 :=
  if averagingWindow = 0 then 6000 else averagingWindow

def purgeAll (window : BitVec 32) (currentTime : ℕ)
    (m : OrderedMap Bytes (PluginIdMessageTypeKey × ProfileData)) :
    OrderedMap Bytes (PluginIdMessageTypeKey × ProfileData) :=
  m.replace (m.entries.map fun e => (e.1, e.2.1, purge window currentTime e.2.2)) (by simp)

/-- One turn of the loop of `dbRefreshThreadEntry`: the entries are what goes to the database. -/
def refresh (s : MessageProfiler) (averagingWindow : BitVec 32) (currentTime : ℕ) :
    MessageProfiler :=
  let window := purgeWindow averagingWindow
  let purged := purgeAll window currentTime s.mProfileData
  { s with
    mProfileData := purged
    activityEntries := purged.entries.map fun e => activityEntry window e.2.1 e.2.2
    windowStart := currentTime - window.toNat }

/-- The clock never goes back, and is far below `2 ^ 63` milliseconds. -/
def machine : Machine MessageProfiler ProfilerAct where
  step s
    | .message msg rxTime inserted =>
      if s.clock ≤ rxTime ∧ rxTime < 2 ^ 63 then
        some ({ s with clock := rxTime }.onMessageReceived msg rxTime inserted)
      else none
    | .refresh averagingWindow currentTime =>
      if s.clock ≤ currentTime then
        some ({ s with clock := currentTime }.refresh averagingWindow currentTime)
      else none

/-- The receive times of the messages from a source. -/
def timesOf (received : List (MessageSource × ℕ)) (k : MessageSource) : List ℕ :=
  (received.filter fun m => m.1 = k).map Prod.snd

/-- No known or profiled type is another one with the same text, and the window that averages
are taken over does not reach further back than at the last refresh. -/
def Distinct (s : MessageProfiler) : ProfilerAct → Prop
  | .message msg _ _ =>
    match messageSource msg with
    | none => True
    | some k =>
      (∀ e ∈ s.mMessageTypes.entries, typeKey e.2.type e.2.subtype = typeKey k.type k.subtype →
          e.2.type = k.type ∧ e.2.subtype = k.subtype) ∧
        ∀ e ∈ s.mProfileData.entries,
          typeKey e.2.1.messageType.type e.2.1.messageType.subtype = typeKey k.type k.subtype →
          e.2.1.messageType.type = k.type ∧ e.2.1.messageType.subtype = k.subtype
  | .refresh averagingWindow currentTime =>
    s.windowStart ≤ currentTime - (purgeWindow averagingWindow).toNat

instance decidableDistinct (s : MessageProfiler) (a : ProfilerAct) : Decidable (Distinct s a) := by
  cases a <;> simp only [Distinct]
  · cases messageSource _ <;> infer_instance
  · infer_instance

section Keys

theorem takeWhile_decimal (n : ℕ) (rest : Bytes) :
    (decimal n ++ cstr "||" ++ rest).takeWhile isDigit = decimal n := by
  rw [List.append_assoc, List.takeWhile_append_of_pos (decimal_isDigit n)]
  have hbar : (cstr "||" ++ rest).takeWhile isDigit = [] := rfl
  rw [hbar, List.append_nil]

theorem decimal_injective {m n : ℕ} (h : decimal m = decimal n) : m = n := by
  rw [← decimal_value m, h, decimal_value]

/-- The plugin id ends at the first bar; what follows is compared as a whole. -/
theorem profileKey_eq_iff {k k' : MessageSource} :
    profileKey k = profileKey k' ↔
      k.pluginId = k'.pluginId ∧ typeKey k.type k.subtype = typeKey k'.type k'.subtype := by
  constructor
  · intro h
    have hdecimal : decimal k.pluginId.toNat = decimal k'.pluginId.toNat := by
      rw [← takeWhile_decimal k.pluginId.toNat (typeKey k.type k.subtype),
        ← takeWhile_decimal k'.pluginId.toNat (typeKey k'.type k'.subtype)]
      exact congrArg _ h
    refine ⟨BitVec.eq_of_toNat_eq (decimal_injective hdecimal), ?_⟩
    rw [profileKey, profileKey, hdecimal] at h
    exact List.append_cancel_left h
  · rintro ⟨hid, htype⟩
    rw [profileKey, profileKey, hid, htype]

end Keys

section Profiling
variable {s s' : MessageProfiler} {k : MessageSource} {rxTime : ℕ}
  {inserted : Option (BitVec 32)} {r : PluginIdMessageTypeKey × ProfileData}

/-- A record agrees with the messages of its source. -/
structure Matches (received : List (MessageSource × ℕ)) (windowStart : ℤ)
    (r : PluginIdMessageTypeKey × ProfileData) : Prop where
  profiled : timesOf received r.1.messageSource ≠ []
  counts : r.2.messageCounts = BitVec.ofNat 32 (timesOf received r.1.messageSource).length
  last : (timesOf received r.1.messageSource).getLast? = some r.2.lastReceivedTime
  times : r.2.receiveTimeForAveraging =
    (timesOf received r.1.messageSource).filter fun t : ℕ => windowStart ≤ (t : ℤ)

structure Inv (s : MessageProfiler) : Prop where
  types : ∀ key e, s.mMessageTypes.find key = some e → key = typeKey e.type e.subtype
  profiled : ∀ m ∈ s.received, ∃ r, s.mProfileData.find (profileKey m.1) = some r ∧
    r.1.messageSource = m.1
  records : ∀ key r, s.mProfileData.find key = some r → key = profileKey r.1.messageSource ∧
    Matches s.received s.windowStart r
  window : s.windowStart ≤ s.clock
  times : ∀ m ∈ s.received, m.2 < 2 ^ 63

theorem timesOf_append (received : List (MessageSource × ℕ)) (m : MessageSource × ℕ)
    (k : MessageSource) : timesOf (received ++ [m]) k =
      timesOf received k ++ if m.1 = k then [m.2] else [] := by
  by_cases h : m.1 = k <;> simp [timesOf, h]

theorem timesOf_append_of_ne (received : List (MessageSource × ℕ)) {m : MessageSource × ℕ}
    (h : m.1 ≠ k) : timesOf (received ++ [m]) k = timesOf received k := by
  rw [timesOf_append, if_neg h, List.append_nil]

theorem mem_timesOf {received : List (MessageSource × ℕ)} {t : ℕ} (h : t ∈ timesOf received k) :
    (k, t) ∈ received := by
  obtain ⟨m, hm, rfl⟩ := List.mem_map.mp h
  obtain ⟨hmem, hk⟩ := List.mem_filter.mp hm
  obtain rfl : m.1 = k := by simpa using hk
  exact hmem

/-- The type that the message is counted under is its own. -/
theorem lookupType_type (inserted : Option (BitVec 32)) (h : Inv s) (hd : ∀ e ∈ s.mMessageTypes.entries,
      typeKey e.2.type e.2.subtype = typeKey k.type k.subtype →
        e.2.type = k.type ∧ e.2.subtype = k.subtype) :
    (lookupType s.mMessageTypes k.type k.subtype inserted).1.type = k.type ∧
      (lookupType s.mMessageTypes k.type k.subtype inserted).1.subtype = k.subtype := by
  unfold lookupType
  cases hfind : s.mMessageTypes.find (typeKey k.type k.subtype) with
  | some known =>
    exact hd (_, known) (OrderedMap.mem_entries_iff.mpr hfind) (h.types _ _ hfind).symm
  | none => cases inserted <;> exact ⟨rfl, rfl⟩

theorem insertType_types {m : OrderedMap Bytes MessageTypeEntry} {e : MessageTypeEntry}
    (hm : ∀ key e, m.find key = some e → key = typeKey e.type e.subtype) :
    ∀ key e', (insertType m e).find key = some e' → key = typeKey e'.type e'.subtype := by
  intro key e' hfind
  unfold insertType at hfind
  split at hfind
  · rw [OrderedMap.find_insert] at hfind
    split_ifs at hfind with hkey
    · obtain rfl := Option.some.inj hfind
      exact hkey.symm
    · exact hm key e' hfind
  · exact hm key e' hfind

theorem lookupType_types (h : Inv s) (key : Bytes) (e : MessageTypeEntry)
    (hfind : (lookupType s.mMessageTypes k.type k.subtype inserted).2.find key = some e) :
    key = typeKey e.type e.subtype := by
  unfold lookupType at hfind
  cases hknown : s.mMessageTypes.find (typeKey k.type k.subtype) with
  | some known =>
    simp only [hknown] at hfind
    exact h.types key e hfind
  | none =>
    cases inserted with
    | none =>
      simp only [hknown] at hfind
      exact h.types key e hfind
    | some id =>
      simp only [hknown] at hfind
      split_ifs at hfind
      · exact insertType_types h.types key e hfind
      · exact h.types key e hfind

/-- The record of a source, before and after a message from it. -/
theorem matches_count {received : List (MessageSource × ℕ)} {windowStart : ℤ}
    {stored : PluginIdMessageTypeKey} {data : Option ProfileData}
    (hdata : match data with
      | some data => Matches received windowStart (stored, data)
      | none => timesOf received stored.messageSource = [])
    (hnow : windowStart ≤ rxTime) :
    Matches (received ++ [(stored.messageSource, rxTime)]) windowStart
      (stored, count data rxTime) := by
  have htimes : timesOf (received ++ [(stored.messageSource, rxTime)]) stored.messageSource =
      timesOf received stored.messageSource ++ [rxTime] := by
    rw [timesOf_append, if_pos rfl]
  cases data with
  | none =>
    dsimp only at hdata
    rw [hdata, List.nil_append] at htimes
    refine ⟨?_, ?_, ?_, ?_⟩ <;> dsimp only <;> rw [htimes]
    · simp
    · rfl
    · rfl
    · simp [count, hnow]
  | some data =>
    refine ⟨?_, ?_, ?_, ?_⟩ <;> dsimp only <;> rw [htimes]
    · simp
    · rw [List.length_append, BitVec.ofNat_add, ← hdata.counts]
      rfl
    · simp [count]
    · rw [List.filter_append, ← hdata.times]
      simp [count, hnow]

theorem matches_other {received : List (MessageSource × ℕ)} {windowStart : ℤ}
    {m : MessageSource × ℕ} (h : Matches received windowStart r)
    (hne : m.1 ≠ r.1.messageSource) : Matches (received ++ [m]) windowStart r := by
  obtain ⟨hprofiled, hcounts, hlast, htimes⟩ := h
  constructor <;> rwa [timesOf_append_of_ne _ hne]

theorem inv_profile (h : Inv s) (hclock : s.windowStart ≤ rxTime) (hlt : rxTime < 2 ^ 63)
    (hd : (∀ e ∈ s.mMessageTypes.entries,
        typeKey e.2.type e.2.subtype = typeKey k.type k.subtype →
          e.2.type = k.type ∧ e.2.subtype = k.subtype) ∧
      ∀ e ∈ s.mProfileData.entries,
        typeKey e.2.1.messageType.type e.2.1.messageType.subtype = typeKey k.type k.subtype →
          e.2.1.messageType.type = k.type ∧ e.2.1.messageType.subtype = k.subtype) :
    Inv (s.profile k rxTime inserted) := by
  obtain ⟨htype, hsubtype⟩ := lookupType_type inserted h hd.1
  have hsource : (⟨k.pluginId, (lookupType s.mMessageTypes k.type k.subtype inserted).1⟩ :
      PluginIdMessageTypeKey).messageSource = k := by
    simp only [PluginIdMessageTypeKey.messageSource, htype, hsubtype]
  -- A record under the key of the message is the record of its source.
  have hown {r : PluginIdMessageTypeKey × ProfileData}
      (hfind : s.mProfileData.find (profileKey k) = some r) : r.1.messageSource = k := by
    obtain ⟨hkey, -⟩ := h.records _ r hfind
    obtain ⟨hid, htext⟩ := profileKey_eq_iff.mp hkey
    obtain ⟨ht, hs⟩ := hd.2 (profileKey k, r) (OrderedMap.mem_entries_iff.mpr hfind) htext.symm
    simp only [PluginIdMessageTypeKey.messageSource] at hid ⊢
    rw [ht, hs, ← hid]
  obtain ⟨entry, hentry, hsource', hmatches⟩ : ∃ entry : PluginIdMessageTypeKey × ProfileData,
      s.profile k rxTime inserted = { s with
        mMessageTypes := (lookupType s.mMessageTypes k.type k.subtype inserted).2
        mProfileData := s.mProfileData.insert (profileKey k) entry
        received := s.received ++ [(k, rxTime)] } ∧
      entry.1.messageSource = k ∧
      Matches (s.received ++ [(k, rxTime)]) s.windowStart entry := by
    cases hfind : s.mProfileData.find (profileKey k) with
    | some r =>
      obtain ⟨-, hr⟩ := h.records _ r hfind
      have hk : r.1.messageSource = k := hown hfind
      refine ⟨(r.1, count (some r.2) rxTime), ?_, hk, ?_⟩
      · simp only [profile, hsource, hfind]
      · have hcount : Matches (s.received ++ [(r.1.messageSource, rxTime)]) s.windowStart
            (r.1, count (some r.2) rxTime) := matches_count hr hclock
        rwa [hk] at hcount
    | none =>
      have hnone : timesOf s.received k = [] := by
        apply List.eq_nil_iff_forall_not_mem.mpr
        intro t ht
        obtain ⟨r, hr, -⟩ := h.profiled (k, t) (mem_timesOf ht)
        simp [hfind] at hr
      refine ⟨(⟨k.pluginId, (lookupType s.mMessageTypes k.type k.subtype inserted).1⟩,
        count none rxTime), ?_, hsource, ?_⟩
      · simp only [profile, hsource, hfind]
      · have hcount : Matches (s.received ++ [(PluginIdMessageTypeKey.messageSource
              ⟨k.pluginId, (lookupType s.mMessageTypes k.type k.subtype inserted).1⟩, rxTime)])
            s.windowStart (⟨k.pluginId, (lookupType s.mMessageTypes k.type k.subtype inserted).1⟩,
              count none rxTime) := matches_count (by simpa [hsource] using hnone) hclock
        rwa [hsource] at hcount
  rw [hentry]
  refine ⟨fun key e hfind => lookupType_types h key e hfind, ?_, ?_, h.window, ?_⟩
  · intro m hm
    dsimp only at hm ⊢
    rw [OrderedMap.find_insert]
    rcases List.mem_append.mp hm with hm | hm
    · obtain ⟨r, hfind, hr⟩ := h.profiled m hm
      split_ifs with hkey
      · rw [← hkey] at hfind
        refine ⟨entry, rfl, ?_⟩
        rw [hsource', ← hr, hown hfind]
      · exact ⟨r, hfind, hr⟩
    · obtain rfl := List.mem_singleton.mp hm
      exact ⟨entry, if_pos rfl, hsource'⟩
  · intro key r hfind
    dsimp only at hfind ⊢
    rw [OrderedMap.find_insert] at hfind
    split_ifs at hfind with hkey
    · obtain rfl := Option.some.inj hfind
      exact ⟨by rw [hsource', hkey], hmatches⟩
    · obtain ⟨hr, hm⟩ := h.records key r hfind
      refine ⟨hr, matches_other hm ?_⟩
      rintro rfl
      exact hkey hr.symm
  · intro m hm
    rcases List.mem_append.mp hm with hm | hm
    · exact h.times m hm
    · obtain rfl := List.mem_singleton.mp hm
      exact hlt

theorem find_purgeAll (window : BitVec 32) (currentTime : ℕ)
    (m : OrderedMap Bytes (PluginIdMessageTypeKey × ProfileData)) (key : Bytes) :
    (purgeAll window currentTime m).find key =
      (m.find key).map fun r => (r.1, purge window currentTime r.2) := by
  simp only [OrderedMap.find, purgeAll, OrderedMap.replace, List.find?_map, Function.comp_def,
    Option.map_map]

/-- Purging twice is purging once by the later start of the window. -/
theorem purge_times {received : List (MessageSource × ℕ)} {windowStart : ℤ}
    {window : BitVec 32} {currentTime : ℕ} (h : Matches received windowStart r)
    (hlt : ∀ m ∈ received, m.2 < 2 ^ 63) (hstart : windowStart ≤ currentTime - window.toNat) :
    (purge window currentTime r.2).receiveTimeForAveraging =
      (timesOf received r.1.messageSource).filter
        fun t : ℕ => (currentTime : ℤ) - window.toNat ≤ (t : ℤ) := by
  simp only [purge]
  rw [h.times, List.filter_filter]
  apply List.filter_congr
  intro t ht
  have ht' : t < 2 ^ 63 := hlt _ (mem_timesOf ht)
  have hwindow := window.isLt
  have hmod : (window.toNat + t) % 2 ^ 64 = window.toNat + t := Nat.mod_eq_of_lt (by omega)
  rw [hmod, ← Bool.decide_and, decide_eq_decide]
  omega

theorem inv_refresh (h : Inv s) {averagingWindow : BitVec 32} {currentTime : ℕ}
    (hstart : s.windowStart ≤ currentTime - (purgeWindow averagingWindow).toNat)
    (hclock : s.clock = currentTime) : Inv (s.refresh averagingWindow currentTime) := by
  refine ⟨h.types, ?_, ?_, ?_, h.times⟩
  · intro m hm
    obtain ⟨r, hfind, hr⟩ := h.profiled m hm
    refine ⟨(r.1, purge (purgeWindow averagingWindow) currentTime r.2), ?_, hr⟩
    simp only [refresh, find_purgeAll, hfind, Option.map_some]
  · intro key r hfind
    simp only [refresh, find_purgeAll, Option.map_eq_some_iff] at hfind
    obtain ⟨r₀, hfind, rfl⟩ := hfind
    obtain ⟨hkey, hm⟩ := h.records key r₀ hfind
    exact ⟨hkey, hm.profiled, hm.counts, hm.last, purge_times hm h.times hstart⟩
  · simp only [refresh, hclock]
    omega

theorem inv_step (s : MessageProfiler) (a : ProfilerAct) (s' : MessageProfiler) (h : Inv s)
    (hd : Distinct s a) (hs : machine.step s a = some s') : Inv s' := by
  have hlater {now : ℕ} (hnow : s.clock ≤ now) : Inv { s with clock := now } := by
    have hwindow := h.window
    exact ⟨h.types, h.profiled, h.records, by dsimp only; omega, h.times⟩
  cases a with
  | message msg rxTime inserted =>
    obtain ⟨⟨hnow, hlt⟩, rfl⟩ : (s.clock ≤ rxTime ∧ rxTime < 2 ^ 63) ∧ _ = s' := by
      simpa [machine] using hs
    unfold onMessageReceived
    cases hk : messageSource msg with
    | none => exact hlater hnow
    | some k =>
      simp only [Distinct, hk] at hd
      exact inv_profile (hlater hnow) (hlater hnow).window hlt hd
  | refresh averagingWindow currentTime =>
    obtain ⟨hnow, rfl⟩ : s.clock ≤ currentTime ∧ _ = s' := by simpa [machine] using hs
    exact inv_refresh (hlater hnow) hd rfl

theorem inv_init (types : List MessageTypeEntry) : Inv (init types) := by
  refine ⟨?_, by simp [init], by simp [init, OrderedMap.find, OrderedMap.empty], by simp [init],
    by simp [init]⟩
  suffices hfold : ∀ m : OrderedMap Bytes MessageTypeEntry,
      (∀ key e, m.find key = some e → key = typeKey e.type e.subtype) →
      ∀ key e, (types.foldl insertType m).find key = some e → key = typeKey e.type e.subtype from
    hfold .empty (by simp [OrderedMap.find, OrderedMap.empty])
  induction types with
  | nil => exact fun m hm => hm
  | cons t types ih => exact fun m hm => ih _ (insertType_types hm)

end Profiling

/-- As long as types with one text are one type, and the averaging window does not reach
further back, each source has one record of exactly its own messages. -/
theorem profileData_exact (types : List MessageTypeEntry) {acts : List ProfilerAct}
    {s : MessageProfiler} (hd : machine.Obeys Distinct (init types) acts)
    (hrun : machine.run (init types) acts = some s) :
    (∀ m ∈ s.received, ∃ r, s.mProfileData.find (profileKey m.1) = some r ∧
        r.1.messageSource = m.1 ∧ Matches s.received s.windowStart r) ∧
      (∀ key r, s.mProfileData.find key = some r → key = profileKey r.1.messageSource ∧
        ∃ t, (r.1.messageSource, t) ∈ s.received) ∧
      ∀ averagingWindow currentTime s', Distinct s (.refresh averagingWindow currentTime) →
        machine.step s (.refresh averagingWindow currentTime) = some s' →
        ∀ m ∈ s.received, ∃ a ∈ s'.activityEntries, ∃ r,
          s.mProfileData.find (profileKey m.1) = some r ∧
          a.messageTypeId = r.1.messageType.id ∧ a.pluginId = m.1.pluginId ∧
          a.count = BitVec.ofNat 32 (timesOf s.received m.1).length ∧
          a.averageInterval = averageInterval (purgeWindow averagingWindow)
            ((timesOf s.received m.1).filter fun t =>
              currentTime ≤ t + (purgeWindow averagingWindow).toNat).length := by
  have h : Inv s := Machine.obeys_invariant inv_step (inv_init types) hd hrun
  refine ⟨?_, ?_, ?_⟩
  · intro m hm
    obtain ⟨r, hfind, hr⟩ := h.profiled m hm
    exact ⟨r, hfind, hr, (h.records _ r hfind).2⟩
  · intro key r hfind
    obtain ⟨hkey, hr⟩ := h.records key r hfind
    obtain ⟨t, ht⟩ := List.exists_mem_of_ne_nil _ hr.profiled
    exact ⟨hkey, t, mem_timesOf ht⟩
  · intro averagingWindow currentTime s' hstart hs m hm
    obtain ⟨-, rfl⟩ : s.clock ≤ currentTime ∧ _ = s' := by simpa [machine] using hs
    obtain ⟨r, hfind, hr⟩ := h.profiled m hm
    have hrecord := (h.records _ r hfind).2
    have hmem : (profileKey m.1, r.1, purge (purgeWindow averagingWindow) currentTime r.2) ∈
        (purgeAll (purgeWindow averagingWindow) currentTime s.mProfileData).entries := by
      rw [OrderedMap.mem_entries_iff, find_purgeAll, hfind, Option.map_some]
    refine ⟨_, List.mem_map_of_mem hmem, r, hfind, rfl, ?_, ?_, ?_⟩
    · rw [← hr]
      rfl
    · rw [← hr]
      exact hrecord.counts
    · have htimes := purge_times hrecord h.times hstart
      simp only [activityEntry, htimes, hr]
      congr 3
      funext t
      rw [decide_eq_decide]
      omega

def runFrom (types : List MessageTypeEntry) (acts : List ProfilerAct) : MessageProfiler :=
  (machine.run (init types) acts).getD (init types)

def messageOf (sourceId : BitVec 32) (type subtype : String) : IvpMessage :=
  ⟨some (cstr type), some (cstr subtype), some (cstr "p"), sourceId, none, 0, 0, none, none⟩

theorem profileData_exact_two_sources :
    let acts : List ProfilerAct :=
      [.message (messageOf 1 "J2735" "BSM") 1000 (some 4), .refresh 0 8000,
        .message (messageOf 2 "J2735" "BSM") 8500 none,
        .message (messageOf 1 "J2735" "BSM") 9000 none]
    let s := runFrom [] acts
    (s.mProfileData.find (profileKey ⟨1, cstr "J2735", cstr "BSM"⟩)).map
        (fun r => r.2.receiveTimeForAveraging) = some [9000] ∧
      ∃ r, s.mProfileData.find (profileKey ⟨1, cstr "J2735", cstr "BSM"⟩) = some r ∧
        Matches s.received s.windowStart r := by
  intro acts s
  refine ⟨by decide +kernel, ?_⟩
  have hmem : (⟨1, cstr "J2735", cstr "BSM"⟩, 1000) ∈ s.received := by decide +kernel
  obtain ⟨r, hfind, -, hr⟩ := (profileData_exact [] (s := s)
    (by decide +kernel : machine.Obeys Distinct (init []) acts) rfl).1 _ hmem
  exact ⟨r, hfind, hr⟩

/-- Two types of one text share a record. -/
theorem profileData_merges :
    let acts : List ProfilerAct :=
      [.message (messageOf 1 "a||b" "c") 1000 (some 4),
        .message (messageOf 1 "a" "b||c") 2000 (some 5)]
    let s := runFrom [] acts
    machine.run (init []) acts = some s ∧
      s.received = [(⟨1, cstr "a||b", cstr "c"⟩, 1000), (⟨1, cstr "a", cstr "b||c"⟩, 2000)] ∧
      s.mProfileData.entries = [(cstr "1||a||b||c", ⟨1, ⟨4, cstr "a||b", cstr "c", []⟩⟩,
        ⟨2, 2000, [1000, 2000]⟩)] := by
  intro acts s
  exact ⟨rfl, by decide +kernel, by decide +kernel⟩

end MessageProfiler
end V2IHub.Core
