import V2IHub.Dsrc.DsrcMessageManagerPlugin

/-! To whom `DsrcMessageManagerPlugin` sends a message, against the configuration at that time, and
what it counts, over whole runs. -/
namespace V2IHub.Dsrc
open Foundation Foundation.DecimalText Messages Json Api Client

namespace DsrcMessageManagerPlugin
variable (readJson : Bytes → Option PTree)

/-- The elements of the message list of a client. -/
def elements (config : ConfigValues) (c : Fin 4) : List (Bytes × PTree) :=
  let json := (config.find (messagesSetting c)).getD []
  if json = [] then []
  else (((readJson json).bind fun pt => pt.getChild [cstr "Messages"]).map PTree.children).getD []

/-- The configured messages of a client. -/
def routes (config : ConfigValues) (c : Fin 4) : List MessageConfig :=
  (elements readJson config c).filterMap fun child => messageConfig c child.2

/-- Those before the first element that lacks a member. -/
def readRoutes (config : ConfigValues) (c : Fin 4) : List MessageConfig :=
  ((elements readJson config c).takeWhile fun child => (messageConfig c child.2).isSome).filterMap
    fun child => messageConfig c child.2

/-- The items of the destination string of a client that have a host and a port. -/
def destinations (config : ConfigValues) (c : Fin 4) : List Destination :=
  (splitServers ((config.find (udpPortSetting c)).getD [])).filterMap hostPort

/-- What one configured message sends to one destination. -/
def datagram (config : MessageConfig) (channel : BitVec 32) (signature payload : Bytes)
    (destination : Destination) : Send :=
  (destination, radioMessage config.SendType config.Psid
    (if config.Channel = [] then formatInt channel.toInt else config.Channel) signature payload)

/-- The upper-cased payload, which is a string. -/
def payloadText (msg : IvpMessage) : Bytes :=
  match msg.payload with
  | some (.string valuestring) => valuestring.map toUpper
  | _ => []

/-- What should be sent: each configured message of the subtype to each destination. -/
def expected (s : DsrcMessageManagerPlugin) (msg : IvpMessage) (metadata : IvpDsrcMetadata) :
    List Send :=
  match msg.subtype with
  | none => []
  | some subtype =>
    (List.finRange 4).flatMap fun c =>
      ((routes readJson s.config c).filter fun config => config.TmxType = subtype).flatMap
        fun config => (destinations s.config c).map
          (datagram config metadata.channel s._signature (payloadText msg))

def Delivered (s : DsrcMessageManagerPlugin) (msg : IvpMessage) (metadata : IvpDsrcMetadata) :
    Prop :=
  (s.sendMessageToRadio msg metadata).map Prod.snd = some (s.expected readJson msg metadata)

/-- A message that `SendMessageToRadio` is called for. -/
def Processes (s : DsrcMessageManagerPlugin) (msg : IvpMessage) (metadata : IvpDsrcMetadata) :
    Prop :=
  s._configRead = true ∧ msg.dsrcMetadata = some metadata ∧ s._muteDsrc = false

/-- A client that takes the messages of a subtype has all of them behind no element that lacks a
member, and all its destinations could be resolved. -/
def Complete (s : DsrcMessageManagerPlugin) (subtype : Bytes) (c : Fin 4) : Prop :=
  (∀ config ∈ routes readJson s.config c, config.TmxType ≠ subtype) ∨
    destinations s.config c = [] ∨
    ((readRoutes readJson s.config c).filter fun config => config.TmxType = subtype) =
        ((routes readJson s.config c).filter fun config => config.TmxType = subtype) ∧
      ∀ destination ∈ destinations s.config c, s.resolves destination = true

/-- The payload is a string, and the clients are complete. -/
def Deliverable (s : DsrcMessageManagerPlugin) (msg : IvpMessage) : Prop :=
  ∀ subtype ∈ msg.subtype, (∃ valuestring, msg.payload = some (.string valuestring)) ∧
    ∀ c, s.Complete readJson subtype c

/-- Each message that is processed is sent to whom it should be. -/
def Forwards (config : ConfigValues) (acts : List Act) : Prop :=
  ∀ before msg after s metadata, acts = before ++ .received msg :: after →
    (machine readJson).run (new config) before = some s → s.Processes msg metadata →
    s.Delivered readJson msg metadata

/-- The count of a subtype is the number of messages processed. -/
def Counts (config : ConfigValues) (acts : List Act) : Prop :=
  ∀ before after s, acts = before ++ after → (machine readJson).run (new config) before = some s →
    ∀ subtype, (s._messageCountMap.find subtype).getD 0 = s.processed.count subtype

/-- What the plugin holds of a configuration that it has read. -/
structure Routed (s : DsrcMessageManagerPlugin) : Prop where
  _messageConfigMap : s._messageConfigMap =
    (List.finRange 4).flatMap (readRoutes readJson s.config)
  _udpClientList : ∀ c, s._udpClientList c = (destinations s.config c).takeWhile s.resolves

section Reading
variable {readJson} {c : Fin 4} {config : ConfigValues}

theorem messageConfig_clientIndex {child : PTree} {config : MessageConfig}
    (h : messageConfig c child = some config) : config.ClientIndex = c := by
  unfold messageConfig at h
  simp only [Option.bind_eq_bind, Option.bind_eq_some_iff, Option.pure_def,
    Option.some.injEq] at h
  obtain ⟨_, _, _, _, _, _, rfl⟩ := h
  rfl

theorem readMessages_eq {children : List (Bytes × PTree)} {configs : List MessageConfig}
    (h : readMessages c children = some configs) :
    configs = (children.takeWhile fun child => (messageConfig c child.2).isSome).filterMap
      fun child => messageConfig c child.2 := by
  induction children generalizing configs with
  | nil => simpa [readMessages, eq_comm] using h
  | cons child rest ih =>
    unfold readMessages at h
    split_ifs at h
    cases hchild : messageConfig c child.2 with
    | none =>
      simp only [hchild, Option.some.injEq] at h
      simp [hchild, ← h]
    | some config =>
      simp only [hchild, Option.map_eq_some_iff] at h
      obtain ⟨configs', hrest, rfl⟩ := h
      simp [hchild, ih hrest]

theorem parse_eq {configs configs' : List MessageConfig} {config : ConfigValues}
    (hother : ∀ m ∈ configs, m.ClientIndex ≠ c)
    (h : parseJsonMessageConfig readJson configs ((config.find (messagesSetting c)).getD []) c =
      some configs') : configs' = configs ++ readRoutes readJson config c := by
  have hkept : (configs.filter fun m => m.ClientIndex ≠ c) = configs :=
    List.filter_eq_self.mpr fun m hm => by simpa using hother m hm
  unfold parseJsonMessageConfig at h
  unfold readRoutes elements
  simp only
  split_ifs at h ⊢ with hempty
  · simpa [eq_comm] using h
  · rw [hkept] at h
    cases hjson : readJson ((config.find (messagesSetting c)).getD []) with
    | none => simpa [hjson, eq_comm] using h
    | some pt =>
      cases hmessages : pt.getChild [cstr "Messages"] with
      | none => simpa [hjson, hmessages, eq_comm] using h
      | some messages =>
        simp only [hjson, hmessages, Option.map_eq_some_iff] at h
        obtain ⟨read, hread, rfl⟩ := h
        simp [hmessages, readMessages_eq hread]

theorem createClients_eq (resolves : Destination → Bool) (srvs : List Bytes) :
    createClients resolves srvs = (srvs.filterMap hostPort).takeWhile resolves := by
  induction srvs with
  | nil => rfl
  | cons srv rest ih =>
    unfold createClients
    cases hsrv : hostPort srv with
    | none => simp [hsrv, ih]
    | some destination =>
      cases hresolves : resolves destination <;> simp [hsrv, hresolves, ih]

end Reading

section Update
variable {readJson} {s t : DsrcMessageManagerPlugin}

/-- What an update of clients leaves as it was. -/
structure SameButRoutes (s t : DsrcMessageManagerPlugin) : Prop where
  config : t.config = s.config
  resolves : t.resolves = s.resolves
  counts : t._messageCountMap = s._messageCountMap
  processed : t.processed = s.processed

theorem createClients_destinations (s : DsrcMessageManagerPlugin) (c : Fin 4) :
    (if ((s.config.find (udpPortSetting c)).getD []).length > 0 then
      createClients s.resolves (splitServers ((s.config.find (udpPortSetting c)).getD [])) else []) =
      (destinations s.config c).takeWhile s.resolves := by
  rw [createClients_eq, destinations]
  by_cases hempty : (s.config.find (udpPortSetting c)).getD [] = []
  · rw [hempty]
    rfl
  · rw [if_pos (List.length_pos_iff.mpr hempty)]

theorem updateUdpClient_eq {c : Fin 4}
    (hother : ∀ m ∈ s._messageConfigMap, m.ClientIndex ≠ c)
    (h : s.updateUdpClientFromConfigSettings readJson c = some t) :
    SameButRoutes s t ∧
      t._messageConfigMap = s._messageConfigMap ++ readRoutes readJson s.config c ∧
      t._udpClientList =
        Function.update s._udpClientList c ((destinations s.config c).takeWhile s.resolves) := by
  unfold updateUdpClientFromConfigSettings at h
  simp only [createClients_destinations, Option.bind_eq_bind, Option.bind_eq_some_iff,
    Option.pure_def, Option.some.injEq] at h
  obtain ⟨configs, hparse, rfl⟩ := h
  exact ⟨⟨rfl, rfl, rfl, rfl⟩, parse_eq hother hparse, rfl⟩

theorem updateClients_eq {clients : List (Fin 4)} (hnodup : clients.Nodup)
    (hother : ∀ m ∈ s._messageConfigMap, m.ClientIndex ∉ clients)
    (h : updateClients readJson clients s = some t) :
    SameButRoutes s t ∧
      t._messageConfigMap = s._messageConfigMap ++ clients.flatMap (readRoutes readJson s.config) ∧
      ∀ c, t._udpClientList c = if c ∈ clients then (destinations s.config c).takeWhile s.resolves
        else s._udpClientList c := by
  induction clients generalizing s with
  | nil =>
    obtain rfl : s = t := by simpa [updateClients] using h
    exact ⟨⟨rfl, rfl, rfl, rfl⟩, by simp, by simp⟩
  | cons c rest ih =>
    obtain ⟨hrest, hnodup⟩ := List.nodup_cons.mp hnodup
    simp only [updateClients, Option.bind_eq_bind, Option.bind_eq_some_iff] at h
    obtain ⟨u, hu, h⟩ := h
    obtain ⟨hsame, hmap, hclients⟩ :=
      updateUdpClient_eq (fun m hm heq => hother m hm (by simp [heq])) hu
    have hother' : ∀ m ∈ u._messageConfigMap, m.ClientIndex ∉ rest := by
      intro m hm
      rw [hmap, List.mem_append] at hm
      rcases hm with hm | hm
      · exact fun hin => hother m hm (by simp [hin])
      · obtain ⟨child, -, hchild⟩ := List.mem_filterMap.mp hm
        rw [messageConfig_clientIndex hchild]
        exact hrest
    obtain ⟨hsame', hmap', hclients'⟩ := ih hnodup hother' h
    refine ⟨⟨hsame'.config.trans hsame.config, hsame'.resolves.trans hsame.resolves,
      hsame'.counts.trans hsame.counts, hsame'.processed.trans hsame.processed⟩, ?_, ?_⟩
    · rw [hmap', hmap, hsame.config, List.append_assoc, List.flatMap_cons]
    · intro c'
      rw [hclients', hsame.config, hsame.resolves, hclients]
      by_cases heq : c' = c
      · subst heq
        simp [hrest]
      · simp [heq]

/-- What the plugin holds behind an update. -/
theorem updateConfigSettings_eq {resolves : Destination → Bool}
    (h : s.updateConfigSettings readJson resolves = some t) :
    t.Routed readJson ∧ t._messageCountMap = s._messageCountMap ∧ t.processed = s.processed := by
  unfold updateConfigSettings at h
  simp only [Option.bind_eq_bind, Option.bind_eq_some_iff, Option.pure_def,
    Option.some.injEq] at h
  obtain ⟨u, hu, rfl⟩ := h
  obtain ⟨hsame, hmap, hclients⟩ := updateClients_eq (List.nodup_finRange 4) (by simp) hu
  refine ⟨⟨?_, fun c => ?_⟩, hsame.counts, hsame.processed⟩
  · simp [hmap, hsame.config]
  · simp [hclients c, hsame.config, hsame.resolves]

end Update

section Sending
variable {readJson} {s : DsrcMessageManagerPlugin}

theorem sendLoop_eq (s : DsrcMessageManagerPlugin) (subtype : Bytes) (channel : BitVec 32)
    (payload : Bytes) (configs : List MessageConfig) :
    sendLoop s subtype channel payload configs =
      (configs.filter fun config => config.TmxType = subtype).flatMap fun config =>
        (s._udpClientList config.ClientIndex).map
          (datagram config channel s._signature payload) := by
  induction configs with
  | nil => rfl
  | cons config rest ih =>
    unfold sendLoop
    by_cases hsubtype : config.TmxType = subtype
    · rw [if_pos hsubtype, ih, List.filter_cons_of_pos (by simpa using hsubtype),
        List.flatMap_cons]
      rfl
    · rw [if_neg hsubtype, ih, List.filter_cons_of_neg (by simpa using hsubtype)]

/-- What one client sends, by the messages that it takes and its destinations. -/
def clientSends (s : DsrcMessageManagerPlugin) (channel : BitVec 32) (payload : Bytes)
    (configs : List MessageConfig) (clients : List Destination) : List Send :=
  configs.flatMap fun config => clients.map (datagram config channel s._signature payload)

/-- A routed plugin sends what each client reads. -/
theorem sendLoop_routed (h : s.Routed readJson) (subtype : Bytes) (channel : BitVec 32)
    (payload : Bytes) :
    sendLoop s subtype channel payload s._messageConfigMap =
      (List.finRange 4).flatMap fun c => s.clientSends channel payload
        ((readRoutes readJson s.config c).filter fun config => config.TmxType = subtype)
        ((destinations s.config c).takeWhile s.resolves) := by
  rw [sendLoop_eq, h._messageConfigMap, List.filter_flatMap, List.flatMap_assoc]
  congr 1
  funext c
  unfold clientSends
  apply List.flatMap_congr
  intro config hconfig
  obtain ⟨child, -, hchild⟩ := List.mem_filterMap.mp (List.mem_filter.mp hconfig).1
  rw [messageConfig_clientIndex hchild, h._udpClientList]

theorem length_clientSends (s : DsrcMessageManagerPlugin) (channel : BitVec 32) (payload : Bytes)
    (configs : List MessageConfig) (clients : List Destination) :
    (s.clientSends channel payload configs clients).length = configs.length * clients.length := by
  simp [clientSends, List.length_flatMap]

/-- Lists that are no longer than others, one by one, and come to the same together. -/
theorem length_eq_of_flatMap_eq {ι α : Type} {f g : ι → List α} {l : List ι}
    (hle : ∀ i ∈ l, (f i).length ≤ (g i).length) (h : l.flatMap f = l.flatMap g) :
    ∀ i ∈ l, (f i).length = (g i).length := by
  have hsum : ∀ l : List ι, (∀ i ∈ l, (f i).length ≤ (g i).length) →
      (l.flatMap f).length ≤ (l.flatMap g).length := by
    intro l hl
    induction l with
    | nil => simp
    | cons i l ih =>
      have hhead := hl i (by simp)
      have htail := ih fun j hj => hl j (by simp [hj])
      simp only [List.flatMap_cons, List.length_append]
      omega
  have hlength := congrArg List.length h
  clear h
  induction l with
  | nil => simp
  | cons i l ih =>
    have hhead := hle i (by simp)
    have htail := hsum l fun j hj => hle j (by simp [hj])
    simp only [List.flatMap_cons, List.length_append] at hlength
    intro j hj
    rcases List.mem_cons.mp hj with rfl | hj
    · omega
    · exact ih (fun k hk => hle k (by simp [hk])) (by omega) j hj

theorem readRoutes_sublist (config : ConfigValues) (c : Fin 4) :
    (readRoutes readJson config c).Sublist (routes readJson config c) :=
  (List.takeWhile_sublist _).filterMap _

/-- Two products of factors that are not larger, one by one. -/
theorem factors_eq {a b c d : ℕ} (hac : a ≤ c) (hbd : b ≤ d) (h : a * b = c * d) :
    c = 0 ∨ d = 0 ∨ a = c ∧ b = d := by
  by_contra hne
  push Not at hne
  obtain ⟨hc, hd, hab⟩ := hne
  have hstep : a * b ≤ a * d := Nat.mul_le_mul_left a hbd
  have hstep' : a * d ≤ c * d := Nat.mul_le_mul_right d hac
  have hca : a = c := Nat.eq_of_mul_eq_mul_right (by omega) (by omega : a * d = c * d)
  subst hca
  exact hab rfl (Nat.eq_of_mul_eq_mul_left (by omega) h)

/-- What a client sends, and what it should send. -/
def sends (readJson : Bytes → Option PTree) (s : DsrcMessageManagerPlugin) (subtype : Bytes)
    (channel : BitVec 32) (payload : Bytes) (c : Fin 4) : List Send :=
  s.clientSends channel payload
    ((readRoutes readJson s.config c).filter fun config => config.TmxType = subtype)
    ((destinations s.config c).takeWhile s.resolves)

def shouldSend (readJson : Bytes → Option PTree) (s : DsrcMessageManagerPlugin) (subtype : Bytes)
    (channel : BitVec 32) (payload : Bytes) (c : Fin 4) : List Send :=
  s.clientSends channel payload
    ((routes readJson s.config c).filter fun config => config.TmxType = subtype)
    (destinations s.config c)

section Client
variable {subtype payload : Bytes} {channel : BitVec 32} {c : Fin 4}

theorem filter_readRoutes_sublist (readJson : Bytes → Option PTree)
    (s : DsrcMessageManagerPlugin) (subtype : Bytes) (c : Fin 4) :
    ((readRoutes readJson s.config c).filter fun config => config.TmxType = subtype).Sublist
      ((routes readJson s.config c).filter fun config => config.TmxType = subtype) :=
  (readRoutes_sublist s.config c).filter _

theorem length_sends_le :
    (s.sends readJson subtype channel payload c).length ≤
      (s.shouldSend readJson subtype channel payload c).length := by
  rw [sends, shouldSend, length_clientSends, length_clientSends]
  exact Nat.mul_le_mul (filter_readRoutes_sublist readJson s subtype c).length_le
    (List.takeWhile_sublist _).length_le

theorem complete_of_length_eq (h : (s.sends readJson subtype channel payload c).length =
    (s.shouldSend readJson subtype channel payload c).length) : s.Complete readJson subtype c := by
  rw [sends, shouldSend, length_clientSends, length_clientSends] at h
  have hroutes := filter_readRoutes_sublist readJson s subtype c
  have hclients : ((destinations s.config c).takeWhile s.resolves).Sublist
      (destinations s.config c) := List.takeWhile_sublist _
  rcases factors_eq hroutes.length_le hclients.length_le h with hnone | hnone | ⟨hall, hall'⟩
  · refine .inl fun config hconfig heq => ?_
    have hmem : config ∈ (routes readJson s.config c).filter fun m => m.TmxType = subtype :=
      List.mem_filter.mpr ⟨hconfig, by simpa using heq⟩
    rw [List.length_eq_zero_iff.mp hnone] at hmem
    simp at hmem
  · exact .inr (.inl (List.length_eq_zero_iff.mp hnone))
  · refine .inr (.inr ⟨hroutes.eq_of_length hall, fun destination hdestination => ?_⟩)
    have heq := hclients.eq_of_length hall'
    rw [← heq] at hdestination
    exact List.mem_takeWhile_imp hdestination

theorem sends_of_complete (h : s.Complete readJson subtype c) :
    s.sends readJson subtype channel payload c = s.shouldSend readJson subtype channel payload c := by
  rcases h with hnone | hnone | ⟨hroutes, hresolves⟩
  · have hfilter : ((routes readJson s.config c).filter fun config => config.TmxType = subtype) =
        [] := by
      simpa [List.filter_eq_nil_iff] using hnone
    have hread := filter_readRoutes_sublist readJson s subtype c
    rw [hfilter, List.sublist_nil] at hread
    rw [sends, shouldSend, hread, hfilter]
    rfl
  · have hnil : ∀ configs, s.clientSends channel payload configs [] = [] := by
      intro configs
      apply List.length_eq_zero_iff.mp
      rw [length_clientSends]
      simp
    rw [sends, shouldSend, hnone, List.takeWhile_nil, hnil, hnil]
  · rw [sends, shouldSend, hroutes, List.takeWhile_eq_self_iff.mpr hresolves]

end Client

theorem flatMap_sends_eq_iff (s : DsrcMessageManagerPlugin) (subtype : Bytes)
    (channel : BitVec 32) (payload : Bytes) :
    (List.finRange 4).flatMap (s.sends readJson subtype channel payload) =
        (List.finRange 4).flatMap (s.shouldSend readJson subtype channel payload) ↔
      ∀ c, s.Complete readJson subtype c := by
  constructor
  · intro h c
    exact complete_of_length_eq
      (length_eq_of_flatMap_eq (fun c _ => length_sends_le) h c (List.mem_finRange c))
  · intro h
    exact List.flatMap_congr fun c _ => sends_of_complete (h c)

/-- A message is delivered exactly when it is deliverable. -/
theorem delivered_iff (h : s.Routed readJson) (msg : IvpMessage) (metadata : IvpDsrcMetadata) :
    s.Delivered readJson msg metadata ↔ s.Deliverable readJson msg := by
  unfold Delivered Deliverable
  cases hsubtype : msg.subtype with
  | none => simp [sendMessageToRadio, expected, hsubtype]
  | some subtype =>
    have hrouted : (s.countMessage subtype).Routed readJson := ⟨h.1, h.2⟩
    have hexpected : s.expected readJson msg metadata = (List.finRange 4).flatMap
        (s.shouldSend readJson subtype metadata.channel (payloadText msg)) := by
      rw [expected, hsubtype]
      rfl
    rw [hexpected]
    simp only [Option.mem_def, Option.some.injEq, forall_eq']
    by_cases hpayload : ∃ valuestring, msg.payload = some (.string valuestring)
    · obtain ⟨valuestring, hpayload⟩ := hpayload
      have hsends : (s.sendMessageToRadio msg metadata).map Prod.snd = some
          ((List.finRange 4).flatMap
            (s.sends readJson subtype metadata.channel (payloadText msg))) := by
        simp only [sendMessageToRadio, hsubtype, hpayload, payloadText, Option.map_some,
          Option.some.injEq]
        exact sendLoop_routed hrouted subtype metadata.channel (valuestring.map toUpper)
      rw [hsends, Option.some.injEq, flatMap_sends_eq_iff]
      simp [hpayload]
    · have hnone : s.sendMessageToRadio msg metadata = none := by
        simp only [sendMessageToRadio, hsubtype]
        split
        · exact absurd ⟨_, ‹_›⟩ hpayload
        · rfl
      rw [hnone]
      simp [hpayload]

end Sending

section Runs
variable {readJson} {s t : DsrcMessageManagerPlugin}

/-- What the runs keep. -/
structure Inv (readJson : Bytes → Option PTree) (s : DsrcMessageManagerPlugin) : Prop where
  routed : s._configRead = true → s.Routed readJson
  counts : ∀ subtype, s._messageCountMap.find subtype =
    if subtype ∈ s.processed then some ((s.processed.count subtype : ℤ) - 1) else none

theorem Inv.new (config : ConfigValues) : Inv readJson (new config) :=
  ⟨fun hread => by simp [DsrcMessageManagerPlugin.new] at hread, fun subtype => by
    simp [DsrcMessageManagerPlugin.new, OrderedMap.find, OrderedMap.empty]⟩

theorem Inv.countMessage (h : Inv readJson s) (subtype : Bytes) :
    Inv readJson (s.countMessage subtype) := by
  refine ⟨fun hread => ⟨(h.routed hread).1, (h.routed hread).2⟩, fun subtype' => ?_⟩
  have hcount := h.counts subtype
  have hcount' := h.counts subtype'
  simp only [DsrcMessageManagerPlugin.countMessage, OrderedMap.find_insert, hcount, hcount',
    List.mem_append, List.mem_singleton, List.count_append, List.count_singleton]
  by_cases heq : subtype = subtype'
  · subst heq
    by_cases hmem : subtype ∈ s.processed
    · simp [hmem]
    · simp [hmem, List.count_eq_zero_of_not_mem hmem]
  · have heq' : ¬ subtype' = subtype := fun h => heq h.symm
    simp [heq, heq']

/-- A message that has a subtype is counted. -/
theorem sendMessageToRadio_state {msg : IvpMessage} {metadata : IvpDsrcMetadata}
    {sent : List Send} (h : s.sendMessageToRadio msg metadata = some (t, sent)) :
    t = msg.subtype.elim s s.countMessage := by
  unfold sendMessageToRadio at h
  cases hsubtype : msg.subtype with
  | none =>
    simp only [hsubtype, Option.some.injEq] at h
    exact (Prod.ext_iff.mp h).1.symm
  | some subtype =>
    simp only [hsubtype] at h
    split at h
    · exact (Prod.ext_iff.mp (Option.some.inj h)).1.symm
    · simp at h

theorem onMessageReceived_of_processes {msg : IvpMessage} {metadata : IvpDsrcMetadata}
    (h : s.Processes msg metadata) :
    s.onMessageReceived msg = s.sendMessageToRadio msg metadata := by
  obtain ⟨hread, hmetadata, hmute⟩ := h
  simp [onMessageReceived, hread, hmetadata, hmute]

/-- A received message changes nothing, or is processed and counted. -/
theorem onMessageReceived_cases {msg : IvpMessage} {sent : List Send}
    (h : s.onMessageReceived msg = some (t, sent)) :
    t = s ∨ ∃ metadata subtype, s.Processes msg metadata ∧ msg.subtype = some subtype ∧
      t = s.countMessage subtype := by
  by_cases hprocesses : ∃ metadata, s.Processes msg metadata
  · obtain ⟨metadata, hprocesses⟩ := hprocesses
    rw [onMessageReceived_of_processes hprocesses] at h
    have ht := sendMessageToRadio_state h
    cases hsubtype : msg.subtype with
    | none => exact .inl (by rw [ht, hsubtype]; rfl)
    | some subtype => exact .inr ⟨metadata, subtype, hprocesses, rfl, by rw [ht, hsubtype]; rfl⟩
  · have hsame : s.onMessageReceived msg = some (s, []) := by
      unfold onMessageReceived
      cases hmetadata : msg.dsrcMetadata with
      | none => simp
      | some metadata =>
        have hnot : s._configRead = true → s._muteDsrc = true := by
          intro hread
          by_contra hmute
          exact hprocesses ⟨metadata, hread, hmetadata, by simpa using hmute⟩
        cases hread : s._configRead with
        | false => simp
        | true => simp [hnot hread]
    rw [hsame, Option.some.injEq] at h
    exact .inl (Prod.ext_iff.mp h).1.symm

theorem step_inv {a : Act} (h : Inv readJson s) (hstep : s.step readJson a = some t) :
    Inv readJson t := by
  have hupdate : ∀ (u : DsrcMessageManagerPlugin) resolves, u._messageCountMap = s._messageCountMap →
      u.processed = s.processed → u.updateConfigSettings readJson resolves = some t →
      Inv readJson t := by
    intro u resolves hcounts hprocessed hu
    obtain ⟨hrouted, hcounts', hprocessed'⟩ := updateConfigSettings_eq hu
    refine ⟨fun _ => hrouted, ?_⟩
    rw [hcounts', hprocessed', hcounts, hprocessed]
    exact h.counts
  cases a with
  | registered resolves => exact hupdate s resolves rfl rfl hstep
  | configChanged key value resolves =>
    exact hupdate { s with config := s.config.insert key value } resolves rfl rfl hstep
  | received msg =>
    obtain ⟨⟨t', sent⟩, hreceived, rfl⟩ := Option.map_eq_some_iff.mp hstep
    rcases onMessageReceived_cases hreceived with heq | ⟨_, subtype, -, -, heq⟩
    · exact heq ▸ h
    · exact heq ▸ h.countMessage subtype

theorem run_inv {config : ConfigValues} {acts : List Act}
    (hr : (machine readJson).run (new config) acts = some s) : Inv readJson s := by
  have hstep : ∀ u a v, Inv readJson u → (machine readJson).step u a = some v → Inv readJson v :=
    fun _ _ _ hu hv => step_inv hu hv
  exact Machine.run_invariant hstep (Inv.new config) hr

/-- No message of a subtype is processed. -/
def Unprocessed (readJson : Bytes → Option PTree) (config : ConfigValues) (acts : List Act) : Prop :=
  ∀ before msg after s metadata, acts = before ++ .received msg :: after →
    (machine readJson).run (new config) before = some s → s.Processes msg metadata →
    msg.subtype = none

theorem unprocessed_of_forwards_counts {config : ConfigValues} {acts : List Act}
    (hforwards : Forwards readJson config acts) (hcounts : Counts readJson config acts) :
    Unprocessed readJson config acts := by
  intro before msg after s metadata hacts hrun hprocesses
  by_contra hsubtype
  obtain ⟨subtype, hsubtype⟩ := Option.ne_none_iff_exists'.mp hsubtype
  have hdelivered := hforwards before msg after s metadata hacts hrun hprocesses
  obtain ⟨⟨t, sent⟩, hsent, -⟩ := Option.map_eq_some_iff.mp hdelivered
  have ht : t = s.countMessage subtype := by
    rw [sendMessageToRadio_state hsent, hsubtype]
    rfl
  have hstep : (machine readJson).step s (.received msg) = some t := by
    change (s.onMessageReceived msg).map Prod.fst = some t
    rw [onMessageReceived_of_processes hprocesses, hsent]
    rfl
  have hrun' : (machine readJson).run (new config) (before ++ [.received msg]) = some t :=
    Machine.run_append hrun (Machine.run_cons_eq_some.mpr ⟨t, hstep, rfl⟩)
  have hcount := hcounts (before ++ [.received msg]) after t (by simp [hacts]) hrun' subtype
  have hinv := (run_inv hrun').counts subtype
  have hmem : subtype ∈ t.processed := by simp [ht, countMessage]
  rw [hinv, if_pos hmem, Option.getD_some] at hcount
  omega

theorem processed_of_unprocessed {config : ConfigValues} {before after : List Act}
    (h : Unprocessed readJson config (before ++ after))
    (hr : (machine readJson).run (new config) before = some s) : s.processed = [] := by
  have hguard : (machine readJson).Obeys (fun s a => ∀ msg, a = .received msg → ∀ metadata,
      s.Processes msg metadata → msg.subtype = none) (new config) before := by
    apply Machine.obeys_of_prefixes
    rintro front a back t hacts hrun msg rfl metadata hprocesses
    exact h front msg (back ++ after) t metadata (by simp [hacts]) hrun hprocesses
  have hstep : ∀ u a v, u.processed = [] → (∀ msg, a = .received msg → ∀ metadata,
      u.Processes msg metadata → msg.subtype = none) → (machine readJson).step u a = some v →
      v.processed = [] := by
    intro u a v hu hguard hv
    cases a with
    | registered resolves => exact (updateConfigSettings_eq hv).2.2.trans hu
    | configChanged key value resolves => exact (updateConfigSettings_eq hv).2.2.trans hu
    | received msg =>
      obtain ⟨⟨t, sent⟩, hreceived, rfl⟩ := Option.map_eq_some_iff.mp hv
      rcases onMessageReceived_cases hreceived with heq | ⟨metadata, subtype, hprocesses, hs, -⟩
      · exact heq ▸ hu
      · rw [hguard msg rfl metadata hprocesses] at hs
        simp at hs
  exact Machine.obeys_invariant hstep rfl hguard hr

theorem forwards_iff (config : ConfigValues) (acts : List Act) :
    Forwards readJson config acts ↔
      ∀ before msg after s metadata, acts = before ++ .received msg :: after →
        (machine readJson).run (new config) before = some s → s.Processes msg metadata →
        s.Deliverable readJson msg := by
  constructor
  all_goals
    intro h before msg after s metadata hacts hrun hprocesses
    have hiff := delivered_iff ((run_inv hrun).routed hprocesses.1) msg metadata
    have hthis := h before msg after s metadata hacts hrun hprocesses
  · exact hiff.mp hthis
  · exact hiff.mpr hthis

end Runs

/-- The counts are right only where no message was counted; apart from them, each message is sent
to whom it should be exactly when it is deliverable. -/
theorem forwards_counts_iff (readJson : Bytes → Option PTree) (config : ConfigValues)
    (acts : List Act) :
    (Forwards readJson config acts ∧ Counts readJson config acts ↔
        Unprocessed readJson config acts) ∧
      (Forwards readJson config acts ↔
        ∀ before msg after s metadata, acts = before ++ .received msg :: after →
          (machine readJson).run (new config) before = some s → s.Processes msg metadata →
          s.Deliverable readJson msg) := by
  refine ⟨⟨fun h => unprocessed_of_forwards_counts h.1 h.2, fun h => ⟨?_, ?_⟩⟩, forwards_iff _ _⟩
  · rw [forwards_iff]
    intro before msg after s metadata hacts hrun hprocesses subtype hsubtype
    rw [h before msg after s metadata hacts hrun hprocesses] at hsubtype
    simp at hsubtype
  · rintro before after s rfl hrun subtype
    have hcount := (run_inv hrun).counts subtype
    rw [processed_of_unprocessed h hrun] at hcount ⊢
    rw [hcount]
    simp

/-- A message with an encoded payload, for a channel of the radio. -/
def sampleMessage : IvpMessage where
  type := some (cstr "J2735")
  subtype := some (cstr "SPAT-P")
  source := none
  sourceId := 0
  encoding := none
  timestamp := 0
  flags := 0
  dsrcMetadata := some ⟨172, 0x8002⟩
  payload := some (.string (cstr "0013"))

/-- The first message of a subtype is counted as none. -/
theorem forwards_counts_fails :
    ¬ (Forwards (fun _ => none) .empty [.registered fun _ => true, .received sampleMessage] ∧
      Counts (fun _ => none) .empty [.registered fun _ => true, .received sampleMessage]) := by
  rintro ⟨-, hcounts⟩
  have hcount := hcounts _ [] _ (List.append_nil _).symm rfl (cstr "SPAT-P")
  exact absurd hcount (by decide)

end DsrcMessageManagerPlugin
end V2IHub.Dsrc
