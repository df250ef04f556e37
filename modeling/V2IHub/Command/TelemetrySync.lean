import V2IHub.Foundation.Machine
import V2IHub.Command.TelemetryClient

/-! The polls, the sessions and their clients, and when the views of a client follow the
database. -/
namespace V2IHub.Command.TelemetrySync
open V2IHub.Foundation V2IHub.Foundation.JsonText V2IHub.Messages

section Definitions
variable (fmt : Format) (updateIntervalMS : ℕ)

/-- A session, beside the views of its client and the snapshots that it was last sent
telemetry of. -/
structure Subscriber where
  authorized : Bool
  sendFullTelemetry : Bool
  lastUpdateSendTimeMS : ℕ
  views : Views
  seen : DataType → PTree

/-- The client of a new session starts with nothing. -/
def Subscriber.fresh (now : ℕ) : Subscriber :=
  ⟨false, true, now, fun _ => View.empty, fun _ => .empty⟩

structure Hub where
  channels : DataType → Channel
  lastPluginsUpdateTimeMS : ℕ
  connectionCount : ℕ
  sessions : ℕ → Option Subscriber

namespace Hub

def initial : Hub := ⟨fun _ => .initial, 0, 0, fun _ => none⟩

def setSession (hub : Hub) (sid : ℕ) (s : Option Subscriber) : Hub :=
  { hub with sessions := Function.update hub.sessions sid s }

@[simp] theorem setSession_self (hub : Hub) (sid : ℕ) (s : Option Subscriber) :
    (hub.setSession sid s).sessions sid = s := Function.update_self _ _ _

theorem setSession_of_ne (hub : Hub) {sid sid' : ℕ} (h : sid' ≠ sid) (s : Option Subscriber) :
    (hub.setSession sid s).sessions sid' = hub.sessions sid' := Function.update_of_ne h _ _

def fullTelemetry (hub : Hub) (now : ℕ) : Bytes :=
  viewTypes.flatMap fun dataType =>
    buildFullTelemetry dataType now (hub.channels dataType).telemetry

def updateTelemetry (hub : Hub) (now : ℕ) : Bytes :=
  (viewTypes.flatMap fun dataType =>
    buildUpdateTelemetry dataType now (hub.channels dataType).telemetry) ++
  buildRemoveTelemetry .list now (hub.channels .list).telemetry

end Hub

/-- The writable callback of a session, and what its client receives. -/
def Subscriber.writable (hub : Hub) (now : ℕ) (s : Subscriber) : Subscriber :=
  if s.authorized then
    if s.sendFullTelemetry then
      { s with
        sendFullTelemetry := false
        lastUpdateSendTimeMS := hub.lastPluginsUpdateTimeMS
        views := receive s.views (hub.fullTelemetry now)
        seen := fun dataType =>
          if (hub.channels dataType).telemetry.haveData then (hub.channels dataType).snapshot
          else s.seen dataType }
    else if s.lastUpdateSendTimeMS < hub.lastPluginsUpdateTimeMS then
      { s with
        lastUpdateSendTimeMS := hub.lastPluginsUpdateTimeMS
        views := receive s.views (hub.updateTelemetry now)
        seen := if hub.updateTelemetry now = [] then s.seen
          else fun dataType => (hub.channels dataType).snapshot }
    else s
  else s

/-- The calls of `GetTelemetry` in `Main`. -/
def getEach (polled : DataType → Option PTree) :
    List DataType → (DataType → Channel) → Option (DataType → Channel)
  | [], channels => some channels
  | dataType :: dataTypes, channels => do
    let channel ← (channels dataType).poll fmt dataType (polled dataType)
    getEach polled dataTypes (Function.update channels dataType channel)

/-- `polled` is what the database holds, or nothing where a query fails. -/
inductive Act where
  | established (sid now : ℕ)
  | login (sid : ℕ)
  | logout (sid now : ℕ)
  | closed (sid : ℕ)
  | poll (currentTime : ℕ) (polled : DataType → Option PTree)
  | writable (sid now : ℕ)

def step (hub : Hub) : Act → Option Hub
  | .established sid now =>
    if (hub.sessions sid).isSome then none
    else some { hub.setSession sid (some (.fresh now)) with
      connectionCount := hub.connectionCount + 1 }
  | .login sid =>
    (hub.sessions sid).map fun s => hub.setSession sid (some { s with authorized := true })
  | .logout sid now =>
    match hub.sessions sid with
    | none => none
    | some s => if s.authorized then some (hub.setSession sid (some (.fresh now))) else none
  | .closed sid =>
    if (hub.sessions sid).isSome then
      let closed := { hub.setSession sid none with connectionCount := hub.connectionCount - 1 }
      some (if closed.connectionCount = 0 then
        { closed with channels := fun _ => .initial, lastPluginsUpdateTimeMS := 0 } else closed)
    else none
  | .poll currentTime polled =>
    if 0 < hub.connectionCount ∧ hub.lastPluginsUpdateTimeMS + updateIntervalMS ≤ currentTime then
      (getEach fmt polled viewTypes hub.channels).map fun channels =>
        { hub with channels := channels, lastPluginsUpdateTimeMS := currentTime }
    else none
  | .writable sid now =>
    (hub.sessions sid).map fun s => hub.setSession sid (some (s.writable hub now))

def server : Machine Hub Act := ⟨step fmt updateIntervalMS⟩

/-- The callback will send updates if there are any. -/
def Subscriber.Due (hub : Hub) (s : Subscriber) : Prop :=
  s.authorized = true ∧ s.sendFullTelemetry = false ∧
    s.lastUpdateSendTimeMS < hub.lastPluginsUpdateTimeMS

/-- After each callback that sends updates, the views of the client are the latest snapshots. -/
def Converges (acts : List Act) : Prop :=
  ∀ front sid now rest hub s hub' s', acts = front ++ .writable sid now :: rest →
    (server fmt updateIntervalMS).run .initial front = some hub → hub.sessions sid = some s →
    s.Due hub → hub.updateTelemetry now ≠ [] →
    step fmt updateIntervalMS hub (.writable sid now) = some hub' → hub'.sessions sid = some s' →
    ∀ dataType ∈ viewTypes, s'.views dataType = snapshotView (hub'.channels dataType).snapshot

end Definitions

section Conditions

/-- The last poll had something to tell. -/
def Hub.HasNews (hub : Hub) : Prop :=
  (∃ dataType ∈ viewTypes, (hub.channels dataType).telemetry.haveData = true ∧
    (hub.channels dataType).telemetry.pluginsUpdatesJSON.entries ≠ []) ∨
  (hub.channels .list).telemetry.haveData = true ∧
    (hub.channels .list).telemetry.pluginsRemoveJSON.entries ≠ []

/-- The plugins that a `Remove_List` will take out. -/
def Hub.gone (hub : Hub) : List Bytes := TelemetrySync.gone (hub.channels .list)

/-- The plugins that go had no values left, and every other value of the last snapshot was seen
before or is new since the poll before. -/
structure CatchesUp (c : Channel) (gone : List Bytes) (seen : PTree) : Prop where
  left : ∀ name ∈ gone, ∀ path, snapshotView c.snapshot (name :: path) = none
  kept : ∀ path, (∀ name ∈ path.head?, name ∉ gone) →
    snapshotView c.snapshot path = snapshotView seen path ∨
      c.telemetry.haveData = true ∧ snapshotView c.snapshot path ≠ none ∧
        snapshotView c.snapshot path ≠ snapshotView c.before path

/-- The update of the last poll brings the client from what it has seen to the last snapshots. -/
structure Told (hub : Hub) (s : Subscriber) : Prop where
  caught : ∀ dataType ∈ viewTypes, CatchesUp (hub.channels dataType) hub.gone (s.seen dataType)
  fits : ∀ dataType ∈ viewTypes, (hub.channels dataType).telemetry.haveData = true →
    ChangesFit dataType (hub.channels dataType).changes
  plain : ∀ name ∈ hub.gone, 46 ∉ name

/-- The condition on each step. -/
def Expected (hub : Hub) : Act → Prop
  | .poll _ polled => ∀ dataType ∈ viewTypes, ∀ tree ∈ polled dataType, Snapshot dataType tree
  | .writable sid _ =>
    ∀ s, hub.sessions sid = some s → s.Due hub → hub.HasNews → Told hub s
  | _ => True

end Conditions

section Views
variable {fmt : Format} {hub : Hub} {s : Subscriber} {dataType : DataType}

theorem snapshotView_empty : snapshotView .empty = View.empty := by
  funext path
  cases path <;> rfl

theorem updateTelemetry_ne_nil_iff (now : ℕ) : hub.updateTelemetry now ≠ [] ↔ hub.HasNews := by
  have hupdate : ∀ dataType,
      buildUpdateTelemetry dataType now (hub.channels dataType).telemetry ≠ [] ↔
      (hub.channels dataType).telemetry.haveData = true ∧
        (hub.channels dataType).telemetry.pluginsUpdatesJSON.entries ≠ [] := by
    intro dataType
    rw [buildUpdateTelemetry]
    split_ifs with h
    · simp [h]
    · simpa using h
  have hremove : buildRemoveTelemetry .list now (hub.channels .list).telemetry ≠ [] ↔
      (hub.channels .list).telemetry.haveData = true ∧
        (hub.channels .list).telemetry.pluginsRemoveJSON.entries ≠ [] := by
    rw [buildRemoveTelemetry]
    split_ifs with h
    · simp [h]
    · simpa using h
  rw [Hub.updateTelemetry, ne_eq, List.append_eq_nil_iff, not_and_or, ← ne_eq, ← ne_eq, hremove,
    Hub.HasNews, ne_eq, List.flatMap_eq_nil_iff]
  simp only [not_forall, exists_prop, hupdate]

/-- What the telemetry of a poll leaves in a view. -/
def viewAfter (hub : Hub) (dataType : DataType) (view : View) : View :=
  if (hub.channels dataType).telemetry.haveData then
    view.merge (updatesView dataType (hub.channels dataType).changes)
  else view

theorem receive_updateTelemetry (hfmt : JsonFormat fmt)
    (hchannels : ∀ dataType ∈ viewTypes, (hub.channels dataType).Followed fmt dataType)
    (hfits : ∀ dataType ∈ viewTypes, (hub.channels dataType).telemetry.haveData = true →
      ChangesFit dataType (hub.channels dataType).changes)
    (hplain : ∀ name ∈ hub.gone, 46 ∉ name) (htype : dataType ∈ viewTypes) (now : ℕ)
    (views : Views) :
    receive views (hub.updateTelemetry now) dataType =
      (viewAfter hub dataType (views dataType)).remove (· ∈ hub.gone) := by
  have hnodup : viewTypes.Nodup := by decide
  have hupdates := receive_each (f := viewAfter hub) hnodup (fun dataType htype views rest =>
    receive_update (hchannels dataType htype).shows (hfits dataType htype) now views rest) views
  rw [Hub.updateTelemetry, hupdates, receive_remove hfmt (hchannels .list (by decide)) hplain]
  simp only [if_pos htype]
  rfl

/-- A client that is told all there is to tell sees the snapshot. -/
theorem viewAfter_remove (hc : (hub.channels dataType).Followed fmt dataType) {seen : PTree}
    (h : CatchesUp (hub.channels dataType) hub.gone seen) :
    (viewAfter hub dataType (snapshotView seen)).remove (· ∈ hub.gone) =
      snapshotView (hub.channels dataType).snapshot := by
  funext path
  rw [View.remove]
  split_ifs with hgone
  · cases path with
    | nil => simp at hgone
    | cons name path => exact (h.left name (by simpa using hgone) path).symm
  · have hkept : ∀ name ∈ path.head?, name ∉ hub.gone := by
      cases path with
      | nil => simp
      | cons name path => simpa using hgone
    have hpath := h.kept path hkept
    rw [viewAfter]
    split_ifs with hdata
    · rw [View.merge]
      cases hcarried : updatesView dataType (hub.channels dataType).changes path with
      | some v =>
        rw [hc.carried path v hcarried]
        rfl
      | none =>
        rw [Option.none_or]
        rcases hpath with hsame | ⟨-, hsome, hnew⟩
        · exact hsame.symm
        · obtain ⟨v, hv⟩ := Option.ne_none_iff_exists'.mp hsome
          rcases hc.carries path v hv with hbefore | hupdate
          · exact absurd (hv.trans hbefore.symm) hnew
          · rw [hcarried] at hupdate
            simp at hupdate
    · rcases hpath with hsame | ⟨hhave, -⟩
      · exact hsame.symm
      · exact absurd hhave hdata

theorem receive_fullTelemetry (hfmt : JsonFormat fmt)
    (hchannels : ∀ dataType ∈ viewTypes, (hub.channels dataType).Followed fmt dataType)
    (htype : dataType ∈ viewTypes) (now : ℕ) (views : Views) :
    receive views (hub.fullTelemetry now) dataType =
      if (hub.channels dataType).telemetry.haveData then
        (views dataType).merge (snapshotView (hub.channels dataType).snapshot)
      else views dataType := by
  have hnodup : viewTypes.Nodup := by decide
  have hfull := receive_each
    (f := fun dataType view => if (hub.channels dataType).telemetry.haveData then
      view.merge (snapshotView (hub.channels dataType).snapshot) else view)
    hnodup (fun dataType htype views rest => receive_full hfmt (hchannels dataType htype).snapshot
      (hchannels dataType htype).json now views rest) views []
  rw [List.append_nil, receive_nil] at hfull
  rw [Hub.fullTelemetry, hfull]
  exact if_pos htype

end Views

section Runs
variable {fmt : Format} {updateIntervalMS : ℕ} {hub hub' : Hub} {s : Subscriber}

theorem getEach_spec {polled : DataType → Option PTree} {dataTypes : List DataType}
    {channels channels' : DataType → Channel} (hnodup : dataTypes.Nodup)
    (h : getEach fmt polled dataTypes channels = some channels') :
    (∀ dataType ∈ dataTypes,
      (channels dataType).poll fmt dataType (polled dataType) = some (channels' dataType)) ∧
    ∀ dataType ∉ dataTypes, channels' dataType = channels dataType := by
  induction dataTypes generalizing channels with
  | nil =>
    obtain rfl := Option.some.inj h
    simp
  | cons dataType dataTypes ih =>
    rw [getEach] at h
    obtain ⟨channel, hpoll, hrest⟩ := Option.bind_eq_some_iff.mp h
    obtain ⟨hout, hnodup⟩ := List.nodup_cons.mp hnodup
    obtain ⟨hpolls, hothers⟩ := ih hnodup hrest
    constructor
    · intro dataType' hmem
      rcases List.mem_cons.mp hmem with rfl | hmem
      · rw [hothers _ hout, Function.update_self]
        exact hpoll
      · have hne : dataType' ≠ dataType := fun heq => hout (heq ▸ hmem)
        have hpoll' := hpolls dataType' hmem
        rwa [Function.update_of_ne hne] at hpoll'
    · intro dataType' hmem
      rw [List.mem_cons, not_or] at hmem
      rw [hothers _ hmem.2, Function.update_of_ne hmem.1]

/-- Every client sees what it was last sent telemetry of. -/
structure Inv (fmt : Format) (hub : Hub) : Prop where
  channels : ∀ dataType ∈ viewTypes, (hub.channels dataType).Followed fmt dataType
  views : ∀ sid s, hub.sessions sid = some s →
    ∀ dataType ∈ viewTypes, s.views dataType = snapshotView (s.seen dataType)
  fresh : ∀ sid s, hub.sessions sid = some s → s.sendFullTelemetry = true →
    s.views = fun _ => View.empty

theorem inv_initial : Inv fmt .initial where
  channels _ _ := Channel.followed_initial
  views sid s h := by simp [Hub.initial] at h
  fresh sid s h := by simp [Hub.initial] at h

/-- A step that concerns one session only. -/
theorem Inv.setSession (hinv : Inv fmt hub) (sid : ℕ) {new : Option Subscriber}
    (hviews : ∀ s ∈ new, ∀ dataType ∈ viewTypes, s.views dataType = snapshotView (s.seen dataType))
    (hfresh : ∀ s ∈ new, s.sendFullTelemetry = true → s.views = fun _ => View.empty) :
    Inv fmt (hub.setSession sid new) where
  channels := hinv.channels
  views := by
    intro sid' s hs
    by_cases hsid : sid' = sid
    · subst hsid
      rw [Hub.setSession_self] at hs
      exact hviews s hs
    · rw [hub.setSession_of_ne hsid] at hs
      exact hinv.views sid' s hs
  fresh := by
    intro sid' s hs
    by_cases hsid : sid' = sid
    · subst hsid
      rw [Hub.setSession_self] at hs
      exact hfresh s hs
    · rw [hub.setSession_of_ne hsid] at hs
      exact hinv.fresh sid' s hs

theorem Inv.setFresh (hinv : Inv fmt hub) (sid now : ℕ) :
    Inv fmt (hub.setSession sid (some (.fresh now))) := by
  apply hinv.setSession
  · rintro s hs dataType -
    obtain rfl := Option.some.inj hs
    exact snapshotView_empty.symm
  · rintro s hs -
    obtain rfl := Option.some.inj hs
    rfl

theorem Subscriber.writable_of_due (hdue : s.Due hub) (now : ℕ) :
    s.writable hub now =
      { s with
        lastUpdateSendTimeMS := hub.lastPluginsUpdateTimeMS
        views := receive s.views (hub.updateTelemetry now)
        seen := if hub.updateTelemetry now = [] then s.seen
          else fun dataType => (hub.channels dataType).snapshot } := by
  obtain ⟨hauthorized, hfull, htime⟩ := hdue
  rw [Subscriber.writable, if_pos hauthorized, if_neg (by simp [hfull]), if_pos htime]

theorem Inv.writable_told (hfmt : JsonFormat fmt) (hinv : Inv fmt hub) {sid : ℕ} (now : ℕ)
    (hs : hub.sessions sid = some s) (hdue : s.Due hub) (htold : Told hub s)
    {dataType : DataType} (htype : dataType ∈ viewTypes) :
    (s.writable hub now).views dataType = snapshotView (hub.channels dataType).snapshot := by
  rw [Subscriber.writable_of_due hdue]
  simp only
  rw [receive_updateTelemetry hfmt hinv.channels htold.fits htold.plain htype,
    hinv.views sid s hs dataType htype]
  exact viewAfter_remove (hinv.channels dataType htype) (htold.caught dataType htype)

/-- A callback leaves a client with what it was last sent telemetry of. -/
theorem Inv.writable (hfmt : JsonFormat fmt) (hinv : Inv fmt hub) {sid : ℕ} (now : ℕ)
    (hs : hub.sessions sid = some s) (htold : s.Due hub → hub.HasNews → Told hub s) :
    (∀ dataType ∈ viewTypes, (s.writable hub now).views dataType =
      snapshotView ((s.writable hub now).seen dataType)) ∧
    ((s.writable hub now).sendFullTelemetry = true →
      (s.writable hub now).views = fun _ => View.empty) := by
  have hviews := hinv.views sid s hs
  have hfresh := hinv.fresh sid s hs
  by_cases hdue : s.Due hub
  · have hsent := fun hnews dataType htype =>
      @Inv.writable_told fmt hub s hfmt hinv sid now hs hdue (htold hdue hnews) dataType htype
    rw [Subscriber.writable_of_due hdue] at hsent ⊢
    refine ⟨fun dataType htype => ?_, fun hfull => absurd hfull (by simp [hdue.2.1])⟩
    by_cases hnothing : hub.updateTelemetry now = []
    · simp only [hnothing, receive_nil, ↓reduceIte]
      exact hviews dataType htype
    · simp only [if_neg hnothing]
      exact hsent ((updateTelemetry_ne_nil_iff now).mp hnothing) dataType htype
  · rw [Subscriber.writable]
    split_ifs with hauthorized hfull htime
    · refine ⟨fun dataType htype => ?_, by simp⟩
      have hempty : s.views dataType = View.empty := congrFun (hfresh hfull) dataType
      simp only
      rw [receive_fullTelemetry hfmt hinv.channels htype]
      split_ifs with hdata
      · rw [hempty]
        funext path
        exact Option.or_none
      · exact hviews dataType htype
    · exact absurd ⟨hauthorized, by simpa using hfull, htime⟩ hdue
    · exact absurd ⟨hauthorized, by simpa using hfull, htime⟩ hdue
    · exact ⟨hviews, hfresh⟩
    · exact ⟨hviews, hfresh⟩

theorem Inv.step (hfmt : JsonFormat fmt) (hinv : Inv fmt hub) {act : Act}
    (hexpected : Expected hub act) (h : step fmt updateIntervalMS hub act = some hub') :
    Inv fmt hub' := by
  cases act with
  | established sid now =>
    rw [TelemetrySync.step] at h
    split_ifs at h
    obtain rfl := Option.some.inj h
    have hnew := hinv.setFresh sid now
    exact ⟨hnew.channels, hnew.views, hnew.fresh⟩
  | login sid =>
    obtain ⟨s, hs, rfl⟩ := Option.map_eq_some_iff.mp h
    refine hinv.setSession sid ?_ ?_
    · rintro s' hs'
      obtain rfl := Option.some.inj hs'
      exact hinv.views sid s hs
    · rintro s' hs'
      obtain rfl := Option.some.inj hs'
      exact hinv.fresh sid s hs
  | logout sid now =>
    rw [TelemetrySync.step] at h
    cases hs : hub.sessions sid with
    | none => simp [hs] at h
    | some s =>
      simp only [hs] at h
      split_ifs at h
      obtain rfl := Option.some.inj h
      exact hinv.setFresh sid now
  | closed sid =>
    rw [TelemetrySync.step] at h
    split_ifs at h with hs
    have hclosed : Inv fmt (hub.setSession sid none) :=
      hinv.setSession sid (by simp) (by simp)
    obtain rfl := Option.some.inj h
    simp only
    split_ifs
    · exact ⟨inv_initial.channels, hclosed.views, hclosed.fresh⟩
    · exact ⟨hclosed.channels, hclosed.views, hclosed.fresh⟩
  | poll currentTime polled =>
    rw [TelemetrySync.step] at h
    split_ifs at h
    obtain ⟨channels, hpolls, rfl⟩ := Option.map_eq_some_iff.mp h
    have hnodup : viewTypes.Nodup := by decide
    obtain ⟨hpoll, -⟩ := getEach_spec hnodup hpolls
    refine ⟨fun dataType htype => ?_, hinv.views, hinv.fresh⟩
    exact (hinv.channels dataType htype).poll hfmt htype (hexpected dataType htype)
      (hpoll dataType htype)
  | writable sid now =>
    obtain ⟨s, hs, rfl⟩ := Option.map_eq_some_iff.mp h
    obtain ⟨hviews, hfresh⟩ := hinv.writable hfmt now hs (hexpected s hs)
    refine hinv.setSession sid ?_ ?_
    · rintro s' hs'
      obtain rfl := Option.some.inj hs'
      exact hviews
    · rintro s' hs'
      obtain rfl := Option.some.inj hs'
      exact hfresh

theorem run_inv (hfmt : JsonFormat fmt) {acts : List Act}
    (hobeys : (server fmt updateIntervalMS).Obeys Expected .initial acts)
    (hrun : (server fmt updateIntervalMS).run .initial acts = some hub) : Inv fmt hub :=
  Machine.obeys_invariant (fun _ _ _ hinv hexpected h => hinv.step hfmt hexpected h) inv_initial
    hobeys hrun

/-- In a run whose steps all meet the condition, every callback that sends updates leaves its
client with the latest snapshots. -/
theorem run_converges (hfmt : JsonFormat fmt) {acts : List Act}
    (hobeys : (server fmt updateIntervalMS).Obeys Expected .initial acts) :
    Converges fmt updateIntervalMS acts := by
  intro front sid now rest hub s hub' s' hacts hrun hs hdue hsends hstep hs' dataType htype
  subst hacts
  have hfront := Machine.obeys_of_append hobeys
  have hinv := run_inv hfmt hfront hrun
  have hlast := (Machine.obeys_append hobeys hrun).1
  have htold := hlast s hs hdue ((updateTelemetry_ne_nil_iff now).mp hsends)
  obtain ⟨s₀, hs₀, rfl⟩ := Option.map_eq_some_iff.mp hstep
  obtain rfl := Option.some.inj (hs₀.symm.trans hs)
  rw [Hub.setSession_self] at hs'
  obtain rfl := Option.some.inj hs'
  exact hinv.writable_told hfmt now hs hdue htold htype

end Runs

section Samples

/-- One plugin with one key. -/
def pairTree (name key value : Bytes) : PTree :=
  .node [] [(name, .node [] [(key, .node value [])])]

def pairMember (name key value : Bytes) : Bytes :=
  34 :: (name ++ 34 :: 58 :: 123 :: 34 :: (key ++ 34 :: 58 :: 34 :: (value ++ [34, 125])))

/-- Writes the trees of one plugin with one key when nothing in them needs an escape. -/
def pairJSON : Format where
  write
    | .node [] [(name, .node [] [(key, .node value [])])] =>
      if (Plain name ∧ Plain key ∧ Plain value) ∧ key ≠ [] then
        some (123 :: (pairMember name key value ++ [125, 10]))
      else none
    | _ => none
  read text :=
    match JsonText.read text with
    | some (.object [(name, .object [(key, .string value)])]) => some (pairTree name key value)
    | _ => none

theorem write_pairJSON {t : PTree} {text : Bytes} (h : pairJSON.write t = some text) :
    ∃ name key value, t = pairTree name key value ∧
      ((Plain name ∧ Plain key ∧ Plain value) ∧ key ≠ []) ∧
      text = 123 :: (pairMember name key value ++ [125, 10]) := by
  simp only [pairJSON] at h
  split at h
  next name key value =>
    split_ifs at h with hplain
    exact ⟨name, key, value, rfl, hplain, (Option.some.inj h).symm⟩
  next => simp at h

theorem readsMember_pairMember {name key value : Bytes}
    (hplain : Plain name ∧ Plain key ∧ Plain value) :
    ReadsMember (pairMember name key value) (name, .object [(key, .string value)]) := by
  obtain ⟨hname, hkey, hvalue⟩ := hplain
  have hstring : ReadsValue (Doc.raw value).text (.string value) :=
    (Doc.raw value).readsValue hvalue
  have hobject := readsValue_object (.cons (hstring.member hkey) .nil)
  have hmember := hobject.member hname
  simpa [pairMember, Doc.text] using hmember

theorem jsonFormat_pairJSON : JsonFormat pairJSON where
  writes t text h := by
    obtain ⟨name, key, value, rfl, ⟨hplain, hkey⟩, rfl⟩ := write_pairJSON h
    refine ⟨[pairMember name key value], by rw [List.intercalate_singleton], ?_, .cons ?_ .nil⟩
    · have hout : ∀ {s : Bytes}, Plain s → 3 ∉ s := fun hs hmem => absurd (hs 3 hmem).1 (by decide)
      simp [pairMember, hout hplain.1, hout hplain.2.1, hout hplain.2.2]
    · have hvalue :
          treeValue (.node [] [(key, .node value [])]) = .object [(key, .string value)] := by
        simp [treeValue, membersValue, hkey]
      simp only [hvalue]
      exact readsMember_pairMember hplain
  reads t text h := by
    obtain ⟨name, key, value, rfl, ⟨hplain, -⟩, rfl⟩ := write_pairJSON h
    have hobject := readsValue_object (.cons (readsMember_pairMember hplain) .nil)
    rw [List.intercalate_singleton] at hobject
    simp only [pairJSON, trim_object, hobject.read]

theorem snapshot_pairTree {name key value : Bytes} (hname : name ≠ [] ∧ 124 ∉ name)
    (hkey : key ≠ [] ∧ 124 ∉ key) {dataType : DataType} (hdepth : dataType.depth = 1) :
    Snapshot dataType (pairTree name key value) := by
  constructor <;> rw [pairTree, PTree.children]
  · simp
  · simpa using hname
  · simpa [hdepth, Tabular, PTree.children] using hkey

theorem snapshotView_pairTree (name key value : Bytes) (path : Path) :
    snapshotView (pairTree name key value) path =
      if path = [name, key] then some value else none := by
  have hfind : ∀ (key key' : Bytes) (child : PTree),
      (PTree.node [] [(key, child)]).find key' = if key' = key then some child else none := by
    intro key key' child
    by_cases h : key = key'
    · simp [PTree.find, PTree.children, h]
    · simp [PTree.find, PTree.children, h, Ne.symm h]
  cases path with
  | nil => rfl
  | cons name' path =>
    rw [snapshotView, pairTree, hfind]
    by_cases hname : name' = name
    · rw [if_pos hname, Option.bind_some]
      cases path with
      | nil => simp [leafAt, PTree.children]
      | cons key' path =>
        rw [leafAt, hfind]
        by_cases hkey : key' = key
        · cases path <;> simp [hname, hkey, leafAt, PTree.children, PTree.data, PTree.find]
        · simp [hkey]
    · simp [hname]

theorem pairsFit_pair {old : Option PTree} {key value : Bytes} (hkey : Plain key)
    (hvalue : Clean value) : PairsFit (changedPairs old [(key, .node value [])]) := by
  rw [changedPairs, List.filter_cons]
  split_ifs
  · simp [PairsFit, hkey, PTree.data, hvalue]
  · simp [PairsFit]

/-- A list of plugins and their states, without configurations. -/
def database (list state : PTree) : DataType → Option PTree
  | .list => some list
  | .state => some state
  | _ => some .empty

def stateTree (value : Bytes) : PTree := pairTree [80] [107] value

/-- A client has the full telemetry of the state `1`. -/
def loggedIn : List Act :=
  [.established 0 0, .login 0, .poll 1 (database .empty (stateTree [49])), .writable 0 1]

def steadyRun : List Act := loggedIn ++ [.poll 2 (database .empty (stateTree [50]))]

/-- Another poll, with a plugin in the list, comes before the callback. -/
def slowRun : List Act := steadyRun ++ [.poll 3 (database (stateTree [55]) (stateTree [50]))]

theorem snapshot_stateTree (value : Bytes) {dataType : DataType} (hdepth : dataType.depth = 1) :
    Snapshot dataType (stateTree value) :=
  snapshot_pairTree (by decide) (by decide) hdepth

theorem expected_poll {hub : Hub} {currentTime : ℕ} {list : PTree} (value : Bytes)
    (hlist : Snapshot .list list) :
    Expected hub (.poll currentTime (database list (stateTree value))) := by
  rintro dataType htype tree htree
  cases dataType with
  | list =>
    obtain rfl := Option.some.inj htree
    exact hlist
  | state =>
    obtain rfl := Option.some.inj htree
    exact snapshot_stateTree value rfl
  | config =>
    obtain rfl := Option.some.inj htree
    exact snapshot_empty
  | status => exact absurd htype (by decide)

theorem obeys_slowRun : (server pairJSON 1).Obeys Expected .initial slowRun := by
  have hfull : ∀ (s : Subscriber) (hub : Hub), s.sendFullTelemetry = true → ¬ s.Due hub :=
    fun s hub hfull hdue => absurd hfull (by simp [hdue.2.1])
  refine ⟨trivial, trivial, expected_poll _ snapshot_empty, ?_, expected_poll _ snapshot_empty,
    expected_poll _ (snapshot_stateTree _ rfl), trivial⟩
  intro s hs hdue
  obtain rfl := Option.some.inj hs
  exact absurd hdue (hfull _ _ rfl)

theorem catchesUp_nil {c : Channel} {seen : PTree}
    (h : ∀ path, snapshotView c.snapshot path = snapshotView seen path ∨
      c.telemetry.haveData = true ∧ snapshotView c.snapshot path ≠ none ∧
        snapshotView c.snapshot path ≠ snapshotView c.before path) : CatchesUp c [] seen :=
  ⟨fun _ hname => absurd hname List.not_mem_nil, fun path _ => h path⟩

theorem changesFit_nil {dataType : DataType} {changes : Changes} (h : changes.entries = []) :
    ChangesFit dataType changes := by
  rw [ChangesFit, h]
  exact List.forall_mem_nil _

theorem changesFit_state {value : Bytes} {old : PTree} {changes : Changes} (hvalue : Clean value)
    (h : changes.entries = [([80], .node [] [([107], .node value [])], old)]) {dataType : DataType}
    (hdepth : dataType = .list ∨ dataType = .state) : ChangesFit dataType changes := by
  have hname : Plain [80] := by decide
  have hkey : Plain [107] := by decide
  rw [ChangesFit, h, List.forall_mem_singleton]
  rcases hdepth with rfl | rfl <;> exact ⟨hname, pairsFit_pair hkey hvalue⟩

theorem obeys_steadyRun :
    (server pairJSON 1).Obeys Expected .initial (steadyRun ++ [.writable 0 2]) := by
  refine ⟨trivial, trivial, expected_poll _ snapshot_empty, ?_, expected_poll _ snapshot_empty, ?_,
    trivial⟩
  · intro s hs hdue
    obtain rfl := Option.some.inj hs
    exact absurd hdue.2.1 (by decide)
  · intro s hs _ _
    cases hs
    refine ⟨?_, ?_, fun name hname => absurd hname List.not_mem_nil⟩
    · intro dataType htype
      cases dataType with
      | list => exact catchesUp_nil fun path => Or.inl rfl
      | config => exact catchesUp_nil fun path => Or.inl rfl
      | status => exact absurd htype (by decide)
      | state =>
        refine catchesUp_nil fun path => ?_
        have hnow := snapshotView_pairTree [80] [107] [50] path
        have hbefore := snapshotView_pairTree [80] [107] [49] path
        change snapshotView (pairTree [80] [107] [50]) path =
            snapshotView (pairTree [80] [107] [49]) path ∨
          true = true ∧ snapshotView (pairTree [80] [107] [50]) path ≠ none ∧
            snapshotView (pairTree [80] [107] [50]) path ≠
              snapshotView (pairTree [80] [107] [49]) path
        rw [hnow, hbefore]
        split_ifs <;> decide
    · intro dataType htype _
      cases dataType with
      | list => exact changesFit_nil rfl
      | config => exact changesFit_nil rfl
      | status => exact absurd htype (by decide)
      | state => exact changesFit_state (by decide) rfl (Or.inr rfl)

/-- The state of a plugin changes from `1` to `2`, and the client sees it. -/
theorem run_converges_sample :
    Converges pairJSON 1 (steadyRun ++ [.writable 0 2]) ∧
      ∃ hub s, (server pairJSON 1).run .initial (steadyRun ++ [.writable 0 2]) = some hub ∧
        hub.sessions 0 = some s ∧ s.views .state = snapshotView (stateTree [50]) := by
  have hconverges := run_converges jsonFormat_pairJSON obeys_steadyRun
  refine ⟨hconverges, _, _, rfl, rfl, ?_⟩
  have hsends := fun hub => (@updateTelemetry_ne_nil_iff hub 2).mpr
  exact hconverges steadyRun 0 2 [] _ _ _ _ rfl rfl rfl ⟨rfl, rfl, by decide⟩
    (hsends _ (Or.inl ⟨.state, by decide, rfl, List.cons_ne_nil _ _⟩)) rfl rfl .state (by decide)

/-- What is known after the second of two polls without a callback between them. -/
theorem slowRun_hub : ∃ hub s, (server pairJSON 1).run .initial slowRun = some hub ∧
    hub.sessions 0 = some s ∧ s.Due hub ∧ hub.HasNews ∧ s.seen .state = stateTree [49] ∧
    (hub.channels .state).snapshot = stateTree [50] ∧
    (hub.channels .state).changes.entries = [] ∧ hub.gone = [] ∧
    ∀ dataType ∈ viewTypes, ChangesFit dataType (hub.channels dataType).changes := by
  refine ⟨_, _, rfl, rfl, ⟨rfl, rfl, by decide⟩, ?_, rfl, rfl, rfl, rfl, ?_⟩
  · exact Or.inl ⟨.list, by decide, rfl, List.cons_ne_nil _ _⟩
  · intro dataType htype
    cases dataType with
    | list => exact changesFit_state (by decide) rfl (Or.inl rfl)
    | config => exact changesFit_nil rfl
    | status => exact absurd htype (by decide)
    | state => exact changesFit_nil rfl

/-- Two polls between two callbacks: the client is told of the second only, and keeps the state
`1`. -/
theorem run_converges_fails :
    JsonFormat pairJSON ∧
      (∀ currentTime polled, Act.poll currentTime polled ∈ slowRun →
        ∀ dataType ∈ viewTypes, ∀ tree ∈ polled dataType, Snapshot dataType tree) ∧
      ¬ Converges pairJSON 1 (slowRun ++ [.writable 0 3]) := by
  refine ⟨jsonFormat_pairJSON, ?_, fun h => ?_⟩
  · intro currentTime polled hmem
    simp only [slowRun, steadyRun, loggedIn, List.cons_append, List.nil_append, List.mem_cons,
      reduceCtorEq, Act.poll.injEq, List.not_mem_nil, or_false, false_or] at hmem
    rcases hmem with ⟨-, rfl⟩ | ⟨-, rfl⟩ | ⟨-, rfl⟩
    · exact @expected_poll .initial 0 _ _ snapshot_empty
    · exact @expected_poll .initial 0 _ _ snapshot_empty
    · exact @expected_poll .initial 0 _ _ (snapshot_stateTree _ rfl)
  · obtain ⟨hub, s, hrun, hs, hdue, hnews, hseen, hsnap, hnothing, hgone, hfits⟩ := slowRun_hub
    have hinv := run_inv jsonFormat_pairJSON obeys_slowRun hrun
    have htype : DataType.state ∈ viewTypes := by decide
    have hstep : step pairJSON 1 hub (.writable 0 3) =
        some (hub.setSession 0 (some (s.writable hub 3))) := by
      rw [step, hs, Option.map_some]
    have hview := h slowRun 0 3 [] hub s _ _ rfl hrun hs hdue
      ((updateTelemetry_ne_nil_iff 3).mpr hnews) hstep (hub.setSession_self 0 _) .state htype
    -- the second poll found nothing new in the states
    have hkept : (s.writable hub 3).views .state = snapshotView (stateTree [49]) := by
      rw [Subscriber.writable_of_due hdue]
      simp only
      rw [receive_updateTelemetry jsonFormat_pairJSON hinv.channels
          (fun dataType htype _ => hfits dataType htype) (by simp [hgone]) htype,
        hgone, View.remove_nil, viewAfter, updatesView_nil hnothing, View.merge_empty, ite_self,
        hinv.views 0 s hs .state htype, hseen]
    have hpath := congrFun (hkept.symm.trans hview) [[80], [107]]
    change _ = snapshotView (hub.channels .state).snapshot _ at hpath
    rw [hsnap, stateTree, stateTree, snapshotView_pairTree, snapshotView_pairTree] at hpath
    exact absurd hpath (by decide)

end Samples

end V2IHub.Command.TelemetrySync
