import V2IHub.Command.TelemetrySync

/-! Where the values come from that a client sees: also a client that misses updates only shows
what a poll has found. -/
namespace V2IHub.Command.TelemetrySync
open V2IHub.Foundation V2IHub.Foundation.JsonText V2IHub.Messages

section Conditions

/-- The snapshot of one kind that a step polls. -/
def Act.polled? (dataType : DataType) : Act → Option PTree
  | .poll _ polled => polled dataType
  | _ => none

/-- The snapshots are tables, and what is sent of them is read as it was written. That updates
reach a client in time is not asked for. -/
def Readable (hub : Hub) : Act → Prop
  | .poll _ polled => ∀ dataType ∈ viewTypes, ∀ tree ∈ polled dataType, Snapshot dataType tree
  | .writable sid _ => ∀ s, hub.sessions sid = some s → s.Due hub → hub.HasNews →
      (∀ dataType ∈ viewTypes, (hub.channels dataType).telemetry.haveData = true →
        ChangesFit dataType (hub.channels dataType).changes) ∧ ∀ name ∈ hub.gone, 46 ∉ name
  | _ => True

theorem Expected.readable {hub : Hub} {act : Act} (h : Expected hub act) : Readable hub act := by
  cases act with
  | poll currentTime polled => exact h
  | writable sid now =>
    intro s hs hdue hnews
    have htold := h s hs hdue hnews
    exact ⟨htold.fits, htold.plain⟩
  | established _ _ | login _ | logout _ _ | closed _ => trivial

end Conditions

/-- Every value of the view was at its path in one of the snapshots. -/
def Witnessed (trees : PTree → Prop) (view : View) : Prop :=
  ∀ path v, view path = some v → ∃ tree, trees tree ∧ snapshotView tree path = some v

section Views
variable {trees : PTree → Prop} {view update : View}

theorem witnessed_empty : Witnessed trees View.empty := by
  intro path v hv
  cases hv

theorem Witnessed.merge (hview : Witnessed trees view) (hupdate : Witnessed trees update) :
    Witnessed trees (view.merge update) := by
  intro path v hv
  unfold View.merge at hv
  cases hcarried : update path with
  | some w =>
    rw [hcarried, Option.some_or] at hv
    exact hupdate path v (hcarried.trans hv)
  | none =>
    rw [hcarried, Option.none_or] at hv
    exact hview path v hv

theorem Witnessed.remove (hview : Witnessed trees view) (gone : Bytes → Prop)
    [DecidablePred gone] : Witnessed trees (view.remove gone) := by
  intro path v hv
  unfold View.remove at hv
  split_ifs at hv
  exact hview path v hv

end Views

section Runs
variable {fmt : Format} {updateIntervalMS : ℕ} {trees : DataType → PTree → Prop} {hub hub' : Hub}
  {s : Subscriber}

/-- What a client sees was polled, and what it will be sent as well. -/
structure Origin (fmt : Format) (trees : DataType → PTree → Prop) (hub : Hub) : Prop where
  channels : ∀ dataType ∈ viewTypes, (hub.channels dataType).Followed fmt dataType
  snapshots : ∀ dataType ∈ viewTypes,
    Witnessed (trees dataType) (snapshotView (hub.channels dataType).snapshot)
  views : ∀ sid s, hub.sessions sid = some s →
    ∀ dataType ∈ viewTypes, Witnessed (trees dataType) (s.views dataType)
  fresh : ∀ sid s, hub.sessions sid = some s → s.sendFullTelemetry = true →
    s.views = fun _ => View.empty

theorem origin_initial : Origin fmt trees .initial where
  channels _ _ := Channel.followed_initial
  snapshots _ _ := by
    have hempty : snapshotView (Hub.initial.channels .list).snapshot = View.empty :=
      snapshotView_empty
    exact hempty ▸ witnessed_empty
  views sid s h := by simp [Hub.initial] at h
  fresh sid s h := by simp [Hub.initial] at h

theorem Origin.setSession (h : Origin fmt trees hub) (sid : ℕ) {new : Option Subscriber}
    (hviews : ∀ s ∈ new, ∀ dataType ∈ viewTypes, Witnessed (trees dataType) (s.views dataType))
    (hfresh : ∀ s ∈ new, s.sendFullTelemetry = true → s.views = fun _ => View.empty) :
    Origin fmt trees (hub.setSession sid new) where
  channels := h.channels
  snapshots := h.snapshots
  views := by
    intro sid' s hs
    by_cases hsid : sid' = sid
    · subst hsid
      rw [Hub.setSession_self] at hs
      exact hviews s hs
    · rw [hub.setSession_of_ne hsid] at hs
      exact h.views sid' s hs
  fresh := by
    intro sid' s hs
    by_cases hsid : sid' = sid
    · subst hsid
      rw [Hub.setSession_self] at hs
      exact hfresh s hs
    · rw [hub.setSession_of_ne hsid] at hs
      exact h.fresh sid' s hs

theorem Origin.setFresh (h : Origin fmt trees hub) (sid now : ℕ) :
    Origin fmt trees (hub.setSession sid (some (.fresh now))) := by
  apply h.setSession
  · rintro s hs dataType -
    obtain rfl := Option.some.inj hs
    exact witnessed_empty
  · rintro s hs -
    obtain rfl := Option.some.inj hs
    rfl

/-- An update carries values of the last snapshot only. -/
theorem Origin.viewAfter (h : Origin fmt trees hub) {dataType : DataType}
    (htype : dataType ∈ viewTypes) {view : View} (hview : Witnessed (trees dataType) view) :
    Witnessed (trees dataType) (viewAfter hub dataType view) := by
  unfold TelemetrySync.viewAfter
  split_ifs
  · apply hview.merge
    intro path v hv
    exact h.snapshots dataType htype path v ((h.channels dataType htype).carried path v hv)
  · exact hview

theorem Origin.fullTelemetry (hfmt : JsonFormat fmt) (h : Origin fmt trees hub)
    {dataType : DataType} (htype : dataType ∈ viewTypes) (now : ℕ) {sid : ℕ}
    (hs : hub.sessions sid = some s) (hfull : s.sendFullTelemetry = true) :
    receive s.views (hub.fullTelemetry now) dataType =
      if (hub.channels dataType).telemetry.haveData then
        snapshotView (hub.channels dataType).snapshot
      else View.empty := by
  have hempty : s.views dataType = View.empty := congrFun (h.fresh sid s hs hfull) dataType
  rw [receive_fullTelemetry hfmt h.channels htype, hempty]
  split_ifs
  · funext path
    exact Option.or_none
  · rfl

/-- What a callback leaves a client with. -/
theorem Origin.writable (hfmt : JsonFormat fmt) (h : Origin fmt trees hub) {sid : ℕ} (now : ℕ)
    (hs : hub.sessions sid = some s) (hreadable : Readable hub (.writable sid now)) :
    (∀ dataType ∈ viewTypes, Witnessed (trees dataType) ((s.writable hub now).views dataType)) ∧
      ((s.writable hub now).sendFullTelemetry = true →
        (s.writable hub now).views = fun _ => View.empty) := by
  have hviews := h.views sid s hs
  have hfresh := h.fresh sid s hs
  by_cases hdue : s.Due hub
  · rw [Subscriber.writable_of_due hdue]
    refine ⟨fun dataType htype => ?_, fun hfull => absurd hfull (by simp [hdue.2.1])⟩
    dsimp only
    by_cases hnothing : hub.updateTelemetry now = []
    · rw [hnothing, receive_nil]
      exact hviews dataType htype
    · obtain ⟨hfits, hplain⟩ :=
        hreadable s hs hdue ((updateTelemetry_ne_nil_iff now).mp hnothing)
      rw [receive_updateTelemetry hfmt h.channels hfits hplain htype]
      exact (h.viewAfter htype (hviews dataType htype)).remove _
  · unfold Subscriber.writable
    split_ifs with hauthorized hfull htime
    · refine ⟨fun dataType htype => ?_, by simp⟩
      dsimp only
      rw [h.fullTelemetry hfmt htype now hs hfull]
      split_ifs
      · exact h.snapshots dataType htype
      · exact witnessed_empty
    · exact absurd ⟨hauthorized, by simpa using hfull, htime⟩ hdue
    · exact absurd ⟨hauthorized, by simpa using hfull, htime⟩ hdue
    · exact ⟨hviews, hfresh⟩
    · exact ⟨hviews, hfresh⟩

/-- A poll that works has its snapshot, and one that fails keeps the one before. -/
theorem Channel.snapshot_poll {dataType : DataType} {c c' : Channel} {polled : Option PTree}
    (h : c.poll fmt dataType polled = some c') : c'.snapshot = polled.getD c.snapshot := by
  cases polled with
  | none =>
    rw [Channel.poll] at h
    obtain ⟨t, -, rfl⟩ := Option.map_eq_some_iff.mp h
    rfl
  | some tree =>
    rw [Channel.poll] at h
    obtain ⟨t, -, h⟩ := Option.bind_eq_some_iff.mp h
    obtain ⟨changes, -, h⟩ := Option.bind_eq_some_iff.mp h
    obtain rfl := Option.some.inj h
    rfl

theorem Origin.step (hfmt : JsonFormat fmt) (h : Origin fmt trees hub) {act : Act}
    (hreadable : Readable hub act)
    (hpolled : ∀ dataType ∈ viewTypes, ∀ tree ∈ act.polled? dataType, trees dataType tree)
    (hstep : step fmt updateIntervalMS hub act = some hub') : Origin fmt trees hub' := by
  cases act with
  | established sid now =>
    rw [TelemetrySync.step] at hstep
    split_ifs at hstep
    obtain rfl := Option.some.inj hstep
    have hnew := h.setFresh sid now
    exact ⟨hnew.channels, hnew.snapshots, hnew.views, hnew.fresh⟩
  | login sid =>
    obtain ⟨s, hs, rfl⟩ := Option.map_eq_some_iff.mp hstep
    apply h.setSession
    · rintro s' hs'
      obtain rfl := Option.some.inj hs'
      exact h.views sid s hs
    · rintro s' hs'
      obtain rfl := Option.some.inj hs'
      exact h.fresh sid s hs
  | logout sid now =>
    rw [TelemetrySync.step] at hstep
    cases hs : hub.sessions sid with
    | none => simp [hs] at hstep
    | some s =>
      simp only [hs] at hstep
      split_ifs at hstep
      obtain rfl := Option.some.inj hstep
      exact h.setFresh sid now
  | closed sid =>
    rw [TelemetrySync.step] at hstep
    split_ifs at hstep
    have hclosed : Origin fmt trees (hub.setSession sid none) :=
      h.setSession sid (by simp) (by simp)
    obtain rfl := Option.some.inj hstep
    dsimp only
    split_ifs
    · have hinitial : Origin fmt trees .initial := origin_initial
      exact ⟨hinitial.channels, hinitial.snapshots, hclosed.views, hclosed.fresh⟩
    · exact ⟨hclosed.channels, hclosed.snapshots, hclosed.views, hclosed.fresh⟩
  | poll currentTime polled =>
    rw [TelemetrySync.step] at hstep
    split_ifs at hstep
    obtain ⟨channels, hpolls, rfl⟩ := Option.map_eq_some_iff.mp hstep
    have hnodup : viewTypes.Nodup := by decide
    obtain ⟨hpoll, -⟩ := getEach_spec hnodup hpolls
    refine ⟨fun dataType htype => ?_, fun dataType htype => ?_, h.views, h.fresh⟩
    · exact (h.channels dataType htype).poll hfmt htype (hreadable dataType htype)
        (hpoll dataType htype)
    · dsimp only
      rw [Channel.snapshot_poll (hpoll dataType htype)]
      cases htree : polled dataType with
      | none => exact h.snapshots dataType htype
      | some tree => exact fun path v hv => ⟨tree, hpolled dataType htype tree htree, hv⟩
  | writable sid now =>
    obtain ⟨s, hs, rfl⟩ := Option.map_eq_some_iff.mp hstep
    obtain ⟨hviews, hfresh⟩ := h.writable hfmt now hs hreadable
    apply h.setSession
    · rintro s' hs'
      obtain rfl := Option.some.inj hs'
      exact hviews
    · rintro s' hs'
      obtain rfl := Option.some.inj hs'
      exact hfresh

theorem origin_run (hfmt : JsonFormat fmt) {acts : List Act}
    (hobeys : (server fmt updateIntervalMS).Obeys Readable .initial acts)
    (hpolled : ∀ act ∈ acts, ∀ dataType ∈ viewTypes, ∀ tree ∈ act.polled? dataType,
      trees dataType tree)
    (hrun : (server fmt updateIntervalMS).run .initial acts = some hub) : Origin fmt trees hub :=
  Machine.obeys_invariant
    (fun _ _ _ h (hguard : _ ∧ _) hstep => h.step hfmt hguard.1 hguard.2 hstep) origin_initial
    (Machine.obeys_and_mem hobeys hpolled) hrun

/-- In every run, a client only ever shows a value where a polled snapshot had it, however many
updates it has missed. The callback that sends the full telemetry leaves it with the last
snapshots. -/
theorem views_polled (hfmt : JsonFormat fmt) {acts : List Act}
    (hobeys : (server fmt updateIntervalMS).Obeys Readable .initial acts)
    (hrun : (server fmt updateIntervalMS).run .initial acts = some hub) {sid : ℕ}
    (hs : hub.sessions sid = some s) {dataType : DataType} (htype : dataType ∈ viewTypes) :
    (∀ path v, s.views dataType path = some v → ∃ act ∈ acts, ∃ tree ∈ act.polled? dataType,
        snapshotView tree path = some v) ∧
      (s.authorized = true → s.sendFullTelemetry = true →
        (hub.channels dataType).telemetry.haveData = true → ∀ now,
          (s.writable hub now).views dataType =
            snapshotView (hub.channels dataType).snapshot) := by
  have horigin : Origin fmt (fun dataType tree => ∃ act ∈ acts, tree ∈ act.polled? dataType) hub :=
    origin_run hfmt hobeys (fun act hact _ _ _ htree => ⟨act, hact, htree⟩) hrun
  constructor
  · intro path v hv
    obtain ⟨tree, ⟨act, hact, htree⟩, hleaf⟩ := horigin.views sid s hs dataType htype path v hv
    exact ⟨act, hact, tree, htree, hleaf⟩
  · intro hauthorized hfull hdata now
    rw [Subscriber.writable, if_pos hauthorized, if_pos hfull]
    exact (horigin.fullTelemetry hfmt htype now hs hfull).trans (if_pos hdata)

end Runs

section Samples

theorem obeys_readable {fmt : Format} {updateIntervalMS : ℕ} {hub : Hub} {acts : List Act}
    (h : (server fmt updateIntervalMS).Obeys Expected hub acts) :
    (server fmt updateIntervalMS).Obeys Readable hub acts := by
  induction acts generalizing hub with
  | nil => trivial
  | cons act acts ih =>
    refine ⟨h.1.readable, ?_⟩
    have hrest := h.2
    cases hstep : (server fmt updateIntervalMS).step hub act with
    | none => trivial
    | some next =>
      rw [hstep] at hrest
      exact ih hrest

/-- A client that has seen the state `1` and then the state `2`. -/
theorem views_polled_sample :
    ∃ hub s, (server pairJSON 1).run .initial (steadyRun ++ [.writable 0 2]) = some hub ∧
      hub.sessions 0 = some s ∧ ∀ path v, s.views .state path = some v →
        ∃ act ∈ steadyRun ++ [.writable 0 2], ∃ tree ∈ act.polled? .state,
          snapshotView tree path = some v := by
  obtain ⟨hub, s, hrun, hs⟩ : ∃ hub s, (server pairJSON 1).run .initial
      (steadyRun ++ [.writable 0 2]) = some hub ∧ hub.sessions 0 = some s := ⟨_, _, rfl, rfl⟩
  refine ⟨hub, s, hrun, hs, ?_⟩
  exact (views_polled jsonFormat_pairJSON (obeys_readable obeys_steadyRun) hrun hs
    (by decide)).1

end Samples

end V2IHub.Command.TelemetrySync
