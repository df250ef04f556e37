import V2IHub.Client.IvpPlugin
import V2IHub.Core.PluginMonitor
import V2IHub.Utils.FrequencyThrottle

/-! `PluginKeepAlive` and the `PluginMonitor` of the core: a plugin that has nothing to say is not
stopped for its silence. -/
namespace V2IHub.Client
open Foundation Utils V2IHub.Core

/-- `std::chrono::system_clock` counts nanoseconds, and the throttle milliseconds. -/
def systemClock : Units := ⟨1000000, 1, by norm_num, by norm_num⟩

/-- `TimeUtils::getSystemMillis` -/
def systemMillis (now : ℤ) : ℕ := (now / 1000000).toNat

def DEFAULT_KEEPALIVE_FREQUENCY : ℤ := 7800 * 60

/-- The time stamps are those of the message that it sends. -/
structure PluginKeepAlive where
  name : Bytes
  monitor : FrequencyThrottle Bytes
  currentTimestamp : ℕ
  lastTimestamp : ℕ

namespace PluginKeepAlive

def setFrequency (k : PluginKeepAlive) (frequency : ℤ) : PluginKeepAlive :=
  if frequency > 0 then { k with monitor := k.monitor.setFrequency frequency } else k

/-- The constructor. -/
def create (name : Bytes) : PluginKeepAlive :=
  setFrequency ⟨name, .init 0, 0, 0⟩ DEFAULT_KEEPALIVE_FREQUENCY

def touch (k : PluginKeepAlive) (now : ℤ) : PluginKeepAlive :=
  { k with
    lastTimestamp := k.currentTimestamp
    currentTimestamp := systemMillis now
    monitor := k.monitor.touch now k.name }

/-- The test of `check`. -/
def due (k : PluginKeepAlive) (now : ℤ) (state : IvpPluginState) : PluginKeepAlive × Bool :=
  if state = .registered then
    let r := k.monitor.monitor systemClock now k.name
    ({ k with monitor := r.1 }, r.2)
  else (k, false)

/-- The time that the throttle holds. -/
def mark (k : PluginKeepAlive) : Option ℤ := k.monitor.mapLastTime.find k.name

theorem mark_touch (k : PluginKeepAlive) (now : ℤ) :
    (k.touch now).mark = k.mark.map fun _ => now := by
  unfold mark touch
  rw [FrequencyThrottle.find_touch, if_pos rfl]

@[simp] theorem frequency_touch (k : PluginKeepAlive) (now : ℤ) :
    (k.touch now).monitor.frequency = k.monitor.frequency :=
  FrequencyThrottle.call_frequency (u := systemClock) (.touch k.name)

theorem mark_setFrequency (k : PluginKeepAlive) (frequency : ℤ) :
    (k.setFrequency frequency).mark = k.mark := by
  unfold setFrequency
  split_ifs <;> rfl

theorem frequency_setFrequency {k : PluginKeepAlive} {frequency bound : ℤ}
    (hk : k.monitor.frequency ≤ bound) (hfrequency : frequency ≤ bound) :
    (k.setFrequency frequency).monitor.frequency ≤ bound := by
  unfold setFrequency
  split_ifs
  · exact hfrequency
  · exact hk

/-- What a look at the throttle can do. -/
theorem due_cases (k : PluginKeepAlive) (now : ℤ) :
    (k.due now .registered).1.monitor.frequency = k.monitor.frequency ∧
      ((k.due now .registered).2 = true ∧ (k.due now .registered).1.mark = some now ∨
        (k.due now .registered).2 = false ∧ (k.due now .registered).1.mark = k.mark ∧
          ∃ t, k.mark = some t ∧ systemClock.durationCast (now - t) < k.monitor.frequency) := by
  unfold due mark
  rw [if_pos rfl]
  rcases FrequencyThrottle.monitor_cases systemClock k.monitor now k.name with
    ⟨h, -⟩ | ⟨h, t, hfind, hrecent⟩
  · rw [h]
    exact ⟨rfl, .inl ⟨rfl, by simp [OrderedMap.find_insert]⟩⟩
  · rw [h]
    exact ⟨rfl, .inr ⟨rfl, rfl, t, hfind, hrecent⟩⟩

end PluginKeepAlive

/-- Where the thread of `runKeepAlive` is: asleep, or in a `check` that has found the plugin
silent. -/
inductive KeepAlivePc where
  | sleeping
  | touching
  | sending
deriving DecidableEq

/-- Bounds on the delays: between two checks; within a check, and from a message to the `touch`
for it; and on the way to the monitor. The frequency is in milliseconds. -/
structure KeepAliveTiming where
  frequency : ℤ
  wake : ℤ
  send : ℤ
  transit : ℤ
  frequency_nonneg : 0 ≤ frequency
  wake_nonneg : 0 ≤ wake
  send_nonneg : 0 ≤ send
  transit_nonneg : 0 ≤ transit

/-- The longest silence, and one millisecond for the rounding. -/
def KeepAliveTiming.window (τ : KeepAliveTiming) : ℤ :=
  τ.frequency * 1000000 + τ.wake + 2 * τ.send + τ.transit + 1000000

/-- A plugin and the monitor. `untouched` has the times of the messages whose sender has yet to
call `touch`, and `inFlight` those that the monitor has yet to see. -/
structure MonitoredPlugin where
  now : ℤ
  state : IvpPluginState
  keepAlive : PluginKeepAlive
  pc : KeepAlivePc
  lastCheck : ℤ
  untouched : List ℤ
  inFlight : List ℤ
  core : PluginMonitor

/-- `broadcast` is a message that the core routes, from any thread of the plugin. -/
inductive KeepAliveAct where
  | tick (now : ℤ)
  | onStateChange (state : IvpPluginState)
  | setFrequency (frequency : ℤ)
  | check
  | touchKeepAlive
  | sendKeepAlive
  | broadcast
  | touch
  | receive
  | core (a : MonitorAct)

namespace MonitoredPlugin

/-- `this_thread::sleep_for(chrono::seconds(10))` -/
def sleepTime : ℤ := 10 * 1000000000

/-- The core takes the messages of a registered plugin. -/
def broadcastMessage (s : MonitoredPlugin) : MonitoredPlugin :=
  if s.state = .registered then { s with inFlight := s.inFlight ++ [s.now] } else s

/-- The threads keep to the bounds until then. -/
structure Timely (τ : KeepAliveTiming) (s : MonitoredPlugin) (now : ℤ) : Prop where
  wake : now ≤ s.lastCheck + τ.wake
  send : s.pc ≠ .sleeping → now ≤ s.lastCheck + τ.send
  untouched : ∀ t ∈ s.untouched, now ≤ t + τ.send
  inFlight : ∀ t ∈ s.inFlight, now ≤ t + τ.transit

instance (τ : KeepAliveTiming) (s : MonitoredPlugin) (now : ℤ) : Decidable (Timely τ s now) :=
  decidable_of_iff (now ≤ s.lastCheck + τ.wake ∧ (s.pc ≠ .sleeping → now ≤ s.lastCheck + τ.send) ∧
      (∀ t ∈ s.untouched, now ≤ t + τ.send) ∧ ∀ t ∈ s.inFlight, now ≤ t + τ.transit)
    ⟨fun ⟨h₁, h₂, h₃, h₄⟩ => ⟨h₁, h₂, h₃, h₄⟩, fun ⟨h₁, h₂, h₃, h₄⟩ => ⟨h₁, h₂, h₃, h₄⟩⟩

/-- The monitor reads the same clock. -/
def onTime (now : ℤ) : MonitorAct → Bool
  | .message _ rxTime => rxTime = systemMillis now
  | .exit _ => true
  | .cycle env => env.currentTime = systemMillis now

/-- `plugin` is the id that the core has given the plugin. -/
def machine (τ : KeepAliveTiming) (plugin : ℕ) : Machine MonitoredPlugin KeepAliveAct where
  step s
    | .tick now => if s.now ≤ now ∧ Timely τ s now then some { s with now := now } else none
    | .onStateChange state =>
      some { s with
        state := state
        inFlight := if state = .registered then s.inFlight else [] }
    | .setFrequency frequency => some { s with keepAlive := s.keepAlive.setFrequency frequency }
    | .check =>
      if s.pc = .sleeping ∧ s.lastCheck + sleepTime ≤ s.now then
        let r := s.keepAlive.due s.now s.state
        some { s with
          keepAlive := r.1
          pc := if r.2 then .touching else .sleeping
          lastCheck := s.now }
      else none
    | .touchKeepAlive =>
      if s.pc = .touching then
        some { s with keepAlive := s.keepAlive.touch s.now, pc := .sending }
      else none
    | .sendKeepAlive =>
      if s.pc = .sending then some { s.broadcastMessage with pc := .sleeping } else none
    | .broadcast => some { s.broadcastMessage with untouched := s.untouched ++ [s.now] }
    | .touch =>
      match s.untouched with
      | [] => none
      | _ :: rest => some { s with keepAlive := s.keepAlive.touch s.now, untouched := rest }
    | .receive =>
      match s.inFlight with
      | [] => none
      | _ :: rest =>
        (PluginMonitor.machine.step s.core (.message plugin (systemMillis s.now))).map fun core =>
          { s with inFlight := rest, core := core }
    | .core a =>
      if onTime s.now a then
        (PluginMonitor.machine.step s.core a).map fun core => { s with core := core }
      else none

/-- A plugin that was just created. -/
def init (name : Bytes) (now : ℤ) : MonitoredPlugin where
  now := now
  state := .disconnected
  keepAlive := .create name
  pc := .sleeping
  lastCheck := now
  untouched := []
  inFlight := []
  core := .init

section Core
open PluginMonitor
variable {m : PluginMonitor} {pid plugin : ℕ} {p : Process}

/-- No other running plugin has this id. -/
def Sole (plugin owner : ℕ) (running : RunningPlugins) : Prop :=
  ∀ id e d, running.find id = some (e, d) → e.pluginId = plugin → id = owner

theorem receiver_eq_none_or (running : RunningPlugins) (sourceId : ℕ) :
    receiver running.entries sourceId = none ∨ ∃ id e d, e.pluginId = sourceId ∧
      running.find id = some (e, d) ∧ receiver running.entries sourceId = some (id, e, d) := by
  cases hr : receiver running.entries sourceId with
  | none => exact .inl rfl
  | some r =>
    have hsource : r.2.1.pluginId = sourceId := by simpa using List.find?_some hr
    exact .inr ⟨r.1, r.2.1, r.2.2, hsource,
      OrderedMap.mem_entries_iff.mp (List.mem_of_find?_eq_some hr), rfl⟩

/-- A message counts for the process of its plugin, and for no other. -/
theorem onMessageReceived_procs (h : PluginMonitor.Inv m) (hp : m.procs pid = some p)
    (hsole : Sole p.entry.pluginId p.owner m.mRunningPlugins) {sourceId : ℕ}
    (hsource : sourceId ≠ 0) (rxTime : ℕ) : (m.onMessageReceived sourceId rxTime).procs pid =
      some (if sourceId = p.entry.pluginId then { p with lastMessage := some rxTime } else p) := by
  obtain ⟨d, hfind, rfl, -⟩ := h.consistent.entry hp
  simp only [PluginMonitor.onMessageReceived, if_neg hsource]
  rcases receiver_eq_none_or m.mRunningPlugins sourceId with
    hr | ⟨id, e, d', rfl, hfind', hr⟩
  · rw [hr]
    have hne : sourceId ≠ p.entry.pluginId := by
      rintro rfl
      rw [receiver, List.find?_eq_none] at hr
      exact hr _ (OrderedMap.mem_entries_iff.mpr hfind) (by simp)
    rw [if_neg hne]
    exact hp
  · rw [hr]
    split_ifs with hplugin
    · obtain rfl := hsole id e d' hfind' hplugin
      obtain ⟨rfl, rfl⟩ := Prod.mk.inj (Option.some.inj (hfind'.symm.trans hfind))
      simp [hp]
    · have hpid : d.pid ≠ d'.pid := by
        intro hpid
        obtain ⟨-, rfl⟩ := h.consistent.owner hfind' (hpid ▸ hp)
        exact hplugin rfl
      simpa [Function.update_of_ne hpid] using hp

theorem onMessageReceived_running (sourceId rxTime : ℕ) :
    (m.onMessageReceived sourceId rxTime).mRunningPlugins = m.mRunningPlugins := by
  unfold PluginMonitor.onMessageReceived
  split_ifs <;> rfl

/-- A running plugin has been running before, or its entry is in the snapshot. -/
theorem find_startLoop (execute : ℕ → Bytes → Option (ℕ × ℕ)) {id : ℕ} {e : InstalledPluginEntry}
    {d : PluginMonitoringData} (l : List (ℕ × InstalledPluginEntry))
    (hfind : (l.foldl (startPlugin execute) m).mRunningPlugins.find id = some (e, d)) :
    m.mRunningPlugins.find id = some (e, d) ∨ (id, e) ∈ l := by
  induction l generalizing m with
  | nil => exact .inl hfind
  | cons x l ih =>
    rcases ih hfind with hafter | hmem
    · rcases startPlugin_cases execute m x with hs | ⟨pid', startTime, -, -, hs⟩
      · rw [hs] at hafter
        exact .inl hafter
      · rw [hs] at hafter
        simp only [OrderedMap.find_insert] at hafter
        split_ifs at hafter with hid
        · obtain ⟨rfl, -⟩ := Prod.mk.inj (Option.some.inj hafter)
          exact .inr (by simp [← hid])
        · exact .inl hafter
    · exact .inr (List.mem_cons_of_mem _ hmem)

theorem find_cycle {env : CycleEnv} {id : ℕ} {e : InstalledPluginEntry} {d : PluginMonitoringData}
    (hfind : (m.cycle env).mRunningPlugins.find id = some (e, d)) :
    (∃ d', m.mRunningPlugins.find id = some (e, d')) ∨
      ∃ enabledPlugins, env.enabledPlugins = some enabledPlugins ∧
        enabledPlugins.find id = some e := by
  have hnoted {e d} (h : m.noted.mRunningPlugins.find id = some (e, d)) :
      ∃ d', m.mRunningPlugins.find id = some (e, d') := by
    rw [find_noted, Option.map_eq_some_iff] at h
    obtain ⟨⟨e', d'⟩, hfind, heq⟩ := h
    obtain ⟨rfl, -⟩ := Prod.mk.inj heq
    exact ⟨d', hfind⟩
  unfold cycle at hfind
  cases henabled : env.enabledPlugins with
  | none =>
    rw [henabled] at hfind
    exact .inl (hnoted hfind)
  | some enabledPlugins =>
    rw [henabled] at hfind
    rcases find_startLoop env.execute _ hfind with hkept | hmem
    · have hkept := Eq.trans (Eq.symm find_killedPlugins) hkept
      rw [Option.map_eq_some_iff] at hkept
      obtain ⟨⟨e', d'⟩, hreaped, heq⟩ := hkept
      obtain ⟨rfl, -⟩ := Prod.mk.inj heq
      exact .inl (hnoted (find_reapedPlugins.mp hreaped).1)
    · exact .inr ⟨enabledPlugins, rfl, OrderedMap.mem_entries_iff.mp hmem⟩

/-- A cycle that spares a process leaves it as it is. -/
theorem cycle_procs_of_spared (h : PluginMonitor.Inv m) (hp : m.procs pid = some p)
    (hrunning : p.running = true) {env : CycleEnv}
    (hspared : env.enabledPlugins ≠ none → Spared env p) :
    (m.cycle env).procs pid = some p := by
  cases henabled : env.enabledPlugins with
  | none => rw [cycle_procs_of_dbException henabled, hp]
  | some enabledPlugins =>
    obtain ⟨d, hfind, hsent, hcycle⟩ := cycle_procs h henabled hp hrunning
    rw [hcycle, cycleSignal_of_spared h henabled hp hfind hsent (hspared (by simp [henabled]))]
    simp

end Core

section Invariant
variable {τ : KeepAliveTiming} {plugin : ℕ} {s t : MonitoredPlugin}

/-- What holds all the time: nothing is dated later than now, and nothing is overdue. -/
structure Inv (τ : KeepAliveTiming) (s : MonitoredPlugin) : Prop where
  core : PluginMonitor.Inv s.core
  timely : Timely τ s s.now
  lastCheck : s.lastCheck ≤ s.now
  mark : ∀ t, s.keepAlive.mark = some t → t ≤ s.now
  untouched : ∀ t ∈ s.untouched, t ≤ s.now

theorem broadcastMessage_cases (s : MonitoredPlugin) :
    s.broadcastMessage = s ∨
      s.state = .registered ∧
        s.broadcastMessage = { s with inFlight := s.inFlight ++ [s.now] } := by
  unfold broadcastMessage
  split_ifs with h
  · exact .inr ⟨h, rfl⟩
  · exact .inl rfl

theorem Inv.broadcastMessage (h : Inv τ s) : Inv τ s.broadcastMessage := by
  rcases broadcastMessage_cases s with hs | ⟨-, hs⟩ <;> rw [hs]
  · exact h
  · refine ⟨h.core, ⟨h.timely.wake, h.timely.send, h.timely.untouched, ?_⟩, h.lastCheck, h.mark,
      h.untouched⟩
    intro t ht
    rcases List.mem_append.mp ht with ht | ht
    · exact h.timely.inFlight t ht
    · rw [List.mem_singleton.mp ht]
      exact le_add_of_nonneg_right τ.transit_nonneg

theorem Inv.withCore (h : Inv τ s) {a : MonitorAct} {core : PluginMonitor}
    (hstep : PluginMonitor.machine.step s.core a = some core) : Inv τ { s with core := core } :=
  ⟨PluginMonitor.inv_step s.core a core h.core hstep,
    ⟨h.timely.wake, h.timely.send, h.timely.untouched, h.timely.inFlight⟩, h.lastCheck, h.mark,
    h.untouched⟩

theorem mark_touch_le (k : PluginKeepAlive) (now : ℤ) :
    ∀ t, (k.touch now).mark = some t → t ≤ now := by
  intro t ht
  rw [PluginKeepAlive.mark_touch, Option.map_eq_some_iff] at ht
  obtain ⟨-, -, rfl⟩ := ht
  exact le_rfl

theorem Inv.due (h : Inv τ s) :
    ∀ t, (s.keepAlive.due s.now s.state).1.mark = some t → t ≤ s.now := by
  intro t ht
  by_cases hstate : s.state = .registered
  · rw [hstate] at ht
    obtain ⟨-, ⟨-, hmark⟩ | ⟨-, hmark, -⟩⟩ := s.keepAlive.due_cases s.now
    · exact (Option.some.inj (hmark.symm.trans ht)).ge
    · exact h.mark t (hmark ▸ ht)
  · rw [PluginKeepAlive.due, if_neg hstate] at ht
    exact h.mark t ht

theorem inv_step {a : KeepAliveAct} (h : Inv τ s) (hstep : (machine τ plugin).step s a = some t) :
    Inv τ t := by
  cases a with
  | tick now =>
    simp only [machine] at hstep
    split_ifs at hstep with hnow
    obtain rfl := Option.some.inj hstep
    obtain ⟨hle, htimely⟩ := hnow
    exact ⟨h.core, ⟨htimely.wake, htimely.send, htimely.untouched, htimely.inFlight⟩,
      h.lastCheck.trans hle, fun t ht => (h.mark t ht).trans hle,
      fun t ht => (h.untouched t ht).trans hle⟩
  | onStateChange state =>
    obtain rfl := Option.some.inj hstep
    refine ⟨h.core, ⟨h.timely.wake, h.timely.send, h.timely.untouched, ?_⟩, h.lastCheck, h.mark,
      h.untouched⟩
    intro t ht
    dsimp only at ht
    split_ifs at ht
    · exact h.timely.inFlight t ht
    · cases ht
  | setFrequency frequency =>
    obtain rfl := Option.some.inj hstep
    refine ⟨h.core, ⟨h.timely.wake, h.timely.send, h.timely.untouched, h.timely.inFlight⟩,
      h.lastCheck, ?_, h.untouched⟩
    dsimp only
    rw [PluginKeepAlive.mark_setFrequency]
    exact h.mark
  | check =>
    simp only [machine, Option.ite_none_right_eq_some] at hstep
    obtain ⟨-, hstep⟩ := hstep
    obtain rfl := Option.some.inj hstep
    exact ⟨h.core, ⟨le_add_of_nonneg_right τ.wake_nonneg,
      fun _ => le_add_of_nonneg_right τ.send_nonneg, h.timely.untouched, h.timely.inFlight⟩,
      le_rfl, h.due, h.untouched⟩
  | touchKeepAlive =>
    simp only [machine] at hstep
    split_ifs at hstep with hpc
    obtain rfl := Option.some.inj hstep
    exact ⟨h.core, ⟨h.timely.wake, fun _ => h.timely.send (by simp [hpc]), h.timely.untouched,
      h.timely.inFlight⟩, h.lastCheck, mark_touch_le s.keepAlive s.now, h.untouched⟩
  | sendKeepAlive =>
    simp only [machine] at hstep
    split_ifs at hstep
    obtain rfl := Option.some.inj hstep
    have hsent := h.broadcastMessage
    exact ⟨hsent.core, ⟨hsent.timely.wake, fun hpc => absurd rfl hpc, hsent.timely.untouched,
      hsent.timely.inFlight⟩, hsent.lastCheck, hsent.mark, hsent.untouched⟩
  | broadcast =>
    obtain rfl := Option.some.inj hstep
    have hsent := h.broadcastMessage
    have hnow : s.broadcastMessage.now = s.now := by
      rcases broadcastMessage_cases s with hs | ⟨-, hs⟩ <;> rw [hs]
    refine ⟨hsent.core, ⟨hsent.timely.wake, hsent.timely.send, ?_, hsent.timely.inFlight⟩,
      hsent.lastCheck, hsent.mark, ?_⟩
    · intro t ht
      dsimp only
      rw [hnow]
      rcases List.mem_append.mp ht with ht | ht
      · exact h.timely.untouched t ht
      · rw [List.mem_singleton.mp ht]
        exact le_add_of_nonneg_right τ.send_nonneg
    · intro t ht
      dsimp only
      rw [hnow]
      rcases List.mem_append.mp ht with ht | ht
      · exact h.untouched t ht
      · exact (List.mem_singleton.mp ht).le
  | touch =>
    cases huntouched : s.untouched with
    | nil => simp [machine, huntouched] at hstep
    | cons t₀ rest =>
      simp only [machine, huntouched, Option.some.injEq] at hstep
      subst hstep
      have hrest {t : ℤ} (ht : t ∈ rest) : t ∈ s.untouched :=
        huntouched ▸ List.mem_cons_of_mem t₀ ht
      exact ⟨h.core, ⟨h.timely.wake, h.timely.send, fun t ht => h.timely.untouched t (hrest ht),
        h.timely.inFlight⟩, h.lastCheck, mark_touch_le s.keepAlive s.now,
        fun t ht => h.untouched t (hrest ht)⟩
  | receive =>
    cases hflight : s.inFlight with
    | nil => simp [machine, hflight] at hstep
    | cons t₀ rest =>
      simp only [machine, hflight, Option.map_eq_some_iff] at hstep
      obtain ⟨core, hcore, rfl⟩ := hstep
      have hafter := h.withCore hcore
      exact ⟨hafter.core, ⟨h.timely.wake, h.timely.send, h.timely.untouched, fun t ht =>
        h.timely.inFlight t (hflight ▸ List.mem_cons_of_mem t₀ ht)⟩, h.lastCheck, h.mark,
        h.untouched⟩
  | core a =>
    simp only [machine] at hstep
    split_ifs at hstep
    obtain ⟨core, hcore, rfl⟩ := Option.map_eq_some_iff.mp hstep
    exact h.withCore hcore

theorem inv_init (name : Bytes) (now : ℤ) : Inv τ (init name now) := by
  refine ⟨PluginMonitor.inv_init, ⟨le_add_of_nonneg_right τ.wake_nonneg, ?_, ?_, ?_⟩, le_rfl, ?_,
    ?_⟩
  · exact fun hpc => absurd rfl hpc
  · simp [init]
  · simp [init]
  · intro t ht
    have hnone : (init name now).keepAlive.mark = none := rfl
    simp [hnone] at ht
  · simp [init]

/-- The monitor will hear from the plugin before the deadline: a message is on the way, the thread
is about to send one, or it will find the plugin silent in time. -/
def Awaited (τ : KeepAliveTiming) (s : MonitoredPlugin) (deadline : ℤ) : Prop :=
  (∃ t ∈ s.inFlight, t + τ.transit < deadline) ∨
    s.pc ≠ .sleeping ∧ s.lastCheck + τ.send + τ.transit < deadline ∨
    s.pc = .sleeping ∧ s.lastCheck + τ.wake + τ.send + τ.transit < deadline ∧
      ∀ t, s.keepAlive.mark = some t →
        t + τ.frequency * 1000000 + τ.wake + τ.send + τ.transit < deadline

theorem Awaited.now_lt {deadline : ℤ} (h : Awaited τ s deadline) (hs : Inv τ s) :
    s.now < deadline := by
  have hsend := τ.send_nonneg
  have htransit := τ.transit_nonneg
  rcases h with ⟨t, ht, hlt⟩ | ⟨hpc, hlt⟩ | ⟨-, hlt, -⟩
  · have := hs.timely.inFlight t ht
    omega
  · have := hs.timely.send hpc
    omega
  · have := hs.timely.wake
    omega

/-- Whatever the state of the threads, a deadline that is far enough is met. -/
theorem Inv.awaited (h : Inv τ s) {deadline : ℤ}
    (hfar : s.now + τ.frequency * 1000000 + τ.wake + τ.send + τ.transit < deadline) :
    Awaited τ s deadline := by
  have hfrequency := τ.frequency_nonneg
  have hwake := τ.wake_nonneg
  have hlast := h.lastCheck
  by_cases hpc : s.pc = .sleeping
  · refine .inr (.inr ⟨hpc, by omega, fun t ht => ?_⟩)
    have := h.mark t ht
    omega
  · exact .inr (.inl ⟨hpc, by omega⟩)

/-- A process that was heard of at the time `t` is stopped from this time on. -/
def deadline (interval t : ℕ) : ℤ := ((t : ℤ) + interval) * 1000000

/-- The process of a registered plugin that has not been signalled and will be heard of in time.
A message whose sender has yet to call `touch` is on the way, or has moved the deadline. -/
structure Heard (τ : KeepAliveTiming) (plugin pid interval : ℕ) (s : MonitoredPlugin) (p : Process)
    (t : ℕ) : Prop where
  state : s.state = .registered
  frequency : s.keepAlive.monitor.frequency ≤ τ.frequency
  process : s.core.procs pid = some p
  running : p.running = true
  signals : p.signals = []
  pluginId : p.entry.pluginId = plugin
  last : p.lastMessage = some t
  sole : Sole plugin p.owner s.core.mRunningPlugins
  awaited : Awaited τ s (deadline interval t)
  untouched : ∀ t₀ ∈ s.untouched, t₀ ∈ s.inFlight ∨
    t₀ + ((interval : ℤ) - 1) * 1000000 < deadline interval t

variable {pid interval lastTime : ℕ} {p : Process}

theorem deadline_systemMillis (interval : ℕ) (now : ℤ) :
    now + ((interval : ℤ) - 1) * 1000000 < deadline interval (systemMillis now) := by
  unfold deadline systemMillis
  omega

theorem systemMillis_lt {now : ℤ} (hpos : 0 < interval) (h : now < deadline interval lastTime) :
    systemMillis now < lastTime + interval := by
  unfold deadline at h
  unfold systemMillis
  omega

/-- A reception moves the deadline far enough. -/
theorem Inv.awaited_now (h : Inv τ s) (hinterval : τ.window ≤ interval * 1000000) :
    Awaited τ s (deadline interval (systemMillis s.now)) := by
  have hsend := τ.send_nonneg
  have hmillis := deadline_systemMillis interval s.now
  unfold KeepAliveTiming.window at hinterval
  apply h.awaited
  omega

theorem Awaited.broadcast {limit : ℤ} (h : Awaited τ s limit) {t : MonitoredPlugin}
    (hflight : ∀ t₀ ∈ s.inFlight, t₀ ∈ t.inFlight) (hpc : t.pc = s.pc)
    (hlast : t.lastCheck = s.lastCheck) (hmark : t.keepAlive.mark = s.keepAlive.mark) :
    Awaited τ t limit := by
  unfold Awaited
  rw [hpc, hlast, hmark]
  rcases h with ⟨t₀, ht₀, hlt⟩ | hrest
  · exact .inl ⟨t₀, hflight t₀ ht₀, hlt⟩
  · exact .inr hrest

/-- A look at the throttle: if it is not yet time to send, it will be in time at the next look. -/
theorem Awaited.check {limit : ℤ} (h : Awaited τ s limit) (hs : Inv τ s)
    (hstate : s.state = .registered) (hpc : s.pc = .sleeping)
    (hfrequency : s.keepAlive.monitor.frequency ≤ τ.frequency) :
    Awaited τ { s with
      keepAlive := (s.keepAlive.due s.now s.state).1
      pc := if (s.keepAlive.due s.now s.state).2 then .touching else .sleeping
      lastCheck := s.now } limit := by
  rcases h with hflight | ⟨hne, -⟩ | ⟨-, hlast, hmark⟩
  · exact .inl hflight
  · exact absurd hpc hne
  · have hwake := hs.timely.wake
    rw [hstate]
    obtain ⟨-, ⟨htrue, -⟩ | ⟨hfalse, hsame, t, ht, hrecent⟩⟩ := s.keepAlive.due_cases s.now
    · rw [htrue]
      exact .inr (.inl ⟨by simp, by dsimp only; omega⟩)
    · have hlt := (FrequencyThrottle.durationCast_lt_iff (sub_nonneg.mpr (hs.mark t ht))).mp
        (hrecent.trans_le hfrequency)
      have hbound := hmark t ht
      simp only [systemClock, mul_one] at hlt
      rw [hfalse]
      refine .inr (.inr ⟨by simp, by dsimp only; omega, ?_⟩)
      dsimp only
      rw [hsame]
      exact hmark

/-- A `touch` for a message puts off the next check that sends: but the message itself is heard
of before. -/
theorem Heard.touch (h : Heard τ plugin pid interval s p lastTime) (hs : Inv τ s)
    (hinterval : τ.window ≤ interval * 1000000) {t₀ : ℤ} (ht₀ : t₀ ∈ s.untouched) :
    Awaited τ { s with keepAlive := s.keepAlive.touch s.now } (deadline interval lastTime) := by
  have hwake := τ.wake_nonneg
  have hsend := τ.send_nonneg
  unfold KeepAliveTiming.window at hinterval
  rcases h.awaited with hflight | hpc | ⟨hpc, hlast, hmark⟩
  · exact .inl hflight
  · exact .inr (.inl hpc)
  · have hnow := hs.timely.wake
    rcases h.untouched t₀ ht₀ with hflight | hmoved
    · have hle := hs.untouched t₀ ht₀
      exact .inl ⟨t₀, hflight, by omega⟩
    · have hlate := hs.timely.untouched t₀ ht₀
      refine .inr (.inr ⟨hpc, hlast, fun t ht => ?_⟩)
      have hle := mark_touch_le s.keepAlive s.now t ht
      omega

/-- What a run must keep to: the plugin stays registered, and its frequency within the bound; its
process does not end; and in each snapshot its row is enabled with a limit that is long enough,
and no other row is of this plugin. -/
def Keeps (τ : KeepAliveTiming) (plugin pid owner interval : ℕ) : KeepAliveAct → Prop
  | .onStateChange state => state = .registered
  | .setFrequency frequency => frequency ≤ τ.frequency
  | .core (.exit pid') => pid' ≠ pid
  | .core (.cycle env) => ∀ enabledPlugins, env.enabledPlugins = some enabledPlugins →
      (∃ current, enabledPlugins.find owner = some current ∧
        interval ≤ current.maxMessageInterval.toNat) ∧
      ∀ id e, enabledPlugins.find id = some e → e.pluginId = plugin → id = owner
  | _ => True

theorem pos_of_window (hinterval : τ.window ≤ interval * 1000000) : 0 < interval := by
  have hfrequency := τ.frequency_nonneg
  have hwake := τ.wake_nonneg
  have hsend := τ.send_nonneg
  have htransit := τ.transit_nonneg
  unfold KeepAliveTiming.window at hinterval
  omega

theorem Heard.spared (h : Heard τ plugin pid interval s p lastTime) (hs : Inv τ s)
    (hinterval : τ.window ≤ interval * 1000000) {env : CycleEnv}
    (htime : env.currentTime = systemMillis s.now)
    (hkeeps : Keeps τ plugin pid p.owner interval (.core (.cycle env)))
    (henabled : env.enabledPlugins ≠ none) : PluginMonitor.Spared env p := by
  obtain ⟨enabledPlugins, henabled⟩ := Option.ne_none_iff_exists'.mp henabled
  obtain ⟨⟨current, hcurrent, hlimit⟩, -⟩ := hkeeps enabledPlugins henabled
  have hpos := pos_of_window hinterval
  have hyoung := systemMillis_lt hpos (h.awaited.now_lt hs)
  refine ⟨h.signals, enabledPlugins, current, lastTime, henabled, hcurrent, h.last, .inr ⟨?_, ?_⟩⟩
  · rintro hzero
    rw [hzero] at hlimit
    simp at hlimit
    omega
  · rw [htime]
    omega

/-- A message that the monitor gets: from this plugin it moves the deadline. -/
theorem Heard.message (h : Heard τ plugin pid interval s p lastTime) (hs : Inv τ s)
    {sourceId : ℕ} {core : PluginMonitor}
    (hstep : PluginMonitor.machine.step s.core (.message sourceId (systemMillis s.now)) =
      some core) :
    core.mRunningPlugins = s.core.mRunningPlugins ∧
      (sourceId ≠ 0 → core.procs pid = some (if sourceId = plugin then
        { p with lastMessage := some (systemMillis s.now) } else p)) ∧
      (sourceId = 0 → core = s.core) := by
  simp only [PluginMonitor.machine, Option.ite_none_right_eq_some] at hstep
  obtain ⟨-, hcore⟩ := hstep
  obtain rfl := Option.some.inj hcore
  refine ⟨onMessageReceived_running .., fun hsource => ?_, fun hsource => ?_⟩
  · have hprocs := onMessageReceived_procs hs.core h.process (h.pluginId ▸ h.sole) hsource
      (systemMillis s.now)
    rwa [h.pluginId] at hprocs
  · rw [PluginMonitor.onMessageReceived, if_pos hsource]

theorem Heard.refreshed (h : Heard τ plugin pid interval s p lastTime) (hs : Inv τ s)
    (hinterval : τ.window ≤ interval * 1000000) {core : PluginMonitor} {inFlight : List ℤ}
    (ht : Inv τ { s with inFlight := inFlight, core := core })
    (hprocs : core.procs pid = some { p with lastMessage := some (systemMillis s.now) })
    (hrunning : core.mRunningPlugins = s.core.mRunningPlugins) :
    Heard τ plugin pid interval { s with inFlight := inFlight, core := core }
      { p with lastMessage := some (systemMillis s.now) } (systemMillis s.now) where
  state := h.state
  frequency := h.frequency
  process := hprocs
  running := h.running
  signals := h.signals
  pluginId := h.pluginId
  last := rfl
  sole := by
    dsimp only
    rw [hrunning]
    exact h.sole
  awaited := ht.awaited_now hinterval
  untouched t₀ ht₀ := by
    have hle := hs.untouched t₀ ht₀
    have hmoved := deadline_systemMillis interval s.now
    right
    omega

theorem Heard.withCore (h : Heard τ plugin pid interval s p lastTime) {core : PluginMonitor}
    (hprocs : core.procs pid = some p) (hsole : Sole plugin p.owner core.mRunningPlugins) :
    Heard τ plugin pid interval { s with core := core } p lastTime :=
  ⟨h.state, h.frequency, hprocs, h.running, h.signals, h.pluginId, h.last, hsole, h.awaited,
    h.untouched⟩

/-- A step of the plugin leaves the monitor as it is. -/
theorem Heard.ofSameCore (h : Heard τ plugin pid interval s p lastTime) (hcore : t.core = s.core)
    (hstate : t.state = .registered) (hfrequency : t.keepAlive.monitor.frequency ≤ τ.frequency)
    (hawaited : Awaited τ t (deadline interval lastTime))
    (huntouched : ∀ t₀ ∈ t.untouched, t₀ ∈ t.inFlight ∨
      t₀ + ((interval : ℤ) - 1) * 1000000 < deadline interval lastTime) :
    Heard τ plugin pid interval t p lastTime where
  state := hstate
  frequency := hfrequency
  process := hcore ▸ h.process
  running := h.running
  signals := h.signals
  pluginId := h.pluginId
  last := h.last
  sole := hcore ▸ h.sole
  awaited := hawaited
  untouched := huntouched

/-- A step of the monitor. -/
theorem Heard.core (h : Heard τ plugin pid interval s p lastTime) (hs : Inv τ s)
    (hinterval : τ.window ≤ interval * 1000000) {a : MonitorAct}
    {core : PluginMonitor} (hstep : PluginMonitor.machine.step s.core a = some core)
    (htime : onTime s.now a) (hkeeps : Keeps τ plugin pid p.owner interval (.core a)) :
    ∃ q lastTime', q.owner = p.owner ∧
      Heard τ plugin pid interval { s with core := core } q lastTime' := by
  have ht := hs.withCore hstep
  cases a with
  | message sourceId rxTime =>
    obtain rfl : rxTime = systemMillis s.now := by simpa [onTime] using htime
    obtain ⟨hrunning, hprocs, hignored⟩ := h.message hs hstep
    by_cases hsource : sourceId = 0
    · rw [hignored hsource]
      exact ⟨p, lastTime, rfl, h⟩
    · have hprocs := hprocs hsource
      split_ifs at hprocs
      · exact ⟨{ p with lastMessage := some (systemMillis s.now) }, systemMillis s.now, rfl,
          h.refreshed hs hinterval ht hprocs hrunning⟩
      · exact ⟨p, lastTime, rfl, h.withCore hprocs (hrunning ▸ h.sole)⟩
  | exit pid' =>
    obtain rfl := Option.some.inj hstep
    have hne : pid ≠ pid' := fun heq => hkeeps heq.symm
    refine ⟨p, lastTime, rfl, h.withCore ?_ h.sole⟩
    simpa [Function.update_of_ne hne] using h.process
  | cycle env =>
    obtain rfl := Option.some.inj hstep
    have hsame : env.currentTime = systemMillis s.now := by simpa [onTime] using htime
    refine ⟨p, lastTime, rfl, h.withCore ?_ ?_⟩
    · exact cycle_procs_of_spared hs.core h.process h.running
        (h.spared hs hinterval hsame hkeeps)
    · intro id e d hfind hid
      rcases find_cycle hfind with ⟨d', hbefore⟩ | ⟨enabledPlugins, henabled, hrow⟩
      · exact h.sole id e d' hbefore hid
      · exact (hkeeps enabledPlugins henabled).2 id e hrow hid

/-- What one step of the plugin or of the monitor preserves. -/
theorem heard_step {a : KeepAliveAct} (h : Heard τ plugin pid interval s p lastTime) (hs : Inv τ s)
    (hplugin : plugin ≠ 0) (hinterval : τ.window ≤ interval * 1000000)
    (hkeeps : Keeps τ plugin pid p.owner interval a)
    (hstep : (machine τ plugin).step s a = some t) :
    ∃ q lastTime', q.owner = p.owner ∧ Heard τ plugin pid interval t q lastTime' := by
  have hsent : s.broadcastMessage = { s with inFlight := s.inFlight ++ [s.now] } := by
    rw [broadcastMessage, if_pos h.state]
  cases a with
  | tick now =>
    simp only [machine] at hstep
    split_ifs at hstep
    obtain rfl := Option.some.inj hstep
    exact ⟨p, lastTime, rfl, h.ofSameCore rfl h.state h.frequency h.awaited h.untouched⟩
  | onStateChange state =>
    obtain rfl := Option.some.inj hstep
    obtain rfl : state = .registered := hkeeps
    exact ⟨p, lastTime, rfl, h.ofSameCore rfl rfl h.frequency h.awaited h.untouched⟩
  | setFrequency frequency =>
    obtain rfl := Option.some.inj hstep
    refine ⟨p, lastTime, rfl, h.ofSameCore rfl h.state ?_ ?_ h.untouched⟩
    · exact PluginKeepAlive.frequency_setFrequency h.frequency hkeeps
    · exact h.awaited.broadcast (fun _ h => h) rfl rfl (PluginKeepAlive.mark_setFrequency ..)
  | check =>
    simp only [machine, Option.ite_none_right_eq_some] at hstep
    obtain ⟨⟨hpc, -⟩, hstep⟩ := hstep
    obtain rfl := Option.some.inj hstep
    refine ⟨p, lastTime, rfl, h.ofSameCore rfl h.state ?_
      (h.awaited.check hs h.state hpc h.frequency) h.untouched⟩
    dsimp only
    rw [h.state, (s.keepAlive.due_cases s.now).1]
    exact h.frequency
  | touchKeepAlive =>
    simp only [machine] at hstep
    split_ifs at hstep with hpc
    obtain rfl := Option.some.inj hstep
    refine ⟨p, lastTime, rfl, h.ofSameCore rfl h.state ?_ ?_ h.untouched⟩
    · exact (PluginKeepAlive.frequency_touch ..).trans_le h.frequency
    · rcases h.awaited with hflight | ⟨-, hlast⟩ | ⟨hsleeping, -⟩
      · exact .inl hflight
      · exact .inr (.inl ⟨by simp, hlast⟩)
      · exact absurd (hpc.symm.trans hsleeping) (by simp)
  | sendKeepAlive =>
    simp only [machine] at hstep
    split_ifs at hstep with hpc
    obtain rfl := Option.some.inj hstep
    rw [hsent]
    refine ⟨p, lastTime, rfl, h.ofSameCore rfl h.state h.frequency ?_ fun t₀ ht₀ => ?_⟩
    · have hnow := hs.timely.send (by simp [hpc])
      rcases h.awaited with ⟨t₀, ht₀, hlt⟩ | ⟨-, hlast⟩ | ⟨hsleeping, -⟩
      · exact .inl ⟨t₀, List.mem_append_left _ ht₀, hlt⟩
      · exact .inl ⟨s.now, by simp, by omega⟩
      · exact absurd (hpc.symm.trans hsleeping) (by simp)
    · exact (h.untouched t₀ ht₀).imp_left (List.mem_append_left _)
  | broadcast =>
    obtain rfl := Option.some.inj hstep
    rw [hsent]
    refine ⟨p, lastTime, rfl, h.ofSameCore rfl h.state h.frequency ?_ fun t₀ ht₀ => ?_⟩
    · exact h.awaited.broadcast (fun _ h => List.mem_append_left _ h) rfl rfl rfl
    · rcases List.mem_append.mp ht₀ with ht₀ | ht₀
      · exact (h.untouched t₀ ht₀).imp_left (List.mem_append_left _)
      · exact .inl (List.mem_append_right _ ht₀)
  | touch =>
    cases huntouched : s.untouched with
    | nil => simp [machine, huntouched] at hstep
    | cons t₀ rest =>
      simp only [machine, huntouched, Option.some.injEq] at hstep
      subst hstep
      have hmem : t₀ ∈ s.untouched := huntouched ▸ List.mem_cons_self
      refine ⟨p, lastTime, rfl, h.ofSameCore rfl h.state ?_ (h.touch hs hinterval hmem)
        fun t₁ ht₁ => ?_⟩
      · exact (PluginKeepAlive.frequency_touch ..).trans_le h.frequency
      · exact h.untouched t₁ (huntouched ▸ List.mem_cons_of_mem t₀ ht₁)
  | receive =>
    have ht := inv_step hs hstep
    cases hflight : s.inFlight with
    | nil => simp [machine, hflight] at hstep
    | cons t₀ rest =>
      simp only [machine, hflight, Option.map_eq_some_iff] at hstep
      obtain ⟨core, hcore, rfl⟩ := hstep
      obtain ⟨hrunning, hprocs, -⟩ := h.message hs hcore
      have hprocs := hprocs hplugin
      rw [if_pos rfl] at hprocs
      exact ⟨{ p with lastMessage := some (systemMillis s.now) }, systemMillis s.now, rfl,
        h.refreshed hs hinterval ht hprocs hrunning⟩
  | core a =>
    simp only [machine] at hstep
    split_ifs at hstep with htime
    obtain ⟨core, hcore, rfl⟩ := Option.map_eq_some_iff.mp hstep
    exact h.core hs hinterval hcore htime hkeeps

/-- The run lemma. -/
theorem heard_run {acts : List KeepAliveAct} (h : Heard τ plugin pid interval s p lastTime)
    (hs : Inv τ s) (hplugin : plugin ≠ 0) (hinterval : τ.window ≤ interval * 1000000)
    (hkeeps : ∀ a ∈ acts, Keeps τ plugin pid p.owner interval a)
    (hrun : (machine τ plugin).run s acts = some t) :
    ∃ q lastTime', q.owner = p.owner ∧ Heard τ plugin pid interval t q lastTime' := by
  induction acts generalizing s p lastTime with
  | nil =>
    obtain rfl := Option.some.inj hrun
    exact ⟨p, lastTime, rfl, h⟩
  | cons a acts ih =>
    obtain ⟨u, hu, hrest⟩ := Machine.run_cons_eq_some.mp hrun
    obtain ⟨ha, hacts⟩ := List.forall_mem_cons.mp hkeeps
    obtain ⟨q, lastTime', howner, hq⟩ := heard_step h hs hplugin hinterval ha hu
    obtain ⟨r, lastTime'', hr, hheard⟩ := ih hq (inv_step hs hu) (howner ▸ hacts) hrest
    exact ⟨r, lastTime'', hr.trans howner, hheard⟩

end Invariant

/-- The process of the plugin runs, has not been signalled, and was heard of just now. -/
structure JustHeard (τ : KeepAliveTiming) (plugin pid : ℕ) (s : MonitoredPlugin) (p : Process) :
    Prop where
  state : s.state = .registered
  frequency : s.keepAlive.monitor.frequency ≤ τ.frequency
  process : s.core.procs pid = some p
  running : p.running = true
  signals : p.signals = []
  pluginId : p.entry.pluginId = plugin
  last : p.lastMessage = some (systemMillis s.now)
  sole : Sole plugin p.owner s.core.mRunningPlugins

/-- The default frequency, and a second for each delay. -/
def sampleTiming : KeepAliveTiming :=
  ⟨DEFAULT_KEEPALIVE_FREQUENCY, 11 * 1000000000, 1000000000, 1000000000, by decide, by decide,
    by decide, by decide⟩

def sampleEnv (currentTime : ℕ) : CycleEnv :=
  ⟨some (PluginMonitor.snapshot 500000), 0, currentTime, fun _ _ => some (100, currentTime)⟩

/-- The plugin is started, registers and says something. -/
def sampleStart : List KeepAliveAct :=
  [.core (.cycle (sampleEnv 1000)), .onStateChange .registered, .broadcast, .touch, .receive]

def sampleSilence : List KeepAliveAct :=
  [.tick 11000000000, .check, .touchKeepAlive, .sendKeepAlive, .receive,
    .core (.cycle (sampleEnv 11000))]

theorem keeps_sampleSilence :
    ∀ a ∈ sampleSilence, Keeps sampleTiming 7 100 1 500000 a := by
  intro a ha
  simp only [sampleSilence, List.mem_cons, List.not_mem_nil, or_false] at ha
  rcases ha with rfl | rfl | rfl | rfl | rfl | rfl
  case inr.inr.inr.inr.inr =>
    intro enabledPlugins henabled
    obtain rfl := Option.some.inj henabled
    refine ⟨⟨⟨7, cstr "/var/www/plugins/a", cstr "bin/a", 500000⟩, by decide, by decide⟩, ?_⟩
    intro id e hfind _
    by_contra hne
    rw [PluginMonitor.snapshot, OrderedMap.find_insert, if_neg (Ne.symm hne)] at hfind
    simp [OrderedMap.empty, OrderedMap.find] at hfind
  all_goals trivial

end MonitoredPlugin
end V2IHub.Client
