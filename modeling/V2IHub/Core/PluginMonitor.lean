import V2IHub.Foundation.Bytes
import V2IHub.Foundation.Machine
import V2IHub.Foundation.OrderedMap

/-! `PluginMonitor`: starting, watching and stopping the processes of installed plugins,
over whole runs of monitoring cycles. -/
namespace V2IHub.Core
open V2IHub.Foundation

/-- An installed plugin as one database snapshot has it. Entries are compared by their id,
which is the key of every map below. -/
structure InstalledPluginEntry where
  pluginId : ℕ
  path : Bytes
  exeName : Bytes
  maxMessageInterval : BitVec 32
deriving DecidableEq

inductive PluginKillState where
  | alive
  | sigTermSent
  | sigIntSent
  | sigKillSent
deriving DecidableEq

inductive Signal where
  | SIGTERM
  | SIGINT
  | SIGKILL
deriving DecidableEq

structure MessageData where
  firstReceivedTime : ℕ
  lastReceivedTime : ℕ
deriving DecidableEq

structure PluginMonitoringData where
  pid : ℕ
  startTime : ℕ
  lastReceivedTime : ℕ
  killStatus : PluginKillState
deriving DecidableEq

/-- A child process that has not been waited for: the entry it was started from, the signals
it got, and when its plugin was last heard of. -/
structure Process where
  owner : ℕ
  entry : InstalledPluginEntry
  running : Bool
  signals : List Signal
  lastMessage : Option ℕ
deriving DecidableEq

abbrev RunningPlugins := OrderedMap ℕ (InstalledPluginEntry × PluginMonitoringData)

structure PluginMonitor where
  mMessages : OrderedMap ℕ MessageData
  mRunningPlugins : RunningPlugins
  procs : ℕ → Option Process

/-- What a cycle meets: the enabled plugins, or none on a `DbException`; the configured limit
for a start; the clock; and the pid and time of each process that could be executed. -/
structure CycleEnv where
  enabledPlugins : Option (OrderedMap ℕ InstalledPluginEntry)
  maxStartupTime : BitVec 64
  currentTime : ℕ
  execute : ℕ → Bytes → Option (ℕ × ℕ)

inductive MonitorAct where
  | message (sourceId : ℕ) (rxTime : ℕ)
  | exit (pid : ℕ)
  | cycle (env : CycleEnv)

namespace StringUtils

/-- The loop of `tokenize` for the separator `/`. -/
def splitTokens (token : Bytes) : Bytes → List Bytes
  | [] => if token = [] then [] else [token]
  | b :: rest => if b = 47 then token :: splitTokens [] rest else splitTokens (token ++ [b]) rest

/-- The removal of empty tokens: after each removal the scan goes on at the second token. -/
def dropEmpty : ℕ → ℕ → List Bytes → List Bytes
  | 0, _, results => results
  | fuel + 1, i, results =>
    match results[i]? with
    | none => results
    | some [] => dropEmpty fuel 1 (results.eraseIdx i)
    | some _ => dropEmpty fuel (i + 1) results

/-- `StringUtils::tokenize(str, "/", true)`. A pass of the removal between two erasures takes
at most as many steps as there are tokens. -/
def tokenize (str : Bytes) : List Bytes :=
  let results := splitTokens [] str
  dropEmpty ((results.length + 1) * (results.length + 1)) 0 results

end StringUtils

namespace PluginMonitor

def init : PluginMonitor := ⟨.empty, .empty, fun _ => none⟩

/-- The running plugin that a message of the plugin is taken for. -/
def receiver (running : List (ℕ × InstalledPluginEntry × PluginMonitoringData)) (pluginId : ℕ) :
    Option (ℕ × InstalledPluginEntry × PluginMonitoringData) :=
  running.find? fun e => e.2.1.pluginId = pluginId

/-- `onMessageReceived`. The process that the message will be taken for has been heard of. -/
def onMessageReceived (s : PluginMonitor) (sourceId rxTime : ℕ) : PluginMonitor :=
  if sourceId = 0 then s
  else
    let first := match s.mMessages.find sourceId with
      | none => rxTime
      | some entry => entry.firstReceivedTime
    let procs := match receiver s.mRunningPlugins.entries sourceId with
      | none => s.procs
      | some e => Function.update s.procs e.2.2.pid
          ((s.procs e.2.2.pid).map fun p => { p with lastMessage := some rxTime })
    { s with mMessages := s.mMessages.insert sourceId ⟨first, rxTime⟩, procs := procs }

/-- The inner loop over the running plugins for one message. -/
def noteReceived (message : ℕ × MessageData) :
    List (ℕ × InstalledPluginEntry × PluginMonitoringData) →
      List (ℕ × InstalledPluginEntry × PluginMonitoringData)
  | [] => []
  | itr :: rest =>
    if itr.2.1.pluginId = message.1 then
      (itr.1, itr.2.1, { itr.2.2 with lastReceivedTime := message.2.lastReceivedTime }) :: rest
    else itr :: noteReceived message rest

theorem noteReceived_keys (message : ℕ × MessageData)
    (running : List (ℕ × InstalledPluginEntry × PluginMonitoringData)) :
    (noteReceived message running).map Prod.fst = running.map Prod.fst := by
  induction running with
  | nil => rfl
  | cons itr rest ih =>
    rw [noteReceived]
    split_ifs
    · rfl
    · rw [List.map_cons, List.map_cons, ih]

/-- The loop over the messages received since the last cycle. -/
def noteMessages (messages : List (ℕ × MessageData)) (running : RunningPlugins) :
    RunningPlugins :=
  messages.foldl (fun running message =>
    running.replace (noteReceived message running.entries) (noteReceived_keys ..)) running

/-- `waitpid(pid, NULL, WNOHANG)` -/
def waitpid (procs : ℕ → Option Process) (pid : ℕ) : ℕ → Option Process :=
  Function.update procs pid ((procs pid).filter Process.running)

/-- The dead plugins; `kill(pid, 0)` fails for a process that is gone. -/
def reapLoop : List (ℕ × InstalledPluginEntry × PluginMonitoringData) →
    (ℕ → Option Process) → (ℕ → Option Process) × List ℕ
  | [], procs => (procs, [])
  | itr :: rest, procs =>
    let procs := waitpid procs itr.2.2.pid
    let r := reapLoop rest procs
    (r.1, if procs itr.2.2.pid = none then itr.1 :: r.2 else r.2)

/-- `kill(pid, sig)` -/
def kill (procs : ℕ → Option Process) (pid : ℕ) (sig : Signal) : ℕ → Option Process :=
  Function.update procs pid ((procs pid).map fun p => { p with signals := p.signals ++ [sig] })

def sendSignal (procs : ℕ → Option Process) (pid : ℕ) : Option Signal → ℕ → Option Process
  | none => procs
  | some sig => kill procs pid sig

/-- The decision of the `default` case of the `switch`. -/
def killIt (enabledPlugins : OrderedMap ℕ InstalledPluginEntry) (maxStartupTime : BitVec 64)
    (currentTime : ℕ) (id : ℕ) (entry : InstalledPluginEntry) (data : PluginMonitoringData) :
    Bool :=
  match enabledPlugins.find id with
  | none => true
  | some current =>
    if data.lastReceivedTime = 0 then
      (data.startTime + maxStartupTime.toNat) % 2 ^ 64 ≤ currentTime
    else
      entry.maxMessageInterval ≠ 0 ∧
        (current.maxMessageInterval.toNat + data.lastReceivedTime) % 2 ^ 64 ≤ currentTime

/-- The `switch` for one running plugin: the new state and the signal that is sent. -/
def nextSignal (enabledPlugins : OrderedMap ℕ InstalledPluginEntry) (maxStartupTime : BitVec 64)
    (currentTime : ℕ) (id : ℕ) (entry : InstalledPluginEntry) (data : PluginMonitoringData) :
    PluginKillState × Option Signal :=
  match data.killStatus with
  | .sigTermSent => (.sigIntSent, some .SIGINT)
  | .sigIntSent => (.sigKillSent, some .SIGKILL)
  | .sigKillSent => (.sigKillSent, none)
  | .alive =>
    if killIt enabledPlugins maxStartupTime currentTime id entry data then
      (.sigTermSent, some .SIGTERM)
    else (.alive, none)

/-- The loop over the running plugins. -/
def killLoop (enabledPlugins : OrderedMap ℕ InstalledPluginEntry) (maxStartupTime : BitVec 64)
    (currentTime : ℕ) : List (ℕ × InstalledPluginEntry × PluginMonitoringData) →
      (ℕ → Option Process) →
      List (ℕ × InstalledPluginEntry × PluginMonitoringData) × (ℕ → Option Process)
  | [], procs => ([], procs)
  | itr :: rest, procs =>
    let next := nextSignal enabledPlugins maxStartupTime currentTime itr.1 itr.2.1 itr.2.2
    let procs := sendSignal procs itr.2.2.pid next.2
    let r := killLoop enabledPlugins maxStartupTime currentTime rest procs
    ((itr.1, itr.2.1, { itr.2.2 with killStatus := next.1 }) :: r.1, r.2)

theorem killLoop_keys (enabledPlugins : OrderedMap ℕ InstalledPluginEntry)
    (maxStartupTime : BitVec 64) (currentTime : ℕ)
    (running : List (ℕ × InstalledPluginEntry × PluginMonitoringData))
    (procs : ℕ → Option Process) :
    (killLoop enabledPlugins maxStartupTime currentTime running procs).1.map Prod.fst =
      running.map Prod.fst := by
  induction running generalizing procs with
  | nil => rfl
  | cons itr rest ih =>
    rw [killLoop]
    simp only [List.map_cons, ih]

/-- The depth of the executable below the path of the plugin, and whether it ever leaves it. -/
def exeDepth (tokens : List Bytes) : ℤ × Bool :=
  tokens.foldl (fun d token =>
    let depth := if token = cstr "." then d.1 else if token = cstr ".." then d.1 - 1 else d.1 + 1
    (depth, d.2 || depth < 0)) (0, false)

/-- The path that is executed, when the entry passes the checks made before. -/
def fullpath (entry : InstalledPluginEntry) : Option Bytes :=
  let tokenizedExeName := StringUtils.tokenize entry.exeName
  let tokenizedPathName := StringUtils.tokenize entry.path
  if tokenizedExeName = [] then none
  else
    let depth := exeDepth tokenizedExeName
    if depth.1 < 1 ∨ depth.2 then none
    else some ((tokenizedPathName ++ tokenizedExeName.filter (· ≠ cstr ".")).flatMap (47 :: ·))

/-- One turn of the loop over the enabled plugins. A pid in use is not given to a child. -/
def startPlugin (execute : ℕ → Bytes → Option (ℕ × ℕ)) (s : PluginMonitor)
    (enabledPlugin : ℕ × InstalledPluginEntry) : PluginMonitor :=
  match s.mRunningPlugins.find enabledPlugin.1 with
  | some _ => s
  | none =>
    match fullpath enabledPlugin.2 with
    | none => s
    | some path =>
      match execute enabledPlugin.1 path with
      | none => s
      | some (pid, startTime) =>
        if s.procs pid = none then
          { s with
            mRunningPlugins := s.mRunningPlugins.insert enabledPlugin.1
              (enabledPlugin.2, ⟨pid, startTime, 0, .alive⟩)
            procs := Function.update s.procs pid
              (some ⟨enabledPlugin.1, enabledPlugin.2, true, [], none⟩) }
        else s

/-- The part of a cycle after the database was read. -/
def monitorPlugins (env : CycleEnv) (enabledPlugins : OrderedMap ℕ InstalledPluginEntry)
    (s : PluginMonitor) : PluginMonitor :=
  let maxStartupTime := if env.maxStartupTime = 0 then 15000 else env.maxStartupTime
  let reaped := reapLoop s.mRunningPlugins.entries s.procs
  let alive := reaped.2.foldl OrderedMap.erase s.mRunningPlugins
  let killed := killLoop enabledPlugins maxStartupTime env.currentTime alive.entries reaped.1
  let running := alive.replace killed.1 (killLoop_keys ..)
  enabledPlugins.entries.foldl (startPlugin env.execute)
    { s with mRunningPlugins := running, procs := killed.2 }

/-- One turn of the loop of `monitorThreadEntry`. -/
def cycle (env : CycleEnv) (s : PluginMonitor) : PluginMonitor :=
  let s := { s with
    mRunningPlugins := noteMessages s.mMessages.entries s.mRunningPlugins
    mMessages := .empty }
  match env.enabledPlugins with
  | none => s
  | some enabledPlugins => monitorPlugins env enabledPlugins s

/-- The clock counts milliseconds since 1970, and stays far below `2 ^ 63`. -/
def machine : Machine PluginMonitor MonitorAct where
  step s
    | .message sourceId rxTime =>
      if 0 < rxTime ∧ rxTime < 2 ^ 63 then some (s.onMessageReceived sourceId rxTime) else none
    | .exit pid => some { s with
        procs := Function.update s.procs pid ((s.procs pid).map fun p => { p with running := false }) }
    | .cycle env => some (s.cycle env)

/-- The signals a process has got when the monitor is in this state about it. -/
def sent : PluginKillState → List Signal
  | .alive => []
  | .sigTermSent => [.SIGTERM]
  | .sigIntSent => [.SIGTERM, .SIGINT]
  | .sigKillSent => [.SIGTERM, .SIGINT, .SIGKILL]

section Messages
variable {messages : List (ℕ × MessageData)}
  {l : List (ℕ × InstalledPluginEntry × PluginMonitoringData)} {running : RunningPlugins}
  {id pluginId : ℕ} {e : InstalledPluginEntry} {d : PluginMonitoringData}

/-- The id of the running plugin that a message of the plugin is taken for. -/
def receiverId (l : List (ℕ × InstalledPluginEntry × PluginMonitoringData)) (pluginId : ℕ) :
    Option ℕ := (receiver l pluginId).map Prod.fst

theorem receiverId_cons (itr : ℕ × InstalledPluginEntry × PluginMonitoringData)
    (rest : List (ℕ × InstalledPluginEntry × PluginMonitoringData)) (pluginId : ℕ) :
    receiverId (itr :: rest) pluginId =
      if itr.2.1.pluginId = pluginId then some itr.1 else receiverId rest pluginId := by
  by_cases h : itr.2.1.pluginId = pluginId <;> simp [receiverId, receiver, h]

theorem receiverId_noteReceived (message : ℕ × MessageData)
    (l : List (ℕ × InstalledPluginEntry × PluginMonitoringData)) (pluginId : ℕ) :
    receiverId (noteReceived message l) pluginId = receiverId l pluginId := by
  induction l with
  | nil => rfl
  | cons itr rest ih =>
    rw [noteReceived]
    split_ifs with h
    · rw [receiverId_cons, receiverId_cons]
    · rw [receiverId_cons, receiverId_cons, ih]

theorem mem_of_receiverId (h : receiverId l pluginId = some id) :
    ∃ e d, (id, e, d) ∈ l ∧ e.pluginId = pluginId := by
  obtain ⟨⟨id', e, d⟩, hfind, rfl⟩ := Option.map_eq_some_iff.mp h
  exact ⟨e, d, List.mem_of_find?_eq_some hfind, by simpa using List.find?_some hfind⟩

theorem pluginId_of_receiverId (h : receiverId running.entries pluginId = some id)
    (hfind : running.find id = some (e, d)) : e.pluginId = pluginId := by
  obtain ⟨e', d', hmem, rfl⟩ := mem_of_receiverId h
  rw [OrderedMap.mem_entries_iff, hfind] at hmem
  obtain ⟨rfl, -⟩ : e = e' ∧ d = d' := by simpa using hmem
  rfl

/-- What one message changes for one running plugin. -/
theorem find_noteReceived (message : ℕ × MessageData) (id : ℕ)
    (hl : l.Pairwise fun a b => a.1 < b.1) :
    (noteReceived message l).find? (fun x => x.1 = id) =
      (l.find? fun x => x.1 = id).map fun x =>
        if receiverId l message.1 = some id then
          (x.1, x.2.1, { x.2.2 with lastReceivedTime := message.2.lastReceivedTime })
        else x := by
  induction l with
  | nil => rfl
  | cons itr rest ih =>
    obtain ⟨hlt, htail⟩ := List.pairwise_cons.mp hl
    rw [noteReceived, receiverId_cons]
    by_cases hplugin : itr.2.1.pluginId = message.1
    · rw [if_pos hplugin, if_pos hplugin]
      by_cases hid : itr.1 = id
      · simp [hid]
      · simp [hid]
    · rw [if_neg hplugin, if_neg hplugin]
      by_cases hid : itr.1 = id
      · have hnot : receiverId rest message.1 ≠ some id := by
          intro h
          obtain ⟨e, d, hmem, -⟩ := mem_of_receiverId h
          have := hlt _ hmem
          omega
        simp [hid, hnot]
      · simpa [hid] using ih htail

/-- The receive time of a running plugin once the messages are taken. -/
def lastHeard (messages : List (ℕ × MessageData)) (running : RunningPlugins) (id : ℕ)
    (e : InstalledPluginEntry) (d : PluginMonitoringData) : ℕ :=
  if receiverId running.entries e.pluginId = some id then
    match messages.find? fun m => m.1 = e.pluginId with
    | some m => m.2.lastReceivedTime
    | none => d.lastReceivedTime
  else d.lastReceivedTime

theorem lastHeard_of_no_message (h : ∀ m ∈ messages, m.1 ≠ e.pluginId) :
    lastHeard messages running id e d = d.lastReceivedTime := by
  have hnone : (messages.find? fun m => m.1 = e.pluginId) = none := by
    simpa [List.find?_eq_none] using fun a b hm => h (a, b) hm
  simp [lastHeard, hnone]

theorem find_noteMessages (hm : messages.Pairwise fun a b => a.1 < b.1) :
    (noteMessages messages running).find id =
      (running.find id).map fun x =>
        (x.1, { x.2 with lastReceivedTime := lastHeard messages running id x.1 x.2 }) := by
  induction messages generalizing running with
  | nil => cases hfind : running.find id <;> simp [noteMessages, lastHeard, hfind]
  | cons m messages ih =>
    obtain ⟨hlt, htail⟩ := List.pairwise_cons.mp hm
    have hone : (running.replace (noteReceived m running.entries)
        (noteReceived_keys ..)).find id = (running.find id).map fun x =>
          if receiverId running.entries m.1 = some id then
            (x.1, { x.2 with lastReceivedTime := m.2.lastReceivedTime }) else x := by
      have hstep := find_noteReceived m id running.sorted
      rw [OrderedMap.find, OrderedMap.replace, hstep, OrderedMap.find, Option.map_map,
        Option.map_map]
      congr 1
      funext x
      by_cases hr : receiverId running.entries m.1 = some id <;> simp [hr]
    have hfold : noteMessages (m :: messages) running = noteMessages messages
        (running.replace (noteReceived m running.entries) (noteReceived_keys ..)) := rfl
    rw [hfold, ih htail, hone]
    cases hfind : running.find id with
    | none => rfl
    | some x =>
      obtain ⟨e, d⟩ := x
      simp only [Option.map_some, Option.some.injEq]
      have hreceiver (q : ℕ) : receiverId (running.replace (noteReceived m running.entries)
          (noteReceived_keys ..)).entries q = receiverId running.entries q :=
        receiverId_noteReceived ..
      by_cases hr : receiverId running.entries m.1 = some id
      · have hq : e.pluginId = m.1 := pluginId_of_receiverId hr hfind
        have hnone : ∀ m' ∈ messages, m'.1 ≠ e.pluginId := by
          intro m' hm'
          have := hlt m' hm'
          omega
        simp only [if_pos hr, lastHeard_of_no_message hnone]
        simp [lastHeard, hq, hr]
      · have hne : m.1 ≠ e.pluginId ∨ receiverId running.entries e.pluginId ≠ some id := by
          by_cases hq : m.1 = e.pluginId
          · exact .inr (hq ▸ hr)
          · exact .inl hq
        simp only [if_neg hr, lastHeard, hreceiver, List.find?_cons]
        rcases hne with hne | hne
        · simp [hne]
        · simp [hne]

end Messages

section Passes
variable {running : RunningPlugins} {procs : ℕ → Option Process}
  {l : List (ℕ × InstalledPluginEntry × PluginMonitoringData)} {id pid : ℕ} {p : Process}
  {e : InstalledPluginEntry} {d : PluginMonitoringData}

/-- The running plugins and the processes that were not waited for are the same. -/
structure Consistent (running : RunningPlugins) (procs : ℕ → Option Process) : Prop where
  tracked : ∀ id e d, running.find id = some (e, d) →
    ∃ p, procs d.pid = some p ∧ p.owner = id ∧ p.entry = e ∧ p.signals = sent d.killStatus
  known : ∀ pid p, procs pid = some p → ∃ e d, running.find p.owner = some (e, d) ∧ d.pid = pid

/-- A process is found under its owner, with the entry it was started from. -/
theorem Consistent.entry (h : Consistent running procs) (hp : procs pid = some p) :
    ∃ d, running.find p.owner = some (p.entry, d) ∧ d.pid = pid ∧
      p.signals = sent d.killStatus := by
  obtain ⟨e, d, hfind, rfl⟩ := h.known pid p hp
  obtain ⟨p', hp', -, rfl, hsent⟩ := h.tracked _ _ _ hfind
  obtain rfl : p = p' := by simpa [hp] using hp'
  exact ⟨d, hfind, rfl, hsent⟩

theorem Consistent.owner (h : Consistent running procs) (hfind : running.find id = some (e, d))
    (hp : procs d.pid = some p) : p.owner = id ∧ p.entry = e := by
  obtain ⟨p', hp', howner, hentry, -⟩ := h.tracked id e d hfind
  obtain rfl : p = p' := by simpa [hp] using hp'
  exact ⟨howner, hentry⟩

theorem waitpid_filter (procs : ℕ → Option Process) (pid pid' : ℕ) :
    (waitpid procs pid pid').filter Process.running = (procs pid').filter Process.running := by
  by_cases h : pid' = pid
  · subst h
    simp [waitpid, Option.filter_filter]
  · simp [waitpid, h]

theorem reapLoop_procs (l : List (ℕ × InstalledPluginEntry × PluginMonitoringData))
    (procs : ℕ → Option Process) (pid : ℕ) :
    (reapLoop l procs).1 pid =
      if ∃ itr ∈ l, itr.2.2.pid = pid then (procs pid).filter Process.running else procs pid := by
  induction l generalizing procs with
  | nil => simp [reapLoop]
  | cons itr rest ih =>
    simp only [reapLoop, ih, waitpid_filter, List.mem_cons, exists_eq_or_imp]
    by_cases hrest : ∃ itr ∈ rest, itr.2.2.pid = pid
    · simp [hrest]
    · by_cases hpid : itr.2.2.pid = pid
      · subst hpid
        simp [hrest, waitpid]
      · simp [hrest, hpid, waitpid, Ne.symm hpid]

theorem mem_reapLoop_dead (l : List (ℕ × InstalledPluginEntry × PluginMonitoringData))
    (procs : ℕ → Option Process) (id : ℕ) :
    id ∈ (reapLoop l procs).2 ↔
      ∃ itr ∈ l, itr.1 = id ∧ (procs itr.2.2.pid).filter Process.running = none := by
  induction l generalizing procs with
  | nil => simp [reapLoop]
  | cons itr rest ih =>
    have hself : waitpid procs itr.2.2.pid itr.2.2.pid =
        (procs itr.2.2.pid).filter Process.running := by simp [waitpid]
    have hrest := ih (waitpid procs itr.2.2.pid)
    simp only [waitpid_filter] at hrest
    simp only [reapLoop, hself, List.mem_cons, exists_eq_or_imp]
    by_cases hdead : (procs itr.2.2.pid).filter Process.running = none
    · rw [if_pos hdead, List.mem_cons, hrest]
      simp [hdead, eq_comm]
    · rw [if_neg hdead, hrest]
      simp [hdead]

theorem find_foldl_erase {κ ν : Type} [LinearOrder κ] (keys : List κ) (m : OrderedMap κ ν)
    (key : κ) : (keys.foldl OrderedMap.erase m).find key =
      if key ∈ keys then none else m.find key := by
  induction keys generalizing m with
  | nil => simp
  | cons k keys ih =>
    rw [List.foldl_cons, ih, OrderedMap.find_erase]
    by_cases hmem : key ∈ keys
    · simp [hmem]
    · by_cases hk : k = key
      · simp [hk]
      · simp [hmem, hk, Ne.symm hk]

/-- The running plugins after the dead ones were removed. -/
def reapedPlugins (running : RunningPlugins) (procs : ℕ → Option Process) : RunningPlugins :=
  (reapLoop running.entries procs).2.foldl OrderedMap.erase running

theorem reaped_procs (h : Consistent running procs) (pid : ℕ) :
    (reapLoop running.entries procs).1 pid = (procs pid).filter Process.running := by
  rw [reapLoop_procs]
  split_ifs with hmem
  · rfl
  · cases hp : procs pid with
    | none => rfl
    | some p =>
      obtain ⟨d, hfind, hpid, -⟩ := h.entry hp
      exact absurd ⟨_, OrderedMap.mem_entries_iff.mpr hfind, hpid⟩ hmem

theorem find_reapedPlugins {x : InstalledPluginEntry × PluginMonitoringData} :
    (reapedPlugins running procs).find id = some x ↔
      running.find id = some x ∧ ∃ p, procs x.2.pid = some p ∧ p.running = true := by
  have hdead (hfind : running.find id = some x) : id ∈ (reapLoop running.entries procs).2 ↔
      ¬ ∃ p, procs x.2.pid = some p ∧ p.running = true := by
    rw [mem_reapLoop_dead]
    have hfilter : (procs x.2.pid).filter Process.running = none ↔
        ¬ ∃ p, procs x.2.pid = some p ∧ p.running = true := by
      cases procs x.2.pid <;> simp [Option.filter]
    rw [← hfilter]
    constructor
    · rintro ⟨itr, hmem, rfl, hnone⟩
      rw [OrderedMap.mem_entries_iff.mp hmem] at hfind
      exact Option.some.inj hfind ▸ hnone
    · intro hnone
      exact ⟨(id, x), OrderedMap.mem_entries_iff.mpr hfind, rfl, hnone⟩
  rw [reapedPlugins, find_foldl_erase]
  constructor
  · intro hfind
    split_ifs at hfind with hmem
    exact ⟨hfind, not_not.mp fun hnot => hmem ((hdead hfind).mpr hnot)⟩
  · rintro ⟨hfind, halive⟩
    rw [if_neg fun hmem => (hdead hfind).mp hmem halive, hfind]

theorem reaped_eq_some (h : Consistent running procs) :
    (reapLoop running.entries procs).1 pid = some p ↔ procs pid = some p ∧ p.running = true := by
  rw [reaped_procs h, Option.filter_eq_some_iff]

theorem consistent_reaped (h : Consistent running procs) :
    Consistent (reapedPlugins running procs) (reapLoop running.entries procs).1 := by
  constructor
  · intro id e d hfind
    obtain ⟨hfind, p, hp, hrunning⟩ := find_reapedPlugins.mp hfind
    obtain ⟨p', hp', hrest⟩ := h.tracked id e d hfind
    obtain rfl : p = p' := Option.some.inj (hp.symm.trans hp')
    exact ⟨p, (reaped_eq_some h).mpr ⟨hp, hrunning⟩, hrest⟩
  · intro pid p hp
    obtain ⟨hp, hrunning⟩ := (reaped_eq_some h).mp hp
    obtain ⟨d, hfind, rfl, -⟩ := h.entry hp
    exact ⟨p.entry, d, find_reapedPlugins.mpr ⟨hfind, p, hp, hrunning⟩, rfl⟩

variable (enabledPlugins : OrderedMap ℕ InstalledPluginEntry) (maxStartupTime : BitVec 64)
  (currentTime : ℕ)

/-- What the pass makes of a running plugin. -/
def afterSignal (id : ℕ) (x : InstalledPluginEntry × PluginMonitoringData) :
    InstalledPluginEntry × PluginMonitoringData :=
  (x.1, { x.2 with
    killStatus := (nextSignal enabledPlugins maxStartupTime currentTime id x.1 x.2).1 })

/-- What the pass makes of its process. -/
def signalled (id : ℕ) (x : InstalledPluginEntry × PluginMonitoringData) (p : Process) :
    Process :=
  { p with signals := p.signals ++
      (nextSignal enabledPlugins maxStartupTime currentTime id x.1 x.2).2.toList }

theorem sent_nextSignal (id : ℕ) (e : InstalledPluginEntry) (d : PluginMonitoringData) :
    sent (nextSignal enabledPlugins maxStartupTime currentTime id e d).1 = sent d.killStatus ++
      (nextSignal enabledPlugins maxStartupTime currentTime id e d).2.toList := by
  cases hd : d.killStatus <;> simp only [nextSignal, hd]
  · split_ifs <;> rfl
  all_goals rfl

theorem killLoop_entries (l : List (ℕ × InstalledPluginEntry × PluginMonitoringData))
    (procs : ℕ → Option Process) :
    (killLoop enabledPlugins maxStartupTime currentTime l procs).1 =
      l.map fun itr => (itr.1, afterSignal enabledPlugins maxStartupTime currentTime itr.1 itr.2) := by
  induction l generalizing procs with
  | nil => rfl
  | cons itr rest ih =>
    simp only [killLoop, ih, List.map_cons]
    rfl

theorem sendSignal_self (procs : ℕ → Option Process) (pid : ℕ) (sig : Option Signal) :
    sendSignal procs pid sig pid =
      (procs pid).map fun p => { p with signals := p.signals ++ sig.toList } := by
  cases sig with
  | none => cases hp : procs pid <;> simp [sendSignal, hp]
  | some sig => simp [sendSignal, kill]

theorem sendSignal_of_ne {pid' : ℕ} (hne : pid' ≠ pid) (sig : Option Signal) :
    sendSignal procs pid sig pid' = procs pid' := by
  cases sig with
  | none => rfl
  | some sig => rw [sendSignal, kill, Function.update_of_ne hne]

theorem killLoop_other (hpid : ∀ itr ∈ l, itr.2.2.pid ≠ pid) :
    (killLoop enabledPlugins maxStartupTime currentTime l procs).2 pid = procs pid := by
  induction l generalizing procs with
  | nil => rfl
  | cons itr rest ih =>
    have hne : pid ≠ itr.2.2.pid := (hpid itr List.mem_cons_self).symm
    simp only [killLoop]
    rw [ih fun itr' h => hpid itr' (List.mem_cons_of_mem _ h), sendSignal_of_ne hne]

theorem killLoop_procs (hl : l.Pairwise fun a b => a.2.2.pid ≠ b.2.2.pid)
    {itr : ℕ × InstalledPluginEntry × PluginMonitoringData} (hmem : itr ∈ l) :
    (killLoop enabledPlugins maxStartupTime currentTime l procs).2 itr.2.2.pid =
      (procs itr.2.2.pid).map
        (signalled enabledPlugins maxStartupTime currentTime itr.1 itr.2) := by
  induction l generalizing procs with
  | nil => simp at hmem
  | cons itr' rest ih =>
    obtain ⟨hne, htail⟩ := List.pairwise_cons.mp hl
    simp only [killLoop]
    rcases List.mem_cons.mp hmem with rfl | hmem
    · rw [killLoop_other _ _ _ fun itr' h => (hne itr' h).symm, sendSignal_self]
      rfl
    · rw [ih htail hmem, sendSignal_of_ne (hne itr hmem).symm]

/-- The running plugins after the signals were sent. -/
def killedPlugins (running : RunningPlugins) (procs : ℕ → Option Process) : RunningPlugins :=
  running.replace (killLoop enabledPlugins maxStartupTime currentTime running.entries procs).1
    (killLoop_keys ..)

variable {enabledPlugins maxStartupTime currentTime}

theorem find_killedPlugins :
    (killedPlugins enabledPlugins maxStartupTime currentTime running procs).find id =
      (running.find id).map (afterSignal enabledPlugins maxStartupTime currentTime id) := by
  rw [OrderedMap.find, killedPlugins, OrderedMap.replace]
  simp only [killLoop_entries, OrderedMap.find, List.find?_map, Function.comp_def, Option.map_map]
  cases hfind : running.entries.find? fun x => decide (x.1 = id) with
  | none => rfl
  | some x =>
    obtain rfl : x.1 = id := by simpa using List.find?_some hfind
    rfl

theorem pids_distinct (h : Consistent running procs) :
    running.entries.Pairwise fun a b => a.2.2.pid ≠ b.2.2.pid := by
  refine running.sorted.imp_of_mem fun {a b} ha hb hlt heq => ?_
  obtain ⟨p, hp, howner, -⟩ := h.tracked a.1 a.2.1 a.2.2 (OrderedMap.mem_entries_iff.mp ha)
  rw [heq] at hp
  have hb' := (h.owner (OrderedMap.mem_entries_iff.mp hb) hp).1
  omega

theorem killed_procs (h : Consistent running procs) (hfind : running.find id = some (e, d)) :
    (killLoop enabledPlugins maxStartupTime currentTime running.entries procs).2 d.pid =
      (procs d.pid).map (signalled enabledPlugins maxStartupTime currentTime id (e, d)) :=
  killLoop_procs _ _ _ (pids_distinct h) (OrderedMap.mem_entries_iff.mpr hfind)

theorem killed_eq_some (h : Consistent running procs)
    (hp : (killLoop enabledPlugins maxStartupTime currentTime running.entries procs).2 pid =
      some p) :
    ∃ p₀ d, procs pid = some p₀ ∧ running.find p₀.owner = some (p₀.entry, d) ∧ d.pid = pid ∧
      p = signalled enabledPlugins maxStartupTime currentTime p₀.owner (p₀.entry, d) p₀ := by
  cases hp₀ : procs pid with
  | none =>
    rw [killLoop_other, hp₀] at hp
    · simp at hp
    · rintro itr hmem rfl
      obtain ⟨p', hp', -⟩ := h.tracked _ _ _ (OrderedMap.mem_entries_iff.mp hmem)
      rw [hp₀] at hp'
      simp at hp'
  | some p₀ =>
    obtain ⟨d, hfind, rfl, -⟩ := h.entry hp₀
    rw [killed_procs h hfind, hp₀] at hp
    exact ⟨p₀, d, rfl, hfind, rfl, by simpa using hp.symm⟩

theorem consistent_killed (h : Consistent running procs) :
    Consistent (killedPlugins enabledPlugins maxStartupTime currentTime running procs)
      (killLoop enabledPlugins maxStartupTime currentTime running.entries procs).2 := by
  constructor
  · intro id e d hfind
    rw [find_killedPlugins, Option.map_eq_some_iff] at hfind
    obtain ⟨⟨e₀, d₀⟩, hfind, hafter⟩ := hfind
    obtain ⟨p, hp, howner, hentry, hsent⟩ := h.tracked id e₀ d₀ hfind
    obtain ⟨rfl, rfl⟩ := Prod.mk.inj hafter
    refine ⟨signalled enabledPlugins maxStartupTime currentTime id (e₀, d₀) p, ?_, howner,
      hentry, ?_⟩
    · rw [killed_procs h hfind, hp, Option.map_some]
    · simp only [signalled, hsent, sent_nextSignal]
  · intro pid p hp
    obtain ⟨p₀, d, -, hfind, hpid, rfl⟩ := killed_eq_some h hp
    refine ⟨p₀.entry, (afterSignal enabledPlugins maxStartupTime currentTime p₀.owner
      (p₀.entry, d)).2, ?_, hpid⟩
    simp only [signalled, find_killedPlugins, hfind, Option.map_some]
    rfl

end Passes

section Cycles
variable {s s' : PluginMonitor} {env : CycleEnv} {pid : ℕ} {p : Process}
  {enabledPlugins : OrderedMap ℕ InstalledPluginEntry}

/-- The invariant of every run: besides, the last message of a process is the one that the
next cycle will find. -/
structure Inv (s : PluginMonitor) : Prop where
  consistent : Consistent s.mRunningPlugins s.procs
  heard : ∀ pid p d t, s.procs pid = some p →
    s.mRunningPlugins.find p.owner = some (p.entry, d) → p.lastMessage = some t →
    lastHeard s.mMessages.entries s.mRunningPlugins p.owner p.entry d = t ∧ 0 < t ∧ t < 2 ^ 63

/-- What one turn of the loop over the enabled plugins can do. -/
theorem startPlugin_cases (execute : ℕ → Bytes → Option (ℕ × ℕ)) (s : PluginMonitor)
    (x : ℕ × InstalledPluginEntry) :
    startPlugin execute s x = s ∨ ∃ pid startTime, s.mRunningPlugins.find x.1 = none ∧
      s.procs pid = none ∧ startPlugin execute s x = { s with
        mRunningPlugins := s.mRunningPlugins.insert x.1 (x.2, ⟨pid, startTime, 0, .alive⟩)
        procs := Function.update s.procs pid (some ⟨x.1, x.2, true, [], none⟩) } := by
  unfold startPlugin
  cases hfind : s.mRunningPlugins.find x.1 with
  | some _ => exact .inl rfl
  | none =>
    cases hpath : fullpath x.2 with
    | none => exact .inl rfl
    | some path =>
      cases hexec : execute x.1 path with
      | none => exact .inl (by simp [hexec])
      | some r =>
        by_cases hpid : s.procs r.1 = none
        · exact .inr ⟨r.1, r.2, rfl, hpid, by simp [hexec, hpid]⟩
        · exact .inl (by simp [hexec, hpid])

theorem startPlugin_messages (execute : ℕ → Bytes → Option (ℕ × ℕ)) (s : PluginMonitor)
    (x : ℕ × InstalledPluginEntry) : (startPlugin execute s x).mMessages = s.mMessages := by
  rcases startPlugin_cases execute s x with h | ⟨_, _, -, -, h⟩ <;> rw [h]

theorem startPlugin_procs (execute : ℕ → Bytes → Option (ℕ × ℕ))
    (x : ℕ × InstalledPluginEntry) (hp : s.procs pid = some p) :
    (startPlugin execute s x).procs pid = some p := by
  rcases startPlugin_cases execute s x with h | ⟨pid', _, -, hfree, h⟩ <;> rw [h]
  · exact hp
  · have hne : pid ≠ pid' := by
      rintro rfl
      simp [hfree] at hp
    simpa [Function.update_of_ne hne] using hp

theorem inv_startPlugin (h : Inv s) (hm : s.mMessages = .empty)
    (execute : ℕ → Bytes → Option (ℕ × ℕ)) (x : ℕ × InstalledPluginEntry) :
    Inv (startPlugin execute s x) := by
  rcases startPlugin_cases execute s x with hs | ⟨pid', startTime, hfree, hnone, hs⟩ <;> rw [hs]
  · exact h
  · have hother {id : ℕ} {v : InstalledPluginEntry × PluginMonitoringData}
        (hv : s.mRunningPlugins.find id = some v) : x.1 ≠ id := by
      rintro rfl
      simp [hfree] at hv
    have hpids {pid : ℕ} {p : Process} (hp : s.procs pid = some p) : pid ≠ pid' := by
      rintro rfl
      simp [hnone] at hp
    refine ⟨⟨?_, ?_⟩, ?_⟩
    · intro id e d hfind
      simp only [OrderedMap.find_insert] at hfind
      split_ifs at hfind with hid
      · obtain ⟨rfl, rfl⟩ := Prod.mk.inj (Option.some.inj hfind)
        exact ⟨_, Function.update_self .., hid, rfl, rfl⟩
      · obtain ⟨p, hp, hrest⟩ := h.consistent.tracked id e d hfind
        exact ⟨p, by simpa [Function.update_of_ne (hpids hp)] using hp, hrest⟩
    · intro pid p hp
      by_cases hpid : pid = pid'
      · subst hpid
        obtain rfl : _ = p := by simpa using hp
        exact ⟨x.2, ⟨pid, startTime, 0, .alive⟩,
          by simp only [OrderedMap.find_insert, if_true], rfl⟩
      · have hp : s.procs pid = some p := by simpa [Function.update_of_ne hpid] using hp
        obtain ⟨e, d, hfind, hd⟩ := h.consistent.known pid p hp
        exact ⟨e, d, by simpa only [OrderedMap.find_insert, if_neg (hother hfind)] using hfind, hd⟩
    · intro pid p d t hp hfind ht
      by_cases hpid : pid = pid'
      · subst hpid
        obtain rfl : _ = p := by simpa using hp
        simp at ht
      · have hp : s.procs pid = some p := by simpa [Function.update_of_ne hpid] using hp
        obtain ⟨e, d', hfind', -⟩ := h.consistent.known pid p hp
        simp only [OrderedMap.find_insert, if_neg (hother hfind')] at hfind
        have hheard := h.heard pid p d t hp hfind ht
        simp only [hm] at hheard ⊢
        rw [lastHeard_of_no_message (by simp [OrderedMap.empty])] at hheard ⊢
        exact hheard

theorem inv_startLoop (h : Inv s) (hm : s.mMessages = .empty)
    (execute : ℕ → Bytes → Option (ℕ × ℕ)) (l : List (ℕ × InstalledPluginEntry)) :
    Inv (l.foldl (startPlugin execute) s) := by
  induction l generalizing s with
  | nil => exact h
  | cons x l ih =>
    apply ih (inv_startPlugin h hm execute x)
    rw [startPlugin_messages, hm]

theorem startLoop_procs (execute : ℕ → Bytes → Option (ℕ × ℕ))
    (l : List (ℕ × InstalledPluginEntry)) (hp : s.procs pid = some p) :
    (l.foldl (startPlugin execute) s).procs pid = some p := by
  induction l generalizing s with
  | nil => exact hp
  | cons x l ih => exact ih (startPlugin_procs execute x hp)

/-- The state between the two halves of a cycle. -/
def noted (s : PluginMonitor) : PluginMonitor :=
  { s with
    mRunningPlugins := noteMessages s.mMessages.entries s.mRunningPlugins
    mMessages := .empty }

/-- What the first half of a cycle makes of a running plugin. -/
def notedEntry (s : PluginMonitor) (id : ℕ) (x : InstalledPluginEntry × PluginMonitoringData) :
    InstalledPluginEntry × PluginMonitoringData :=
  let last := lastHeard s.mMessages.entries s.mRunningPlugins id x.1 x.2
  (x.1, { x.2 with lastReceivedTime := last })

theorem find_noted (s : PluginMonitor) (id : ℕ) :
    s.noted.mRunningPlugins.find id = (s.mRunningPlugins.find id).map (s.notedEntry id) :=
  find_noteMessages s.mMessages.sorted

theorem inv_noted (h : Inv s) : Inv s.noted := by
  refine ⟨⟨?_, ?_⟩, ?_⟩
  · intro id e d hfind
    rw [find_noted, Option.map_eq_some_iff] at hfind
    obtain ⟨⟨e₀, d₀⟩, hfind, hnoted⟩ := hfind
    obtain ⟨rfl, rfl⟩ := Prod.mk.inj hnoted
    exact h.consistent.tracked id e₀ d₀ hfind
  · intro pid p hp
    obtain ⟨e, d, hfind, hpid⟩ := h.consistent.known pid p hp
    refine ⟨e, (s.notedEntry p.owner (e, d)).2, ?_, hpid⟩
    rw [find_noted, hfind]
    rfl
  · intro pid p d t hp hfind ht
    rw [find_noted, Option.map_eq_some_iff] at hfind
    obtain ⟨⟨e₀, d₀⟩, hfind, hnoted⟩ := hfind
    obtain ⟨rfl, rfl⟩ := Prod.mk.inj hnoted
    rw [lastHeard_of_no_message (by simp [noted, OrderedMap.empty])]
    exact h.heard pid p d₀ t hp hfind ht

theorem inv_reaped (h : Inv s) (hm : s.mMessages = .empty) :
    Inv { s with
      mRunningPlugins := reapedPlugins s.mRunningPlugins s.procs
      procs := (reapLoop s.mRunningPlugins.entries s.procs).1 } := by
  refine ⟨consistent_reaped h.consistent, ?_⟩
  intro pid p d t hp hfind ht
  obtain ⟨hp, -⟩ := (reaped_eq_some h.consistent).mp hp
  have hheard := h.heard pid p d t hp (find_reapedPlugins.mp hfind).1 ht
  simp only [hm] at hheard ⊢
  rw [lastHeard_of_no_message (by simp [OrderedMap.empty])] at hheard ⊢
  exact hheard

theorem inv_killed (h : Inv s) (hm : s.mMessages = .empty) (maxStartupTime : BitVec 64)
    (currentTime : ℕ) :
    Inv { s with
      mRunningPlugins :=
        killedPlugins enabledPlugins maxStartupTime currentTime s.mRunningPlugins s.procs
      procs :=
        (killLoop enabledPlugins maxStartupTime currentTime s.mRunningPlugins.entries s.procs).2 } := by
  refine ⟨consistent_killed h.consistent, ?_⟩
  intro pid p d t hp hfind ht
  obtain ⟨p₀, d₀, hp₀, hfind₀, -, rfl⟩ := killed_eq_some h.consistent hp
  have hheard := h.heard pid p₀ d₀ t hp₀ hfind₀ ht
  simp only [signalled, find_killedPlugins, hfind₀, Option.map_some, Option.some.injEq] at hfind
  obtain ⟨-, rfl⟩ := Prod.mk.inj hfind
  simp only [hm] at hheard ⊢
  rw [lastHeard_of_no_message (by simp [OrderedMap.empty])] at hheard ⊢
  exact hheard

/-- The limit for a start that a cycle uses. -/
def startupLimit (env : CycleEnv) : BitVec 64 :=
  if env.maxStartupTime = 0 then 15000 else env.maxStartupTime

/-- The signal that a cycle sends to the process of a running plugin. -/
def cycleSignal (env : CycleEnv) (enabledPlugins : OrderedMap ℕ InstalledPluginEntry)
    (s : PluginMonitor) (id : ℕ) (e : InstalledPluginEntry) (d : PluginMonitoringData) :
    Option Signal :=
  (nextSignal enabledPlugins (startupLimit env) env.currentTime id e
    (s.notedEntry id (e, d)).2).2

theorem inv_cycle (h : Inv s) (env : CycleEnv) : Inv (s.cycle env) := by
  have hnoted := inv_noted h
  unfold cycle
  cases henabled : env.enabledPlugins with
  | none => exact hnoted
  | some enabledPlugins =>
    have hreaped := inv_reaped hnoted rfl
    exact inv_startLoop (inv_killed hreaped rfl (startupLimit env) env.currentTime) rfl
      env.execute enabledPlugins.entries

/-- A cycle in which the database fails sends no signal. -/
theorem cycle_procs_of_dbException (h : env.enabledPlugins = none) :
    (s.cycle env).procs = s.procs := by
  unfold cycle
  rw [h]

/-- What a cycle does to a process that runs. -/
theorem cycle_procs (h : Inv s) (henabled : env.enabledPlugins = some enabledPlugins)
    (hp : s.procs pid = some p) (hrunning : p.running = true) :
    ∃ d, s.mRunningPlugins.find p.owner = some (p.entry, d) ∧ p.signals = sent d.killStatus ∧
      (s.cycle env).procs pid = some { p with
        signals := p.signals ++ (cycleSignal env enabledPlugins s p.owner p.entry d).toList } := by
  obtain ⟨d, hfind, rfl, hsent⟩ := h.consistent.entry hp
  refine ⟨d, hfind, hsent, ?_⟩
  have hnoted := inv_noted h
  have hreaped := (inv_reaped hnoted rfl).consistent
  have hfind₁ := find_noted s p.owner
  rw [hfind, Option.map_some] at hfind₁
  have hfind₂ := find_reapedPlugins.mpr ⟨hfind₁, p, hp, hrunning⟩
  have hp₂ := (reaped_eq_some hnoted.consistent).mpr ⟨hp, hrunning⟩
  unfold cycle
  rw [henabled]
  apply startLoop_procs env.execute enabledPlugins.entries
  apply (killed_procs hreaped hfind₂).trans
  dsimp only
  rw [hp₂]
  rfl

theorem consistent_update {running : RunningPlugins} {procs : ℕ → Option Process}
    {f : Process → Process} (h : Consistent running procs) (pid : ℕ)
    (hf : ∀ p, (f p).owner = p.owner ∧ (f p).entry = p.entry ∧ (f p).signals = p.signals) :
    Consistent running (Function.update procs pid ((procs pid).map f)) := by
  constructor
  · intro id e d hfind
    obtain ⟨p, hp, howner, hentry, hsent⟩ := h.tracked id e d hfind
    by_cases hpid : d.pid = pid
    · subst hpid
      obtain ⟨hfo, hfe, hfs⟩ := hf p
      exact ⟨f p, by simp [hp], hfo.trans howner, hfe.trans hentry, hfs.trans hsent⟩
    · exact ⟨p, by simpa [Function.update_of_ne hpid] using hp, howner, hentry, hsent⟩
  · intro pid' p hp
    by_cases hpid : pid' = pid
    · subst hpid
      rw [Function.update_self, Option.map_eq_some_iff] at hp
      obtain ⟨p₀, hp₀, rfl⟩ := hp
      rw [(hf p₀).1]
      exact h.known pid' p₀ hp₀
    · exact h.known pid' p (by simpa [Function.update_of_ne hpid] using hp)

theorem inv_exit (h : Inv s) (pid : ℕ) :
    Inv { s with
      procs := Function.update s.procs pid
        ((s.procs pid).map fun p => { p with running := false }) } := by
  refine ⟨consistent_update h.consistent pid fun p => ⟨rfl, rfl, rfl⟩, ?_⟩
  intro pid' p d t hp hfind ht
  dsimp only at hp
  by_cases hpid : pid' = pid
  · subst hpid
    rw [Function.update_self, Option.map_eq_some_iff] at hp
    obtain ⟨p₀, hp₀, rfl⟩ := hp
    exact h.heard pid' p₀ d t hp₀ hfind ht
  · exact h.heard pid' p d t (by simpa [Function.update_of_ne hpid] using hp) hfind ht

/-- A message that is taken for another running plugin, or comes from another plugin. -/
theorem lastHeard_insert_other {messages : OrderedMap ℕ MessageData} {running : RunningPlugins}
    {id sourceId : ℕ} {e : InstalledPluginEntry} {d : PluginMonitoringData} {m : MessageData}
    (h : receiverId running.entries sourceId ≠ some id) :
    lastHeard (messages.insert sourceId m).entries running id e d =
      lastHeard messages.entries running id e d := by
  by_cases hr : receiverId running.entries e.pluginId = some id
  · have hne : sourceId ≠ e.pluginId := by
      rintro rfl
      exact h hr
    simp only [lastHeard, OrderedMap.insert, OrderedMap.find_insertEntry, if_neg hne]
  · simp only [lastHeard, if_neg hr]

theorem lastHeard_insert_self {messages : OrderedMap ℕ MessageData} {running : RunningPlugins}
    {id : ℕ} {e : InstalledPluginEntry} {d : PluginMonitoringData} {m : MessageData}
    (h : receiverId running.entries e.pluginId = some id) :
    lastHeard (messages.insert e.pluginId m).entries running id e d = m.lastReceivedTime := by
  simp only [lastHeard, if_pos h, OrderedMap.insert, OrderedMap.find_insertEntry, if_true]

theorem inv_message (h : Inv s) {rxTime : ℕ} (hpos : 0 < rxTime) (hlt : rxTime < 2 ^ 63)
    (sourceId : ℕ) : Inv (s.onMessageReceived sourceId rxTime) := by
  unfold onMessageReceived
  split_ifs with hzero
  · exact h
  · cases hr : receiver s.mRunningPlugins.entries sourceId with
    | none =>
      refine ⟨h.consistent, fun pid p d t hp hfind ht => ?_⟩
      dsimp only
      rw [lastHeard_insert_other (by simp [receiverId, hr])]
      exact h.heard pid p d t hp hfind ht
    | some r =>
      have hid : receiverId s.mRunningPlugins.entries sourceId = some r.1 := by
        simp [receiverId, hr]
      have hmem : s.mRunningPlugins.find r.1 = some r.2 :=
        OrderedMap.mem_entries_iff.mp (List.mem_of_find?_eq_some hr)
      have hsource : r.2.1.pluginId = sourceId := by simpa using List.find?_some hr
      refine ⟨consistent_update h.consistent r.2.2.pid fun p => ⟨rfl, rfl, rfl⟩, ?_⟩
      intro pid p d t hp hfind ht
      dsimp only at hp hfind ⊢
      by_cases hpid : pid = r.2.2.pid
      · subst hpid
        rw [Function.update_self, Option.map_eq_some_iff] at hp
        obtain ⟨p₀, hp₀, rfl⟩ := hp
        obtain ⟨howner, hentry⟩ := h.consistent.owner hmem hp₀
        obtain rfl : rxTime = t := by simpa using ht
        refine ⟨?_, hpos, hlt⟩
        rw [← hsource] at hid ⊢
        rw [← hentry] at hid ⊢
        rw [lastHeard_insert_self (hid.trans (by rw [howner]))]
      · rw [Function.update_of_ne hpid] at hp
        have hother : receiverId s.mRunningPlugins.entries sourceId ≠ some p.owner := by
          rw [hid]
          intro heq
          obtain ⟨d', hfind', hd', -⟩ := h.consistent.entry hp
          rw [← Option.some.inj heq, hmem] at hfind'
          rw [Option.some.inj hfind'] at hpid
          exact hpid hd'.symm
        rw [lastHeard_insert_other hother]
        exact h.heard pid p d t hp hfind ht

theorem inv_step (s : PluginMonitor) (a : MonitorAct) (s' : PluginMonitor) (h : Inv s)
    (hs : machine.step s a = some s') : Inv s' := by
  cases a with
  | message sourceId rxTime =>
    obtain ⟨⟨hpos, hlt⟩, rfl⟩ : (0 < rxTime ∧ rxTime < 2 ^ 63) ∧ _ = s' := by
      simpa [machine] using hs
    exact inv_message h hpos hlt sourceId
  | exit pid =>
    obtain rfl := Option.some.inj hs
    exact inv_exit h pid
  | cycle env =>
    obtain rfl := Option.some.inj hs
    exact inv_cycle h env

theorem inv_init : Inv init :=
  ⟨⟨by simp [init, OrderedMap.empty, OrderedMap.find], by simp [init]⟩, by simp [init]⟩

/-- The process is not being stopped, has been heard of, and its entry is enabled, with no
limit on the time between messages now and when it started, or with a limit not yet reached. -/
def Spared (env : CycleEnv) (p : Process) : Prop :=
  p.signals = [] ∧ ∃ enabledPlugins current t, env.enabledPlugins = some enabledPlugins ∧
    enabledPlugins.find p.owner = some current ∧ p.lastMessage = some t ∧
    (current.maxMessageInterval = 0 ∧ p.entry.maxMessageInterval = 0 ∨
      current.maxMessageInterval ≠ 0 ∧ env.currentTime < t + current.maxMessageInterval.toNat)

theorem cycleSignal_of_spared (h : Inv s) (henabled : env.enabledPlugins = some enabledPlugins)
    (hp : s.procs pid = some p) {d : PluginMonitoringData}
    (hfind : s.mRunningPlugins.find p.owner = some (p.entry, d))
    (hsent : p.signals = sent d.killStatus) (hspared : Spared env p) :
    cycleSignal env enabledPlugins s p.owner p.entry d = none := by
  obtain ⟨hsignals, enabledPlugins', current, t, henabled', hcurrent, ht, hinterval⟩ := hspared
  obtain rfl : enabledPlugins = enabledPlugins' := Option.some.inj (henabled.symm.trans henabled')
  obtain ⟨hheard, hpos, hlt⟩ := h.heard pid p d t hp hfind ht
  have halive : d.killStatus = .alive := by
    rw [hsignals] at hsent
    cases hd : d.killStatus <;> simp [hd, sent] at hsent ⊢
  have hinterval' := current.maxMessageInterval.isLt
  have hkeep : killIt enabledPlugins (startupLimit env) env.currentTime p.owner p.entry
      (s.notedEntry p.owner (p.entry, d)).2 = false := by
    have hmod : (current.maxMessageInterval.toNat + t) % 2 ^ 64 =
        current.maxMessageInterval.toNat + t := Nat.mod_eq_of_lt (by omega)
    simp only [killIt, hcurrent, notedEntry, hheard, if_neg hpos.ne', hmod]
    rcases hinterval with ⟨-, hzero⟩ | ⟨-, hyoung⟩
    · simp [hzero]
    · simp only [decide_eq_false_iff_not, not_and, not_le]
      intro _
      omega
  have hstatus : (s.notedEntry p.owner (p.entry, d)).2.killStatus = .alive := halive
  simp only [cycleSignal, nextSignal, hstatus, hkeep, Bool.false_eq_true, if_false]

theorem sent_isPrefix (k : PluginKillState) : sent k <+: [.SIGTERM, .SIGINT, .SIGKILL] := by
  cases k <;> decide

theorem toList_append {α : Type*} (l : List α) (o : Option α) :
    l ++ o.toList = l ∨ ∃ a, l ++ o.toList = l ++ [a] := by
  cases o with
  | none => exact .inl (by simp)
  | some a => exact .inr ⟨a, rfl⟩

end Cycles

/-- One process for each installed plugin; the signals of a process come one a cycle and in
order; and a process that is spared gets none. -/
theorem pluginMonitor_safety {acts : List MonitorAct} {s : PluginMonitor}
    (hrun : machine.run init acts = some s) :
    (∀ pid pid' p p', s.procs pid = some p → s.procs pid' = some p' → p.owner = p'.owner →
        pid = pid') ∧
      (∀ pid p, s.procs pid = some p → p.signals <+: [.SIGTERM, .SIGINT, .SIGKILL]) ∧
      ∀ env s', machine.step s (.cycle env) = some s' → ∀ pid p, s.procs pid = some p →
        p.running = true → ∃ p', s'.procs pid = some p' ∧ p'.owner = p.owner ∧
          (p'.signals = p.signals ∨ ∃ sig, p'.signals = p.signals ++ [sig]) ∧
          (Spared env p → p'.signals = p.signals) := by
  have h : Inv s := Machine.run_invariant inv_step inv_init hrun
  refine ⟨?_, ?_, ?_⟩
  · intro pid pid' p p' hp hp' howner
    obtain ⟨e, d, hfind, rfl⟩ := h.consistent.known pid p hp
    obtain ⟨e', d', hfind', rfl⟩ := h.consistent.known pid' p' hp'
    rw [← howner, hfind] at hfind'
    rw [(Prod.mk.inj (Option.some.inj hfind')).2]
  · intro pid p hp
    obtain ⟨d, -, -, hsent⟩ := h.consistent.entry hp
    rw [hsent]
    exact sent_isPrefix d.killStatus
  · intro env s' hs pid p hp hrunning
    obtain rfl := Option.some.inj hs
    cases henabled : env.enabledPlugins with
    | none =>
      refine ⟨p, ?_, rfl, .inl rfl, fun _ => rfl⟩
      rw [cycle_procs_of_dbException henabled, hp]
    | some enabledPlugins =>
      obtain ⟨d, hfind, hsent, hcycle⟩ := cycle_procs h henabled hp hrunning
      refine ⟨_, hcycle, rfl, toList_append _ _, fun hspared => ?_⟩
      have hnone := cycleSignal_of_spared h henabled hp hfind hsent hspared
      simp [hnone]

/-- One installed plugin, with a limit on the time between messages. -/
def snapshot (maxMessageInterval : BitVec 32) : OrderedMap ℕ InstalledPluginEntry :=
  OrderedMap.empty.insert 1 ⟨7, cstr "/var/www/plugins/a", cstr "bin/a", maxMessageInterval⟩

def cycleAt (maxMessageInterval : BitVec 32) (currentTime : ℕ) : CycleEnv :=
  ⟨some (snapshot maxMessageInterval), 0, currentTime, fun _ _ => some (100, currentTime)⟩

def stateAfter (acts : List MonitorAct) : PluginMonitor := (machine.run init acts).getD init

theorem pluginMonitor_safety_heard :
    (stateAfter [.cycle (cycleAt 0 5000), .message 7 6000]).procs 100 =
        some ⟨1, ⟨7, cstr "/var/www/plugins/a", cstr "bin/a", 0⟩, true, [], some 6000⟩ ∧
      ∃ p', ((stateAfter [.cycle (cycleAt 0 5000), .message 7 6000]).cycle
          (cycleAt 0 90000)).procs 100 = some p' ∧ p'.signals = [] := by
  have hp : (stateAfter [.cycle (cycleAt 0 5000), .message 7 6000]).procs 100 =
      some ⟨1, ⟨7, cstr "/var/www/plugins/a", cstr "bin/a", 0⟩, true, [], some 6000⟩ := by
    decide +kernel
  have hrun : machine.run init [.cycle (cycleAt 0 5000), .message 7 6000] =
      some (stateAfter [.cycle (cycleAt 0 5000), .message 7 6000]) := rfl
  refine ⟨hp, ?_⟩
  obtain ⟨p', hp', -, -, hspared⟩ :=
    (pluginMonitor_safety hrun).2.2 (cycleAt 0 90000) _ rfl 100 _ hp rfl
  exact ⟨p', hp', hspared ⟨rfl, snapshot 0, _, 6000, rfl, rfl, rfl, .inl ⟨rfl, rfl⟩⟩⟩

/-- A process whose entry has no limit on the time between messages is stopped when it takes
too long to start. -/
theorem pluginMonitor_signals_unlimited :
    (snapshot 0).find 1 =
        some ⟨7, cstr "/var/www/plugins/a", cstr "bin/a", 0⟩ ∧
      ∃ p, (stateAfter [.cycle (cycleAt 0 5000), .cycle (cycleAt 0 20000)]).procs 100 = some p ∧
        p.owner = 1 ∧ p.running = true ∧ p.signals = [.SIGTERM] := by
  refine ⟨by decide +kernel, ⟨1, ⟨7, cstr "/var/www/plugins/a", cstr "bin/a", 0⟩, true,
    [.SIGTERM], none⟩, ?_, rfl, rfl, rfl⟩
  decide +kernel

end PluginMonitor
end V2IHub.Core
