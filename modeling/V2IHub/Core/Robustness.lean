import V2IHub.Core.Exceptions
import V2IHub.Foundation.Machine

/-! The core process as one plugin connection drives it. An exception that leaves a processor
thread terminates the process. -/
namespace V2IHub.Core
open Foundation Api Json Program CoreException

/-- Where the fast processor is: between two messages, or in the loop of
`processConfigMessage`, where the configuration may change between two items. -/
inductive FastPc where
  | idle
  | config (msg : IvpMessage) (items : List CJson)
      (globalParams : List PluginConfigurationParameterEntry)

inductive ProcessStatus where
  | running
  | aborted
  | terminated (e : CoreException)
deriving DecidableEq

structure CoreProcess (D : Type) where
  core : CoreState D
  fastQueue : List IvpMessage
  slowQueue : List IvpMessage
  fast : FastPc
  status : ProcessStatus

/-- The processors take what their uninitialised variables hold. The rest of the core, other
users of the database and the clock are the environment. -/
inductive ProcessAct (D : Type) where
  | message (msg : IvpMessage)
  | fast (fresh : BitVec 32)
  | slow (fresh : BitVec 32)
  | configMonitor
  | environment (db : D) (clock : BitVec 64) (clientNames : Finset Bytes)

section Steps
variable {D α : Type} (db : Database D)

/-- The body of the loop of `fastProcessorThread`. -/
def handleFast (fresh : BitVec 32) (msg : IvpMessage) : CoreProgram D FastPc :=
  if IvpRegister.isRegistrationMsg msg then do
    processRegistrationMessage db fresh msg
    pure .idle
  else if IvpSubscribe.isSubscribeMsg msg then do
    processSubscribeMessage msg
    pure .idle
  else if IvpConfig.isConfigMsg msg then do
    let items ← deref (IvpConfig.getItems msg.payload)
    pure (.config msg items [])
  else do
    routeMessage msg
    pure .idle

/-- One step of `processConfigMessage`. -/
def handleConfig (msg : IvpMessage) (items : List CJson)
    (globalParams : List PluginConfigurationParameterEntry) : CoreProgram D FastPc :=
  match items with
  | json :: items => do
    let globalParams ← processConfigItem db msg json globalParams
    pure (.config msg items globalParams)
  | [] => do
    initializeGlobalParams db globalParams
    pure .idle

/-- The body of the loop of `slowProcessorThread`. -/
def handleSlow (fresh : BitVec 32) (msg : IvpMessage) : CoreProgram D Unit :=
  if IvpPluginStatus.isStatusMsg msg then processStatusMessage db msg
  else if IvpEventLog.isEventLogMsg msg then processEventLogMessage db fresh msg
  else pure ()

namespace CoreProcess

/-- A thread runs `prog`; `next` says what it does with the result. -/
def exec (p : CoreProcess D) (prog : CoreProgram D α)
    (next : CoreProcess D → α → CoreProcess D) : CoreProcess D :=
  match prog p.core with
  | (.ok a, s) => next { p with core := s } a
  | (.throws e, s) => { p with core := s, status := .terminated e }
  | (.crash, s) => { p with core := s, status := .aborted }

/-- `receiverThread`: which queue a message is put on. -/
def receive (p : CoreProcess D) (msg : IvpMessage) : CoreProcess D :=
  if IvpPluginStatus.isStatusMsg msg || IvpEventLog.isEventLogMsg msg then
    { p with slowQueue := p.slowQueue ++ [msg] }
  else { p with fastQueue := p.fastQueue ++ [msg] }

def stepFast (p : CoreProcess D) (fresh : BitVec 32) : Option (CoreProcess D) :=
  match p.fast, p.fastQueue with
  | .config msg items globalParams, _ =>
    some (p.exec (handleConfig db msg items globalParams) fun p pc => { p with fast := pc })
  | .idle, msg :: queue =>
    some (exec { p with fastQueue := queue } (handleFast db fresh msg) fun p pc =>
      { p with fast := pc })
  | .idle, [] => none

def stepSlow (p : CoreProcess D) (fresh : BitVec 32) : Option (CoreProcess D) :=
  match p.slowQueue with
  | msg :: queue => some (exec { p with slowQueue := queue } (handleSlow db fresh msg) fun p _ => p)
  | [] => none

def step (p : CoreProcess D) (a : ProcessAct D) : Option (CoreProcess D) :=
  if p.status = .running then
    match a with
    | .message msg => some (p.receive msg)
    | .fast fresh => p.stepFast db fresh
    | .slow fresh => p.stepSlow db fresh
    | .configMonitor => some (p.exec (configMonitorPass db) fun p _ => p)
    | .environment d clock clientNames =>
      some { p with core := { p.core with db := d, clock := clock, clientNames := clientNames } }
  else none

def machine : Machine (CoreProcess D) (ProcessAct D) := ⟨step db⟩

/-- A new connection. -/
def connected (d : D) (clock : BitVec 64) (clientNames : Finset Bytes) (id : BitVec 32) :
    CoreProcess D where
  core :=
    { db := d
      clock := clock
      clientNames := clientNames
      plugin := .new id
      filter := none
      routed := []
      socket := [] }
  fastQueue := []
  slowQueue := []
  fast := .idle
  status := .running

end CoreProcess
end Steps

section Conditions
variable {D : Type} (db : Database D)

/-- When a configuration item makes no trouble: a global one has a default, any other one
names a known key of a registered plugin. An item without a key or a value is left to the
assertions. -/
def Plugin.acceptsConfigItem (plugin : Plugin) (msg : IvpMessage) (item : IvpConfigItem) : Bool :=
  match item.key, item.value, msg.source with
  | some key, some _, some source =>
    if source = GLOBAL_SOURCE then item.defaultValue.isSome
    else plugin.mRegistered && (plugin.mConfigValues.find key).isSome
  | _, _, _ => true

/-- An event log entry with a description needs a registered plugin. -/
def Plugin.acceptsEventLog (plugin : Plugin) (msg : IvpMessage) : Bool :=
  match msg.payload.bind fun payload => payload.stringField (cstr "description") with
  | some (_ :: _) => plugin.mRegistered
  | _ => true

/-- The database takes the global parameters of a configuration message. -/
def storesGlobalParams (d : D) (globalParams : List PluginConfigurationParameterEntry) : Bool :=
  match (db.initializePluginConfigParameters 0 globalParams d).1 with
  | .ok _ => true
  | .error _ => false

/-- The steps that no exception leaves. -/
def CoreProcess.handles (p : CoreProcess D) : ProcessAct D → Bool
  | .fast _ =>
    match p.fast with
    | .config msg (json :: _) _ => p.core.plugin.acceptsConfigItem msg (IvpConfig.getItem json)
    | .config _ [] globalParams => storesGlobalParams db p.core.db globalParams
    | .idle => true
  | .slow _ =>
    match p.slowQueue with
    | msg :: _ => !IvpEventLog.isEventLogMsg msg || p.core.plugin.acceptsEventLog msg
    | [] => true
  | _ => true

end Conditions

section Escapes
variable {D : Type} (db : Database D)

theorem throws_setConfigValue (key value : Bytes) (s : CoreState D) :
    Throws (setConfigValue db key value) s ↔
      (s.plugin.mRegistered && (s.plugin.mConfigValues.find key).isSome) = false := by
  rw [Throws, setConfigValue, requireRegistered_bind]
  cases hreg : s.plugin.mRegistered with
  | false => simp
  | true =>
    cases hfind : s.plugin.mConfigValues.find key with
    | none => simp [bind_run, hfind]
    | some item => simp [bind_run, hfind, tryQuery_run]

theorem throws_processConfigItem (msg : IvpMessage) (json : CJson)
    (globalParams : List PluginConfigurationParameterEntry) (s : CoreState D) :
    Throws (processConfigItem db msg json globalParams) s ↔
      s.plugin.acceptsConfigItem msg (IvpConfig.getItem json) = false := by
  cases hkey : (IvpConfig.getItem json).key with
  | none => simp [Throws, processConfigItem, Plugin.acceptsConfigItem, hkey]
  | some key =>
    cases hvalue : (IvpConfig.getItem json).value with
    | none => simp [Throws, processConfigItem, Plugin.acceptsConfigItem, hkey, hvalue]
    | some value =>
      cases hsource : msg.source with
      | none => simp [Throws, processConfigItem, Plugin.acceptsConfigItem, hkey, hvalue, hsource]
      | some source =>
        simp only [processConfigItem, Plugin.acceptsConfigItem, hkey, hvalue, hsource,
          deref_some_bind]
        split_ifs with hglobal
        · cases (IvpConfig.getItem json).defaultValue <;> simp [Throws, stdString, bind_run]
        · rw [throws_bind_pure, throws_setConfigValue]

theorem throws_initializeGlobalParams (globalParams : List PluginConfigurationParameterEntry)
    (s : CoreState D) :
    Throws (initializeGlobalParams db globalParams) s ↔
      storesGlobalParams db s.db globalParams = false := by
  unfold Throws initializeGlobalParams storesGlobalParams Program.tryCatch query
  rcases db.initializePluginConfigParameters 0 globalParams s.db with ⟨what | _, d⟩ <;>
    simp [isDbException]

theorem throws_registeredQuery (what : Bytes) (q : PluginEntry → Query D Unit) (s : CoreState D) :
    Throws (registeredQuery what q) s ↔ s.plugin.mRegistered = false := by
  cases hreg : s.plugin.mRegistered with
  | false => simp [Throws, registeredQuery, requireRegistered_bind, hreg]
  | true => simp [Throws, registeredQuery_run hreg]

theorem throws_processEventLogMessage (fresh : BitVec 32) (msg : IvpMessage) (s : CoreState D) :
    Throws (processEventLogMessage db fresh msg) s ↔
      s.plugin.acceptsEventLog msg = false := by
  unfold processEventLogMessage Plugin.acceptsEventLog
  cases msg.payload with
  | none => simp [Throws]
  | some payload =>
    cases hd : payload.stringField (cstr "description") with
    | none => simp [Throws, IvpEventLog.getEventLogEntry, hd]
    | some description =>
      simp only [IvpEventLog.getEventLogEntry, hd, deref_some_bind, Option.bind_some]
      cases description with
      | nil => simp [Throws, Program.assert, bind_run]
      | cons c description =>
        have hne : decide (c :: description ≠ []) = true := by simp
        rw [hne, assert_true_bind]
        exact throws_registeredQuery _ _ s

/-- A step of a thread fails exactly when the program it runs throws. -/
theorem exec_status {α : Type} {p : CoreProcess D} {prog : CoreProgram D α}
    {next : CoreProcess D → α → CoreProcess D} (hrun : p.status = .running)
    (hnext : ∀ q a, (next q a).status = q.status) :
    (∃ e, (p.exec prog next).status = .terminated e) ↔ Throws prog p.core := by
  unfold CoreProcess.exec Throws
  rcases prog p.core with ⟨a | e | _, s⟩ <;> simp [hnext, hrun]

theorem throws_handleFast (fresh : BitVec 32) (msg : IvpMessage) (s : CoreState D) :
    ¬ Throws (handleFast db fresh msg) s := by
  unfold handleFast
  split_ifs
  · exact ((processRegistrationMessage_throws db fresh msg).bind fun _ =>
      throwsOnly_pure _).not_throws s
  · exact ((processSubscribeMessage_throws msg).bind fun _ => throwsOnly_pure _).not_throws s
  · exact ((throwsOnly_deref _).bind fun _ => throwsOnly_pure _).not_throws s
  · exact ((routeMessage_throws msg).bind fun _ => throwsOnly_pure _).not_throws s

theorem throws_handleSlow (fresh : BitVec 32) (msg : IvpMessage) (s : CoreState D) :
    Throws (handleSlow db fresh msg) s ↔
      (!IvpEventLog.isEventLogMsg msg || s.plugin.acceptsEventLog msg) = false := by
  unfold handleSlow
  by_cases hstatus : IvpPluginStatus.isStatusMsg msg = true
  · have hlog : IvpEventLog.isEventLogMsg msg = false := by
      simp only [IvpPluginStatus.isStatusMsg, IvpMessage.hasType, decide_eq_true_eq] at hstatus
      rw [IvpEventLog.isEventLogMsg, IvpMessage.hasType, hstatus]
      decide
    simp [hstatus, hlog, (processStatusMessage_throws db msg).not_throws s]
  · cases hlog : IvpEventLog.isEventLogMsg msg with
    | false => simp [hstatus, Throws]
    | true => simp [hstatus, throws_processEventLogMessage]

theorem throws_handleConfig (msg : IvpMessage) (items : List CJson)
    (globalParams : List PluginConfigurationParameterEntry) (s : CoreState D) :
    Throws (handleConfig db msg items globalParams) s ↔
      match items with
      | json :: _ => s.plugin.acceptsConfigItem msg (IvpConfig.getItem json) = false
      | [] => storesGlobalParams db s.db globalParams = false := by
  cases items with
  | nil => exact throws_bind_pure.trans (throws_initializeGlobalParams db globalParams s)
  | cons json items =>
    exact throws_bind_pure.trans (throws_processConfigItem db msg json globalParams s)

end Escapes

section Runs
variable {D : Type} (db : Database D)
open CoreProcess

/-- An exception leaves a step exactly when it is not one of the handled ones. -/
theorem step_terminated_iff {p q : CoreProcess D} {a : ProcessAct D}
    (h : step db p a = some q) :
    (∃ e, q.status = .terminated e) ↔ p.handles db a = false := by
  have hrun : p.status = .running := by
    by_contra hstop
    simp [step, hstop] at h
  unfold step at h
  rw [if_pos hrun] at h
  cases a with
  | message msg =>
    obtain rfl : p.receive msg = q := by simpa using h
    unfold receive
    split_ifs <;> simp [hrun, handles]
  | fast fresh =>
    simp only [stepFast] at h
    cases hpc : p.fast with
    | config msg items globalParams =>
      simp only [hpc, Option.some.injEq] at h
      subst h
      rw [exec_status, throws_handleConfig]
      · cases items <;> simp [handles, hpc]
      · exact hrun
      · exact fun _ _ => rfl
    | idle =>
      cases hqueue : p.fastQueue with
      | nil => simp [hpc, hqueue] at h
      | cons msg queue =>
        simp only [hpc, hqueue, Option.some.injEq] at h
        subst h
        rw [exec_status]
        · simp [handles, hpc, throws_handleFast]
        · exact hrun
        · exact fun _ _ => rfl
  | slow fresh =>
    simp only [stepSlow] at h
    cases hqueue : p.slowQueue with
    | nil => simp [hqueue] at h
    | cons msg queue =>
      simp only [hqueue, Option.some.injEq] at h
      subst h
      rw [exec_status, throws_handleSlow]
      · simp [handles, hqueue]
      · exact hrun
      · exact fun _ _ => rfl
  | configMonitor =>
    obtain rfl : p.exec (configMonitorPass db) (fun p _ => p) = q := by simpa using h
    rw [exec_status]
    · simp [handles, (configMonitorPass_throws db).not_throws]
    · exact hrun
    · exact fun _ _ => rfl
  | environment d clock clientNames =>
    simp only [Option.some.injEq] at h
    subst h
    simp [handles, hrun]

theorem run_of_stopped {p q : CoreProcess D} {as : List (ProcessAct D)}
    (hstop : p.status ≠ .running) (h : (machine db).run p as = some q) : as = [] ∧ q = p := by
  cases as with
  | nil => exact ⟨rfl, by simpa using h.symm⟩
  | cons a as =>
    obtain ⟨u, hu, -⟩ := Machine.run_cons_eq_some.mp h
    simp [machine, step, hstop] at hu

theorem run_terminated_iff {p q : CoreProcess D} {as : List (ProcessAct D)}
    (hp : ∀ e, p.status ≠ .terminated e) (h : (machine db).run p as = some q) :
    (∀ e, q.status ≠ .terminated e) ↔ (machine db).Obeys (fun p a => p.handles db a = true) p as := by
  induction as generalizing p with
  | nil =>
    obtain rfl : p = q := by simpa using h
    exact ⟨fun _ => trivial, fun _ => hp⟩
  | cons a as ih =>
    obtain ⟨u, hu, h⟩ := Machine.run_cons_eq_some.mp h
    rw [Machine.obeys_cons hu]
    have hstep := step_terminated_iff db hu
    cases hhandled : p.handles db a with
    | true =>
      have hlive : ∀ e, u.status ≠ .terminated e := fun e he =>
        absurd (hstep.mp ⟨e, he⟩) (by simp [hhandled])
      rw [ih hlive h]
      exact ⟨fun ho => ⟨rfl, ho⟩, And.right⟩
    | false =>
      obtain ⟨e, he⟩ := hstep.mpr hhandled
      obtain ⟨-, rfl⟩ := run_of_stopped db (by simp [he]) h
      exact ⟨fun hq => absurd he (hq e), fun ho => absurd ho.1 (by simp)⟩

/-- No exception escapes a run exactly when each of its steps handles what it meets. -/
theorem noEscape_iff {d : D} {clock : BitVec 64} {clientNames : Finset Bytes} {id : BitVec 32}
    {q : CoreProcess D} {as : List (ProcessAct D)}
    (h : (machine db).run (connected d clock clientNames id) as = some q) :
    (∀ e, q.status ≠ .terminated e) ↔
      (machine db).Obeys (fun p a => p.handles db a = true)
        (connected d clock clientNames id) as :=
  run_terminated_iff db (by simp [connected]) h

end Runs

section Samples
open CoreProcess

def sampleRegistration : IvpMessage :=
  IvpRegister.createMsgFromJson 0 (.object [(cstr "name", .string (cstr "Map"))])

def sampleEventLog : IvpMessage :=
  IvpMessage.create 0 (some IVPMSG_TYPE_APIRESV_EVENTLOG) none (some IVP_ENCODING_JSON) 0
    (some (.object [(cstr "level", .number 1 1), (cstr "description", .string (cstr "up"))]))

/-- The plugin registers, then logs an event. -/
theorem noEscape_iff_sample :
    ∃ q, (machine quietDatabase).run (connected () 0 ∅ 0)
        [.message sampleRegistration, .fast 0, .message sampleEventLog, .slow 0] = some q ∧
      ∀ e, q.status ≠ .terminated e := by
  obtain ⟨q, hq⟩ : ∃ q, (machine quietDatabase).run (connected () 0 ∅ 0)
      [.message sampleRegistration, .fast 0, .message sampleEventLog, .slow 0] = some q :=
    Option.isSome_iff_exists.mp (by decide +kernel)
  exact ⟨q, hq, (noEscape_iff quietDatabase hq).mpr (by decide +kernel)⟩

/-- The plugin logs an event before it registers. -/
theorem earlyEventLog_escapes :
    ∃ q, (machine quietDatabase).run (connected () 0 ∅ 0)
        [.message sampleEventLog, .slow 0] = some q ∧
      ¬ ∀ e, q.status ≠ .terminated e :=
  ⟨_, rfl, fun h => h _ rfl⟩

end Samples
end V2IHub.Core
