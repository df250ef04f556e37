import V2IHub.Client.IvpPlugin
import V2IHub.Core.Exceptions

/-! What reaches a plugin whose registration the core refuses. -/
namespace V2IHub.Client
open Foundation Json Api V2IHub.Core Program

variable {D : Type} (db : Database D)

/-- The core does not register the plugin: the message has no manifest, the manifest is not
valid, or `registerPlugin` throws. -/
def RegistrationFails (fresh : BitVec 32) (msg : IvpMessage) (s : CoreState D) : Prop :=
  match msg.payload with
  | none => True
  | some payload =>
    let manifest := IvpRegister.getManifestFromJson payload
    (IvpRegister.validateManifest manifest).isNone = false ∨
      ∃ info t, registrationInformation fresh manifest s = (.ok info, t) ∧
        Throws (registerPlugin db info) t

/-- The core sends something that takes the plugin to the error state. -/
def RejectionReaches (fresh : BitVec 32) (msg : IvpMessage) (s : CoreState D) (plugin : IvpPlugin)
    (now : BitVec 64) (fresh' : IvpDsrcMetadata) : Prop :=
  ∃ sent plugin', (processRegistrationMessage db fresh msg s).2.socket = s.socket ++ sent ∧
    plugin.receiveAll now fresh' sent = some plugin' ∧ plugin'.state = .error

/-- The error that answers a failed request has no error number, so the plugin drops it. -/
theorem receive_sendError (now clock : BitVec 64) (fresh : IvpDsrcMetadata) (plugin : IvpPlugin)
    (level : IvpLogLevel) :
    plugin.receive now fresh ((IvpError.createMsg clock
      { IVP_ERROR_INITIALIZER with level := level.code }).createJsonString .none) = some plugin := by
  obtain ⟨htype, herror⟩ := IvpError.getError_received clock
    { IVP_ERROR_INITIALIZER with level := level.code }
  rw [IvpPlugin.receive_createJsonString, IvpPlugin.onMessageReceived, if_pos htype, herror]
  simp [IvpPlugin.onError, IvpError.isNone, IVP_ERROR_INITIALIZER]

section Core

theorem registerReserved_socket (info : RegistrationInformation) :
    Preserves CoreState.socket (registerReserved db info) := by
  have hg : ∀ (s : CoreState D) (d : D), ({ s with db := d } : CoreState D).socket = s.socket :=
    fun _ _ => rfl
  refine Preserves.bind ((registerInDatabase_preserves db hg info).tryCatch fun _ =>
    preserves_throw _) fun stored => Preserves.bind (preserves_modify ?_) fun _ => ?_
  · exact fun _ => rfl
  · exact announceRegistration_preserves db hg fun _ _ => rfl

theorem registerPlugin_socket (info : RegistrationInformation) :
    Preserves CoreState.socket (registerPlugin db info) := by
  refine preserves_get.bind fun s => ?_
  split_ifs
  · exact preserves_throw _
  · exact preserves_throw _
  · refine Preserves.bind (preserves_modify ?_) fun _ => registerReserved_socket db info
    exact fun _ => rfl

/-- A failed registration is answered by nothing, or by an error of the level fatal. -/
theorem processRegistrationMessage_fails {fresh : BitVec 32} {msg : IvpMessage} {s : CoreState D}
    (h : RegistrationFails db fresh msg s) :
    (processRegistrationMessage db fresh msg s).2.socket = s.socket ∨
      ∃ clock, (processRegistrationMessage db fresh msg s).2.socket = s.socket ++
        [(IvpError.createMsg clock
          { IVP_ERROR_INITIALIZER with level := IvpLogLevel.fatal.code }).createJsonString .none] := by
  unfold RegistrationFails at h
  cases hpayload : msg.payload with
  | none =>
    left
    simp [processRegistrationMessage, hpayload]
  | some payload =>
    simp only [hpayload] at h
    simp only [processRegistrationMessage, hpayload, deref_some_bind]
    rcases h with hinvalid | ⟨info, t, hinfo, e, u, hthrow⟩
    · left
      simp [hinvalid]
    · cases hvalid : (IvpRegister.validateManifest
        (IvpRegister.getManifestFromJson payload)).isNone with
      | false =>
        left
        simp
      | true =>
        have hcaught : CoreException.isPluginException e = true := by
          simpa [hthrow] using registerPlugin_throws db info t trivial
        have ht : t.socket = s.socket := by
          simpa [hinfo] using registrationInformation_preserves (g := CoreState.socket) fresh
            (IvpRegister.getManifestFromJson payload) s
        have hu : u.socket = t.socket := by
          simpa [hthrow] using registerPlugin_socket db info t
        refine .inr ⟨u.clock, ?_⟩
        rw [if_pos rfl, bind_ok hinfo, Program.tryCatch, bind_throws hthrow]
        simp [hcaught, sendError, bind_run, onMessageReceived, CoreState.write, hu, ht]

end Core

/-- Whatever the reason of a failed registration, the plugin handles what it is sent without
noticing it. -/
theorem failedRegistration_unnoticed {fresh : BitVec 32} {msg : IvpMessage} {s : CoreState D}
    (h : RegistrationFails db fresh msg s) (plugin : IvpPlugin) (now : BitVec 64)
    (fresh' : IvpDsrcMetadata) :
    ∃ sent, (processRegistrationMessage db fresh msg s).2.socket = s.socket ++ sent ∧
      plugin.receiveAll now fresh' sent = some plugin := by
  rcases processRegistrationMessage_fails db h with hsilent | ⟨clock, herror⟩
  · exact ⟨[], by simpa using hsilent, rfl⟩
  · exact ⟨_, herror, by simp [IvpPlugin.receiveAll, receive_sendError]⟩

/-- Only a plugin that was in the error state is in it after a failed registration. -/
theorem RejectionReaches.state {fresh : BitVec 32} {msg : IvpMessage} {s : CoreState D}
    {plugin : IvpPlugin} {now : BitVec 64} {fresh' : IvpDsrcMetadata}
    (h : RegistrationFails db fresh msg s)
    (hreach : RejectionReaches db fresh msg s plugin now fresh') : plugin.state = .error := by
  obtain ⟨sent, plugin', hsocket, hreceive, herror⟩ := hreach
  obtain ⟨sent', hsocket', hreceive'⟩ := failedRegistration_unnoticed db h plugin now fresh'
  obtain rfl : sent = sent' := List.append_cancel_left (hsocket.symm.trans hsocket')
  obtain rfl : plugin' = plugin := by simpa [hreceive'] using hreceive.symm
  exact herror

/-- No failed registration takes a connected plugin to the error state: it stays connected. -/
theorem rejection_never_reaches {fresh : BitVec 32} {msg : IvpMessage} {s : CoreState D}
    (h : RegistrationFails db fresh msg s) {plugin : IvpPlugin}
    (hconnected : plugin.state = .connected) (now : BitVec 64) (fresh' : IvpDsrcMetadata) :
    ¬ RejectionReaches db fresh msg s plugin now fresh' := by
  intro hreach
  have herror := hreach.state db h
  simp [hconnected] at herror

section Samples

/-- A name that is taken. -/
def takenName : CoreState Unit where
  db := ()
  clock := 0
  clientNames := {cstr "Map"}
  plugin := .new 0
  filter := none
  routed := []
  socket := []

def sampleManifest : CJson := .object [(cstr "name", .string (cstr "Map"))]

def samplePlugin : IvpPlugin where
  state := .connected
  jsonManifest := sampleManifest
  config := none
  filter := none
  callbacks := []
  sent := []

/-- A manifest without a name is refused without an answer. -/
theorem rejection_never_reaches_nameless :
    ¬ RejectionReaches quietDatabase 0 (IvpRegister.createMsgFromJson 0 (.object [])) takenName
      samplePlugin 0 ⟨0, 0⟩ := by
  have hfails : RegistrationFails quietDatabase 0 (IvpRegister.createMsgFromJson 0 (.object []))
      takenName := .inl rfl
  exact rejection_never_reaches quietDatabase hfails rfl 0 ⟨0, 0⟩

/-- The second plugin of a name is refused and stays connected. -/
theorem takenName_unnoticed :
    RegistrationFails quietDatabase 0 (IvpRegister.createMsgFromJson 0 sampleManifest) takenName ∧
      ¬ RejectionReaches quietDatabase 0 (IvpRegister.createMsgFromJson 0 sampleManifest)
        takenName samplePlugin 0 ⟨0, 0⟩ := by
  have hfails : RegistrationFails quietDatabase 0 (IvpRegister.createMsgFromJson 0 sampleManifest)
      takenName := .inr ⟨_, _, rfl, _, _, rfl⟩
  refine ⟨hfails, fun hreach => ?_⟩
  have herror := hreach.state quietDatabase hfails
  cases herror

end Samples
end V2IHub.Client
