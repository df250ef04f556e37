import V2IHub.Client.Rejection
import V2IHub.Client.SubscriptionSteps

/-! The subscription of a plugin over connections that come and go: what both ends do with the
frames between them, and when the router of the core has what the plugin asked for. -/
namespace V2IHub.Client
open Foundation Json Api Router V2IHub.Core Program

namespace IvpPlugin

/-- `ivp_subscribe` -/
def subscribe (now : BitVec 64) (plugin : IvpPlugin) (filter : Option CJson) : IvpPlugin :=
  let plugin := { plugin with filter := filter }
  plugin.broadcastMessage (IvpSubscribe.createMsg now plugin.filter)

/-- `updateConfig` only changes the values, and calls the plugin. -/
theorem updateConfig_link {items : List CJson} {plugin plugin' : IvpPlugin}
    (h : plugin.updateConfig items = some plugin') :
    plugin'.state = plugin.state ∧ plugin'.filter = plugin.filter ∧
      plugin'.sent = plugin.sent := by
  induction items generalizing plugin with
  | nil =>
    obtain rfl := Option.some.inj h
    exact ⟨rfl, rfl, rfl⟩
  | cons json items ih =>
    simp only [updateConfig] at h
    split at h
    · simp at h
    · exact ih h
    · split at h
      · simp at h
      · have hrest := ih h
        exact hrest

theorem onError_link (plugin : IvpPlugin) (err : IvpError) :
    (plugin.onError err).filter = plugin.filter ∧ (plugin.onError err).sent = plugin.sent ∧
      ((plugin.onError err).state = plugin.state ∨ (plugin.onError err).state = .error) := by
  unfold onError
  split_ifs
  · exact ⟨rfl, rfl, .inl rfl⟩
  · exact ⟨rfl, rfl, .inr rfl⟩
  · exact ⟨rfl, rfl, .inl rfl⟩

end IvpPlugin

/-- Both ends of a connection. `plugin.sent` and `process.core.socket` hold the frames under way;
`building` has the filters added since the last `SubscribeToMessages`, and `subscribed` those that
were added before it. -/
structure SubscriptionLink (D : Type) where
  plugin : IvpPlugin
  msgFilter : Option CJson
  process : CoreProcess D
  building : List FilterRequest
  subscribed : List FilterRequest

/-- `deliver` is the router, which has a message of another plugin for this one. -/
inductive SubscriptionAct (D : Type) where
  | addMessageFilter (r : FilterRequest)
  | subscribeToMessages (now : BitVec 64)
  | connect (d : D) (clock : BitVec 64) (clientNames : Finset Bytes) (id : BitVec 32)
  | register (now : BitVec 64)
  | broadcast (msg : IvpMessage)
  | receive (fresh : IvpDsrcMetadata)
  | core (a : ProcessAct D)
  | deliver (msg : IvpMessage)
  | read (now : BitVec 64) (fresh : IvpDsrcMetadata)
  | lose

namespace SubscriptionLink
variable {D : Type} (db : Database D)

/-- The receiver thread of the core takes the next frame. -/
def receive (s : SubscriptionLink D) (fresh : IvpDsrcMetadata) : Option (SubscriptionLink D) :=
  match s.plugin.sent with
  | [] => none
  | rawmsg :: rest =>
    let s := { s with plugin := { s.plugin with sent := rest } }
    match IvpMessage.parse fresh rawmsg with
    | none => some s
    | some msg =>
      ((CoreProcess.machine db).step s.process (.message msg)).map fun process =>
        { s with process := process }

/-- The plugin takes the next frame. -/
def read (s : SubscriptionLink D) (now : BitVec 64) (fresh : IvpDsrcMetadata) :
    Option (SubscriptionLink D) :=
  match s.process.core.socket with
  | [] => none
  | rawmsg :: rest =>
    (s.plugin.receive now fresh rawmsg).map fun plugin => { s with
      plugin := plugin
      process := { s.process with core := { s.process.core with socket := rest } } }

/-- A plugin sends no subscription but through `SubscribeToMessages`, and the core sends no
configuration but its own. -/
def machine : Machine (SubscriptionLink D) (SubscriptionAct D) where
  step s
    | .addMessageFilter r => some { s with
        msgFilter := addMessageFilter s.msgFilter r
        building := s.building ++ [r] }
    | .subscribeToMessages now =>
      if s.msgFilter.isSome then some { s with
        plugin := s.plugin.subscribe now s.msgFilter
        msgFilter := none
        building := []
        subscribed := s.building }
      else none
    | .connect d clock clientNames id =>
      if s.plugin.state = .disconnected then some { s with
        plugin := { s.plugin.onStateChange .connected with sent := [] }
        process := .connected d clock clientNames id }
      else none
    | .register now =>
      if s.plugin.state = .connected then some { s with
        plugin := s.plugin.broadcastMessage
          (IvpRegister.createMsgFromJson now s.plugin.jsonManifest) }
      else none
    | .broadcast msg =>
      if IvpSubscribe.isSubscribeMsg msg.received then none
      else some { s with plugin := s.plugin.broadcastMessage msg }
    | .receive fresh => s.receive db fresh
    | .core a =>
      match a with
      | .message _ => none
      | a => ((CoreProcess.machine db).step s.process a).map fun process =>
          { s with process := process }
    | .deliver msg =>
      if IvpConfig.isConfigMsg msg.received then none
      else some { s with process := { s.process with
        core := s.process.core.write (msg.createJsonString .none) } }
    | .read now fresh =>
      if s.plugin.state = .disconnected then none else s.read now fresh
    | .lose =>
      if s.plugin.state = .connected ∨ s.plugin.state = .registered then some { s with
        plugin := { s.plugin.onStateChange .disconnected with sent := [] } }
      else none

/-- A plugin that has not connected yet. -/
def init (jsonManifest : CJson) (config : Option CJson) (d : D) : SubscriptionLink D where
  plugin := ⟨.disconnected, jsonManifest, config, none, [], []⟩
  msgFilter := none
  process := .connected d 0 ∅ 0
  building := []
  subscribed := []

/-- The messages that the fast processor of the core has yet to handle. -/
def underWay (s : SubscriptionLink D) : List IvpMessage :=
  s.process.fastQueue ++ s.plugin.sent.filterMap (IvpMessage.parse ⟨0, 0⟩)

/-- The subscription once they are handled. -/
def settles (s : SubscriptionLink D) : Option (List MessageFilterEntry) :=
  s.underWay.foldl applySubscribe s.process.core.filter

section Invariant
variable {s t : SubscriptionLink D}

/-- What the plugin makes of a frame: it goes on as before or into the error state; or it was
waiting for the answer to its registration, and subscribes. -/
theorem receive_link {now : BitVec 64} {fresh : IvpDsrcMetadata} {rawmsg : Bytes}
    {plugin plugin' : IvpPlugin} (h : plugin.receive now fresh rawmsg = some plugin') :
    plugin'.filter = plugin.filter ∧
      (plugin'.sent = plugin.sent ∧ (plugin'.state = plugin.state ∨ plugin'.state = .error) ∨
        plugin.state = .connected ∧ ConfirmsWith rawmsg ∧ plugin'.state = .registered ∧
          plugin'.sent = plugin.sent ++
            [(IvpSubscribe.createMsg now plugin.filter).createJsonString .none]) := by
  unfold IvpPlugin.receive at h
  cases hparse : IvpMessage.parse fresh rawmsg with
  | none =>
    simp only [hparse, Option.some.injEq] at h
    subst h
    obtain ⟨hfilter, hsent, hstate⟩ :=
      plugin.onError_link (IvpError.createError .warn .messageParse 0)
    exact ⟨hfilter, .inl ⟨hsent, hstate⟩⟩
  | some msg =>
    simp only [hparse, IvpPlugin.onMessageReceived] at h
    split_ifs at h with herror hconfig
    · obtain rfl := Option.some.inj h
      obtain ⟨hfilter, hsent, hstate⟩ := plugin.onError_link (IvpError.getError msg)
      exact ⟨hfilter, .inl ⟨hsent, hstate⟩⟩
    · cases hitems : IvpConfig.getItems msg.payload with
      | none => simp [hitems] at h
      | some items =>
        simp only [hitems, Option.map_eq_some_iff] at h
        obtain ⟨updated, hupdated, rfl⟩ := h
        obtain ⟨hstate, hfilter, hsent⟩ := IvpPlugin.updateConfig_link hupdated
        unfold IvpPlugin.confirmRegistration
        split_ifs with hconnected
        · have hregistered : (updated.onStateChange .registered).state = .registered := by
            rw [IvpPlugin.onStateChange, if_neg (by simp [hconnected])]
            rfl
          have hsame : (updated.onStateChange .registered).filter = updated.filter ∧
              (updated.onStateChange .registered).sent = updated.sent := by
            rw [IvpPlugin.onStateChange, if_neg (by simp [hconnected])]
            exact ⟨rfl, rfl⟩
          simp only [IvpPlugin.broadcastMessage, hregistered, or_true, if_true]
          refine ⟨hsame.1.trans hfilter, .inr ⟨hstate ▸ hconnected, ⟨fresh, msg, hparse, hconfig⟩,
            trivial, ?_⟩⟩
          rw [hsame.1, hsame.2, hfilter, hsent]
        · exact ⟨hfilter, .inl ⟨hsent, .inl hstate⟩⟩
    · obtain rfl := Option.some.inj h
      exact ⟨rfl, .inl ⟨rfl, .inl rfl⟩⟩

/-- What holds of a link all the time. -/
structure Inv (s : SubscriptionLink D) : Prop where
  building : s.msgFilter = builtFilter s.building
  filter : s.plugin.filter = builtFilter s.subscribed
  frames : ∀ rawmsg ∈ s.plugin.sent, ∃ msg : IvpMessage, rawmsg = msg.createJsonString .none
  confirms : s.process.status = .running → Confirms s.process.core
  registered : s.plugin.state = .registered → s.process.status = .running →
    Registered s.process.core ∧ s.settles = some (requestedEntries s.subscribed)

theorem settles_eq (s : SubscriptionLink D) :
    s.settles = (s.plugin.sent.filterMap (IvpMessage.parse ⟨0, 0⟩)).foldl applySubscribe
      (drained s.process) := List.foldl_append

theorem frames_append {sent : List Bytes} (msg : IvpMessage)
    (h : ∀ rawmsg ∈ sent, ∃ msg : IvpMessage, rawmsg = msg.createJsonString .none) :
    ∀ rawmsg ∈ sent ++ [msg.createJsonString .none],
      ∃ msg : IvpMessage, rawmsg = msg.createJsonString .none := by
  intro rawmsg hraw
  rcases List.mem_append.mp hraw with hraw | hraw
  · exact h rawmsg hraw
  · exact ⟨msg, List.mem_singleton.mp hraw⟩

theorem foldl_sent (filter : Option (List MessageFilterEntry)) (sent : List Bytes)
    (msg : IvpMessage) :
    ((sent ++ [msg.createJsonString .none]).filterMap (IvpMessage.parse ⟨0, 0⟩)).foldl
        applySubscribe filter =
      applySubscribe ((sent.filterMap (IvpMessage.parse ⟨0, 0⟩)).foldl applySubscribe filter)
        msg.received := by
  rw [List.filterMap_append, List.foldl_append]
  simp [IvpMessage.parse_createJsonString]

theorem applySubscribe_createMsg (filter : Option (List MessageFilterEntry)) (now : BitVec 64)
    (rs : List FilterRequest) :
    applySubscribe filter (IvpSubscribe.createMsg now (builtFilter rs)).received =
      some (requestedEntries rs) := by
  rw [applySubscribe, if_pos (isSubscribeMsg_createMsg now _), filterEntries_builtFilter]

theorem broadcastMessage_link (plugin : IvpPlugin) (msg : IvpMessage) :
    (plugin.broadcastMessage msg).state = plugin.state ∧
      (plugin.broadcastMessage msg).filter = plugin.filter ∧
      ((plugin.broadcastMessage msg).sent = plugin.sent ++ [msg.createJsonString .none] ∨
        plugin.state ≠ .registered ∧ (plugin.broadcastMessage msg).sent = plugin.sent) := by
  unfold IvpPlugin.broadcastMessage
  split_ifs with h
  · exact ⟨rfl, rfl, .inl rfl⟩
  · exact ⟨rfl, rfl, .inr ⟨fun hreg => h (.inr hreg), rfl⟩⟩

/-- A frame that the plugin adds to those under way. -/
theorem Inv.send (h : Inv s) {msg : IvpMessage} {plugin : IvpPlugin}
    {building subscribed : List FilterRequest} {msgFilter : Option CJson}
    (hstate : plugin.state = s.plugin.state) (hsent : plugin.sent = s.plugin.sent)
    (hfilter : plugin.filter = builtFilter subscribed)
    (hbuilding : msgFilter = builtFilter building)
    (happly : s.plugin.state = .registered → s.process.status = .running →
      applySubscribe s.settles msg.received = some (requestedEntries subscribed)) :
    Inv { s with
      plugin := plugin.broadcastMessage msg
      msgFilter := msgFilter
      building := building
      subscribed := subscribed } := by
  obtain ⟨hstate', hfilter', hsent'⟩ := broadcastMessage_link plugin msg
  refine ⟨hbuilding, hfilter'.trans hfilter, ?_, h.confirms, fun hreg hrunning => ?_⟩
  · rcases hsent' with hsent' | ⟨-, hsent'⟩
    · simp only [hsent', hsent]
      exact frames_append msg h.frames
    · simp only [hsent', hsent]
      exact h.frames
  · have hreg' : s.plugin.state = .registered := by rw [← hstate, ← hstate', hreg]
    refine ⟨(h.registered hreg' hrunning).1, ?_⟩
    rcases hsent' with hsent' | ⟨hne, -⟩
    · rw [settles_eq]
      simp only [hsent', hsent]
      rw [foldl_sent, ← settles_eq, happly hreg' hrunning]
    · exact absurd (hstate.trans hreg') hne

theorem Inv.receive (h : Inv s) {fresh : IvpDsrcMetadata} (hstep : s.receive db fresh = some t) :
    Inv t := by
  unfold SubscriptionLink.receive at hstep
  cases hsent : s.plugin.sent with
  | nil => simp [hsent] at hstep
  | cons rawmsg rest =>
    have hframes := h.frames
    rw [hsent] at hframes
    obtain ⟨⟨msg, rfl⟩, hrest⟩ := List.forall_mem_cons.mp hframes
    simp only [hsent, IvpMessage.parse_createJsonString, Option.map_eq_some_iff] at hstep
    obtain ⟨q, hq, rfl⟩ := hstep
    simp only [CoreProcess.machine, CoreProcess.step] at hq
    split_ifs at hq with hrunning
    obtain rfl := Option.some.inj hq
    have hcore : (s.process.receive msg.received).core = s.process.core := by
      unfold CoreProcess.receive
      split_ifs <;> rfl
    have hdrained : drained (s.process.receive msg.received) =
        applySubscribe (drained s.process) msg.received := by
      unfold CoreProcess.receive
      split_ifs with hslow
      · have hother : IvpSubscribe.isSubscribeMsg msg.received = false := by
          rcases Bool.or_eq_true_iff.mp hslow with htype | htype
          all_goals
            simp only [IvpPluginStatus.isStatusMsg, IvpEventLog.isEventLogMsg, IvpMessage.hasType,
              decide_eq_true_eq] at htype
            rw [IvpSubscribe.isSubscribeMsg, IvpMessage.hasType, htype]
            decide
        simp only [applySubscribe, hother, Bool.false_eq_true, if_false]
        rfl
      · exact List.foldl_append
    refine ⟨h.building, h.filter, hrest, fun _ => ?_, fun hreg _ => ?_⟩
    · rw [hcore]
      exact h.confirms hrunning
    · obtain ⟨hstays, hsettles⟩ := h.registered hreg hrunning
      refine ⟨by rw [hcore]; exact hstays, ?_⟩
      rw [settles_eq, hsent, List.filterMap_cons_some (IvpMessage.parse_createJsonString _ _ _),
        List.foldl_cons] at hsettles
      rw [settles_eq, hdrained]
      exact hsettles

theorem Inv.core (h : Inv s) {a : ProcessAct D} {q : CoreProcess D}
    (hstep : (CoreProcess.machine db).step s.process a = some q) (ha : ∀ msg, a ≠ .message msg) :
    Inv { s with process := q } := by
  have hbefore : s.process.status = .running := by
    simp only [CoreProcess.machine, CoreProcess.step] at hstep
    split_ifs at hstep with hrunning
    exact hrunning
  refine ⟨h.building, h.filter, h.frames, fun hrunning => ?_, fun hreg hrunning => ?_⟩
  · exact (continues_step db hstep ha hrunning).confirms (h.confirms hbefore)
  · obtain ⟨hstays, hsettles⟩ := h.registered hreg hbefore
    obtain ⟨hreg', hdrained⟩ := (continues_step db hstep ha hrunning).registered hstays
    rw [settles_eq] at hsettles
    refine ⟨hreg', ?_⟩
    rw [settles_eq, ← hsettles, ← hdrained]

theorem Inv.read (h : Inv s) {now : BitVec 64} {fresh : IvpDsrcMetadata}
    (hstep : s.read now fresh = some t) : Inv t := by
  unfold SubscriptionLink.read at hstep
  cases hsocket : s.process.core.socket with
  | nil => simp [hsocket] at hstep
  | cons rawmsg rest =>
    simp only [hsocket, Option.map_eq_some_iff] at hstep
    obtain ⟨plugin, hreceive, rfl⟩ := hstep
    obtain ⟨hfilter, hcases⟩ := receive_link hreceive
    have hconfirms (hrunning : s.process.status = .running) :
        Confirms { s.process.core with socket := rest } := by
      intro raw hraw hwith
      exact h.confirms hrunning raw (hsocket ▸ List.mem_cons_of_mem _ hraw) hwith
    rcases hcases with ⟨hsent, hstate⟩ | ⟨hconnected, hwith, hstate, hsent⟩
    · refine ⟨h.building, hfilter.trans h.filter, hsent ▸ h.frames, hconfirms,
        fun hreg hrunning => ?_⟩
      have hreg' : s.plugin.state = .registered := by
        rcases hstate with hstate | hstate
        · exact hstate.symm.trans hreg
        · exact absurd (hstate.symm.trans hreg) (by simp)
      obtain ⟨hstays, hsettles⟩ := h.registered hreg' hrunning
      refine ⟨hstays, ?_⟩
      rw [settles_eq] at hsettles ⊢
      simp only [hsent]
      exact hsettles
    · refine ⟨h.building, hfilter.trans h.filter, ?_, hconfirms, fun _ hrunning => ?_⟩
      · simp only [hsent]
        exact frames_append _ h.frames
      · refine ⟨h.confirms hrunning rawmsg (hsocket ▸ List.mem_cons_self) hwith, ?_⟩
        rw [settles_eq]
        simp only [hsent]
        rw [foldl_sent, h.filter, applySubscribe_createMsg]

theorem inv_init (jsonManifest : CJson) (config : Option CJson) (d : D) :
    Inv (init jsonManifest config d) := by
  refine ⟨rfl, rfl, ?_, fun _ => ?_, fun hreg => absurd hreg (by simp [init])⟩
  · intro rawmsg hraw
    cases hraw
  · intro rawmsg hraw
    cases hraw

/-- A link whose plugin is not registered keeps the invariant whatever is under way. -/
theorem Inv.of_unregistered (h : Inv s) {plugin : IvpPlugin} {process : CoreProcess D}
    (hstate : plugin.state ≠ .registered) (hfilter : plugin.filter = s.plugin.filter)
    (hsent : plugin.sent = []) (hconfirms : process.status = .running → Confirms process.core) :
    Inv { s with plugin := plugin, process := process } := by
  refine ⟨h.building, hfilter.trans h.filter, ?_, hconfirms, fun hreg => absurd hreg hstate⟩
  simp only [hsent]
  intro rawmsg hraw
  cases hraw

theorem onStateChange_link (plugin : IvpPlugin) (state : IvpPluginState) :
    (plugin.onStateChange state).state = state ∧
      (plugin.onStateChange state).filter = plugin.filter := by
  unfold IvpPlugin.onStateChange
  split_ifs with h
  · exact ⟨h, rfl⟩
  · exact ⟨rfl, rfl⟩

theorem inv_step {a : SubscriptionAct D} (h : Inv s) (hstep : (machine db).step s a = some t) :
    Inv t := by
  cases a with
  | addMessageFilter r =>
    obtain rfl := Option.some.inj hstep
    refine ⟨?_, h.filter, h.frames, h.confirms, h.registered⟩
    simp only [h.building, builtFilter_concat]
  | subscribeToMessages now =>
    simp only [machine] at hstep
    split_ifs at hstep
    obtain rfl := Option.some.inj hstep
    have hsend : Inv { s with
        plugin := s.plugin.subscribe now s.msgFilter
        msgFilter := builtFilter []
        building := []
        subscribed := s.building } := by
      apply h.send
      · rfl
      · rfl
      · exact h.building
      · rfl
      · intro _ _
        simp only [h.building, applySubscribe_createMsg]
    exact hsend
  | connect d clock clientNames id =>
    simp only [machine] at hstep
    split_ifs at hstep
    obtain rfl := Option.some.inj hstep
    obtain ⟨hstate, hfilter⟩ := onStateChange_link s.plugin .connected
    apply h.of_unregistered
    · simp [hstate]
    · exact hfilter
    · rfl
    · intro _ rawmsg hraw
      cases hraw
  | register now =>
    simp only [machine] at hstep
    split_ifs at hstep with hconnected
    obtain rfl := Option.some.inj hstep
    apply h.send rfl rfl h.filter h.building
    intro hreg _
    exact absurd (hconnected.symm.trans hreg) (by simp)
  | broadcast msg =>
    simp only [machine] at hstep
    split_ifs at hstep with hother
    obtain rfl := Option.some.inj hstep
    apply h.send rfl rfl h.filter h.building
    intro hreg hrunning
    rw [applySubscribe, if_neg hother, (h.registered hreg hrunning).2]
  | receive fresh => exact h.receive db hstep
  | core a =>
    cases a with
    | message msg => simp [machine] at hstep
    | fast _ | slow _ | configMonitor | environment _ _ _ =>
      simp only [machine, Option.map_eq_some_iff] at hstep
      obtain ⟨q, hq, rfl⟩ := hstep
      exact h.core db hq (by simp)
  | deliver msg =>
    simp only [machine] at hstep
    split_ifs at hstep with hother
    obtain rfl := Option.some.inj hstep
    refine ⟨h.building, h.filter, h.frames, fun hrunning => ?_, h.registered⟩
    exact (h.confirms hrunning).write (Bool.eq_false_iff.mpr hother)
  | read now fresh =>
    simp only [machine] at hstep
    split_ifs at hstep
    exact h.read hstep
  | lose =>
    simp only [machine] at hstep
    split_ifs at hstep
    obtain rfl := Option.some.inj hstep
    obtain ⟨hstate, hfilter⟩ := onStateChange_link s.plugin .disconnected
    apply h.of_unregistered
    · simp [hstate]
    · exact hfilter
    · rfl
    · exact h.confirms

end Invariant

/-- A plugin that subscribes before it connects, and whose connection is lost once. -/
def sampleActs : List (SubscriptionAct Unit) :=
  let register : List (SubscriptionAct Unit) :=
    [.connect () 0 ∅ 0, .register 0, .receive ⟨0, 0⟩, .core (.fast 0), .read 0 ⟨0, 0⟩]
  [.addMessageFilter ⟨some (cstr "J2735"), some (cstr "BSM"), 0⟩, .subscribeToMessages 0] ++
    register ++ [.lose] ++ register ++ [.receive ⟨0, 0⟩, .core (.fast 0)]

end SubscriptionLink
end V2IHub.Client
