import V2IHub.Client.ConfigSteps
import V2IHub.Client.MessageFilter
import V2IHub.Core.Requests

/-! What the steps of the core do to the subscription of a plugin, and which plugins it sends
configuration messages to. -/
namespace V2IHub.Client
open Foundation Json Api Router V2IHub.Core Program

namespace SubscriptionLink
variable {D : Type} (db : Database D)

/-- What the next message of the queue does to the subscription of a registered plugin. -/
def applySubscribe (filter : Option (List MessageFilterEntry)) (msg : IvpMessage) :
    Option (List MessageFilterEntry) :=
  if IvpSubscribe.isSubscribeMsg msg then some (filterEntries msg) else filter

/-- A frame of the core that a plugin reads as a configuration message. -/
def ConfirmsWith (rawmsg : Bytes) : Prop :=
  ∃ fresh msg, IvpMessage.parse fresh rawmsg = some msg ∧ IvpConfig.isConfigMsg msg = true

/-- The core sends configuration messages to registered plugins only. -/
def Confirms (s : CoreState D) : Prop :=
  ∀ rawmsg ∈ s.socket, ConfirmsWith rawmsg → s.plugin.mRegistered = true

def Registered (s : CoreState D) : Prop := s.plugin.mRegistered = true

theorem Confirms.of_registered {s : CoreState D} (h : Registered s) : Confirms s := fun _ _ _ => h

theorem not_confirmsWith {msg : IvpMessage} (h : IvpConfig.isConfigMsg msg.received = false) :
    ¬ ConfirmsWith (msg.createJsonString .none) := by
  rintro ⟨fresh, msg', hparse, hconfig⟩
  rw [IvpMessage.parse_createJsonString] at hparse
  obtain rfl := Option.some.inj hparse
  simp [h] at hconfig

theorem Confirms.write {s : CoreState D} (h : Confirms s) {msg : IvpMessage}
    (hmsg : IvpConfig.isConfigMsg msg.received = false) :
    Confirms (s.write (msg.createJsonString .none)) := by
  intro rawmsg hraw hconfirms
  rcases List.mem_append.mp hraw with hraw | hraw
  · exact h rawmsg hraw hconfirms
  · rw [List.mem_singleton.mp hraw] at hconfirms
    exact absurd hconfirms (not_confirmsWith hmsg)

theorem triple_sendError (level : IvpLogLevel) {E : CoreException → CoreState D → Prop} :
    Triple Confirms (sendError level : CoreProgram D Unit) (fun _ => Confirms) E := by
  intro s hs
  have herror (err : IvpError) :
      IvpConfig.isConfigMsg (IvpError.createMsg s.clock err).received = false := by
    have htype : (IvpError.createMsg s.clock err).received.type =
        some (cstringAt IVPMSG_TYPE_APIRESV_ERROR) := rfl
    rw [IvpConfig.isConfigMsg, IvpMessage.hasType, htype]
    decide
  exact hs.write (herror _)

/-- A program that writes nothing to the socket. -/
theorem triple_silent {α : Type} {prog : CoreProgram D α}
    (hsocket : Preserves CoreState.socket prog)
    (hreg : Triple Registered prog (fun _ => Registered) fun _ => Registered) :
    Triple Confirms prog (fun _ => Confirms) fun _ => Confirms := by
  intro s hs
  have hsame := hsocket s
  cases hcase : s.plugin.mRegistered with
  | true =>
    have hafter := hreg s hcase
    rcases hr : prog s with ⟨a | e | _, t⟩ <;> rw [hr] at hafter
    · exact .of_registered hafter
    · exact .of_registered hafter
    · trivial
  | false =>
    have hnone : ∀ rawmsg ∈ s.socket, ¬ ConfirmsWith rawmsg := fun rawmsg hraw hconfirms =>
      absurd (hs rawmsg hraw hconfirms) (by simp [hcase])
    rcases hr : prog s with ⟨a | e | _, t⟩ <;> rw [hr] at hsame
    · exact fun rawmsg hraw hconfirms => absurd hconfirms (hnone rawmsg (hsame ▸ hraw))
    · exact fun rawmsg hraw hconfirms => absurd hconfirms (hnone rawmsg (hsame ▸ hraw))
    · trivial

theorem triple_silent_of_preserves {α : Type} {prog : CoreProgram D α}
    (h : Preserves (fun s : CoreState D => (s.socket, s.plugin.mRegistered)) prog) :
    Triple Confirms prog (fun _ => Confirms) fun _ => Confirms := by
  apply triple_silent
  · exact fun s => congrArg Prod.fst (h s)
  · exact h.triple fun pair => pair.2 = true

theorem registerPlugin_keeps (info : RegistrationInformation) :
    Triple Registered (registerPlugin db info) (fun _ => Registered) fun _ => Registered := by
  have hdb : ∀ (s : CoreState D) (d : D), ({ s with db := d } : CoreState D).plugin = s.plugin :=
    fun _ _ => rfl
  refine triple_bind (triple_get (Q := fun _ => Registered) fun _ h => h) fun s => ?_
  split_ifs
  · exact triple_throw fun _ h => h
  · exact triple_throw fun _ h => h
  · refine triple_bind (triple_modify (Q := fun _ => Registered) fun _ h => h) fun _ => ?_
    refine triple_bind (Q := fun _ => Registered) ?_ fun stored => ?_
    · refine triple_tryCatch (E := fun _ => Registered) ?_ (fun _ _ => ?_) fun _ _ _ h => h
      · exact (registerInDatabase_preserves db hdb info).triple fun plugin =>
          plugin.mRegistered = true
      · exact triple_throw fun _ h => h
    · refine triple_bind (triple_modify (Q := fun _ => Registered) fun _ _ => rfl) fun _ => ?_
      exact (announceRegistration_preserves db hdb fun _ _ => rfl).triple fun plugin =>
        plugin.mRegistered = true

theorem registerPlugin_filter (info : RegistrationInformation) :
    Preserves CoreState.filter (registerPlugin db info) := by
  have hdb : ∀ (s : CoreState D) (d : D), ({ s with db := d } : CoreState D).filter = s.filter :=
    fun _ _ => rfl
  refine preserves_get.bind fun s => ?_
  split_ifs
  · exact preserves_throw _
  · exact preserves_throw _
  · refine Preserves.bind (preserves_modify fun _ => rfl) fun _ => ?_
    refine Preserves.bind ((registerInDatabase_preserves db hdb info).tryCatch fun _ =>
      preserves_throw _) fun stored => Preserves.bind (preserves_modify fun _ => rfl) fun _ => ?_
    exact announceRegistration_preserves db hdb fun _ _ => rfl

theorem changedValues_preserves {γ : Type} {g : CoreState D → γ} (collection : Option CJson)
    (entries : List (Bytes × PluginConfigurationParameterEntry)) :
    Preserves g (changedValues collection entries : CoreProgram D (Option CJson)) := by
  induction entries generalizing collection with
  | nil => exact preserves_pure _
  | cons e entries ih =>
    unfold changedValues
    split_ifs
    · exact (preserves_deref _).bind fun _ => ih _
    · exact ih _

theorem answer_preserves {γ : Type} {g : CoreState D → γ} (h : IgnoresRequests g) :
    Preserves g (do
      let configEntries ← getAllConfigValues
      sendConfigValues configEntries : CoreProgram D Unit) := by
  refine Preserves.bind ((requireRegistered_preserves _).bind fun _ =>
    preserves_get.bind fun _ => preserves_pure _) fun configEntries => ?_
  exact (changedValues_preserves _ _).bind fun _ => preserves_get.bind fun _ =>
    h.onMessageReceived _

theorem filter_ignores : IgnoresRequests (CoreState.filter : CoreState D → _) :=
  ⟨fun _ _ => rfl, fun _ _ => rfl, fun _ _ => rfl⟩

theorem registered_ignores :
    IgnoresRequests (fun s : CoreState D => s.plugin.mRegistered) :=
  ⟨fun _ _ => rfl, fun _ _ => rfl, fun _ _ => rfl⟩

theorem processRegistrationMessage_filter (fresh : BitVec 32) (msg : IvpMessage) :
    Preserves CoreState.filter (processRegistrationMessage db fresh msg) := by
  refine (preserves_deref _).bind fun payload => ?_
  dsimp only
  split_ifs
  · refine (registrationInformation_preserves _ _).bind fun info => ?_
    apply Preserves.tryCatch
    · exact (registerPlugin_filter db info).bind fun _ => answer_preserves filter_ignores
    · exact fun _ => filter_ignores.sendError _
  · exact preserves_pure _

theorem processRegistrationMessage_keeps (fresh : BitVec 32) (msg : IvpMessage) :
    Triple Registered (processRegistrationMessage db fresh msg) (fun _ => Registered)
      fun _ => Registered := by
  refine triple_bind (triple_deref (Q := fun _ => Registered) fun _ _ h _ => h) fun payload => ?_
  dsimp only
  split_ifs
  · refine triple_bind ((registrationInformation_preserves fresh _).triple fun r => r = true)
      fun info => ?_
    refine triple_tryCatch (E := fun _ => Registered) (triple_bind (registerPlugin_keeps db info)
      fun _ => ?_) (fun _ _ => ?_) fun _ _ _ h => h
    · exact (answer_preserves registered_ignores).triple fun r => r = true
    · exact (registered_ignores.sendError _).triple fun r => r = true
  · exact triple_pure fun _ h => h

theorem processRegistrationMessage_confirms (fresh : BitVec 32) (msg : IvpMessage) :
    Triple Confirms (processRegistrationMessage db fresh msg) (fun _ => Confirms)
      fun _ => Confirms := by
  refine triple_bind (triple_deref (Q := fun _ => Confirms) fun _ _ h _ => h) fun payload => ?_
  dsimp only
  split_ifs
  · refine triple_bind ((registrationInformation_preserves (g := id) fresh _).triple Confirms)
      fun info => ?_
    refine triple_tryCatch (E := fun _ => Confirms) (triple_bind (Q := fun _ => Registered) ?_
      fun _ => ?_) (fun _ _ => triple_sendError _) fun _ _ _ h => h
    · have hsilent := triple_silent (registerPlugin_socket db info) (registerPlugin_keeps db info)
      exact triple_mono (triple_and hsilent (ConfigLink.registerPlugin_registered db info))
        (fun _ h => ⟨h, trivial⟩) (fun _ _ h => h.2) fun _ _ h => h.1
    · exact triple_mono ((answer_preserves registered_ignores).triple fun r => r = true)
        (fun _ h => h) (fun _ _ h => .of_registered h) fun _ _ h => .of_registered h
  · exact triple_pure fun _ h => h

theorem processSubscribeMessage_confirms (msg : IvpMessage) :
    Triple Confirms (processSubscribeMessage msg : CoreProgram D Unit) (fun _ => Confirms)
      fun _ => Confirms := by
  refine triple_tryCatch (E := fun _ => Confirms) ?_ (fun _ _ => triple_sendError _)
    fun _ _ _ h => h
  apply triple_silent_of_preserves
  exact (requireRegistered_preserves _).bind fun _ => preserves_modify fun _ => rfl

theorem routeMessage_confirms (msg : IvpMessage) :
    Triple Confirms (routeMessage msg : CoreProgram D Unit) (fun _ => Confirms)
      fun _ => Confirms := by
  refine triple_tryCatch (E := fun _ => Confirms) ?_ (fun _ _ => triple_sendError _)
    fun _ _ _ h => h
  apply triple_silent_of_preserves
  exact (requireRegistered_preserves _).bind fun _ => preserves_modify fun _ => rfl

theorem handleFast_confirms (fresh : BitVec 32) (msg : IvpMessage) :
    Triple Confirms (handleFast db fresh msg) (fun _ => Confirms) fun _ => Confirms := by
  unfold handleFast
  split_ifs
  · exact triple_bind (processRegistrationMessage_confirms db fresh msg) fun _ =>
      triple_pure fun _ h => h
  · exact triple_bind (processSubscribeMessage_confirms msg) fun _ => triple_pure fun _ h => h
  · exact triple_bind (triple_deref (Q := fun _ => Confirms) fun _ _ h _ => h) fun _ =>
      triple_pure fun _ h => h
  · exact triple_bind (routeMessage_confirms msg) fun _ => triple_pure fun _ h => h

/-- The values are sent to a registered plugin only. -/
theorem configMonitorPass_confirms :
    Triple Confirms (configMonitorPass db) (fun _ => Confirms) fun _ => Confirms := by
  intro s hs
  cases hcase : s.plugin.mRegistered with
  | true =>
    have hafter := (registered_ignores.configMonitorPass db).triple (fun r => r = true) s hcase
    rcases hr : configMonitorPass db s with ⟨a | e | _, t⟩ <;> rw [hr] at hafter
    · exact .of_registered hafter
    · exact .of_registered hafter
    · trivial
  | false =>
    have hnothing : configMonitorPass db s = (.ok (), s) := by
      rw [configMonitorPass, bind_ok (get_run s), if_neg (by simp [hcase])]
      rfl
    rw [hnothing]
    exact hs

theorem routeMessage_preserves {γ : Type} {g : CoreState D → γ} (h : IgnoresRequests g)
    (hrouted : ∀ s routed, g { s with routed := routed } = g s) (msg : IvpMessage) :
    Preserves g (routeMessage msg : CoreProgram D Unit) := by
  apply Preserves.tryCatch
  · exact (requireRegistered_preserves _).bind fun _ => preserves_modify fun s => hrouted s _
  · exact fun _ => h.sendError _

/-- The part of the state that an invariant of the link is about. -/
def subscription (s : CoreState D) : Bool × Option (List MessageFilterEntry) :=
  (s.plugin.mRegistered, s.filter)

theorem subscription_ignores : IgnoresRequests (subscription : CoreState D → _) :=
  ⟨fun _ _ => rfl, fun _ _ => rfl, fun _ _ => rfl⟩

theorem Registered.of_preserves {α : Type} {prog : CoreProgram D α} {s t : CoreState D}
    {o : Outcome CoreException α} (h : Registered s) (hprog : Preserves subscription prog)
    (hrun : prog s = (o, t)) : Registered t ∧ t.filter = s.filter := by
  have hsame := hprog s
  rw [hrun] at hsame
  obtain ⟨hreg, hfilter⟩ := Prod.ext_iff.mp hsame
  exact ⟨hreg.trans h, hfilter⟩

/-- What a message that is handled leaves of the subscription. -/
theorem handleFast_applies {fresh : BitVec 32} {msg : IvpMessage} {s t : CoreState D} {pc : FastPc}
    (hreg : Registered s) (hrun : handleFast db fresh msg s = (.ok pc, t)) :
    Registered t ∧ t.filter = applySubscribe s.filter msg := by
  unfold handleFast at hrun
  split_ifs at hrun with hregistration hsubscribe hconfig
  · have hother : IvpSubscribe.isSubscribeMsg msg = false := by
      simp only [IvpRegister.isRegistrationMsg, IvpMessage.hasType, decide_eq_true_eq]
        at hregistration
      rw [IvpSubscribe.isSubscribeMsg, IvpMessage.hasType, hregistration]
      decide
    have hidle : Triple Registered (pure FastPc.idle : CoreProgram D FastPc)
        (fun _ => Registered) fun _ => Registered := triple_pure fun _ h => h
    have hkeeps := triple_bind (processRegistrationMessage_keeps db fresh msg)
      (fun _ => hidle) s hreg
    have hfilter := ((processRegistrationMessage_filter db fresh msg).bind fun _ =>
      preserves_pure FastPc.idle) s
    rw [hrun] at hkeeps hfilter
    exact ⟨hkeeps, hfilter.trans (by simp [applySubscribe, hother])⟩
  · rw [bind_ok (processSubscribeMessage_run hreg msg)] at hrun
    obtain rfl := (Prod.mk.inj hrun).2
    exact ⟨hreg, by simp [applySubscribe, hsubscribe]⟩
  · have hprog : Preserves subscription (do
        let items ← deref (IvpConfig.getItems msg.payload)
        pure (.config msg items []) : CoreProgram D FastPc) :=
      (preserves_deref _).bind fun _ => preserves_pure _
    simpa [applySubscribe, hsubscribe] using hreg.of_preserves hprog hrun
  · have hprog : Preserves subscription (do
        routeMessage msg
        pure .idle : CoreProgram D FastPc) :=
      (routeMessage_preserves subscription_ignores (fun _ _ => rfl) msg).bind fun _ =>
        preserves_pure _
    simpa [applySubscribe, hsubscribe] using hreg.of_preserves hprog hrun

/-- A thread that ran to its end. -/
theorem exec_running {α : Type} {p q : CoreProcess D} {prog : CoreProgram D α}
    {next : CoreProcess D → α → CoreProcess D} (h : p.exec prog next = q)
    (hrunning : q.status = .running) :
    ∃ a s, prog p.core = (.ok a, s) ∧ q = next { p with core := s } a := by
  unfold CoreProcess.exec at h
  rcases hr : prog p.core with ⟨a | e | _, s⟩ <;> rw [hr] at h
  · exact ⟨a, s, rfl, h.symm⟩
  · subst h
    cases hrunning
  · subst h
    cases hrunning

/-- What the core makes of the subscription once its queue is empty. -/
def drained (p : CoreProcess D) : Option (List MessageFilterEntry) :=
  p.fastQueue.foldl applySubscribe p.core.filter

/-- A step of a running core keeps its word about configuration messages; and when the plugin is
registered it stays so, and the queue comes to the same subscription. -/
structure Continues (p q : CoreProcess D) : Prop where
  confirms : Confirms p.core → Confirms q.core
  registered : Registered p.core → Registered q.core ∧ drained q = drained p

theorem continues_exec {α : Type} {p q : CoreProcess D} {prog : CoreProgram D α}
    {next : CoreProcess D → α → CoreProcess D} (h : p.exec prog next = q)
    (hrunning : q.status = .running)
    (hnext : ∀ p a, (next p a).core = p.core ∧ (next p a).fastQueue = p.fastQueue)
    (hconfirms : Triple Confirms prog (fun _ => Confirms) fun _ => Confirms)
    (hprog : Preserves subscription prog) : Continues p q := by
  obtain ⟨a, s, hrun, rfl⟩ := exec_running h hrunning
  obtain ⟨hcore, hqueue⟩ := hnext { p with core := s } a
  constructor
  · intro hp
    have hafter := hconfirms p.core hp
    rw [hrun] at hafter
    rw [hcore]
    exact hafter
  · intro hreg
    obtain ⟨hstays, hfilter⟩ := hreg.of_preserves hprog hrun
    rw [drained, hqueue, hcore]
    exact ⟨hstays, by rw [hfilter]; rfl⟩

theorem continues_fast {p q : CoreProcess D} {fresh : BitVec 32}
    (hstep : p.stepFast db fresh = some q) (hrunning : q.status = .running) : Continues p q := by
  cases hfast : p.fast with
  | config msg items globalParams =>
    simp only [CoreProcess.stepFast, hfast, Option.some.injEq] at hstep
    refine continues_exec hstep hrunning (fun _ _ => ⟨rfl, rfl⟩) ?_ ?_
    · apply triple_silent_of_preserves
      exact handleConfig_preserves db (fun _ _ => rfl) msg items globalParams
    · exact handleConfig_preserves db (fun _ _ => rfl) msg items globalParams
  | idle =>
    cases hqueue : p.fastQueue with
    | nil => simp [CoreProcess.stepFast, hfast, hqueue] at hstep
    | cons msg queue =>
      simp only [CoreProcess.stepFast, hfast, hqueue, Option.some.injEq] at hstep
      obtain ⟨pc, s, hrun, rfl⟩ := exec_running hstep hrunning
      constructor
      · intro hp
        have hafter := handleFast_confirms db fresh msg p.core hp
        rw [hrun] at hafter
        exact hafter
      · intro hreg
        obtain ⟨hstays, hfilter⟩ := handleFast_applies db hreg hrun
        refine ⟨hstays, ?_⟩
        rw [drained, drained, hqueue, List.foldl_cons, ← hfilter]

/-- Any step of the core but a new message. -/
theorem continues_step {p q : CoreProcess D} {a : ProcessAct D}
    (hstep : (CoreProcess.machine db).step p a = some q) (ha : ∀ msg, a ≠ .message msg)
    (hrunning : q.status = .running) : Continues p q := by
  simp only [CoreProcess.machine, CoreProcess.step] at hstep
  split_ifs at hstep
  cases a with
  | message msg => exact absurd rfl (ha msg)
  | fast fresh => exact continues_fast db hstep hrunning
  | slow fresh =>
    simp only at hstep
    cases hqueue : p.slowQueue with
    | nil => simp [CoreProcess.stepSlow, hqueue] at hstep
    | cons msg queue =>
      simp only [CoreProcess.stepSlow, hqueue, Option.some.injEq] at hstep
      have hpop := continues_exec hstep hrunning (fun _ _ => ⟨rfl, rfl⟩)
        (triple_silent_of_preserves (handleSlow_preserves db (fun _ _ => rfl) fresh msg))
        (handleSlow_preserves db (fun _ _ => rfl) fresh msg)
      exact ⟨hpop.confirms, hpop.registered⟩
  | configMonitor =>
    exact continues_exec (Option.some.inj hstep) hrunning (fun _ _ => ⟨rfl, rfl⟩)
      (configMonitorPass_confirms db) (subscription_ignores.configMonitorPass db)
  | environment d clock clientNames =>
    obtain rfl := Option.some.inj hstep
    exact ⟨fun h => h, fun h => ⟨h, rfl⟩⟩

end SubscriptionLink
end V2IHub.Client
