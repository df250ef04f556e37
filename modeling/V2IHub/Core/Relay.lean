import V2IHub.Api.Transport
import V2IHub.Core.Requests

/-! The way of a message from the plugin that broadcasts it, through the process of the core, to
the plugins that subscribed to it. -/
namespace V2IHub.Core
open Foundation Api Json Framing Router Program

section Routing
variable {D : Type} (db : Database D)

/-- What `sendMessageToRouter` makes of a message. -/
def PluginEntry.stamp (info : PluginEntry) (msg : IvpMessage) : IvpMessage :=
  { msg with source := some (cstringAt info.name), sourceId := info.id }

/-- Not one of the requests that the core answers itself. -/
def isRouted (msg : IvpMessage) : Bool :=
  !(IvpRegister.isRegistrationMsg msg || IvpSubscribe.isSubscribeMsg msg ||
    IvpConfig.isConfigMsg msg || IvpPluginStatus.isStatusMsg msg || IvpEventLog.isEventLogMsg msg)

/-- The message that a step of the receiver thread reads. -/
def ProcessAct.message? : ProcessAct D → Option IvpMessage
  | .message msg => some msg
  | _ => none

/-- The part of the state that a message is routed by. -/
def CoreState.routing (s : CoreState D) : Bool × PluginEntry × List IvpMessage :=
  (s.plugin.mRegistered, s.plugin.mInfo.pluginInfo, s.routed)

theorem routing_ignores : IgnoresRequests (CoreState.routing : CoreState D → _) :=
  ⟨fun _ _ => rfl, fun _ _ => rfl, fun _ _ => rfl⟩

/-- A registered plugin's message reaches the router. -/
theorem routeMessage_run {s : CoreState D} (hreg : s.plugin.mRegistered = true)
    (msg : IvpMessage) :
    routeMessage msg s =
      (.ok (), { s with routed := s.routed ++ [s.plugin.mInfo.pluginInfo.stamp msg] }) := by
  unfold routeMessage Program.tryCatch sendMessageToRouter
  rw [requireRegistered_bind, if_pos hreg]
  rfl

namespace CoreProcess

/-- What the process has given to the router since `start`, and what still waits, make up
`msgs`. -/
structure Relaying (info : PluginEntry) (start msgs : List IvpMessage) (p : CoreProcess D) :
    Prop where
  registered : p.core.plugin.mRegistered = true
  entry : p.core.plugin.mInfo.pluginInfo = info
  waiting : ∀ msg ∈ p.fastQueue, IvpRegister.isRegistrationMsg msg = false ∧
    IvpPluginStatus.isStatusMsg msg = false ∧ IvpEventLog.isEventLogMsg msg = false
  routed : ∃ done, p.core.routed = start ++ done ∧
    done ++ (p.fastQueue.filter isRouted).map info.stamp = msgs

variable {db} {info : PluginEntry} {start msgs : List IvpMessage} {p q : CoreProcess D}

/-- A step that leaves the queue and what routing needs alone. -/
theorem Relaying.keep (h : p.Relaying info start msgs) (hcore : q.core.routing = p.core.routing)
    (hqueue : q.fastQueue = p.fastQueue) : q.Relaying info start msgs := by
  obtain ⟨hreg, hrest⟩ := Prod.ext_iff.mp hcore
  obtain ⟨hinfo, hrouted⟩ := Prod.ext_iff.mp hrest
  refine ⟨hreg.trans h.registered, hinfo.trans h.entry, hqueue ▸ h.waiting, ?_⟩
  obtain ⟨done, hdone, hmsgs⟩ := h.routed
  exact ⟨done, hrouted.trans hdone, hqueue ▸ hmsgs⟩

theorem exec_core {α : Type} (p : CoreProcess D) (prog : CoreProgram D α)
    {next : CoreProcess D → α → CoreProcess D}
    (hnext : ∀ p a, (next p a).core = p.core ∧ (next p a).fastQueue = p.fastQueue) :
    (p.exec prog next).core = (prog p.core).2 ∧ (p.exec prog next).fastQueue = p.fastQueue := by
  unfold exec
  rcases prog p.core with ⟨a | e | _, s⟩
  · exact hnext _ a
  · exact ⟨rfl, rfl⟩
  · exact ⟨rfl, rfl⟩

theorem Relaying.exec {α : Type} (h : p.Relaying info start msgs) {prog : CoreProgram D α}
    (hprog : Preserves CoreState.routing prog) {next : CoreProcess D → α → CoreProcess D}
    (hnext : ∀ p a, (next p a).core = p.core ∧ (next p a).fastQueue = p.fastQueue) :
    (p.exec prog next).Relaying info start msgs := by
  obtain ⟨hcore, hqueue⟩ := exec_core p prog hnext
  apply h.keep _ hqueue
  rw [hcore, hprog]

/-- A message that is not for the router is taken off the queue. -/
theorem Relaying.pop {msg : IvpMessage} (h : p.Relaying info start msgs)
    (hqueue : p.fastQueue = msg :: q.fastQueue) (hcore : q.core = p.core)
    (hrouted : isRouted msg = false) : q.Relaying info start msgs := by
  have hwaiting := h.waiting
  obtain ⟨done, hdone, hmsgs⟩ := h.routed
  rw [hqueue] at hwaiting hmsgs
  rw [List.filter_cons_of_neg (by simp [hrouted])] at hmsgs
  refine ⟨hcore ▸ h.registered, hcore ▸ h.entry, ?_, done, hcore ▸ hdone, hmsgs⟩
  exact (List.forall_mem_cons.mp hwaiting).2

/-- One that is for the router is given to it. -/
theorem Relaying.route {msg : IvpMessage} (h : p.Relaying info start msgs)
    (hqueue : p.fastQueue = msg :: q.fastQueue) (hcore : q.core = p.core)
    (hrouted : isRouted msg = true) {next : CoreProcess D → FastPc → CoreProcess D}
    (hnext : ∀ p a, (next p a).core = p.core ∧ (next p a).fastQueue = p.fastQueue) :
    (q.exec (do
      routeMessage msg
      pure FastPc.idle) next).Relaying info start msgs := by
  have hwaiting := h.waiting
  obtain ⟨done, hdone, hmsgs⟩ := h.routed
  rw [hqueue] at hwaiting hmsgs
  rw [List.filter_cons_of_pos hrouted, List.map_cons] at hmsgs
  have hrun := routeMessage_run (hcore ▸ h.registered) msg
  obtain ⟨hstate, hfast⟩ := exec_core q (do
    routeMessage msg
    pure FastPc.idle) hnext
  rw [bind_ok hrun, hcore] at hstate
  have hafter : (q.exec (do
      routeMessage msg
      pure FastPc.idle) next).core =
      { p.core with routed := p.core.routed ++ [p.core.plugin.mInfo.pluginInfo.stamp msg] } :=
    hstate
  refine ⟨by rw [hafter, h.registered], by rw [hafter, h.entry], ?_, done ++ [info.stamp msg],
    ?_, ?_⟩
  · rw [hfast]
    exact (List.forall_mem_cons.mp hwaiting).2
  · rw [hafter, hdone, h.entry, List.append_assoc]
  · rw [hfast, List.append_assoc]
    exact hmsgs

theorem Relaying.stepFast {fresh : BitVec 32} (h : p.Relaying info start msgs)
    (hstep : p.stepFast db fresh = some q) : q.Relaying info start msgs := by
  cases hfast : p.fast with
  | config msg items globalParams =>
    simp only [CoreProcess.stepFast, hfast, Option.some.injEq] at hstep
    subst hstep
    have hprog := handleConfig_preserves db routing_ignores.db msg items globalParams
    exact h.exec hprog fun _ _ => ⟨rfl, rfl⟩
  | idle =>
    cases hqueue : p.fastQueue with
    | nil => simp [CoreProcess.stepFast, hfast, hqueue] at hstep
    | cons msg queue =>
      simp only [CoreProcess.stepFast, hfast, hqueue, Option.some.injEq] at hstep
      subst hstep
      obtain ⟨hreg, hstatus, hevent⟩ := h.waiting msg (by simp [hqueue])
      have hpop (hrouted : isRouted msg = false) :
          Relaying info start msgs ⟨p.core, queue, p.slowQueue, .idle, p.status⟩ :=
        h.pop hqueue rfl hrouted
      unfold handleFast
      rw [if_neg (by simp [hreg])]
      split_ifs with hsubscribe hconfig
      · refine (hpop (by simp [isRouted, hsubscribe])).exec ?_ fun _ _ => ⟨rfl, rfl⟩
        apply Preserves.bind
        · exact routing_ignores.processSubscribeMessage (fun _ _ => rfl) msg
        · exact fun _ => preserves_pure _
      · refine (hpop (by simp [isRouted, hconfig])).exec ?_ fun _ _ => ⟨rfl, rfl⟩
        exact (preserves_deref _).bind fun _ => preserves_pure _
      · refine h.route (q := ⟨p.core, queue, p.slowQueue, .idle, p.status⟩) hqueue rfl ?_
          fun _ _ => ⟨rfl, rfl⟩
        simp [isRouted, hreg, hsubscribe, hconfig, hstatus, hevent]

theorem Relaying.stepSlow {fresh : BitVec 32} (h : p.Relaying info start msgs)
    (hstep : p.stepSlow db fresh = some q) : q.Relaying info start msgs := by
  cases hqueue : p.slowQueue with
  | nil => simp [CoreProcess.stepSlow, hqueue] at hstep
  | cons msg queue =>
    simp only [CoreProcess.stepSlow, hqueue, Option.some.injEq] at hstep
    subst hstep
    have hpop : Relaying info start msgs { p with slowQueue := queue } := h.keep rfl rfl
    exact hpop.exec (handleSlow_preserves db routing_ignores.db fresh msg) fun _ _ => ⟨rfl, rfl⟩

/-- The receiver thread puts a message on one of the queues. -/
theorem Relaying.receive {msg : IvpMessage} (h : p.Relaying info start msgs)
    (hreg : IvpRegister.isRegistrationMsg msg = false) :
    (p.receive msg).Relaying info start (msgs ++ ([msg].filter isRouted).map info.stamp) := by
  obtain ⟨done, hdone, hmsgs⟩ := h.routed
  unfold CoreProcess.receive
  split_ifs with hslow
  · have hrouted : isRouted msg = false := by
      rcases Bool.or_eq_true_iff.mp hslow with hs | hs <;> simp [isRouted, hs]
    refine ⟨h.registered, h.entry, h.waiting, done, hdone, ?_⟩
    simp [hrouted, hmsgs]
  · rw [Bool.not_eq_true, Bool.or_eq_false_iff] at hslow
    refine ⟨h.registered, h.entry, fun m hm => ?_, done, hdone, ?_⟩
    · rcases List.mem_append.mp hm with hm | hm
      · exact h.waiting m hm
      · rw [List.mem_singleton.mp hm]
        exact ⟨hreg, hslow⟩
    · rw [List.filter_append, List.map_append, ← List.append_assoc, hmsgs]

theorem relaying_step {a : ProcessAct D} (h : p.Relaying info start msgs)
    (hstep : (machine db).step p a = some q)
    (ha : ∀ msg ∈ a.message?, IvpRegister.isRegistrationMsg msg = false) :
    q.Relaying info start (msgs ++ (a.message?.toList.filter isRouted).map info.stamp) := by
  simp only [machine, step] at hstep
  split_ifs at hstep
  cases a with
  | message msg =>
    obtain rfl := Option.some.inj hstep
    exact h.receive (ha msg rfl)
  | fast fresh => simpa [ProcessAct.message?] using h.stepFast hstep
  | slow fresh => simpa [ProcessAct.message?] using h.stepSlow hstep
  | configMonitor =>
    obtain rfl := Option.some.inj hstep
    have hpass : Relaying info start msgs (p.exec (configMonitorPass db) fun p _ => p) :=
      h.exec (routing_ignores.configMonitorPass db) fun _ _ => ⟨rfl, rfl⟩
    simpa [ProcessAct.message?] using hpass
  | environment d clock clientNames =>
    obtain rfl := Option.some.inj hstep
    have hkeep : Relaying info start msgs { p with
        core := { p.core with db := d, clock := clock, clientNames := clientNames } } :=
      h.keep rfl rfl
    simpa [ProcessAct.message?] using hkeep

theorem relaying_run {acts : List (ProcessAct D)} (h : p.Relaying info start msgs)
    (hrun : (machine db).run p acts = some q)
    (hacts : ∀ msg ∈ acts.filterMap ProcessAct.message?,
      IvpRegister.isRegistrationMsg msg = false) :
    q.Relaying info start
      (msgs ++ ((acts.filterMap ProcessAct.message?).filter isRouted).map info.stamp) := by
  induction acts generalizing p msgs with
  | nil =>
    obtain rfl : p = q := by simpa using hrun
    simpa using h
  | cons a acts ih =>
    obtain ⟨u, hu, hrun⟩ := Machine.run_cons_eq_some.mp hrun
    have hsplit : (a :: acts).filterMap ProcessAct.message? =
        a.message?.toList ++ acts.filterMap ProcessAct.message? := by
      cases hm : a.message? <;> simp [hm]
    rw [hsplit] at hacts ⊢
    have hnext := relaying_step h hu fun msg hm => hacts msg (by simp [Option.mem_def.mp hm])
    have hlast := ih hnext hrun fun msg hm => hacts msg (List.mem_append_right _ hm)
    simpa [List.append_assoc] using hlast

end CoreProcess
end Routing

section Relay
variable {D R : Type}

/-- A call of `broadcastMessage` of the router, with the subscriptions of that moment. -/
structure Broadcast (R : Type) where
  map : ReceiverMap R
  sender : R
  msg : IvpMessage

/-- What the core writes to the socket of a plugin: what the router has for it, and messages of
its own. -/
inductive Outgoing (R : Type) where
  | broadcast (b : Broadcast R)
  | own (msg : IvpMessage)

def Outgoing.msg : Outgoing R → IvpMessage
  | .broadcast b => b.msg
  | .own msg => msg

def Outgoing.broadcast? : Outgoing R → Option (Broadcast R)
  | .broadcast b => some b
  | .own _ => none

section Outgoing
variable (b : Broadcast R) (msg : IvpMessage)

@[simp] theorem Outgoing.msg_broadcast : (broadcast b).msg = b.msg := rfl
@[simp] theorem Outgoing.msg_own : (own msg : Outgoing R).msg = msg := rfl
@[simp] theorem Outgoing.broadcast?_broadcast : (broadcast b).broadcast? = some b := rfl
@[simp] theorem Outgoing.broadcast?_own : (own msg : Outgoing R).broadcast? = none := rfl

end Outgoing

variable [DecidableEq R]

/-- The broadcasts that a receiver is called for. -/
def delivered (receiver : R) (sched : List (Broadcast R)) : List (Broadcast R) :=
  sched.filter fun b => receiver ∈ broadcastMessage b.map (some b.sender) b.msg

/-- The messages of one sender. -/
def sentBy (sender : R) (sched : List (Broadcast R)) : List IvpMessage :=
  (sched.filter fun b => b.sender = sender).map Broadcast.msg

/-- What becomes of the messages of a registered plugin on their way to a subscriber. -/
def relayed (info : PluginEntry) (filters : List MessageFilterEntry) (msgs : List IvpMessage) :
    List IvpMessage :=
  IvpMessage.arrivals ((((IvpMessage.arrivals msgs).filter isRouted).map info.stamp).filter
    fun msg => ∃ entry ∈ filters, entry.Matches msg)

/-- How far the messages of a sender have come on their way to a receiver. `early` is what the
sender wrote up to its registration. -/
structure Passage (D R : Type) where
  early : List IvpMessage
  msgs : List IvpMessage
  chunks : List Bytes
  parsed : List (Option IvpMessage)
  registered : CoreProcess D
  acts : List (ProcessAct D)
  process : CoreProcess D
  sched : List (Broadcast R)
  written : List (Outgoing R)
  arrived : List Bytes
  heard : List (Option IvpMessage)

namespace Passage

/-- The messages that the process of the core has given to the router. -/
def routed (j : Passage D R) : List IvpMessage :=
  j.process.core.routed.drop j.registered.core.routed.length

/-- Every part of the way has done some of what the part before it handed on, in that order. -/
structure Legal (db : Database D) (fresh fresh' : IvpDsrcMetadata) (info : PluginEntry)
    (sender receiver : R) (filters : List MessageFilterEntry) (j : Passage D R) : Prop where
  chunksFit : MSG_FRAMER_INITIALIZER.ChunksFit j.chunks
  stream : j.chunks.flatten <+: ((j.early ++ j.msgs).map IvpMessage.frame).flatten
  parsed : IvpMessage.receiveMessages fresh j.chunks = some j.parsed
  plain : ∀ msg ∈ j.msgs, IvpRegister.isRegistrationMsg msg.received = false
  registered : j.registered.core.plugin.mRegistered = true
  info : j.registered.core.plugin.mInfo.pluginInfo = info
  queue : j.registered.fastQueue = []
  run : (CoreProcess.machine db).run j.registered j.acts = some j.process
  reads : (IvpMessage.arrivals j.early ++ j.acts.filterMap ProcessAct.message?).map some <+:
    j.parsed
  sched : sentBy sender j.sched <+: j.routed
  subscribed : ∀ b ∈ j.sched, b.sender = sender → b.map.lookup receiver = some filters
  other : sender ≠ receiver
  written : j.written.filterMap Outgoing.broadcast? <+: delivered receiver j.sched
  arrivedFit : MSG_FRAMER_INITIALIZER.ChunksFit j.arrived
  arrived : j.arrived.flatten <+: (j.written.map fun w => w.msg.frame).flatten
  heard : IvpMessage.receiveMessages fresh' j.arrived = some j.heard

/-- Nothing is under way any more. -/
structure Complete (sender receiver : R) (j : Passage D R) : Prop where
  stream : j.chunks.flatten = ((j.early ++ j.msgs).map IvpMessage.frame).flatten
  reads : (IvpMessage.arrivals j.early ++ j.acts.filterMap ProcessAct.message?).map some = j.parsed
  queue : j.process.fastQueue = []
  sched : sentBy sender j.sched = j.routed
  written : j.written.filterMap Outgoing.broadcast? = delivered receiver j.sched
  arrived : j.arrived.flatten = (j.written.map fun w => w.msg.frame).flatten

variable {db : Database D} {fresh fresh' : IvpDsrcMetadata} {info : PluginEntry}
  {sender receiver : R} {filters : List MessageFilterEntry} {j : Passage D R}

theorem arrivals_append (early msgs : List IvpMessage) :
    IvpMessage.arrivals (early ++ msgs) =
      IvpMessage.arrivals early ++ IvpMessage.arrivals msgs := by
  simp [IvpMessage.arrivals]

/-- The first socket and the receiver thread. -/
theorem Legal.read (h : j.Legal db fresh fresh' info sender receiver filters) :
    j.acts.filterMap ProcessAct.message? <+: IvpMessage.arrivals j.msgs ∧
      (j.Complete sender receiver →
        j.acts.filterMap ProcessAct.message? = IvpMessage.arrivals j.msgs) := by
  have hinj : Function.Injective (some : IvpMessage → Option IvpMessage) := Option.some_injective _
  obtain ⟨hbegins, hall⟩ := IvpMessage.receiveMessages_arrivals h.parsed h.chunksFit h.stream
  have hreads := h.reads.trans hbegins
  rw [arrivals_append] at hreads hall
  constructor
  · rw [List.map_append, List.map_append, List.prefix_append_right_inj] at hreads
    obtain ⟨rest, hrest⟩ := hreads
    obtain ⟨front, back, hsplit, hfront, -⟩ := List.map_eq_append_iff.mp hrest.symm
    rw [hsplit, hinj.list_map hfront]
    exact List.prefix_append _ _
  · intro hcomplete
    have hsame := hcomplete.reads.trans (hall hcomplete.stream)
    exact List.append_cancel_left (hinj.list_map hsame)

/-- The process of the core. -/
theorem Legal.routes (h : j.Legal db fresh fresh' info sender receiver filters) :
    j.routed <+: ((IvpMessage.arrivals j.msgs).filter isRouted).map info.stamp ∧
      (j.Complete sender receiver →
        j.routed = ((IvpMessage.arrivals j.msgs).filter isRouted).map info.stamp) := by
  obtain ⟨hread, hall⟩ := h.read
  have hstart : j.registered.Relaying info j.registered.core.routed [] := by
    refine ⟨h.registered, h.info, ?_, [], ?_⟩ <;> simp [h.queue]
  have hacts : ∀ msg ∈ j.acts.filterMap ProcessAct.message?,
      IvpRegister.isRegistrationMsg msg = false := by
    intro msg hmsg
    obtain ⟨sent, hsent, rfl⟩ := List.mem_map.mp (hread.subset hmsg)
    exact h.plain sent (List.mem_of_mem_filter hsent)
  obtain ⟨done, hdone, hnew⟩ := (CoreProcess.relaying_run hstart h.run hacts).routed
  obtain rfl : j.routed = done := by rw [routed, hdone, List.drop_left]
  rw [List.nil_append] at hnew
  constructor
  · apply (List.prefix_append j.routed _).trans
    rw [hnew]
    exact (hread.filter isRouted).map _
  · intro hcomplete
    rw [← hall hcomplete, ← hnew, hcomplete.queue]
    simp

theorem mem_broadcast_iff {b : Broadcast R} (hb : b.map.lookup receiver = some filters)
    (hother : b.sender ≠ receiver) :
    receiver ∈ broadcastMessage b.map (some b.sender) b.msg ↔
      ∃ entry ∈ filters, entry.Matches b.msg := by
  rw [mem_broadcastMessage, Addressed, hb]
  simp [hother]

/-- The router and the frames that are not too long. -/
theorem received_delivered {sched : List (Broadcast R)}
    (hsubscribed : ∀ b ∈ sched, b.sender = sender → b.map.lookup receiver = some filters)
    (hother : sender ≠ receiver) :
    (((delivered receiver sched).filter fun b => b.msg.Fits).filter fun b =>
        b.sender = sender).map (fun b => b.msg.received) =
      IvpMessage.arrivals ((sentBy sender sched).filter fun msg =>
        ∃ entry ∈ filters, entry.Matches msg) := by
  have hsame : ((delivered receiver sched).filter fun b => b.msg.Fits).filter
        (fun b => b.sender = sender) =
      ((sched.filter fun b => b.sender = sender).filter fun b =>
        ∃ entry ∈ filters, entry.Matches b.msg).filter fun b => b.msg.Fits := by
    simp only [delivered, List.filter_filter]
    refine List.filter_congr fun b hb => ?_
    by_cases hs : b.sender = sender
    · have hiff := mem_broadcast_iff (hsubscribed b hb hs) (hs ▸ hother)
      simp only [hs] at hiff ⊢
      simp [hiff, Bool.and_comm]
    · simp [hs]
  rw [hsame, sentBy, IvpMessage.arrivals, List.filter_map, List.filter_map, List.map_map]
  rfl

/-- The router of the core. -/
theorem Legal.broadcasts (h : j.Legal db fresh fresh' info sender receiver filters) :
    (((delivered receiver j.sched).filter fun b => b.msg.Fits).filter fun b =>
        b.sender = sender).map (fun b => b.msg.received) <+: relayed info filters j.msgs ∧
      (j.Complete sender receiver →
        (((delivered receiver j.sched).filter fun b => b.msg.Fits).filter fun b =>
          b.sender = sender).map (fun b => b.msg.received) = relayed info filters j.msgs) := by
  obtain ⟨hroutes, hall⟩ := h.routes
  rw [received_delivered h.subscribed h.other]
  constructor
  · have hsent := ((h.sched.trans hroutes).filter fun msg => ∃ entry ∈ filters, entry.Matches msg)
    exact (hsent.filter _).map _
  · intro hcomplete
    rw [hcomplete.sched, hall hcomplete]
    rfl

omit [DecidableEq R] in
theorem filterMap_broadcasts (written : List (Outgoing R)) :
    (written.filter fun w => w.msg.Fits).filterMap Outgoing.broadcast? =
      (written.filterMap Outgoing.broadcast?).filter fun b => b.msg.Fits := by
  induction written with
  | nil => rfl
  | cons w written ih =>
    cases w with
    | broadcast b =>
      by_cases hb : b.msg.Fits <;> simp [hb, ih]
    | own msg =>
      have hskip (ws : List (Outgoing R)) : (Outgoing.own msg :: ws).filterMap
          Outgoing.broadcast? = ws.filterMap Outgoing.broadcast? := List.filterMap_cons_none rfl
      by_cases hm : msg.Fits <;> simp [hm, hskip, ih]

/-- The second socket: which of the frames the receiver has read. -/
theorem Legal.hears (h : j.Legal db fresh fresh' info sender receiver filters) :
    ∃ out, j.heard = out.map (fun w => some w.msg.received) ∧
      out <+: (j.written.filter fun w => w.msg.Fits) ∧
      (j.Complete sender receiver → out = j.written.filter fun w => w.msg.Fits) := by
  have hframes : (j.written.map fun w => w.msg.frame) =
      (j.written.map Outgoing.msg).map IvpMessage.frame := by
    rw [List.map_map]
    rfl
  have harrivals : (IvpMessage.arrivals (j.written.map Outgoing.msg)).map some =
      (j.written.filter fun w => w.msg.Fits).map fun w => some w.msg.received := by
    rw [IvpMessage.arrivals, List.filter_map, List.map_map, List.map_map]
    rfl
  have harrived := h.arrived
  rw [hframes] at harrived
  obtain ⟨hbegins, hall⟩ := IvpMessage.receiveMessages_arrivals h.heard h.arrivedFit harrived
  rw [harrivals] at hbegins hall
  obtain ⟨rest, hrest⟩ := hbegins
  obtain ⟨out, late, hsplit, hout, -⟩ := List.map_eq_append_iff.mp hrest.symm
  refine ⟨out, hout.symm, hsplit ▸ List.prefix_append out late, fun hcomplete => ?_⟩
  have hwhole := hall (hcomplete.arrived.trans (congrArg _ hframes))
  have hlength : out.length = (j.written.filter fun w => w.msg.Fits).length := by
    have := congrArg List.length (hout.trans hwhole)
    simpa using this
  rw [hsplit, List.length_append] at hlength
  rw [hsplit, List.eq_nil_of_length_eq_zero (by omega : late.length = 0), List.append_nil]

end Passage

/-- At any time, what a plugin has heard of another one are the first of its messages that were
not too long, were no requests and match the subscription, with the name and the number that the
core gives the sender; once nothing is under way, they are all of them. -/
theorem relay (db : Database D) (fresh fresh' : IvpDsrcMetadata) (info : PluginEntry)
    (sender receiver : R) (filters : List MessageFilterEntry) (j : Passage D R)
    (h : j.Legal db fresh fresh' info sender receiver filters) :
    ∃ out : List (Outgoing R),
      j.heard = out.map (fun w => some w.msg.received) ∧
      out <+: (j.written.filter fun w => w.msg.Fits) ∧
      ((out.filterMap Outgoing.broadcast?).filter fun b => b.sender = sender).map
        (fun b => b.msg.received) <+: relayed info filters j.msgs ∧
      (j.Complete sender receiver →
        ((out.filterMap Outgoing.broadcast?).filter fun b => b.sender = sender).map
          (fun b => b.msg.received) = relayed info filters j.msgs) := by
  obtain ⟨out, hheard, hbegins, hwhole⟩ := h.hears
  obtain ⟨hbroadcasts, hall⟩ := h.broadcasts
  refine ⟨out, hheard, hbegins, ?_, fun hcomplete => ?_⟩
  · have hout := (hbegins.filterMap Outgoing.broadcast?)
    rw [Passage.filterMap_broadcasts] at hout
    have hdelivered := hout.trans (h.written.filter fun b => b.msg.Fits)
    exact ((hdelivered.filter fun b => b.sender = sender).map fun b => b.msg.received).trans
      hbroadcasts
  · rw [hwhole hcomplete, Passage.filterMap_broadcasts, hcomplete.written, hall hcomplete]

end Relay

section Sample

def sampleInfo : PluginEntry := ⟨7, cstr "A", [], []⟩

def sampleProcess : CoreProcess Unit where
  core :=
    { db := ()
      clock := 0
      clientNames := ∅
      plugin := (Plugin.new 0).registered ⟨sampleInfo, [], []⟩ .empty
      filter := none
      routed := []
      socket := [] }
  fastQueue := []
  slowQueue := []
  fast := .idle
  status := .running

/-- Plugin 1 broadcasts a message without a type; plugin 2 has subscribed to everything. -/
def sampleBroadcast : Broadcast ℕ where
  map := ⟨[⟨2, [⟨STAR, [], 0⟩]⟩], by simp [List.NodupKeys, List.keys]⟩
  sender := 1
  msg := sampleInfo.stamp IvpMessage.sampleNotice.received

def samplePassage : Passage Unit ℕ where
  early := []
  msgs := [IvpMessage.sampleNotice]
  chunks := [IvpMessage.sampleNotice.frame]
  parsed := [some IvpMessage.sampleNotice.received]
  registered := sampleProcess
  acts := [.message IvpMessage.sampleNotice.received, .fast 0]
  process := { sampleProcess with
    core := { sampleProcess.core with routed := [sampleBroadcast.msg] } }
  sched := [sampleBroadcast]
  written := [.broadcast sampleBroadcast]
  arrived := [sampleBroadcast.msg.frame]
  heard := [some sampleBroadcast.msg.received]

theorem delivered_sampleBroadcast : delivered 2 [sampleBroadcast] = [sampleBroadcast] := by
  have hreceiver : 2 ∈ broadcastMessage sampleBroadcast.map (some sampleBroadcast.sender)
      sampleBroadcast.msg := by decide
  simp [delivered, hreceiver]

theorem relay_samplePassage :
    ∃ out : List (Outgoing ℕ),
      samplePassage.heard = out.map (fun w => some w.msg.received) ∧
      ((out.filterMap Outgoing.broadcast?).filter fun b => b.sender = 1).map
        (fun b => b.msg.received) = relayed sampleInfo [⟨STAR, [], 0⟩] samplePassage.msgs := by
  have hfits := IvpMessage.fits_sampleNotice
  have hfits' : sampleBroadcast.msg.Fits := by decide +kernel
  have hlegal : samplePassage.Legal quietDatabase ⟨0, 0⟩ ⟨0, 0⟩ sampleInfo 1 2 [⟨STAR, [], 0⟩] :=
    { chunksFit := IvpMessage.chunksFit_frame hfits
      stream := List.prefix_rfl
      parsed := IvpMessage.receiveMessages_frame ⟨0, 0⟩ hfits
      plain := by decide
      registered := rfl
      info := rfl
      queue := rfl
      run := rfl
      reads := List.prefix_rfl
      sched := List.prefix_rfl
      subscribed := by simp [samplePassage, sampleBroadcast, AList.lookup]
      other := by decide
      written := delivered_sampleBroadcast ▸ List.prefix_rfl
      arrivedFit := IvpMessage.chunksFit_frame hfits'
      arrived := List.prefix_rfl
      heard := IvpMessage.receiveMessages_frame ⟨0, 0⟩ hfits' }
  have hcomplete : samplePassage.Complete 1 2 :=
    ⟨rfl, rfl, rfl, rfl, delivered_sampleBroadcast.symm, rfl⟩
  obtain ⟨out, hheard, -, -, hall⟩ := relay quietDatabase ⟨0, 0⟩ ⟨0, 0⟩ sampleInfo 1 2
    [⟨STAR, [], 0⟩] samplePassage hlegal
  exact ⟨out, hheard, hall hcomplete⟩

end Sample
end V2IHub.Core
