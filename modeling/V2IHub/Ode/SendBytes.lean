import V2IHub.Foundation.Bytes
import V2IHub.Foundation.Machine

/-! The UDP client of the ODE plugin, its lock, and what the calls that configure it and send on
it leave behind. -/
namespace V2IHub.Ode
open Foundation

structure UdpClient where
  _address : Bytes
  _port : BitVec 16
deriving DecidableEq

/-- `client`, which keeps its value when what it points to is deleted. -/
inductive ClientPointer where
  | null
  | live (client : UdpClient)
  | deleted
deriving DecidableEq

/-- The last field is the client on which the last call has sent, if it has. -/
structure ODEPlugin where
  ip : Bytes
  port : BitVec 16
  syncLock : Bool
  client : ClientPointer
  totalBytes : BitVec 64
  totalCount : BitVec 32
  sentOn : Option UdpClient
deriving DecidableEq

/-- A call waits for a lock that nobody releases, or calls a function of a deleted client. -/
inductive CallFault where
  | blocked
  | useAfterDelete
deriving DecidableEq

/-- The configuration holds values or not, the constructor of a client returns or throws, and
sending returns a size or throws. -/
inductive PluginCall where
  | updateConfigSettings (ODEIP : Option Bytes) (ODEPort : Option (BitVec 16))
  | sendBytes (created : Bool) (sentBytes : Option (BitVec 64))
deriving DecidableEq

namespace ODEPlugin

def init : ODEPlugin := ⟨[], 0, false, .null, 0, 0, none⟩

def updateConfigSettings (s : ODEPlugin) (ODEIP : Option Bytes) (ODEPort : Option (BitVec 16)) :
    Except CallFault ODEPlugin :=
  if s.syncLock then .error .blocked
  else .ok { s with
    ip := ODEIP.getD s.ip
    port := ODEPort.getD s.port
    sentOn := none }

/-- `client && (client->GetAddress() != ip || client->GetPort() != port)`, and the client is
deleted then. -/
def deleteStale (s : ODEPlugin) : Except CallFault ODEPlugin :=
  match s.client with
  | .null => .ok s
  | .live client =>
    if client._address ≠ s.ip ∨ client._port ≠ s.port then .ok { s with client := .deleted }
    else .ok s
  | .deleted => .error .useAfterDelete

/-- What follows after the lock is released. -/
def send (s : ODEPlugin) (sentBytes : Option (BitVec 64)) : Except CallFault ODEPlugin :=
  match s.client with
  | .null => .ok s
  | .live client =>
    match sentBytes with
    | some sent => .ok { s with
        totalBytes := s.totalBytes + sent
        totalCount := s.totalCount + 1
        sentOn := some client }
    | none => .ok { s with sentOn := some client }
  | .deleted => .error .useAfterDelete

/-- `if (!client && port > 0) client = new UdpClient(ip, port);`, and nothing when the
constructor throws. -/
def createMissing (s : ODEPlugin) (created : Bool) : Option ODEPlugin :=
  if s.client = .null ∧ s.port > 0 then
    if created then some { s with client := .live ⟨s.ip, s.port⟩ } else none
  else some s

/-- An exception of the constructor is caught behind the statement that releases the lock. -/
def sendBytes (s : ODEPlugin) (created : Bool) (sentBytes : Option (BitVec 64)) :
    Except CallFault ODEPlugin :=
  if s.syncLock then .error .blocked
  else do
    let locked ← deleteStale { s with syncLock := true, sentOn := none }
    match createMissing locked created with
    | some ready => send { ready with syncLock := false } sentBytes
    | none => return locked

def call (s : ODEPlugin) : PluginCall → Except CallFault ODEPlugin
  | .updateConfigSettings ODEIP ODEPort => s.updateConfigSettings ODEIP ODEPort
  | .sendBytes created sentBytes => s.sendBytes created sentBytes

/-- A call that does not return, or whose behaviour is undefined, leads nowhere. -/
def machine : Machine ODEPlugin PluginCall := ⟨fun s a => (s.call a).toOption⟩

/-- The lock is free and the client is null or live, and the last call has sent, if it has, on a
client for the address that is configured. -/
structure Sound (s : ODEPlugin) : Prop where
  released : s.syncLock = false
  pointer : s.client ≠ .deleted
  destination : ∀ client, s.sentOn = some client → client = ⟨s.ip, s.port⟩

/-- A call that sends finds no client, and creates one when a port is configured, or finds one
that was created for the address that is configured. -/
def Expected (s : ODEPlugin) : PluginCall → Prop
  | .updateConfigSettings _ _ => True
  | .sendBytes created _ =>
    (s.client = .null → s.port > 0 → created = true) ∧
      ∀ client, s.client = .live client → client = ⟨s.ip, s.port⟩

section Calls
variable {s : ODEPlugin} {client : UdpClient} {created : Bool} {sentBytes : Option (BitVec 64)}

/-- What a call leads to is consistent. -/
def Succeeds (result : Except CallFault ODEPlugin) : Prop := ∃ t, result = .ok t ∧ Sound t

theorem succeeds_ok {t : ODEPlugin} : Succeeds (.ok t) ↔ Sound t := by
  constructor
  · rintro ⟨u, hu, hsound⟩
    rwa [Except.ok.inj hu]
  · exact fun h => ⟨t, rfl, h⟩

theorem not_succeeds_error {fault : CallFault} : ¬ Succeeds (.error fault) := by
  rintro ⟨t, ht, -⟩
  simp only [reduceCtorEq] at ht

theorem sound_iff_of_sentOn (hlock : s.syncLock = false) (hlive : s.client = .live client)
    (hsent : s.sentOn = some client) : Sound s ↔ client = ⟨s.ip, s.port⟩ := by
  constructor
  · exact fun h => h.destination client hsent
  · rintro rfl
    refine ⟨hlock, by simp only [hlive, ne_eq, reduceCtorEq, not_false_eq_true], ?_⟩
    intro other hother
    rw [hsent] at hother
    exact (Option.some.inj hother).symm

/-- Sending is on the client, whether it succeeds or not. -/
theorem succeeds_send (hlock : s.syncLock = false) (hlive : s.client = .live client) :
    Succeeds (s.send sentBytes) ↔ client = ⟨s.ip, s.port⟩ := by
  rw [send, hlive]
  cases sentBytes with
  | none => exact succeeds_ok.trans (sound_iff_of_sentOn hlock rfl rfl)
  | some sent => exact succeeds_ok.trans (sound_iff_of_sentOn hlock rfl rfl)

theorem sendBytes_of_stale {locked : ODEPlugin} (hlock : s.syncLock = false)
    (hstale : deleteStale { s with syncLock := true, sentOn := none } = .ok locked) :
    s.sendBytes created sentBytes =
      match createMissing locked created with
      | some ready => send { ready with syncLock := false } sentBytes
      | none => .ok locked := by
  rw [sendBytes, hlock, if_neg Bool.false_ne_true, hstale]
  rfl

/-- A call that finds no client creates one when a port is configured; an exception leaves the
lock behind. -/
theorem succeeds_sendBytes_null (hlock : s.syncLock = false) (hnull : s.client = .null) :
    Succeeds (s.sendBytes created sentBytes) ↔ (s.port > 0 → created = true) := by
  have hstale : deleteStale { s with syncLock := true, sentOn := none } =
      .ok { s with syncLock := true, sentOn := none } := by
    simp only [deleteStale, hnull]
  rw [sendBytes_of_stale hlock hstale]
  by_cases hport : s.port > 0
  · rw [createMissing, if_pos ⟨hnull, hport⟩]
    cases created with
    | false =>
      refine iff_of_false (fun h => ?_) fun h => Bool.false_ne_true (h hport)
      exact Bool.false_ne_true (succeeds_ok.mp h).released.symm
    | true => exact iff_of_true ((succeeds_send rfl rfl).mpr rfl) fun _ => rfl
  · rw [createMissing, if_neg fun h => hport h.2]
    have hsound : Sound { s with syncLock := false, sentOn := none } :=
      ⟨rfl, by simp only [hnull, ne_eq, reduceCtorEq, not_false_eq_true],
        fun _ h => absurd h (Option.some_ne_none _).symm⟩
    refine iff_of_true ?_ fun h => absurd h hport
    simp only [send, hnull]
    exact succeeds_ok.mpr (by rwa [hnull] at hsound)

/-- A call that finds a client sends on it when it is for the configured address; otherwise the
client is deleted, and called. -/
theorem succeeds_sendBytes_live (hlock : s.syncLock = false) (hlive : s.client = .live client) :
    Succeeds (s.sendBytes created sentBytes) ↔ client = ⟨s.ip, s.port⟩ := by
  by_cases hstale : client._address ≠ s.ip ∨ client._port ≠ s.port
  · have hdelete : deleteStale { s with syncLock := true, sentOn := none } =
        .ok { s with syncLock := true, client := .deleted, sentOn := none } := by
      simp only [deleteStale, hlive, if_pos hstale]
    rw [sendBytes_of_stale hlock hdelete, createMissing,
      if_neg fun h => ClientPointer.noConfusion h.1]
    refine iff_of_false not_succeeds_error ?_
    rintro rfl
    simp at hstale
  · have hkeep : deleteStale { s with syncLock := true, sentOn := none } =
        .ok { s with syncLock := true, sentOn := none } := by
      simp only [deleteStale, hlive, if_neg hstale]
    rw [sendBytes_of_stale hlock hkeep, createMissing, if_neg fun h => by simp [hlive] at h]
    exact succeeds_send rfl hlive

/-- From a state with a free lock and no deleted client, a call leaves a consistent one exactly
when it is expected. -/
theorem succeeds_call_iff {a : PluginCall} (hlock : s.syncLock = false)
    (hpointer : s.client ≠ .deleted) : Succeeds (s.call a) ↔ Expected s a := by
  cases a with
  | updateConfigSettings ODEIP ODEPort =>
    rw [call, updateConfigSettings, hlock, if_neg Bool.false_ne_true, succeeds_ok]
    exact iff_of_true ⟨rfl, hpointer, fun _ h => absurd h (Option.some_ne_none _).symm⟩ trivial
  | sendBytes created sentBytes =>
    rw [call, Expected]
    cases hclient : s.client with
    | null => simp [succeeds_sendBytes_null hlock hclient]
    | live client => simp [succeeds_sendBytes_live hlock hclient]
    | deleted => exact absurd hclient hpointer

end Calls

section Runs

theorem step_eq_some_iff {s t : ODEPlugin} {a : PluginCall} :
    machine.step s a = some t ↔ s.call a = .ok t := by
  change (s.call a).toOption = some t ↔ _
  cases s.call a with
  | error fault => simp [Except.toOption]
  | ok u => simp [Except.toOption]

/-- Every call of a run returns with a free lock and with a client that is null or live, and
sends on nothing but a live client for the address that is configured then, exactly when the run
meets the expectation of every call. -/
theorem calls_sound_iff (calls : List PluginCall) :
    (∀ before a after, calls = before ++ a :: after →
        ∃ t, machine.run init (before ++ [a]) = some t ∧ Sound t) ↔
      machine.Obeys Expected init calls := by
  rw [← Machine.obeys_iff_exists_after (P := fun _ => Sound)]
  refine @Machine.obeys_congr_of_invariant _ _ _ _ _ Sound ?_ ?_ _ ?_ calls
  · intro s a hs
    rw [← succeeds_call_iff hs.released hs.pointer, Succeeds]
    simp only [step_eq_some_iff]
  · rintro s a t - ⟨u, hu, hsound⟩ ht
    rwa [← Option.some.inj (hu.symm.trans ht)]
  · exact ⟨rfl, ClientPointer.noConfusion, fun _ h => absurd h (Option.some_ne_none _).symm⟩

/-- A client that is deleted for another address is called at once, and an exception of the
constructor leaves the lock to nobody. -/
theorem calls_unsound :
    ((machine.run init [.updateConfigSettings (some [49]) (some 80), .sendBytes true (some 2),
        .updateConfigSettings (some [50]) none]).map fun s => s.call (.sendBytes true (some 2))) =
      some (.error .useAfterDelete) ∧
    ((machine.run init [.updateConfigSettings (some [49]) (some 80), .sendBytes false none]).map
        fun s => (s.syncLock, s.call (.sendBytes true (some 2)),
          s.call (.updateConfigSettings none none))) =
      some (true, .error .blocked, .error .blocked) := by
  decide

end Runs

end ODEPlugin
end V2IHub.Ode
