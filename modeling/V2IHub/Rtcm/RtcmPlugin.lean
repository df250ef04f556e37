import V2IHub.Rtcm.StreamDecoding
import V2IHub.Utils.Base64

/-! `RtcmPlugin`: what its main loop makes of the bytes of an NTRIP caster, as `recv` cuts
them. -/
namespace V2IHub.Rtcm.RtcmPlugin
open Foundation Utils

/-- The settings that a pass copies under the lock. -/
structure Settings where
  user : Bytes
  pass : Bytes
  mount : Bytes
  sock : ℤ
  nmea : Bytes
  ver : Bytes
  routeRTCM : Bool
deriving DecidableEq

def inBytesSize : ℕ := 4000

/-- What one pass of the loop meets: `received` is `none` when `recv` fails, and `nmeaNow` the
NMEA string at the time when it is sent. -/
structure Pass where
  settings : Settings
  sendWorks : Bool
  received : Option { data : Bytes // data.length ≤ inBytesSize }
  nmeaNow : Bytes
deriving DecidableEq

inductive Output where
  | sent (sock : ℤ) (data : Bytes)
  | closed (sock : ℤ)
  | updateConfigSettings
  | status (connected : Bool)
  | broadcastRTCMMessage (contents : Bytes)
  | broadcastMessage (payload : Bytes)
deriving DecidableEq

/-- The variables of `Main` that outlive a pass. It has `stopped` when an exception or a loop
without an end is the last thing that happened. -/
structure State where
  oldSock : ℤ
  connected : Bool
  stopped : Option Failure
  outputs : List Output
deriving DecidableEq

def State.emit (s : State) (outputs : List Output) : State :=
  { s with outputs := s.outputs ++ outputs }

/-- The contents of the messages that were handed to `BroadcastRTCMMessage`. -/
def State.broadcasts (s : State) : List Bytes :=
  s.outputs.filterMap fun
    | .broadcastRTCMMessage contents => some contents
    | _ => none

/-- The request of NTRIP 2.0 over HTTP 1.1. -/
def header (name : Bytes) (p : Settings) : Bytes :=
  cstr "GET /" ++ p.mount ++ cstr " HTTP/1.1\r\n"
    ++ cstr "User-Agent: TMX NTRIP " ++ name ++ cstr "/20\r\n"
    ++ cstr "Accept: */*\r\n"
    ++ cstr "Ntrip-Version: Ntrip/2.0\r\n"
    ++ cstr "Ntrip-GGA: " ++ p.nmea ++ cstr "\r\n"
    ++ cstr "Connection: close\r\n"
    ++ cstr "Authorization: Basic " ++ Base64.encode (p.user ++ cstr ":" ++ p.pass)
    ++ cstr "\r\n\r\n"

/-- The lines that `getline` reads, without a carriage return at their end. -/
def responseLines (data : Bytes) : List Bytes :=
  let lines := data.splitOn 10
  let lines := if lines.getLast? = some [] then lines.dropLast else lines
  lines.map fun line => if line.getLast? = some 13 then line.dropLast else line

/-- The first bytes of a new connection. A first line of less than six bytes has no such end,
which `substr` answers with an exception. -/
def readResponse (s : State) (p : Pass) (data : Bytes) : State :=
  match responseLines data with
  | first :: _ :: _ =>
    if first.length < 6 then { s with stopped := some .exception }
    else if first.drop (first.length - 6) = cstr "200 OK" then
      let s := { s with connected := true }.emit [.status true]
      if first.take 3 = cstr "ICY" then s.emit [.sent p.settings.sock p.nmeaNow] else s
    else { s with connected := false }
  | _ => s

/-- The bytes of one `recv` become a message of their own. -/
def decode (fuel : ℕ) (s : State) (p : Pass) (data : Bytes) : State :=
  match TmxRtcmEncodedMessage.contents fuel ⟨p.settings.ver, data, []⟩ with
  | .error e => { s with stopped := some e }
  | .ok messages =>
    let s := s.emit (messages.map .broadcastRTCMMessage)
    if p.settings.routeRTCM then s.emit [.broadcastMessage data] else s

def receive (fuel : ℕ) (s : State) (p : Pass) : State :=
  match p.received with
  | none => s.emit [.closed p.settings.sock, .updateConfigSettings]
  | some data =>
    if data.val = [] then { s with connected := false }.emit [.status false]
    else if s.connected then decode fuel s p data.val
    else readResponse s p data.val

/-- A new socket replaces the old one. -/
def changeSocket (s : State) (sock : ℤ) : State :=
  if s.oldSock ≠ sock then
    { s with connected := false }.emit (if s.oldSock > 0 then [.closed s.oldSock] else [])
  else s

/-- One pass of the loop of `Main`. -/
def mainPass (name : Bytes) (fuel : ℕ) (s : State) (p : Pass) : State :=
  if s.stopped.isSome then s
  else if p.settings.sock > 0 ∧ p.settings.nmea ≠ [] then
    let s := changeSocket s p.settings.sock
    if s.connected then receive fuel s p
    else if p.sendWorks then
      receive fuel ({ s with oldSock := p.settings.sock }.emit
        [.sent p.settings.sock (header name p.settings)]) p
    else s.emit [.closed p.settings.sock, .updateConfigSettings]
  else s

def main (name : Bytes) (fuel : ℕ) (s : State) (passes : List Pass) : State :=
  passes.foldl (mainPass name fuel) s

/-- The bytes that a pass receives. -/
def Pass.data (p : Pass) : Bytes := (p.received.map Subtype.val).getD []

/-- The plugin is connected, and the pass keeps the connection. -/
structure Steady (s : State) (p : Pass) : Prop where
  running : s.stopped = none
  connected : s.connected = true
  sock : p.settings.sock = s.oldSock
  sock_pos : 0 < p.settings.sock
  nmea : p.settings.nmea ≠ []
  data : p.data ≠ []

/-- A frame of any version. -/
abbrev AnyFrame := Σ v : RtcmVersion, Frame v

def AnyFrame.bytes (X : AnyFrame) : Bytes := X.2.bytes

/-- The pass receives whole frames, of the version that the settings name if they name one, and
each of them is kept by its type. -/
def Whole (p : Pass) (chunk : List AnyFrame) : Prop :=
  ∃ (v : RtcmVersion) (items : List (Frame v)), chunk = items.map (Sigma.mk v) ∧
    p.data = items.flatMap Frame.bytes ∧
    (rtcmVersion p.settings.ver = none ∨ rtcmVersion p.settings.ver = some v) ∧
    ∀ F ∈ items, F.contents = .ok F.bytes

/-- Every cut falls between two frames. -/
def Aligned (passes : List Pass) (frames : List AnyFrame) : Prop :=
  ∃ chunks : List (List AnyFrame), chunks.flatten = frames ∧ List.Forall₂ Whole passes chunks

section Chunk
variable {v : RtcmVersion}

/-- Frames behind each other, without garbage. -/
def ungarbled (items : List (Frame v)) : Stream v where
  before := []
  items := items.map fun F => (F, [])
  before_clear := by simp
  items_clear := by simp

theorem ungarbled_bytes (items : List (Frame v)) :
    (ungarbled items).bytes = items.flatMap Frame.bytes := by
  simp [ungarbled, Stream.bytes, Stream.itemBytes, List.flatMap_map]

theorem ungarbled_frames (items : List (Frame v)) :
    (ungarbled items).frames = items.map Frame.bytes := by
  simp [ungarbled, Stream.frames]

theorem ungarbled_clear {items : List (Frame v)} (h : ∀ F ∈ items, F.contents = .ok F.bytes) :
    Stream.Clear [] [] (items.map fun F => (F, [])) := by
  induction items with
  | nil =>
    intro byte hbyte
    cases hbyte
  | cons F items ih =>
    obtain ⟨hF, hitems⟩ := List.forall_mem_cons.mp h
    have hnone : ∀ byte ∈ ([] : Bytes), v.startsFrame byte = false := by simp
    refine ⟨hnone, hF, ?_⟩
    have hagain : Stream.rescanned [] [] F = [] := by simp [Stream.rescanned]
    rw [hagain]
    exact ih hitems

theorem ungarbled_quiet {items : List (Frame v)} (subtype : Bytes)
    (h : ∀ F ∈ items, F.contents = .ok F.bytes) : (ungarbled items).Quiet subtype where
  version := by
    intro _ w byte hbyte
    simp [Stream.garbage, ungarbled] at hbyte
  clear := ungarbled_clear h

/-- The container of whole frames holds them. -/
theorem contents_whole {p : Pass} {chunk : List AnyFrame} (h : Whole p chunk) (fuel : ℕ) :
    TmxRtcmEncodedMessage.contents (fuel + 1) ⟨p.settings.ver, p.data, []⟩ =
      .ok (chunk.map AnyFrame.bytes) := by
  obtain ⟨v, items, rfl, hdata, hver, hkept⟩ := h
  have hyields := (ungarbled_quiet p.settings.ver hkept).yields fuel
  have hcontents := ((ungarbled items).contents_iff hver fuel).mpr hyields
  rw [ungarbled_bytes, ungarbled_frames] at hcontents
  rw [hdata, hcontents, List.map_map]
  rfl

end Chunk

section Runs
variable {name : Bytes} {s : State} {p : Pass}

theorem emit_broadcasts (s : State) (outputs : List Output) :
    (s.emit outputs).broadcasts = s.broadcasts ++ outputs.filterMap fun
      | .broadcastRTCMMessage contents => some contents
      | _ => none := by
  simp [State.broadcasts, State.emit]

/-- A connected pass decodes what it receives. -/
theorem mainPass_steady (name : Bytes) (fuel : ℕ) (h : Steady s p) :
    mainPass name fuel s p = decode fuel s p p.data := by
  have hsame : changeSocket s p.settings.sock = s := by
    rw [changeSocket, if_neg (not_not.mpr h.sock.symm)]
  rw [mainPass, if_neg (by simp [h.running]), if_pos ⟨h.sock_pos, h.nmea⟩, hsame,
    if_pos h.connected, receive]
  have hdata := h.data
  unfold Pass.data at hdata ⊢
  cases hreceived : p.received with
  | none => simp [hreceived] at hdata
  | some data =>
    simp only [hreceived, Option.map_some, Option.getD_some] at hdata ⊢
    rw [if_neg hdata, if_pos h.connected]

/-- A pass that decodes to messages hands them over and stays connected. -/
theorem mainPass_messages (name : Bytes) {fuel : ℕ} {messages : List Bytes} (h : Steady s p)
    (hcontents : TmxRtcmEncodedMessage.contents fuel ⟨p.settings.ver, p.data, []⟩ = .ok messages) :
    (mainPass name fuel s p).broadcasts = s.broadcasts ++ messages ∧
      ∀ p', Steady s p' → Steady (mainPass name fuel s p) p' := by
  have hbroadcast : (messages.map Output.broadcastRTCMMessage).filterMap (fun
      | .broadcastRTCMMessage contents => some contents
      | _ => none) = messages := by
    simp [List.filterMap_map]
  have hpass : mainPass name fuel s p = s.emit (messages.map .broadcastRTCMMessage ++
      if p.settings.routeRTCM then [.broadcastMessage p.data] else []) := by
    rw [mainPass_steady name fuel h, decode, hcontents]
    dsimp only
    split_ifs <;> simp [State.emit]
  rw [hpass]
  constructor
  · rw [emit_broadcasts, List.filterMap_append, hbroadcast]
    split_ifs <;> simp
  · intro p' hp'
    exact ⟨hp'.running, hp'.connected, hp'.sock, hp'.sock_pos, hp'.nmea, hp'.data⟩

/-- Once the plugin is connected, and as long as every cut falls between two frames, the
messages that are handed over are the frames of the stream. -/
theorem main_broadcasts_frames {frames : List AnyFrame} {passes : List Pass} (fuel : ℕ)
    (hsteady : ∀ p ∈ passes, Steady s p) (haligned : Aligned passes frames) :
    (main name (fuel + 1) s passes).broadcasts = s.broadcasts ++ frames.map AnyFrame.bytes := by
  obtain ⟨chunks, rfl, hwhole⟩ := haligned
  induction hwhole generalizing s with
  | nil => simp [main]
  | @cons p chunk passes chunks hp _ ih =>
    obtain ⟨hfirst, hrest⟩ := List.forall_mem_cons.mp hsteady
    obtain ⟨hbroadcasts, hstays⟩ := mainPass_messages name hfirst (contents_whole hp fuel)
    have hnext := ih fun p' hp' => hstays p' (hrest p' hp')
    rw [main, List.foldl_cons, ← main, hnext, hbroadcasts, List.flatten_cons, List.map_append,
      List.append_assoc]

end Runs

def connectedState : State := ⟨7, true, none, []⟩

/-- A pass of a connected plugin that has to find the version. -/
def passOf (data : { data : Bytes // data.length ≤ inBytesSize }) : Pass where
  settings := ⟨[], [], [], 7, cstr "$GPGGA", cstr "Unknown", false⟩
  sendWorks := true
  received := some data
  nmeaNow := cstr "$GPGGA"

def samplePayload : Bytes := [16, 2, 3]

theorem samplePayload_length :
    samplePayload.length = (0 : UInt8).toNat % 4 * 256 + (3 : UInt8).toNat := rfl

theorem samplePayload_length_ge : 3 ≤ samplePayload.length := le_rfl

def sampleFrame : Frame .SC10403_3 :=
  .rtcm3 ⟨0, 3, samplePayload, samplePayload_length, samplePayload_length_ge⟩

theorem passOf_steady (data : { data : Bytes // data.length ≤ inBytesSize })
    (h : data.val ≠ []) : Steady connectedState (passOf data) where
  running := rfl
  connected := rfl
  sock := rfl
  sock_pos := by simp [passOf]
  nmea := by
    show cstr "$GPGGA" ≠ []
    decide
  data := h

theorem unknown_version : rtcmVersion (cstr "Unknown") = none := by decide

/-- Three frames in two pieces. -/
theorem main_broadcasts_frames_sample : ∃ passes : List Pass, passes.length = 2 ∧
    ∀ fuel, (main (cstr "RTCM") (fuel + 1) connectedState passes).broadcasts =
      [sampleFrame.bytes, sampleFrame.bytes, sampleFrame.bytes] := by
  have htwo : (sampleFrame.bytes ++ sampleFrame.bytes).length ≤ inBytesSize := by decide +kernel
  have hone : sampleFrame.bytes.length ≤ inBytesSize := by decide +kernel
  have hkept : sampleFrame.contents = .ok sampleFrame.bytes := by decide +kernel
  have hne : sampleFrame.bytes ≠ [] := List.ne_nil_of_length_pos sampleFrame.bytes_pos
  refine ⟨[passOf ⟨_, htwo⟩, passOf ⟨_, hone⟩], rfl, fun fuel => ?_⟩
  have hsteady : ∀ p ∈ [passOf ⟨_, htwo⟩, passOf ⟨_, hone⟩], Steady connectedState p := by
    intro p hp
    rcases List.mem_cons.mp hp with rfl | hp
    · exact passOf_steady _ (by simp [hne])
    · rw [List.mem_singleton.mp hp]
      exact passOf_steady _ hne
  have haligned : Aligned [passOf ⟨_, htwo⟩, passOf ⟨_, hone⟩]
      [⟨_, sampleFrame⟩, ⟨_, sampleFrame⟩, ⟨_, sampleFrame⟩] := by
    refine ⟨[[⟨_, sampleFrame⟩, ⟨_, sampleFrame⟩], [⟨_, sampleFrame⟩]], rfl,
      .cons ?_ (.cons ?_ .nil)⟩
    · exact ⟨_, [sampleFrame, sampleFrame], rfl, by simp [passOf, Pass.data],
        .inl unknown_version, by simp [hkept]⟩
    · exact ⟨_, [sampleFrame], rfl, by simp [passOf, Pass.data], .inl unknown_version,
        by simp [hkept]⟩
  exact main_broadcasts_frames fuel hsteady haligned

/-- A piece in which no decoder finds a frame. -/
theorem contents_unfound {fuel : ℕ} {subtype data : Bytes} (hsubtype : rtcmVersion subtype = none)
    (hdata : data ≠ []) (hrtcm3 : Rejects .SC10403_3 (fuel + 1) data)
    (hrtcm2 : Rejects .SC10402_3 (fuel + 1) data) :
    TmxRtcmEncodedMessage.contents (fuel + 1) ⟨subtype, data, []⟩ = .ok [] := by
  obtain ⟨m, hset, hvalid⟩ := hrtcm2
  have hpos := List.length_pos_iff.mpr hdata
  obtain ⟨steps, hsteps⟩ : ∃ n, data.length = n + 1 := ⟨data.length - 1, by omega⟩
  rw [TmxRtcmEncodedMessage.contents_eq, hsubtype, hsteps]
  exact TmxRtcmEncodedMessage.filled_rejected hdata ((guess_of_rejects hrtcm3).trans hset) hvalid

/-- The first byte of a frame is not enough to find it. -/
theorem rejects_preamble (fuel : ℕ) : Rejects .SC10403_3 (fuel + 1) [Rtcm3Message.preambleByte] := by
  -- the new message has the only byte of the input left, and is invalid
  let m : Rtcm3Message := { Rtcm3Message.new with bytes := [Rtcm3Message.preambleByte] }
  have hset : Rtcm3Message.setContents (fuel + 1) .new [Rtcm3Message.preambleByte] =
      some m.invalidate := rfl
  have hcreate : TmxRtcmMessage.create .SC10403_3 0 = .rtcm3 .new := rfl
  refine ⟨.rtcm3 m.invalidate, ?_, ?_⟩
  · rw [hcreate, TmxRtcmMessage.setContents, hset]
  · rw [TmxRtcmMessage.isValid, Rtcm3Message.isValid]
    rfl

/-- A frame whose first byte comes alone is lost. -/
theorem main_broadcasts_frames_fails :
    ∃ first rest : { data : Bytes // data.length ≤ inBytesSize },
      first.val ≠ [] ∧ rest.val ≠ [] ∧ first.val ++ rest.val = sampleFrame.bytes ∧
      ∀ fuel, (main (cstr "RTCM") (fuel + 1) connectedState
        [passOf first, passOf rest]).broadcasts = [] := by
  have hbytes : sampleFrame.bytes = Rtcm3Message.preambleByte :: sampleFrame.bytes.tail := by
    decide +kernel
  have hfirst : [Rtcm3Message.preambleByte].length ≤ inBytesSize := by decide
  have hrest : sampleFrame.bytes.tail.length ≤ inBytesSize := by decide +kernel
  have htail : sampleFrame.bytes.tail ≠ [] := by decide +kernel
  have hclear : ∀ v : RtcmVersion, ∀ byte ∈ sampleFrame.bytes.tail, v.startsFrame byte = false := by
    intro v
    cases v <;> decide +kernel
  have hpreamble : ∀ byte ∈ [Rtcm3Message.preambleByte],
      RtcmVersion.SC10402_3.startsFrame byte = false := by decide +kernel
  refine ⟨⟨_, hfirst⟩, ⟨_, hrest⟩, by simp, htail, hbytes.symm, fun fuel => ?_⟩
  have hone := contents_unfound unknown_version (List.cons_ne_nil _ _) (rejects_preamble fuel)
    (Frame.rejected fuel hpreamble)
  have htwo := contents_unfound unknown_version htail (Frame.rejected fuel (hclear _))
    (Frame.rejected fuel (hclear _))
  obtain ⟨hbroadcasts, hstays⟩ := mainPass_messages (cstr "RTCM")
    (passOf_steady ⟨_, hfirst⟩ (List.cons_ne_nil _ _)) hone
  obtain ⟨hbroadcasts', -⟩ := mainPass_messages (cstr "RTCM")
    (hstays _ (passOf_steady ⟨_, hrest⟩ htail)) htwo
  rw [main, List.foldl_cons, List.foldl_cons, List.foldl_nil, hbroadcasts', hbroadcasts]
  rfl

end V2IHub.Rtcm.RtcmPlugin
