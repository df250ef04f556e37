import V2IHub.Command.Execute
import V2IHub.Utils.Base64

/-! The callbacks of `CommandPlugin` as a machine: sessions open and close, send data, and
upload files over HTTP, in any order. -/
namespace V2IHub.Command
open V2IHub.Foundation V2IHub.Foundation.DecimalText V2IHub.Messages V2IHub.Utils Relation

def Session.established : Session := ⟨[], [], false, ReadOnly⟩

def Session.clearBuffer (s : Session) : Session := { s with buffer := [] }

def Session.addByte (byte : UInt8) (s : Session) : Session := { s with buffer := s.buffer ++ [byte] }

section Receive

/-- One round of the loop over the bytes of a message; `true` when the message was emptied.
The handler reads the buffer up to its first zero byte. -/
def receiveByte (env : Env) (sid : ℕ) (byte : UInt8) (p : Plugin) : Plugin × Bool :=
  match p.sessions sid with
  | none => (p, false)
  | some s =>
    if byte = 2 then (p.updateSession sid Session.clearBuffer, false)
    else if byte = 3 then
      if s.buffer.length > 0 then
        if s.buffer.length ≥ READ_BUFFER_SIZE then (p, false)
        else
          match handle env sid (cstringAt s.buffer) p with
          | (.ok emptied, q) => (q, emptied)
          | (_, q) => (q, false)
      else (p, false)
    else if s.buffer.length ≥ READ_BUFFER_SIZE then (p, false)
    else (p.updateSession sid (Session.addByte byte), false)

/-- The loop, with the answers of the world at each position. -/
def receiveLoop (env : ℕ → Env) (sid : ℕ) : Bytes → ℕ → Plugin → Plugin
  | [], _, p => p
  | byte :: message, i, p =>
    let r := receiveByte (env i) sid byte p
    if r.2 then r.1 else receiveLoop env sid message (i + 1) r.1

/-- `LWS_CALLBACK_RECEIVE` -/
def receive (env : ℕ → Env) (sid : ℕ) (data : Bytes) (p : Plugin) : Plugin :=
  receiveLoop env sid (Base64.decode data) 0 p

end Receive

section Closing

/-- What `LWS_CALLBACK_CLOSED` does to an entry: one of this session that is not uploading is
erased, every other loses its buffer. -/
def closeRequest (sid : ℕ) (d : UploadData) : Option UploadData :=
  if d.outputbuffer = some sid ∧ ¬ d.uploading then none else some { d with outputbuffer := none }

def Plugin.establish (p : Plugin) (sid : ℕ) : Plugin :=
  { p with sessions := Function.update p.sessions sid (some .established) }.record
    (.established sid)

def Plugin.close (p : Plugin) (sid : ℕ) : Plugin :=
  { p with
    sessions := Function.update p.sessions sid none
    uploadRequests := fun name => (p.uploadRequests name).bind (closeRequest sid) }.record
    (.closed sid)

end Closing

section Http

/-- What the file system answers in an upload callback. -/
structure FileAnswers where
  createDirectory : Bool
  openFile : Bool
  createDestination : Bool
  copyFile : Bool
  removeFile : Bool
deriving DecidableEq

inductive UploadState where
  | opening (filename : Bytes)
  | content (length : ℕ)
  | finalContent (length : ℕ)
deriving DecidableEq

namespace Plugin

def setHttp (p : Plugin) (h : ℕ) (http : HttpSession) : Plugin :=
  { p with https := Function.update p.https h (some http) }

/-- `_uploadRequests[name]` makes an entry where there is none. -/
def touch (p : Plugin) (name : Bytes) : Plugin :=
  match p.uploadRequests name with
  | some _ => p
  | none => (p.putRequest name .fresh).record (.httpEntry name)

def modifyRequest (p : Plugin) (name : Bytes) (f : UploadData → UploadData) : Plugin :=
  { p with
    uploadRequests := Function.update p.uploadRequests name ((p.uploadRequests name).map f) }

def eraseRequest (p : Plugin) (name : Bytes) : Plugin :=
  { p with uploadRequests := Function.update p.uploadRequests name none }

def setMessage (p : Plugin) (name : Bytes) (text : String) : Plugin :=
  p.modifyRequest name fun d => { d with message := cstr text }

/-- `BuildCommandResponse` into the buffer of an entry. -/
def respondTo (p : Plugin) (d : UploadData) (now : ℕ) (status reason : Bytes)
    (data : List (Bytes × Bytes)) : Plugin :=
  match d.outputbuffer with
  | some sid => p.updateSession sid (Session.respond
      (buildCommandResponse now d.requestId (cstr "uploadfile") status reason data []))
  | none => p

end Plugin

/-- The last part of the final content: the file is moved where the request says. -/
def finishUpload (p : Plugin) (h : ℕ) (http : HttpSession) (d : UploadData) (a : FileAnswers) :
    Plugin :=
  let name := http.filename
  if http.fdOpen ∧ d.destinationFileName ≠ [] then
    if d.destinationPath ≠ [] ∧ ¬ a.createDestination then
      p.setMessage name "Failed to create destination folder"
    else if ¬ a.copyFile then
      let p := p.setMessage name "Failed to copy file to destination folder."
      if a.removeFile then
        p.modifyRequest name fun d =>
          { d with message := d.message ++ cstr " Failed to delete download file." }
      else p
    else if ¬ a.removeFile then p.setMessage name "Failed to delete download file."
    else p.setHttp h { http with fdOpen := false }
  else p.setHttp h { http with fdOpen := false }

/-- The content of a file, for an entry whose session is still there. -/
def uploadContent (p : Plugin) (h : ℕ) (http : HttpSession) (d : UploadData) (final : Bool)
    (length now : ℕ) (a : FileAnswers) : Plugin :=
  if length > 0 ∧ http.fdOpen then
    let fileLength := http.fileLength + length
    let percent := fileLength * 100 / d.fileSize
    let tell := d.fileSize > 0 ∧ percent > http.lastPercentSent
    let http := { http with
      fileLength := fileLength
      lastPercentSent := if tell then percent else http.lastPercentSent }
    let p := if tell then
        p.respondTo d now (cstr "success") []
          [(cstr "percent", decimal percent), (cstr "state", cstr "sending")]
      else p
    let p := p.setHttp h http
    if fileLength > 100000000 then
      (p.setMessage http.filename "File is too large").setHttp h { http with fdOpen := false }
    else if final then finishUpload p h http d a
    else p
  else if final then finishUpload p h http d a
  else p

def fileUploadCB (p : Plugin) (h : ℕ) (http : HttpSession) (state : UploadState) (now : ℕ)
    (a : FileAnswers) : Plugin :=
  match state with
  | .opening filename =>
    let name := filename.take 63
    let http := { http with filename := name }
    let p := p.setHttp h http
    match p.uploadRequests name with
    | none => (p.touch name).setMessage name "Permission denied"
    | some _ =>
      if ¬ a.createDirectory then p.setMessage name "Failed to create download folder"
      else if ¬ a.openFile then
        (p.setMessage name "Failed to create or open file").setHttp h { http with fdOpen := false }
      else
        (p.modifyRequest name fun d => { d with uploading := true }).setHttp h
          { http with fdOpen := true }
  | .content length => upload p false length
  | .finalContent length => upload p true length
where
  upload (p : Plugin) (final : Bool) (length : ℕ) : Plugin :=
    let name := http.filename
    let p := p.touch name
    match p.uploadRequests name with
    | none => p
    | some d =>
      if d.outputbuffer = none then
        let p := p.setMessage name "Connection dropped"
        let p := if final then p.modifyRequest name fun d => { d with uploading := false } else p
        p.setHttp h { http with fdOpen := false }
      else uploadContent p h http d final length now a

/-- `LWS_CALLBACK_HTTP_DROP_PROTOCOL` -/
def httpDrop (p : Plugin) (h : ℕ) (http : HttpSession) (now : ℕ) : Plugin :=
  let name := http.filename
  let p := match p.uploadRequests name with
    | none => p
    | some d =>
      let state := [(cstr "state", cstr "upload")]
      let p :=
        if d.message = [] then p.respondTo d now (cstr "success") [] state
        else p.respondTo d now (cstr "failed") d.message state
      p.eraseRequest name
  p.setHttp h { http with spa := false }

end Http

/-- A callback. `httpBody` makes the argument parser of an HTTP session, and each call that
the parser makes is an `upload`. -/
inductive Act where
  | established (sid : ℕ)
  | closed (sid : ℕ)
  | receive (sid : ℕ) (data : Bytes) (env : ℕ → Env)
  | httpBody (h : ℕ)
  | upload (h : ℕ) (state : UploadState) (now : ℕ) (answers : FileAnswers)
  | httpDrop (h : ℕ) (now : ℕ)

/-- A new session has the address of no open one; the memory of an HTTP session starts with
zeros, and so with a file descriptor that is not negative. -/
def step (p : Plugin) : Act → Option Plugin
  | .established sid =>
    match p.sessions sid with
    | none => some (p.establish sid)
    | some _ => none
  | .closed sid =>
    match p.sessions sid with
    | some _ => some (p.close sid)
    | none => none
  | .receive sid data env =>
    match p.sessions sid with
    | some _ => some (receive env sid data p)
    | none => none
  | .httpBody h =>
    match p.https h with
    | some http =>
      if http.spa then some p
      else some (p.setHttp h ⟨true, [], 0, http.fdOpen, 0⟩)
    | none => some (p.setHttp h ⟨true, [], 0, true, 0⟩)
  | .upload h state now answers =>
    match p.https h with
    | some http => if http.spa then some (fileUploadCB p h http state now answers) else none
    | none => none
  | .httpDrop h now =>
    match p.https h with
    | some http => if http.spa then some (httpDrop p h http now) else some p
    | none => some p

def plugin : Machine Plugin Act := ⟨step⟩

section Effects

/-- One thing that an HTTP callback does. -/
inductive HttpEffect : Plugin → Plugin → Prop where
  | http (p : Plugin) (h : ℕ) (http : HttpSession) : HttpEffect p (p.setHttp h http)
  | fresh {p : Plugin} {name : Bytes} : p.uploadRequests name = none →
      HttpEffect p ((p.putRequest name .fresh).record (.httpEntry name))
  | request (p : Plugin) (name : Bytes) {f : UploadData → UploadData} :
      (∀ d, (f d).outputbuffer = d.outputbuffer) → HttpEffect p (p.modifyRequest name f)
  | erase (p : Plugin) (name : Bytes) : HttpEffect p (p.eraseRequest name)
  | respond (p : Plugin) (sid : ℕ) (data : Bytes) :
      HttpEffect p (p.updateSession sid (Session.respond data))

abbrev HttpEffects := ReflTransGen HttpEffect

theorem touch_effects (p : Plugin) (name : Bytes) : HttpEffects p (p.touch name) := by
  unfold Plugin.touch
  split
  · exact .refl
  · next h => exact .single (.fresh h)

theorem setMessage_effect (p : Plugin) (name : Bytes) (text : String) :
    HttpEffect p (p.setMessage name text) := .request p name fun _ => rfl

theorem respondTo_effects (p : Plugin) (d : UploadData) (now : ℕ) (status reason : Bytes)
    (data : List (Bytes × Bytes)) : HttpEffects p (p.respondTo d now status reason data) := by
  unfold Plugin.respondTo
  split
  · next sid _ => exact .single (.respond p sid _)
  · exact .refl

theorem finishUpload_effects (p : Plugin) (h : ℕ) (http : HttpSession) (d : UploadData)
    (a : FileAnswers) : HttpEffects p (finishUpload p h http d a) := by
  unfold finishUpload
  dsimp only
  split
  · split
    · exact .single (setMessage_effect _ _ _)
    · split
      · split
        · exact (ReflTransGen.single (setMessage_effect _ _ _)).tail (.request _ _ fun _ => rfl)
        · exact .single (setMessage_effect _ _ _)
      · split
        · exact .single (setMessage_effect _ _ _)
        · exact .single (.http _ _ _)
  · exact .single (.http _ _ _)

theorem uploadContent_effects (p : Plugin) (h : ℕ) (http : HttpSession) (d : UploadData)
    (final : Bool) (length now : ℕ) (a : FileAnswers) :
    HttpEffects p (uploadContent p h http d final length now a) := by
  have htell : ∀ (c : Prop) [Decidable c] (status reason : Bytes) (data : List (Bytes × Bytes))
      (http : HttpSession),
      HttpEffects p ((if c then p.respondTo d now status reason data else p).setHttp h http) := by
    intro c _ status reason data http
    apply ReflTransGen.tail _ (.http _ _ _)
    split_ifs
    · exact respondTo_effects _ _ _ _ _ _
    · exact .refl
  unfold uploadContent
  dsimp only
  by_cases hlength : length > 0 ∧ http.fdOpen = true
  · rw [if_pos hlength]
    split
    · exact ((htell _ _ _ _ _).tail (setMessage_effect _ _ _)).tail (.http _ _ _)
    · cases final with
      | true => exact (htell _ _ _ _ _).trans (finishUpload_effects _ _ _ _ _)
      | false => exact htell _ _ _ _ _
  · rw [if_neg hlength]
    cases final with
    | true => exact finishUpload_effects _ _ _ _ _
    | false => exact .refl

theorem upload_effects (p : Plugin) (h : ℕ) (http : HttpSession) (now : ℕ) (a : FileAnswers)
    (final : Bool) (length : ℕ) :
    HttpEffects p (fileUploadCB.upload h http now a p final length) := by
  unfold fileUploadCB.upload
  dsimp only
  split
  · exact touch_effects _ _
  · next d hd =>
    split_ifs
    · apply ReflTransGen.tail _ (.http _ _ _)
      exact ((touch_effects _ _).tail (setMessage_effect _ _ _)).tail (.request _ _ fun _ => rfl)
    · apply ReflTransGen.tail _ (.http _ _ _)
      exact (touch_effects _ _).tail (setMessage_effect _ _ _)
    · exact (touch_effects _ _).trans (uploadContent_effects _ _ _ _ _ _ _ _)

theorem fileUploadCB_effects (p : Plugin) (h : ℕ) (http : HttpSession) (state : UploadState)
    (now : ℕ) (a : FileAnswers) : HttpEffects p (fileUploadCB p h http state now a) := by
  cases state with
  | opening filename =>
    unfold fileUploadCB
    dsimp only
    apply ReflTransGen.head (.http p h { http with filename := filename.take 63 })
    split
    · exact (touch_effects _ _).tail (setMessage_effect _ _ _)
    · split
      · exact .single (setMessage_effect _ _ _)
      · split
        · exact (ReflTransGen.single (setMessage_effect _ _ _)).tail (.http _ _ _)
        · exact (ReflTransGen.single (.request _ _ fun _ => rfl)).tail (.http _ _ _)
  | content length => exact upload_effects p h http now a false length
  | finalContent length => exact upload_effects p h http now a true length

theorem httpDrop_effects (p : Plugin) (h : ℕ) (http : HttpSession) (now : ℕ) :
    HttpEffects p (httpDrop p h http now) := by
  unfold httpDrop
  apply ReflTransGen.tail _ (.http _ _ _)
  split
  · exact .refl
  · apply ReflTransGen.tail _ (.erase _ _)
    split_ifs
    · exact respondTo_effects _ _ _ _ _ _
    · exact respondTo_effects _ _ _ _ _ _

/-- One thing that happens while the bytes of a message are scanned: the buffer changes, or
the handler runs and finds a command or not. -/
inductive ReceiveEffect (sid : ℕ) : Plugin → Plugin → Prop where
  | buffer (p : Plugin) {f : Session → Session} :
      (∀ s, (f s).authorized = s.authorized ∧
        (f s).authorizationLevel = s.authorizationLevel) →
      ReceiveEffect sid p (p.updateSession sid f)
  | handled (p : Plugin) (text : Bytes) : ReceiveEffect sid p (p.record (.handled sid text))
  | executed {p q : Plugin} {r : Request} (text : Bytes) : r.sid = sid →
      Executes r (p.record (.handled sid text)) q → ReceiveEffect sid p q

abbrev ReceiveEffects (sid : ℕ) := ReflTransGen (ReceiveEffect sid)

theorem receiveByte_effects (env : Env) (sid : ℕ) (byte : UInt8) (p : Plugin) :
    ReceiveEffects sid p (receiveByte env sid byte p).1 := by
  unfold receiveByte
  split
  · exact .refl
  · next s hs =>
    split_ifs
    · exact .single (.buffer p fun _ => ⟨rfl, rfl⟩)
    · exact .refl
    · have hsnd : (match handle env sid (cstringAt s.buffer) p with
          | (.ok emptied, q) => (q, emptied)
          | (_, q) => (q, false)).1 = (handle env sid (cstringAt s.buffer) p).2 := by
        rcases handle env sid (cstringAt s.buffer) p with ⟨a | e | _, q⟩ <;> rfl
      rw [hsnd]
      rcases handle_cases env (cstringAt s.buffer) hs with h | ⟨r, hr, h⟩
      · rw [h]
        exact .single (.handled p _)
      · exact .single (.executed _ hr h)
    · exact .refl
    · exact .refl
    · exact .single (.buffer p fun _ => ⟨rfl, rfl⟩)

theorem receiveLoop_effects (env : ℕ → Env) (sid : ℕ) (message : Bytes) (i : ℕ) (p : Plugin) :
    ReceiveEffects sid p (receiveLoop env sid message i p) := by
  induction message generalizing i p with
  | nil => exact .refl
  | cons byte message ih =>
    unfold receiveLoop
    dsimp only
    split_ifs
    · exact receiveByte_effects _ _ _ _
    · exact (receiveByte_effects _ _ _ _).trans (ih _ _)

/-- All that a callback can do. -/
inductive PluginStep : Plugin → Act → Plugin → Prop where
  | established {p : Plugin} {sid : ℕ} : p.sessions sid = none →
      PluginStep p (.established sid) (p.establish sid)
  | closed {p : Plugin} {sid : ℕ} {s : Session} : p.sessions sid = some s →
      PluginStep p (.closed sid) (p.close sid)
  | receive {p q : Plugin} {sid : ℕ} {s : Session} (data : Bytes) (env : ℕ → Env) :
      p.sessions sid = some s → ReceiveEffects sid p q → q = Command.receive env sid data p →
      PluginStep p (.receive sid data env) q
  | http {p q : Plugin} {act : Act} : (∀ sid, act ≠ .established sid) →
      (∀ sid, act ≠ .closed sid) → (∀ sid data env, act ≠ .receive sid data env) →
      HttpEffects p q → PluginStep p act q

theorem plugin_cases {p q : Plugin} {act : Act} (h : plugin.step p act = some q) :
    PluginStep p act q := by
  change step p act = some q at h
  cases act with
  | established sid =>
    simp only [step] at h
    split at h
    · cases h
      exact .established ‹_›
    · cases h
  | closed sid =>
    simp only [step] at h
    split at h
    · cases h
      exact .closed ‹_›
    · cases h
  | receive sid data env =>
    simp only [step] at h
    split at h
    · cases h
      exact .receive data env ‹_› (receiveLoop_effects _ _ _ _ _) rfl
    · cases h
  | httpBody n =>
    refine .http (by simp) (by simp) (by simp) ?_
    simp only [step] at h
    split at h
    · split_ifs at h <;> cases h
      · exact .refl
      · exact .single (.http _ _ _)
    · cases h
      exact .single (.http _ _ _)
  | upload n state now answers =>
    refine .http (by simp) (by simp) (by simp) ?_
    simp only [step] at h
    split at h
    · split_ifs at h
      cases h
      exact fileUploadCB_effects _ _ _ _ _ _
    · cases h
  | httpDrop n now =>
    refine .http (by simp) (by simp) (by simp) ?_
    simp only [step] at h
    split at h
    · split_ifs at h <;> cases h
      · exact httpDrop_effects _ _ _ _
      · exact .refl
    · cases h
      exact .refl

end Effects

section Client

/-- A command and its arguments as a client sends them. -/
abbrev Sent := Bytes × List (Bytes × Bytes)

def quoted (text : Bytes) : Bytes := cstr "\"" ++ text ++ cstr "\""

def Sent.text (m : Sent) : Bytes :=
  cstr "\x7b\"header\":\x7b\"type\":\"Command\",\"subtype\":\"Execute\"\x7d,\"payload\":\x7b"
    ++ cstr "\"id\":\"1\",\"command\":" ++ quoted m.1 ++ cstr ",\"args\":\x7b"
    ++ ((m.2.map fun arg => quoted arg.1 ++ cstr ":" ++ quoted arg.2).intersperse
      (cstr ",")).flatten ++ cstr "\x7d\x7d\x7d"

def leaf (text : Bytes) : PTree := .node text []

/-- What `read_json` makes of the text. -/
def Sent.tree (m : Sent) : PTree :=
  .node [] [
    (cstr "header", .node []
      [(cstr "type", leaf (cstr "Command")), (cstr "subtype", leaf (cstr "Execute"))]),
    (cstr "payload", .node []
      [(cstr "id", leaf (cstr "1")), (cstr "command", leaf m.1),
        (cstr "args", .node [] (m.2.map fun arg => (arg.1, leaf arg.2)))])]

/-- A world that has one administrator and reads these messages. -/
def worldOf (sent : List Sent) : Env where
  readJson := fun text => (sent.find? fun m => m.text = text).map Sent.tree
  now := 0
  downloadPath := cstr "/tmp"
  userTable := [⟨cstr "admin", cstr "pass", cstr "3"⟩]
  selects := fun user row => row.username = user
  queryWorks := true
  control := fun _ => some true

def frameOf (text : Bytes) : Bytes := 2 :: text ++ [3]

/-- A session receives the frames of these messages. -/
def Act.sends (sid : ℕ) (sent : List Sent) : Act :=
  .receive sid (Base64.encode (sent.flatMap fun m => frameOf m.text)) fun _ => worldOf sent

/-- The last step of a run, without the encoding. -/
theorem run_sends {acts : List Act} {p q : Plugin} (hacts : plugin.run p acts = some q) (sid : ℕ)
    (sent : List Sent) :
    plugin.run p (acts ++ [.sends sid sent]) = (q.sessions sid).map fun _ =>
      receiveLoop (fun _ => worldOf sent) sid (sent.flatMap fun m => frameOf m.text) 0 q := by
  have hstep : plugin.step q (.sends sid sent) = (q.sessions sid).map fun _ =>
      receiveLoop (fun _ => worldOf sent) sid (sent.flatMap fun m => frameOf m.text) 0 q := by
    show step q (.receive sid (Base64.encode _) _) = _
    rw [step]
    cases q.sessions sid with
    | none => rfl
    | some s => rw [receive, Base64.decode_encode, Option.map_some]
  rw [Machine.run_append_of hacts, Machine.run, hstep]
  cases q.sessions sid <;> rfl

/-- The administrator logs in. -/
def loginMessage : Sent :=
  (cstr "login", [(cstr "user", cstr "admin"), (cstr "password", cstr "pass")])

def enableMessage : Sent := (cstr "enable", [(cstr "plugin", cstr "MAP")])

end Client

end V2IHub.Command
