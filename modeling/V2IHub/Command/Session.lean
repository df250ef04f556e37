import V2IHub.Foundation.DecimalText
import V2IHub.Foundation.Machine
import V2IHub.Foundation.OrderedMap
import V2IHub.Foundation.Program
import V2IHub.Messages.PropertyTree

/-! The sessions and upload requests of `CommandPlugin`, and what its callbacks do that can be
seen from outside. -/
namespace V2IHub.Command
open V2IHub.Foundation V2IHub.Foundation.DecimalText V2IHub.Messages

def READ_BUFFER_SIZE : ℕ := 5000

def ReadOnly : ℤ := 1
def ApplicationAdministrator : ℤ := 2
def SystemAdministrator : ℤ := 3

/-- `PerSessionDataBASE64` without the times of its telemetry. `buffer` holds the first
`bufferLength` bytes. -/
structure Session where
  buffer : Bytes
  outputbuffer : Bytes
  authorized : Bool
  authorizationLevel : ℤ
deriving DecidableEq

/-- The pointer `outputbuffer` is the handle of the session whose buffer it points to. -/
structure UploadData where
  requestId : Bytes
  requestTimeMS : ℕ
  outputbuffer : Option ℕ
  destinationFileName : Bytes
  destinationPath : Bytes
  fileSize : ℕ
  uploading : Bool
  message : Bytes
deriving DecidableEq

/-- What `operator[]` of the map makes of a new key. -/
def UploadData.fresh : UploadData := ⟨[], 0, none, [], [], 0, false, []⟩

/-- `PerSessionDataHTTP` -/
structure HttpSession where
  spa : Bool
  filename : Bytes
  fileLength : ℕ
  fdOpen : Bool
  lastPercentSent : ℕ
deriving DecidableEq

/-- A call of `TmxControl`, or the upload request that `uploadfile` stores. -/
inductive Action where
  | enable (plugin : Bytes)
  | disable (plugin : Bytes)
  | maxMessageInterval (plugin value : Bytes)
  | setSystem (key value defaultValue description : Bytes)
  | set (plugin key value defaultValue description : Bytes)
  | pluginInstall (file : Bytes)
  | pluginRemove (plugin : Bytes)
  | clearEventLog
  | allUsersInfo
  | userAdd (username password accessLevel : Bytes)
  | userUpdate (username : Bytes) (password accessLevel : Option Bytes)
  | userDelete (username : Bytes)
  | uploadRequest (filename : Bytes)
deriving DecidableEq

/-- The level of the commands behind an action. -/
def Action.level : Action → ℤ
  | .enable _ | .disable _ | .maxMessageInterval _ _ | .setSystem _ _ _ _ | .set _ _ _ _ _
  | .pluginInstall _ | .pluginRemove _ => ApplicationAdministrator
  | .clearEventLog | .allUsersInfo | .userAdd _ _ _ | .userUpdate _ _ _ | .userDelete _
  | .uploadRequest _ => SystemAdministrator

/-- A row of `IVP.user`. -/
structure UserRow where
  username : Bytes
  password : Bytes
  accessLevel : Bytes
deriving DecidableEq

abbrev Args := OrderedMap Bytes Bytes

/-- What happened, in its order: `handled` is a run of the command handler on the text of the
buffer, `command` an `Execute` command that was read from it, with the user table of that
moment, and `httpEntry` an upload entry that an HTTP callback made. -/
inductive Event where
  | established (sid : ℕ)
  | closed (sid : ℕ)
  | handled (sid : ℕ) (text : Bytes)
  | command (sid : ℕ) (command : Bytes) (args : Args) (userTable : List UserRow)
  | performed (sid : ℕ) (action : Action)
  | httpEntry (filename : Bytes)
deriving DecidableEq

structure Plugin where
  sessions : ℕ → Option Session
  uploadRequests : Bytes → Option UploadData
  https : ℕ → Option HttpSession
  events : List Event

/-- What the world answers while a command is handled. `control` is the result of a call of
`TmxControl`, or `none` when it throws, and `selects` the comparison of the user query. -/
structure Env where
  readJson : Bytes → Option PTree
  now : ℕ
  downloadPath : Bytes
  userTable : List UserRow
  selects : Bytes → UserRow → Bool
  queryWorks : Bool
  control : Action → Option Bool

/-- The exceptions that the handler catches; all of them are `std::exception`s. -/
inductive Failure where
  | json
  | badPath
  | stoi
  | stol
  | control
deriving DecidableEq

namespace Plugin

def initial : Plugin := ⟨fun _ => none, fun _ => none, fun _ => none, []⟩

def record (p : Plugin) (e : Event) : Plugin := { p with events := p.events ++ [e] }

def updateSession (p : Plugin) (sid : ℕ) (f : Session → Session) : Plugin :=
  { p with sessions := Function.update p.sessions sid ((p.sessions sid).map f) }

/-- The entries of this session that are not uploading are erased. -/
def eraseOwn (p : Plugin) (sid : ℕ) : Plugin :=
  { p with
    uploadRequests := fun name =>
      (p.uploadRequests name).filter fun d => ¬ (d.outputbuffer = some sid ∧ ¬ d.uploading) }

def putRequest (p : Plugin) (name : Bytes) (data : UploadData) : Plugin :=
  { p with uploadRequests := Function.update p.uploadRequests name (some data) }

@[simp] theorem record_sessions (p : Plugin) (e : Event) : (p.record e).sessions = p.sessions := rfl

@[simp] theorem record_uploadRequests (p : Plugin) (e : Event) :
    (p.record e).uploadRequests = p.uploadRequests := rfl

@[simp] theorem record_events (p : Plugin) (e : Event) :
    (p.record e).events = p.events ++ [e] := rfl

@[simp] theorem updateSession_self (p : Plugin) (sid : ℕ) (f : Session → Session) :
    (p.updateSession sid f).sessions sid = (p.sessions sid).map f := by
  simp [updateSession]

theorem updateSession_ne (p : Plugin) {sid other : ℕ} (f : Session → Session)
    (h : other ≠ sid) : (p.updateSession sid f).sessions other = p.sessions other := by
  simp [updateSession, h]

@[simp] theorem updateSession_uploadRequests (p : Plugin) (sid : ℕ) (f : Session → Session) :
    (p.updateSession sid f).uploadRequests = p.uploadRequests := rfl

@[simp] theorem updateSession_events (p : Plugin) (sid : ℕ) (f : Session → Session) :
    (p.updateSession sid f).events = p.events := rfl

@[simp] theorem eraseOwn_sessions (p : Plugin) (sid : ℕ) : (p.eraseOwn sid).sessions = p.sessions :=
  rfl

@[simp] theorem eraseOwn_events (p : Plugin) (sid : ℕ) : (p.eraseOwn sid).events = p.events := rfl

@[simp] theorem putRequest_sessions (p : Plugin) (name : Bytes) (data : UploadData) :
    (p.putRequest name data).sessions = p.sessions := rfl

@[simp] theorem putRequest_events (p : Plugin) (name : Bytes) (data : UploadData) :
    (p.putRequest name data).events = p.events := rfl

end Plugin

section Text

/-- `std::stoi`: blanks, a sign, digits, and whatever follows. -/
def stoi (text : Bytes) : Option ℤ :=
  let body := text.dropWhile fun b => b = 32 ∨ 9 ≤ b ∧ b ≤ 13
  let (negative, digits) :=
    match body with
    | 45 :: rest => (true, rest)
    | 43 :: rest => (false, rest)
    | rest => (false, rest)
  let digits := digits.takeWhile isDigit
  if digits = [] then none
  else
    let value : ℤ := digits.foldl (fun n b => 10 * n + digitVal b) 0
    let value := if negative then -value else value
    if -2 ^ 31 ≤ value ∧ value < 2 ^ 31 then some value else none

/-- `std::stol` of a text of digits. -/
def stolDigits (text : Bytes) : Option ℕ :=
  let value := text.foldl (fun n b => 10 * n + digitVal b) 0
  if value < 2 ^ 63 then some value else none

/-- `boost::regex_match` with `[0-9]+` -/
def isNumber (text : Bytes) : Bool := text ≠ [] ∧ text.all isDigit

def isLower (b : UInt8) : Bool := 97 ≤ b && b ≤ 122

def isUpper (b : UInt8) : Bool := 65 ≤ b && b ≤ 90

/-- The class `[-!@#$%^&*+=<>?]`. -/
def isSymbol (b : UInt8) : Bool := (cstr "-!@#$%^&*+=<>?").contains b

/-- The complaints about a password, and whether it is valid. The two first complaints both
ask for the length. -/
def checkPassword (password : Bytes) (passwordError : Bytes) : Bytes × Bool :=
  let complain (ok : Bool) (text : Bytes) (r : Bytes × Bool) : Bytes × Bool :=
    if ok then r else (r.1 ++ text, false)
  let short : Bytes :=
    if password.length < 8 then cstr " (Invalid Length)" ++ cstr " (Invalid Character)" else []
  complain (password.length ≥ 8 ∧
      password.all fun b => isSymbol b || isDigit b || isLower b || isUpper b) short
    (passwordError, true)
  |> complain (password.any isSymbol) (cstr " (No Symbol)")
  |> complain (password.any isDigit) (cstr " (No Number)")
  |> complain (password.any isLower) (cstr " (No Lower Case Letter)")
  |> complain (password.any isUpper) (cstr " (No Upper Case Letter)")

def buildCommandResponse (now : ℕ) (id command status reason : Bytes)
    (data arrayData : List (Bytes × Bytes)) : Bytes :=
  2 :: cstr "\x7b\"header\":\x7b\"type\":\"Command\",\"subtype\":\"Execute\","
    ++ cstr "\"encoding\":\"jsonstring\",\"timestamp\":\""
    ++ decimal now ++ cstr "\",\"flags\":\"0\"\x7d,\"payload\":\x7b"
    ++ cstr "\"id\":\"" ++ id ++ cstr "\",\"status\":\"" ++ status
    ++ cstr "\",\"command\":\"" ++ command ++ cstr "\",\"reason\":\"" ++ reason
    ++ data.flatMap (fun d => cstr "\",\"" ++ d.1 ++ cstr "\":\"" ++ d.2) ++ cstr "\""
    ++ arrayData.flatMap (fun d => cstr ",\"" ++ d.1 ++ cstr "\":" ++ d.2) ++ cstr "\x7d\x7d" ++ [3]

end Text

end V2IHub.Command
