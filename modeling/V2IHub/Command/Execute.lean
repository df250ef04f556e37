import V2IHub.Command.Session
import Mathlib.Logic.Relation

/-! The command handler of `WSCallbackBASE64`, and the effects it is made of. -/
namespace V2IHub.Command
open V2IHub.Foundation V2IHub.Foundation.DecimalText V2IHub.Messages

abbrev Handler := Program Plugin Failure

namespace Handler
open Program

/-- A result that an exception stands for when it is missing. -/
def orThrow {α : Type} (e : Failure) : Option α → Handler α
  | some a => pure a
  | none => throw e

def session (sid : ℕ) : Handler Session := do
  let p ← Program.get
  deref (p.sessions sid)

def update (sid : ℕ) (f : Session → Session) : Handler Unit :=
  modify fun p => p.updateSession sid f

def record (e : Event) : Handler Unit := modify fun p => p.record e

end Handler

def Session.respond (data : Bytes) (s : Session) : Session :=
  { s with outputbuffer := s.outputbuffer ++ data }

def Session.logout (s : Session) : Session :=
  { s with buffer := [], outputbuffer := [], authorized := false, authorizationLevel := ReadOnly }

def Session.authorize (s : Session) : Session := { s with authorized := true }

def Session.setLevel (level : ℤ) (s : Session) : Session := { s with authorizationLevel := level }

/-- One command of a session: its handle, what the world answers, and the parts of the
request. -/
structure Request where
  env : Env
  sid : ℕ
  command : Bytes
  id : Bytes
  args : Args

namespace Request
open Program Handler
variable (r : Request)

def arg (name : String) : Option Bytes := r.args.find (cstr name)

/-- `argsList[name]` -/
def argValue (name : String) : Bytes := (r.arg name).getD []

def respond (status reason : Bytes) (data arrayData : List (Bytes × Bytes)) : Handler Unit :=
  update r.sid (Session.respond
    (buildCommandResponse r.env.now r.id r.command status reason data arrayData))

/-- A call of `TmxControl`. -/
def perform (action : Action) : Handler Bool := do
  record (.performed r.sid action)
  orThrow .control (r.env.control action)

/-- The response that reports a result. -/
def report (rc : Bool) (failure : Bytes) : Handler Unit :=
  if rc then r.respond (cstr "success") [] [] [] else r.respond (cstr "failed") failure [] []

def enable : Handler Unit :=
  match r.arg "plugin" with
  | some plugin => do
    let _ ← r.perform (.enable plugin)
    pure ()
  | none => pure ()

def disable : Handler Unit :=
  match r.arg "plugin" with
  | some plugin => do
    let _ ← r.perform (.disable plugin)
    pure ()
  | none => pure ()

/-- The action of `set`. The text that was meant as the default description is used as the
name of an argument. -/
def setAction (plugin key value : Bytes) : Action :=
  if key = cstr "maxMessageInterval" then .maxMessageInterval plugin value
  else
    let defaultValue := (r.arg "defaultValue").getD (r.argValue "")
    let description := (r.arg "description").getD (r.argValue "Added by CommandPlugin")
    if plugin = cstr "SYSTEMCONFIG" then .setSystem key value defaultValue description
    else .set plugin key value defaultValue description

def set : Handler Unit :=
  match r.arg "plugin", r.arg "key", r.arg "value" with
  | some plugin, some key, some value => do
    let _ ← r.perform (r.setAction plugin key value)
    pure ()
  | _, _, _ => pure ()

def logout : Handler Unit := do
  update r.sid Session.logout
  r.respond (cstr "success") [] [] []

def clearlog : Handler Unit := do
  let rc ← r.perform .clearEventLog
  r.report rc (cstr "Clear event log failed")

/-- One user of the answer to `userlist`. -/
def userJson (row : UserRow) : Bytes :=
  cstr "\x7b\"username\":\"" ++ row.username ++ cstr "\",\"accesslevel\":\"" ++ row.accessLevel
    ++ cstr "\"\x7d"

def userlist : Handler Unit := do
  let rc ← r.perform .allUsersInfo
  if rc then
    let users := (r.env.userTable.map userJson).intersperse (cstr ",") |>.flatten
    r.respond (cstr "success") [] []
      (if users = [] then [] else [(cstr "users", cstr "[" ++ users ++ cstr "]")])
  else r.respond (cstr "failed") (cstr "List users failed") [] []

def useradd : Handler Unit :=
  match r.arg "username", r.arg "password", r.arg "accesslevel" with
  | some username, some password, some accessLevel => do
    let checked := checkPassword password (cstr "User add failed:")
    if checked.2 then
      let rc ← r.perform (.userAdd username password accessLevel)
      r.report rc (cstr "User add failed")
    else r.respond (cstr "failed") checked.1 [] []
  | _, _, _ =>
    r.respond (cstr "failed") (cstr "User add failed, missing command arguments") [] []

def userupdate : Handler Unit :=
  match r.arg "username", r.arg "password", r.arg "accesslevel" with
  | some _, none, none | none, _, _ =>
    r.respond (cstr "failed") (cstr "User update failed, missing command arguments") [] []
  | some username, password, accessLevel => do
    let checked :=
      match password with
      | some password => checkPassword password (cstr "User update failed:")
      | none => ([], true)
    if checked.2 then
      let rc ← r.perform (.userUpdate username password accessLevel)
      r.report rc (cstr "User update failed")
    else r.respond (cstr "failed") checked.1 [] []

def userdelete : Handler Unit :=
  match r.arg "username" with
  | some username => do
    let rc ← r.perform (.userDelete username)
    r.report rc (cstr "User delete failed")
  | none => r.respond (cstr "failed") (cstr "User delete failed, missing command arguments") [] []

/-- The entry of an upload request. -/
def uploadData (destinationFileName destinationPath : Bytes) (fileSize : ℕ) : UploadData where
  requestId := r.id
  requestTimeMS := r.env.now
  outputbuffer := some r.sid
  destinationFileName := destinationFileName
  destinationPath := destinationPath
  fileSize := fileSize
  uploading := false
  message := []

/-- `true` when the command empties the message that is being scanned: the source assigns to
`message`, which here is the variable of the callback. -/
def uploadfile : Handler Bool :=
  let state := [(cstr "state", cstr "request")]
  match r.arg "uploadfilename", r.arg "destinationfilename", r.arg "destinationpath",
    r.arg "filesize" with
  | some filename, some destinationFileName, some destinationPath, some fileSize =>
    if isNumber fileSize then do
      modify fun p => p.eraseOwn r.sid
      let size ← orThrow .stol (stolDigits fileSize)
      modify fun p => p.putRequest filename (r.uploadData destinationFileName destinationPath size)
      record (.performed r.sid (.uploadRequest filename))
      r.respond (cstr "success") [] state []
      pure true
    else do
      r.respond (cstr "failed") (cstr "Upload file failed, invalid filesize argument") state []
      pure false
  | _, _, _, _ => do
    r.respond (cstr "failed") (cstr "Upload file failed, missing command arguments") state []
    pure false

def plugininstall : Handler Unit :=
  match r.arg "pluginfile" with
  | some file => do
    let rc ← r.perform (.pluginInstall (r.env.downloadPath ++ cstr "/" ++ file))
    r.report rc (cstr "Plugin install failed")
  | none => pure ()

def pluginuninstall : Handler Unit :=
  match r.arg "plugin" with
  | some plugin => do
    let rc ← r.perform (.pluginRemove plugin)
    r.report rc (cstr "Plugin uninstall failed")
  | none => pure ()

/-- A record of the user query that has this name and password. -/
def isRecordOf (user password : Bytes) (row : UserRow) : Bool :=
  row.username = user ∧ row.password = password

/-- The first such record authorizes the session before its level is read. -/
def login : Handler Unit :=
  match r.arg "user", r.arg "password" with
  | some user, some password =>
    if user ≠ [] ∧ r.env.queryWorks then
      match (r.env.userTable.filter (r.env.selects user)).find? (isRecordOf user password) with
      | some row => do
        r.respond (cstr "success") [] [(cstr "level", row.accessLevel)] []
        update r.sid Session.authorize
        let level ← orThrow .stoi (stoi row.accessLevel)
        update r.sid (Session.setLevel level)
      | none => r.respond (cstr "failed") (cstr "Invalid user name or password") [] []
    else r.respond (cstr "failed") (cstr "Cannot get user info") [] []
  | _, _ => pure ()

/-- Run a command that leaves the message alone. -/
def quiet (command : Handler Unit) : Handler Bool := do
  command
  pure false

def executeAuthorized (level : ℤ) : Handler Bool :=
  if r.command = cstr "enable" ∧ level ≥ ApplicationAdministrator then quiet r.enable
  else if r.command = cstr "disable" ∧ level ≥ ApplicationAdministrator then quiet r.disable
  else if r.command = cstr "set" ∧ level ≥ ApplicationAdministrator then quiet r.set
  else if r.command = cstr "logout" then quiet r.logout
  else if r.command = cstr "clearlog" ∧ level ≥ SystemAdministrator then quiet r.clearlog
  else if r.command = cstr "userlist" ∧ level ≥ SystemAdministrator then quiet r.userlist
  else if r.command = cstr "useradd" ∧ level ≥ SystemAdministrator then quiet r.useradd
  else if r.command = cstr "userupdate" ∧ level ≥ SystemAdministrator then quiet r.userupdate
  else if r.command = cstr "userdelete" ∧ level ≥ SystemAdministrator then quiet r.userdelete
  else if r.command = cstr "uploadfile" ∧ level ≥ SystemAdministrator then r.uploadfile
  else if r.command = cstr "plugininstall" ∧ level ≥ ApplicationAdministrator then
    quiet r.plugininstall
  else if r.command = cstr "pluginuninstall" ∧ level ≥ ApplicationAdministrator then
    quiet r.pluginuninstall
  else pure false

def execute : Handler Bool := do
  record (.command r.sid r.command r.args r.env.userTable)
  let s ← session r.sid
  if s.authorized then r.executeAuthorized s.authorizationLevel
  else if r.command = cstr "login" then quiet r.login
  else pure false

end Request

section Reading
open Program Handler

/-- The arguments of a command: of two with one name the later counts. -/
def argsOf (payload : PTree) : Args :=
  match payload.getChild [cstr "args"] with
  | some args => args.children.foldl (fun m arg => m.insert arg.1 arg.2.data) .empty
  | none => .empty

/-- The handler on the text of the buffer; `true` when it empties the message. -/
def processMessage (env : Env) (sid : ℕ) (text : Bytes) : Handler Bool := do
  let pt ← orThrow .json (env.readJson text)
  let header ← orThrow .badPath (pt.getChild [cstr "header"])
  let msgType ← orThrow .badPath (header.dataAt [cstr "type"])
  let msgSubtype ← orThrow .badPath (header.dataAt [cstr "subtype"])
  if msgType = cstr "Command" ∧ msgSubtype = cstr "Execute" then
    let payload ← orThrow .badPath (pt.getChild [cstr "payload"])
    let command ← orThrow .badPath (payload.dataAt [cstr "command"])
    let id ← orThrow .badPath (payload.dataAt [cstr "id"])
    Request.execute ⟨env, sid, command, id, argsOf payload⟩
  else pure false

/-- The handler with its `try` block, which catches every exception. -/
def handle (env : Env) (sid : ℕ) (text : Bytes) : Handler Bool := do
  record (.handled sid text)
  tryCatch (processMessage env sid text) (fun _ => true) fun _ => pure false

end Reading

/-- One thing that a command does. A logout is not among them. -/
inductive Effect (r : Request) : Plugin → Plugin → Prop where
  | respond (p : Plugin) (data : Bytes) : Effect r p (p.updateSession r.sid (Session.respond data))
  | perform {p : Plugin} {s : Session} (action : Action) : p.sessions r.sid = some s →
      s.authorized = true → action.level ≤ s.authorizationLevel →
      (∀ name, action ≠ .uploadRequest name) → Effect r p (p.record (.performed r.sid action))
  | erase (p : Plugin) : Effect r p (p.eraseOwn r.sid)
  | upload {p : Plugin} {s : Session} (name : Bytes) (data : UploadData) :
      p.sessions r.sid = some s → s.authorized = true →
      SystemAdministrator ≤ s.authorizationLevel → data.outputbuffer = some r.sid →
      Effect r p ((p.putRequest name data).record (.performed r.sid (.uploadRequest name)))
  | authorize {p : Plugin} {s : Session} : p.sessions r.sid = some s → s.authorized = false →
      Effect r p (p.updateSession r.sid Session.authorize)
  | setLevel {p : Plugin} {s : Session} {before : List Event} {row : UserRow} {level : ℤ} :
      p.sessions r.sid = some s → s.authorized = true →
      p.events = before ++ [.command r.sid (cstr "login") r.args r.env.userTable] →
      row ∈ r.env.userTable → r.arg "user" = some row.username →
      r.arg "password" = some row.password → stoi row.accessLevel = some level →
      Effect r p (p.updateSession r.sid (Session.setLevel level))

/-- Everything that a command does from its beginning on. -/
inductive Executes (r : Request) : Plugin → Plugin → Prop where
  | effects {p q : Plugin} {s : Session} : p.sessions r.sid = some s →
      (s.authorized = true → r.command ≠ cstr "logout") →
      Relation.ReflTransGen (Effect r)
        (p.record (.command r.sid r.command r.args r.env.userTable)) q → Executes r p q
  | logout {p : Plugin} {s : Session} (data : Bytes) : p.sessions r.sid = some s →
      s.authorized = true → r.command = cstr "logout" →
      Executes r p (((p.record (.command r.sid r.command r.args r.env.userTable)).updateSession
        r.sid Session.logout).updateSession r.sid (Session.respond data))

section Does
open Program Relation
variable {r : Request} {α β : Type} {P Q R : Plugin → Prop}

/-- From `P`, the program does nothing but effects of the command, and ends in `Q` unless it
throws. -/
def Does (r : Request) (P : Plugin → Prop) (prog : Handler α) (Q : Plugin → Prop) : Prop :=
  ∀ p, P p → ReflTransGen (Effect r) p (prog p).2 ∧ ∀ a, (prog p).1 = .ok a → Q (prog p).2

theorem does_pure (a : α) (h : ∀ p, P p → Q p) : Does r P (pure a : Handler α) Q :=
  fun p hp => ⟨.refl, fun _ _ => h p hp⟩

theorem does_throw (e : Failure) : Does r P (throw e : Handler α) Q :=
  fun _ _ => ⟨.refl, fun _ h => by cases h⟩

theorem Does.bind {prog : Handler α} {f : α → Handler β} (hp : Does r P prog Q)
    (hf : ∀ a, Does r Q (f a) R) : Does r P (prog >>= f) R := by
  intro p h
  obtain ⟨hsteps, hok⟩ := hp p h
  rw [bind_run]
  rcases hr : prog p with ⟨a | e | _, t⟩ <;> rw [hr] at hsteps hok
  · obtain ⟨hrest, hend⟩ := hf a t (hok a rfl)
    exact ⟨hsteps.trans hrest, hend⟩
  · exact ⟨hsteps, fun _ h => by cases h⟩
  · exact ⟨hsteps, fun _ h => by cases h⟩

theorem does_modify {f : Plugin → Plugin} (h : ∀ p, P p → Effect r p (f p) ∧ Q (f p)) :
    Does r P (modify f : Handler Unit) Q :=
  fun p hp => ⟨.single (h p hp).1, fun _ _ => (h p hp).2⟩

theorem does_orThrow {e : Failure} {o : Option α} (h : ∀ p, P p → Q p) :
    Does r P (Handler.orThrow e o) Q := by
  cases o with
  | none => exact does_throw e
  | some a => exact does_pure a h

theorem does_ite {c : Prop} [Decidable c] {prog prog' : Handler α} (h : c → Does r P prog Q)
    (h' : ¬ c → Does r P prog' Q) : Does r P (if c then prog else prog') Q := by
  by_cases hc : c
  · rw [if_pos hc]
    exact h hc
  · rw [if_neg hc]
    exact h' hc

theorem does_respond (status reason : Bytes) (data arrayData : List (Bytes × Bytes))
    (h : ∀ p d, P p → Q (p.updateSession r.sid (Session.respond d))) :
    Does r P (r.respond status reason data arrayData) Q :=
  does_modify fun p hp => ⟨.respond p _, h p _ hp⟩

theorem does_report (rc : Bool) (failure : Bytes) :
    Does r (fun _ => True) (r.report rc failure) (fun _ => True) := by
  unfold Request.report
  apply does_ite <;> intro _ <;> exact does_respond _ _ _ _ fun _ _ h => h

/-- The session may perform actions of this level. -/
def Allowed (sid : ℕ) (level : ℤ) (p : Plugin) : Prop :=
  ∃ s, p.sessions sid = some s ∧ s.authorized = true ∧ level ≤ s.authorizationLevel

theorem does_perform (action : Action) {level : ℤ} (hlevel : action.level = level)
    (hupload : ∀ name, action ≠ .uploadRequest name) :
    Does r (Allowed r.sid level) (r.perform action) (fun _ => True) := by
  unfold Request.perform
  have hrecord : Does r (Allowed r.sid level) (Handler.record (.performed r.sid action))
      (fun _ => True) := by
    apply does_modify
    rintro p ⟨s, hs, hauth, hle⟩
    exact ⟨.perform action hs hauth (hlevel.le.trans hle) hupload, trivial⟩
  exact hrecord.bind fun _ => does_orThrow fun _ h => h

theorem does_quiet {command : Handler Unit} (h : Does r P command Q) :
    Does r P (Request.quiet command) Q :=
  h.bind fun _ => does_pure _ fun _ h => h

theorem does_nothing {level : ℤ} (a : α) :
    Does r (Allowed r.sid level) (pure a : Handler α) (fun _ => True) :=
  does_pure a fun _ _ => trivial

theorem does_complaint {level : ℤ} (status reason : Bytes) (data arrayData : List (Bytes × Bytes)) :
    Does r (Allowed r.sid level) (r.respond status reason data arrayData) (fun _ => True) :=
  does_respond _ _ _ _ fun _ _ _ => trivial

theorem does_enable : Does r (Allowed r.sid ApplicationAdministrator) r.enable (fun _ => True) := by
  unfold Request.enable
  split
  · next plugin _ =>
    exact (does_perform (.enable plugin) rfl (by simp)).bind fun _ => does_pure _ fun _ h => h
  · exact does_nothing ()

theorem does_disable :
    Does r (Allowed r.sid ApplicationAdministrator) r.disable (fun _ => True) := by
  unfold Request.disable
  split
  · next plugin _ =>
    exact (does_perform (.disable plugin) rfl (by simp)).bind fun _ => does_pure _ fun _ h => h
  · exact does_nothing ()

theorem does_set : Does r (Allowed r.sid ApplicationAdministrator) r.set (fun _ => True) := by
  have haction : ∀ plugin key value, (r.setAction plugin key value).level =
      ApplicationAdministrator ∧ ∀ name, r.setAction plugin key value ≠ .uploadRequest name := by
    intro plugin key value
    unfold Request.setAction
    split_ifs
    · exact ⟨rfl, by simp⟩
    · exact ⟨rfl, by simp⟩
    · exact ⟨rfl, by simp⟩
  unfold Request.set
  split
  · next plugin key value _ _ _ =>
    obtain ⟨hlevel, hupload⟩ := haction plugin key value
    exact (does_perform _ hlevel hupload).bind fun _ => does_pure _ fun _ h => h
  · exact does_nothing ()

/-- A call of `TmxControl` whose result is reported. -/
theorem does_performReport (action : Action) {level : ℤ} (hlevel : action.level = level)
    (hupload : ∀ name, action ≠ .uploadRequest name) (failure : Bytes) :
    Does r (Allowed r.sid level) (r.perform action >>= fun rc => r.report rc failure)
      (fun _ => True) :=
  (does_perform action hlevel hupload).bind fun rc => does_report rc failure

theorem does_clearlog : Does r (Allowed r.sid SystemAdministrator) r.clearlog (fun _ => True) :=
  does_performReport .clearEventLog rfl (by simp) _

theorem does_userlist :
    Does r (Allowed r.sid SystemAdministrator) r.userlist (fun _ => True) := by
  unfold Request.userlist
  apply (does_perform .allUsersInfo rfl (by simp)).bind
  intro rc
  apply does_ite <;> intro _ <;> exact does_respond _ _ _ _ fun _ _ h => h

theorem does_useradd : Does r (Allowed r.sid SystemAdministrator) r.useradd (fun _ => True) := by
  unfold Request.useradd
  split
  · next username password accessLevel _ _ _ =>
    apply does_ite <;> intro _
    · exact does_performReport (.userAdd username password accessLevel) rfl (by simp) _
    · exact does_complaint _ _ _ _
  · exact does_complaint _ _ _ _

theorem does_userupdate :
    Does r (Allowed r.sid SystemAdministrator) r.userupdate (fun _ => True) := by
  unfold Request.userupdate
  split
  · exact does_complaint _ _ _ _
  · exact does_complaint _ _ _ _
  · next username _ _ =>
    apply does_ite <;> intro _
    · exact does_performReport (.userUpdate username (r.arg "password") (r.arg "accesslevel")) rfl
        (by simp) _
    · exact does_complaint _ _ _ _

theorem does_userdelete :
    Does r (Allowed r.sid SystemAdministrator) r.userdelete (fun _ => True) := by
  unfold Request.userdelete
  split
  · next username _ => exact does_performReport (.userDelete username) rfl (by simp) _
  · exact does_complaint _ _ _ _

theorem does_plugininstall :
    Does r (Allowed r.sid ApplicationAdministrator) r.plugininstall (fun _ => True) := by
  unfold Request.plugininstall
  split
  · next file _ =>
    exact does_performReport (.pluginInstall (r.env.downloadPath ++ cstr "/" ++ file)) rfl
      (by simp) _
  · exact does_nothing ()

theorem does_pluginuninstall :
    Does r (Allowed r.sid ApplicationAdministrator) r.pluginuninstall (fun _ => True) := by
  unfold Request.pluginuninstall
  split
  · next plugin _ => exact does_performReport (.pluginRemove plugin) rfl (by simp) _
  · exact does_nothing ()

theorem does_uploadfile :
    Does r (Allowed r.sid SystemAdministrator) r.uploadfile (fun _ => True) := by
  have hcomplain : ∀ reason state, Does r (Allowed r.sid SystemAdministrator)
      (r.respond (cstr "failed") reason state [] >>= fun _ => pure false) (fun _ => True) :=
    fun reason state => (does_complaint _ _ _ _).bind fun _ => does_pure _ fun _ h => h
  unfold Request.uploadfile
  split
  · next filename destinationFileName destinationPath fileSize _ _ _ _ =>
    apply does_ite <;> intro _
    · have herase : Does r (Allowed r.sid SystemAdministrator)
          (modify fun p => p.eraseOwn r.sid) (Allowed r.sid SystemAdministrator) :=
        does_modify fun p hp => ⟨.erase p, hp⟩
      apply herase.bind
      intro _
      cases stolDigits fileSize with
      | none => exact does_throw .stol
      | some size =>
        -- the entry and its event are one effect
        rintro p ⟨s, hs, hauth, hlevel⟩
        have hput := Effect.upload (r := r) filename
          (r.uploadData destinationFileName destinationPath size) hs hauth hlevel rfl
        refine ⟨(ReflTransGen.single hput).tail (Effect.respond _ _), fun _ _ => trivial⟩
    · exact hcomplain _ _
  · exact hcomplain _ _

/-- The session is not authorized, and the last thing that happened is this command. -/
def Asks (r : Request) (authorized : Bool) (p : Plugin) : Prop :=
  (∃ s, p.sessions r.sid = some s ∧ s.authorized = authorized) ∧
    ∃ before, p.events = before ++ [.command r.sid r.command r.args r.env.userTable]

theorem Asks.update {authorized authorized' : Bool} {p : Plugin} {f : Session → Session}
    (h : Asks r authorized p)
    (hf : ∀ s : Session, s.authorized = authorized → (f s).authorized = authorized') :
    Asks r authorized' (p.updateSession r.sid f) := by
  obtain ⟨⟨s, hs, hauth⟩, hevents⟩ := h
  exact ⟨⟨f s, by simp [hs], hf s hauth⟩, hevents⟩

theorem does_login (hcommand : r.command = cstr "login") :
    Does r (Asks r false) r.login (fun _ => True) := by
  unfold Request.login
  split
  · next user password huser hpassword =>
    apply does_ite <;> intro _
    · split
      · next row hrow =>
        obtain ⟨hmem, hrecord⟩ : row ∈ r.env.userTable ∧ Request.isRecordOf user password row := by
          refine ⟨?_, List.find?_some hrow⟩
          exact (List.mem_filter.mp (List.mem_of_find?_eq_some hrow)).1
        obtain ⟨hname, hword⟩ : row.username = user ∧ row.password = password := by
          simpa [Request.isRecordOf] using hrecord
        have hrespond : Does r (Asks r false)
            (r.respond (cstr "success") [] [(cstr "level", row.accessLevel)] []) (Asks r false) :=
          does_respond _ _ _ _ fun p d hp => hp.update fun _ h => h
        have hauthorize : Does r (Asks r false) (Handler.update r.sid Session.authorize)
            (Asks r true) := by
          apply does_modify
          intro p hp
          obtain ⟨s, hs, hauth⟩ := hp.1
          exact ⟨.authorize hs hauth, hp.update fun _ _ => rfl⟩
        apply hrespond.bind
        intro _
        apply hauthorize.bind
        intro _
        cases hlevel : stoi row.accessLevel with
        | none => exact does_throw .stoi
        | some level =>
          apply does_modify
          rintro p ⟨⟨s, hs, hauth⟩, before, hevents⟩
          rw [hcommand] at hevents
          exact ⟨.setLevel hs hauth hevents hmem (huser.trans (by rw [hname]))
            (hpassword.trans (by rw [hword])) hlevel, trivial⟩
      · exact does_respond _ _ _ _ fun _ _ _ => trivial
    · exact does_respond _ _ _ _ fun _ _ _ => trivial
  · exact does_pure _ fun _ _ => trivial

/-- Every command but a logout does its effects only, at its level. -/
theorem does_executeAuthorized {level : ℤ} (h : r.command ≠ cstr "logout") :
    Does r (Allowed r.sid level) (r.executeAuthorized level) (fun _ => True) := by
  have hweaken : ∀ {needed : ℤ} {prog : Handler Bool}, level ≥ needed →
      Does r (Allowed r.sid needed) prog (fun _ => True) →
      Does r (Allowed r.sid level) prog (fun _ => True) := by
    rintro needed prog hle hprog p ⟨s, hs, hauth, hlevel⟩
    exact hprog p ⟨s, hs, hauth, le_trans hle hlevel⟩
  unfold Request.executeAuthorized
  apply does_ite (fun hc => hweaken hc.2 (does_quiet does_enable)) fun _ => ?_
  apply does_ite (fun hc => hweaken hc.2 (does_quiet does_disable)) fun _ => ?_
  apply does_ite (fun hc => hweaken hc.2 (does_quiet does_set)) fun _ => ?_
  apply does_ite (fun hc => absurd hc h) fun _ => ?_
  apply does_ite (fun hc => hweaken hc.2 (does_quiet does_clearlog)) fun _ => ?_
  apply does_ite (fun hc => hweaken hc.2 (does_quiet does_userlist)) fun _ => ?_
  apply does_ite (fun hc => hweaken hc.2 (does_quiet does_useradd)) fun _ => ?_
  apply does_ite (fun hc => hweaken hc.2 (does_quiet does_userupdate)) fun _ => ?_
  apply does_ite (fun hc => hweaken hc.2 (does_quiet does_userdelete)) fun _ => ?_
  apply does_ite (fun hc => hweaken hc.2 does_uploadfile) fun _ => ?_
  apply does_ite (fun hc => hweaken hc.2 (does_quiet does_plugininstall)) fun _ => ?_
  apply does_ite (fun hc => hweaken hc.2 (does_quiet does_pluginuninstall)) fun _ => ?_
  exact does_nothing false

theorem executeAuthorized_logout {level : ℤ} (h : r.command = cstr "logout") :
    r.executeAuthorized level = Request.quiet r.logout := by
  have hne : ∀ text : String, cstr "logout" ≠ cstr text → r.command ≠ cstr text :=
    fun text htext => h ▸ htext
  unfold Request.executeAuthorized
  rw [if_neg fun hc => hne "enable" (by decide) hc.1,
    if_neg fun hc => hne "disable" (by decide) hc.1,
    if_neg fun hc => hne "set" (by decide) hc.1, if_pos h]

/-- All that the handler does once it has read a command of an open session. -/
theorem execute_executes {p : Plugin} {s : Session} (hs : p.sessions r.sid = some s) :
    Executes r p (r.execute p).2 := by
  have hsession : ∀ f : Session → Handler Bool,
      (Handler.session r.sid >>= f)
        (p.record (.command r.sid r.command r.args r.env.userTable)) =
      f s (p.record (.command r.sid r.command r.args r.env.userTable)) := by
    intro f
    simp [Handler.session, bind_run, hs, deref]
  have hexecute : r.execute p =
      (if s.authorized then r.executeAuthorized s.authorizationLevel
        else if r.command = cstr "login" then Request.quiet r.login else pure false)
        (p.record (.command r.sid r.command r.args r.env.userTable)) := by
    unfold Request.execute
    rw [bind_run]
    exact hsession _
  rw [hexecute]
  cases hauth : s.authorized with
  | true =>
    simp only [↓reduceIte]
    by_cases hlogout : r.command = cstr "logout"
    · rw [executeAuthorized_logout hlogout]
      exact .logout _ hs hauth hlogout
    · exact .effects hs (fun _ => hlogout)
        (does_executeAuthorized hlogout (p.record _) ⟨s, hs, hauth, le_rfl⟩).1
  | false =>
    simp only [Bool.false_eq_true, ↓reduceIte]
    apply Executes.effects hs (by simp [hauth])
    have hasks : Asks r false (p.record (.command r.sid r.command r.args r.env.userTable)) :=
      ⟨⟨s, hs, hauth⟩, p.events, rfl⟩
    by_cases hlogin : r.command = cstr "login"
    · rw [if_pos hlogin]
      exact (does_quiet (does_login hlogin) _ hasks).1
    · rw [if_neg hlogin]
      exact ReflTransGen.refl

end Does

section Handling
open Program

theorem orThrow_bind {α β : Type} (e : Failure) (o : Option α) (f : α → Handler β) (p : Plugin) :
    (Handler.orThrow e o >>= f) p = match o with
      | some a => f a p
      | none => (.throws e, p) := by
  cases o <;> rfl

/-- Reading a message changes nothing until a command is found in it. -/
theorem processMessage_cases (env : Env) (sid : ℕ) (text : Bytes) (p : Plugin) :
    (processMessage env sid text p).2 = p ∨
      ∃ r : Request, r.sid = sid ∧ r.env = env ∧ processMessage env sid text p = r.execute p := by
  unfold processMessage
  simp only [orThrow_bind]
  split
  · split
    · split
      · split
        · split_ifs
          · simp only [orThrow_bind]
            split
            · split
              · split
                · exact Or.inr ⟨⟨env, sid, _, _, _⟩, rfl, rfl, rfl⟩
                · exact Or.inl rfl
              · exact Or.inl rfl
            · exact Or.inl rfl
          · exact Or.inl rfl
        · exact Or.inl rfl
      · exact Or.inl rfl
    · exact Or.inl rfl
  · exact Or.inl rfl

theorem handle_snd (env : Env) (sid : ℕ) (text : Bytes) (p : Plugin) :
    (handle env sid text p).2 = (processMessage env sid text (p.record (.handled sid text))).2 := by
  show (Program.tryCatch _ _ _ (p.record (.handled sid text))).2 = _
  unfold Program.tryCatch
  rcases processMessage env sid text (p.record (.handled sid text)) with ⟨a | e | _, q⟩ <;> rfl

/-- What a run of the handler leaves behind: its own event, and all that a command does. -/
theorem handle_cases {p : Plugin} {sid : ℕ} {s : Session} (env : Env) (text : Bytes)
    (hs : p.sessions sid = some s) :
    (handle env sid text p).2 = p.record (.handled sid text) ∨
      ∃ r : Request, r.sid = sid ∧
        Executes r (p.record (.handled sid text)) (handle env sid text p).2 := by
  rw [handle_snd]
  rcases processMessage_cases env sid text (p.record (.handled sid text)) with h | ⟨r, rfl, -, h⟩
  · exact Or.inl h
  · rw [h]
    exact Or.inr ⟨r, rfl, execute_executes hs⟩

end Handling

end V2IHub.Command
