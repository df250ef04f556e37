import V2IHub.Map.MapPlugin

/-! The loop of `MapPlugin` and the receiver, interleaved: when new map files are loaded. -/
namespace V2IHub.Map
open Foundation Messages

namespace MapFile

def getBytes (mapFile : MapFile) : Bytes := (mapFile.contents.dataAt [cstr "Bytes"]).getD []

def getInputType (mapFile : MapFile) : Bytes :=
  (mapFile.contents.dataAt [cstr "InputType"]).getD []

def setBytes (mapFile : MapFile) (bytes : Bytes) : MapFile :=
  ⟨mapFile.contents.put [cstr "Bytes"] bytes⟩

end MapFile

/-- What comes of converting the file of a map. -/
inductive Conversion where
  | encoded (payload : Bytes)
  | unread
  | failed

/-- The loop of `LoadMapFiles`, and what it returns. -/
def loadLoop (convert : MapFile → Conversion) : List (ℤ × MapFile) → Bool × List (ℤ × MapFile)
  | [] => (true, [])
  | e :: rest =>
    if e.2.getBytes = [] ∧ e.2.getInputType = [] then
      match convert e.2 with
      | .failed => (false, e :: rest)
      | .unread => ((loadLoop convert rest).1, e :: (loadLoop convert rest).2)
      | .encoded payload =>
        ((loadLoop convert rest).1, (e.1, e.2.setBytes payload) :: (loadLoop convert rest).2)
    else ((loadLoop convert rest).1, e :: (loadLoop convert rest).2)

theorem loadLoop_keys (convert : MapFile → Conversion) (entries : List (ℤ × MapFile)) :
    (loadLoop convert entries).2.map Prod.fst = entries.map Prod.fst := by
  induction entries with
  | nil => rfl
  | cons e rest ih =>
    unfold loadLoop
    split_ifs with hmissing
    · cases convert e.2 with
      | failed => rfl
      | unread => simp [ih]
      | encoded payload => simp [ih]
    · simp [ih]

/-- Where `Main` is in its loop. -/
inductive MainAt where
  | readNew
  | checkEmpty
  | load
  | clearNew
  | readAction
  | fetch (temp : ℤ)
  | send
deriving DecidableEq

/-- The two threads. The receiver has an action that it will look up, or nothing to do, and
`waiting` are the actions of the latest configuration that no `LoadMapFiles` has run for. -/
structure System where
  plugin : MapPlugin
  main : MainAt
  mapFilesOk : Bool
  activeAction : ℤ
  receiver : Option ℤ
  waiting : List ℤ

/-- A step of `Main`, with what the conversion of a file and the making of a message come to there,
or of the receiver. -/
inductive Step where
  | main (convert : MapFile → Conversion) (made : Bool)
  | configure (rawMapFiles : PTree)
  | action (action : ℤ)
  | lookup

namespace System

def new : System := ⟨.new, .readNew, false, -1, none, []⟩

/-- The section of `LoadMapFiles`. -/
def loadMapFiles (s : System) (convert : MapFile → Conversion) : System :=
  { s with
    plugin := { s.plugin with
      _mapFiles := s.plugin._mapFiles.replace (loadLoop convert s.plugin._mapFiles.entries).2
        (loadLoop_keys _ _) }
    mapFilesOk := (loadLoop convert s.plugin._mapFiles.entries).1
    main := .clearNew
    waiting := [] }

/-- The section that gets the message of a new action; the map is made if it is not there. -/
def fetch (s : System) (temp : ℤ) (made : Bool) : System :=
  let mapFile := (s.plugin._mapFiles.find temp).getD ⟨.empty⟩
  let s := { s with
    plugin := { s.plugin with _mapFiles := s.plugin._mapFiles.insert temp mapFile } }
  if mapFile.getBytes = [] then { s with main := .send }
  else if made then { s with activeAction := temp, main := .send }
  else { s with main := .readNew }

def mainStep (s : System) (convert : MapFile → Conversion) (made : Bool) : System :=
  match s.main with
  | .readNew =>
    if s.plugin._isMapFileNew then { s with activeAction := -1, main := .checkEmpty }
    else { s with main := .readAction }
  | .checkEmpty =>
    if s.plugin._mapFiles.entries = [] then { s with mapFilesOk := false, main := .clearNew }
    else { s with main := .load }
  | .load => s.loadMapFiles convert
  | .clearNew =>
    { s with plugin := { s.plugin with _isMapFileNew := false }, main := .readAction }
  | .readAction =>
    let temp := s.plugin._mapAction
    if temp < 0 then { s with main := .readNew }
    else if temp ≠ s.activeAction then { s with main := .fetch temp }
    else { s with main := .send }
  | .fetch temp => s.fetch temp made
  | .send => { s with main := .readNew }

/-- The section of `UpdateConfigSettings`. -/
def configure (s : System) (rawMapFiles : PTree) : System :=
  { s with
    plugin := s.plugin.installMapFiles rawMapFiles
    waiting := actions (readable (getMapFiles rawMapFiles)) }

/-- The section of `OnMessageReceived`. -/
def lookup (s : System) (action : ℤ) : System :=
  if s.plugin._mapFiles.find action = none then { s with receiver := none }
  else
    { s with
      plugin := { s.plugin with
        _isMapFileNew := s.plugin._mapAction ≠ action
        _mapAction := action }
      receiver := none }

def step (s : System) : Step → Option System
  | .main convert made => some (s.mainStep convert made)
  | .configure rawMapFiles =>
    if s.receiver = none ∧ rawMapFiles.children ≠ [] then some (s.configure rawMapFiles) else none
  | .action action =>
    if s.receiver = none then
      some { s with receiver := if action ≠ s.plugin._mapAction then some action else none }
    else none
  | .lookup => s.receiver.map s.lookup

def machine : Machine System Step := ⟨step⟩

/-- No map of the latest configuration waits to be loaded while the flag is down. -/
def Remembers (s : System) : Prop :=
  ¬ (s.plugin._isMapFileNew = false ∧ ∃ action ∈ s.waiting, (s.plugin._mapFiles.find action).isSome)

/-- No configuration with a map is installed between a `LoadMapFiles` and the clearing of the flag
after it. -/
def Apart (s : System) : Step → Prop
  | .configure rawMapFiles =>
    s.main = .clearNew → actions (readable (getMapFiles rawMapFiles)) = []
  | _ => True

/-- What the runs keep. -/
structure Inv (s : System) : Prop where
  found : ∀ action ∈ s.waiting, (s.plugin._mapFiles.find action).isSome
  flagged : s.waiting ≠ [] → s.plugin._isMapFileNew = true ∧ s.main ≠ .clearNew
  other : ∀ action ∈ s.receiver, action ≠ s.plugin._mapAction

section Steps
variable {s t : System}

/-- What `Main` does to the plugin outside its loads: no map goes away, the active action stays,
and the flag only goes down behind a load. -/
theorem Inv.of_main (h : Inv s) (hfind : ∀ action, (s.plugin._mapFiles.find action).isSome →
      (t.plugin._mapFiles.find action).isSome)
    (haction : t.plugin._mapAction = s.plugin._mapAction) (hreceiver : t.receiver = s.receiver)
    (hwaiting : t.waiting = s.waiting)
    (hflag : s.waiting ≠ [] → t.plugin._isMapFileNew = true ∧ t.main ≠ .clearNew) : Inv t where
  found := by
    rw [hwaiting]
    exact fun action hmem => hfind action (h.found action hmem)
  flagged := by
    rw [hwaiting]
    exact hflag
  other := by
    rw [hreceiver, haction]
    exact h.other

theorem Inv.loadMapFiles (h : Inv s) (convert : MapFile → Conversion) :
    Inv (s.loadMapFiles convert) where
  found action hmem := absurd hmem (by simp [System.loadMapFiles])
  flagged hne := absurd rfl hne
  other := h.other

theorem Inv.fetch (h : Inv s) (temp : ℤ) (made : Bool) :
    Inv (s.fetch temp made) := by
  have hfind : ∀ action value, (s.plugin._mapFiles.find action).isSome →
      ((s.plugin._mapFiles.insert temp value).find action).isSome := by
    intro action value hsome
    rw [OrderedMap.find_insert]
    split_ifs
    · rfl
    · exact hsome
  unfold System.fetch
  simp only
  split_ifs
  all_goals
    refine h.of_main (fun action => hfind action _) rfl rfl rfl fun hne => ⟨?_, ?_⟩
    · exact (h.flagged hne).1
    · simp

theorem Inv.mainStep (h : Inv s) (convert : MapFile → Conversion) (made : Bool) :
    Inv (s.mainStep convert made) := by
  have hkeep : ∀ action, (s.plugin._mapFiles.find action).isSome →
      (s.plugin._mapFiles.find action).isSome := fun _ hsome => hsome
  unfold System.mainStep
  cases hmain : s.main with
  | readNew =>
    simp only
    split_ifs with hnew
    · exact h.of_main hkeep rfl rfl rfl fun hne => ⟨hnew, by simp⟩
    · exact h.of_main hkeep rfl rfl rfl fun hne => absurd (h.flagged hne).1 hnew
  | checkEmpty =>
    simp only
    split_ifs with hempty
    · refine h.of_main hkeep rfl rfl rfl fun hne => ?_
      obtain ⟨action, hmem⟩ := List.exists_mem_of_ne_nil _ hne
      have hfound := h.found action hmem
      rw [OrderedMap.isSome_find_iff, hempty] at hfound
      simp at hfound
    · exact h.of_main hkeep rfl rfl rfl fun hne => ⟨(h.flagged hne).1, by simp⟩
  | load => exact h.loadMapFiles convert
  | clearNew => exact h.of_main hkeep rfl rfl rfl fun hne => absurd hmain (h.flagged hne).2
  | readAction =>
    simp only
    split_ifs
    all_goals exact h.of_main hkeep rfl rfl rfl fun hne => ⟨(h.flagged hne).1, by simp⟩
  | fetch temp => exact h.fetch temp made
  | send => exact h.of_main hkeep rfl rfl rfl fun hne => ⟨(h.flagged hne).1, by simp⟩

theorem Inv.configure {rawMapFiles : PTree} (hreceiver : s.receiver = none)
    (hguard : s.Apart (.configure rawMapFiles)) : Inv (s.configure rawMapFiles) := by
  have hinstalls := installMapFiles_installs s.plugin rawMapFiles
  constructor
  · exact fun action hmem => (hinstalls.find action).mpr hmem
  · intro hne
    refine ⟨?_, fun hmain => hne (hguard hmain)⟩
    simp only [System.configure] at hne
    simp [System.configure, hinstalls._isMapFileNew, hne]
  · intro action hmem
    simp [System.configure, hreceiver] at hmem

theorem Inv.lookup (h : Inv s) {action : ℤ} (hreceiver : s.receiver = some action) :
    Inv (s.lookup action) := by
  have hother := h.other action hreceiver
  unfold System.lookup
  split_ifs with hnone
  · exact ⟨h.found, h.flagged, by simp⟩
  · refine ⟨h.found, fun hne => ⟨?_, (h.flagged hne).2⟩, by simp⟩
    simp [Ne.symm hother]

theorem step_inv {a : Step} (h : Inv s) (hguard : s.Apart a) (hstep : s.step a = some t) :
    Inv t := by
  cases a with
  | main convert made =>
    obtain rfl : s.mainStep convert made = t := by simpa [step] using hstep
    exact h.mainStep convert made
  | configure rawMapFiles =>
    simp only [step] at hstep
    split_ifs at hstep with hidle
    obtain rfl : s.configure rawMapFiles = t := by simpa using hstep
    exact .configure hidle.1 hguard
  | action action =>
    simp only [step] at hstep
    split_ifs at hstep with hidle hsame
    all_goals
      obtain rfl := Option.some.inj hstep
      refine ⟨h.found, h.flagged, ?_⟩
    · simpa using hsame
    · simp
  | lookup =>
    obtain ⟨action, hreceiver, rfl⟩ := Option.map_eq_some_iff.mp hstep
    exact h.lookup hreceiver

theorem Inv.remembers (h : Inv s) : s.Remembers := by
  rintro ⟨hflag, action, hmem, -⟩
  have hup := (h.flagged (List.ne_nil_of_mem hmem)).1
  rw [hflag] at hup
  simp at hup

theorem Inv.new : Inv new := ⟨by simp [System.new], by simp [System.new], by simp [System.new]⟩

/-- A configuration between a load and the clearing of the flag is forgotten. -/
theorem clear_forgets {rawMapFiles : PTree} (hmain : s.main = .clearNew)
    (hne : actions (readable (getMapFiles rawMapFiles)) ≠ []) (convert : MapFile → Conversion)
    (made : Bool) : ¬ ((s.configure rawMapFiles).mainStep convert made).Remembers := by
  obtain ⟨action, hmem⟩ := List.exists_mem_of_ne_nil _ hne
  have hfind := ((installMapFiles_installs s.plugin rawMapFiles).find action).mpr hmem
  have hmain' : (s.configure rawMapFiles).main = .clearNew := hmain
  intro h
  apply h
  simp only [System.mainStep, hmain']
  exact ⟨trivial, action, hmem, hfind⟩

end Steps

/-- No run forgets a map where every configuration is installed apart from the clearing of the
flag. -/
theorem run_remembers {steps : List Step} {s : System} (ho : machine.Obeys Apart new steps)
    (hr : machine.run new steps = some s) : s.Remembers := by
  have hstep : ∀ u a v, Inv u → u.Apart a → machine.step u a = some v → Inv v :=
    fun _ _ _ hu hguard hv => step_inv hu hguard hv
  have hs : Inv s := Machine.obeys_invariant hstep .new ho hr
  exact hs.remembers

/-- One map, for action 0. -/
def sampleMapFiles : PTree :=
  .node [] [(cstr "MapFiles", .node [] [([], .node [] [(cstr "Action", .node (cstr "0") []),
    (cstr "FilePath", .node (cstr "a.xml") [])])])]

def sampleMain : Step := .main (fun _ => .encoded (cstr "00")) true

/-- The flag is read, the map is there, and it is loaded. -/
def sampleLoad : List Step := [.configure sampleMapFiles, sampleMain, sampleMain, sampleMain]

/-- The flag is cleared, and the next configuration is one more. -/
theorem run_remembers_sample :
    ∃ s, machine.run new (sampleLoad ++ [sampleMain, .configure sampleMapFiles]) = some s ∧
      s.Remembers ∧ s.waiting = [0] := by
  have ho : machine.Obeys Apart new (sampleLoad ++ [sampleMain, .configure sampleMapFiles]) := by
    refine ⟨?_, trivial, trivial, trivial, trivial, ?_, trivial⟩
    all_goals exact fun h => absurd h (by decide)
  exact ⟨_, rfl, run_remembers ho rfl, rfl⟩

/-- The next configuration comes before the flag is cleared. -/
theorem remembers_fails :
    ∃ s, machine.run new (sampleLoad ++ [.configure sampleMapFiles, sampleMain]) = some s ∧
      ¬ s.Remembers := by
  refine ⟨_, rfl, ?_⟩
  apply clear_forgets <;> decide

end System
end V2IHub.Map
