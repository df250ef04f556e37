import V2IHub.Map.Reload

/-! What `LoadMapFiles` leaves in the map files, and the message that `Main` sends after it. -/
namespace V2IHub.Map
open Foundation Messages

def MapFile.getFilePath (mapFile : MapFile) : Bytes :=
  (mapFile.contents.dataAt [cstr "FilePath"]).getD []

/-- The values of `inType`. -/
inductive InType where
  | isd
  | txt
  | xml

/-- The end of the file name, where `none` is the exception of `substr` on a short one. -/
def inTypeOf (fn : Bytes) : Option InType :=
  if fn.length < 5 then none
  else if fn.drop (fn.length - 5) = cstr ".json" then some .isd
  else if fn.drop (fn.length - 4) = cstr ".txt" then some .txt
  else some .xml

/-- The text of an encoded map. -/
abbrev Payload := {bytes : Bytes // bytes ≠ []}

/-- What an XML file comes to: one with a `MapData` is encoded, any other goes through
`ReadGidFile`, `convertMap` and `NewMessage`. -/
inductive XmlResult where
  | exception
  | mapData (payload : Payload)
  | notRead
  | notEncoded
  | noMessage
  | message (payload : Payload)

/-- The files as the converters see them, where `none` is an exception. -/
structure Conversions where
  isd : Bytes → Option Payload
  txt : Bytes → Option Payload
  xml : Bytes → XmlResult

def XmlResult.conversion : XmlResult → Conversion
  | .exception | .notEncoded | .noMessage => .failed
  | .notRead => .unread
  | .mapData payload | .message payload => .encoded payload

/-- The `try` block of `LoadMapFiles`. -/
def Conversions.convert (c : Conversions) (mapFile : MapFile) : Conversion :=
  let fn := mapFile.getFilePath
  let encoded : Option Payload → Conversion := fun r => r.elim .failed fun p => .encoded p
  match inTypeOf fn with
  | none => .failed
  | some .isd => encoded (c.isd fn)
  | some .txt => encoded (c.txt fn)
  | some .xml => (c.xml fn).conversion

/-- `LoadMapFiles` where no other thread has a section of its own in between. -/
def MapPlugin.loadMapFiles (s : MapPlugin) (c : Conversions) : Bool × MapPlugin :=
  if s._mapFiles.entries = [] then (false, s)
  else ((loadLoop c.convert s._mapFiles.entries).1,
    { s with
      _mapFiles := s._mapFiles.replace (loadLoop c.convert s._mapFiles.entries).2
        (loadLoop_keys _ _) })

/-- The map file gets its bytes from its file. -/
def MapFile.Converts (mapFile : MapFile) : Prop :=
  mapFile.getBytes = [] ∧ mapFile.getInputType = []

def AllFilled (entries : List (ℤ × MapFile)) : Prop := ∀ e ∈ entries, e.2.getBytes ≠ []

/-- Some file that is converted fails, or every map without bytes has no input type and is not one
that `ReadGidFile` gives up. -/
def LoadsAll (c : Conversions) (entries : List (ℤ × MapFile)) : Prop :=
  (∃ e ∈ entries, e.2.Converts ∧ c.convert e.2 = .failed) ∨
    ∀ e ∈ entries, e.2.getBytes = [] → e.2.getInputType = [] ∧ c.convert e.2 ≠ .unread

section Loading
variable {c : Conversions} {entries : List (ℤ × MapFile)}

theorem MapFile.getBytes_setBytes (mapFile : MapFile) (bytes : Bytes) :
    (mapFile.setBytes bytes).getBytes = bytes := by
  simp [setBytes, getBytes, PTree.dataAt_put_self]

theorem Conversions.encoded_ne_nil {mapFile : MapFile} {payload : Bytes}
    (h : c.convert mapFile = .encoded payload) : payload ≠ [] := by
  have hencoded : ∀ r : Option Payload,
      r.elim Conversion.failed (fun p => .encoded p) = .encoded payload → payload ≠ [] := by
    intro r hr
    cases r with
    | none => simp at hr
    | some p =>
      obtain rfl : p.1 = payload := by simpa using hr
      exact p.2
  unfold convert at h
  cases hin : inTypeOf mapFile.getFilePath with
  | none => simp [hin] at h
  | some inType =>
    cases inType with
    | isd => exact hencoded (c.isd mapFile.getFilePath) (by simpa [hin] using h)
    | txt => exact hencoded (c.txt mapFile.getFilePath) (by simpa [hin] using h)
    | xml =>
      simp only [hin] at h
      cases hxml : c.xml mapFile.getFilePath with
      | exception => simp [hxml, XmlResult.conversion] at h
      | notRead => simp [hxml, XmlResult.conversion] at h
      | notEncoded => simp [hxml, XmlResult.conversion] at h
      | noMessage => simp [hxml, XmlResult.conversion] at h
      | mapData p =>
        obtain rfl : p.1 = payload := by simpa [hxml, XmlResult.conversion] using h
        exact p.2
      | message p =>
        obtain rfl : p.1 = payload := by simpa [hxml, XmlResult.conversion] using h
        exact p.2

/-- The loop comes to its end when no conversion fails. -/
theorem loadLoop_fst (convert : MapFile → Conversion) (entries : List (ℤ × MapFile)) :
    (loadLoop convert entries).1 = true ↔ ∀ e ∈ entries, e.2.Converts → convert e.2 ≠ .failed := by
  induction entries with
  | nil => simp [loadLoop]
  | cons e rest ih =>
    rw [List.forall_mem_cons, ← ih]
    rw [loadLoop, MapFile.Converts]
    split_ifs with hmissing
    · cases hconvert : convert e.2 with
      | failed => simp [hmissing]
      | unread => simp
      | encoded payload => simp
    · simp [hmissing]

/-- A loop that comes to its end passes over what has an input type and over what was not read. -/
theorem allFilled_loadLoop_iff (h : (loadLoop c.convert entries).1 = true) :
    AllFilled (loadLoop c.convert entries).2 ↔ ∀ e ∈ entries, e.2.getBytes = [] →
      e.2.getInputType = [] ∧ c.convert e.2 ≠ .unread := by
  induction entries with
  | nil => simp [loadLoop, AllFilled]
  | cons e rest ih =>
    have hrest : (loadLoop c.convert rest).1 = true := by
      rw [loadLoop_fst] at h ⊢
      exact fun e' he' => h e' (List.mem_cons_of_mem _ he')
    have hhead := (loadLoop_fst c.convert (e :: rest)).mp h e List.mem_cons_self
    rw [List.forall_mem_cons, ← ih hrest]
    rw [loadLoop]
    by_cases hmissing : e.2.getBytes = [] ∧ e.2.getInputType = []
    · rw [if_pos hmissing]
      cases hconvert : c.convert e.2 with
      | failed => exact absurd hconvert (hhead hmissing)
      | unread => simp [AllFilled, hmissing]
      | encoded payload =>
        simp [AllFilled, hmissing, MapFile.getBytes_setBytes, c.encoded_ne_nil hconvert]
    · rw [if_neg hmissing]
      simp only [AllFilled, List.forall_mem_cons]
      refine and_congr_left fun _ => ?_
      constructor
      · exact fun hfilled hempty => absurd hempty hfilled
      · exact fun hload hempty => hmissing ⟨hempty, (hload hempty).1⟩

/-- What the loop does not promise, and so when it does promise it. -/
theorem loadLoop_fills_iff (c : Conversions) (entries : List (ℤ × MapFile)) :
    ((loadLoop c.convert entries).1 = true → AllFilled (loadLoop c.convert entries).2) ↔
      LoadsAll c entries := by
  unfold LoadsAll
  by_cases hdone : (loadLoop c.convert entries).1 = true
  · have hnone := (loadLoop_fst c.convert entries).mp hdone
    rw [← allFilled_loadLoop_iff hdone]
    simp only [hdone, true_imp_iff]
    constructor
    · exact Or.inr
    · rintro (⟨e, hmem, hconverts, hfailed⟩ | hfilled)
      · exact absurd hfailed (hnone e hmem hconverts)
      · exact hfilled
  · have hsome := mt (loadLoop_fst c.convert entries).mpr hdone
    push Not at hsome
    exact iff_of_true (fun h => absurd h hdone) (.inl hsome)

theorem loadMapFiles_fills_iff (s : MapPlugin) (c : Conversions) :
    ((s.loadMapFiles c).1 = true → AllFilled (s.loadMapFiles c).2._mapFiles.entries) ↔
      LoadsAll c s._mapFiles.entries := by
  unfold MapPlugin.loadMapFiles
  split_ifs with hempty
  · simp [hempty, LoadsAll]
  · exact loadLoop_fills_iff c s._mapFiles.entries

end Loading

section Action
variable {s : MapPlugin} {rawMapFiles : PTree}

/-- An action that is set has a map. -/
def MapPlugin.HasAction (s : MapPlugin) : Prop :=
  0 ≤ s._mapAction → (s._mapFiles.find s._mapAction).isSome

theorem repairAction_hasAction (s : MapPlugin) : s.repairAction.HasAction := by
  have hfirst : ∀ e entries, s._mapFiles.entries = e :: entries →
      (s._mapFiles.find e.1).isSome := by
    intro e entries hentries
    rw [OrderedMap.isSome_find_iff, hentries]
    simp
  unfold MapPlugin.repairAction
  by_cases hlost : s._mapFiles.find s._mapAction = none
  · simp only [hlost, ↓reduceIte]
    cases hentries : s._mapFiles.entries with
    | nil => exact fun h => absurd h (by simp)
    | cons e entries => exact fun _ => hfirst e entries hentries
  · simp only [hlost, ↓reduceIte]
    have hkept := Option.isSome_iff_ne_none.mpr hlost
    cases hentries : s._mapFiles.entries with
    | nil => exact fun _ => hkept
    | cons e entries =>
      by_cases hunset : s._mapAction < 0
      · simp only [hunset, ↓reduceIte]
        exact fun _ => hfirst e entries hentries
      · simp only [hunset, ↓reduceIte]
        exact fun _ => hkept

/-- The reading of the map files ends, or it stops where the action has no map any more or keeps
its own. -/
def KeepsAction (mapAction : ℤ) (mapFiles : List MapFile) : Prop :=
  (∀ f ∈ mapFiles, f.getAction.isSome) ∨ mapAction < 0 ∨ mapAction ∈ actions (readable mapFiles)

theorem installMapFiles_hasAction (h : KeepsAction s._mapAction (getMapFiles rawMapFiles)) :
    (s.installMapFiles rawMapFiles).HasAction := by
  have hfind := (installMapFiles_installs s rawMapFiles).find
  have hdone := addMapFiles_done (getMapFiles rawMapFiles) { s with _mapFiles := .empty }
  have hkept :=
    (addMapFiles_adds (getMapFiles rawMapFiles) { s with _mapFiles := .empty })._mapAction
  unfold MapPlugin.installMapFiles at hfind ⊢
  cases hadd : MapPlugin.addMapFiles (getMapFiles rawMapFiles) { s with _mapFiles := .empty } with
  | mk done t =>
    rw [hadd] at hdone hkept hfind
    cases done with
    | true => exact repairAction_hasAction t
    | false =>
      intro hset
      have haction : t._mapAction = s._mapAction := hkept
      rw [haction] at hset
      rcases h with hall | hunset | hmem
      · rw [List.all_eq_true.mpr hall] at hdone
        exact absurd hdone (by simp)
      · exact absurd hset (not_le.mpr hunset)
      · rw [haction]
        exact (hfind _).mpr hmem

end Action

/-- Between a load and the message of the pass. -/
def MainAt.behindLoad : MainAt → Bool
  | .clearNew | .readAction | .fetch _ => true
  | .readNew | .checkEmpty | .load | .send => false

/-- The threads, with the action whose message `Main` holds and the one of its pass. -/
structure Sender where
  system : System
  msg : Option ℤ
  temp : ℤ

namespace Sender

inductive Act where
  | main (c : Conversions) (made : Bool)
  | configure (rawMapFiles : PTree)
  | action (action : ℤ)
  | lookup

def Act.step : Act → Step
  | .main c made => .main c.convert made
  | .configure rawMapFiles => .configure rawMapFiles
  | .action a => .action a
  | .lookup => .lookup

def new : Sender := ⟨.new, none, -1⟩

/-- What a step of `Main` does to its message and to the action of its pass. -/
def mainStep (s : Sender) (made : Bool) (t : System) : Sender :=
  match s.system.main with
  | .readNew => ⟨t, if s.system.plugin._isMapFileNew then none else s.msg, s.temp⟩
  | .readAction => ⟨t, s.msg, s.system.plugin._mapAction⟩
  | .fetch temp =>
    let mapFile := (s.system.plugin._mapFiles.find temp).getD ⟨.empty⟩
    if mapFile.getBytes = [] then { s with system := t }
    else ⟨t, if made then some temp else none, s.temp⟩
  | .checkEmpty | .load | .clearNew | .send => { s with system := t }

def after (s : Sender) (t : System) : Act → Sender
  | .main _ made => s.mainStep made t
  | .configure _ | .action _ | .lookup => { s with system := t }

def step (s : Sender) (a : Act) : Option Sender :=
  (s.system.step a.step).map fun t => s.after t a

def machine : Machine Sender Act := ⟨step⟩

/-- No map is sent but that of the pass. -/
def SendsActive (s : Sender) : Prop :=
  s.system.main = .send → s.system.mapFilesOk = true → s.msg = some s.temp

/-- The maps are loaded with their bytes, a message that is not made leaves none behind, and what
is installed between a load and the message of its pass has its bytes. -/
def Allowed (s : Sender) : Act → Prop
  | .main c made =>
    (s.system.main = .load → LoadsAll c s.system.plugin._mapFiles.entries) ∧
      ∀ temp, s.system.main = .fetch temp → made = true ∨ s.system.activeAction < 0
  | .configure rawMapFiles =>
    KeepsAction s.system.plugin._mapAction (getMapFiles rawMapFiles) ∧
      (s.system.mapFilesOk = true → s.system.main.behindLoad = true →
        AllFilled (s.system.plugin.installMapFiles rawMapFiles)._mapFiles.entries ∧
        ∀ temp, s.system.main = .fetch temp → temp ∈ actions (readable (getMapFiles rawMapFiles)))
  | .action _ | .lookup => True

/-- What the runs keep. -/
structure Inv (s : Sender) : Prop where
  action : s.system.plugin.HasAction
  fetching : ∀ temp, s.system.main = .fetch temp → s.temp = temp ∧
    (s.system.mapFilesOk = true → (s.system.plugin._mapFiles.find temp).isSome)
  filled : s.system.mapFilesOk = true → AllFilled s.system.plugin._mapFiles.entries ∨
    s.system.plugin._isMapFileNew = true ∧ s.system.main.behindLoad = false
  message : 0 ≤ s.system.activeAction → s.msg = some s.system.activeAction
  sending : s.SendsActive
  other : ∀ action ∈ s.system.receiver, action ≠ s.system.plugin._mapAction

section Steps
variable {s t : Sender}

theorem Inv.new : Inv new where
  action h := absurd h (by simp [Sender.new, System.new, MapPlugin.new])
  fetching temp h := by simp [Sender.new, System.new] at h
  filled h := by simp [Sender.new, System.new] at h
  message h := absurd h (by simp [Sender.new, System.new])
  sending h := by simp [Sender.new, System.new] at h
  other := by simp [Sender.new, System.new]

theorem Inv.load (h : Inv s) {c : Conversions} (made : Bool) (hmain : s.system.main = .load)
    (hloads : LoadsAll c s.system.plugin._mapFiles.entries) :
    Inv (s.mainStep made (s.system.mainStep c.convert made)) := by
  simp only [Sender.mainStep, System.mainStep, hmain]
  refine ⟨?_, by simp [System.loadMapFiles], ?_, h.message, ?_, h.other⟩
  · intro hset
    have hfind := h.action hset
    rw [OrderedMap.isSome_find_iff] at hfind ⊢
    simpa [System.loadMapFiles, OrderedMap.replace, loadLoop_keys] using hfind
  · exact fun hok => .inl ((loadLoop_fills_iff c _).mpr hloads hok)
  · intro hsend
    simp [System.loadMapFiles] at hsend

theorem Inv.fetch (h : Inv s) {temp : ℤ} {c : Conversions} {made : Bool}
    (hmain : s.system.main = .fetch temp) (hmade : made = true ∨ s.system.activeAction < 0) :
    Inv (s.mainStep made (s.system.mainStep c.convert made)) := by
  obtain ⟨htemp, hfound⟩ := h.fetching temp hmain
  have haction : ∀ value, 0 ≤ s.system.plugin._mapAction →
      ((s.system.plugin._mapFiles.insert temp value).find s.system.plugin._mapAction).isSome := by
    intro value hset
    rw [OrderedMap.find_insert]
    split_ifs
    · rfl
    · exact h.action hset
  -- with the maps loaded, the entry that `operator[]` would add is there already
  have hkept : s.system.mapFilesOk = true →
      AllFilled (s.system.plugin._mapFiles.insert temp
        ((s.system.plugin._mapFiles.find temp).getD ⟨.empty⟩)).entries ∧
      ((s.system.plugin._mapFiles.find temp).getD ⟨.empty⟩).getBytes ≠ [] := by
    intro hok
    have hfilled : AllFilled s.system.plugin._mapFiles.entries := by
      rcases h.filled hok with hfilled | ⟨-, hbehind⟩
      · exact hfilled
      · simp [hmain, MainAt.behindLoad] at hbehind
    obtain ⟨mapFile, hfind⟩ := Option.isSome_iff_exists.mp (hfound hok)
    have hbytes : mapFile.getBytes ≠ [] := hfilled _ (OrderedMap.mem_entries_iff.mpr hfind)
    refine ⟨?_, by simpa [hfind] using hbytes⟩
    rintro ⟨action, value⟩ hmem
    rw [OrderedMap.mem_entries_iff, OrderedMap.find_insert, hfind, Option.getD_some] at hmem
    split_ifs at hmem with heq
    · obtain rfl := Option.some.inj hmem
      exact hbytes
    · exact hfilled _ (OrderedMap.mem_entries_iff.mpr hmem)
  simp only [Sender.mainStep, System.mainStep, System.fetch, hmain]
  split_ifs with hempty hnew
  · refine ⟨haction _, by simp, fun hok => .inl (hkept hok).1, h.message, ?_, h.other⟩
    exact fun _ hok => absurd hempty (hkept hok).2
  · refine ⟨haction _, by simp, fun hok => .inl (hkept hok).1, fun _ => rfl, ?_, h.other⟩
    exact fun _ _ => congrArg some htemp.symm
  · have hidle := hmade.resolve_left hnew
    refine ⟨haction _, by simp, fun hok => .inl (hkept hok).1, ?_, by simp [SendsActive], h.other⟩
    exact fun hset => absurd hset (not_le.mpr hidle)

theorem Inv.mainStep (h : Inv s) {c : Conversions} {made : Bool}
    (hguard : s.Allowed (.main c made)) :
    Inv (s.mainStep made (s.system.mainStep c.convert made)) := by
  cases hmain : s.system.main with
  | readNew =>
    simp only [Sender.mainStep, System.mainStep, hmain]
    by_cases hnew : s.system.plugin._isMapFileNew = true
    · simp only [hnew, ↓reduceIte]
      exact ⟨h.action, by simp, fun _ => .inr ⟨hnew, rfl⟩, fun hset => absurd hset (by simp),
        by simp [SendsActive], h.other⟩
    · simp only [hnew, Bool.false_eq_true, ↓reduceIte]
      refine ⟨h.action, by simp, fun hok => .inl ?_, h.message, by simp [SendsActive], h.other⟩
      exact (h.filled hok).resolve_right fun hup => hnew hup.1
  | checkEmpty =>
    simp only [Sender.mainStep, System.mainStep, hmain]
    split_ifs with hempty
    · exact ⟨h.action, by simp, by simp, h.message, by simp [SendsActive], h.other⟩
    · refine ⟨h.action, by simp, fun hok => ?_, h.message, by simp [SendsActive], h.other⟩
      exact (h.filled hok).imp_right fun hup => ⟨hup.1, rfl⟩
  | load => exact h.load made hmain (hguard.1 hmain)
  | clearNew =>
    simp only [Sender.mainStep, System.mainStep, hmain]
    refine ⟨h.action, by simp, fun hok => .inl ?_, h.message, by simp [SendsActive], h.other⟩
    exact (h.filled hok).resolve_right fun hup => by simp [hmain, MainAt.behindLoad] at hup
  | readAction =>
    have hfilled : s.system.mapFilesOk = true → AllFilled s.system.plugin._mapFiles.entries :=
      fun hok => (h.filled hok).resolve_right fun hup => by simp [hmain, MainAt.behindLoad] at hup
    simp only [Sender.mainStep, System.mainStep, hmain]
    split_ifs with hunset hactive
    · exact ⟨h.action, by simp, fun hok => .inl (hfilled hok), h.message, by simp [SendsActive],
        h.other⟩
    · refine ⟨h.action, ?_, fun hok => .inl (hfilled hok), h.message, by simp [SendsActive],
        h.other⟩
      rintro temp heq
      obtain rfl : s.system.plugin._mapAction = temp := by simpa using heq
      exact ⟨rfl, fun _ => h.action (not_lt.mp hunset)⟩
    · have hsame := not_ne_iff.mp hactive
      refine ⟨h.action, by simp, fun hok => .inl (hfilled hok), h.message, fun _ _ => ?_, h.other⟩
      rw [hsame]
      exact h.message (hsame ▸ not_lt.mp hunset)
  | fetch temp => exact h.fetch hmain (hguard.2 temp hmain)
  | send =>
    simp only [Sender.mainStep, System.mainStep, hmain]
    refine ⟨h.action, by simp, fun hok => ?_, h.message, by simp [SendsActive], h.other⟩
    exact (h.filled hok).imp_right fun hup => ⟨hup.1, rfl⟩

theorem Inv.configure (h : Inv s) {rawMapFiles : PTree} (hreceiver : s.system.receiver = none)
    (hguard : s.Allowed (.configure rawMapFiles)) :
    Inv { s with system := s.system.configure rawMapFiles } := by
  have hinstalls := installMapFiles_installs s.system.plugin rawMapFiles
  obtain ⟨hkeeps, hbehind⟩ := hguard
  refine ⟨installMapFiles_hasAction hkeeps, ?_, ?_, h.message, h.sending, ?_⟩
  · intro temp hmain
    refine ⟨(h.fetching temp hmain).1, fun hok => (hinstalls.find temp).mpr ?_⟩
    have hmain' : s.system.main = .fetch temp := hmain
    exact (hbehind hok (by simp [hmain', MainAt.behindLoad])).2 temp hmain
  · intro hok
    by_cases hload : s.system.main.behindLoad = true
    · exact .inl (hbehind hok hload).1
    · by_cases hnone : actions (readable (getMapFiles rawMapFiles)) = []
      · left
        have hentries : (s.system.plugin.installMapFiles rawMapFiles)._mapFiles.entries = [] := by
          rw [OrderedMap.entries_eq_nil_iff]
          intro action
          rw [← Option.not_isSome_iff_eq_none, hinstalls.find, hnone]
          simp
        simp [System.configure, AllFilled, hentries]
      · right
        refine ⟨?_, by simpa [System.configure] using hload⟩
        simp [System.configure, hinstalls._isMapFileNew, hnone]
  · simp [System.configure, hreceiver]

theorem Inv.lookup (h : Inv s) {action : ℤ} (hreceiver : s.system.receiver = some action) :
    Inv { s with system := s.system.lookup action } := by
  have hother := h.other action hreceiver
  unfold System.lookup
  split_ifs with hnone
  · exact ⟨h.action, h.fetching, h.filled, h.message, h.sending, by simp⟩
  · refine ⟨fun _ => Option.isSome_iff_ne_none.mpr hnone, h.fetching, fun hok => ?_, h.message,
      h.sending, by simp⟩
    exact (h.filled hok).imp_right fun hup => ⟨by simp [Ne.symm hother], hup.2⟩

theorem step_inv {a : Act} (h : Inv s) (hguard : s.Allowed a) (hstep : s.step a = some t) :
    Inv t := by
  obtain ⟨u, hu, rfl⟩ := Option.map_eq_some_iff.mp hstep
  cases a with
  | main c made =>
    obtain rfl : s.system.mainStep c.convert made = u := by simpa [Act.step, System.step] using hu
    exact h.mainStep hguard
  | configure rawMapFiles =>
    simp only [Act.step, System.step] at hu
    split_ifs at hu with hidle
    obtain rfl : s.system.configure rawMapFiles = u := by simpa using hu
    exact h.configure hidle.1 hguard
  | action action =>
    simp only [Act.step, System.step] at hu
    split_ifs at hu with hidle hsame
    all_goals
      obtain rfl := Option.some.inj hu
      refine ⟨h.action, h.fetching, h.filled, h.message, h.sending, ?_⟩
    · simpa [Sender.after] using hsame
    · simp [Sender.after]
  | lookup =>
    obtain ⟨action, hreceiver, rfl⟩ := Option.map_eq_some_iff.mp hu
    exact h.lookup hreceiver

end Steps

theorem run_inv {acts : List Act} {s : Sender} (ho : machine.Obeys Allowed new acts)
    (hr : machine.run new acts = some s) : Inv s := by
  have hstep : ∀ u a v, Inv u → u.Allowed a → machine.step u a = some v → Inv v :=
    fun _ _ _ hu hguard hv => step_inv hu hguard hv
  exact Machine.obeys_invariant hstep .new ho hr

/-- A load that returns true leaves every map with its bytes exactly when `LoadsAll` holds, and in
a run whose steps are allowed, what is sent is always the map of the pass. -/
theorem load_and_send (plugin : MapPlugin) (c : Conversions) (acts : List Act) (s : Sender) :
    (((plugin.loadMapFiles c).1 = true → AllFilled (plugin.loadMapFiles c).2._mapFiles.entries) ↔
      LoadsAll c plugin._mapFiles.entries) ∧
    (machine.Obeys Allowed new acts → machine.run new acts = some s → s.SendsActive) :=
  ⟨loadMapFiles_fills_iff plugin c, fun ho hr => (run_inv ho hr).sending⟩

def samplePayload : Payload := ⟨cstr "00", by decide⟩

def sampleConversions : Conversions where
  isd _ := some samplePayload
  txt _ := some samplePayload
  xml _ := .message samplePayload

def samplePass : Act := .main sampleConversions true

/-- A configuration, and `Main` up to its send step. -/
def sampleSend (rawMapFiles : PTree) : List Act :=
  .configure rawMapFiles ::
    [samplePass, samplePass, samplePass, samplePass, samplePass, samplePass]

/-- A map without bytes and without an input type is loaded, and its message is sent. -/
theorem load_and_send_sample :
    ∃ s, machine.run new (sampleSend System.sampleMapFiles) = some s ∧ s.system.main = .send ∧
      s.system.mapFilesOk = true ∧ s.msg = some s.temp := by
  have ho : machine.Obeys Allowed new (sampleSend System.sampleMapFiles) := by
    refine ⟨⟨.inr (.inl (by decide)), fun h => absurd h (by decide)⟩, ?_⟩
    refine ⟨⟨fun h => absurd h (by decide), fun _ _ => .inl rfl⟩, ?_⟩
    refine ⟨⟨fun h => absurd h (by decide), fun _ _ => .inl rfl⟩, ?_⟩
    refine ⟨⟨fun _ => .inr ?_, fun _ _ => .inl rfl⟩, ?_⟩
    · intro e hmem _
      obtain rfl := List.mem_singleton.mp hmem
      exact ⟨by decide, fun h => nomatch h⟩
    refine ⟨⟨fun h => absurd h (by decide), fun _ _ => .inl rfl⟩, ?_⟩
    refine ⟨⟨fun h => absurd h (by decide), fun _ _ => .inl rfl⟩, ?_⟩
    exact ⟨⟨fun h => absurd h (by decide), fun _ _ => .inl rfl⟩, trivial⟩
  exact ⟨_, rfl, rfl, rfl, (load_and_send .new sampleConversions _ _).2 ho rfl rfl rfl⟩

/-- One map, for action 0, whose input type is given. -/
def typedMapFiles : PTree :=
  .node [] [(cstr "MapFiles", .node [] [([], .node [] [(cstr "Action", .node (cstr "0") []),
    (cstr "FilePath", .node (cstr "a.xml") []), (cstr "InputType", .node (cstr "XML") [])])])]

/-- It is passed over by the load, and then there is no message to send. -/
theorem load_and_send_typed :
    ((MapPlugin.new.installMapFiles typedMapFiles).loadMapFiles sampleConversions).1 = true ∧
      ¬ AllFilled ((MapPlugin.new.installMapFiles typedMapFiles).loadMapFiles
        sampleConversions).2._mapFiles.entries ∧
      ∃ s, machine.run new (sampleSend typedMapFiles) = some s ∧ s.system.main = .send ∧
        s.system.mapFilesOk = true ∧ s.msg = none := by
  refine ⟨by decide, fun h => ?_, _, rfl, rfl, rfl, rfl⟩
  exact h _ (List.mem_singleton_self _) (by decide)

end Sender
end V2IHub.Map
