import V2IHub.Command.Callbacks

/-! The frames in what a session receives, and the runs of the command handler on them. -/
namespace V2IHub.Command
open V2IHub.Foundation V2IHub.Messages V2IHub.Utils Relation

section Scan

/-- The bytes since the last start byte, while no end byte came after it, and the frames that
are complete. -/
abbrev Scan := Option Bytes × List Bytes

/-- The lengths of the messages that are handled. -/
def isFrame (text : Bytes) : Bool := 1 ≤ text.length ∧ text.length < READ_BUFFER_SIZE

def scanByte (s : Scan) (byte : UInt8) : Scan :=
  if byte = 2 then (some [], s.2)
  else if byte = 3 then (none, s.2 ++ s.1.toList.filter isFrame)
  else (s.1.map fun text => text ++ [byte], s.2)

def scan (bytes : Bytes) : Scan := bytes.foldl scanByte (none, [])

def openFrame (bytes : Bytes) : Option Bytes := (scan bytes).1

/-- The frames of a stream, in order: the bytes strictly between a start byte and the next end
byte, with no other start byte between them, if there are any and not too many. -/
def frames (bytes : Bytes) : List Bytes := (scan bytes).2

theorem scan_append_singleton (bytes : Bytes) (byte : UInt8) :
    scan (bytes ++ [byte]) = scanByte (scan bytes) byte := by
  simp [scan]

/-- The frames that are complete do not matter for what follows. -/
theorem foldl_scanByte (o : Option Bytes) (found : List Bytes) (bytes : Bytes) :
    bytes.foldl scanByte (o, found) =
      ((bytes.foldl scanByte (o, [])).1, found ++ (bytes.foldl scanByte (o, [])).2) := by
  induction bytes generalizing o found with
  | nil => simp
  | cons byte bytes ih =>
    simp only [List.foldl_cons, scanByte]
    split_ifs
    · exact ih (some []) found
    · rw [ih none (found ++ _), ih none ([] ++ _)]
      simp
    · exact ih (o.map fun text => text ++ [byte]) found

theorem scanByte_fst (s : Scan) (byte : UInt8) :
    (scanByte s byte).1 = (scanByte (s.1, []) byte).1 := by
  unfold scanByte
  split_ifs <;> rfl

/-- After an end byte the scan starts anew. -/
theorem scan_append {bytes rest : Bytes} (h : openFrame bytes = none) :
    scan (bytes ++ rest) = (openFrame rest, frames bytes ++ frames rest) := by
  have hscan : scan bytes = (none, frames bytes) := Prod.ext h rfl
  rw [scan, List.foldl_append, ← scan, hscan, foldl_scanByte]
  rfl

theorem foldl_scanByte_text {o : Bytes} {found : List Bytes} {text : Bytes}
    (htext : ∀ b ∈ text, b ≠ 2 ∧ b ≠ 3) :
    text.foldl scanByte (some o, found) = (some (o ++ text), found) := by
  induction text generalizing o with
  | nil => simp
  | cons b text ih =>
    obtain ⟨hstart, hend⟩ := htext b (by simp)
    rw [List.foldl_cons, scanByte, if_neg hstart, if_neg hend, Option.map_some,
      ih fun c hc => htext c (by simp [hc])]
    simp

/-- A frame is found wherever it stands. -/
theorem frames_frameOf {text : Bytes} (before after : Bytes) (hframe : isFrame text = true)
    (htext : ∀ b ∈ text, b ≠ 2 ∧ b ≠ 3) :
    frames (before ++ frameOf text ++ after) = frames before ++ text :: frames after := by
  have hclosed : scan (before ++ frameOf text) = (none, frames before ++ [text]) := by
    rw [scan, List.foldl_append, frameOf, List.cons_append, List.foldl_cons, List.foldl_append]
    have hstart : scanByte (before.foldl scanByte (none, [])) 2 = (some [], frames before) := rfl
    rw [hstart, foldl_scanByte_text htext]
    simp [scanByte, hframe]
  rw [frames, scan_append (congrArg Prod.fst hclosed)]
  show frames (before ++ frameOf text) ++ frames after = _
  rw [frames, hclosed]
  simp

end Scan

section Observation

/-- The texts that the handler was run on for a session since it was established. -/
def Event.addHandled (sid : ℕ) (texts : List Bytes) : Event → List Bytes
  | .established s => if s = sid then [] else texts
  | .handled s text => if s = sid then texts ++ [text] else texts
  | _ => texts

def handledTexts (sid : ℕ) (events : List Event) : List Bytes :=
  events.foldl (Event.addHandled sid) []

/-- The decoded bytes that a session has received since it was established. -/
def Act.addReceived (sid : ℕ) (bytes : Bytes) : Act → Bytes
  | .established s => if s = sid then [] else bytes
  | .receive s data _ => if s = sid then bytes ++ Base64.decode data else bytes
  | _ => bytes

def received (sid : ℕ) (acts : List Act) : Bytes := acts.foldl (Act.addReceived sid) []

/-- The plugin beside the bytes that one of its sessions has received. -/
def observed (sid : ℕ) : Machine (Plugin × Bytes) Act where
  step := fun s act => (plugin.step s.1 act).map fun p => (p, act.addReceived sid s.2)

/-- At an end byte: a frame that is handled has no zero byte, and where no frame is open there
is nothing in the buffer, or too much. -/
def closesWell (p : Plugin) (sid : ℕ) : Option Bytes → Bool
  | some text => !isFrame text || !text.contains 0
  | none =>
    match p.sessions sid with
    | some s => s.buffer.length = 0 ∨ s.buffer.length ≥ READ_BUFFER_SIZE
    | none => true

/-- Every end byte of the message closes well; where a command empties the message, no frame
was left in it, whole or begun. -/
def fedWell (env : ℕ → Env) (sid : ℕ) : Bytes → ℕ → Plugin → Option Bytes → Bool
  | [], _, _, _ => true
  | byte :: message, i, p, o =>
    let r := receiveByte (env i) sid byte p
    (byte ≠ 3 || closesWell p sid o) &&
      if r.2 then scan message = (none, [])
      else fedWell env sid message (i + 1) r.1 (scanByte (o, []) byte).1

/-- What the session receives is fed well. -/
def FedWell (sid : ℕ) (s : Plugin × Bytes) : Act → Bool
  | .receive sid' data env =>
    sid' ≠ sid || fedWell env sid (Base64.decode data) 0 s.1 (openFrame s.2)
  | _ => true

theorem handledTexts_append (sid : ℕ) (events : List Event) (e : Event) :
    handledTexts sid (events ++ [e]) = e.addHandled sid (handledTexts sid events) := by
  simp [handledTexts]

end Observation

section Frame
variable {p q : Plugin} {sid : ℕ}

/-- The buffer of a session and what was handled of it are as before. -/
structure Untouched (sid : ℕ) (p q : Plugin) : Prop where
  buffer : (q.sessions sid).map Session.buffer = (p.sessions sid).map Session.buffer
  handled : handledTexts sid q.events = handledTexts sid p.events

theorem Untouched.refl (sid : ℕ) (p : Plugin) : Untouched sid p p := ⟨rfl, rfl⟩

theorem Untouched.trans {t : Plugin} (h : Untouched sid p q) (h' : Untouched sid q t) :
    Untouched sid p t :=
  ⟨h'.buffer.trans h.buffer, h'.handled.trans h.handled⟩

theorem record_untouched (p : Plugin) {e : Event} (he : ∀ texts, e.addHandled sid texts = texts) :
    Untouched sid p (p.record e) where
  buffer := rfl
  handled := by rw [Plugin.record_events, handledTexts_append, he]

theorem putRequest_untouched (p : Plugin) (name : Bytes) (data : UploadData) :
    Untouched sid p (p.putRequest name data) := ⟨rfl, rfl⟩

theorem updateSession_untouched (p : Plugin) (other : ℕ) {f : Session → Session}
    (hf : ∀ s, (f s).buffer = s.buffer) : Untouched sid p (p.updateSession other f) where
  buffer := by
    by_cases h : sid = other
    · subst h
      rw [Plugin.updateSession_self, Option.map_map]
      exact Option.map_congr fun s _ => hf s
    · rw [p.updateSession_ne f h]
  handled := rfl

theorem updateSession_other {other : ℕ} (p : Plugin) (f : Session → Session) (h : sid ≠ other) :
    Untouched sid p (p.updateSession other f) :=
  ⟨by rw [p.updateSession_ne f h], rfl⟩

theorem Effect.untouched {r : Request} (h : Effect r p q) (sid : ℕ) : Untouched sid p q := by
  cases h with
  | respond data => exact updateSession_untouched p _ fun _ => rfl
  | perform action hs hauth hlevel hupload => exact record_untouched p fun _ => rfl
  | erase => exact ⟨rfl, rfl⟩
  | upload name data hs hauth hlevel hdata =>
    exact (putRequest_untouched p name data).trans (record_untouched _ fun _ => rfl)
  | authorize hs hauth => exact updateSession_untouched p _ fun _ => rfl
  | setLevel hs hauth hevents hrow huser hpassword hlevel =>
    exact updateSession_untouched p _ fun _ => rfl

theorem HttpEffect.untouched (h : HttpEffect p q) (sid : ℕ) : Untouched sid p q := by
  cases h with
  | http h http => exact ⟨rfl, rfl⟩
  | @fresh name hnone =>
    exact (putRequest_untouched p name .fresh).trans (record_untouched _ fun _ => rfl)
  | request name hf => exact ⟨rfl, rfl⟩
  | erase name => exact ⟨rfl, rfl⟩
  | respond sid data => exact updateSession_untouched p _ fun _ => rfl

/-- A command handles nothing more, and leaves its session open. -/
theorem Executes.untouched {r : Request} (h : Executes r p q) :
    (∀ sid, sid ≠ r.sid → Untouched sid p q) ∧
      handledTexts r.sid q.events = handledTexts r.sid p.events ∧
      (p.sessions r.sid).isSome = (q.sessions r.sid).isSome := by
  have hrecord : ∀ sid, Untouched sid p
      (p.record (.command r.sid r.command r.args r.env.userTable)) :=
    fun sid => record_untouched p fun _ => rfl
  cases h with
  | @effects _ s hs hlogout hsteps =>
    have hall : ∀ sid, Untouched sid p q := by
      intro sid
      induction hsteps with
      | refl => exact hrecord sid
      | tail _ heffect ih => exact ih.trans (heffect.untouched sid)
    refine ⟨fun sid _ => hall sid, (hall r.sid).handled, ?_⟩
    simpa using (congrArg Option.isSome (hall r.sid).buffer).symm
  | @logout s data hs hauth hlogout =>
    refine ⟨fun sid hsid => ?_, (hrecord r.sid).handled, by simp⟩
    exact ((hrecord sid).trans (updateSession_other _ _ hsid)).trans (updateSession_other _ _ hsid)

theorem ReceiveEffect.untouched {other : ℕ} (h : ReceiveEffect other p q) (hsid : sid ≠ other) :
    Untouched sid p q := by
  have hhandled : ∀ text, Untouched sid p (p.record (.handled other text)) :=
    fun text => record_untouched p fun _ => if_neg (Ne.symm hsid)
  cases h with
  | buffer hf => exact updateSession_other p _ hsid
  | handled text => exact hhandled text
  | executed text hr hexecutes =>
    exact (hhandled text).trans (hexecutes.untouched.1 sid (hr ▸ hsid))

end Frame

section Loop
variable {sid : ℕ}

/-- What was handled are the frames of what was received, and the buffer holds the open one as
far as it fits. -/
structure Follows (sid : ℕ) (bytes : Bytes) (p : Plugin) : Prop where
  handled : handledTexts sid p.events = frames bytes
  buffer : ∀ s text, p.sessions sid = some s → openFrame bytes = some text →
    s.buffer = text.take READ_BUFFER_SIZE

theorem Follows.untouched {bytes : Bytes} {p q : Plugin} (h : Follows sid bytes p)
    (hq : Untouched sid p q) : Follows sid bytes q where
  handled := hq.handled.trans h.handled
  buffer := by
    intro s text hs hopen
    have hbuffer : (p.sessions sid).map Session.buffer = some s.buffer := by
      rw [← hq.buffer, hs, Option.map_some]
    obtain ⟨s', hs', heq⟩ := Option.map_eq_some_iff.mp hbuffer
    rw [← heq]
    exact h.buffer s' text hs' hopen

/-- A run of the handler: one more text was handled, and the session is still open. -/
theorem handle_handled {p : Plugin} {s : Session} (env : Env) (text : Bytes)
    (hs : p.sessions sid = some s) :
    handledTexts sid (handle env sid text p).2.events = handledTexts sid p.events ++ [text] ∧
      ∃ s', (handle env sid text p).2.sessions sid = some s' := by
  have hrecord : handledTexts sid (p.record (.handled sid text)).events =
      handledTexts sid p.events ++ [text] := by
    rw [Plugin.record_events, handledTexts_append, Event.addHandled, if_pos rfl]
  rcases handle_cases env text hs with h | ⟨r, rfl, h⟩
  · rw [h]
    exact ⟨hrecord, s, hs⟩
  · obtain ⟨-, hhandled, hsome⟩ := h.untouched
    refine ⟨hhandled.trans hrecord, Option.isSome_iff_exists.mp ?_⟩
    rw [← hsome, Plugin.record_sessions, hs, Option.isSome_some]

theorem receiveByte_start {p : Plugin} {s : Session} (env : Env) (hs : p.sessions sid = some s) :
    receiveByte env sid 2 p = (p.updateSession sid Session.clearBuffer, false) := by
  unfold receiveByte
  simp only [hs, ↓reduceIte]

theorem receiveByte_data {p : Plugin} {s : Session} {byte : UInt8} (env : Env)
    (hs : p.sessions sid = some s) (hstart : byte ≠ 2) (hend : byte ≠ 3) :
    receiveByte env sid byte p =
      if s.buffer.length ≥ READ_BUFFER_SIZE then (p, false)
      else (p.updateSession sid (Session.addByte byte), false) := by
  unfold receiveByte
  simp only [hs, hstart, hend, ↓reduceIte]

/-- The handler runs at an end byte when there is a message in the buffer. -/
theorem receiveByte_end {p : Plugin} {s : Session} (env : Env) (hs : p.sessions sid = some s) :
    (receiveByte env sid 3 p).1 =
      if isFrame s.buffer then (handle env sid (cstringAt s.buffer) p).2 else p := by
  unfold receiveByte isFrame
  simp only [hs, show (3 : UInt8) ≠ 2 by decide, ↓reduceIte]
  by_cases hpos : s.buffer.length > 0
  · by_cases hfull : s.buffer.length ≥ READ_BUFFER_SIZE
    · simp [hpos, hfull]
    · have hframe : 1 ≤ s.buffer.length ∧ s.buffer.length < READ_BUFFER_SIZE := by omega
      simp only [hpos, hfull, hframe, and_self, decide_true, ↓reduceIte]
      rcases handle env sid (cstringAt s.buffer) p with ⟨a | e | _, q⟩ <;> rfl
  · have hempty : ¬ (1 ≤ s.buffer.length ∧ s.buffer.length < READ_BUFFER_SIZE) := by omega
    simp only [hpos, hempty, decide_false, Bool.false_eq_true, ↓reduceIte]

/-- A frame that fits is in the buffer as it is, and one that does not is not handled. -/
theorem isFrame_take (text : Bytes) :
    isFrame (text.take READ_BUFFER_SIZE) = isFrame text ∧
      (isFrame text = true → text.take READ_BUFFER_SIZE = text) := by
  simp only [isFrame, List.length_take, decide_eq_true_eq, decide_eq_decide]
  constructor
  · omega
  · exact fun h => List.take_of_length_le h.2.le

theorem scanByte_end (bytes : Bytes) :
    scan (bytes ++ [3]) = (none, frames bytes ++ (openFrame bytes).toList.filter isFrame) :=
  scan_append_singleton bytes 3

/-- An end byte that closes well. -/
theorem receiveByte_end_follows {bytes : Bytes} {p : Plugin} {s : Session} (env : Env)
    (hs : p.sessions sid = some s) (h : Follows sid bytes p)
    (hwell : closesWell p sid (openFrame bytes) = true) :
    Follows sid (bytes ++ [3]) (receiveByte env sid 3 p).1 ∧
      ∃ s', (receiveByte env sid 3 p).1.sessions sid = some s' := by
  have hnone : openFrame (bytes ++ [3]) = none := congrArg Prod.fst (scanByte_end bytes)
  have hframes : frames (bytes ++ [3]) =
      frames bytes ++ (openFrame bytes).toList.filter isFrame :=
    congrArg Prod.snd (scanByte_end bytes)
  -- no frame is open any more, so that only what was handled counts
  suffices hhandled : handledTexts sid (receiveByte env sid 3 p).1.events =
      frames bytes ++ (openFrame bytes).toList.filter isFrame ∧
      ∃ s', (receiveByte env sid 3 p).1.sessions sid = some s' from
    ⟨⟨hhandled.1.trans hframes.symm, fun s' text _ ho => by rw [hnone] at ho; cases ho⟩,
      hhandled.2⟩
  rw [receiveByte_end env hs]
  cases ho : openFrame bytes with
  | none =>
    have hbuffer : ¬ isFrame s.buffer = true := by
      rw [ho] at hwell
      simp only [closesWell, hs, decide_eq_true_eq] at hwell
      simp only [isFrame, decide_eq_true_eq]
      omega
    rw [if_neg hbuffer]
    exact ⟨by simpa using h.handled, s, hs⟩
  | some text =>
    have hbuffer := h.buffer s text hs ho
    obtain ⟨hsame, hfits⟩ := isFrame_take text
    rw [hbuffer, hsame]
    by_cases hframe : isFrame text = true
    · have hzero : 0 ∉ text := by
        rw [ho] at hwell
        simpa [closesWell, hframe] using hwell
      rw [if_pos hframe, hfits hframe, cstringAt_of_not_mem hzero]
      obtain ⟨hhandled, hsession⟩ := handle_handled env text hs
      refine ⟨?_, hsession⟩
      rw [hhandled, h.handled]
      simp [hframe]
    · rw [if_neg hframe]
      refine ⟨?_, s, hs⟩
      simpa [hframe] using h.handled

/-- One byte, as long as an end byte closes well. -/
theorem receiveByte_follows {bytes : Bytes} {p : Plugin} {s : Session} (env : Env) (byte : UInt8)
    (hs : p.sessions sid = some s) (h : Follows sid bytes p)
    (hwell : byte = 3 → closesWell p sid (openFrame bytes) = true) :
    Follows sid (bytes ++ [byte]) (receiveByte env sid byte p).1 ∧
      ∃ s', (receiveByte env sid byte p).1.sessions sid = some s' := by
  by_cases hend : byte = 3
  · subst hend
    exact receiveByte_end_follows env hs h (hwell rfl)
  by_cases hstart : byte = 2
  · subst hstart
    rw [receiveByte_start env hs]
    refine ⟨⟨?_, ?_⟩, by simp [hs]⟩
    · rw [frames, scan_append_singleton]
      exact h.handled
    · intro s' text hs' ho
      rw [openFrame, scan_append_singleton] at ho
      obtain rfl := Option.some.inj ho
      rw [Plugin.updateSession_self, hs] at hs'
      obtain rfl := Option.some.inj hs'
      rfl
  have hscan : scan (bytes ++ [byte]) =
      ((openFrame bytes).map fun text => text ++ [byte], frames bytes) := by
    rw [scan_append_singleton, scanByte, if_neg hstart, if_neg hend]
    rfl
  have hframes : frames (bytes ++ [byte]) = frames bytes := by rw [frames, hscan]
  have hopen : ∀ text, openFrame (bytes ++ [byte]) = some text →
      ∃ text', openFrame bytes = some text' ∧ text' ++ [byte] = text := by
    intro text ho
    exact Option.map_eq_some_iff.mp ((congrArg Prod.fst hscan).symm.trans ho)
  rw [receiveByte_data env hs hstart hend]
  split_ifs with hfull
  · refine ⟨⟨h.handled.trans hframes.symm, ?_⟩, s, hs⟩
    intro s' text hs' ho
    obtain rfl : s = s' := Option.some.inj (hs.symm.trans hs')
    obtain ⟨text', ho', rfl⟩ := hopen text ho
    have hbuffer := h.buffer s text' hs ho'
    have hlength : READ_BUFFER_SIZE ≤ text'.length := by
      rw [hbuffer, List.length_take] at hfull
      omega
    rw [List.take_append_of_le_length hlength]
    exact hbuffer
  · refine ⟨⟨h.handled.trans hframes.symm, ?_⟩, by simp [hs]⟩
    intro s' text hs' ho
    obtain ⟨text', ho', rfl⟩ := hopen text ho
    have hbuffer := h.buffer s text' hs ho'
    rw [Plugin.updateSession_self, hs] at hs'
    obtain rfl := Option.some.inj hs'
    have hlength : text'.length < READ_BUFFER_SIZE := by
      rw [hbuffer, List.length_take] at hfull
      omega
    show s.buffer ++ [byte] = _
    rw [hbuffer, List.take_of_length_le hlength.le, List.take_of_length_le]
    simpa using hlength

/-- Only the handler empties the message. -/
theorem receiveByte_emptied {env : Env} {byte : UInt8} {p : Plugin}
    (h : (receiveByte env sid byte p).2 = true) : byte = 3 := by
  by_contra hend
  unfold receiveByte at h
  split at h
  · cases h
  · split_ifs at h

/-- Bytes without a frame can be dropped after an end byte. -/
theorem Follows.dropped {bytes message : Bytes} {p : Plugin} (h : Follows sid bytes p)
    (hclosed : openFrame bytes = none) (hmessage : scan message = (none, [])) :
    Follows sid (bytes ++ message) p := by
  have hopen : openFrame message = none := congrArg Prod.fst hmessage
  have hframes : frames message = [] := congrArg Prod.snd hmessage
  have hscan : scan (bytes ++ message) = (none, frames bytes) := by
    rw [scan_append hclosed, hopen, hframes, List.append_nil]
  refine ⟨?_, ?_⟩
  · rw [frames, hscan]
    exact h.handled
  · intro s text _ ho
    rw [openFrame, hscan] at ho
    cases ho

/-- A message whose end bytes all close well. -/
theorem receiveLoop_follows {bytes message : Bytes} {p : Plugin} {s : Session} (env : ℕ → Env)
    (i : ℕ) (hs : p.sessions sid = some s) (h : Follows sid bytes p)
    (hfed : fedWell env sid message i p (openFrame bytes) = true) :
    Follows sid (bytes ++ message) (receiveLoop env sid message i p) := by
  induction message generalizing bytes p s i with
  | nil =>
    rw [List.append_nil]
    exact h
  | cons byte message ih =>
    rw [fedWell, Bool.and_eq_true] at hfed
    obtain ⟨hwell, hrest⟩ := hfed
    obtain ⟨hfollows, s', hs'⟩ := receiveByte_follows (env i) byte hs h
      (by simpa [imp_iff_not_or] using hwell)
    have happend : bytes ++ byte :: message = (bytes ++ [byte]) ++ message := by simp
    rw [receiveLoop, happend]
    split_ifs at hrest ⊢ with hemptied
    · obtain rfl := receiveByte_emptied hemptied
      exact hfollows.dropped (congrArg Prod.fst (scanByte_end bytes)) (by simpa using hrest)
    · apply ih (i + 1) hs' hfollows
      rwa [openFrame, scan_append_singleton, scanByte_fst]

end Loop

section Runs
variable {sid : ℕ}

theorem observed_step {s t : Plugin × Bytes} {act : Act} (h : (observed sid).step s act = some t) :
    plugin.step s.1 act = some t.1 ∧ t.2 = act.addReceived sid s.2 := by
  obtain ⟨p, hp, rfl⟩ := Option.map_eq_some_iff.mp h
  exact ⟨hp, rfl⟩

theorem addReceived_other {act : Act} (bytes : Bytes) (hestablished : act ≠ .established sid)
    (hreceive : ∀ data env, act ≠ .receive sid data env) : act.addReceived sid bytes = bytes := by
  cases act with
  | established s => exact if_neg fun h => hestablished (by rw [h])
  | receive s data env => exact if_neg fun h => hreceive data env (by rw [h])
  | _ => rfl

theorem establish_follows (p : Plugin) : Follows sid [] (p.establish sid) where
  handled := by
    show handledTexts sid (p.events ++ [.established sid]) = []
    rw [handledTexts_append, Event.addHandled, if_pos rfl]
  buffer := fun _ _ _ ho => by cases ho

theorem establish_other {p : Plugin} {other : ℕ} (h : sid ≠ other) :
    Untouched sid p (p.establish other) where
  buffer := by simp [Plugin.establish, h]
  handled := by
    show handledTexts sid (p.events ++ [.established other]) = _
    rw [handledTexts_append, Event.addHandled, if_neg (Ne.symm h)]

theorem close_follows {p : Plugin} {bytes : Bytes} (other : ℕ) (h : Follows sid bytes p) :
    Follows sid bytes (p.close other) where
  handled := by
    show handledTexts sid (p.events ++ [.closed other]) = _
    rw [handledTexts_append]
    exact h.handled
  buffer := by
    intro s text hs ho
    by_cases hsid : sid = other
    · simp [Plugin.close, hsid] at hs
    · exact h.buffer s text (by simpa [Plugin.close, hsid] using hs) ho

theorem step_follows {s t : Plugin × Bytes} {act : Act} (h : Follows sid s.2 s.1)
    (hfed : FedWell sid s act = true) (hstep : (observed sid).step s act = some t) :
    Follows sid t.2 t.1 := by
  obtain ⟨hplugin, hbytes⟩ := observed_step hstep
  rw [hbytes]
  generalize t.1 = q at hplugin
  cases plugin_cases hplugin with
  | @established other hnone =>
    by_cases hsid : sid = other
    · subst hsid
      rw [Act.addReceived, if_pos rfl]
      exact establish_follows s.1
    · rw [Act.addReceived, if_neg (Ne.symm hsid)]
      exact h.untouched (establish_other hsid)
  | @closed other _ hsome => exact close_follows other h
  | @receive _ other s' data env hs heffects heq =>
    by_cases hsid : sid = other
    · subst hsid
      rw [Act.addReceived, if_pos rfl, heq]
      exact receiveLoop_follows env 0 hs h (by simpa [FedWell] using hfed)
    · rw [Act.addReceived, if_neg (Ne.symm hsid)]
      clear heq hplugin hbytes hstep hfed
      apply h.untouched
      induction heffects with
      | refl => exact Untouched.refl sid s.1
      | tail _ heffect ih => exact ih.trans (heffect.untouched hsid)
  | http hestablished _ hreceive heffects =>
    rw [addReceived_other s.2 (hestablished sid) (hreceive sid)]
    clear hplugin hbytes hstep hfed
    apply h.untouched
    induction heffects with
    | refl => exact Untouched.refl sid s.1
    | tail _ heffect ih => exact ih.trans (heffect.untouched sid)

theorem observed_run (sid : ℕ) (acts : List Act) (p : Plugin) (bytes : Bytes) :
    (observed sid).run (p, bytes) acts =
      (plugin.run p acts).map fun q => (q, acts.foldl (Act.addReceived sid) bytes) := by
  induction acts generalizing p bytes with
  | nil => rfl
  | cons act acts ih =>
    have hstep : (observed sid).step (p, bytes) act =
        (plugin.step p act).map fun q => (q, act.addReceived sid bytes) := rfl
    rw [Machine.run, Machine.run, hstep]
    cases plugin.step p act with
    | none => rfl
    | some q => exact ih q (act.addReceived sid bytes)

/-- In any chunking and whatever the other sessions do, the handler runs once for each frame
that a session has sent, on its bytes and in order, as long as the session is fed well. -/
theorem run_frames_handled {acts : List Act} {p : Plugin}
    (hrun : plugin.run .initial acts = some p)
    (hfed : (observed sid).Obeys (fun s act => FedWell sid s act) (.initial, []) acts) :
    handledTexts sid p.events = frames (received sid acts) := by
  have hinitial : Follows sid [] .initial := ⟨rfl, fun _ _ hs => by cases hs⟩
  have hstep : ∀ s act t, Follows sid s.2 s.1 → FedWell sid s act = true →
      (observed sid).step s act = some t → Follows sid t.2 t.1 :=
    fun _ _ _ => step_follows
  have hobserved : (observed sid).run (.initial, []) acts = some (p, received sid acts) := by
    rw [observed_run, hrun]
    rfl
  exact (Machine.obeys_invariant hstep hinitial hfed hobserved).handled

end Runs

/-- Empty objects are all that this client sends. -/
def emptyWorld : Env :=
  { worldOf [] with readJson := fun text => if text = cstr "\x7b\x7d" then some .empty else none }

/-- Two frames in two chunks, the first cut in its middle, with a blank between them. -/
def chunkedRun : List Act :=
  [.established 1, .receive 1 (Base64.encode [2, 123]) fun _ => emptyWorld,
    .receive 1 (Base64.encode ([125, 3, 32] ++ frameOf [123, 125])) fun _ => emptyWorld]

theorem run_frames_handled_sample : ∃ p, plugin.run .initial chunkedRun = some p ∧
    handledTexts 1 p.events = frames (received 1 chunkedRun) ∧
    frames (received 1 chunkedRun) = [[123, 125], [123, 125]] := by
  have hsome : (plugin.run .initial chunkedRun).isSome = true := by decide +kernel
  obtain ⟨p, hrun⟩ := Option.isSome_iff_exists.mp hsome
  exact ⟨p, hrun, run_frames_handled hrun (by decide +kernel), by decide +kernel⟩

/-- The end byte of a frame comes twice. -/
def repeatedEnd : List Act :=
  [.established 1, .receive 1 (Base64.encode (frameOf [123, 125] ++ [3])) fun _ => emptyWorld]

theorem run_frames_handled_fails : frames (received 1 repeatedEnd) = [[123, 125]] ∧
    ∃ p, plugin.run .initial repeatedEnd = some p ∧
      handledTexts 1 p.events = [[123, 125], [123, 125]] := by
  refine ⟨by decide +kernel, ?_⟩
  have hend : ((plugin.run .initial repeatedEnd).map fun p => handledTexts 1 p.events) =
      some [[123, 125], [123, 125]] := by decide +kernel
  exact Option.map_eq_some_iff.mp hend

end V2IHub.Command
