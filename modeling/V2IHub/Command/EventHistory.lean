import V2IHub.Foundation.Machine
import V2IHub.Foundation.OrderedMap
import V2IHub.Command.EventText

/-! The two rolling texts of `GetEventTelemetry`, and when the history that they keep is right. -/
namespace V2IHub.Command.EventTelemetry
open Foundation

/-- The static variables of the event history. -/
structure Telemetry where
  haveEvents : Bool
  eventsJSON : Bytes
  lastEventTime : Bytes
  eventsUpdatesJSON : Bytes
  eventsNextFullJSON : Bytes
  eventsFullCount : ℕ
  eventsNextFullCount : ℕ
deriving DecidableEq

namespace Telemetry

def initial : Telemetry := ⟨false, [], [], [], [], 0, 0⟩

/-- The end of `GetEventTelemetry`: the text of the new events goes into the buffers. -/
def addEvents (eventRowLimit : ℕ) (body : Bytes) (eventCount : ℕ) (t : Telemetry) : Telemetry :=
  let t :=
    if t.eventsJSON.length > 0 then
      { t with eventsUpdatesJSON := body, eventsJSON := t.eventsJSON ++ [44] }
    else t
  let t :=
    if t.eventsFullCount ≥ eventRowLimit then
      { t with
        eventsNextFullJSON := (if t.eventsNextFullJSON.length > 0 then t.eventsNextFullJSON ++ [44]
          else t.eventsNextFullJSON) ++ body
        eventsNextFullCount := t.eventsNextFullCount + eventCount }
    else t
  if t.eventsFullCount ≥ eventRowLimit * 2 then
    { t with
      eventsJSON := t.eventsNextFullJSON
      eventsNextFullJSON := []
      eventsFullCount := t.eventsNextFullCount
      eventsNextFullCount := 0 }
  else
    { t with
      eventsJSON := t.eventsJSON ++ body
      eventsFullCount := t.eventsFullCount + eventCount }

/-- `GetEventTelemetry`; `none` when the query has failed. -/
def getEventTelemetry (eventRowLimit : ℕ) (rows : Option (List LogEntry)) (t : Telemetry) :
    Telemetry :=
  match rows with
  | none => { t with haveEvents := false }
  | some rows =>
    let t := { t with haveEvents := true }
    let eJSON := getOutput rows
    match lastTimestamp eJSON with
    | none => { t with eventsUpdatesJSON := [] }
    | some time =>
      let t := { t with lastEventTime := time }
      match bracketed eJSON with
      | none => { t with eventsUpdatesJSON := [] }
      | some (rest, body) => t.addEvents eventRowLimit body (1 + separators rest)

/-- What `clearlog` does once the log is empty. -/
def clearLog (t : Telemetry) : Telemetry := { t with eventsJSON := [], eventsUpdatesJSON := [] }

/-- What the close of the last session does. -/
def lastClosed (t : Telemetry) : Telemetry :=
  { t with haveEvents := false, eventsJSON := [], lastEventTime := [], eventsUpdatesJSON := [] }

end Telemetry

section Query

def Sorted (rows : List LogEntry) : Prop :=
  rows.Pairwise fun e e' => ¬ e'.timestamp.val < e.timestamp.val

instance (rows : List LogEntry) : Decidable (Sorted rows) :=
  inferInstanceAs (Decidable (List.Pairwise _ _))

/-- The last rows up to a limit, which is read as an `int`. Of the rows of one timestamp any are
left out where the limit cuts. -/
def LimitAnswer (rowLimit : ℕ) (log rows : List LogEntry) : Prop :=
  rowLimit < 2 ^ 31 ∧ rows.length = min rowLimit log.length ∧ (log.diff rows ++ rows).Perm log ∧
    ∀ e ∈ log.diff rows, ∀ row ∈ rows, ¬ row.timestamp.val < e.timestamp.val

/-- The rows behind a time. -/
def TimeAnswer (eventTime : Bytes) (log rows : List LogEntry) : Prop :=
  rows.Perm (log.filter fun e => eventTime < e.timestamp.val)

/-- What the database may answer. Rows of one timestamp come in any order. -/
def Answers (eventRowLimit : ℕ) (lastEventTime : Bytes) (log rows : List LogEntry) : Prop :=
  Sorted rows ∧
    if lastEventTime = [] then LimitAnswer eventRowLimit log rows
    else TimeAnswer lastEventTime log rows

instance (rowLimit : ℕ) (log rows : List LogEntry) : Decidable (LimitAnswer rowLimit log rows) :=
  inferInstanceAs (Decidable (_ < _ ∧ _ = _ ∧ List.Perm _ _ ∧ ∀ e ∈ _, ∀ row ∈ rows, ¬ _ < _))

instance (eventTime : Bytes) (log rows : List LogEntry) : Decidable (TimeAnswer eventTime log rows) :=
  inferInstanceAs (Decidable (List.Perm _ _))

instance (eventRowLimit : ℕ) (lastEventTime : Bytes) (log rows : List LogEntry) :
    Decidable (Answers eventRowLimit lastEventTime log rows) :=
  inferInstanceAs (Decidable (Sorted rows ∧ if lastEventTime = [] then
    LimitAnswer eventRowLimit log rows else TimeAnswer lastEventTime log rows))

end Query

/-- The log and the variables, beside what has happened: whether there was a poll, how many events
were logged since the last reset, the events polled since and before it, those logged after the
first poll and not polled yet, and these with the update of each poll. -/
structure History where
  log : List LogEntry
  telemetry : Telemetry
  polled : Bool
  sinceReset : ℕ
  current : List LogEntry
  past : List LogEntry
  pending : List LogEntry
  updates : List (List LogEntry × Bytes)
deriving DecidableEq

def History.initial : History := ⟨[], .initial, false, 0, [], [], [], []⟩

def History.reset (h : History) : History :=
  { h with sinceReset := 0, current := [], past := h.past ++ h.current }

inductive Act where
  | insert (e : LogEntry)
  | poll (rows : List LogEntry)
  | pollFails
  | clearLog
  | lastClosed
deriving DecidableEq

def step (eventRowLimit : ℕ) (h : History) : Act → Option History
  | .insert e =>
    if ∀ e' ∈ h.log, ¬ e.timestamp.val < e'.timestamp.val then
      some { h with
        log := h.log ++ [e]
        sinceReset := h.sinceReset + 1
        pending := if h.polled then h.pending ++ [e] else h.pending }
    else none
  | .poll rows =>
    if Answers eventRowLimit h.telemetry.lastEventTime h.log rows then
      let t := h.telemetry.getEventTelemetry eventRowLimit (some rows)
      some { h with
        telemetry := t
        polled := true
        current := h.current ++ rows
        pending := []
        updates := h.updates ++ [(h.pending, t.eventsUpdatesJSON)] }
    else none
  | .pollFails =>
    some { h with telemetry := h.telemetry.getEventTelemetry eventRowLimit none }
  | .clearLog =>
    some { h.reset with log := [], telemetry := h.telemetry.clearLog, pending := [] }
  | .lastClosed => some { h.reset with telemetry := h.telemetry.lastClosed }

def history (eventRowLimit : ℕ) : Machine History Act := ⟨step eventRowLimit⟩

/-- What should hold after a poll: the text lists the last events of the log, none of them polled
before the last reset and enough of those logged since, with their number beside it; and the
update of each poll lists the events logged since the poll before. -/
structure Right (eventRowLimit : ℕ) (h : History) : Prop where
  shown : ∃ shown, h.telemetry.eventsJSON = joined shown ∧ shown <:+ h.log ∧
    (∀ e ∈ shown, e ∉ h.past) ∧ min eventRowLimit h.sinceReset ≤ shown.length ∧
    h.telemetry.eventsFullCount = shown.length
  updates : ∀ update ∈ h.updates, update.2 = joined update.1

/-- The conditions on each step. -/
def Careful (eventRowLimit : ℕ) (h : History) : Act → Prop
  | .insert e => (h.telemetry.lastEventTime = [] ∨
      h.telemetry.lastEventTime < e.timestamp.val) ∧ separators (eventText e) = 0
  | .poll rows => rows <:+ h.log ∧ (rows ≠ [] →
      (h.polled = true → h.telemetry.eventsJSON ≠ []) ∧
      (eventRowLimit * 2 ≤ h.telemetry.eventsFullCount →
        eventRowLimit ≤ h.telemetry.eventsNextFullCount + rows.length))
  | .pollFails => True
  | .clearLog | .lastClosed => h.telemetry.eventsFullCount = 0

instance (eventRowLimit : ℕ) (h : History) (act : Act) :
    Decidable (Careful eventRowLimit h act) :=
  match act with
  | .insert _ => inferInstanceAs (Decidable ((_ ∨ _) ∧ _))
  | .poll _ => inferInstanceAs (Decidable (_ ∧ (_ → (_ → _) ∧ (_ → _))))
  | .pollFails => inferInstanceAs (Decidable True)
  | .clearLog | .lastClosed => inferInstanceAs (Decidable (_ = _))

section Telemetry
variable {eventRowLimit : ℕ} {t : Telemetry}

/-- The variables once the last time is read. -/
def Telemetry.found (time : Bytes) (t : Telemetry) : Telemetry :=
  { t with haveEvents := true, lastEventTime := time }

theorem getEventTelemetry_nil (t : Telemetry) :
    t.getEventTelemetry eventRowLimit (some []) =
      { t with haveEvents := true, eventsUpdatesJSON := [] } := rfl

/-- A poll that finds events reads their number, their text and the time of the last one. -/
theorem getEventTelemetry_concat (t : Telemetry) {front : List LogEntry} {last : LogEntry}
    (h : ∀ e ∈ front ++ [last], separators (eventText e) = 0) :
    t.getEventTelemetry eventRowLimit (some (front ++ [last])) =
      (t.found last.timestamp.val).addEvents eventRowLimit (joined (front ++ [last]))
        (front ++ [last]).length := by
  have hne : front ++ [last] ≠ [] := by simp
  rw [Telemetry.getEventTelemetry]
  simp only [lastTimestamp_getOutput, bracketed_getOutput hne, separators_joined hne h,
    Telemetry.found]

theorem joined_length_pos {rows : List LogEntry} (h : rows ≠ []) : (joined rows).length > 0 :=
  List.length_pos_iff.mpr (joined_ne_nil h)

/-- The first events that are found. -/
theorem addEvents_first {body : Bytes} {count : ℕ} (hlimit : 0 < eventRowLimit)
    (htext : t.eventsJSON = []) (hcount : t.eventsFullCount = 0) :
    t.addEvents eventRowLimit body count = { t with eventsJSON := body, eventsFullCount := count } := by
  have hfull : ¬ t.eventsFullCount ≥ eventRowLimit := by omega
  have htwice : ¬ t.eventsFullCount ≥ eventRowLimit * 2 := by omega
  simp only [Telemetry.addEvents, htext, List.length_nil, gt_iff_lt, lt_self_iff_false, hfull, htwice,
    ↓reduceIte, List.nil_append]
  rw [hcount, Nat.zero_add]

end Telemetry

section Invariant
variable {eventRowLimit : ℕ} {h : History}

/-- Nothing was found yet. -/
structure Empty (h : History) : Prop where
  text : h.telemetry.eventsJSON = []
  update : h.telemetry.eventsUpdatesJSON = []
  next : h.telemetry.eventsNextFullJSON = []
  count : h.telemetry.eventsFullCount = 0
  next_count : h.telemetry.eventsNextFullCount = 0
  time : h.telemetry.lastEventTime = []
  current : h.current = []
  pending : h.pending.length ≤ h.log.length
  unpolled : h.polled = false → h.pending = []

/-- The log consists of older events, those shown and those logged since the last poll; the next
text has the last ones of those shown. -/
structure Filled (eventRowLimit : ℕ) (h : History) (older shown fresh next : List LogEntry) :
    Prop where
  log : h.log = older ++ (shown ++ fresh)
  text : h.telemetry.eventsJSON = joined shown
  count : h.telemetry.eventsFullCount = shown.length
  time : ∃ front last, shown = front ++ [last] ∧ h.telemetry.lastEventTime = last.timestamp.val
  fresh_time : ∀ e ∈ fresh, h.telemetry.lastEventTime < e.timestamp.val
  enough : older = [] ∨ eventRowLimit ≤ shown.length
  next_text : h.telemetry.eventsNextFullJSON = joined next
  next_count : h.telemetry.eventsNextFullCount = next.length
  next_suffix : next <:+ shown
  next_limit : next ≠ [] → eventRowLimit ≤ shown.length
  polled : h.polled = true
  pending : h.pending = fresh

structure Inv (eventRowLimit : ℕ) (h : History) : Prop where
  sorted : Sorted h.log
  plain : ∀ e ∈ h.log, separators (eventText e) = 0
  sinceReset : h.sinceReset ≤ h.log.length
  past : h.past = []
  updates : ∀ update ∈ h.updates, update.2 = joined update.1
  shape : Empty h ∨ ∃ older shown fresh next, Filled eventRowLimit h older shown fresh next

/-- Nothing is left to be found. -/
def Settled (eventRowLimit : ℕ) (h : History) : Prop :=
  (Empty h ∧ h.log = []) ∨ ∃ older shown next, Filled eventRowLimit h older shown [] next

theorem Filled.shown_ne {older shown fresh next : List LogEntry}
    (hf : Filled eventRowLimit h older shown fresh next) : shown ≠ [] := by
  obtain ⟨front, last, rfl, -⟩ := hf.time
  simp

theorem Inv.empty (hinv : Inv eventRowLimit h) (hcount : h.telemetry.eventsFullCount = 0) :
    Empty h := by
  rcases hinv.shape with hempty | ⟨older, shown, fresh, next, hf⟩
  · exact hempty
  · have hpos := List.length_pos_iff.mpr hf.shown_ne
    rw [hf.count] at hcount
    omega

theorem Inv.right (hinv : Inv eventRowLimit h) (hsettled : Settled eventRowLimit h) :
    Right eventRowLimit h := by
  refine ⟨?_, hinv.updates⟩
  have hsince := hinv.sinceReset
  rcases hsettled with ⟨hempty, hlog⟩ | ⟨older, shown, next, hf⟩
  · refine ⟨[], hempty.text, List.nil_suffix, by simp, ?_, hempty.count⟩
    rw [hlog, List.length_nil] at hsince
    simp only [List.length_nil]
    omega
  · refine ⟨shown, hf.text, ?_, by simp [hinv.past], ?_, hf.count⟩
    · rw [hf.log, List.append_nil]
      exact List.suffix_append older shown
    · rw [hf.log, List.append_nil, List.length_append] at hsince
      rcases hf.enough with hnil | henough
      · rw [hnil, List.length_nil] at hsince
        omega
      · omega

theorem insert_inv {e : LogEntry} (hinv : Inv eventRowLimit h)
    (hcareful : Careful eventRowLimit h (.insert e))
    (hsorted : ∀ e' ∈ h.log, ¬ e.timestamp.val < e'.timestamp.val) :
    Inv eventRowLimit { h with
      log := h.log ++ [e]
      sinceReset := h.sinceReset + 1
      pending := if h.polled then h.pending ++ [e] else h.pending } where
  sorted := List.pairwise_append.mpr
    ⟨hinv.sorted, List.pairwise_singleton _ _, fun e' he' e'' he'' => by
      rw [List.mem_singleton.mp he'']
      exact hsorted e' he'⟩
  plain := by
    intro e' he'
    rcases List.mem_append.mp he' with hmem | hmem
    · exact hinv.plain e' hmem
    · rw [List.mem_singleton.mp hmem]
      exact hcareful.2
  sinceReset := by
    have hsince := hinv.sinceReset
    simp only [List.length_append, List.length_singleton]
    omega
  past := hinv.past
  updates := hinv.updates
  shape := by
    rcases hinv.shape with hempty | ⟨older, shown, fresh, next, hf⟩
    · refine .inl { hempty with pending := ?_, unpolled := ?_ }
      · have hpending := hempty.pending
        dsimp only
        split_ifs <;> simp only [List.length_append, List.length_singleton] <;> omega
      · intro hpolled
        have hfalse : h.polled = false := hpolled
        rw [if_neg (by simp [hfalse])]
        exact hempty.unpolled hfalse
    · refine .inr ⟨older, shown, fresh ++ [e], next,
        { hf with log := ?_, fresh_time := ?_, pending := ?_ }⟩
      · simp [hf.log]
      · intro e' he'
        rcases List.mem_append.mp he' with hmem | hmem
        · exact hf.fresh_time e' hmem
        · rw [List.mem_singleton.mp hmem]
          obtain ⟨front, last, -, htime⟩ := hf.time
          apply hcareful.1.resolve_left
          rw [htime]
          exact last.timestamp.property.1
      · simp [hf.polled, hf.pending]

/-- The part of the state after a poll that the database does not change. -/
def afterPoll (h : History) (rows : List LogEntry) (t : Telemetry) : History :=
  { h with
    telemetry := t
    polled := true
    current := h.current ++ rows
    pending := []
    updates := h.updates ++ [(h.pending, t.eventsUpdatesJSON)] }

theorem Inv.afterPoll (hinv : Inv eventRowLimit h) {rows : List LogEntry} {t : Telemetry}
    (hupdate : t.eventsUpdatesJSON = joined h.pending)
    (hsettled : Settled eventRowLimit (afterPoll h rows t)) :
    Inv eventRowLimit (afterPoll h rows t) where
  sorted := hinv.sorted
  plain := hinv.plain
  sinceReset := hinv.sinceReset
  past := hinv.past
  updates := by
    intro update hmem
    rcases List.mem_append.mp hmem with hbefore | hlast
    · exact hinv.updates update hbefore
    · rw [List.mem_singleton.mp hlast]
      exact hupdate
  shape := by
    rcases hsettled with ⟨hempty, -⟩ | ⟨older, shown, next, hf⟩
    · exact .inl hempty
    · exact .inr ⟨older, shown, [], next, hf⟩

/-- The first poll that finds events. -/
theorem poll_empty {rows : List LogEntry} (hlimit : 0 < eventRowLimit)
    (hinv : Inv eventRowLimit h) (hempty : Empty h)
    (hanswers : LimitAnswer eventRowLimit h.log rows)
    (hcareful : Careful eventRowLimit h (.poll rows)) :
    (h.telemetry.getEventTelemetry eventRowLimit (some rows)).eventsUpdatesJSON =
        joined h.pending ∧
      Settled eventRowLimit
        (afterPoll h rows (h.telemetry.getEventTelemetry eventRowLimit (some rows))) := by
  obtain ⟨hsuffix, hfound⟩ := hcareful
  obtain ⟨-, hlength, -⟩ := hanswers
  rcases List.eq_nil_or_concat' rows with rfl | ⟨front, last, rfl⟩
  · have hlog : h.log = [] := by
      apply List.eq_nil_of_length_eq_zero
      rw [List.length_nil] at hlength
      omega
    have hpending : h.pending = [] := by
      apply List.eq_nil_of_length_eq_zero
      have hle := hempty.pending
      rw [hlog, List.length_nil] at hle
      omega
    rw [getEventTelemetry_nil]
    refine ⟨by rw [hpending]; rfl, .inl ⟨?_, hlog⟩⟩
    exact { hempty with
      update := rfl
      current := by simp [EventTelemetry.afterPoll, hempty.current]
      pending := by simp [EventTelemetry.afterPoll]
      unpolled := fun _ => rfl }
  · obtain ⟨hfirst, -⟩ := hfound (by simp)
    have hpending : h.pending = [] := by
      apply hempty.unpolled
      cases hpolled : h.polled with
      | false => rfl
      | true => exact absurd hempty.text (hfirst hpolled)
    have hplain : ∀ e ∈ front ++ [last], separators (eventText e) = 0 :=
      fun e he => hinv.plain e (hsuffix.subset he)
    obtain ⟨older, holder⟩ := hsuffix
    rw [getEventTelemetry_concat _ hplain,
      addEvents_first (t := h.telemetry.found _) hlimit hempty.text hempty.count]
    refine ⟨by rw [hpending]; exact hempty.update, .inr ⟨older, front ++ [last], [], ?_⟩⟩
    exact {
      log := by simpa [EventTelemetry.afterPoll] using holder.symm
      text := rfl
      count := rfl
      time := ⟨front, last, rfl, rfl⟩
      fresh_time := by simp
      enough := by
        have hparts : (older ++ (front ++ [last])).length =
            older.length + (front ++ [last]).length := List.length_append
        rw [← holder, hparts] at hlength
        by_cases hnil : older = []
        · exact .inl hnil
        · have hpos := List.length_pos_iff.mpr hnil
          exact .inr (by omega)
      next_text := hempty.next
      next_count := hempty.next_count
      next_suffix := List.nil_suffix
      next_limit := fun hne => absurd rfl hne
      polled := rfl
      pending := rfl }

/-- What a later poll finds is what was logged since the one before. -/
theorem Filled.rows_eq {older shown fresh next rows : List LogEntry} (hinv : Inv eventRowLimit h)
    (hf : Filled eventRowLimit h older shown fresh next)
    (hanswers : TimeAnswer h.telemetry.lastEventTime h.log rows) (hsuffix : rows <:+ h.log) :
    rows = fresh := by
  obtain ⟨front, last, hshown, htime⟩ := hf.time
  have hlog : h.log = (older ++ front) ++ [last] ++ fresh := by rw [hf.log, hshown]; simp
  have hsorted := hinv.sorted
  rw [Sorted, hlog] at hsorted
  obtain ⟨-, -, hbefore⟩ := List.pairwise_append.mp (List.pairwise_append.mp hsorted).1
  have hold : ((older ++ front) ++ [last]).filter
      (fun e => h.telemetry.lastEventTime < e.timestamp.val) = [] := by
    rw [List.filter_eq_nil_iff]
    intro e he
    rw [htime, decide_eq_true_eq]
    rcases List.mem_append.mp he with hmem | hmem
    · exact hbefore e hmem last (by simp)
    · rw [List.mem_singleton.mp hmem]
      exact lt_irrefl _
  have hnew : fresh.filter (fun e => h.telemetry.lastEventTime < e.timestamp.val) = fresh := by
    rw [List.filter_eq_self]
    exact fun e he => decide_eq_true (hf.fresh_time e he)
  have hlength : rows.length = fresh.length := by
    have hperm := hanswers.length_eq
    rwa [hlog, List.filter_append, hold, hnew, List.nil_append] at hperm
  have hfresh : fresh <:+ h.log := by
    rw [hlog]
    exact List.suffix_append _ _
  exact (List.suffix_of_suffix_length_le hsuffix hfresh hlength.le).eq_of_length hlength

/-- The next text, with the new events behind it. -/
theorem joined_next {rows : List LogEntry} (next : List LogEntry) (h : rows ≠ []) :
    (if (joined next).length > 0 then joined next ++ [44] else joined next) ++ joined rows =
      joined (next ++ rows) := by
  by_cases hnext : next = []
  · simp [hnext, joined]
  · rw [if_pos (joined_length_pos hnext), joined_append hnext h]
    simp

theorem addEvents_next {t : Telemetry} {shown next rows : List LogEntry}
    (hrows : rows ≠ []) (hshown : shown ≠ []) (htext : t.eventsJSON = joined shown)
    (hcount : t.eventsFullCount = shown.length) (hnext : t.eventsNextFullJSON = joined next)
    (hnext_count : t.eventsNextFullCount = next.length) :
    t.addEvents eventRowLimit (joined rows) rows.length =
      let next := if shown.length ≥ eventRowLimit then next ++ rows else next
      if shown.length ≥ eventRowLimit * 2 then
        { t with
          eventsUpdatesJSON := joined rows
          eventsJSON := joined next
          eventsNextFullJSON := []
          eventsFullCount := next.length
          eventsNextFullCount := 0 }
      else
        { t with
          eventsUpdatesJSON := joined rows
          eventsJSON := joined (shown ++ rows)
          eventsNextFullJSON := joined next
          eventsFullCount := shown.length + rows.length
          eventsNextFullCount := next.length } := by
  have hpos := joined_length_pos hshown
  have happend : joined shown ++ [44] ++ joined rows = joined (shown ++ rows) := by
    rw [joined_append hshown hrows]
    simp
  rw [Telemetry.addEvents]
  simp only [htext, hpos, hcount, hnext, hnext_count, ↓reduceIte]
  by_cases hfull : shown.length ≥ eventRowLimit
  · simp only [hfull, ↓reduceIte, joined_next next hrows, List.length_append, happend]
  · have htwice : ¬ shown.length ≥ eventRowLimit * 2 := by omega
    simp only [hfull, htwice, ↓reduceIte, happend]

/-- A later poll. -/
theorem poll_filled {older shown fresh next rows : List LogEntry} (hlimit : 0 < eventRowLimit)
    (hinv : Inv eventRowLimit h) (hf : Filled eventRowLimit h older shown fresh next)
    (hanswers : TimeAnswer h.telemetry.lastEventTime h.log rows)
    (hcareful : Careful eventRowLimit h (.poll rows)) :
    (h.telemetry.getEventTelemetry eventRowLimit (some rows)).eventsUpdatesJSON =
        joined h.pending ∧
      Settled eventRowLimit
        (afterPoll h rows (h.telemetry.getEventTelemetry eventRowLimit (some rows))) := by
  obtain ⟨hsuffix, hfound⟩ := hcareful
  obtain rfl := hf.rows_eq hinv hanswers hsuffix
  rcases List.eq_nil_or_concat' rows with rfl | ⟨front, last, rfl⟩
  · rw [getEventTelemetry_nil]
    refine ⟨by rw [hf.pending]; rfl, .inr ⟨older, shown, next, ?_⟩⟩
    exact { hf with polled := rfl, pending := rfl }
  · obtain ⟨-, hswap⟩ := hfound (by simp)
    have hplain : ∀ e ∈ front ++ [last], separators (eventText e) = 0 :=
      fun e he => hinv.plain e (hsuffix.subset he)
    have hrows : front ++ [last] ≠ [] := by simp
    rw [getEventTelemetry_concat _ hplain,
      addEvents_next (t := h.telemetry.found _) hrows hf.shown_ne hf.text hf.count hf.next_text
        hf.next_count]
    rw [hf.count, hf.next_count] at hswap
    obtain ⟨skipped, hskipped⟩ := hf.next_suffix
    -- the texts are swapped, grow both, or only the first one grows
    by_cases htwice : shown.length ≥ eventRowLimit * 2
    · have hfull : shown.length ≥ eventRowLimit := by omega
      simp only [hfull, htwice, ↓reduceIte]
      refine ⟨by rw [hf.pending], .inr ⟨older ++ skipped, next ++ (front ++ [last]), [], ?_⟩⟩
      exact {
        log := by simp [EventTelemetry.afterPoll, hf.log, ← hskipped]
        text := rfl
        count := rfl
        time := ⟨next ++ front, last, by simp, rfl⟩
        fresh_time := by simp
        enough := by
          rw [List.length_append]
          exact .inr (hswap htwice)
        next_text := rfl
        next_count := rfl
        next_suffix := List.nil_suffix
        next_limit := fun hne => absurd rfl hne
        polled := rfl
        pending := rfl }
    · simp only [htwice, ↓reduceIte]
      refine ⟨by rw [hf.pending], .inr ⟨older, shown ++ (front ++ [last]),
        if shown.length ≥ eventRowLimit then next ++ (front ++ [last]) else next, ?_⟩⟩
      exact {
        log := by simp [EventTelemetry.afterPoll, hf.log]
        text := rfl
        count := List.length_append.symm
        time := ⟨shown ++ front, last, by simp, rfl⟩
        fresh_time := by simp
        enough := by
          rw [List.length_append]
          exact hf.enough.imp id fun h => by omega
        next_text := rfl
        next_count := rfl
        next_suffix := by
          split_ifs with hfull
          · rw [← hskipped, List.append_assoc]
            exact List.suffix_append _ _
          · have hnone : next = [] := by
              by_contra hne
              exact hfull (hf.next_limit hne)
            rw [hnone]
            exact List.nil_suffix
        next_limit := by
          intro hne
          rw [List.length_append]
          split_ifs at hne with hfull
          · omega
          · exact absurd (hf.next_limit hne) hfull
        polled := rfl
        pending := rfl }

theorem Inv.clearLog (hinv : Inv eventRowLimit h) (hcount : h.telemetry.eventsFullCount = 0) :
    Inv eventRowLimit
      { h.reset with log := [], telemetry := h.telemetry.clearLog, pending := [] } := by
  have hempty := hinv.empty hcount
  exact {
    sorted := List.Pairwise.nil
    plain := by simp
    sinceReset := le_rfl
    past := by simp [History.reset, hinv.past, hempty.current]
    updates := hinv.updates
    shape := .inl {
      hempty with
      text := rfl
      update := rfl
      current := rfl
      pending := le_rfl
      unpolled := fun _ => rfl } }

theorem Inv.lastClosed (hinv : Inv eventRowLimit h) (hcount : h.telemetry.eventsFullCount = 0) :
    Inv eventRowLimit { h.reset with telemetry := h.telemetry.lastClosed } := by
  have hempty := hinv.empty hcount
  exact {
    sorted := hinv.sorted
    plain := hinv.plain
    sinceReset := Nat.zero_le _
    past := by simp [History.reset, hinv.past, hempty.current]
    updates := hinv.updates
    shape := .inl {
      hempty with
      text := rfl
      update := rfl
      time := rfl
      current := rfl } }

theorem Inv.pollFails (hinv : Inv eventRowLimit h) :
    Inv eventRowLimit { h with telemetry := h.telemetry.getEventTelemetry eventRowLimit none } where
  sorted := hinv.sorted
  plain := hinv.plain
  sinceReset := hinv.sinceReset
  past := hinv.past
  updates := hinv.updates
  shape := by
    rcases hinv.shape with hempty | ⟨older, shown, fresh, next, hf⟩
    · exact .inl { hempty with }
    · exact .inr ⟨older, shown, fresh, next, { hf with }⟩

theorem poll_inv {rows : List LogEntry} {h' : History} (hlimit : 0 < eventRowLimit)
    (hinv : Inv eventRowLimit h) (hcareful : Careful eventRowLimit h (.poll rows))
    (hstep : (history eventRowLimit).step h (.poll rows) = some h') :
    Inv eventRowLimit h' ∧ Settled eventRowLimit h' := by
  change step eventRowLimit h (.poll rows) = some h' at hstep
  simp only [step] at hstep
  split at hstep
  · next hanswers =>
    obtain ⟨-, hanswer⟩ := hanswers
    obtain rfl := Option.some.inj hstep
    have hpoll : (h.telemetry.getEventTelemetry eventRowLimit (some rows)).eventsUpdatesJSON =
          joined h.pending ∧
        Settled eventRowLimit
          (afterPoll h rows (h.telemetry.getEventTelemetry eventRowLimit (some rows))) := by
      rcases hinv.shape with hempty | ⟨older, shown, fresh, next, hf⟩
      · rw [if_pos hempty.time] at hanswer
        exact poll_empty hlimit hinv hempty hanswer hcareful
      · obtain ⟨front, last, -, htime⟩ := hf.time
        rw [if_neg (htime ▸ last.timestamp.property.1)] at hanswer
        exact poll_filled hlimit hinv hf hanswer hcareful
    exact ⟨hinv.afterPoll hpoll.1 hpoll.2, hpoll.2⟩
  · cases hstep

theorem step_inv {h' : History} {act : Act} (hlimit : 0 < eventRowLimit)
    (hinv : Inv eventRowLimit h) (hcareful : Careful eventRowLimit h act)
    (hstep : (history eventRowLimit).step h act = some h') : Inv eventRowLimit h' := by
  cases act with
  | insert e =>
    change step eventRowLimit h (.insert e) = some h' at hstep
    simp only [step] at hstep
    split at hstep
    · obtain rfl := Option.some.inj hstep
      exact insert_inv hinv hcareful ‹_›
    · cases hstep
  | poll rows => exact (poll_inv hlimit hinv hcareful hstep).1
  | pollFails =>
    obtain rfl := Option.some.inj hstep
    exact hinv.pollFails
  | clearLog =>
    obtain rfl := Option.some.inj hstep
    exact hinv.clearLog hcareful
  | lastClosed =>
    obtain rfl := Option.some.inj hstep
    exact hinv.lastClosed hcareful

theorem initial_inv (eventRowLimit : ℕ) : Inv eventRowLimit .initial where
  sorted := List.Pairwise.nil
  plain := by simp [History.initial]
  sinceReset := le_rfl
  past := rfl
  updates := by simp [History.initial]
  shape := .inl ⟨rfl, rfl, rfl, rfl, rfl, rfl, rfl, le_rfl, fun _ => rfl⟩

/-- After each poll of a run that meets the conditions, the history is right. -/
theorem run_right {acts : List Act} {rows : List LogEntry} (hlimit : 0 < eventRowLimit)
    (hrun : (history eventRowLimit).run .initial (acts ++ [.poll rows]) = some h)
    (hobeys : (history eventRowLimit).Obeys (Careful eventRowLimit) .initial
      (acts ++ [.poll rows])) : Right eventRowLimit h := by
  obtain ⟨h₀, hbefore, hlast⟩ := Machine.run_append_eq_some.mp hrun
  obtain ⟨h', hstep, hend⟩ := Machine.run_cons_eq_some.mp hlast
  obtain rfl := Option.some.inj hend
  have hinv : Inv eventRowLimit h₀ :=
    Machine.obeys_invariant (fun _ _ _ hinv hcareful => step_inv hlimit hinv hcareful)
      (initial_inv eventRowLimit) (Machine.obeys_of_append hobeys) hbefore
  have hcareful := (Machine.obeys_append hobeys hbefore).1
  obtain ⟨hinv', hsettled⟩ := poll_inv hlimit hinv hcareful hstep
  exact hinv'.right hsettled

end Invariant

section Samples

/-- An event of the first second of a day, or of a later one. -/
def eventAt (second : Timestamp) : LogEntry := ⟨cstr "7", cstr "Info", cstr "MAP", [], second⟩

def firstSecond : Timestamp := ⟨cstr "2024-01-01 00:00:01", by decide +kernel⟩
def secondSecond : Timestamp := ⟨cstr "2024-01-01 00:00:02", by decide +kernel⟩
def thirdSecond : Timestamp := ⟨cstr "2024-01-01 00:00:03", by decide +kernel⟩

/-- Three events and three polls, the last of which swaps the texts. -/
def swappingRun : List Act :=
  [.insert (eventAt firstSecond), .poll [eventAt firstSecond], .insert (eventAt secondSecond),
    .poll [eventAt secondSecond], .insert (eventAt thirdSecond)]

theorem run_right_sample : ∃ h,
    (history 1).run .initial (swappingRun ++ [.poll [eventAt thirdSecond]]) = some h ∧
      h.telemetry.eventsFullCount = 2 ∧ Right 1 h := by
  have hcount : ((history 1).run .initial (swappingRun ++ [.poll [eventAt thirdSecond]])).map
      (fun h => h.telemetry.eventsFullCount) = some 2 := by decide +kernel
  obtain ⟨h, hrun, hh⟩ := Option.map_eq_some_iff.mp hcount
  exact ⟨h, hrun, hh, run_right Nat.one_pos hrun (by decide +kernel)⟩

/-- The log is cleared between two polls. -/
def clearedRun : List Act :=
  [.insert (eventAt firstSecond), .poll [eventAt firstSecond], .clearLog,
    .insert (eventAt secondSecond), .poll [eventAt secondSecond]]

/-- The count goes on from the events that were cleared. -/
theorem run_right_fails : ∃ h, (history 500).run .initial clearedRun = some h ∧
    h.telemetry.eventsFullCount = 2 ∧ h.log = [eventAt secondSecond] ∧ ¬ Right 500 h := by
  have hend : ((history 500).run .initial clearedRun).map
      (fun h => (h.telemetry.eventsFullCount, h.log)) = some (2, [eventAt secondSecond]) := by
    decide +kernel
  obtain ⟨h, hrun, hh⟩ := Option.map_eq_some_iff.mp hend
  obtain ⟨hcount, hlog⟩ := Prod.mk.inj hh
  refine ⟨h, hrun, hcount, hlog, ?_⟩
  intro hright
  obtain ⟨shown, -, hsuffix, -, -, hlength⟩ := hright.shown
  have hle := hsuffix.length_le
  rw [← hlength, hcount, hlog] at hle
  simp at hle

end Samples

end V2IHub.Command.EventTelemetry
