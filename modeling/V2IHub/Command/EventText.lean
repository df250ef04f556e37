import V2IHub.Foundation.Bytes

/-! The JSON text of the event log, and what `GetEventTelemetry` reads from it by searching for
single characters. -/
namespace V2IHub.Command.EventTelemetry
open Foundation

/-- The digits, `-`, `:`, the blank and the point. -/
def isTimestampByte (b : UInt8) : Bool :=
  48 ≤ b && b ≤ 57 || b = 45 || b = 58 || b = 32 || b = 46

/-- A timestamp as the database prints it; its texts are ordered like the times. -/
abbrev Timestamp := { text : Bytes // text ≠ [] ∧ text.all isTimestampByte = true }

/-- A row of `IVP.eventLog`. -/
structure LogEntry where
  id : Bytes
  level : Bytes
  source : Bytes
  description : Bytes
  timestamp : Timestamp
deriving DecidableEq

section Writer

/-- A digit of `\u` escapes. -/
def hexDigit (n : ℕ) : UInt8 := UInt8.ofNat (if n < 10 then 48 + n else 55 + n)

/-- `create_escapes` of the property tree's JSON writer. -/
def escapeByte (b : UInt8) : Bytes :=
  if b = 0x20 ∨ b = 0x21 ∨ 0x23 ≤ b ∧ b ≤ 0x2E ∨ 0x30 ≤ b ∧ b ≤ 0x5B ∨ 0x5D ≤ b then [b]
  else if b = 8 then [92, 98]
  else if b = 12 then [92, 102]
  else if b = 10 then [92, 110]
  else if b = 13 then [92, 114]
  else if b = 9 then [92, 116]
  else if b = 47 ∨ b = 34 ∨ b = 92 then [92, b]
  else [92, 117, 48, 48, hexDigit (b.toNat / 16), hexDigit (b.toNat % 16)]

def escape (text : Bytes) : Bytes := text.flatMap escapeByte

/-- A name and its value, up to the quote at the end. -/
def openField (name : String) (value : Bytes) : Bytes :=
  34 :: cstr name ++ [34, 58, 34] ++ escape value

def eventText (e : LogEntry) : Bytes :=
  123 :: openField "id" e.id ++ [34, 44] ++ openField "level" e.level ++ [34, 44]
    ++ openField "source" e.source ++ [34, 44] ++ openField "description" e.description ++ [34, 44]
    ++ openField "timestamp" e.timestamp.val ++ [34, 125]

/-- The events with commas between them. -/
def joined : List LogEntry → Bytes
  | [] => []
  | [e] => eventText e
  | e :: rows => eventText e ++ 44 :: joined rows

/-- `GetOutput` of the rows, without pretty printing. -/
def getOutput (rows : List LogEntry) : Bytes :=
  if rows = [] then [] else cstr "\x7b\"EventLog\":" ++ 91 :: joined rows ++ [93, 125, 10]

end Writer

section Search

/-- What is before and behind the first `c`. -/
def splitFirst (c : UInt8) : Bytes → Option (Bytes × Bytes)
  | [] => none
  | b :: text => if b = c then some ([], text)
    else (splitFirst c text).map fun r => (b :: r.1, r.2)

/-- What is before and behind the last `c`. -/
def splitLast (c : UInt8) (text : Bytes) : Option (Bytes × Bytes) :=
  (splitFirst c text.reverse).map fun r => (r.2.reverse, r.1.reverse)

/-- The text between the last two quotes, unless it is empty. -/
def lastTimestamp (eJSON : Bytes) : Option Bytes := do
  let (before, _) ← splitLast 34 eJSON
  let (_, text) ← splitLast 34 before
  if text = [] then none else some text

/-- What is from the first bracket on, and what is between it and the last one. -/
def bracketed (eJSON : Bytes) : Option (Bytes × Bytes) := do
  let (_, rest) ← splitFirst 91 eJSON
  let (body, _) ← splitLast 93 rest
  some (91 :: rest, body)

/-- How often the texts between two objects are found, each search going on behind the last. -/
def separators : Bytes → ℕ
  | 125 :: 44 :: 123 :: text => separators text + 1
  | _ :: text => separators text
  | [] => 0

end Search

section SearchLemmas
variable {c : UInt8} {before behind : Bytes}

theorem splitFirst_append (h : c ∉ before) :
    splitFirst c (before ++ c :: behind) = some (before, behind) := by
  induction before with
  | nil => simp [splitFirst]
  | cons b before ih =>
    simp only [List.mem_cons, not_or] at h
    rw [List.cons_append, splitFirst, if_neg (Ne.symm h.1), ih h.2]
    rfl

theorem splitLast_append (h : c ∉ behind) :
    splitLast c (before ++ c :: behind) = some (before, behind) := by
  have hreverse : (before ++ c :: behind).reverse = behind.reverse ++ c :: before.reverse := by
    simp
  rw [splitLast, hreverse, splitFirst_append (by simpa using h)]
  simp

theorem separators_cons {b : UInt8} {text : Bytes}
    (h : ∀ rest, b :: text ≠ 125 :: 44 :: 123 :: rest) :
    separators (b :: text) = separators text := by
  rw [separators]
  exact fun rest hb htext => h rest (by rw [hb, htext])

/-- No separator reaches over a closing brace. -/
theorem separators_append (before text : Bytes) :
    separators (before ++ 125 :: text) = separators before + separators (125 :: text) := by
  induction before using separators.induct with
  | case1 before ih =>
    simp only [List.cons_append, separators, ih]
    omega
  | case2 b before hnot ih =>
    have hleft : ∀ rest, b :: before ≠ 125 :: 44 :: 123 :: rest := by
      rintro rest heq
      obtain ⟨rfl, rfl⟩ := List.cons.inj heq
      exact hnot rest rfl rfl
    have hboth : ∀ rest, b :: (before ++ 125 :: text) ≠ 125 :: 44 :: 123 :: rest := by
      intro rest heq
      obtain ⟨rfl, heq⟩ := List.cons.inj heq
      match before, heq, hleft with
      | [], heq, _ => simp at heq
      | [d], heq, _ => simp at heq
      | d :: d' :: before, heq, hleft =>
        simp only [List.cons_append, List.cons.injEq, true_and] at heq
        obtain ⟨hd, hd', -⟩ := heq
        exact hleft before (by rw [hd, hd'])
    rw [List.cons_append, separators_cons hboth, separators_cons hleft, ih]
  | case3 => simp [separators]

end SearchLemmas

section Texts

theorem escape_timestamp (t : Timestamp) : escape t.val = t.val := by
  have hplain : ∀ b, isTimestampByte b = true → escapeByte b = [b] := by
    intro b hb
    rw [escapeByte, if_pos]
    simp only [isTimestampByte, Bool.or_eq_true, Bool.and_eq_true, decide_eq_true_eq,
      UInt8.le_iff_toNat_le, ← UInt8.toNat_inj, UInt8.reduceToNat] at hb ⊢
    omega
  have hall := List.all_eq_true.mp t.property.2
  rw [escape]
  generalize t.val = text at hall
  induction text with
  | nil => rfl
  | cons b text ih =>
    obtain ⟨hb, htext⟩ := List.forall_mem_cons.mp hall
    rw [List.flatMap_cons, hplain b hb, ih htext, List.singleton_append]

theorem quote_notMem_timestamp (t : Timestamp) : 34 ∉ t.val := by
  intro hmem
  have hquote := List.all_eq_true.mp t.property.2 34 hmem
  revert hquote
  decide

/-- An event ends with its timestamp. -/
theorem eventText_eq (e : LogEntry) :
    ∃ front, eventText e = 123 :: front ++ 34 :: e.timestamp.val ++ [34, 125] := by
  refine ⟨openField "id" e.id ++ [34, 44] ++ openField "level" e.level ++ [34, 44]
    ++ openField "source" e.source ++ [34, 44] ++ openField "description" e.description ++ [34, 44]
    ++ (34 :: cstr "timestamp" ++ [34, 58]), ?_⟩
  simp [eventText, openField, escape_timestamp]

theorem joined_cons {e : LogEntry} {rows : List LogEntry} (h : rows ≠ []) :
    joined (e :: rows) = eventText e ++ 44 :: joined rows := by
  cases rows with
  | nil => contradiction
  | cons e' rows => rfl

theorem joined_append {rows rows' : List LogEntry} (h : rows ≠ []) (h' : rows' ≠ []) :
    joined (rows ++ rows') = joined rows ++ 44 :: joined rows' := by
  induction rows with
  | nil => contradiction
  | cons e rows ih =>
    by_cases hrows : rows = []
    · subst hrows
      exact joined_cons h'
    · rw [List.cons_append, joined_cons (by simp [hrows]), joined_cons hrows, ih hrows]
      simp

theorem joined_ne_nil {rows : List LogEntry} (h : rows ≠ []) : joined rows ≠ [] := by
  cases rows with
  | nil => contradiction
  | cons e rows =>
    obtain ⟨front, hfront⟩ := eventText_eq e
    cases rows with
    | nil => simp [joined, hfront]
    | cons e' rows => simp [joined_cons, hfront]

/-- The last event of a list is at the end of its text. -/
theorem joined_concat (rows : List LogEntry) (e : LogEntry) :
    ∃ front, joined (rows ++ [e]) = front ++ 34 :: e.timestamp.val ++ [34, 125] := by
  obtain ⟨front, hfront⟩ := eventText_eq e
  by_cases hrows : rows = []
  · subst hrows
    exact ⟨_, hfront⟩
  · refine ⟨joined rows ++ 44 :: 123 :: front, ?_⟩
    rw [joined_append hrows (by simp), joined, hfront]
    simp

theorem lastTimestamp_getOutput (rows : List LogEntry) (e : LogEntry) :
    lastTimestamp (getOutput (rows ++ [e])) = some e.timestamp.val := by
  obtain ⟨front, hfront⟩ := joined_concat rows e
  have houtput : getOutput (rows ++ [e]) = (cstr "\x7b\"EventLog\":" ++ 91 :: front
      ++ 34 :: e.timestamp.val) ++ 34 :: [125, 93, 125, 10] := by
    rw [getOutput, if_neg (by simp), hfront]
    simp
  rw [lastTimestamp, houtput, splitLast_append (by decide)]
  simp only [Option.bind_eq_bind, Option.bind_some]
  rw [splitLast_append (quote_notMem_timestamp e.timestamp)]
  simp [e.timestamp.property.1]

theorem bracketed_getOutput {rows : List LogEntry} (h : rows ≠ []) :
    bracketed (getOutput rows) = some (91 :: joined rows ++ [93, 125, 10], joined rows) := by
  have houtput : getOutput rows = cstr "\x7b\"EventLog\":" ++ 91 :: (joined rows ++ 93 :: [125, 10]) := by
    rw [getOutput, if_neg h]
    simp
  rw [bracketed, houtput, splitFirst_append (by decide)]
  simp only [Option.bind_eq_bind, Option.bind_some]
  rw [splitLast_append (by decide)]
  simp

/-- Rows without a separator in their own texts are counted right. -/
theorem separators_joined {rows : List LogEntry} (hrows : rows ≠ [])
    (h : ∀ e ∈ rows, separators (eventText e) = 0) :
    1 + separators (91 :: joined rows ++ [93, 125, 10]) = rows.length := by
  have hopen : ∀ text, separators (91 :: text) = separators text :=
    fun text => separators_cons (by simp)
  have hbrace : ∀ text, separators (123 :: text) = separators text :=
    fun text => separators_cons (by simp)
  rw [List.cons_append, hopen]
  induction rows with
  | nil => contradiction
  | cons e rows ih =>
    obtain ⟨he, hrest⟩ := List.forall_mem_cons.mp h
    obtain ⟨front, hfront⟩ := eventText_eq e
    have htext : eventText e = (123 :: front ++ 34 :: e.timestamp.val ++ [34]) ++ 125 :: [] := by
      rw [hfront]
      simp
    have hzero : separators (123 :: front ++ 34 :: e.timestamp.val ++ [34]) = 0 := by
      rw [htext, separators_append] at he
      omega
    by_cases hnil : rows = []
    · subst hnil
      have hend : joined [e] ++ [93, 125, 10] =
          (123 :: front ++ 34 :: e.timestamp.val ++ [34]) ++ 125 :: [93, 125, 10] := by
        rw [joined, htext]
        simp
      rw [hend, separators_append, hzero]
      rfl
    · obtain ⟨e', rows, rfl⟩ := List.exists_cons_of_ne_nil hnil
      obtain ⟨front', hfront'⟩ := eventText_eq e'
      obtain ⟨rest, hnext⟩ : ∃ rest, joined (e' :: rows) ++ [93, 125, 10] = 123 :: rest := by
        cases rows with
        | nil => exact ⟨_, by rw [joined, hfront']; rfl⟩
        | cons e'' rows => exact ⟨_, by rw [joined_cons (by simp), hfront']; rfl⟩
      have hend : joined (e :: e' :: rows) ++ [93, 125, 10] =
          (123 :: front ++ 34 :: e.timestamp.val ++ [34]) ++ 125 :: 44 :: 123 :: rest := by
        rw [← hnext, joined_cons (by simp), htext]
        simp
      have hcount := ih (by simp) hrest
      rw [hnext, hbrace] at hcount
      rw [hend, separators_append, hzero, separators]
      simp only [List.length_cons] at hcount ⊢
      omega

end Texts

end V2IHub.Command.EventTelemetry
