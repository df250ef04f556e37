import V2IHub.Foundation.Eviction
import V2IHub.Foundation.Machine
import V2IHub.Foundation.Strtol

/-! The event log of the core, and the thread of `HistoryManager` that purges it while entries are
added. -/
namespace V2IHub.Core
open Foundation

/-- `strtoul(value, &tailptr, 10)` -/
def strtoul10 (value : Bytes) : ℕ :=
  let (negative, text) :=
    match value.dropWhile isSpace with
    | 45 :: rest => (true, rest)
    | 43 :: rest => (false, rest)
    | rest => (false, rest)
  let magnitude := leadingDigits 10 text 0
  if 2 ^ 64 ≤ magnitude then 2 ^ 64 - 1
  else if negative then (2 ^ 64 - magnitude) % 2 ^ 64
  else magnitude

/-- The name of a level in the database. -/
def levelString (level : BitVec 32) : Bytes :=
  match level.toNat with
  | 1 => cstr "Info"
  | 2 => cstr "Warning"
  | 3 => cstr "Error"
  | 4 => cstr "Fatal"
  | _ => cstr "Debug"

/-- A row of the table, but for the identifier that it gets. -/
structure EventLogRow where
  source : Bytes
  description : Bytes
  logLevel : Bytes
  timestamp : ℕ
deriving DecidableEq

/-- The purge thread between two purges, and between the two queries of one. -/
inductive PurgePc where
  | sleeping
  | counted (numberToRemove : ℕ)
deriving DecidableEq

structure EventLog where
  rows : List EventLogRow
  purge : PurgePc

/-- `timestamp` is the clock of the server. Which of equally old rows go is for the server to
say. -/
inductive EventLogAct where
  | addEventLogEntry (source description : Bytes) (level : BitVec 32) (timestamp : ℕ)
  | clear_event_log
  | count (value : Bytes)
  | delete (removed rest : List EventLogRow)
  | dbException

namespace EventLog

/-- The table as the purge thread finds it when it starts. -/
def init (rows : List EventLogRow) : EventLog := ⟨rows, .sleeping⟩

/-- The configured value in an `unsigned int`. -/
def maxEventLogSize (value : Bytes) : ℕ := strtoul10 value % 2 ^ 32

/-- `purgeOldLogEntries` up to its second query. -/
def countOldLogEntries (numberToKeep : ℕ) (s : EventLog) : EventLog :=
  let count := s.rows.length % 2 ^ 32
  if numberToKeep > count then s
  else { s with purge := .counted (count - numberToKeep) }

/-- What the purge thread does once it has slept long enough. -/
def startPurge (value : Bytes) (s : EventLog) : EventLog :=
  if maxEventLogSize value ≠ 0 then s.countOldLogEntries (maxEventLogSize value) else s

/-- The row that `addEventLogEntry` inserts. -/
def entry (source description : Bytes) (level : BitVec 32) (timestamp : ℕ) : EventLogRow :=
  ⟨source, description, levelString level, timestamp⟩

/-- An exception of the database ends a purge. -/
def machine : Machine EventLog EventLogAct where
  step s
    | .addEventLogEntry source description level timestamp =>
      some { s with rows := s.rows ++ [entry source description level timestamp] }
    | .clear_event_log => some { s with rows := [] }
    | .count value => if s.purge = .sleeping then some (s.startPurge value) else none
    | .delete removed rest =>
      match s.purge with
      | .sleeping => none
      | .counted numberToRemove =>
        if Evicts EventLogRow.timestamp numberToRemove s.rows removed rest then
          some ⟨rest, .sleeping⟩
        else none
    | .dbException => some { s with purge := .sleeping }

/-- What was logged and not cleared. -/
def logged (rows : List EventLogRow) (acts : List EventLogAct) : List EventLogRow :=
  acts.foldl (fun rows act =>
    match act with
    | .addEventLogEntry source description level timestamp =>
      rows ++ [entry source description level timestamp]
    | .clear_event_log => []
    | _ => rows) rows

/-- The configured sizes are at least `K`, or 0, which turns purging off; and nobody clears the log
between the two queries of a purge. -/
def Keeping (K : ℕ) (s : EventLog) : EventLogAct → Prop
  | .count value => maxEventLogSize value ≠ 0 → K ≤ maxEventLogSize value
  | .clear_event_log => s.purge = .sleeping
  | _ => True

instance decidableKeeping (K : ℕ) (s : EventLog) (a : EventLogAct) : Decidable (Keeping K s a) := by
  cases a <;> unfold Keeping <;> infer_instance

/-- What is missing of `all` is older than `K` rows that are there, and a purge under way leaves as
many. -/
structure Kept (K : ℕ) (all : List EventLogRow) (s : EventLog) : Prop where
  missing : ∃ gone, (gone ++ s.rows).Perm all ∧
    ∀ row ∈ gone, K ≤ notOlder EventLogRow.timestamp row s.rows
  room : ∀ numberToRemove, s.purge = .counted numberToRemove →
    numberToRemove + K ≤ s.rows.length

section Steps
variable {K : ℕ} {all : List EventLogRow} {s t : EventLog}

theorem Kept.add (h : Kept K all s) (row : EventLogRow) :
    Kept K (all ++ [row]) { s with rows := s.rows ++ [row] } := by
  obtain ⟨gone, hperm, hgone⟩ := h.missing
  refine ⟨⟨gone, ?_, fun old hold => ?_⟩, fun n hn => ?_⟩
  · rw [← List.append_assoc]
    exact hperm.append_right [row]
  · have hbefore := hgone old hold
    unfold notOlder at hbefore ⊢
    rw [List.countP_append]
    omega
  · have hroom := h.room n hn
    rw [List.length_append]
    omega

theorem kept_sleeping {rows : List EventLogRow} : Kept K rows (init rows) :=
  ⟨⟨[], List.Perm.refl _, by simp⟩, fun n hn => by cases hn⟩

theorem Kept.count (h : Kept K all s) {value : Bytes}
    (hvalue : maxEventLogSize value ≠ 0 → K ≤ maxEventLogSize value) :
    Kept K all (s.startPurge value) := by
  unfold startPurge countOldLogEntries
  dsimp only
  split_ifs with hnonzero hmany
  · exact h
  · refine ⟨h.missing, fun n hn => ?_⟩
    have hle := Nat.mod_le s.rows.length (2 ^ 32)
    have hkeep := hvalue hnonzero
    cases hn
    dsimp only
    omega
  · exact h

theorem Kept.delete (h : Kept K all s) {n : ℕ} {removed rest : List EventLogRow}
    (hpurge : s.purge = .counted n)
    (hevicts : Evicts EventLogRow.timestamp n s.rows removed rest) :
    Kept K all ⟨rest, .sleeping⟩ := by
  obtain ⟨gone, hperm, hgone⟩ := h.missing
  refine ⟨⟨gone ++ removed, ?_, fun old hold => ?_⟩, fun n hn => by cases hn⟩
  · rw [List.append_assoc]
    exact (hevicts.perm.append_left gone).trans hperm
  · apply hevicts.keeps_notOlder (h.room n hpurge)
    rcases List.mem_append.mp hold with hold | hold
    · exact .inr (hgone old hold)
    · exact .inl hold

theorem Kept.step {a : EventLogAct} (h : Kept K all s) (hguard : Keeping K s a)
    (hs : machine.step s a = some t) : Kept K (logged all [a]) t := by
  cases a with
  | addEventLogEntry source description level timestamp =>
    obtain rfl := Option.some.inj hs
    exact h.add _
  | clear_event_log =>
    obtain rfl := Option.some.inj hs
    have hsleeping : s.purge = .sleeping := hguard
    refine ⟨⟨[], List.Perm.refl _, by simp⟩, fun n hn => ?_⟩
    rw [show s.purge = .counted n from hn] at hsleeping
    cases hsleeping
  | count value =>
    simp only [machine, Option.ite_none_right_eq_some, Option.some.injEq] at hs
    obtain ⟨-, rfl⟩ := hs
    exact h.count hguard
  | delete removed rest =>
    cases hpurge : s.purge with
    | sleeping => simp [machine, hpurge] at hs
    | counted n =>
      simp only [machine, hpurge, Option.ite_none_right_eq_some, Option.some.injEq] at hs
      obtain ⟨hevicts, rfl⟩ := hs
      exact h.delete hpurge hevicts
  | dbException =>
    obtain rfl := Option.some.inj hs
    exact ⟨h.missing, fun n hn => by cases hn⟩

theorem Kept.run {acts : List EventLogAct} (h : Kept K all s)
    (hobeys : machine.Obeys (Keeping K) s acts) (hrun : machine.run s acts = some t) :
    Kept K (logged all acts) t := by
  induction acts generalizing s all with
  | nil =>
    obtain rfl : s = t := by simpa using hrun
    exact h
  | cons a acts ih =>
    obtain ⟨u, hu, hrun⟩ := Machine.run_cons_eq_some.mp hrun
    obtain ⟨hguard, hobeys⟩ := (Machine.obeys_cons hu).mp hobeys
    exact ih (h.step hguard hu) hobeys hrun

end Steps

section Size
variable {s t : EventLog}

def isAdd : EventLogAct → Bool
  | .addEventLogEntry .. => true
  | _ => false

/-- The log while nothing but entries is added. -/
theorem run_adds {acts : List EventLogAct} (hadds : ∀ a ∈ acts, isAdd a = true)
    (hrun : machine.run s acts = some t) :
    t.rows.length = s.rows.length + acts.length ∧ t.purge = s.purge := by
  induction acts generalizing s with
  | nil =>
    obtain rfl : s = t := by simpa using hrun
    simp
  | cons a acts ih =>
    obtain ⟨u, hu, hrun⟩ := Machine.run_cons_eq_some.mp hrun
    obtain ⟨hadd, hadds⟩ := List.forall_mem_cons.mp hadds
    obtain ⟨hlength, hpurge⟩ := ih hadds hrun
    cases a with
    | addEventLogEntry source description level timestamp =>
      obtain rfl := Option.some.inj hu
      simp only [List.length_append, List.length_singleton] at hlength
      refine ⟨?_, hpurge⟩
      rw [hlength, List.length_cons]
      omega
    | _ => cases hadd

/-- A purge, from its first query to its second. -/
theorem purge_length {value : Bytes} {middle : List EventLogAct}
    {removed rest : List EventLogRow} (hsize : s.rows.length < 2 ^ 32)
    (hadds : ∀ a ∈ middle, isAdd a = true)
    (hrun : machine.run s (.count value :: (middle ++ [.delete removed rest])) = some t) :
    t.rows.length = maxEventLogSize value + middle.length := by
  obtain ⟨u, hu, hrun⟩ := Machine.run_cons_eq_some.mp hrun
  obtain ⟨v, hmiddle, hlast⟩ := Machine.run_append_eq_some.mp hrun
  obtain ⟨w, hw, hlast⟩ := Machine.run_cons_eq_some.mp hlast
  obtain rfl : w = t := by simpa using hlast
  simp only [machine, Option.ite_none_right_eq_some, Option.some.injEq] at hu
  obtain ⟨hsleeping, rfl⟩ := hu
  obtain ⟨hlength, hpurge⟩ := run_adds hadds hmiddle
  have hmod : s.rows.length % 2 ^ 32 = s.rows.length := Nat.mod_eq_of_lt hsize
  cases hcounted : v.purge with
  | sleeping => simp [machine, hcounted] at hw
  | counted n =>
    simp only [machine, hcounted, Option.ite_none_right_eq_some, Option.some.injEq] at hw
    obtain ⟨hevicts, rfl⟩ := hw
    have hrest := hevicts.rest_length
    rw [hcounted] at hpurge
    unfold startPurge countOldLogEntries at hlength hpurge
    dsimp only at hlength hpurge ⊢
    split_ifs at hlength hpurge with hnonzero hmany
    · rw [hsleeping] at hpurge
      cases hpurge
    · cases hpurge
      dsimp only at hlength
      omega
    · rw [hsleeping] at hpurge
      cases hpurge

end Size

def sampleRow (timestamp : ℕ) : EventLogRow :=
  entry (cstr "ivpcore") (cstr "IVP Core Starting") 1 timestamp

/-- An entry is added while one of three is purged. -/
def samplePurge : List EventLogAct :=
  [.count (cstr "2"), .addEventLogEntry (cstr "ivpcore") (cstr "IVP Core Starting") 1 8,
    .delete [sampleRow 5] [sampleRow 7, sampleRow 6, sampleRow 8]]

def purgedLog : EventLog := ⟨[sampleRow 7, sampleRow 6, sampleRow 8], .sleeping⟩

/-- With the log cleared in the middle of a purge, what is logged afterwards goes instead. -/
example : machine.run (init [sampleRow 5, sampleRow 6])
    [.count (cstr "1"), .clear_event_log,
      .addEventLogEntry (cstr "ivpcore") (cstr "IVP Core Starting") 1 8,
      .delete [sampleRow 8] []] = some ⟨[], .sleeping⟩ := rfl

end EventLog
end V2IHub.Core
