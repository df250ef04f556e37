import V2IHub.Foundation.Bytes
import V2IHub.Foundation.Transducer

/-! The placeholders of a prepared SQL statement, and what the place of each of them asks for. -/
namespace V2IHub.Foundation.Sql

inductive Token where
  | word (w : Bytes)
  | symbol (c : UInt8)
  | literal (s : Bytes)
  deriving DecidableEq

/-- Between two tokens or in a word, or behind an opening quote. -/
inductive Lexer where
  | plain (w : Bytes)
  | quoted (q : UInt8) (s : Bytes)
  deriving DecidableEq

def Lexer.flush (w : Bytes) : List Token := if w = [] then [] else [.word w]

/-- A name may stand between backticks. A question mark between quotes is no placeholder. -/
def lexer : Transducer Lexer UInt8 Token where
  step s c :=
    match s with
    | .plain w =>
      if c = 32 ∨ c = 9 ∨ c = 10 then (.plain [], Lexer.flush w)
      else if c ∈ cstr "(),=?<>" then (.plain [], Lexer.flush w ++ [.symbol c])
      else if c ∈ cstr "'`" then (.quoted c [], Lexer.flush w)
      else (.plain (w ++ [c]), [])
    | .quoted q s =>
      if c ≠ q then (.quoted q (s ++ [c]), [])
      else if q = 96 then (.plain [], [.word s])
      else (.plain [], [.literal s])

/-- What a placeholder stands for: the value of a column, which it is compared with, assigned to
or inserted in, or the pattern of a `like`. -/
inductive Role where
  | column (name : Bytes)
  | pattern
  deriving DecidableEq

/-- Where in a statement the next token stands. -/
inductive Clause where
  | start
  | insert
  | columns (names : List Bytes)
  | select (names : List Bytes)
  | items (names : List Bytes) (first : Bool)
  | conditions (beforeLast last : Option Token)
  deriving DecidableEq

def conditionRole (beforeLast last : Option Token) : Option Role :=
  match last, beforeLast with
  | some (.symbol 61), some (.word name) => some (.column name)
  | some (.word w), _ => if w = cstr "like" then some .pattern else none
  | _, _ => none

/-- The role of each placeholder; nothing for one in a place that is none of these. -/
def roles : Transducer Clause Token (Option Role) where
  step s t :=
    match s with
    | .start => if t = .word (cstr "INSERT") then (.insert, []) else (.conditions none (some t), [])
    | .insert => (if t = .symbol 40 then .columns [] else .insert, [])
    | .columns names =>
      match t with
      | .word name => (.columns (names ++ [name]), [])
      | t => (if t = .symbol 41 then .select names else .columns names, [])
    | .select names => (.items names true, [])
    | .items names first =>
      if t = .word (cstr "FROM") then (.conditions none (some t), [])
      else if t = .symbol 44 then (.items names.tail true, [])
      else if t = .symbol 63 then
        (.items names false, [if first then names.head?.map Role.column else none])
      else (.items names false, [])
    | .conditions beforeLast last =>
      (.conditions last (some t),
        if t = .symbol 63 then [conditionRole beforeLast last] else [])

def scanner : Transducer (Lexer × Clause) UInt8 (Option Role) := lexer.comp roles

/-- The placeholders of a statement from left to right. -/
def placeholders (query : Bytes) : List (Option Role) := (scanner.run (.plain [], .start) query).2

/-- The values that the placeholders ask for, when the columns have these and every pattern has
its place. -/
def assign (columns : List (Bytes × Bytes)) : List (Option Role) → List Bytes → Option (List Bytes)
  | [], [] => some []
  | some (.column name) :: rest, patterns => do
    let value ← columns.lookup name
    let values ← assign columns rest patterns
    some (value :: values)
  | some .pattern :: rest, p :: patterns => (assign columns rest patterns).map (p :: ·)
  | _, _ => none

/-- The parameters of a statement, numbered from `k`. -/
def numbered (k : ℕ) : List Bytes → List (ℕ × Bytes)
  | [] => []
  | value :: values => (k, value) :: numbered (k + 1) values

section Assign
variable {columns : List (Bytes × Bytes)} {names values patterns : List Bytes}
  {rest : List (Option Role)}

theorem assign_columns (rest : List (Option Role)) (patterns : List Bytes)
    (h : (names.map fun name => columns.lookup name) = values.map some) :
    assign columns (names.map (fun name => some (.column name)) ++ rest) patterns =
      (assign columns rest patterns).map (values ++ ·) := by
  induction names generalizing values with
  | nil =>
    obtain rfl : values = [] := by simpa using h.symm
    simp
  | cons name names ih =>
    cases values with
    | nil => simp at h
    | cons value values =>
      obtain ⟨hname, htail⟩ := List.cons.inj h
      simp only at hname
      rw [List.map_cons, List.cons_append, assign, hname, ih htail]
      cases assign columns rest patterns <;> simp

theorem assign_patterns :
    assign columns (List.replicate patterns.length (some .pattern) ++ rest) patterns =
      (assign columns rest []).map (patterns ++ ·) := by
  induction patterns with
  | nil => simp
  | cons p patterns ih =>
    rw [List.length_cons, List.replicate_succ, List.cons_append, assign, ih]
    cases assign columns rest [] <;> simp

theorem numbered_append (k : ℕ) (values values' : List Bytes) :
    numbered k (values ++ values') = numbered k values ++ numbered (k + values.length) values' := by
  induction values generalizing k with
  | nil => rfl
  | cons value values ih =>
    rw [List.cons_append, numbered, ih, numbered, List.cons_append, List.length_cons,
      Nat.add_right_comm, Nat.add_assoc]

/-- Every placeholder gets one value. -/
theorem length_of_assign (h : assign columns rest patterns = some values) :
    values.length = rest.length := by
  induction rest generalizing patterns values with
  | nil =>
    cases patterns with
    | nil => simp_all [assign]
    | cons p patterns => simp [assign] at h
  | cons role rest ih =>
    rcases role with _ | ⟨name⟩ | _
    · simp [assign] at h
    · cases hvalue : columns.lookup name with
      | none => simp [assign, hvalue] at h
      | some value =>
        obtain ⟨tail, htail, rfl⟩ : ∃ tail, assign columns rest patterns = some tail ∧
            value :: tail = values := by
          simpa [assign, hvalue, Option.bind_eq_some_iff] using h
        rw [List.length_cons, List.length_cons, ih htail]
    · cases patterns with
      | nil => simp [assign] at h
      | cons p patterns =>
        obtain ⟨tail, htail, rfl⟩ : ∃ tail, assign columns rest patterns = some tail ∧
            p :: tail = values := by simpa [assign] using h
        rw [List.length_cons, List.length_cons, ih htail]

theorem length_numbered (k : ℕ) (values : List Bytes) :
    (numbered k values).length = values.length := by
  induction values generalizing k with
  | nil => rfl
  | cons value values ih => rw [numbered, List.length_cons, List.length_cons, ih]

end Assign
end V2IHub.Foundation.Sql
