import V2IHub.Foundation.Bytes

/-! String literals of an SQL server that takes a backslash for an escape character and two
quotes for one. -/
namespace V2IHub.Foundation.Sql

def quote : UInt8 := 39
def backslash : UInt8 := 92

/-- What the server reads for a backslash before this byte. The backslash stays before a
wildcard of `LIKE`. -/
def unescape (c : UInt8) : Bytes :=
  if c = 48 then [0]                  -- \0
  else if c = 98 then [8]             -- \b
  else if c = 110 then [10]           -- \n
  else if c = 114 then [13]           -- \r
  else if c = 116 then [9]            -- \t
  else if c = 90 then [26]            -- \Z
  else if c = 37 ∨ c = 95 then [backslash, c]
  else [c]

/-- The value of a literal whose opening quote was read, and the text after its closing quote;
nothing when the text ends before. -/
def lexLiteral : Bytes → Option (Bytes × Bytes)
  | [] => none
  | [c] => if c = quote then some ([], []) else none
  | c :: d :: rest =>
    if c = backslash then (lexLiteral rest).map fun (value, rest) => (unescape d ++ value, rest)
    else if c ≠ quote then
      (lexLiteral (d :: rest)).map fun (value, rest) => (c :: value, rest)
    else if d = quote then (lexLiteral rest).map fun (value, rest) => (quote :: value, rest)
    else some ([], d :: rest)

section Lexing
variable {c d : UInt8} {text rest value : Bytes}

theorem lexLiteral_escaped (text : Bytes) :
    lexLiteral (backslash :: d :: text) =
      (lexLiteral text).map fun r => (unescape d ++ r.1, r.2) := by
  rw [lexLiteral, if_pos rfl]

/-- A byte that stands for itself. -/
theorem lexLiteral_plain (hbackslash : c ≠ backslash) (hquote : c ≠ quote) (text : Bytes) :
    lexLiteral (c :: text) = (lexLiteral text).map fun r => (c :: r.1, r.2) := by
  cases text with
  | nil => simp [lexLiteral, hquote]
  | cons d text => rw [lexLiteral, if_neg hbackslash, if_pos hquote]

theorem lexLiteral_doubled (text : Bytes) :
    lexLiteral (quote :: quote :: text) =
      (lexLiteral text).map fun r => (quote :: r.1, r.2) := by
  rw [lexLiteral, if_neg (by decide), if_neg (by simp), if_pos rfl]

/-- The closing quote is one that no other follows. -/
theorem lexLiteral_closed (h : rest.head? ≠ some quote) :
    lexLiteral (quote :: rest) = some ([], rest) := by
  cases rest with
  | nil => rfl
  | cons d rest =>
    have hd : d ≠ quote := by simpa using h
    rw [lexLiteral, if_neg (by decide), if_neg (by simp), if_neg hd]

/-- The closing quote was read, so that less text is left. -/
theorem lexLiteral_length (h : lexLiteral text = some (value, rest)) :
    rest.length < text.length := by
  fun_induction lexLiteral text generalizing value with
  | case1 => simp at h
  | case2 =>
    simp only [Option.some.injEq, Prod.mk.injEq] at h
    simp [← h.2]
  | case3 => simp at h
  | case4 d text ih =>
    obtain ⟨⟨v, r⟩, hr, heq⟩ := Option.map_eq_some_iff.mp h
    obtain ⟨-, rfl⟩ := Prod.mk.inj heq
    exact (ih hr).trans (by simp)
  | case5 c d text _ _ ih =>
    obtain ⟨⟨v, r⟩, hr, heq⟩ := Option.map_eq_some_iff.mp h
    obtain ⟨-, rfl⟩ := Prod.mk.inj heq
    exact (ih hr).trans (by simp)
  | case6 =>
    rename_i ih
    obtain ⟨⟨v, r⟩, hr, heq⟩ := Option.map_eq_some_iff.mp h
    obtain ⟨-, rfl⟩ := Prod.mk.inj heq
    exact (ih hr).trans (by simp)
  | case7 =>
    simp only [Option.some.injEq, Prod.mk.injEq] at h
    simp [← h.2]

end Lexing
end V2IHub.Foundation.Sql
