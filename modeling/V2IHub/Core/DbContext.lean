import V2IHub.Foundation.SqlLiteral

/-! The values that the database contexts of the core put between quotes. -/
namespace V2IHub.Core.DbContext
open Foundation Sql

def formatChar (c : UInt8) : Bytes := if c = quote then [backslash, quote] else [c]

/-- The loop of `formatStringValue` from an index on, which is an `unsigned int`; nothing where
the loop takes more rounds than the fuel. -/
def formatFrom (str : Bytes) : ℕ → BitVec 32 → Option Bytes
  | 0, _ => none
  | fuel + 1, i =>
    match str[i.toNat]? with
    | some c => (formatFrom str fuel (i + 1)).map (formatChar c ++ ·)
    | none => some []

def formatStringValue (fuel : ℕ) (str : Bytes) : Option Bytes := formatFrom str fuel 0

section Loop
variable {str : Bytes} {i : BitVec 32} {fuel : ℕ}

theorem formatFrom_of_some {text : Bytes} (hlen : str.length < 2 ^ 32)
    (hi : i.toNat ≤ str.length) (h : formatFrom str fuel i = some text) :
    text = (str.drop i.toNat).flatMap formatChar := by
  induction fuel generalizing i text with
  | zero => simp [formatFrom] at h
  | succ fuel ih =>
    rw [formatFrom] at h
    rcases hi.lt_or_eq with hlt | heq
    · rw [List.getElem?_eq_getElem hlt] at h
      obtain ⟨tail, htail, rfl⟩ := Option.map_eq_some_iff.mp h
      rw [ih (by rw [toNat_next hlen hlt]; omega) htail, toNat_next hlen hlt,
        List.drop_eq_getElem_cons hlt, List.flatMap_cons]
    · rw [heq, List.getElem?_eq_none le_rfl] at h
      obtain rfl := Option.some.inj h
      simp [heq]

theorem formatFrom_isSome (hlen : str.length < 2 ^ 32) (hi : i.toNat ≤ str.length)
    (hfuel : str.length < i.toNat + fuel) : (formatFrom str fuel i).isSome := by
  induction fuel generalizing i with
  | zero => omega
  | succ fuel ih =>
    rw [formatFrom]
    rcases hi.lt_or_eq with hlt | heq
    · have hnext := toNat_next hlen hlt
      simpa [List.getElem?_eq_getElem hlt] using ih (i := i + 1) (by omega) (by omega)
    · simp [heq]

/-- The index never reaches a length that it cannot hold. -/
theorem formatFrom_diverges (hlen : 2 ^ 32 ≤ str.length) : formatFrom str fuel i = none := by
  induction fuel generalizing i with
  | zero => rfl
  | succ fuel ih =>
    have hlt : i.toNat < str.length := i.isLt.trans_le hlen
    rw [formatFrom, List.getElem?_eq_getElem hlt]
    simp [ih]

/-- When the function returns, and what. -/
theorem formatStringValue_iff {text : Bytes} :
    (∃ fuel, formatStringValue fuel str = some text) ↔
      str.length < 2 ^ 32 ∧ text = str.flatMap formatChar := by
  constructor
  · rintro ⟨fuel, h⟩
    rcases lt_or_ge str.length (2 ^ 32) with hlen | hlen
    · exact ⟨hlen, formatFrom_of_some hlen (Nat.zero_le _) h⟩
    · rw [formatStringValue, formatFrom_diverges hlen] at h
      simp at h
  · rintro ⟨hlen, rfl⟩
    have hsome : (formatFrom str (str.length + 1) 0).isSome :=
      formatFrom_isSome hlen (Nat.zero_le _) (by simp)
    obtain ⟨text, htext⟩ := Option.isSome_iff_exists.mp hsome
    exact ⟨str.length + 1, htext.trans
      (congrArg some (formatFrom_of_some hlen (Nat.zero_le _) htext))⟩

end Loop

/-- Every backslash has a wildcard of `LIKE` behind it. -/
def WildcardBackslashes : Bytes → Prop
  | [] => True
  | c :: s => (c = backslash → s.head? = some 37 ∨ s.head? = some 95) ∧ WildcardBackslashes s

section Literal
variable {s rest value : Bytes} {c d : UInt8}

/-- The text of a value with its closing quote and what follows. -/
def closed (s rest : Bytes) : Bytes := s.flatMap formatChar ++ quote :: rest

theorem closed_quote (s rest : Bytes) :
    closed (quote :: s) rest = backslash :: quote :: closed s rest := by
  simp [closed, formatChar]

theorem closed_of_ne (hc : c ≠ quote) (s rest : Bytes) :
    closed (c :: s) rest = c :: closed s rest := by
  simp [closed, formatChar, hc]

theorem length_closed (s rest : Bytes) : rest.length < (closed s rest).length := by
  simp only [closed, List.length_append, List.length_cons]
  omega

/-- No formatted value begins with a quote, so that only the closing quote of an empty one can
be doubled. -/
theorem closed_head (hs : s ≠ []) : (closed s rest).head? ≠ some quote := by
  cases s with
  | nil => exact absurd rfl hs
  | cons c s =>
    by_cases hc : c = quote
    · rw [hc, closed_quote, List.head?_cons]
      decide
    · rw [closed_of_ne hc]
      simpa using hc

theorem lexLiteral_closed_of_ne (hc : c ≠ backslash) (s rest : Bytes) :
    lexLiteral (closed (c :: s) rest) =
      (lexLiteral (closed s rest)).map fun r => (c :: r.1, r.2) := by
  by_cases hquote : c = quote
  · rw [hquote, closed_quote, lexLiteral_escaped]
    rfl
  · rw [closed_of_ne hquote, lexLiteral_plain hc hquote]

theorem lexLiteral_closed_escaped (hd : d ≠ quote) (s rest : Bytes) :
    lexLiteral (closed (backslash :: d :: s) rest) =
      (lexLiteral (closed s rest)).map fun r => (unescape d ++ r.1, r.2) := by
  rw [closed_of_ne (by decide), closed_of_ne hd, lexLiteral_escaped]

/-- A backslash at the end takes the closing quote into the value, and one before a quote
becomes a pair, behind which the quote closes the literal. -/
theorem lexLiteral_closed_broken (hs : s.head? = none ∨ s.head? = some quote) :
    lexLiteral (closed (backslash :: s) rest) ≠ some (value, rest) := by
  intro h
  rw [closed_of_ne (by decide)] at h
  cases s with
  | nil =>
    rw [closed, List.flatMap_nil, List.nil_append, lexLiteral_escaped] at h
    obtain ⟨⟨v, r⟩, hr, heq⟩ := Option.map_eq_some_iff.mp h
    obtain ⟨-, rfl⟩ := Prod.mk.inj heq
    exact (lexLiteral_length hr).false
  | cons c s =>
    obtain rfl : c = quote := by simpa using hs
    rw [closed_quote, lexLiteral_escaped] at h
    obtain ⟨⟨v, r⟩, hr, heq⟩ := Option.map_eq_some_iff.mp h
    obtain ⟨-, rfl⟩ := Prod.mk.inj heq
    by_cases hs : s = []
    · rw [hs, closed, List.flatMap_nil, List.nil_append, lexLiteral_doubled] at hr
      obtain ⟨⟨v', r'⟩, hr', heq'⟩ := Option.map_eq_some_iff.mp hr
      obtain ⟨-, rfl⟩ := Prod.mk.inj heq'
      exact (lexLiteral_length hr').false
    · rw [lexLiteral_closed (closed_head hs)] at hr
      have hrest : closed s r = r := (Prod.mk.inj (Option.some.inj hr)).2
      have hlt := length_closed s r
      rw [hrest] at hlt
      exact hlt.false

theorem lexLiteral_closed_nil (h : lexLiteral (closed [] rest) = some (value, rest)) :
    value = [] := by
  rw [closed, List.flatMap_nil, List.nil_append] at h
  by_cases hrest : rest.head? = some quote
  · obtain ⟨tail, rfl⟩ := List.head?_eq_some_iff.mp hrest
    rw [lexLiteral_doubled] at h
    obtain ⟨⟨v, r⟩, hr, heq⟩ := Option.map_eq_some_iff.mp h
    obtain ⟨-, rfl⟩ := Prod.mk.inj heq
    have hlt := lexLiteral_length hr
    simp only [List.length_cons] at hlt
    omega
  · rw [lexLiteral_closed hrest] at h
    exact (Prod.mk.inj (Option.some.inj h)).1.symm

/-- How a literal that ends at its final quote begins: with a byte for itself, or with a
backslash and a byte that is not a quote. -/
theorem lexLiteral_closed_cons (h : lexLiteral (closed (c :: s) rest) = some (value, rest)) :
    (c ≠ backslash ∧ ∃ v, value = c :: v ∧ lexLiteral (closed s rest) = some (v, rest)) ∨
    (c = backslash ∧ ∃ d s' v, s = d :: s' ∧ value = unescape d ++ v ∧
      lexLiteral (closed s' rest) = some (v, rest)) := by
  by_cases hc : c = backslash
  · subst hc
    cases s with
    | nil => exact absurd h (lexLiteral_closed_broken (.inl rfl))
    | cons d s =>
      by_cases hd : d = quote
      · exact absurd h (lexLiteral_closed_broken (.inr (congrArg some hd)))
      · rw [lexLiteral_closed_escaped hd] at h
        obtain ⟨⟨v, r⟩, hr, heq⟩ := Option.map_eq_some_iff.mp h
        obtain ⟨rfl, rfl⟩ := Prod.mk.inj heq
        exact .inr ⟨rfl, d, s, v, rfl, rfl, hr⟩
  · rw [lexLiteral_closed_of_ne hc] at h
    obtain ⟨⟨v, r⟩, hr, heq⟩ := Option.map_eq_some_iff.mp h
    obtain ⟨rfl, rfl⟩ := Prod.mk.inj heq
    exact .inl ⟨hc, v, rfl, hr⟩

theorem length_unescape_le (d : UInt8) : (unescape d).length ≤ 2 := by
  unfold unescape
  split_ifs <;> simp

/-- The lexer never reads more bytes than the value has. -/
theorem lexLiteral_closed_length (h : lexLiteral (closed s rest) = some (value, rest)) :
    value.length ≤ s.length := by
  induction s using List.twoStepInduction generalizing value with
  | nil => simp [lexLiteral_closed_nil h]
  | singleton c =>
    obtain ⟨-, v, rfl, hv⟩ | ⟨-, d, s', v, hnil, -⟩ := lexLiteral_closed_cons h
    · simp [lexLiteral_closed_nil hv]
    · simp at hnil
  | cons_cons c d s ih ih' =>
    obtain ⟨-, v, rfl, hv⟩ | ⟨-, d', s', v, heq, rfl, hv⟩ := lexLiteral_closed_cons h
    · simpa using ih' d hv
    · obtain ⟨rfl, rfl⟩ := List.cons.inj heq
      have htail := ih hv
      have hhead := length_unescape_le d
      simp only [List.length_append, List.length_cons]
      omega

/-- A byte that is read after its backslash as the two of them. -/
theorem unescape_eq_pair (h : ∃ v, backslash :: d :: s = unescape d ++ v ∧ v.length ≤ s.length) :
    d = 37 ∨ d = 95 := by
  obtain ⟨v, heq, hlen⟩ := h
  by_contra hd
  have hone : ∃ x, unescape d = [x] := by
    rw [not_or] at hd
    unfold unescape
    split_ifs <;> simp_all
  obtain ⟨x, hx⟩ := hone
  have hlength := congrArg List.length heq
  simp only [hx, List.length_append, List.length_cons, List.length_nil] at hlength
  omega

theorem unescape_wildcard (h : d = 37 ∨ d = 95) : unescape d = [backslash, d] := by
  rcases h with rfl | rfl <;> rfl

theorem wildcardBackslashes_of_lex (h : lexLiteral (closed s rest) = some (s, rest)) :
    WildcardBackslashes s := by
  induction s using List.twoStepInduction with
  | nil => trivial
  | singleton c =>
    obtain ⟨hc, -⟩ | ⟨-, d, s', v, hnil, -⟩ := lexLiteral_closed_cons h
    · exact ⟨fun heq => absurd heq hc, trivial⟩
    · simp at hnil
  | cons_cons c d s ih ih' =>
    obtain ⟨hc, v, heq, hv⟩ | ⟨rfl, d', s', v, heq, hvalue, hv⟩ := lexLiteral_closed_cons h
    · obtain ⟨-, rfl⟩ := List.cons.inj heq
      exact ⟨fun heq => absurd heq hc, ih' d hv⟩
    · obtain ⟨rfl, rfl⟩ := List.cons.inj heq
      have hd := unescape_eq_pair ⟨v, hvalue, lexLiteral_closed_length hv⟩
      rw [unescape_wildcard hd] at hvalue
      obtain rfl : s = v := by simpa using hvalue
      refine ⟨fun _ => by simpa using hd, fun hback => ?_, ih hv⟩
      rcases hd with rfl | rfl <;> exact absurd hback (by decide)

theorem lexLiteral_of_wildcardBackslashes (hs : WildcardBackslashes s)
    (hrest : rest.head? ≠ some quote) : lexLiteral (closed s rest) = some (s, rest) := by
  induction s using List.twoStepInduction with
  | nil => exact lexLiteral_closed hrest
  | singleton c =>
    have hc : c ≠ backslash := fun heq => by simpa using hs.1 heq
    rw [lexLiteral_closed_of_ne hc, closed, List.flatMap_nil, List.nil_append,
      lexLiteral_closed hrest]
    rfl
  | cons_cons c d s ih ih' =>
    by_cases hc : c = backslash
    · have hd : d = 37 ∨ d = 95 := by simpa using hs.1 hc
      have hquote : d ≠ quote := by rcases hd with rfl | rfl <;> decide
      rw [hc, lexLiteral_closed_escaped hquote, ih hs.2.2, unescape_wildcard hd]
      rfl
    · rw [lexLiteral_closed_of_ne hc, ih' d hs.2]
      rfl

end Literal

/-- A value between quotes is read back, and the statement goes on behind its last quote, for
the values without a backslash that means something to the server. -/
theorem formatStringValue_literal_iff (s : Bytes) :
    (∃ fuel text, formatStringValue fuel s = some text ∧ ∀ rest, rest.head? ≠ some quote →
      lexLiteral (text ++ quote :: rest) = some (s, rest)) ↔
      s.length < 2 ^ 32 ∧ WildcardBackslashes s := by
  constructor
  · rintro ⟨fuel, text, htext, hlex⟩
    obtain ⟨hlen, rfl⟩ := formatStringValue_iff.mp ⟨fuel, htext⟩
    exact ⟨hlen, wildcardBackslashes_of_lex (hlex [] (by simp))⟩
  · rintro ⟨hlen, hs⟩
    obtain ⟨fuel, htext⟩ := formatStringValue_iff.mpr ⟨hlen, rfl⟩
    exact ⟨fuel, _, htext, fun rest hrest => lexLiteral_of_wildcardBackslashes hs hrest⟩

/-- The literal of a value that ends in a backslash does not end. -/
theorem formatStringValue_trailing_backslash :
    ¬ ∃ fuel text, formatStringValue fuel (cstr "C:\\") = some text ∧
      lexLiteral (text ++ [quote]) = some (cstr "C:\\", []) := by
  rintro ⟨fuel, text, htext, hlex⟩
  obtain ⟨-, rfl⟩ := formatStringValue_iff.mp ⟨fuel, htext⟩
  revert hlex
  decide

end V2IHub.Core.DbContext
