import V2IHub.Foundation.JsonText

/-! JSON texts that a program puts together by hand, and exactly when they are read back. Names
are written as they are, and so is a string, or with its quotes escaped and nothing else. -/
namespace V2IHub.Foundation.JsonText

/-- Every quote gets a backslash. -/
def escapeQuotes (s : Bytes) : Bytes := s.flatMap fun b => if b = 34 then [92, 34] else [b]

/-- What may stand in a string whose quotes are escaped. -/
def CleanByte (b : UInt8) : Prop := 32 ≤ b ∧ b ≠ 92

instance : DecidablePred CleanByte := fun _ => instDecidableAnd

def Clean (s : Bytes) : Prop := ∀ b ∈ s, CleanByte b

instance (s : Bytes) : Decidable (Clean s) := List.decidableBAll _ _

/-- The members of an object have a space after their colons, or have none. -/
inductive Doc where
  | raw (s : Bytes)
  | escaped (s : Bytes)
  | array (items : List Doc)
  | object (spaced : Bool) (members : List (Bytes × Doc))

namespace Doc

/-- A name and its colon, up to the value. -/
def nameText (spaced : Bool) (name : Bytes) : Bytes :=
  34 :: (name ++ 34 :: 58 :: if spaced then [32] else [])

mutual

def text : Doc → Bytes
  | raw s => 34 :: (s ++ [34])
  | escaped s => 34 :: (escapeQuotes s ++ [34])
  | array items => 91 :: itemsText items
  | object spaced members => 123 :: membersText spaced members

def itemsText : List Doc → Bytes
  | [] => [93]
  | [item] => text item ++ [93]
  | item :: item' :: items => text item ++ 44 :: itemsText (item' :: items)

def membersText (spaced : Bool) : List (Bytes × Doc) → Bytes
  | [] => [125]
  | [(name, d)] => nameText spaced name ++ text d ++ [125]
  | (name, d) :: member :: members =>
    nameText spaced name ++ text d ++ 44 :: membersText spaced (member :: members)

end

mutual

/-- What the text is meant to say. -/
def value : Doc → Value
  | raw s => .string s
  | escaped s => .string s
  | array items => .array (itemsValue items)
  | object _ members => .object (membersValue members)

def itemsValue : List Doc → List Value
  | [] => []
  | item :: items => value item :: itemsValue items

def membersValue : List (Bytes × Doc) → List (Bytes × Value)
  | [] => []
  | (name, d) :: members => (name, value d) :: membersValue members

end

mutual

/-- The strings can stand in the text the way they are written there. -/
def Fits : Doc → Prop
  | raw s => Plain s
  | escaped s => Clean s
  | array items => FitsItems items
  | object _ members => FitsMembers members

def FitsItems : List Doc → Prop
  | [] => True
  | item :: items => Fits item ∧ FitsItems items

def FitsMembers : List (Bytes × Doc) → Prop
  | [] => True
  | (name, d) :: members => (Plain name ∧ Fits d) ∧ FitsMembers members

end

end Doc

/-- On this text the reader finds `a` exactly when `C` holds, and it stops behind the text. -/
def Exact {α : Type} (reader : Reader α) (text : Bytes) (a : α) (C : Prop) : Prop :=
  ∀ rest r, reader (text ++ rest) = some (a, r) ↔ C ∧ r = rest

section Strings
variable {s : Bytes}

theorem Exact.of_iff {α : Type} {reader : Reader α} {text : Bytes} {a : α} {C : Prop}
    (hreads : C → ∀ rest, reader (text ++ rest) = some (a, rest))
    (hneeds : ∀ rest r, reader (text ++ rest) = some (a, r) → C) : Exact reader text a C := by
  intro rest r
  constructor
  · intro h
    have hC : C := hneeds rest r h
    have hrest := (hreads hC rest).symm.trans h
    simp only [Option.some.injEq, Prod.mk.injEq, true_and] at hrest
    exact ⟨hC, hrest.symm⟩
  · rintro ⟨hC, rfl⟩
    exact hreads hC r

theorem readChars_of_plain (hs : Plain s) {fuel : ℕ} (hfuel : s.length < fuel) (t : Bytes) :
    readChars fuel (s ++ 34 :: t) = some (s, t) := by
  induction s generalizing fuel with
  | nil =>
    obtain ⟨fuel, rfl⟩ := Nat.exists_eq_succ_of_ne_zero hfuel.ne'
    exact readChars_quote
  | cons b s ih =>
    obtain ⟨fuel, rfl⟩ := Nat.exists_eq_succ_of_ne_zero (Nat.ne_of_gt (Nat.zero_lt_of_lt hfuel))
    obtain ⟨hb, hrest⟩ := List.forall_mem_cons.mp hs
    rw [List.cons_append, readChars_plain hb, ih hrest (by simpa using hfuel)]
    rfl

/-- A string between quotes comes back only when it is plain. -/
theorem plain_of_readChars {fuel : ℕ} {t r : Bytes}
    (h : readChars fuel (s ++ 34 :: t) = some (s, r)) : Plain s := by
  by_cases hquote : 34 ∈ s
  · -- the first quote in it is taken for the closing one
    obtain ⟨u, w, hs, hu⟩ := List.eq_append_cons_of_mem hquote
    have hlen : s.length = u.length + (w.length + 1) := by simp [hs]
    have hread : readChars fuel (u ++ 34 :: (w ++ 34 :: t)) = some (s, r) := by
      rw [← h, hs, List.append_assoc, List.cons_append]
    rcases readChars_firstQuote hu hread with ⟨hle, -⟩ | ⟨k, hk, hlt, -⟩
    · omega
    · rw [hs, List.getElem?_append_left hlt] at hk
      exact absurd (List.mem_of_getElem? hk) hu
  · rcases readChars_firstQuote hquote h with ⟨-, hplain⟩ | ⟨k, hk, -, -⟩
    · exact hplain rfl
    · exact absurd (List.mem_of_getElem? hk) hquote

theorem exact_raw (s : Bytes) : Exact readString (s ++ [34]) s (Plain s) := by
  apply Exact.of_iff
  · intro hs rest
    rw [List.append_assoc, List.singleton_append, readString]
    exact readChars_of_plain hs (by simp) rest
  · intro rest r h
    rw [List.append_assoc, List.singleton_append, readString] at h
    exact plain_of_readChars h

theorem escapeQuotes_cons_quote : escapeQuotes (34 :: s) = 92 :: 34 :: escapeQuotes s := by
  simp [escapeQuotes]

theorem escapeQuotes_cons {b : UInt8} (hb : b ≠ 34) :
    escapeQuotes (b :: s) = b :: escapeQuotes s := by
  simp [escapeQuotes, hb]

theorem escapeQuotes_append (s s' : Bytes) :
    escapeQuotes (s ++ s') = escapeQuotes s ++ escapeQuotes s' := by
  simp [escapeQuotes]

theorem escapeQuotes_of_not_mem (hs : 34 ∉ s) : escapeQuotes s = s := by
  induction s with
  | nil => rfl
  | cons b s ih =>
    rw [List.mem_cons, not_or] at hs
    rw [escapeQuotes_cons (Ne.symm hs.1), ih hs.2]

theorem readChars_of_clean (hs : Clean s) {fuel : ℕ} (hfuel : (escapeQuotes s).length < fuel)
    (t : Bytes) : readChars fuel (escapeQuotes s ++ 34 :: t) = some (s, t) := by
  induction s generalizing fuel with
  | nil =>
    obtain ⟨fuel, rfl⟩ := Nat.exists_eq_succ_of_ne_zero hfuel.ne'
    exact readChars_quote
  | cons b s ih =>
    obtain ⟨fuel, rfl⟩ := Nat.exists_eq_succ_of_ne_zero (Nat.ne_of_gt (Nat.zero_lt_of_lt hfuel))
    obtain ⟨hb, hrest⟩ := List.forall_mem_cons.mp hs
    by_cases hq : b = 34
    · subst hq
      rw [escapeQuotes_cons_quote] at hfuel ⊢
      simp only [List.length_cons] at hfuel
      rw [List.cons_append, List.cons_append, readChars_escapedQuote, ih hrest (by omega)]
      rfl
    · rw [escapeQuotes_cons hq] at hfuel ⊢
      simp only [List.length_cons] at hfuel
      rw [List.cons_append, readChars_plain ⟨hb.1, hq, hb.2⟩, ih hrest (by omega)]
      rfl

/-- The first backslash of a string eats what follows it, and the string cannot come back. -/
theorem readChars_backslash {fuel : ℕ} {v t r : Bytes} :
    readChars fuel (escapeQuotes (92 :: v) ++ 34 :: t) ≠ some (92 :: v, r) := by
  intro h
  have hback : ¬ PlainByte 92 := by decide
  by_cases hquote : 34 ∈ 92 :: v
  · obtain ⟨u, w, hv, hu⟩ := List.eq_append_cons_of_mem hquote
    obtain ⟨u, rfl⟩ : ∃ u', u = 92 :: u' := by
      cases u with
      | nil => simp at hv
      | cons b u => exact ⟨u, by simp at hv; rw [hv.1]⟩
    have htext : escapeQuotes (92 :: v) ++ 34 :: t =
        (92 :: u ++ [92]) ++ 34 :: (escapeQuotes w ++ 34 :: t) := by
      rw [hv, escapeQuotes_append, escapeQuotes_of_not_mem hu, escapeQuotes_cons_quote]
      simp
    have hout : 34 ∉ 92 :: u ++ [92] := by simpa using hu
    rw [htext] at h
    rcases readChars_firstQuote hout h with ⟨hle, heq⟩ | ⟨k, hk, hlt, hlast⟩
    · have hlen : (92 :: v).length = u.length + 1 + (w.length + 1) := by rw [hv]; simp; omega
      have hsame : (92 :: v).length = (92 :: u ++ [92]).length := by
        simp only [List.length_append, List.length_cons, List.length_nil] at hle hlen ⊢
        omega
      exact hback (heq hsame 92 (by simp))
    · rw [hv] at hk
      by_cases hk' : k < (92 :: u).length
      · rw [List.getElem?_append_left hk'] at hk
        exact hu (List.mem_of_getElem? hk)
      · have hkeq : k + 1 = (92 :: u ++ [92]).length := by
          simp only [List.length_append, List.length_cons, List.length_nil] at hlt hk' ⊢
          omega
        have hplain := hlast hkeq
        rw [List.dropLast_concat] at hplain
        exact hback (hplain 92 (by simp))
  · rw [escapeQuotes_of_not_mem hquote] at h
    rcases readChars_firstQuote hquote h with ⟨-, heq⟩ | ⟨k, hk, -, -⟩
    · exact hback (heq rfl 92 (by simp))
    · exact hquote (List.mem_of_getElem? hk)

theorem clean_of_readChars {fuel : ℕ} {t r : Bytes}
    (h : readChars fuel (escapeQuotes s ++ 34 :: t) = some (s, r)) : Clean s := by
  induction s generalizing fuel with
  | nil => exact List.forall_mem_nil _
  | cons b s ih =>
    cases fuel with
    | zero => simp [readChars] at h
    | succ fuel =>
      by_cases hq : b = 34
      · subst hq
        rw [escapeQuotes_cons_quote, List.cons_append, List.cons_append,
          readChars_escapedQuote] at h
        obtain ⟨⟨chars, last⟩, hread, hs⟩ := Option.map_eq_some_iff.mp h
        simp only [Prod.mk.injEq, List.cons.injEq, true_and] at hs
        rw [hs.1, hs.2] at hread
        exact List.forall_mem_cons.mpr ⟨by decide, ih hread⟩
      · by_cases hback : b = 92
        · subst hback
          exact absurd h readChars_backslash
        · rw [escapeQuotes_cons hq, List.cons_append, readChars, if_neg hq, if_neg hback] at h
          split_ifs at h with hlow
          obtain ⟨⟨chars, last⟩, hread, hs⟩ := Option.map_eq_some_iff.mp h
          simp only [Prod.mk.injEq, List.cons.injEq, true_and] at hs
          rw [hs.1, hs.2] at hread
          exact List.forall_mem_cons.mpr ⟨⟨UInt8.not_lt.mp hlow, hback⟩, ih hread⟩

theorem exact_escaped (s : Bytes) : Exact readString (escapeQuotes s ++ [34]) s (Clean s) := by
  apply Exact.of_iff
  · intro hs rest
    rw [List.append_assoc, List.singleton_append, readString]
    exact readChars_of_clean hs (by simp) rest
  · intro rest r h
    rw [List.append_assoc, List.singleton_append, readString] at h
    exact clean_of_readChars h

/-- No control byte. -/
def Printable (t : Bytes) : Prop := ∀ b ∈ t, 32 ≤ b

theorem printable_cons {b : UInt8} {t : Bytes} : Printable (b :: t) ↔ 32 ≤ b ∧ Printable t :=
  List.forall_mem_cons

theorem printable_append {t t' : Bytes} : Printable (t ++ t') ↔ Printable t ∧ Printable t' :=
  List.forall_mem_append

theorem Plain.printable {s : Bytes} (hs : Plain s) : Printable s := fun b hb => (hs b hb).1

theorem Clean.printable_escapeQuotes {s : Bytes} (hs : Clean s) : Printable (escapeQuotes s) := by
  intro b hb
  obtain ⟨c, hc, hbc⟩ := List.mem_flatMap.mp hb
  split_ifs at hbc with hq
  · rcases List.mem_pair.mp hbc with rfl | rfl <;> decide
  · rw [List.mem_singleton.mp hbc]
    exact (hs c hc).1

end Strings

section Combination
variable {α β : Type} {reader : Reader α} {text tail : Bytes} {a : α} {as : List α} {C D : Prop}
  {closing : UInt8} {fuel : ℕ}

theorem Exact.map (h : Exact reader text a C) {f : α → β} (hf : Function.Injective f) :
    Exact (fun t => (reader t).map fun r => (f r.1, r.2)) text (f a) C := by
  intro rest r
  rw [← h rest r, Option.map_eq_some_iff]
  constructor
  · rintro ⟨p, hp, heq⟩
    simp only [Prod.mk.injEq] at heq
    rw [hp, ← hf heq.1, ← heq.2]
  · intro hp
    exact ⟨_, hp, rfl⟩

/-- How a sequence was read whose first element is `a`. -/
theorem readSequence_cons_iff (hcomma : closing ≠ 44) {t r : Bytes} :
    readSequence reader closing (fuel + 1) t = some (a :: as, r) ↔
      ∃ t', reader t = some (a, t') ∧
        (as = [] ∧ skip t' = closing :: r ∨
          ∃ t'', skip t' = 44 :: t'' ∧ readSequence reader closing fuel t'' = some (as, r)) := by
  rw [readSequence]
  cases hread : reader t with
  | none => simp
  | some p =>
    obtain ⟨a', t'⟩ := p
    cases hskip : skip t' with
    | nil =>
      simp only [hskip, reduceCtorEq, Option.some.injEq, Prod.mk.injEq, false_iff]
      rintro ⟨u, ⟨-, rfl⟩, h⟩
      simp [hskip] at h
    | cons b t'' =>
      simp only [hskip]
      split_ifs with hb hb'
      · subst hb
        simp only [Option.some.injEq, Prod.mk.injEq, List.cons.injEq]
        constructor
        · rintro ⟨⟨rfl, rfl⟩, rfl⟩
          exact ⟨t', ⟨rfl, rfl⟩, Or.inl ⟨rfl, hskip⟩⟩
        · rintro ⟨u, ⟨rfl, rfl⟩, ⟨rfl, h⟩ | ⟨v, h, -⟩⟩
          · rw [hskip, List.cons.injEq] at h
            exact ⟨⟨rfl, rfl⟩, h.2⟩
          · rw [hskip, List.cons.injEq] at h
            exact absurd h.1 hcomma
      · subst hb'
        simp only [Option.map_eq_some_iff, Option.some.injEq, Prod.mk.injEq, List.cons.injEq]
        constructor
        · rintro ⟨⟨as', r'⟩, h, ⟨rfl, rfl⟩, rfl⟩
          exact ⟨t', ⟨rfl, rfl⟩, Or.inr ⟨t'', hskip, h⟩⟩
        · rintro ⟨u, ⟨rfl, rfl⟩, ⟨-, h⟩ | ⟨v, h, hseq⟩⟩
          · rw [hskip, List.cons.injEq] at h
            exact absurd h.1.symm hcomma
          · rw [hskip, List.cons.injEq] at h
            exact ⟨(as, r), h.2 ▸ hseq, ⟨rfl, rfl⟩, rfl⟩
      · simp only [Option.some.injEq, Prod.mk.injEq, false_iff]
        rintro ⟨u, ⟨-, rfl⟩, ⟨-, h⟩ | ⟨v, h, -⟩⟩ <;> rw [hskip, List.cons.injEq] at h
        · exact hb h.1
        · exact hb' h.1

theorem exact_sequence_last (h : Exact reader text a C) (hcomma : closing ≠ 44)
    (hblank : blank closing = false) :
    Exact (readSequence reader closing (fuel + 1)) (text ++ [closing]) [a] C := by
  intro rest r
  rw [List.append_assoc, List.singleton_append, readSequence_cons_iff hcomma]
  constructor
  · rintro ⟨t, hread, hend⟩
    obtain ⟨hC, rfl⟩ := (h _ _).mp hread
    rw [skip_cons hblank] at hend
    rcases hend with ⟨-, hr⟩ | ⟨t', ht, -⟩
    · exact ⟨hC, (List.cons.inj hr).2.symm⟩
    · exact absurd (List.cons.inj ht).1 hcomma
  · rintro ⟨hC, rfl⟩
    exact ⟨closing :: r, (h _ _).mpr ⟨hC, rfl⟩, Or.inl ⟨rfl, skip_cons hblank r⟩⟩

theorem exact_sequence_cons (h : Exact reader text a C) (hcomma : closing ≠ 44)
    (htail : Exact (readSequence reader closing fuel) tail as D) :
    Exact (readSequence reader closing (fuel + 1)) (text ++ 44 :: tail) (a :: as) (C ∧ D) := by
  have hskip : ∀ t, skip (44 :: t) = 44 :: t := skip_cons (by decide)
  intro rest r
  rw [List.append_assoc, List.cons_append, readSequence_cons_iff hcomma]
  constructor
  · rintro ⟨t, hread, hend⟩
    obtain ⟨hC, rfl⟩ := (h _ _).mp hread
    rw [hskip] at hend
    rcases hend with ⟨-, hr⟩ | ⟨t', ht, hseq⟩
    · exact absurd (List.cons.inj hr).1.symm hcomma
    · rw [← (List.cons.inj ht).2] at hseq
      obtain ⟨hD, hr⟩ := (htail _ _).mp hseq
      exact ⟨⟨hC, hD⟩, hr⟩
  · rintro ⟨⟨hC, hD⟩, rfl⟩
    refine ⟨44 :: (tail ++ r), (h _ _).mpr ⟨hC, rfl⟩, Or.inr ⟨tail ++ r, hskip _, ?_⟩⟩
    exact (htail _ _).mpr ⟨hD, rfl⟩

/-- A sequence that starts with neither a blank nor the closing bracket is a list. -/
theorem Exact.list {b : UInt8} {front : Bytes} (hblank : blank b = false) (hb : b ≠ closing)
    (h : Exact (readSequence reader closing fuel) (b :: front) as C) :
    Exact (readList reader closing fuel) (b :: front) as C := by
  intro rest r
  rw [← h rest r, List.cons_append, readList, skip_cons hblank]
  simp only [if_neg hb]

theorem exact_list_nil (hblank : blank closing = false) :
    Exact (readList reader closing fuel) [closing] [] True := by
  intro rest r
  rw [List.singleton_append, readList, skip_cons hblank]
  simp [eq_comm]

theorem exact_member (h : Exact reader text a C) (hblank : ∀ t, reader (32 :: t) = reader t)
    (spaced : Bool) (name : Bytes) :
    Exact (readMember reader) (Doc.nameText spaced name ++ text) (name, a) (Plain name ∧ C) := by
  have hgap : ∀ t, reader ((if spaced then [32] else []) ++ t) = reader t := by
    intro t
    cases spaced
    · rfl
    · exact hblank t
  intro rest r
  have htext : Doc.nameText spaced name ++ text ++ rest =
      34 :: (name ++ [34] ++ 58 :: ((if spaced then [32] else []) ++ (text ++ rest))) := by
    simp [Doc.nameText]
  rw [htext, readMember_iff]
  constructor
  · rintro ⟨t, hname, hvalue⟩
    obtain ⟨hplain, rfl⟩ := (exact_raw name _ _).mp hname
    rw [expect_cons (by decide), Option.bind_some, hgap] at hvalue
    obtain ⟨hC, hr⟩ := (h _ _).mp hvalue
    exact ⟨⟨hplain, hC⟩, hr⟩
  · rintro ⟨⟨hplain, hC⟩, rfl⟩
    refine ⟨_, (exact_raw name _ _).mpr ⟨hplain, rfl⟩, ?_⟩
    rw [expect_cons (by decide), Option.bind_some, hgap]
    exact (h _ _).mpr ⟨hC, rfl⟩

end Combination

section Values
variable {fuel : ℕ}

theorem readValue_blank {b : UInt8} (h : blank b = true) (t : Bytes) :
    readValue fuel (b :: t) = readValue fuel t := by
  cases fuel with
  | zero => rfl
  | succ fuel => rw [readValue, readValue, skip_blank h]

theorem readValue_string (t : Bytes) :
    readValue (fuel + 1) (34 :: t) = (readString t).map fun r => (.string r.1, r.2) := by
  rw [readValue, skip_cons (by decide)]
  rfl

theorem readValue_object (t : Bytes) :
    readValue (fuel + 1) (123 :: t) =
      (readList (readMember (readValue fuel)) 125 fuel t).map fun r => (.object r.1, r.2) := by
  rw [readValue, skip_cons (by decide)]
  rfl

theorem readValue_array (t : Bytes) :
    readValue (fuel + 1) (91 :: t) =
      (readList (readValue fuel) 93 fuel t).map fun r => (.array r.1, r.2) := by
  rw [readValue, skip_cons (by decide)]
  rfl

/-- A value behind its first byte. -/
theorem Exact.value {α : Type} {reader : Reader α} {text : Bytes} {a : α} {C : Prop} {b : UInt8}
    {f : α → Value} (h : Exact reader text a C) (hf : Function.Injective f)
    (hvalue : ∀ t, readValue (fuel + 1) (b :: t) = (reader t).map fun r => (f r.1, r.2)) :
    Exact (readValue (fuel + 1)) (b :: text) (f a) C := by
  intro rest r
  rw [List.cons_append, hvalue]
  exact h.map hf rest r

end Values

namespace Doc

/-- The first byte of a text is neither a blank nor a closing bracket. -/
theorem text_head (d : Doc) : ∃ b t, d.text = b :: t ∧ blank b = false ∧ b ≠ 93 := by
  cases d with
  | raw s => exact ⟨34, _, by rw [text], by decide, by decide⟩
  | escaped s => exact ⟨34, _, by rw [text], by decide, by decide⟩
  | array items => exact ⟨91, _, by rw [text], by decide, by decide⟩
  | object spaced members => exact ⟨123, _, by rw [text], by decide, by decide⟩

theorem exact_itemsList {items : List Doc} {f fuel : ℕ}
    (h : items ≠ [] → Exact (readSequence (readValue f) 93 fuel) (itemsText items)
      (itemsValue items) (FitsItems items)) :
    Exact (readList (readValue f) 93 fuel) (itemsText items) (itemsValue items)
      (FitsItems items) := by
  cases items with
  | nil =>
    rw [itemsText, itemsValue, FitsItems]
    exact exact_list_nil (by decide)
  | cons item items =>
    obtain ⟨b, t, ht, hblank, hb⟩ := item.text_head
    obtain ⟨front, hfront⟩ : ∃ front, itemsText (item :: items) = b :: front := by
      cases items <;> simp [itemsText, ht]
    have hseq := h (List.cons_ne_nil _ _)
    rw [hfront] at hseq ⊢
    exact hseq.list hblank hb

theorem exact_membersList {spaced : Bool} {members : List (Bytes × Doc)} {f fuel : ℕ}
    (h : members ≠ [] → Exact (readSequence (readMember (readValue f)) 125 fuel)
      (membersText spaced members) (membersValue members) (FitsMembers members)) :
    Exact (readList (readMember (readValue f)) 125 fuel) (membersText spaced members)
      (membersValue members) (FitsMembers members) := by
  cases members with
  | nil =>
    rw [membersText, membersValue, FitsMembers]
    exact exact_list_nil (by decide)
  | cons member members =>
    obtain ⟨name, d⟩ := member
    obtain ⟨front, hfront⟩ : ∃ front, membersText spaced ((name, d) :: members) = 34 :: front := by
      cases members <;> simp [membersText, nameText]
    have hseq := h (List.cons_ne_nil _ _)
    rw [hfront] at hseq ⊢
    exact hseq.list (by decide) (by decide)

mutual

theorem exact_text (d : Doc) {fuel : ℕ} (hfuel : d.text.length ≤ fuel) :
    Exact (readValue fuel) d.text d.value d.Fits := by
  cases d with
  | raw s =>
    rw [text, List.length_cons] at hfuel
    obtain ⟨fuel, rfl⟩ := Nat.exists_eq_succ_of_ne_zero (Nat.ne_of_gt (Nat.zero_lt_of_lt hfuel))
    rw [text, value, Fits]
    exact (exact_raw s).value (fun _ _ => Value.string.inj) readValue_string
  | escaped s =>
    rw [text, List.length_cons] at hfuel
    obtain ⟨fuel, rfl⟩ := Nat.exists_eq_succ_of_ne_zero (Nat.ne_of_gt (Nat.zero_lt_of_lt hfuel))
    rw [text, value, Fits]
    exact (exact_escaped s).value (fun _ _ => Value.string.inj) readValue_string
  | array items =>
    rw [text, List.length_cons] at hfuel
    obtain ⟨fuel, rfl⟩ := Nat.exists_eq_succ_of_ne_zero (Nat.ne_of_gt (Nat.zero_lt_of_lt hfuel))
    rw [text, value, Fits]
    have hitems := exact_itemsList (exact_items items (f := fuel) (n := fuel) (by omega)
      (by omega))
    exact hitems.value (fun _ _ => Value.array.inj) readValue_array
  | object spaced members =>
    rw [text, List.length_cons] at hfuel
    obtain ⟨fuel, rfl⟩ := Nat.exists_eq_succ_of_ne_zero (Nat.ne_of_gt (Nat.zero_lt_of_lt hfuel))
    rw [text, value, Fits]
    have hmembers := exact_membersList
      (exact_members spaced members (f := fuel) (n := fuel) (by omega) (by omega))
    exact hmembers.value (fun _ _ => Value.object.inj) readValue_object

/-- `f` is the fuel of each item and `n` that of their sequence. -/
theorem exact_items (items : List Doc) {f n : ℕ} (hf : (itemsText items).length ≤ f)
    (hn : (itemsText items).length ≤ n) (hne : items ≠ []) :
    Exact (readSequence (readValue f) 93 n) (itemsText items) (itemsValue items)
      (FitsItems items) := by
  match items with
  | [] => exact absurd rfl hne
  | [item] =>
    rw [itemsText, List.length_append, List.length_singleton] at hf hn
    obtain ⟨n, rfl⟩ := Nat.exists_eq_succ_of_ne_zero (Nat.ne_of_gt (Nat.zero_lt_of_lt hn))
    have hitem := @exact_text item f (by omega)
    simp only [itemsText, itemsValue, FitsItems, and_true]
    exact exact_sequence_last hitem (by decide) (by decide)
  | item :: item' :: items =>
    rw [itemsText, List.length_append, List.length_cons] at hf hn
    obtain ⟨n, rfl⟩ := Nat.exists_eq_succ_of_ne_zero (show n ≠ 0 by omega)
    have hitem := @exact_text item f (by omega)
    have hitems := exact_items (item' :: items) (f := f) (n := n) (by omega) (by omega)
      (List.cons_ne_nil _ _)
    rw [itemsText, itemsValue, FitsItems]
    exact exact_sequence_cons hitem (by decide) hitems

theorem exact_members (spaced : Bool) (members : List (Bytes × Doc)) {f n : ℕ}
    (hf : (membersText spaced members).length ≤ f) (hn : (membersText spaced members).length ≤ n)
    (hne : members ≠ []) :
    Exact (readSequence (readMember (readValue f)) 125 n) (membersText spaced members)
      (membersValue members) (FitsMembers members) := by
  match members with
  | [] => exact absurd rfl hne
  | [(name, d)] =>
    simp only [membersText, List.length_append, List.length_singleton] at hf hn
    obtain ⟨n, rfl⟩ := Nat.exists_eq_succ_of_ne_zero (show n ≠ 0 by omega)
    have hd := exact_member (@exact_text d f (by omega)) (readValue_blank (by decide)) spaced name
    simp only [membersText, membersValue, FitsMembers, and_true]
    exact exact_sequence_last hd (by decide) (by decide)
  | (name, d) :: member :: members =>
    simp only [membersText, List.length_append, List.length_cons] at hf hn
    obtain ⟨n, rfl⟩ := Nat.exists_eq_succ_of_ne_zero (show n ≠ 0 by omega)
    have hd := exact_member (@exact_text d f (by omega)) (readValue_blank (by decide)) spaced name
    have hmembers := exact_members spaced (member :: members) (f := f) (n := n) (by omega)
      (by omega) (List.cons_ne_nil _ _)
    rw [membersText, membersValue, FitsMembers]
    exact exact_sequence_cons hd (by decide) hmembers

end

section Members
variable {spaced : Bool} {members : List (Bytes × Doc)}

theorem membersValue_eq (members : List (Bytes × Doc)) :
    membersValue members = members.map fun m => (m.1, m.2.value) := by
  induction members with
  | nil => rfl
  | cons m members ih => rw [membersValue, ih, List.map_cons]

theorem membersText_eq (spaced : Bool) (members : List (Bytes × Doc)) :
    membersText spaced members =
      [44].intercalate (members.map fun m => nameText spaced m.1 ++ m.2.text) ++ [125] := by
  induction members with
  | nil => rfl
  | cons m members ih =>
    cases members with
    | nil => simp [membersText, List.intercalate]
    | cons m' members =>
      rw [membersText, ih]
      simp [List.intercalate]

theorem text_object (spaced : Bool) (members : List (Bytes × Doc)) :
    (object spaced members).text =
      123 :: ([44].intercalate (members.map fun m => nameText spaced m.1 ++ m.2.text) ++ [125]) := by
  rw [text, membersText_eq]

theorem fits_object_iff :
    (object spaced members).Fits ↔ ∀ m ∈ members, Plain m.1 ∧ m.2.Fits := by
  rw [Fits]
  induction members with
  | nil => simp [FitsMembers]
  | cons m members ih => rw [FitsMembers, ih, List.forall_mem_cons]

theorem unambiguous_object_iff :
    (object spaced members).value.Unambiguous ↔
      (members.map Prod.fst).Nodup ∧ ∀ m ∈ members, m.2.value.Unambiguous := by
  rw [value, membersValue_eq, Value.Unambiguous, Value.unambiguousMembers_iff, List.map_map,
    List.forall_mem_map]
  rfl

/-- The text says what it is meant to say, to every reader. -/
def Sound (d : Doc) : Prop := d.Fits ∧ d.value.Unambiguous

theorem sound_raw_iff {s : Bytes} : (raw s).Sound ↔ Plain s := by
  simp [Sound, Fits, value, Value.Unambiguous]

theorem sound_escaped_iff {s : Bytes} : (escaped s).Sound ↔ Clean s := by
  simp [Sound, Fits, value, Value.Unambiguous]

theorem sound_object_iff :
    (object spaced members).Sound ↔
      (members.map Prod.fst).Nodup ∧ ∀ m ∈ members, Plain m.1 ∧ m.2.Sound := by
  rw [Sound, fits_object_iff, unambiguous_object_iff]
  constructor
  · rintro ⟨hfits, hnames, hvalues⟩
    exact ⟨hnames, fun m hm => ⟨(hfits m hm).1, (hfits m hm).2, hvalues m hm⟩⟩
  · rintro ⟨hnames, hmembers⟩
    exact ⟨fun m hm => ⟨(hmembers m hm).1, (hmembers m hm).2.1⟩, hnames,
      fun m hm => (hmembers m hm).2.2⟩

end Members

section Bytes

theorem printable_nameText {spaced : Bool} {name : Bytes} (hname : Plain name) :
    Printable (nameText spaced name) := by
  have hgap : Printable (if spaced then [32] else []) := by
    cases spaced <;> simp [Printable]
  rw [nameText, printable_cons, printable_append, printable_cons, printable_cons]
  exact ⟨by decide, hname.printable, by decide, by decide, hgap⟩

mutual

theorem printable_text (d : Doc) (hd : d.Fits) : Printable d.text := by
  cases d with
  | raw s =>
    rw [Fits] at hd
    rw [text, printable_cons, printable_append]
    exact ⟨by decide, hd.printable, by simp [Printable]⟩
  | escaped s =>
    rw [Fits] at hd
    rw [text, printable_cons, printable_append]
    exact ⟨by decide, hd.printable_escapeQuotes, by simp [Printable]⟩
  | array items =>
    rw [Fits] at hd
    rw [text, printable_cons]
    exact ⟨by decide, printable_itemsText items hd⟩
  | object spaced members =>
    rw [Fits] at hd
    rw [text, printable_cons]
    exact ⟨by decide, printable_membersText spaced members hd⟩

theorem printable_itemsText (items : List Doc) (h : FitsItems items) :
    Printable (itemsText items) := by
  match items with
  | [] => simp [itemsText, Printable]
  | [item] =>
    rw [FitsItems] at h
    rw [itemsText, printable_append]
    exact ⟨printable_text item h.1, by simp [Printable]⟩
  | item :: item' :: items =>
    rw [FitsItems] at h
    rw [itemsText, printable_append, printable_cons]
    exact ⟨printable_text item h.1, by decide, printable_itemsText (item' :: items) h.2⟩

theorem printable_membersText (spaced : Bool) (members : List (Bytes × Doc))
    (h : FitsMembers members) : Printable (membersText spaced members) := by
  match members with
  | [] => simp [membersText, Printable]
  | [(name, d)] =>
    rw [FitsMembers] at h
    rw [membersText, printable_append, printable_append]
    exact ⟨⟨printable_nameText h.1.1, printable_text d h.1.2⟩, by simp [Printable]⟩
  | (name, d) :: member :: members =>
    rw [FitsMembers] at h
    rw [membersText, printable_append, printable_append, printable_cons]
    exact ⟨⟨printable_nameText h.1.1, printable_text d h.1.2⟩, by decide,
      printable_membersText spaced (member :: members) h.2⟩

end

end Bytes

/-- The text is read as what it is meant to say exactly when its strings fit. -/
theorem read_text_iff (d : Doc) : read d.text = some d.value ↔ d.Fits := by
  have hexact := exact_text d (Nat.le_succ d.text.length) []
  rw [List.append_nil] at hexact
  rw [read]
  constructor
  · intro h
    cases hvalue : readValue (d.text.length + 1) d.text with
    | none => simp [hvalue] at h
    | some p =>
      obtain ⟨v, r⟩ := p
      simp only [hvalue] at h
      split_ifs at h
      rw [Option.some.inj h] at hvalue
      exact ((hexact r).mp hvalue).1
  · intro h
    rw [(hexact []).mpr ⟨h, rfl⟩]
    simp [skip]

end Doc
end V2IHub.Foundation.JsonText
