import V2IHub.Foundation.JsonAssembly

/-! JSON texts that hold the text of another writer, with blanks where it leaves them. -/
namespace V2IHub.Foundation.JsonText

section Reads
variable {α : Type} {reader : Reader α} {text name : Bytes} {a : α} {closing : UInt8} {fuel : ℕ}

/-- The reader finds `a` at the front of every text that begins with this one, and leaves what
follows, but for blanks. -/
def Reads (reader : Reader α) (text : Bytes) (a : α) : Prop :=
  ∀ rest, ∃ r, reader (text ++ rest) = some (a, r) ∧ skip r = skip rest

theorem Exact.reads {C : Prop} (h : Exact reader text a C) (hC : C) : Reads reader text a :=
  fun rest => ⟨rest, (h rest rest).mpr ⟨hC, rfl⟩, rfl⟩

theorem Reads.append_blank {b : UInt8} (h : Reads reader text a) (hb : blank b = true) :
    Reads reader (text ++ [b]) a := by
  intro rest
  obtain ⟨r, hread, hskip⟩ := h (b :: rest)
  refine ⟨r, by rw [List.append_assoc, List.singleton_append, hread], ?_⟩
  rw [hskip, skip_blank hb]

theorem skip_skip (t : Bytes) : skip (skip t) = skip t := by
  induction t with
  | nil => rfl
  | cons b t ih =>
    cases hb : blank b with
    | true => rwa [skip_blank hb]
    | false => rw [skip_cons hb, skip_cons hb]

theorem readMember_skip (t : Bytes) : readMember reader (skip t) = readMember reader t := by
  rw [readMember, readMember, expect, expect, skip_skip]

/-- A member begins with the quote of its name. -/
theorem skip_of_readMember {t r : Bytes} {m : Bytes × α} (h : readMember reader t = some (m, r)) :
    ∃ t', skip t = 34 :: t' := by
  unfold readMember expect at h
  cases hskip : skip t with
  | nil => simp [hskip] at h
  | cons b t' =>
    by_cases hb : b = 34
    · exact ⟨t', by rw [hb]⟩
    · simp [hskip, hb] at h

theorem reads_member (hname : Plain name) (h : Reads reader text a) :
    Reads (readMember reader) (34 :: (name ++ 34 :: 58 :: text)) (name, a) := by
  intro rest
  obtain ⟨r, hread, hskip⟩ := h rest
  refine ⟨r, ?_, hskip⟩
  have htext : 34 :: (name ++ 34 :: 58 :: text) ++ rest =
      34 :: (name ++ [34] ++ 58 :: (text ++ rest)) := by simp
  rw [htext, readMember_iff]
  refine ⟨_, (exact_raw name _ _).mpr ⟨hname, rfl⟩, ?_⟩
  rw [expect_cons (by decide), Option.bind_some, hread]

/-- The elements with commas between them, and the closing bracket. -/
theorem reads_sequence {texts : List Bytes} {as : List α}
    (h : List.Forall₂ (Reads reader) texts as) (hne : texts ≠ []) (hcomma : closing ≠ 44)
    (hblank : blank closing = false) (hfuel : texts.length ≤ fuel) :
    Reads (readSequence reader closing fuel) ([44].intercalate texts ++ [closing]) as := by
  induction h generalizing fuel with
  | nil => exact absurd rfl hne
  | @cons text a texts as htext htexts ih =>
    obtain ⟨fuel, rfl⟩ : ∃ f, fuel = f + 1 := ⟨fuel - 1, by simp at hfuel; omega⟩
    intro rest
    cases htexts with
    | nil =>
      obtain ⟨r, hread, hskip⟩ := htext (closing :: rest)
      rw [skip_cons hblank] at hskip
      refine ⟨rest, ?_, rfl⟩
      rw [List.intercalate_singleton, List.append_assoc, List.singleton_append,
        readSequence_cons_iff hcomma]
      exact ⟨r, hread, Or.inl ⟨rfl, hskip⟩⟩
    | @cons text' a' texts as htext' htexts =>
      obtain ⟨r, hread, hskip⟩ := ih (List.cons_ne_nil _ _) (by simpa using hfuel) rest
      obtain ⟨r', hread', hskip'⟩ :=
        htext (44 :: ([44].intercalate (text' :: texts) ++ [closing] ++ rest))
      rw [skip_cons (by decide)] at hskip'
      refine ⟨r, ?_, hskip⟩
      rw [List.intercalate_cons_cons, List.append_assoc, List.append_assoc, List.append_assoc,
        readSequence_cons_iff hcomma]
      exact ⟨r', by simpa using hread', Or.inr ⟨_, hskip', hread⟩⟩

/-- A sequence of members is a list, since a member begins with a quote. -/
theorem readList_of_sequence {t r : Bytes} {members : List (Bytes × α)} (hquote : closing ≠ 34)
    (h : readSequence (readMember reader) closing fuel t = some (members, r)) :
    readList (readMember reader) closing fuel t = some (members, r) := by
  cases fuel with
  | zero => simp [readSequence] at h
  | succ fuel =>
    cases hread : readMember reader t with
    | none => simp [readSequence, hread] at h
    | some p =>
      obtain ⟨t', hskip⟩ := skip_of_readMember hread
      have hsame : readMember reader (34 :: t') = readMember reader t := by
        rw [← hskip, readMember_skip]
      rw [readList, hskip]
      simp only [if_neg hquote.symm]
      rw [← h, readSequence, readSequence, hsame]

/-- An object whose members were written one by one. -/
theorem reads_object {texts : List Bytes} {members : List (Bytes × Value)}
    (h : List.Forall₂ (Reads (readMember (readValue fuel))) texts members)
    (hfuel : texts.length ≤ fuel) :
    Reads (readValue (fuel + 1)) (123 :: ([44].intercalate texts ++ [125])) (.object members) := by
  intro rest
  rw [List.cons_append, readValue_object]
  by_cases hne : texts = []
  · subst hne
    obtain rfl := List.forall₂_nil_left_iff.mp h
    exact ⟨rest, rfl, rfl⟩
  · have hcomma : (125 : UInt8) ≠ 44 := by decide
    have hblank : blank 125 = false := by decide
    obtain ⟨r, hread, hskip⟩ := reads_sequence h hne hcomma hblank hfuel rest
    refine ⟨r, ?_, hskip⟩
    rw [readList_of_sequence (by decide) hread]
    rfl

end Reads

section Texts
variable {text name : Bytes} {v : Value} {texts : List Bytes} {members : List (Bytes × Value)}

/-- Every reader that gets far enough finds the value. -/
def ReadsValue (text : Bytes) (v : Value) : Prop :=
  ∀ fuel, text.length ≤ fuel → Reads (readValue fuel) text v

def ReadsMember (text : Bytes) (m : Bytes × Value) : Prop :=
  ∀ fuel, text.length ≤ fuel → Reads (readMember (readValue fuel)) text m

theorem Doc.readsValue (d : Doc) (h : d.Fits) : ReadsValue d.text d.value :=
  fun _ hfuel => (d.exact_text hfuel).reads h

theorem ReadsValue.append_blank {b : UInt8} (h : ReadsValue text v) (hb : blank b = true) :
    ReadsValue (text ++ [b]) v := by
  intro fuel hfuel
  rw [List.length_append] at hfuel
  exact (h fuel (by omega)).append_blank hb

theorem ReadsValue.member (h : ReadsValue text v) (hname : Plain name) :
    ReadsMember (34 :: (name ++ 34 :: 58 :: text)) (name, v) := by
  intro fuel hfuel
  simp only [List.length_cons, List.length_append] at hfuel
  exact reads_member hname (h fuel (by omega))

theorem length_intercalate (texts : List Bytes) :
    texts.length ≤ ([44].intercalate texts).length + 1 ∧
      ∀ text ∈ texts, text.length ≤ ([44].intercalate texts).length := by
  induction texts with
  | nil => simp
  | cons text texts ih =>
    cases texts with
    | nil => simp
    | cons text' texts =>
      rw [List.intercalate_cons_cons]
      simp only [List.length_append, List.length_cons, List.length_nil] at ih ⊢
      refine ⟨by omega, fun t ht => ?_⟩
      rcases List.mem_cons.mp ht with rfl | ht
      · omega
      · have hle := ih.2 t ht
        omega

theorem readsValue_object (h : List.Forall₂ ReadsMember texts members) :
    ReadsValue (123 :: ([44].intercalate texts ++ [125])) (.object members) := by
  intro fuel hfuel
  obtain ⟨hcount, hlength⟩ := length_intercalate texts
  simp only [List.length_cons, List.length_append, List.length_nil] at hfuel
  obtain ⟨fuel, rfl⟩ : ∃ f, fuel = f + 1 := ⟨fuel - 1, by omega⟩
  apply reads_object _ (by omega)
  refine List.forall₂_iff_get.mpr ⟨h.length_eq, fun i h₁ h₂ => ?_⟩
  have hle := hlength _ (List.get_mem texts ⟨i, h₁⟩)
  exact (List.forall₂_iff_get.mp h).2 i h₁ h₂ fuel (by omega)

theorem ReadsValue.read (h : ReadsValue text v) : read text = some v := by
  obtain ⟨r, hread, hskip⟩ := h (text.length + 1) (by omega) []
  rw [List.append_nil] at hread
  rw [JsonText.read, hread]
  exact if_pos hskip

end Texts

end V2IHub.Foundation.JsonText
