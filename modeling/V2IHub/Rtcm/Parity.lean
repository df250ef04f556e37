import V2IHub.Foundation.BitFields

/-! The parity of the 30-bit words of RTCM 2, and the complement of their data bits. -/
namespace V2IHub.Rtcm
open Foundation

/-- Bit `n` of a word of 30 bits; the first bit is the most significant one. -/
def getBit (n word : ℕ) : Bool := word.testBit (30 - n)

/-- `bit_manipulator<..>::xor_bits` -/
def xorBits (word : ℕ) : List ℕ → Bool
  | [] => false
  | n :: ns => getBit n word ^^ xorBits word ns

/-- The parity bits of a word, for the last two bits of the word before it. -/
def parityBits (word : ℕ) (D29 D30 : Bool) : List Bool :=
  [D29 ^^ xorBits word [1, 2, 3, 5, 6, 10, 11, 12, 13, 14, 17, 18, 20, 23],
    D30 ^^ xorBits word [2, 3, 4, 6, 7, 11, 12, 13, 14, 15, 18, 19, 21, 24],
    D29 ^^ xorBits word [1, 3, 4, 5, 7, 8, 12, 13, 14, 15, 16, 19, 20, 22],
    D30 ^^ xorBits word [2, 4, 5, 6, 8, 9, 13, 14, 15, 16, 17, 20, 21, 23],
    D30 ^^ xorBits word [1, 3, 5, 6, 7, 9, 10, 14, 15, 16, 17, 18, 21, 22, 24],
    D29 ^^ xorBits word [3, 5, 6, 8, 9, 10, 11, 13, 15, 19, 22, 23, 24]]

def parityCode (word : ℕ) (D29 D30 : Bool) : ℕ :=
  packFields ((parityBits word D29 D30).map fun b => (1, b.toNat))

/-- `add_Parity`: the last six bits are replaced. -/
def addParity (word prevWord : ℕ) : ℕ :=
  word % 2 ^ 30 / 64 * 64 + parityCode word (getBit 29 prevWord) (getBit 30 prevWord)

def checkParity (word prevWord : ℕ) : Bool := word = addParity word prevWord

/-- The bits of a word that are no parity. -/
def dataBitmask : ℕ := (2 ^ 30 - 1) ^^^ (2 ^ 6 - 1)

def complement (word : ℕ) : ℕ := word ^^^ dataBitmask

/-- Each word is complemented if the one before it ends in 1. -/
def chain : ℕ → List ℕ → List ℕ
  | _, [] => []
  | prev, word :: words =>
    let word := if prev.testBit 0 then complement word else word
    word :: chain word words

section Complement
variable {word : ℕ}

theorem testBit_dataBitmask (i : ℕ) : dataBitmask.testBit i = decide (6 ≤ i ∧ i < 30) := by
  rw [dataBitmask, Nat.testBit_xor, Nat.testBit_two_pow_sub_one, Nat.testBit_two_pow_sub_one]
  by_cases h : i < 6
  · have h30 : i < 30 := by omega
    simp [h, h30]
  · by_cases h30 : i < 30 <;> simp [h, h30, Nat.le_of_not_lt h]

theorem testBit_complement (i : ℕ) :
    (complement word).testBit i = (word.testBit i ^^ decide (6 ≤ i ∧ i < 30)) := by
  rw [complement, Nat.testBit_xor, testBit_dataBitmask]

theorem complement_complement : complement (complement word) = word := by
  rw [complement, complement, Nat.xor_assoc, Nat.xor_self, Nat.xor_zero]

theorem complement_lt (h : word < 2 ^ 30) : complement word < 2 ^ 30 :=
  Nat.xor_lt_two_pow h (by decide)

theorem complement_mod : complement word % 64 = word % 64 := by
  apply Nat.eq_of_testBit_eq
  intro i
  have hpow : 64 = 2 ^ 6 := by decide
  rw [hpow, Nat.testBit_mod_two_pow, Nat.testBit_mod_two_pow, testBit_complement]
  by_cases h : i < 6
  · have hmask : ¬ 6 ≤ i := by omega
    simp [hmask]
  · simp [h]

/-- The last bit, which decides on the complement of the next word. -/
theorem testBit_zero_complement : (complement word).testBit 0 = word.testBit 0 := by
  rw [testBit_complement]
  simp

theorem xorBits_complement {ns : List ℕ} (h : ∀ n ∈ ns, 1 ≤ n ∧ n ≤ 24) :
    xorBits (complement word) ns = (xorBits word ns ^^ ns.length.bodd) := by
  induction ns with
  | nil => rfl
  | cons n ns ih =>
    obtain ⟨hn, hns⟩ := List.forall_mem_cons.mp h
    have hmask : 6 ≤ 30 - n ∧ 30 - n < 30 := by omega
    rw [xorBits, xorBits, ih hns, getBit, getBit, testBit_complement, decide_eq_true hmask,
      List.length_cons, Nat.bodd_succ]
    cases word.testBit (30 - n) <;> cases xorBits word ns <;> cases ns.length.bodd <;> rfl

end Complement

section Chain

theorem chain_lt (prev : ℕ) {words : List ℕ} (h : ∀ word ∈ words, word < 2 ^ 30) :
    ∀ word ∈ chain prev words, word < 2 ^ 30 := by
  induction words generalizing prev with
  | nil => simp [chain]
  | cons word words ih =>
    obtain ⟨hword, hwords⟩ := List.forall_mem_cons.mp h
    refine List.forall_mem_cons.mpr ⟨?_, ih _ hwords⟩
    split_ifs
    · exact complement_lt hword
    · exact hword

@[simp] theorem chain_length (prev : ℕ) (words : List ℕ) :
    (chain prev words).length = words.length := by
  induction words generalizing prev with
  | nil => rfl
  | cons word words ih => simp [chain, ih]

/-- Only the last bit of the word before counts. -/
theorem chain_congr {prev prev' : ℕ} (h : prev.testBit 0 = prev'.testBit 0) (words : List ℕ) :
    chain prev words = chain prev' words := by
  cases words with
  | nil => rfl
  | cons word words => simp only [chain, h]

/-- A word ends as it does when it is complemented. -/
theorem testBit_zero_ite (prev word : ℕ) :
    (if prev.testBit 0 then complement word else word).testBit 0 = word.testBit 0 := by
  split_ifs
  · exact testBit_zero_complement
  · rfl

theorem chain_chain (prev : ℕ) (words : List ℕ) : chain prev (chain prev words) = words := by
  induction words generalizing prev with
  | nil => rfl
  | cons word words ih =>
    let wire := if prev.testBit 0 then complement word else word
    have hback : (if prev.testBit 0 then complement wire else wire) = word := by
      simp only [wire]
      split_ifs
      · exact complement_complement
      · rfl
    have hlast : word.testBit 0 = wire.testBit 0 := (testBit_zero_ite prev word).symm
    change (if prev.testBit 0 then complement wire else wire) ::
      chain (if prev.testBit 0 then complement wire else wire) (chain wire words) = word :: words
    rw [hback, chain_congr hlast, ih]

end Chain

section Parity
variable {word : ℕ} {D29 D30 : Bool}

theorem parityCode_lt (word : ℕ) (D29 D30 : Bool) : parityCode word D29 D30 < 64 := by
  have hfit : FieldsFit ((parityBits word D29 D30).map fun b => (1, b.toNat)) := by
    intro f hf
    obtain ⟨b, -, rfl⟩ := List.mem_map.mp hf
    exact Bool.toNat_lt b
  exact packFields_lt hfit

theorem checkParity_iff (h : word < 2 ^ 30) (prevWord : ℕ) :
    checkParity word prevWord = true ↔
      word % 64 = parityCode word (getBit 29 prevWord) (getBit 30 prevWord) := by
  have hlt := parityCode_lt word (getBit 29 prevWord) (getBit 30 prevWord)
  rw [checkParity, decide_eq_true_eq, addParity, Nat.mod_eq_of_lt h]
  omega

/-- The first two parity bits give the bits of the word before. -/
theorem parityCode_testBit (word : ℕ) (D29 D30 : Bool) :
    (parityCode word D29 D30).testBit 5 =
        (D29 ^^ xorBits word [1, 2, 3, 5, 6, 10, 11, 12, 13, 14, 17, 18, 20, 23]) ∧
      (parityCode word D29 D30).testBit 4 =
        (D30 ^^ xorBits word [2, 3, 4, 6, 7, 11, 12, 13, 14, 15, 18, 19, 21, 24]) := by
  have hall : ∀ a b c d e f : Bool,
      (packFields ([a, b, c, d, e, f].map fun b => (1, b.toNat))).testBit 5 = a ∧
        (packFields ([a, b, c, d, e, f].map fun b => (1, b.toNat))).testBit 4 = b := by decide
  exact hall _ _ _ _ _ _

/-- These are the same for a word and its complement. -/
theorem xorBits_even (complemented : Bool) :
    xorBits (if complemented then complement word else word)
        [1, 2, 3, 5, 6, 10, 11, 12, 13, 14, 17, 18, 20, 23] =
      xorBits word [1, 2, 3, 5, 6, 10, 11, 12, 13, 14, 17, 18, 20, 23] ∧
    xorBits (if complemented then complement word else word)
        [2, 3, 4, 6, 7, 11, 12, 13, 14, 15, 18, 19, 21, 24] =
      xorBits word [2, 3, 4, 6, 7, 11, 12, 13, 14, 15, 18, 19, 21, 24] := by
  cases complemented with
  | false => exact ⟨rfl, rfl⟩
  | true =>
    simp only [if_true]
    constructor
    · rw [xorBits_complement (by decide)]
      exact Bool.xor_false _
    · rw [xorBits_complement (by decide)]
      exact Bool.xor_false _

/-- The parity of a word, complemented or not, is right for one pair of bits only. -/
theorem parity_unique {D29' D30' : Bool} (c c' : Bool)
    (h : (if c then complement word else word) % 64 =
      parityCode (if c then complement word else word) D29 D30)
    (h' : (if c' then complement word else word) % 64 =
      parityCode (if c' then complement word else word) D29' D30') :
    D29 = D29' ∧ D30 = D30' := by
  have hlow : ∀ c : Bool, (if c then complement word else word) % 64 = word % 64 := by
    intro c
    cases c
    · rfl
    · exact complement_mod
  rw [hlow] at h h'
  obtain ⟨h5, h4⟩ := parityCode_testBit (if c then complement word else word) D29 D30
  obtain ⟨h5', h4'⟩ := parityCode_testBit (if c' then complement word else word) D29' D30'
  rw [← h, (xorBits_even c).1] at h5
  rw [← h, (xorBits_even c).2] at h4
  rw [← h', (xorBits_even c').1] at h5'
  rw [← h', (xorBits_even c').2] at h4'
  exact ⟨Bool.xor_left_inj.mp (h5.symm.trans h5'), Bool.xor_left_inj.mp (h4.symm.trans h4')⟩

end Parity
end V2IHub.Rtcm
