import V2IHub.Foundation.BitFields
import V2IHub.Foundation.Bytes

/-! The words of RTCM data: how bytes become words, words become attributes, and back. All
attributes are unsigned; one is given by its size in bits and its value. -/
namespace V2IHub.Rtcm
open Foundation

/-- The words of an `RtcmDataManager`. A byte carries `byteBits` bits, which are rolled if the
`mask` is set, and `dataBits` is the width of the type that holds a word. -/
structure WordFormat where
  wordBits : ℕ
  byteBits : ℕ
  mask : ℕ
  dataBits : ℕ
  byteBits_pos : 0 < byteBits
  whole : wordBits / byteBits * byteBits = wordBits
  fits : wordBits ≤ dataBits

/-- Bit `i` of the result is the bit `size - i - 1` of the byte. -/
def rollByte (size byte : ℕ) : ℕ :=
  (List.range size).foldl (fun val i => if byte.testBit (size - i - 1) then val + 2 ^ i else val) 0

/-- `width` is that of the type of `value`. -/
def combineWord (size width word value : ℕ) : ℕ :=
  (if 0 < value then value <<< size % 2 ^ width else value) ||| word % 2 ^ size

def splitWord (size value pos : ℕ) : ℕ := value >>> (size * pos) % 2 ^ size

def assignFrom (value : ℕ) : ℕ → List ℕ → List ℕ
  | _, [] => []
  | bitCount, size :: sizes =>
    let bitCount := bitCount - size
    value >>> bitCount % 2 ^ size :: assignFrom value bitCount sizes

def extractFrom (value : ℕ) : ℕ → List (ℕ × ℕ) → ℕ
  | _, [] => value
  | bitCount, (size, attr) :: attrs =>
    let bitCount := bitCount - size
    extractFrom (value ||| attr <<< bitCount % 2 ^ 64) bitCount attrs

namespace WordFormat
variable (f : WordFormat)

/-- The number of bytes of a word. -/
def wordSize : ℕ := f.wordBits / f.byteBits

def wireByte (byte : ℕ) : UInt8 :=
  UInt8.ofNat (if 0 < f.mask then rollByte f.byteBits byte ||| f.mask else byte)

def writeWord (word : ℕ) : Bytes :=
  (List.range f.wordSize).map fun i => f.wireByte (splitWord f.byteBits word (f.wordSize - i - 1))

def readByte (byte : UInt8) : ℕ :=
  if 0 < f.mask ∧ byte.toNat &&& f.mask = f.mask then rollByte f.byteBits byte.toNat
  else byte.toNat

def readWord (bytes : Bytes) (pos : ℕ) : ℕ :=
  ((bytes.drop pos).take f.wordSize).foldl
    (fun val byte => combineWord f.byteBits f.dataBits (f.readByte byte) val) 0

def getData (data : List ℕ) (word : ℕ) : ℕ := data.getD word 0

def loadData (data : List ℕ) (bytes : Bytes) (numWords : ℕ) : List ℕ :=
  data ++ (List.range numWords).map fun i => f.readWord bytes (i * f.wordSize)

def countWords (sizes : List ℕ) : ℕ := sizes.sum / f.wordBits

/-- The values of the attributes and the rest of the buffer; `none` is a `TmxException`. -/
def assignData (data : List ℕ) (sizes : List ℕ) : Option (List ℕ × List ℕ) :=
  let numWords := f.countWords sizes
  if data.length < numWords then none
  else
    let value := (data.take numWords).foldl (fun value word => combineWord f.wordBits 64 word value) 0
    some (assignFrom value sizes.sum sizes, data.drop numWords)

def extractWords (attrs : List (ℕ × ℕ)) : List ℕ :=
  let numWords := f.countWords (attrs.map Prod.fst)
  let value := extractFrom 0 (attrs.map Prod.fst).sum attrs
  (List.range numWords).map fun w => splitWord f.wordBits value (numWords - w - 1)

def extractData (attrs : List (ℕ × ℕ)) : Bytes := (f.extractWords attrs).flatMap f.writeWord

def retrieveData (data : List ℕ) (numWords : ℕ) : Option Bytes :=
  if data.length < numWords then none
  else some ((List.range numWords).flatMap fun w => f.writeWord (getData data w))

def extractAllData (data : List ℕ) (numWords : ℕ) (attrs : List (ℕ × ℕ)) : Option Bytes :=
  (f.retrieveData data numWords).map fun wordData => f.extractData attrs ++ wordData

end WordFormat

section Packing
variable {size width value word : ℕ}

theorem combineWord_eq (hword : word < 2 ^ size) (hvalue : value * 2 ^ size < 2 ^ width) :
    combineWord size width word value = value * 2 ^ size + word := by
  rw [combineWord, Nat.mod_eq_of_lt hword]
  split_ifs with h
  · rw [Nat.shiftLeft_eq, Nat.mod_eq_of_lt hvalue, ← Nat.shiftLeft_eq,
      Nat.shiftLeft_add_eq_or_of_lt hword]
  · obtain rfl : value = 0 := by omega
    simp

/-- Words that are combined one by one. -/
theorem foldl_combineWord {words : List ℕ} (hwords : ∀ word ∈ words, word < 2 ^ size)
    (hwidth : words.length * size ≤ width) :
    words.foldl (fun value word => combineWord size width word value) 0 = packWords size words := by
  induction words using List.reverseRecOn with
  | nil => rfl
  | append_singleton words word ih =>
    have hinit : ∀ w ∈ words, w < 2 ^ size := fun w hw => hwords w (by simp [hw])
    have hlen : (words.length + 1) * size ≤ width := by simpa using hwidth
    have hlt : packWords size words * 2 ^ size < 2 ^ width := by
      have hpack := packWords_lt hinit
      calc packWords size words * 2 ^ size < 2 ^ (words.length * size) * 2 ^ size :=
            Nat.mul_lt_mul_of_pos_right hpack (by positivity)
        _ = 2 ^ ((words.length + 1) * size) := by ring
        _ ≤ 2 ^ width := Nat.pow_le_pow_right (by decide) hlen
    rw [List.foldl_append, ih hinit (by nlinarith), List.foldl_cons, List.foldl_nil,
      combineWord_eq (hwords word (by simp)) hlt, packWords_append_singleton]

theorem assignFrom_eq (value : ℕ) (sizes : List ℕ) :
    assignFrom value sizes.sum sizes = unpackFields sizes value := by
  induction sizes with
  | nil => rfl
  | cons size sizes ih =>
    rw [assignFrom, unpackFields, List.sum_cons, Nat.add_sub_cancel_left, ih, Nat.shiftRight_eq_div_pow]

theorem extractFrom_eq {attrs : List (ℕ × ℕ)} (hfit : FieldsFit attrs)
    (hwidth : (attrs.map Prod.fst).sum ≤ 64) (high : ℕ) :
    extractFrom (high * 2 ^ (attrs.map Prod.fst).sum) (attrs.map Prod.fst).sum attrs =
      high * 2 ^ (attrs.map Prod.fst).sum + packFields attrs := by
  induction attrs generalizing high with
  | nil => simp [extractFrom, packFields]
  | cons attr attrs ih =>
    obtain ⟨size, v⟩ := attr
    obtain ⟨hv, hattrs⟩ := List.forall_mem_cons.mp hfit
    simp only [List.map_cons, List.sum_cons] at hwidth ⊢
    have hlt : v * 2 ^ (attrs.map Prod.fst).sum < 2 ^ (size + (attrs.map Prod.fst).sum) := by
      rw [pow_add]
      exact Nat.mul_lt_mul_of_pos_right hv (by positivity)
    have hshift : v <<< (attrs.map Prod.fst).sum % 2 ^ 64 = v * 2 ^ (attrs.map Prod.fst).sum := by
      rw [Nat.shiftLeft_eq]
      exact Nat.mod_eq_of_lt (hlt.trans_le (Nat.pow_le_pow_right (by decide) hwidth))
    have hor : high * 2 ^ (size + (attrs.map Prod.fst).sum) ||| v * 2 ^ (attrs.map Prod.fst).sum =
        (high * 2 ^ size + v) * 2 ^ (attrs.map Prod.fst).sum := by
      rw [← Nat.shiftLeft_eq, ← Nat.shiftLeft_add_eq_or_of_lt hlt, Nat.shiftLeft_eq]
      ring
    rw [extractFrom, Nat.add_sub_cancel_left, hshift, hor, ih hattrs (by omega), packFields]
    ring

/-- The words of a number, as they are split off it. -/
theorem map_splitWord (size n value : ℕ) :
    (List.range n).map (fun w => splitWord size value (n - w - 1)) =
      unpackFields (List.replicate n size) value := by
  induction n with
  | zero => rfl
  | succ n ih =>
    rw [List.range_succ_eq_map, List.map_cons, List.map_map, List.replicate_succ, unpackFields,
      List.sum_replicate, ← ih, splitWord, Nat.shiftRight_eq_div_pow]
    congr 1
    · simp [Nat.mul_comm]
    · apply List.map_congr_left
      intro w _
      simp only [Function.comp_apply]
      congr 1
      omega

end Packing

namespace WordFormat
variable {f : WordFormat}

/-- What is written as a byte reads back. -/
def Reads (f : WordFormat) : Prop := ∀ byte < 2 ^ f.byteBits, f.readByte (f.wireByte byte) = byte

theorem wordSize_mul (f : WordFormat) : f.wordSize * f.byteBits = f.wordBits := f.whole

theorem writeWord_eq (f : WordFormat) (word : ℕ) :
    f.writeWord word = (unpackFields (List.replicate f.wordSize f.byteBits) word).map f.wireByte := by
  rw [writeWord, ← map_splitWord, List.map_map]
  rfl

@[simp] theorem writeWord_length (f : WordFormat) (word : ℕ) :
    (f.writeWord word).length = f.wordSize := by
  simp [writeWord]

theorem flatMap_writeWord_length (f : WordFormat) (words : List ℕ) :
    (words.flatMap f.writeWord).length = words.length * f.wordSize := by
  simp [List.length_flatMap]

theorem readWord_drop (f : WordFormat) (front bytes : Bytes) (pos : ℕ) :
    f.readWord (front ++ bytes) (front.length + pos) = f.readWord bytes pos := by
  simp [readWord]

/-- A word reads back. -/
theorem readWord_writeWord (hreads : f.Reads) {word : ℕ} (hword : word < 2 ^ f.wordBits)
    (rest : Bytes) : f.readWord (f.writeWord word ++ rest) 0 = word := by
  let parts := unpackFields (List.replicate f.wordSize f.byteBits) word
  have hlen : parts.length = f.wordSize := by simp [parts]
  have hparts : ∀ part ∈ parts, part < 2 ^ f.byteBits := unpackFields_replicate_lt
  have htake : (f.writeWord word ++ rest).take f.wordSize = parts.map f.wireByte := by
    rw [writeWord_eq, List.take_left' (by simp)]
  have hread : (parts.map f.wireByte).map f.readByte = parts := by
    rw [List.map_map]
    exact (List.map_congr_left fun part hpart => hreads part (hparts part hpart)).trans
      (List.map_id' parts)
  have hwidth : parts.length * f.byteBits ≤ f.dataBits := by
    rw [hlen, wordSize_mul]
    exact f.fits
  rw [readWord, List.drop_zero, htake]
  rw [← List.foldl_map (f := f.readByte)
    (g := fun val byte => combineWord f.byteBits f.dataBits byte val), hread,
    foldl_combineWord hparts hwidth, packWords_unpackFields, wordSize_mul, Nat.mod_eq_of_lt hword]

/-- Words that were written load back. -/
theorem loadData_writeWord (hreads : f.Reads) (data : List ℕ) {words : List ℕ}
    (hwords : ∀ word ∈ words, word < 2 ^ f.wordBits) (rest : Bytes) :
    f.loadData data (words.flatMap f.writeWord ++ rest) words.length = data ++ words := by
  rw [loadData]
  congr 1
  induction words with
  | nil => rfl
  | cons word words ih =>
    obtain ⟨hword, hwords⟩ := List.forall_mem_cons.mp hwords
    have htail : ∀ i, f.readWord (f.writeWord word ++ (words.flatMap f.writeWord ++ rest))
        ((i + 1) * f.wordSize) = f.readWord (words.flatMap f.writeWord ++ rest) (i * f.wordSize) := by
      intro i
      have hpos : (i + 1) * f.wordSize = (f.writeWord word).length + i * f.wordSize := by
        rw [writeWord_length]
        ring
      rw [hpos, readWord_drop]
    rw [List.length_cons, List.range_succ_eq_map, List.map_cons, List.map_map, List.flatMap_cons,
      List.append_assoc, Nat.zero_mul, readWord_writeWord hreads hword]
    congr 1
    exact (List.map_congr_left fun i _ => htail i).trans (ih hwords)

theorem assignData_eq {words rest sizes : List ℕ} (hwords : ∀ word ∈ words, word < 2 ^ f.wordBits)
    (hsizes : sizes.sum = words.length * f.wordBits) (hpos : 0 < f.wordBits)
    (hwidth : sizes.sum ≤ 64) :
    f.assignData (words ++ rest) sizes =
      some (unpackFields sizes (packWords f.wordBits words), rest) := by
  have hcount : f.countWords sizes = words.length := by
    rw [countWords, hsizes, Nat.mul_div_cancel _ hpos]
  have henough : ¬ (words ++ rest).length < words.length := by simp
  rw [assignData]
  simp only [hcount, if_neg henough, List.take_left', List.drop_left', assignFrom_eq]
  rw [foldl_combineWord hwords (hsizes ▸ hwidth)]

theorem extractWords_eq {attrs : List (ℕ × ℕ)} (hfit : FieldsFit attrs)
    (hwidth : (attrs.map Prod.fst).sum ≤ 64) :
    f.extractWords attrs =
      unpackFields (List.replicate (f.countWords (attrs.map Prod.fst)) f.wordBits)
        (packFields attrs) := by
  have h := extractFrom_eq hfit hwidth 0
  rw [Nat.zero_mul, Nat.zero_add] at h
  rw [extractWords, h, map_splitWord]

/-- Attributes that were assigned from words give these words. -/
theorem extractWords_unpackFields {words sizes : List ℕ}
    (hwords : ∀ word ∈ words, word < 2 ^ f.wordBits)
    (hsizes : sizes.sum = words.length * f.wordBits) (hpos : 0 < f.wordBits)
    (hwidth : sizes.sum ≤ 64) :
    f.extractWords (sizes.zip (unpackFields sizes (packWords f.wordBits words))) = words := by
  have hfst : (sizes.zip (unpackFields sizes (packWords f.wordBits words))).map Prod.fst = sizes :=
    List.map_fst_zip (by simp)
  have hcount : f.countWords sizes = words.length := by
    rw [countWords, hsizes, Nat.mul_div_cancel _ hpos]
  rw [extractWords_eq (unpackFields_fit _ _) (by rw [hfst]; exact hwidth), hfst, hcount,
    packFields_unpackFields, hsizes, Nat.mod_eq_of_lt (packWords_lt hwords),
    unpackFields_packWords hwords]

theorem map_getData {data : List ℕ} {numWords : ℕ} (h : numWords ≤ data.length) :
    (List.range numWords).map (getData data) = data.take numWords := by
  apply List.ext_getElem
  · simp [h]
  · intro i hi hi'
    have hlt : i < data.length := by
      simp only [List.length_take] at hi'
      omega
    simp [getData, hlt]

theorem retrieveData_eq (f : WordFormat) {data : List ℕ} {numWords : ℕ}
    (h : numWords ≤ data.length) :
    f.retrieveData data numWords = some ((data.take numWords).flatMap f.writeWord) := by
  rw [retrieveData, if_neg (by omega), ← map_getData h, List.flatMap_map]

end WordFormat
end V2IHub.Rtcm
