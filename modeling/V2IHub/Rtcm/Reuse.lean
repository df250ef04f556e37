import V2IHub.Rtcm.FirstFrame
import V2IHub.Rtcm.Retention

/-! Messages that are filled more than once. -/
namespace V2IHub.Rtcm
open Foundation

namespace Rtcm2Message
variable {m : Rtcm2Message}

/-- What is seen of a message. -/
def outcome (m : Rtcm2Message) : Bool × Rtcm2Header × List ℕ × Bytes :=
  (m.isValid, m.header, m.data, m.getContents)

/-- What is seen after `a` and `b` is what is seen of a new object after `b`. -/
def Reusable (m : Rtcm2Message) (a b : Bytes) : Prop :=
  ((m.setContents a).setContents b).outcome = (new.setContents b).outcome

/-- The object takes the frame as a new one does. -/
structure Takes (m : Rtcm2Message) (F : Frame2) : Prop where
  valid : m.valid = true
  data : m.data = []
  primer : m.primerWord = 0 ∨ m.primerWord = F.primer

section Frames
variable {F : Frame2}

theorem outcome_decoded (F : Frame2) (left : Bytes) (version : ℕ) :
    (F.decoded left version).outcome = (true, F.header, F.data, F.bytes) := by
  rw [outcome, F.isValid_decoded, F.getContents_decoded]
  rfl

/-- The outcome of a message that has decoded nothing yet. -/
theorem outcome_fresh (hfresh : Frame2.Fresh m) :
    (m.setContents F.bytes).outcome = (true, F.header, F.data, F.bytes) := by
  rw [F.setContents_bytes hfresh, outcome_decoded]

/-- A message that knows a word before the frame does not look for another one. -/
theorem readHeader_primed (rest : Bytes) (hdata : m.data = []) (hne : m.primerWord ≠ 0)
    (hbytes : m.bytes = F.bytes ++ rest) :
    m.readHeader = .ok { m with
      header := .ofWords (trial F.wire1 m.primerWord) F.word2
      data := []
      storage_version := m.storage_version + 9 } := by
  have hload : rtcm2Format.loadData m.data m.bytes 2 = [F.wire1, F.wire2] := by
    rw [hdata, hbytes]
    exact F.loadData_header rest
  have hfirst : primeFirst { m with data := [F.wire1, F.wire2] } =
      { m with data := [trial F.wire1 m.primerWord, F.wire2] } := by
    rw [primeFirst, if_pos hne, trial]
    dsimp only
    split_ifs <;> rfl
  have hbit : (trial F.wire1 m.primerWord).testBit 0 = F.word1.testBit 0 := by
    rw [trial, testBit_zero_ite, F.wire1_testBit]
  have hword := F.complement_wire2
  have hsecond : primeSecond { m with data := [trial F.wire1 m.primerWord, F.wire2] } =
      { m with data := [trial F.wire1 m.primerWord, F.word2] } := by
    rw [primeSecond]
    simp only [WordFormat.getData, List.getD_cons_zero, List.getD_cons_succ, hbit]
    split_ifs with h
    · rw [if_pos h, complement] at hword
      rw [hword]
      rfl
    · rw [if_neg h] at hword
      rw [hword]
  have hlt : ∀ word ∈ [trial F.wire1 m.primerWord, F.word2], word < 2 ^ rtcm2Format.wordBits :=
    List.forall_mem_cons.mpr ⟨trial_lt F.wire1_lt _, List.forall_mem_singleton.mpr F.word2_lt⟩
  have hassign : rtcm2Format.assignData [trial F.wire1 m.primerWord, F.word2] Rtcm2Header.sizes =
      some (unpackFields Rtcm2Header.sizes
        (packWords 30 [trial F.wire1 m.primerWord, F.word2]), []) :=
    WordFormat.assignData_eq hlt rfl (by decide) (by decide)
  simp only [readHeader, hload, hfirst, hsecond, hassign]
  rfl

/-- The message with the header that is read so. -/
def primed (m : Rtcm2Message) (F : Frame2) : Rtcm2Message :=
  { m with
    header := .ofWords (trial F.wire1 m.primerWord) F.word2
    data := []
    bytes := F.bytes
    storage_version := m.storage_version + 9 }

/-- The message goes on with the header words. -/
structure PrimedWords (m : Rtcm2Message) (F : Frame2) (m' : Rtcm2Message) : Prop where
  header : m'.header = .ofWords (trial F.wire1 m.primerWord) F.word2
  data : m'.data = []
  bytes : m'.bytes = F.bytes
  valid : m'.valid = m.valid
  words : m'.rtcm2Hdr = [trial F.wire1 m.primerWord, F.word2]
  version : m'.headerVersion = m'.storage_version
  primer : m'.primerWord = m.primerWord

section Primed
variable (m : Rtcm2Message) (F : Frame2)

theorem primed_header : (m.primed F).header = .ofWords (trial F.wire1 m.primerWord) F.word2 := by
  rw [primed]

theorem primed_valid : (m.primed F).valid = m.valid := by rw [primed]

theorem primed_primer : (m.primed F).primerWord = m.primerWord := by rw [primed]

end Primed

theorem primed_refresh (hkept : m.Kept) : PrimedWords m F (m.primed F).refresh := by
  have hversion := hkept.version
  have hne : (m.primed F).headerVersion ≠ (m.primed F).storage_version := by
    rw [primed]
    dsimp only
    omega
  rw [refresh_eq (trial_lt F.wire1_lt _) F.word2_lt (primed_header m F) hne]
  exact ⟨primed_header m F, rfl, rfl, primed_valid m F, rfl, rfl, primed_primer m F⟩

theorem scan_primed (hdata : m.data = []) (hne : m.primerWord ≠ 0) :
    ∃ byte rest m₂, F.bytes = byte :: rest ∧ m.scan F.bytes =
      if (m.primed F).isValid then (m.primed F).refresh.loadMessage else scan m₂ rest := by
  obtain ⟨byte, rest, hcons, hstarts⟩ := F.startsFrame_head []
  rw [List.append_nil] at hcons
  have hread := readHeader_primed (m := { m with bytes := F.bytes }) (F := F) [] hdata hne
    (List.append_nil _).symm
  have hlen : ¬ (byte :: rest).length < 2 * rtcm2Format.wordSize := by
    rw [← hcons, F.bytes_length]
    simp only [WordFormat.wordSize, rtcm2Format]
    omega
  refine ⟨byte, rest, { (m.primed F).refresh with primerWord := 0 }, hcons, ?_⟩
  rw [hcons] at hread ⊢
  rw [scan, hstarts]
  simp only [Bool.not_true, Bool.false_eq_true, if_false, if_neg hlen, hread]
  rw [← hcons]
  rfl

theorem loadMessage_decoded (hdata : m.data = []) (hheader : m.header = F.header)
    (hbytes : m.bytes = F.bytes) (hvalid : m.valid = true) (hwords : m.rtcm2Hdr = [F.word1, F.word2])
    (hversion : m.headerVersion = m.storage_version) (hprimer : m.primerWord = F.primer) :
    ∃ left, m.loadMessage = F.decoded left m.storage_version := by
  rw [F.loadMessage_eq [] hdata hheader (hbytes.trans (List.append_nil _).symm)]
  refine ⟨(chain F.wire2 F.data).flatMap rtcm2Format.writeWord ++ [], ?_⟩
  simp only [Frame2.decoded, hheader, hvalid, hwords, hversion, hprimer]

/-- What a message decodes from a frame, if the word before it that it knows is the right one. -/
theorem setContents_primed (hkept : m.Kept) (hvalid : m.valid = true) (hdata : m.data = [])
    (hne : m.primerWord ≠ 0) (hprimer : m.primerWord = F.primer) :
    ∃ left version, m.setContents F.bytes = F.decoded left version := by
  obtain ⟨byte, rest, m₂, -, hscan⟩ := scan_primed (F := F) hdata hne
  have hword : trial F.wire1 m.primerWord = F.word1 := by rw [hprimer, F.trial_wire1]
  have hread := primed_refresh (F := F) hkept
  obtain ⟨hheader, hnone, hbytes, hflag, hwords, hversion, hknown⟩ := hread
  rw [hword] at hheader hwords
  have htake : (m.primed F).isValid = true := by
    refine F.isValid_of_header ((primed_valid m F).trans hvalid) ?_
      ((primed_primer m F).trans hprimer) hwords
    rw [primed_header, hword]
    rfl
  obtain ⟨left, hload⟩ := loadMessage_decoded hnone hheader hbytes (hflag.trans hvalid) hwords
    hversion (hknown.trans hprimer)
  rw [setContents, hscan, if_pos htake]
  exact ⟨left, _, hload⟩

/-- A message that knows a wrong word before the frame does not accept the frame. -/
theorem setContents_misprimed (hkept : m.Kept) (hdata : m.data = []) (hne : m.primerWord ≠ 0)
    (hprimer : m.primerWord ≠ F.primer) (hvalid : (m.setContents F.bytes).valid = true) :
    (m.setContents F.bytes).size < F.bytes.length := by
  obtain ⟨byte, rest, m₂, hcons, hscan⟩ := scan_primed (F := F) hdata hne
  have hread := primed_refresh (F := F) hkept
  have hreject : ¬ (m.primed F).isValid = true := by
    intro htake
    have hflag : (m.primed F).valid = true := by
      simp only [isValid, Bool.and_eq_true] at htake
      exact htake.1.1.1.1
    rw [isValid_iff (trial_lt F.wire1_lt _) F.word2_lt hflag (primed_header m F) hread.words,
      primed_primer] at htake
    exact hprimer (F.primer_unique hkept.primer
      ((checkParity_iff (trial_lt F.wire1_lt _) _).mpr htake.2.1))
  rw [if_neg hreject] at hscan
  rw [setContents, hscan] at hvalid ⊢
  have hsize := (scan_loaded hvalid).size
  rw [hcons]
  exact Nat.lt_succ_of_le hsize

theorem outcome_taken (hkept : m.Kept) (h : m.Takes F) :
    (m.setContents F.bytes).outcome = (true, F.header, F.data, F.bytes) := by
  by_cases hzero : m.primerWord = 0
  · exact outcome_fresh ⟨h.data, hzero, h.valid, hkept.version⟩
  · obtain ⟨left, version, hset⟩ :=
      setContents_primed hkept h.valid h.data hzero (h.primer.resolve_left hzero)
    rw [hset, outcome_decoded]

theorem takes_of_outcome (hkept : m.Kept)
    (h : (m.setContents F.bytes).outcome = (true, F.header, F.data, F.bytes)) : m.Takes F := by
  simp only [outcome, Prod.mk.injEq] at h
  obtain ⟨hvalid, hheader, hdata, -⟩ := h
  have hflag : (m.setContents F.bytes).valid = true := by
    simp only [isValid, Bool.and_eq_true] at hvalid
    exact hvalid.1.1.1.1
  have hloaded := scan_loaded hflag
  have hcount : (m.setContents F.bytes).header.numberDataWords = F.data.length := by
    rw [hheader, F.header_fields.1]
  have hnone : m.data = [] := by
    have hlen := hloaded.data
    rw [← setContents, hcount, hdata] at hlen
    exact List.length_eq_zero_iff.mp (by omega)
  refine ⟨hloaded.valid, hnone, ?_⟩
  by_contra hprimer
  rw [not_or] at hprimer
  have hsize := setContents_misprimed hkept hnone hprimer.1 hprimer.2 hflag
  rw [size, hcount, F.bytes_length] at hsize
  simp only [WordFormat.wordSize, rtcm2Format] at hsize
  omega

/-- When an object can be filled with a frame as if it were new. -/
theorem reusable_iff_takes (hkept : m.Kept) (a : Bytes) (F : Frame2) :
    m.Reusable a F.bytes ↔ (m.setContents a).Takes F := by
  have hnew : Frame2.Fresh new := ⟨rfl, rfl, rfl, le_rfl⟩
  have hset : (m.setContents a).Kept := scan_kept hkept
  rw [Reusable, outcome_fresh hnew]
  exact ⟨takes_of_outcome hset, outcome_taken hset⟩

end Frames

/-- A frame without data words. -/
def wordlessFrame : Frame2 where
  D29 := false
  D30 := false
  word1 := addParity (preambleValue * 2 ^ 22) 0
  word2 := addParity 0 (addParity (preambleValue * 2 ^ 22) 0)
  data := []
  word1_lt := by decide +kernel
  word2_lt := by decide +kernel
  data_lt := fun _ h => absurd h List.not_mem_nil
  preamble_eq := by decide +kernel
  parity1 := by decide +kernel
  parity2 := by decide +kernel
  length_eq := by decide +kernel

/-- The first byte that is sent. -/
theorem getContents_head (m : Rtcm2Message) : m.getContents.head? = some (rtcm2Format.wireByte
    ((if m.primerWord.testBit 0 then complement m.getHeader1 else m.getHeader1) >>> 24 % 64)) := by
  rw [getContents]
  rfl

/-- Without input, a message keeps its words. -/
theorem getContents_nil (m : Rtcm2Message) : (m.setContents []).getContents = m.getContents := by
  rw [setContents, scan]
  by_cases hversion : m.headerVersion = m.storage_version <;>
    simp [getContents, getHeader1, getHeader2, refresh, invalidate, hversion]

/-- A valid object keeps its header words, which a new one has not. -/
theorem not_reusable_of_valid {a : Bytes} (hvalid : (m.setContents a).valid = true) :
    ¬ m.Reusable a [] := by
  intro h
  have hpreamble := (scan_loaded hvalid).preamble
  rw [← setContents] at hpreamble
  rw [Reusable] at h
  generalize m.setContents a = m₁ at h hpreamble
  have htop : m₁.getHeader1 >>> 24 = 25 := by
    rw [Nat.shiftRight_eq_div_pow] at hpreamble ⊢
    simp only [preambleValue] at hpreamble
    omega
  have hcontents : m₁.getContents.head? = new.getContents.head? := by
    simp only [outcome, Prod.mk.injEq] at h
    rw [← getContents_nil m₁, ← getContents_nil new, h.2.2.2]
  have hnew : new.getContents.head? = some (rtcm2Format.wireByte 0) := by decide +kernel
  rw [getContents_head, hnew, Option.some.injEq] at hcontents
  split_ifs at hcontents
  · rw [complement_shiftRight, htop] at hcontents
    revert hcontents
    decide +kernel
  · rw [htop] at hcontents
    revert hcontents
    decide +kernel

/-- No object is like a new one after any call. -/
theorem exists_not_reusable (hkept : m.Kept) (a : Bytes) : ∃ b, ¬ m.Reusable a b := by
  cases hvalid : (m.setContents a).valid with
  | false =>
    refine ⟨wordlessFrame.bytes, fun h => ?_⟩
    rw [reusable_iff_takes hkept] at h
    exact Bool.false_ne_true (hvalid.symm.trans h.valid)
  | true => exact ⟨[], not_reusable_of_valid hvalid⟩

end Rtcm2Message

namespace Rtcm3Message
variable {m m' : Rtcm3Message}

/-- What is seen of a message. -/
def outcome (m : Rtcm3Message) : Bool × List ℕ × List ℕ × Option Bytes :=
  (m.isValid, [m.preamble, m.reserved, m.messageLength, m.messageNumber, m.referenceStationID,
    m.crc], m.data, m.getContents)

/-- The call returns and leaves the outcome. -/
def Gives (m : Rtcm3Message) (b : Bytes) (seen : Bool × List ℕ × List ℕ × Option Bytes) : Prop :=
  ∃ fuel m', setContents fuel m b = some m' ∧ m'.outcome = seen

/-- The object takes the bytes as a new one does: both calls return with one outcome, or none
returns. -/
def LikeNew (m : Rtcm3Message) (b : Bytes) : Prop := ∀ seen, m.Gives b seen ↔ new.Gives b seen

theorem gives_iff {fuel : ℕ} {b : Bytes} {seen : Bool × List ℕ × List ℕ × Option Bytes}
    (hset : setContents fuel m b = some m') : m.Gives b seen ↔ m'.outcome = seen := by
  constructor
  · rintro ⟨fuel', m'', hset', hseen⟩
    rw [← hseen, scan_unique hset hset']
  · exact fun hseen => ⟨fuel, m', hset, hseen⟩

section Alike
variable {m₀ : Rtcm3Message}

/-- What a message held before is not seen in one that is loaded without words left over. -/
theorem loadMessage_alike (bytes : Bytes) (hdata : m.data = []) (hdata₀ : m₀.data = [])
    (hflag : m.valid = m₀.valid) (hvalid : (m₀.tried bytes).loadMessage.valid = true) :
    (m.tried bytes).loadMessage = (m₀.tried bytes).loadMessage := by
  rw [loadMessage] at hvalid ⊢
  rw [loadMessage]
  simp only [tried, headed, hdata, hdata₀] at hvalid ⊢
  generalize rtcm3Format.assignData _ _ = assigned at hvalid ⊢
  split at hvalid
  · simp only [hflag]
  · cases hvalid

/-- Two messages without words left over decode the same from the same bytes. -/
theorem scan_alike {fuel : ℕ} (hdata : m.data = []) (hdata₀ : m₀.data = [])
    (hflag : m.valid = m₀.valid) (hbytes : m.bytes = m₀.bytes) (hscan : scan fuel m₀ = some m')
    (hvalid : m'.valid = true) : scan fuel m = some m' := by
  induction fuel generalizing m m₀ with
  | zero => cases hscan
  | succ fuel ih =>
    rw [scan_succ fuel hdata₀] at hscan
    rw [scan_succ fuel hdata, hbytes]
    split_ifs at hscan ⊢ with hshort hfew hintact
    · rw [Option.some.injEq] at hscan
      rw [← hscan] at hvalid
      cases hvalid
    · rw [Option.some.injEq] at hscan
      rw [← hscan] at hvalid
      cases hvalid
    · rw [Option.some.injEq] at hscan
      rw [← hscan] at hvalid ⊢
      rw [loadMessage_alike _ hdata hdata₀ hflag hvalid]
    · have hnext : Rtcm3Message.data { m.tried (candidate m₀.bytes) with
          bytes := retry (candidate m₀.bytes) } = [] := hdata
      have hnext₀ : Rtcm3Message.data { m₀.tried (candidate m₀.bytes) with
          bytes := retry (candidate m₀.bytes) } = [] := hdata₀
      exact ih hnext hnext₀ hflag rfl hscan

end Alike

/-- When an object can be filled with a frame as if it were new. -/
theorem likeNew_iff {fuel : ℕ} {b : Bytes} (hset : setContents fuel new b = some m')
    (haccept : m'.isValid = true) : m.LikeNew b ↔ m.valid = true ∧ m.data = [] := by
  have hvalid : m'.valid = true := by
    rw [isValid, Bool.and_eq_true] at haccept
    exact haccept.1
  constructor
  · intro h
    obtain ⟨fuel', m'', hset', hseen⟩ := (h _).mpr ⟨fuel, m', hset, rfl⟩
    simp only [outcome, Prod.mk.injEq, List.cons.injEq, haccept] at hseen
    obtain ⟨haccept', ⟨-, -, hlength, -⟩, hdata, -⟩ := hseen
    rw [isValid, Bool.and_eq_true] at haccept'
    have hfilled := scan_filled hset' haccept'.1
    have hsame : m''.data.length + 3 = m.data.length + m''.messageLength := hfilled.data
    have hnew : m'.data.length + 3 = 0 + m'.messageLength := (scan_filled hset hvalid).data
    rw [hdata, hlength] at hsame
    exact ⟨hfilled.valid, List.length_eq_zero_iff.mp (by omega)⟩
  · rintro ⟨hflag, hdata⟩ seen
    have hnone : Rtcm3Message.data { new with bytes := b } = [] := rfl
    have hsame : setContents fuel m b = some m' := scan_alike hdata hnone hflag rfl hset hvalid
    rw [gives_iff hsame, gives_iff hset]

theorem setContents_nil (m : Rtcm3Message) :
    setContents 1 m [] = some (invalidate { m with bytes := [] }) := rfl

/-- A valid object keeps the length of its message or the check sum. -/
theorem not_likeNew_of_filled {m₀ : Rtcm3Message} (h : Filled m₀ m) : ¬ m.LikeNew [] := by
  intro hlike
  have hseen := (gives_iff (setContents_nil m)).mp ((hlike _).mpr ⟨1, _, setContents_nil new, rfl⟩)
  simp only [outcome, Prod.mk.injEq, List.cons.injEq] at hseen
  obtain ⟨-, ⟨-, -, hlength, -, -, hcrc, -⟩, -⟩ := hseen
  exact h.crc hlength hcrc

/-- No object is like a new one after any call that returns. -/
theorem exists_not_likeNew {fuel : ℕ} {m₀ : Rtcm3Message} {a : Bytes}
    (hset : setContents fuel m₀ a = some m) : ∃ b, ¬ m.LikeNew b := by
  cases hvalid : m.valid with
  | false =>
    refine ⟨shortFrame.bytes, fun h => ?_⟩
    rw [likeNew_iff (shortFrame.setContents_bytes 0) (shortFrame.isValid_decoded _)] at h
    exact Bool.false_ne_true (hvalid.symm.trans h.1)
  | true => exact ⟨[], not_likeNew_of_filled (scan_filled hset hvalid)⟩

end Rtcm3Message

/-- No object is as good as new after a call, whatever it held and whatever it was given. What a
new object accepts is decoded as by a new one exactly if the flag is set and no words are left; in
version 2, for a frame, the word before it that the object knows must be right. -/
theorem setContents_reuse (message : Rtcm2Message) (m m₁ : Rtcm3Message) (a : Bytes) (fuel : ℕ) :
    (message.Kept → (∃ b, ¬ message.Reusable a b) ∧
      ∀ F : Frame2, message.Reusable a F.bytes ↔ (message.setContents a).Takes F) ∧
    (m.setContents fuel a = some m₁ → (∃ b, ¬ m₁.LikeNew b) ∧
      ∀ b, (∃ fuel m₂, Rtcm3Message.setContents fuel .new b = some m₂ ∧ m₂.isValid = true) →
        (m₁.LikeNew b ↔ m₁.valid = true ∧ m₁.data = [])) := by
  refine ⟨fun hkept => ?_, fun hset => ?_⟩
  · exact ⟨Rtcm2Message.exists_not_reusable hkept a, Rtcm2Message.reusable_iff_takes hkept a⟩
  · refine ⟨Rtcm3Message.exists_not_likeNew hset, ?_⟩
    rintro b ⟨fuel₂, m₂, hnew, haccept⟩
    exact Rtcm3Message.likeNew_iff hnew haccept

/-- Frames without data words may follow each other. -/
theorem setContents_reuse_dataless :
    Rtcm2Message.new.Reusable Rtcm2Message.wordlessFrame.bytes Rtcm2Message.wordlessFrame.bytes ∧
      ∃ m₁, Rtcm3Message.setContents 1 .new Rtcm3Message.shortFrame.bytes = some m₁ ∧
        m₁.LikeNew Rtcm3Message.shortFrame.bytes := by
  have hfresh : Frame2.Fresh Rtcm2Message.new := ⟨rfl, rfl, rfl, le_rfl⟩
  have hset := Rtcm3Message.shortFrame.setContents_bytes 0
  constructor
  · apply (((setContents_reuse .new .new .new _ 0).1 Rtcm2Message.new_kept).2 _).mpr
    rw [Frame2.setContents_bytes _ hfresh]
    exact ⟨rfl, rfl, .inr rfl⟩
  · refine ⟨_, hset, (((setContents_reuse .new .new _ _ 1).2 hset).2 _ ⟨1, _, hset, ?_⟩).mpr
      ⟨rfl, by decide⟩⟩
    exact Rtcm3Message.shortFrame.isValid_decoded _

/-- A new object that was given nothing accepts no frame any more. -/
theorem setContents_reuse_fails :
    ¬ ((∀ m : Rtcm2Message, m.Kept → ∀ a b, m.Reusable a b) ∧
      ∀ (m m₁ : Rtcm3Message) (a b : Bytes) (fuel : ℕ), m.setContents fuel a = some m₁ →
        m₁.LikeNew b) := by
  rintro ⟨-, hclaim⟩
  have hlike := hclaim .new _ [] Rtcm3Message.shortFrame.bytes 1 (Rtcm3Message.setContents_nil .new)
  rw [Rtcm3Message.likeNew_iff (Rtcm3Message.shortFrame.setContents_bytes 0)
    (Rtcm3Message.shortFrame.isValid_decoded _)] at hlike
  cases hlike.1

end V2IHub.Rtcm
