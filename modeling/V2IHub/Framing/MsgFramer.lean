import V2IHub.Foundation.Bytes

/-! The message framer of the plugin API: a byte buffer that is filled at its end by
`recv` and emptied frame by frame at its start, with all moves done in place. -/
namespace V2IHub.Framing
open Foundation

def MSG_FRAMER_MAX_BUF_SIZE : ℕ := 20000

def STX : UInt8 := 0x02
def ETX : UInt8 := 0x03

/-- `cap` is `MSG_FRAMER_MAX_BUF_SIZE`; one more byte is kept for the terminator. -/
structure MsgFramer (cap : ℕ) where
  buf : Vector UInt8 (cap + 1)
  bufpos : ℕ
  readpos : ℕ

namespace MsgFramer
variable {cap : ℕ}

/-- The bytes of `buf` are not named in the initializer of the source and start as zero. -/
def initializer : MsgFramer cap where
  buf := Vector.replicate (cap + 1) 0
  bufpos := 0
  readpos := 0

end MsgFramer

def MSG_FRAMER_INITIALIZER : MsgFramer MSG_FRAMER_MAX_BUF_SIZE := MsgFramer.initializer

namespace MsgFramer
variable {cap : ℕ}

/-- The index in `buf` that `msgFramer_getBuf` points to. -/
def getBuf (f : MsgFramer cap) : ℕ := f.bufpos

def getBufLength (f : MsgFramer cap) : ℕ := cap - f.bufpos

def incrementBufPos (f : MsgFramer cap) (incLength : ℕ) : MsgFramer cap :=
  let bufpos := f.bufpos + incLength
  if cap < bufpos then { f with bufpos := 0, readpos := 0 }
  else { f with bufpos, buf := f.buf.setIfInBounds bufpos 0 }

/-- The in-place move of both compactions of `getNextMsg`. -/
def compact (f : MsgFramer cap) (shift : ℕ) : MsgFramer cap :=
  { f with
    buf := Memory.shiftDown shift (f.bufpos + 1 - shift) f.buf
    bufpos := f.bufpos - shift }

/-- The closing test of `getNextMsg`: a full buffer without a message is dropped. -/
def finish (f : MsgFramer cap) (results : Option Bytes) : MsgFramer cap × Option Bytes :=
  if f.bufpos = cap ∧ results = none then ({ f with bufpos := 0, readpos := 0 }, results)
  else (f, results)

/-- The returned pointer is read as a C string before the framer is used again. -/
def getNextMsg (f : MsgFramer cap) : MsgFramer cap × Option Bytes :=
  let f := if f.readpos ≠ 0 then { f.compact f.readpos with readpos := 0 } else f
  match strstrByte STX f.buf.toList with
  | none => finish { f with bufpos := 0 } none
  | some msgStart =>
    let f := if msgStart ≠ 0 then f.compact msgStart else f
    match strstrByte ETX f.buf.toList with
    | none => finish f none
    | some msgEnd =>
      let buf := f.buf.setIfInBounds msgEnd 0
      finish { f with buf, readpos := msgEnd + 1 } (some (cstringAt (buf.toList.drop 1)))

/-- `recv` into `msgFramer_getBuf`, followed by `msgFramer_incrementBufPos`. -/
def receive (f : MsgFramer cap) (chunk : Bytes) : MsgFramer cap :=
  incrementBufPos { f with buf := Memory.store f.buf f.getBuf chunk } chunk.length

end MsgFramer

/-- The bytes `msgFramer_createFramedMsg` returns; its length is the out-parameter. -/
def createFramedMsg (msg : Bytes) : Bytes := STX :: msg ++ [ETX]

/-- The two assertions of `msgFramer_createFramedMsg` on a C string. -/
def Frameable (msg : Bytes) : Prop := 0 ∉ msg ∧ STX ∉ msg ∧ ETX ∉ msg

namespace MsgFramer
variable {cap : ℕ}

@[simp] theorem finish_some (f : MsgFramer cap) (msg : Bytes) :
    f.finish (some msg) = (f, some msg) := by simp [finish]

theorem finish_full {f : MsgFramer cap} (h : f.bufpos = cap) :
    f.finish none = ({ f with bufpos := 0, readpos := 0 }, none) := if_pos ⟨h, rfl⟩

theorem finish_room {f : MsgFramer cap} (h : f.bufpos ≠ cap) : f.finish none = (f, none) :=
  if_neg fun hc => h hc.1

/-- The framer has handed out everything before `data` and holds `data`, terminated. -/
structure Holds (f : MsgFramer cap) (data : Bytes) : Prop where
  layout : ∃ pre junk, f.buf.toList = pre ++ data ++ 0 :: junk ∧ f.readpos = pre.length
  bufpos_eq : f.bufpos = f.readpos + data.length

theorem Holds.bufpos_le {f : MsgFramer cap} {data : Bytes} (h : f.Holds data) :
    f.bufpos ≤ cap := by
  obtain ⟨⟨pre, junk, hb, hr⟩, hp⟩ := h
  have hl := congrArg List.length hb
  simp only [Vector.length_toList, List.length_append, List.length_cons] at hl
  omega

/-- Compaction by the bytes already handed out, or by leading bytes that are no frame. -/
theorem compact_layout {f : MsgFramer cap} {pre data junk : Bytes}
    (hb : f.buf.toList = pre ++ data ++ 0 :: junk) (hp : f.bufpos = pre.length + data.length) :
    (∃ junk', (f.compact pre.length).buf.toList = data ++ 0 :: junk') ∧
      (f.compact pre.length).bufpos = data.length := by
  refine ⟨?_, by simp [compact, hp]⟩
  have hcount : f.bufpos + 1 - pre.length = data.length + 1 := by omega
  simpa [compact, hcount] using Memory.shiftDown_toList hb

/-- The first step of `getNextMsg` leaves the unread bytes at the start of the buffer. -/
theorem readpos_compaction {f : MsgFramer cap} {data : Bytes} (h : f.Holds data) :
    ∃ g junk, (if f.readpos ≠ 0 then { f.compact f.readpos with readpos := 0 } else f) = g ∧
      g.buf.toList = data ++ 0 :: junk ∧ g.bufpos = data.length ∧ g.readpos = 0 := by
  obtain ⟨⟨pre, junk, hb, hr⟩, hp⟩ := h
  split
  · obtain ⟨⟨junk', hj⟩, hc⟩ := compact_layout hb (by omega)
    exact ⟨_, junk', rfl, by simpa [hr] using hj, by simpa [hr] using hc, rfl⟩
  · next h0 =>
    have hpre : pre = [] := List.length_eq_zero_iff.mp (by omega)
    subst hpre
    exact ⟨f, junk, rfl, by simpa using hb, by omega, by omega⟩

/-- The second step: bytes before the start marker are dropped. -/
theorem msgStart_compaction {g : MsgFramer cap} {garbage data junk : Bytes}
    (hb : g.buf.toList = garbage ++ data ++ 0 :: junk)
    (hp : g.bufpos = garbage.length + data.length) (hr : g.readpos = 0) :
    ∃ k junk', (if garbage.length ≠ 0 then g.compact garbage.length else g) = k ∧
      k.buf.toList = data ++ 0 :: junk' ∧ k.bufpos = data.length ∧ k.readpos = 0 := by
  split
  · obtain ⟨⟨junk', hj⟩, hc⟩ := compact_layout hb hp
    exact ⟨_, junk', rfl, hj, hc, by simpa [compact] using hr⟩
  · next h0 =>
    have hg : garbage = [] := List.length_eq_zero_iff.mp (by omega)
    subst hg
    exact ⟨g, junk, rfl, by simpa using hb, by simpa using hp, hr⟩

/-- No start marker: everything held is dropped. -/
theorem getNextMsg_noStart {f : MsgFramer cap} {data : Bytes} (h : f.Holds data)
    (hz : 0 ∉ data) (hs : STX ∉ data) :
    ∃ f', f.getNextMsg = (f', none) ∧ f'.bufpos = 0 ∧ f'.readpos = 0 := by
  obtain ⟨g, junk, hg, hb, -, hr⟩ := readpos_compaction h
  simp only [getNextMsg, hg, hb, strstrByte_absent hs hz]
  by_cases hc : 0 = cap
  · exact ⟨_, finish_full hc, rfl, rfl⟩
  · exact ⟨_, finish_room hc, rfl, hr⟩

/-- A start marker without an end marker: the pending frame is kept unless it fills the buffer. -/
theorem getNextMsg_noEnd {f : MsgFramer cap} {garbage frame : Bytes}
    (h : f.Holds (garbage ++ STX :: frame)) (hz : 0 ∉ garbage ++ STX :: frame)
    (hs : STX ∉ garbage) (he : ETX ∉ frame) :
    ∃ f', f.getNextMsg = (f', none) ∧ f'.readpos = 0 ∧
      if frame.length + 1 = cap then f'.bufpos = 0
      else f'.bufpos = frame.length + 1 ∧ ∃ junk, f'.buf.toList = STX :: frame ++ junk := by
  obtain ⟨g, junk, hg, hb, hp, hr⟩ := readpos_compaction h
  have hstart : strstrByte STX g.buf.toList = some garbage.length := by
    rw [hb, List.append_assoc, List.cons_append]
    exact strstrByte_first (by decide) hs (fun hm => hz (by simp [hm]))
  obtain ⟨k, junk', hk, hkb, hkp, hkr⟩ := msgStart_compaction hb (by simpa using hp) hr
  have hend : strstrByte ETX k.buf.toList = none := by
    rw [hkb]
    refine strstrByte_absent ?_ (fun hm => hz (by simp_all))
    simpa using ⟨by decide, he⟩
  simp only [getNextMsg, hg, hstart, hk, hend]
  simp only [List.length_cons] at hkp
  by_cases hc : frame.length + 1 = cap
  · exact ⟨_, finish_full (hkp.trans hc), rfl, by simp [hc]⟩
  · refine ⟨k, finish_room (hkp ▸ hc), hkr, ?_⟩
    rw [if_neg hc]
    exact ⟨hkp, _, hkb⟩

/-- A complete frame: its text is returned and what follows it stays unread. -/
theorem getNextMsg_frame {f : MsgFramer cap} {garbage frame rest : Bytes}
    (h : f.Holds (garbage ++ STX :: frame ++ ETX :: rest))
    (hz : 0 ∉ garbage ++ STX :: frame ++ ETX :: rest) (hs : STX ∉ garbage) (he : ETX ∉ frame) :
    ∃ f', f.getNextMsg = (f', some frame) ∧ f'.Holds rest := by
  obtain ⟨g, junk, hg, hb, hp, hr⟩ := readpos_compaction h
  have hstart : strstrByte STX g.buf.toList = some garbage.length := by
    rw [hb]
    simp only [List.append_assoc, List.cons_append]
    exact strstrByte_first (by decide) hs (fun hm => hz (by simp [hm]))
  have hb' : g.buf.toList = garbage ++ (STX :: frame ++ ETX :: rest) ++ 0 :: junk := by
    simpa using hb
  obtain ⟨k, junk', hk, hkb, hkp, hkr⟩ :=
    msgStart_compaction hb' (by simpa [Nat.add_assoc] using hp) hr
  have hend : strstrByte ETX k.buf.toList = some (frame.length + 1) := by
    have hlist : k.buf.toList = (STX :: frame) ++ ETX :: (rest ++ 0 :: junk') := by simpa using hkb
    rw [hlist]
    refine strstrByte_first (by decide) ?_ (fun hm => hz (by simp_all))
    simpa using ⟨by decide, he⟩
  have hcut : (k.buf.setIfInBounds (frame.length + 1) 0).toList =
      STX :: frame ++ 0 :: (rest ++ 0 :: junk') := by
    have hlist : k.buf.toList = (STX :: frame) ++ ETX :: (rest ++ 0 :: junk') := by simpa using hkb
    rw [Vector.toList_setIfInBounds, hlist, List.set_append_right _ _ (by simp)]
    simp
  have hmsg : cstringAt ((k.buf.setIfInBounds (frame.length + 1) 0).toList.drop 1) = frame := by
    rw [hcut]
    simpa using cstringAt_eq (fun hm => hz (by simp [hm])) (rest ++ 0 :: junk')
  simp only [getNextMsg, hg, hstart, hk, hend, hmsg, finish_some]
  refine ⟨_, rfl, ⟨STX :: frame ++ [0], junk', by simpa using hcut, by simp⟩, ?_⟩
  simp only [List.length_append, List.length_cons] at hkp
  simp only [hkp]
  omega

/-- Storing a chunk behind the pending bytes and terminating the whole. -/
theorem receive_holds {f : MsgFramer cap} {pending chunk junk : Bytes}
    (hb : f.buf.toList = pending ++ junk) (hp : f.bufpos = pending.length) (hr : f.readpos = 0)
    (hl : chunk.length ≤ f.getBufLength) (hc : f.bufpos ≤ cap) :
    (f.receive chunk).Holds (pending ++ chunk) := by
  have hlen := congrArg List.length hb
  simp only [Vector.length_toList, List.length_append] at hlen
  unfold getBufLength at hl
  have hstore : (Memory.store f.buf f.getBuf chunk).toList =
      pending ++ chunk ++ junk.drop chunk.length := by
    rw [getBuf, hp]
    exact Memory.store_toList chunk hb (by omega)
  obtain ⟨b, back, hback⟩ : ∃ b back, junk.drop chunk.length = b :: back := by
    cases hd : junk.drop chunk.length with
    | nil =>
      have := List.drop_eq_nil_iff.mp hd
      omega
    | cons b back => exact ⟨b, back, rfl⟩
  have hfit : ¬ cap < f.bufpos + chunk.length := by omega
  have hpos : f.bufpos + chunk.length = (pending ++ chunk).length := by simp [hp]
  simp only [receive, incrementBufPos, if_neg hfit]
  refine ⟨⟨[], back, ?_, hr⟩, by simp [hr, hp]⟩
  rw [Vector.toList_setIfInBounds, hstore, hpos, List.set_append_right _ _ (le_refl _), hback]
  simp

end MsgFramer
end V2IHub.Framing
