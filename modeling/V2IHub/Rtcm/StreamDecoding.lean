import V2IHub.Rtcm.EncodedMessage

/-! Streams of frames with garbage between them, and when the container of an encoded message
holds their frames. The loop goes on behind as many bytes as the frames have, so that it scans
bytes again if it has skipped any. -/
namespace V2IHub.Rtcm
open Foundation TmxRtcmMessage

section Decoder
variable (v : RtcmVersion) (fuel : ℕ) (input : Bytes)

/-- The decoder of the version finds the frame first. -/
def Finds (X : Frame v) : Prop :=
  ∃ m, (create v 0).setContents fuel input = .ok m ∧ m.isValid = true ∧
    m.getContents = .ok X.bytes

/-- The decoder of the version finds no frame. -/
def Rejects : Prop := ∃ m, (create v 0).setContents fuel input = .ok m ∧ m.isValid = false

end Decoder

/-- Frames of one version, with garbage before the first and behind each of them. -/
structure Stream (v : RtcmVersion) where
  before : Bytes
  items : List (Frame v × Bytes)
  before_clear : ∀ byte ∈ before, v.startsFrame byte = false
  items_clear : ∀ item ∈ items, ∀ byte ∈ item.2, v.startsFrame byte = false

namespace Stream
variable {v : RtcmVersion}

def itemBytes (items : List (Frame v × Bytes)) : Bytes :=
  items.flatMap fun item => item.1.bytes ++ item.2

def bytes (S : Stream v) : Bytes := S.before ++ itemBytes S.items

/-- The bytes of each frame. -/
def frames (S : Stream v) : List Bytes := S.items.map fun item => item.1.bytes

/-- The bytes that are scanned again behind a frame: the last ones before its end, as many as
were scanned again or skipped before it. -/
def rescanned (again gap : Bytes) (F : Frame v) : Bytes :=
  (again ++ gap ++ F.bytes).drop F.bytes.length

/-- Each time a next frame is found whose contents are those of the frame that comes, and none at
the end. -/
def FindsNext (fuel : ℕ) : Bytes → Bytes → List (Frame v × Bytes) → Prop
  | again, gap, [] => Rejects v fuel (again ++ gap)
  | again, gap, (F, gap') :: items =>
    (∃ X, Finds v fuel (again ++ gap ++ itemBytes ((F, gap') :: items)) X ∧
      X.contents = .ok F.bytes) ∧
    FindsNext fuel (rescanned again gap F) gap' items

/-- No byte that is scanned again may start a frame, and each frame is kept by its type. -/
def Clear : Bytes → Bytes → List (Frame v × Bytes) → Prop
  | again, _, [] => ∀ byte ∈ again, v.startsFrame byte = false
  | again, gap, (F, gap') :: items =>
    (∀ byte ∈ again, v.startsFrame byte = false) ∧ F.contents = .ok F.bytes ∧
    Clear (rescanned again gap F) gap' items

instance decidableClear :
    (again gap : Bytes) → (items : List (Frame v × Bytes)) → Decidable (Clear again gap items)
  | again, _, [] => inferInstanceAs (Decidable (∀ byte ∈ again, v.startsFrame byte = false))
  | again, gap, (F, gap') :: items =>
    have := decidableClear (rescanned again gap F) gap' items
    inferInstanceAs (Decidable ((∀ byte ∈ again, v.startsFrame byte = false) ∧
      F.contents = .ok F.bytes ∧ Clear (rescanned again gap F) gap' items))

/-- Where the version is not given, it is found at once. -/
def VersionFound {v : RtcmVersion} (fuel : ℕ) (S : Stream v) : Prop :=
  match v with
  | .SC10402_3 => Rejects .SC10403_3 fuel S.bytes
  | .SC10403_3 => S.items = [] → Rejects .SC10402_3 fuel S.bytes

def garbage (S : Stream v) : Bytes := S.before ++ S.items.flatMap Prod.snd

/-- What makes the container of an encoded message hold the frames of the stream: each is found
when it comes, and with a version that is not given the other decoder rejects the stream. -/
structure Yields (fuel : ℕ) (S : Stream v) (subtype : Bytes) : Prop where
  version : rtcmVersion subtype = none → S.VersionFound fuel
  next : FindsNext fuel [] S.before S.items

/-- A simple case: nothing that is scanned again, and no garbage if the version is not given,
has a byte that may start a frame. -/
structure Quiet (S : Stream v) (subtype : Bytes) : Prop where
  version : rtcmVersion subtype = none → ∀ w : RtcmVersion, ∀ byte ∈ S.garbage,
    w.startsFrame byte = false
  clear : Clear [] S.before S.items

end Stream

namespace TmxRtcmEncodedMessage
variable {v : RtcmVersion} {fuel steps : ℕ} {thisVer : Option RtcmVersion} {copy : Bytes}

/-- The contents of the messages that the loop finds. -/
def filled (fuel steps : ℕ) (thisVer : Option RtcmVersion) (copy : Bytes) :
    Except Failure (List Bytes) := do
  let result ← fill fuel steps thisVer copy
  result.2.mapM getContents

theorem contents_eq (fuel : ℕ) (subtype payload : Bytes) :
    contents fuel ⟨subtype, payload, []⟩ =
      filled fuel payload.length (rtcmVersion subtype) payload := by
  rw [contents, getContainer, filled]
  cases fill fuel payload.length (rtcmVersion subtype) payload <;> rfl

theorem filled_nil (fuel steps : ℕ) (thisVer : Option RtcmVersion) :
    filled fuel steps thisVer [] = .ok [] := by
  cases steps <;> rfl

theorem filled_failed {e : Failure} (hcopy : copy ≠ [])
    (hguess : guess fuel thisVer copy = .error e) :
    filled fuel (steps + 1) thisVer copy = .error e := by
  cases copy with
  | nil => contradiction
  | cons byte rest =>
    rw [filled, fill, hguess]
    rfl

theorem filled_rejected {m : TmxRtcmMessage} (hcopy : copy ≠ [])
    (hguess : guess fuel thisVer copy = .ok m) (hvalid : m.isValid = false) :
    filled fuel (steps + 1) thisVer copy = .ok [] := by
  cases copy with
  | nil => contradiction
  | cons byte rest =>
    rw [filled, fill, hguess]
    simp only [bind, Except.bind, hvalid]
    rfl

theorem drop_size (copy : Bytes) (size : ℕ) :
    copy.drop (if size ≤ copy.length then size else copy.length) = copy.drop size := by
  split_ifs with h
  · rfl
  · rw [List.drop_length, List.drop_of_length_le (by omega)]

/-- A pass that finds a frame, and the rest of the loop. -/
theorem filled_found {X : Frame v} {m : TmxRtcmMessage} {list : List Bytes} (hcopy : copy ≠ [])
    (hguess : guess (fuel + 1) thisVer copy = .ok m) (hm : X.DecodesTo m) :
    filled (fuel + 1) (steps + 1) thisVer copy = .ok list ↔
      ∃ bytes rest, list = bytes :: rest ∧ X.contents = .ok bytes ∧
        filled (fuel + 1) steps (some v) (copy.drop bytes.length) = .ok rest := by
  have hspec := Frame.reconstruct_spec fuel hm
  rw [Frame.ReconstructsTo] at hspec
  have hpass : filled (fuel + 1) (steps + 1) thisVer copy = (do
      let message ← m.reconstruct (fuel + 1)
      let result ← fill (fuel + 1) steps (some v) (copy.drop message.size)
      (message :: result.2).mapM getContents) := by
    cases copy with
    | nil => contradiction
    | cons byte rest =>
      rw [filled, fill, hguess]
      simp only [bind, Except.bind, hm.isValid, if_true, hm.getVersion, drop_size]
      cases m.reconstruct (fuel + 1) with
      | error e => rfl
      | ok message =>
        simp only
        cases fill (fuel + 1) steps (some v) ((byte :: rest).drop message.size) <;> rfl
  rw [hpass]
  cases hcontents : X.contents with
  | error e =>
    rw [hcontents] at hspec
    rw [hspec]
    constructor
    · intro h
      cases h
    · rintro ⟨bytes, rest, -, h, -⟩
      cases h
  | ok bytes =>
    rw [hcontents] at hspec
    obtain ⟨message, hmessage, hbytes, hsize⟩ := hspec
    have hlen : message.size = bytes.length := hsize.trans (Frame.contents_length hcontents).symm
    rw [hmessage]
    constructor
    · intro h
      obtain ⟨_, hok, hnext⟩ := bind_eq_ok.mp h
      cases hok
      obtain ⟨result, hfill, hmap⟩ := bind_eq_ok.mp hnext
      rw [List.mapM_cons, hbytes] at hmap
      obtain ⟨_, hok, hnext⟩ := bind_eq_ok.mp hmap
      cases hok
      obtain ⟨rest, hrest, hlist⟩ := bind_eq_ok.mp hnext
      cases hlist
      refine ⟨bytes, rest, rfl, rfl, ?_⟩
      rw [← hlen]
      exact bind_eq_ok.mpr ⟨result, hfill, hrest⟩
    · rintro ⟨bytes', rest, rfl, hbytes', hfilled⟩
      cases hbytes'
      rw [← hlen] at hfilled
      obtain ⟨result, hfill, hrest⟩ := bind_eq_ok.mp hfilled
      refine bind_eq_ok.mpr ⟨message, rfl, bind_eq_ok.mpr ⟨result, hfill, ?_⟩⟩
      rw [List.mapM_cons, hbytes]
      exact bind_eq_ok.mpr ⟨bytes, rfl, bind_eq_ok.mpr ⟨rest, hrest, rfl⟩⟩

end TmxRtcmEncodedMessage

namespace Stream
variable {v : RtcmVersion} {fuel steps : ℕ}

theorem Finds.decodesTo {input : Bytes} {X : Frame v} (h : Finds v fuel input X) :
    ∃ (m : TmxRtcmMessage) (X' : Frame v), (create v 0).setContents fuel input = .ok m ∧
      X'.DecodesTo m ∧ X'.contents = X.contents := by
  obtain ⟨m, hset, hvalid, hcontents⟩ := h
  obtain ⟨X', hm⟩ := Frame.accepted hset hvalid
  refine ⟨m, X', hset, hm, Frame.contents_congr ?_⟩
  rw [hm.getContents] at hcontents
  exact Except.ok.inj hcontents

theorem finds_of_decodesTo {input : Bytes} {m : TmxRtcmMessage} {X : Frame v}
    (hset : (create v 0).setContents fuel input = .ok m) (hm : X.DecodesTo m) :
    Finds v fuel input X := ⟨m, hset, hm.isValid, hm.getContents⟩

theorem itemBytes_cons (F : Frame v) (gap : Bytes) (items : List (Frame v × Bytes)) :
    itemBytes ((F, gap) :: items) = F.bytes ++ (gap ++ itemBytes items) := by
  simp [itemBytes]

/-- What the loop goes on with. -/
theorem drop_frame (again gap gap' : Bytes) (F : Frame v) (items : List (Frame v × Bytes)) :
    (again ++ gap ++ itemBytes ((F, gap') :: items)).drop F.bytes.length =
      rescanned again gap F ++ gap' ++ itemBytes items := by
  have hle : F.bytes.length ≤ (again ++ gap ++ F.bytes).length := by
    rw [List.length_append]
    omega
  have hsplit : again ++ gap ++ itemBytes ((F, gap') :: items) =
      again ++ gap ++ F.bytes ++ (gap' ++ itemBytes items) := by
    simp [itemBytes_cons]
  rw [hsplit, List.drop_append_of_le_length hle, rescanned, ← List.append_assoc]

/-- The end of the loop. -/
theorem filled_none_iff (fuel : ℕ) {steps : ℕ} {copy : Bytes} (hsteps : copy.length ≤ steps) :
    TmxRtcmEncodedMessage.filled (fuel + 1) steps (some v) copy = .ok [] ↔
      Rejects v (fuel + 1) copy := by
  by_cases hcopy : copy = []
  · subst hcopy
    have hnone : ∀ byte ∈ ([] : Bytes), v.startsFrame byte = false := by simp
    have hrejected := Frame.rejected fuel hnone
    rw [TmxRtcmEncodedMessage.filled_nil]
    exact ⟨fun _ => hrejected, fun _ => rfl⟩
  have hpos := List.length_pos_iff.mpr hcopy
  obtain ⟨steps, rfl⟩ : ∃ n, steps = n + 1 := ⟨steps - 1, by omega⟩
  cases hset : (create v 0).setContents (fuel + 1) copy with
  | error e =>
    have hguess : guess (fuel + 1) (some v) copy = .error e := hset
    rw [TmxRtcmEncodedMessage.filled_failed hcopy hguess]
    simp [Rejects, hset]
  | ok m =>
    have hguess : guess (fuel + 1) (some v) copy = .ok m := hset
    cases hvalid : m.isValid with
    | false =>
      rw [TmxRtcmEncodedMessage.filled_rejected hcopy hguess hvalid]
      exact ⟨fun _ => ⟨m, hset, hvalid⟩, fun _ => rfl⟩
    | true =>
      obtain ⟨X, hm⟩ := Frame.accepted hset hvalid
      rw [TmxRtcmEncodedMessage.filled_found hcopy hguess hm]
      simp [Rejects, hset, hvalid]

/-- With a known version, the loop yields the frames if each is found when it comes. -/
theorem filled_iff (fuel : ℕ) {steps : ℕ} {again gap : Bytes} {items : List (Frame v × Bytes)}
    (hsteps : (again ++ gap ++ itemBytes items).length ≤ steps) :
    TmxRtcmEncodedMessage.filled (fuel + 1) steps (some v) (again ++ gap ++ itemBytes items) =
        .ok (items.map fun item => item.1.bytes) ↔
      FindsNext (fuel + 1) again gap items := by
  induction items generalizing again gap steps with
  | nil =>
    rw [itemBytes, List.flatMap_nil, List.append_nil] at hsteps ⊢
    rw [FindsNext, List.map_nil]
    exact filled_none_iff fuel hsteps
  | cons item items ih =>
    obtain ⟨F, gap'⟩ := item
    have hpos := F.bytes_pos
    have hlen : (again ++ gap ++ itemBytes ((F, gap') :: items)).length =
        F.bytes.length + (rescanned again gap F ++ gap' ++ itemBytes items).length := by
      have hdrop := congrArg List.length (drop_frame again gap gap' F items)
      rw [List.length_drop] at hdrop
      have hle : F.bytes.length ≤ (again ++ gap ++ itemBytes ((F, gap') :: items)).length := by
        simp [itemBytes_cons]
        omega
      omega
    obtain ⟨steps, rfl⟩ : ∃ n, steps = n + 1 := ⟨steps - 1, by omega⟩
    have hcopy : again ++ gap ++ itemBytes ((F, gap') :: items) ≠ [] := by
      apply List.ne_nil_of_length_pos
      omega
    have hshorter : (rescanned again gap F ++ gap' ++ itemBytes items).length ≤ steps := by omega
    have hnext := ih hshorter
    rw [← drop_frame] at hnext
    rw [FindsNext, List.map_cons, ← hnext]
    constructor
    · intro h
      cases hset : guess (fuel + 1) (some v) (again ++ gap ++ itemBytes ((F, gap') :: items)) with
      | error e =>
        rw [TmxRtcmEncodedMessage.filled_failed hcopy hset] at h
        cases h
      | ok m =>
        cases hvalid : m.isValid with
        | false =>
          rw [TmxRtcmEncodedMessage.filled_rejected hcopy hset hvalid] at h
          cases h
        | true =>
          obtain ⟨X, hm⟩ := Frame.accepted hset hvalid
          obtain ⟨bytes, rest, hlist, hcontents, hrest⟩ :=
            (TmxRtcmEncodedMessage.filled_found hcopy hset hm).mp h
          cases hlist
          exact ⟨⟨X, finds_of_decodesTo hset hm, hcontents⟩, hrest⟩
    · rintro ⟨⟨X, hfinds, hcontents⟩, hrest⟩
      obtain ⟨m, X', hset, hm, hsame⟩ := Finds.decodesTo hfinds
      have hguess : guess (fuel + 1) (some v)
          (again ++ gap ++ itemBytes ((F, gap') :: items)) = .ok m := hset
      rw [TmxRtcmEncodedMessage.filled_found hcopy hguess hm]
      exact ⟨F.bytes, _, rfl, hsame.trans hcontents, hrest⟩

/-- Garbage that is scanned again does no harm if no byte of it may start a frame. -/
theorem Clear.findsNext (fuel : ℕ) {again gap : Bytes} {items : List (Frame v × Bytes)}
    (hclear : Clear again gap items) (hgap : ∀ byte ∈ gap, v.startsFrame byte = false)
    (hitems : ∀ item ∈ items, ∀ byte ∈ item.2, v.startsFrame byte = false) :
    FindsNext (fuel + 1) again gap items := by
  induction items generalizing again gap with
  | nil => exact Frame.rejected fuel (List.forall_mem_append.mpr ⟨hclear, hgap⟩)
  | cons item items ih =>
    obtain ⟨F, gap'⟩ := item
    obtain ⟨hagain, hcontents, hrest⟩ := hclear
    obtain ⟨hgap', hitems⟩ := List.forall_mem_cons.mp hitems
    obtain ⟨m, hset, hm⟩ := F.found fuel (gap' ++ itemBytes items)
      (List.forall_mem_append.mpr ⟨hagain, hgap⟩)
    rw [← itemBytes_cons] at hset
    exact ⟨⟨F, finds_of_decodesTo hset hm, hcontents⟩, ih hrest hgap' hitems⟩

end Stream

section Guess
variable {fuel steps : ℕ} {copy : Bytes}

theorem guess_of_rejects (h : Rejects .SC10403_3 fuel copy) :
    guess fuel none copy = guess fuel (some .SC10402_3) copy := by
  obtain ⟨m, hset, hvalid⟩ := h
  simp only [guess, hset, bind, Except.bind, hvalid]
  rfl

theorem guess_of_valid {m : TmxRtcmMessage}
    (hset : (create .SC10403_3 0).setContents fuel copy = .ok m) (hvalid : m.isValid = true) :
    guess fuel none copy = .ok m := by
  rw [guess, hset]
  simp only [bind, Except.bind, hvalid, if_true]

/-- The loop depends on the version only by what it finds first. -/
theorem TmxRtcmEncodedMessage.filled_congr {thisVer thisVer' : Option RtcmVersion}
    (h : guess fuel thisVer copy = guess fuel thisVer' copy) (steps : ℕ) :
    filled fuel steps thisVer copy = filled fuel steps thisVer' copy := by
  cases copy with
  | nil => rw [filled_nil, filled_nil]
  | cons byte rest =>
    cases steps with
    | zero => rfl
    | succ steps =>
      rw [filled, filled, fill, fill, h]
      cases guess fuel thisVer' (byte :: rest) with
      | error e => rfl
      | ok m =>
        simp only [bind, Except.bind]
        cases m.isValid <;> rfl

/-- A frame of one version is none of the other. -/
theorem Frame2.bytes_ne_contents (F : Frame2) (G : Frame3) : G.contents ≠ .ok F.bytes := by
  have hhead : ∀ bytes, G.contents = .ok bytes →
      bytes.head? = some Rtcm3Message.preambleByte := by
    intro bytes h
    rw [Frame3.contents] at h
    split_ifs at h <;> cases h <;> rfl
  obtain ⟨byte, tail, hbytes, hstarts⟩ := F.startsFrame_head []
  rw [List.append_nil] at hbytes
  intro h
  have hbyte := hhead F.bytes h
  rw [hbytes, List.head?_cons, Option.some.injEq] at hbyte
  subst hbyte
  revert hstarts
  decide

end Guess

namespace Stream
variable {v : RtcmVersion} (fuel : ℕ)

theorem bytes_eq (S : Stream v) : S.bytes = [] ++ S.before ++ itemBytes S.items := rfl

theorem filled_known (S : Stream v) :
    TmxRtcmEncodedMessage.filled (fuel + 1) S.bytes.length (some v) S.bytes = .ok S.frames ↔
      FindsNext (fuel + 1) [] S.before S.items := by
  rw [bytes_eq]
  exact filled_iff fuel le_rfl

/-- A stream of version 2.3 whose version is not given. -/
theorem filled_guessed2 (S : Stream .SC10402_3) :
    TmxRtcmEncodedMessage.filled (fuel + 1) S.bytes.length none S.bytes = .ok S.frames ↔
      S.VersionFound (fuel + 1) ∧ FindsNext (fuel + 1) [] S.before S.items := by
  rw [← filled_known]
  by_cases hrejects : Rejects .SC10403_3 (fuel + 1) S.bytes
  · rw [TmxRtcmEncodedMessage.filled_congr (guess_of_rejects hrejects)]
    exact (and_iff_right hrejects).symm
  have hcopy : S.bytes ≠ [] := by
    intro hnil
    have hnone : ∀ byte ∈ S.bytes, RtcmVersion.SC10403_3.startsFrame byte = false := by
      simp [hnil]
    exact hrejects (Frame.rejected fuel hnone)
  have hpos := List.length_pos_iff.mpr hcopy
  obtain ⟨steps, hsteps⟩ : ∃ n, S.bytes.length = n + 1 := ⟨S.bytes.length - 1, by omega⟩
  refine iff_of_false ?_ fun h => hrejects h.1
  intro h
  rw [hsteps] at h
  cases hset : (create .SC10403_3 0).setContents (fuel + 1) S.bytes with
  | error e =>
    have hguess : guess (fuel + 1) none S.bytes = .error e := by
      simp only [guess, hset, bind, Except.bind]
    rw [TmxRtcmEncodedMessage.filled_failed hcopy hguess] at h
    cases h
  | ok m =>
    cases hvalid : m.isValid with
    | false => exact hrejects ⟨m, hset, hvalid⟩
    | true =>
      obtain ⟨X, hm⟩ := Frame.accepted hset hvalid
      obtain ⟨bytes, rest, hlist, hcontents, -⟩ :=
        (TmxRtcmEncodedMessage.filled_found hcopy (guess_of_valid hset hvalid) hm).mp h
      cases X with
      | rtcm3 G =>
        match hitems : S.items with
        | [] => simp [frames, hitems] at hlist
        | (.rtcm2 F, gap) :: items =>
          rw [frames, hitems, List.map_cons, List.cons.injEq] at hlist
          exact F.bytes_ne_contents G (hcontents.trans (congrArg Except.ok hlist.1.symm))

/-- A stream of version 3.3 whose version is not given. -/
theorem filled_guessed3 (S : Stream .SC10403_3) :
    TmxRtcmEncodedMessage.filled (fuel + 1) S.bytes.length none S.bytes = .ok S.frames ↔
      S.VersionFound (fuel + 1) ∧ FindsNext (fuel + 1) [] S.before S.items := by
  match hitems : S.items with
  | [] =>
    have hbytes : S.bytes = S.before := by
      rw [bytes_eq, hitems]
      simp [itemBytes]
    have hrejects : Rejects .SC10403_3 (fuel + 1) S.before := Frame.rejected fuel S.before_clear
    have hframes : S.frames = [] := by simp [frames, hitems]
    rw [TmxRtcmEncodedMessage.filled_congr (guess_of_rejects (hbytes ▸ hrejects)), hframes,
      filled_none_iff fuel le_rfl]
    constructor
    · intro h
      exact ⟨fun _ => h, hrejects⟩
    · intro h
      exact h.1 hitems
  | (F, gap) :: items =>
    obtain ⟨m, hset, hm⟩ := F.found fuel (gap ++ itemBytes items) S.before_clear
    rw [← itemBytes_cons, ← hitems] at hset
    have hguess : guess (fuel + 1) none S.bytes = guess (fuel + 1) (some .SC10403_3) S.bytes :=
      (guess_of_valid hset hm.isValid).trans hset.symm
    rw [TmxRtcmEncodedMessage.filled_congr hguess, filled_known, hitems]
    refine (and_iff_right ?_).symm
    intro hnil
    rw [hitems] at hnil
    cases hnil

end Stream

namespace Stream
variable {v : RtcmVersion} (fuel : ℕ)

/-- No byte of version 2.3 starts a frame of version 3.3. -/
theorem startsFrame_rtcm2 (F : Frame2) :
    ∀ byte ∈ F.bytes, RtcmVersion.SC10403_3.startsFrame byte = false := by
  have hall : ∀ bits < 64, RtcmVersion.SC10403_3.startsFrame (rolledByte bits) = false := by
    decide
  intro byte hbyte
  obtain ⟨word, -, hword⟩ := List.mem_flatMap.mp hbyte
  obtain ⟨bits, hbits, rfl⟩ := List.mem_map.mp hword
  exact hall bits (unpackFields_replicate_lt (n := 5) bits hbits)

theorem Quiet.versionFound {S : Stream v} {subtype : Bytes} (h : S.Quiet subtype)
    (hsubtype : rtcmVersion subtype = none) : S.VersionFound (fuel + 1) := by
  have hgarbage := h.version hsubtype
  obtain ⟨hbefore, hbehind⟩ := List.forall_mem_append.mp (hgarbage .SC10403_3)
  cases v with
  | SC10402_3 =>
    apply Frame.rejected fuel
    apply List.forall_mem_append.mpr ⟨hbefore, _⟩
    intro byte hbyte
    obtain ⟨⟨F, gap⟩, hitem, hmem⟩ := List.mem_flatMap.mp hbyte
    rcases List.mem_append.mp hmem with hF | hgap
    · cases F with
      | rtcm2 F => exact startsFrame_rtcm2 F byte hF
    · exact hbehind byte (List.mem_flatMap.mpr ⟨(F, gap), hitem, hgap⟩)
  | SC10403_3 =>
    intro hitems
    have hbytes : S.bytes = S.before := by
      rw [bytes_eq, hitems]
      simp [itemBytes]
    rw [hbytes]
    exact Frame.rejected fuel (List.forall_mem_append.mp (hgarbage .SC10402_3)).1

theorem Quiet.yields {S : Stream v} {subtype : Bytes} (h : S.Quiet subtype) :
    S.Yields (fuel + 1) subtype :=
  ⟨h.versionFound fuel, h.clear.findsNext fuel S.before_clear S.items_clear⟩

end Stream

theorem Stream.contents_iff {v : RtcmVersion} (S : Stream v) {subtype : Bytes}
    (hsubtype : rtcmVersion subtype = none ∨ rtcmVersion subtype = some v) (fuel : ℕ) :
    TmxRtcmEncodedMessage.contents (fuel + 1) ⟨subtype, S.bytes, []⟩ = .ok S.frames ↔
      S.Yields (fuel + 1) subtype := by
  rw [TmxRtcmEncodedMessage.contents_eq]
  rcases hsubtype with hnone | hsome
  · have hguessed : TmxRtcmEncodedMessage.filled (fuel + 1) S.bytes.length none S.bytes =
        .ok S.frames ↔ S.VersionFound (fuel + 1) ∧
          Stream.FindsNext (fuel + 1) [] S.before S.items := by
      cases v with
      | SC10402_3 => exact S.filled_guessed2 fuel
      | SC10403_3 => exact S.filled_guessed3 fuel
    rw [hnone, hguessed]
    exact ⟨fun h => ⟨fun _ => h.1, h.2⟩, fun h => ⟨h.version hnone, h.next⟩⟩
  · rw [hsome, Stream.filled_known]
    have hnot : rtcmVersion subtype ≠ none := by simp [hsome]
    exact ⟨fun h => ⟨fun hnone => absurd hnone hnot, h⟩, fun h => h.next⟩

/-- The container of an encoded message holds the frames of a stream, once each and in order, if
and only if each is found when it comes, and so it does in the simple case. -/
theorem encodedMessage_yields {v : RtcmVersion} (S : Stream v) {subtype : Bytes}
    (hsubtype : rtcmVersion subtype = none ∨ rtcmVersion subtype = some v) (fuel : ℕ) :
    (TmxRtcmEncodedMessage.contents (fuel + 1) ⟨subtype, S.bytes, []⟩ = .ok S.frames ↔
        S.Yields (fuel + 1) subtype) ∧
      (S.Quiet subtype →
        TmxRtcmEncodedMessage.contents (fuel + 1) ⟨subtype, S.bytes, []⟩ = .ok S.frames) :=
  ⟨S.contents_iff hsubtype fuel, fun h => (S.contents_iff hsubtype fuel).mpr (h.yields fuel)⟩

/-- Three bytes of garbage before two frames. -/
def sampleStream : Stream .SC10403_3 where
  before := [0, 1, 2]
  items := [(.rtcm3 ⟨0, 4, [16, 2, 3, 7], by decide, by decide⟩, []),
    (.rtcm3 ⟨0, 3, [16, 2, 3], by decide, by decide⟩, [5])]
  before_clear := by decide +kernel
  items_clear := by decide +kernel

theorem encodedMessage_yields_sample :
    rtcmVersion (cstr "") = none ∧
      TmxRtcmEncodedMessage.contents 1 ⟨cstr "", sampleStream.bytes, []⟩ = .ok sampleStream.frames := by
  have hsubtype : rtcmVersion (cstr "") = none := by decide
  refine ⟨hsubtype, (encodedMessage_yields sampleStream (.inl hsubtype) 0).2 ⟨fun _ => ?_, ?_⟩⟩
  · intro w
    cases w <;> decide +kernel
  · decide +kernel

/-- A frame behind as many bytes of garbage as it has itself. -/
def repeatedStream : Stream .SC10403_3 where
  before := [0, 0, 0, 0, 0, 0, 0, 0, 0]
  items := [(.rtcm3 ⟨0, 3, [1, 2, 3], by decide, by decide⟩, [])]
  before_clear := by decide +kernel
  items_clear := by decide +kernel

/-- The one frame of the stream is yielded twice. -/
theorem encodedMessage_repeats :
    ¬ ∀ (v : RtcmVersion) (S : Stream v) (subtype : Bytes),
      rtcmVersion subtype = none ∨ rtcmVersion subtype = some v →
      ∃ fuel, TmxRtcmEncodedMessage.contents fuel ⟨subtype, S.bytes, []⟩ = .ok S.frames := by
  intro hall
  have hsubtype : rtcmVersion (cstr "3.3") = some .SC10403_3 := by decide
  obtain ⟨fuel, hcontents⟩ := hall _ repeatedStream (cstr "3.3") (.inr hsubtype)
  rw [TmxRtcmEncodedMessage.contents_eq, hsubtype] at hcontents
  cases fuel with
  | zero => cases hcontents
  | succ fuel =>
    rw [Stream.filled_known] at hcontents
    let F : Frame .SC10403_3 := .rtcm3 ⟨0, 3, [1, 2, 3], by decide, by decide⟩
    have hagain : Stream.rescanned [] repeatedStream.before F ++ [] = F.bytes := by decide +kernel
    have hend : Rejects .SC10403_3 (fuel + 1) (Stream.rescanned [] repeatedStream.before F ++ []) :=
      hcontents.2
    rw [hagain] at hend
    obtain ⟨m, hset, hvalid⟩ := hend
    obtain ⟨m', hset', hm⟩ := F.found_bytes fuel
    cases hset.symm.trans hset'
    rw [hm.isValid] at hvalid
    cases hvalid

end V2IHub.Rtcm
