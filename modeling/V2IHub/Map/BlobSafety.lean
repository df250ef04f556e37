import V2IHub.Map.BlobIntegrity

/-! Where `map_decode` stays inside its blob and its arrays. -/
namespace V2IHub.Map
open V2IHub.Foundation

section Nodes

/-- How far the index moves over a value. -/
def Mode.taken : Mode → ℕ
  | .word | .half => 2
  | .whole => 1

/-- How far it moves over several. -/
def Mode.advance : Mode → ℕ → ℕ
  | .word, n => 2 * n
  | .whole, n => 3 * n / 2
  | .half, n => (3 * n + 1) / 2

/-- Every one of so many values is there; its two bytes are read also where it ends in the first
half of the second. -/
def Mode.Room (mode : Mode) (n : ℕ) (bytes : Bytes) : Prop :=
  ∀ j < n, mode.advance j + 2 ≤ bytes.length

/-- A reader of so many values. -/
def Moves {α : Type} (n : ℕ) (f : StateT (Mode × Bytes) Option α) : Prop :=
  ∀ mode bytes, (mode.Room n bytes →
      ∃ x, f (mode, bytes) = some (x, Mode.next^[n] mode, bytes.drop (mode.advance n))) ∧
    (¬ mode.Room n bytes → f (mode, bytes) = none)

variable {α β : Type} {m n : ℕ} {mode : Mode} {bytes : Bytes}

theorem Mode.advance_succ (mode : Mode) (n : ℕ) :
    mode.advance (n + 1) = mode.taken + mode.next.advance n := by
  cases mode <;> simp only [advance, taken, next] <;> omega

theorem Mode.advance_add (mode : Mode) (m n : ℕ) :
    mode.advance (m + n) = mode.advance m + (Mode.next^[m] mode).advance n := by
  induction m generalizing mode with
  | zero => cases mode <;> simp [advance]
  | succ m ih =>
    rw [Nat.add_right_comm, advance_succ, ih, advance_succ, Function.iterate_succ_apply,
      Nat.add_assoc]

theorem Mode.advance_mono (mode : Mode) (h : m ≤ n) : mode.advance m ≤ mode.advance n := by
  cases mode <;> simp only [advance] <;> omega

theorem Mode.room_add : mode.Room (m + n) bytes ↔
    mode.Room m bytes ∧ (Mode.next^[m] mode).Room n (bytes.drop (mode.advance m)) := by
  constructor
  · intro h
    refine ⟨fun j hj => h j (by omega), fun j hj => ?_⟩
    have hroom := h (m + j) (by omega)
    rw [advance_add] at hroom
    rw [List.length_drop]
    omega
  · rintro ⟨hfirst, hrest⟩ j hj
    by_cases hjm : j < m
    · exact hfirst j hjm
    · obtain ⟨i, rfl⟩ := Nat.exists_eq_add_of_le (not_lt.mp hjm)
      have hroom := hrest i (by omega)
      rw [List.length_drop] at hroom
      rw [advance_add]
      omega

theorem readValue_moves : Moves 1 readValue := by
  intro mode bytes
  have hroom : mode.Room 1 bytes ↔ 2 ≤ bytes.length := by
    simp only [Mode.Room, Nat.lt_one_iff, forall_eq]
    cases mode <;> simp [Mode.advance]
  rw [hroom]
  match bytes with
  | [] => exact ⟨fun h => absurd h (by simp), fun _ => by cases mode <;> rfl⟩
  | [_] => exact ⟨fun h => absurd h (by simp), fun _ => by cases mode <;> rfl⟩
  | _ :: _ :: _ => exact ⟨fun _ => by cases mode <;> exact ⟨_, rfl⟩, fun h => absurd h (by simp)⟩

theorem Moves.pure (x : α) : Moves 0 (Pure.pure x) := by
  intro mode bytes
  have hzero : mode.advance 0 = 0 := by cases mode <;> rfl
  refine ⟨fun _ => ⟨x, ?_⟩, fun h => absurd (fun j hj => absurd hj (by omega)) h⟩
  rw [hzero]
  rfl

theorem Moves.bind {f : StateT (Mode × Bytes) Option α} {k : α → StateT (Mode × Bytes) Option β}
    (hf : Moves m f) (hk : ∀ x, Moves n (k x)) : Moves (m + n) (f >>= k) := by
  intro mode bytes
  obtain ⟨hgood, hbad⟩ := hf mode bytes
  rw [Mode.room_add]
  by_cases hm : mode.Room m bytes
  · obtain ⟨x, hx⟩ := hgood hm
    have hbind : (f >>= k) (mode, bytes) =
        k x (Mode.next^[m] mode, bytes.drop (mode.advance m)) := by
      change ((f (mode, bytes)).bind fun r => k r.1 r.2) = _
      rw [hx, Option.bind_some]
    obtain ⟨hgood', hbad'⟩ := hk x (Mode.next^[m] mode) (bytes.drop (mode.advance m))
    rw [hbind]
    refine ⟨fun h => ?_, fun h => hbad' fun hn => h ⟨hm, hn⟩⟩
    obtain ⟨y, hy⟩ := hgood' h.2
    refine ⟨y, ?_⟩
    rw [hy, List.drop_drop, ← Mode.advance_add, ← Function.iterate_add_apply, Nat.add_comm n m]
  · refine ⟨fun h => absurd h.1 hm, fun _ => ?_⟩
    change ((f (mode, bytes)).bind fun r => k r.1 r.2) = _
    rw [hbad hm]
    rfl

/-- The values of a node in the list. -/
def valuesOf (elevation width : Bool) : ℕ := 2 + elevation.toNat + width.toNat

theorem decodeNode_moves (elevation width : Bool) (node : MapNode) :
    Moves (valuesOf elevation width) (decodeNode elevation width node) := by
  have hvalues : valuesOf elevation width = 1 + (1 + (elevation.toNat + (width.toNat + 0))) := by
    simp only [valuesOf]
    omega
  rw [hvalues]
  refine readValue_moves.bind fun _ => readValue_moves.bind fun _ => ?_
  cases elevation <;> cases width
  · exact (Moves.pure _).bind fun _ => (Moves.pure _).bind fun _ => .pure _
  · exact (Moves.pure _).bind fun _ => readValue_moves.bind fun _ => .pure _
  · exact readValue_moves.bind fun _ => (Moves.pure _).bind fun _ => .pure _
  · exact readValue_moves.bind fun _ => readValue_moves.bind fun _ => .pure _

/-- The loop ends with the first node behind which the end of the list is reached; that node has a
slot, and is there. -/
theorem decodeNodes_isSome_iff {elevation width : Bool} {more : Bytes → Bool}
    {slots : List (Fin maxnodes)} {nodes : Nodes} :
    (decodeNodes elevation width more slots nodes (mode, bytes)).isSome ↔
      ∃ n < slots.length, mode.Room (valuesOf elevation width * (n + 1)) bytes ∧
        (∀ k < n, more (bytes.drop (mode.advance (valuesOf elevation width * (k + 1)))) = true) ∧
        more (bytes.drop (mode.advance (valuesOf elevation width * (n + 1)))) = false := by
  induction slots generalizing nodes mode bytes with
  | nil => simp [decodeNodes]
  | cons slot slots ih =>
    obtain ⟨hgood, hbad⟩ := decodeNode_moves elevation width (nodes slot) mode bytes
    generalize valuesOf elevation width = v at *
    have hsplit : ∀ n, v * (n + 1 + 1) = v + v * (n + 1) := fun n => by
      rw [Nat.mul_succ v (n + 1), Nat.add_comm]
    by_cases hroom : mode.Room v bytes
    · obtain ⟨node, hnode⟩ := hgood hroom
      simp only [decodeNodes, hnode, Option.bind_eq_bind, Option.bind_some]
      by_cases hmore : more (bytes.drop (mode.advance v)) = true
      · rw [if_pos hmore, ih]
        simp only [List.drop_drop, ← Mode.advance_add, ← hsplit]
        constructor
        · rintro ⟨n, hn, hfits, hgo, hstop⟩
          refine ⟨n + 1, by simpa using hn, ?_, fun k hk => ?_, hstop⟩
          · rw [hsplit, Mode.room_add]
            exact ⟨hroom, hfits⟩
          · cases k with
            | zero => simpa using hmore
            | succ k => exact hgo k (by omega)
        · rintro ⟨n, hn, hfits, hgo, hstop⟩
          cases n with
          | zero =>
            simp only [Nat.zero_add, Nat.mul_one] at hstop
            rw [hstop] at hmore
            cases hmore
          | succ n =>
            rw [hsplit, Mode.room_add] at hfits
            exact ⟨n, by simpa using hn, hfits.2, fun k hk => hgo (k + 1) (by omega), hstop⟩
      · rw [if_neg hmore]
        refine iff_of_true rfl ⟨0, by simp, by simpa using hroom, by simp, ?_⟩
        simpa using hmore
    · simp only [decodeNodes, hbad hroom]
      refine iff_of_false (by simp) ?_
      rintro ⟨n, -, hfits, -⟩
      exact hroom fun j hj => hfits j (hj.trans_le (Nat.le_mul_of_pos_right v n.succ_pos))

/-- The bytes that so many values touch. -/
def touched (packed : Bool) (n : ℕ) : ℕ := if packed then (3 * n + 1) / 2 else 2 * n

/-- The index after them. -/
def spanned (packed : Bool) (n : ℕ) : ℕ := if packed then 3 * n / 2 else 2 * n

/-- A node list from its length byte on: the end that the length gives is not reached before the
last of at most twenty nodes, and these are there. -/
def NodeListFits (msgAttributes : UInt8) : Bytes → Prop
  | length :: nodeAttributes :: rest =>
    let values := valuesOf (hasElevation msgAttributes) (nodeAttributes &&& 1 != 0)
    let packed := nodeAttributes &&& 2 != 0
    ∃ n < maxnodes, (∀ k < n, 2 + spanned packed (values * (k + 1)) < length.toNat) ∧
      length.toNat ≤ 2 + spanned packed (values * (n + 1)) ∧
      touched packed (values * (n + 1)) ≤ rest.length
  | _ => False

theorem decodeNodelist_isSome_iff {nodes : Nodes} {blob : Bytes} {msgAttributes : UInt8} :
    (decodeNodelist nodes blob msgAttributes).isSome ↔ NodeListFits msgAttributes blob := by
  match blob with
  | [] => exact iff_of_false (by simp [decodeNodelist]) id
  | [_] => exact iff_of_false (by simp [decodeNodelist]) id
  | length :: nodeAttributes :: rest =>
    simp only [decodeNodelist, NodeListFits, decodeNodes_isSome_iff, List.length_finRange]
    generalize hv : valuesOf (hasElevation msgAttributes) (nodeAttributes &&& 1 != 0) = v
    generalize hmode : (if nodeAttributes &&& 2 = 0 then Mode.word else .whole) = mode
    generalize hpacked : (nodeAttributes &&& 2 != 0) = packed
    have hpos : 0 < v := by
      rw [← hv, valuesOf]
      omega
    have hspan : ∀ n, mode.advance n = spanned packed n := by
      intro n
      subst hmode hpacked
      by_cases h : nodeAttributes &&& 2 = 0 <;> simp [h, Mode.advance, spanned]
    have hroom : ∀ n, mode.Room (v * (n + 1)) rest ↔
        touched packed (v * (n + 1)) ≤ rest.length := by
      intro n
      obtain ⟨w, hw⟩ := Nat.exists_eq_succ_of_ne_zero (Nat.mul_pos hpos n.succ_pos).ne'
      rw [hw]
      have hlast : touched packed (w + 1) = mode.advance w + 2 := by
        rw [hspan]
        cases packed <;> simp only [touched, spanned, if_true, Bool.false_eq_true, if_false] <;>
          omega
      rw [hlast]
      refine ⟨fun h => h w (by omega), fun h j hj => ?_⟩
      have hmono := mode.advance_mono (show j ≤ w by omega)
      omega
    refine exists_congr fun n => and_congr_right fun _ => ?_
    rw [hroom]
    have hle : touched packed (v * (n + 1)) ≤ rest.length →
        ∀ k ≤ n, spanned packed (v * (k + 1)) ≤ rest.length := by
      intro htouched k hk
      have hmul : v * (k + 1) ≤ v * (n + 1) := Nat.mul_le_mul_left v (by omega)
      generalize v * (k + 1) = x at *
      generalize v * (n + 1) = y at *
      revert htouched
      cases packed <;> simp only [touched, spanned, if_true, Bool.false_eq_true, if_false] <;> omega
    constructor
    · rintro ⟨htouched, hgo, hstop⟩
      have hspanned := hle htouched
      refine ⟨fun k hk => ?_, ?_, htouched⟩
      · have hmore := hgo k hk
        have hk' := hspanned k hk.le
        simp only [hspan, List.length_cons, List.length_drop, decide_eq_true_eq] at hmore
        omega
      · have hn' := hspanned n le_rfl
        simp only [hspan, List.length_cons, List.length_drop, decide_eq_false_iff_not] at hstop
        omega
    · rintro ⟨hgo, hstop, htouched⟩
      have hspanned := hle htouched
      refine ⟨htouched, fun k hk => ?_, ?_⟩
      · have hmore := hgo k hk
        have hk' := hspanned k hk.le
        simp only [hspan, List.length_cons, List.length_drop, decide_eq_true_eq]
        omega
      · have hn' := hspanned n le_rfl
        simp only [hspan, List.length_cons, List.length_drop, decide_eq_false_iff_not]
        omega

end Nodes

namespace Decoder
variable {s : Decoder}

section Lengths

theorem next_takes : Takes 1 next := by
  rintro (_ | ⟨byte, rest⟩) <;> simp [next]

theorem skip_needs : Needs 1 skip :=
  next_takes.bind_needs (n := 0) fun _ _ => iff_of_true rfl (Nat.zero_le _)

theorem orWord_takes (value : UInt16) : Takes 2 (orWord value) :=
  next_takes.bind fun _ => next_takes.bind fun _ => .pure _

theorem signedWord_takes : Takes 2 signedWord :=
  next_takes.bind fun _ => next_takes.bind fun _ => .pure _

theorem signedDword_takes : Takes 4 signedDword :=
  next_takes.bind fun _ => next_takes.bind fun _ => next_takes.bind fun _ =>
    next_takes.bind fun _ => .pure _

theorem orIntersectionId_takes (js : List ℕ) (intersectionid : UInt64) :
    Takes js.length (orIntersectionId intersectionid js) := by
  induction js generalizing intersectionid with
  | nil => exact .pure _
  | cons j js ih =>
    rw [List.length_cons, Nat.add_comm]
    exact next_takes.bind fun _ => ih _

end Lengths

def laneBytes (s : Decoder) : ℕ :=
  match s.group with
  | none => 0
  | some p => if ∃ l, ((s.message.group p).lane l).number = 0 then 3 else 1

def connectionBytes (s : Decoder) : ℕ :=
  match s.lane with
  | none => 1
  | some p =>
    if (s.message.lane p).type ≠ pedestrian ∧
        ∃ c, ((s.message.lane p).connection c).lanenumber = 0 then 4 else 1

def referencelaneBytes (s : Decoder) : ℕ :=
  match s.lane with
  | none => 1
  | some p => if (s.message.lane p).type = computed then 4 else 1

/-- The bytes that a record has to have behind its tag, its node list apart. One that is passed
over has to have its length. -/
def recordBytes (s : Decoder) : ℕ → ℕ
  | 1 => 2
  | 2 => 5
  | 3 => if hasElevation s.message.attributes then 11 else 9
  | 4 => 2
  | 5 => s.laneBytes
  | 6 => if s.lane.isSome then 3 else 1
  | 7 => if s.barrier.isSome then 3 else 1
  | 8 => if s.lane.isSome ∨ s.barrier.isSome then 3 else 1
  | 9 => 1
  | 10 => s.connectionBytes
  | 11 => s.referencelaneBytes
  | _ => 0

/-- A flag of a group or a barrier has a reference point before it, and there are at most twenty
barriers. -/
def FlagFits (s : Decoder) (flag : ℕ) : Prop :=
  (flag = 1 ∨ flag = 2 ∨ flag = 3 → s.geometry.isSome) ∧ (flag = 3 → s.b < maxbarriers)

/-- The node list of a record is one of a lane that is not computed, or of a barrier. -/
def ListsNodes (s : Decoder) : Prop :=
  match s.lane, s.barrier with
  | some p, _ => (s.message.lane p).type ≠ computed
  | none, some _ => True
  | none, none => False

/-- What a record has to be in the state in which the loop comes to it. -/
structure RecordFits (s : Decoder) (tag : ℕ) (rest : Bytes) : Prop where
  bytes : s.recordBytes tag ≤ rest.length
  geometries : tag = 3 → s.g < maxgeometries
  flag : tag = 4 → ∀ flag ∈ rest[1]?, s.FlagFits flag.toNat
  nodes : tag = 9 → s.ListsNodes → NodeListFits s.message.attributes rest

/-- The loop is inside the blob, at a record that fits. -/
def Guard (s : Decoder) : Bytes → Prop
  | [] => False
  | tag :: rest => s.RecordFits tag.toNat rest

section Fields
variable {rest : Bytes}

theorem recordFits_iff_bytes {tag : ℕ} (h3 : tag ≠ 3) (h4 : tag ≠ 4) (h9 : tag ≠ 9) :
    s.RecordFits tag rest ↔ s.recordBytes tag ≤ rest.length :=
  ⟨RecordFits.bytes, fun h => ⟨h, fun h' => absurd h' h3, fun h' => absurd h' h4,
    fun h' => absurd h' h9⟩⟩

theorem decodeRefpoint_isSome_iff : (s.decodeRefpoint rest).isSome ↔ s.RecordFits 3 rest := by
  have hfits : s.RecordFits 3 rest ↔
      s.g < maxgeometries ∧ (if hasElevation s.message.attributes then 11 else 9) ≤ rest.length :=
    ⟨fun h => ⟨h.geometries rfl, h.bytes⟩, fun h => ⟨h.2, fun _ => h.1, by simp, by simp⟩⟩
  rw [hfits]
  by_cases hg : s.g < maxgeometries
  · simp only [hg, true_and]
    have hneed : ∀ g : Fin maxgeometries, Takes 0 (need (some g)) := fun g bytes => by simp [need]
    unfold decodeRefpoint
    simp only [hg, ↓reduceDIte]
    cases helevation : hasElevation s.message.attributes with
    | true =>
      exact (next_takes.bind fun _ => (hneed _).bind fun _ => signedDword_takes.bind fun _ =>
        signedDword_takes.bind fun _ => (signedWord_takes.map _).bind fun _ => .pure _).needs rest
    | false =>
      exact (next_takes.bind fun _ => (hneed _).bind fun _ => signedDword_takes.bind fun _ =>
        signedDword_takes.bind fun _ => (Takes.pure _).bind fun _ => .pure _).needs rest
  · refine iff_of_false ?_ fun h => hg h.1
    cases rest with
    | nil => simp [decodeRefpoint, next, bind, StateT.bind]
    | cons byte rest => simp [decodeRefpoint, next, bind, StateT.bind, need, hg]

theorem decodeFlag_isSome_iff : (s.decodeFlag rest).isSome ↔ s.RecordFits 4 rest := by
  have hfits : s.RecordFits 4 rest ↔
      2 ≤ rest.length ∧ ∀ flag ∈ rest[1]?, s.FlagFits flag.toNat :=
    ⟨fun h => ⟨h.bytes, h.flag rfl⟩, fun h => ⟨h.1, by simp, fun _ => h.2, by simp⟩⟩
  rw [hfits]
  rcases rest with _ | ⟨size, _ | ⟨flag, rest⟩⟩
  · simp [decodeFlag, next, bind, StateT.bind]
  · simp [decodeFlag, next, bind, StateT.bind]
  · simp only [List.length_cons, List.getElem?_cons_succ, List.getElem?_cons_zero, Option.mem_def,
      Option.some.injEq, forall_eq', FlagFits, decodeFlag, next, bind, StateT.bind,
      Option.bind_some]
    generalize flag.toNat = value
    rcases value with _ | _ | _ | _ | n
    · simp [reader_pure]
    · cases s.geometry <;> simp [need, StateT.bind, reader_pure]
    · cases s.geometry <;> simp [need, StateT.bind, reader_pure]
    · by_cases hb : s.b < maxbarriers
      · cases s.geometry <;> simp [need, StateT.bind, reader_pure, hb]
      · cases s.geometry <;> simp [need, StateT.bind, hb]
    · simp [reader_pure]

theorem decodeNodeList_isSome_iff : (s.decodeNodeList rest).isSome ↔ s.RecordFits 9 rest := by
  have hfits : s.RecordFits 9 rest ↔
      1 ≤ rest.length ∧ (s.ListsNodes → NodeListFits s.message.attributes rest) :=
    ⟨fun h => ⟨h.bytes, h.nodes rfl⟩, fun h => ⟨h.1, by simp, by simp, fun _ => h.2⟩⟩
  have hlength : NodeListFits s.message.attributes rest → 1 ≤ rest.length := by
    cases rest with
    | nil => exact False.elim
    | cons byte rest => simp
  rw [hfits]
  unfold decodeNodeList ListsNodes
  have hlist : ∀ nodes, (decodeNodelist nodes rest s.message.attributes).isSome ↔
      1 ≤ rest.length ∧ NodeListFits s.message.attributes rest := by
    intro nodes
    rw [decodeNodelist_isSome_iff]
    exact ⟨fun h => ⟨hlength h, h⟩, And.right⟩
  cases hlane : s.lane with
  | some p =>
    simp only
    split_ifs with htype
    · rw [isSome_bind_pure, hlist]
      simp [htype]
    · rw [isSome_bind_pure, skip_needs rest]
      simp [htype]
  | none =>
    cases hbarrier : s.barrier with
    | some p =>
      simp only
      rw [isSome_bind_pure, hlist]
      simp
    | none =>
      simp only
      rw [isSome_bind_pure, skip_needs rest]
      simp

/-- A field is decoded exactly when its record fits. -/
theorem decodeField_isSome_iff (tag : ℕ) : (s.decodeField tag rest).isSome ↔
    s.RecordFits tag rest := by
  simp only [decodeField]
  split
  · rw [recordFits_iff_bytes (by decide) (by decide) (by decide)]
    exact (next_takes.bind fun _ => next_takes.bind fun _ => Takes.pure _).needs rest
  · rw [recordFits_iff_bytes (by decide) (by decide) (by decide)]
    exact (next_takes.bind fun _ => (orIntersectionId_takes _ _).bind fun _ => Takes.pure _).needs
      rest
  · exact decodeRefpoint_isSome_iff
  · exact decodeFlag_isSome_iff
  · rw [recordFits_iff_bytes (by decide) (by decide) (by decide)]
    simp only [recordBytes, laneBytes, decodeLane]
    cases hgroup : s.group with
    | none => simp [reader_pure]
    | some p =>
      simp only
      cases hfree : (List.finRange maxlanes).find? fun l =>
          decide (((s.message.group p).lane l).number = 0) with
      | none =>
        have hnone : ¬ ∃ l, ((s.message.group p).lane l).number = 0 := by
          simpa using hfree
        rw [if_neg hnone]
        exact skip_needs.bind_pure _ rest
      | some l =>
        have hsome : ∃ l, ((s.message.group p).lane l).number = 0 :=
          ⟨l, by simpa using List.find?_some hfree⟩
        rw [if_pos hsome]
        exact (next_takes.bind fun _ => next_takes.bind fun _ => next_takes.bind fun _ =>
          .pure _).needs rest
  · rw [recordFits_iff_bytes (by decide) (by decide) (by decide)]
    simp only [recordBytes, decodeLaneAttributes]
    cases hlane : s.lane with
    | none => exact skip_needs.bind_pure _ rest
    | some p => exact (next_takes.bind fun _ => (orWord_takes _).bind fun _ => .pure _).needs rest
  · rw [recordFits_iff_bytes (by decide) (by decide) (by decide)]
    simp only [recordBytes, decodeBarrierAttributes]
    cases hbarrier : s.barrier with
    | none => exact skip_needs.bind_pure _ rest
    | some p => exact (next_takes.bind fun _ => (orWord_takes _).bind fun _ => .pure _).needs rest
  · rw [recordFits_iff_bytes (by decide) (by decide) (by decide)]
    simp only [recordBytes, decodeWidth]
    cases hlane : s.lane with
    | some p => exact (next_takes.bind fun _ => (orWord_takes _).bind fun _ => .pure _).needs rest
    | none =>
      cases hbarrier : s.barrier with
      | none => exact skip_needs.bind_pure _ rest
      | some p => exact (next_takes.bind fun _ => (orWord_takes _).bind fun _ => .pure _).needs rest
  · exact decodeNodeList_isSome_iff
  · rw [recordFits_iff_bytes (by decide) (by decide) (by decide)]
    simp only [recordBytes, connectionBytes, decodeConnection]
    cases hlane : s.lane with
    | none => exact skip_needs.bind_pure _ rest
    | some p =>
      dsimp only
      by_cases htype : (s.message.lane p).type ≠ pedestrian
      · rw [if_pos htype]
        cases hfree : (List.finRange maxconnections).find? fun c =>
            decide (((s.message.lane p).connection c).lanenumber = 0) with
        | none =>
          have hnone : ¬ ∃ c, ((s.message.lane p).connection c).lanenumber = 0 := by
            simpa using hfree
          rw [if_neg fun h => hnone h.2]
          exact skip_needs.bind_pure _ rest
        | some c =>
          have hsome : ∃ c, ((s.message.lane p).connection c).lanenumber = 0 :=
            ⟨c, by simpa using List.find?_some hfree⟩
          rw [if_pos ⟨htype, hsome⟩]
          exact (next_takes.bind fun _ => next_takes.bind fun _ => next_takes.bind fun _ =>
            next_takes.bind fun _ => .pure _).needs rest
      · rw [if_neg htype, if_neg fun h => htype h.1]
        exact skip_needs.bind_pure _ rest
  · rw [recordFits_iff_bytes (by decide) (by decide) (by decide)]
    simp only [recordBytes, referencelaneBytes, decodeReferencelane]
    cases hlane : s.lane with
    | none => exact skip_needs.bind_pure _ rest
    | some p =>
      simp only
      split_ifs with htype
      · exact (next_takes.bind fun _ => next_takes.bind fun _ => (signedWord_takes.map _).bind
          fun _ => .pure _).needs rest
      · exact skip_needs.bind_pure _ rest
  · next h1 h2 h3 h4 h5 h6 h7 h8 h9 h10 h11 =>
    rw [recordFits_iff_bytes h3 h4 h9]
    simp [recordBytes, reader_pure]

theorem step_isSome_iff (s : Decoder) (bytes : Bytes) :
    (reader.step s bytes).isSome ↔ s.Guard bytes := by
  cases bytes with
  | nil => exact iff_of_false (by simp [reader, step, next, bind, StateT.bind]) id
  | cons tag rest => exact decodeField_isSome_iff tag.toNat

end Fields
end Decoder

/-- A flag of an approach without a reference point. -/
def flagBlob : Bytes := [0x87, 1, 0, 4, 4, 1, 1, 255, 0xdb, 0xfe]

end V2IHub.Map
