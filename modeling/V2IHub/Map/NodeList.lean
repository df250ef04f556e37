import V2IHub.Foundation.SignedBytes
import V2IHub.Foundation.RecordReader
import V2IHub.Foundation.LeadingSlots

/-! The node lists of a MAP blob: `encode_nodelist` and `decode_nodelist`. -/
namespace V2IHub.Map
open V2IHub.Foundation

abbrev maxnodes : ℕ := 20

scoped instance maxnodes_neZero : NeZero maxnodes := ⟨by decide⟩

structure MapNode where
  eastern : Int16
  northern : Int16
  elevation : Int16
  width : Int16
  deriving DecidableEq

abbrev Nodes := Fin maxnodes → MapNode

namespace MapNode

/-- All that `map_clear` leaves of a node. -/
def zero : MapNode := ⟨0, 0, 0, 0⟩

/-- What the encoder asks of a node before it lists it. -/
abbrev Listed (node : MapNode) : Prop := node.northern ≠ 0 ∧ node.eastern ≠ 0

/-- The values of a node that the list carries. -/
def values (elevation width : Bool) (node : MapNode) : List ℤ :=
  [node.eastern.toInt, node.northern.toInt] ++
    (if elevation then [node.elevation.toInt] else []) ++
    (if width then [node.width.toInt] else [])

end MapNode

/-- `attributes & elevation` -/
def hasElevation (attributes : UInt8) : Bool := attributes &&& 1 != 0

section Encode

def hasWidth (nodes : Nodes) : Bool := (List.finRange maxnodes).any fun n => (nodes n).width ≠ 0

/-- The `nodelist` array. -/
def nodelist (elevation width : Bool) (nodes : Nodes) : List ℤ :=
  (List.finRange maxnodes).flatMap fun n =>
    if (nodes n).Listed then (nodes n).values elevation width else []

def fitsPacked (nodelist : List ℤ) : Bool := nodelist.all fun v => ¬ (v > 2047 ∨ v < -2048)

/-- The limit on the magnitude of a coordinate. -/
def limited (v : ℤ) : ℤ :=
  let v := if v > 32767 then 32767 else v
  if v < -32768 then -32768 else v

mutual

/-- Twelve bits a value, two values in three bytes. -/
def packValues : List ℤ → Bytes
  | [] => []
  | v :: vs => lowByte (v / 16) :: packHalf v vs

/-- The text from the middle of a byte on, whose upper half ends the value before. -/
def packHalf (before : ℤ) : List ℤ → Bytes
  | [] => [lowByte (before % 16 * 16)]
  | v :: vs => lowByte (before % 16 * 16 + v / 256 % 16) :: lowByte v :: packValues vs

end

/-- The `node_attributes` byte: `width` is 1, `packed` is 2. -/
def nodeAttributes (width packed : Bool) : UInt8 :=
  (if width then 1 else 0) ||| (if packed then 2 else 0)

/-- The bytes that `encode_nodelist` writes. -/
def encodeNodelist (nodes : Nodes) (msgAttributes : UInt8) : Bytes :=
  let width := hasWidth nodes
  let list := nodelist (hasElevation msgAttributes) width nodes
  let packed := fitsPacked list
  let limits := list.map limited
  nodeAttributes width packed ::
    if packed then packValues limits else limits.flatMap wordBytes

end Encode

section Decode

/-- Where a value starts: `mode` 1 and 2 of a packed list, or at a byte of an unpacked one. -/
inductive Mode where
  | word | whole | half
  deriving DecidableEq

/-- The mode after a value. -/
def Mode.next : Mode → Mode
  | .word => .word
  | .whole => .half
  | .half => .whole

/-- One value, and the index and mode after it; `none` is a read past the blob. -/
def readValue : StateT (Mode × Bytes) Option Int16
  | (.word, b :: c :: rest) => some (.ofInt (signedByte b * 0x100 + c.toNat), .word, rest)
  | (.whole, b :: c :: rest) =>
    some (.ofInt (signedByte b * 0x10 + (c.toNat / 16 : ℕ)), .half, c :: rest)
  | (.half, b :: c :: rest) =>
    some (.ofInt (signedByte (lowByte (b.toNat % 16 * 16 : ℕ)) * 0x10 + c.toNat), .whole, rest)
  | _ => none

def decodeNode (elevation width : Bool) (node : MapNode) : StateT (Mode × Bytes) Option MapNode := do
  let eastern ← readValue
  let northern ← readValue
  let elevation ← if elevation then readValue else pure node.elevation
  let width ← if width then readValue else pure node.width
  return ⟨eastern, northern, elevation, width⟩

/-- The `do` loop over the slots from `pnode` on; `more` is `i < end`, `none` a write past the
node array. -/
def decodeNodes (elevation width : Bool) (more : Bytes → Bool) :
    List (Fin maxnodes) → Nodes → Mode × Bytes → Option (Nodes × Bytes)
  | [], _, _ => none
  | n :: slots, nodes, at_ => do
    let (node, at_) ← decodeNode elevation width (nodes n) at_
    let nodes := Function.update nodes n node
    if more at_.2 then decodeNodes elevation width more slots nodes at_ else some (nodes, at_.2)

/-- `decode_nodelist` at the length byte: the nodes and the text from the returned index on. -/
def decodeNodelist (nodes : Nodes) (blob : Bytes) (msgAttributes : UInt8) : Option (Nodes × Bytes) :=
  match blob with
  | length :: nodeAttributes :: rest =>
    let more (rest : Bytes) : Bool := blob.length < rest.length + length.toNat
    let mode := if nodeAttributes &&& 2 = 0 then .word else .whole
    decodeNodes (hasElevation msgAttributes) (nodeAttributes &&& 1 != 0) more
      (List.finRange maxnodes) nodes (mode, rest)
  | _ => none

end Decode

section Values
variable {vs : List ℤ} {rest : Bytes} {at_ : Mode × Bytes}

/-- The text at a decoder's index spells these values, then `rest`. -/
def Holds (vs : List ℤ) (rest : Bytes) : Mode × Bytes → Prop
  | (.word, bytes) => bytes = vs.flatMap wordBytes ++ rest
  | (.whole, bytes) => fitsPacked vs ∧ bytes = packValues vs ++ rest
  | (.half, bytes) => fitsPacked vs ∧ ∃ before, bytes = packHalf before vs ++ rest

theorem fitsPacked_cons {v : ℤ} :
    fitsPacked (v :: vs) ↔ (-2048 ≤ v ∧ v ≤ 2047) ∧ fitsPacked vs := by
  simp only [fitsPacked, List.all_cons, Bool.and_eq_true, decide_eq_true_eq]
  constructor <;> rintro ⟨h, hvs⟩ <;> exact ⟨by omega, hvs⟩

theorem readValue_holds {x : Int16} (h : Holds (x.toInt :: vs) rest at_) :
    ∃ after, readValue at_ = some (x, after) ∧ after.1 = at_.1.next ∧ Holds vs rest after := by
  obtain ⟨mode, bytes⟩ := at_
  have hlow := x.le_toInt
  have hhigh := x.toInt_lt
  cases mode with
  | word =>
    rw [Holds] at h
    subst h
    refine ⟨(.word, vs.flatMap wordBytes ++ rest), ?_, rfl, rfl⟩
    have hword := word_joined (v := x.toInt) (by omega) (by omega)
    simp [wordBytes, readValue, hword]
  | whole =>
    obtain ⟨hfit, rfl⟩ := h
    obtain ⟨hrange, hvs⟩ := fitsPacked_cons.mp hfit
    have htop : signedByte (lowByte (x.toInt / 16)) = x.toInt / 16 :=
      signedByte_lowByte (by omega) (by omega)
    cases vs with
    | nil =>
      refine ⟨(.half, packHalf x.toInt [] ++ rest), ?_, rfl, hvs, x.toInt, rfl⟩
      have hnibble := lowByte_toNat (x.toInt % 16 * 16)
      have hsum : x.toInt / 16 * 16 + (lowByte (x.toInt % 16 * 16)).toNat / 16 = x.toInt := by
        omega
      simp [packValues, packHalf, readValue, htop, hsum]
    | cons v vs =>
      refine ⟨(.half, packHalf x.toInt (v :: vs) ++ rest), ?_, rfl, hvs, x.toInt, rfl⟩
      have hnibble := lowByte_toNat (x.toInt % 16 * 16 + v / 256 % 16)
      have hsum : x.toInt / 16 * 16 + (lowByte (x.toInt % 16 * 16 + v / 256 % 16)).toNat / 16 =
          x.toInt := by omega
      simp [packValues, packHalf, readValue, htop, hsum]
  | half =>
    obtain ⟨hfit, before, rfl⟩ := h
    obtain ⟨hrange, hvs⟩ := fitsPacked_cons.mp hfit
    refine ⟨(.whole, packValues vs ++ rest), ?_, rfl, hvs, rfl⟩
    have hfirst := lowByte_toNat (before % 16 * 16 + x.toInt / 256 % 16)
    have hlast := lowByte_toNat x.toInt
    have hnibble := lowByte_toNat
      ((lowByte (before % 16 * 16 + x.toInt / 256 % 16)).toNat % 16 * 16 : ℕ)
    have hsum : signedByte (lowByte
        ((lowByte (before % 16 * 16 + x.toInt / 256 % 16)).toNat % 16 * 16 : ℕ)) * 0x10 +
          (lowByte x.toInt).toNat = x.toInt := by
      simp only [signedByte]
      split <;> omega
    simp only [packHalf, List.cons_append, readValue, hsum, Int16.ofInt_toInt]

theorem packValues_length (vs : List ℤ) : (packValues vs).length = (3 * vs.length + 1) / 2 ∧
    ∀ before, (packHalf before vs).length = 3 * vs.length / 2 + 1 := by
  induction vs with
  | nil => exact ⟨rfl, fun _ => rfl⟩
  | cons v vs ih =>
    obtain ⟨hwhole, hhalf⟩ := ih
    refine ⟨?_, fun before => ?_⟩
    · rw [packValues, List.length_cons, hhalf, List.length_cons]
      omega
    · rw [packHalf, List.length_cons, List.length_cons, hwhole, List.length_cons]
      omega

theorem flatMap_wordBytes_length (vs : List ℤ) :
    (vs.flatMap wordBytes).length = 2 * vs.length := by
  induction vs with
  | nil => rfl
  | cons v vs ih => rw [List.flatMap_cons, List.length_append, ih, wordBytes_length,
      List.length_cons]; omega

/-- Half a byte at most follows the last value; a node takes more. -/
theorem Holds.length (h : Holds vs rest at_) :
    (vs = [] → at_.2.length ≤ rest.length + 1) ∧
      (2 ≤ vs.length → rest.length + 1 < at_.2.length) := by
  obtain ⟨mode, bytes⟩ := at_
  obtain ⟨hwhole, hhalf⟩ := packValues_length vs
  have hlength : bytes.length - rest.length ≤ 2 * vs.length + 1 ∧
      rest.length + (3 * vs.length) / 2 ≤ bytes.length := by
    cases mode with
    | word =>
      rw [Holds] at h
      rw [h, List.length_append, flatMap_wordBytes_length]
      omega
    | whole =>
      rw [h.2, List.length_append, hwhole]
      omega
    | half =>
      obtain ⟨-, before, rfl⟩ := h
      rw [List.length_append, hhalf]
      omega
  refine ⟨fun hnil => ?_, fun htwo => ?_⟩
  · rw [hnil, List.length_nil] at hlength
    simp only
    omega
  · simp only
    omega

/-- The half byte after an odd number of packed values. -/
def Padding (pad : Bytes) : Prop := pad = [] ∨ ∃ v : ℤ, pad = [lowByte (v % 16 * 16)]

theorem Holds.padding (h : Holds [] rest at_) : ∃ pad, Padding pad ∧ at_.2 = pad ++ rest := by
  obtain ⟨mode, bytes⟩ := at_
  cases mode with
  | word => exact ⟨[], .inl rfl, h⟩
  | whole => exact ⟨[], .inl rfl, h.2⟩
  | half =>
    obtain ⟨-, before, hbytes⟩ := h
    exact ⟨[lowByte (before % 16 * 16)], .inr ⟨before, rfl⟩, hbytes⟩

/-- What a decoder makes of a slot from the values of `node`. -/
def MapNode.carried (elevation width : Bool) (slot node : MapNode) : MapNode :=
  { node with
    elevation := if elevation then node.elevation else slot.elevation
    width := if width then node.width else slot.width }

variable {elevation width : Bool}

theorem MapNode.two_le_values (node : MapNode) :
    2 ≤ (node.values elevation width ++ vs).length := by
  simp only [values, List.length_append, List.length_cons]
  omega

theorem decodeNode_holds {node : MapNode} (slot : MapNode)
    (h : Holds (node.values elevation width ++ vs) rest at_) :
    ∃ after, decodeNode elevation width slot at_ = some (slot.carried elevation width node, after) ∧
      after.1 = Mode.next^[(node.values elevation width).length] at_.1 ∧ Holds vs rest after := by
  simp only [MapNode.values, List.append_assoc, List.cons_append, List.nil_append] at h
  obtain ⟨at1, heast, hmode1, h⟩ := readValue_holds h
  obtain ⟨at2, hnorth, hmode2, h⟩ := readValue_holds h
  cases elevation <;> cases width
  · refine ⟨at2, ?_, by rw [hmode2, hmode1]; rfl, by simpa using h⟩
    simp [decodeNode, MapNode.carried, StateT.bind, bind, reader_pure, heast, hnorth]
  · obtain ⟨at3, hwidth, hmode3, h⟩ := readValue_holds (by simpa using h)
    refine ⟨at3, ?_, by rw [hmode3, hmode2, hmode1]; rfl, h⟩
    simp [decodeNode, MapNode.carried, StateT.bind, bind, reader_pure, heast, hnorth, hwidth]
  · obtain ⟨at3, helev, hmode3, h⟩ := readValue_holds (by simpa using h)
    refine ⟨at3, ?_, by rw [hmode3, hmode2, hmode1]; rfl, h⟩
    simp [decodeNode, MapNode.carried, StateT.bind, bind, reader_pure, heast, hnorth, helev]
  · obtain ⟨at3, helev, hmode3, h⟩ := readValue_holds (by simpa using h)
    obtain ⟨at4, hwidth, hmode4, h⟩ := readValue_holds h
    refine ⟨at4, ?_, by rw [hmode4, hmode3, hmode2, hmode1]; rfl, h⟩
    simp [decodeNode, MapNode.carried, StateT.bind, bind, reader_pure, heast, hnorth, helev,
      hwidth]

/-- The loop fills a slot for every node of the list, and stops where the list does. -/
theorem decodeNodes_holds {more : Bytes → Bool} {nodes : Nodes} {slots : List (Fin maxnodes)}
    (hmore : ∀ vs at_, Holds vs rest at_ → 2 ≤ vs.length → more at_.2 = true)
    (hlast : ∀ at_, Holds [] rest at_ → more at_.2 = false) {k : ℕ} (hk : k < slots.length)
    (hnodup : slots.Nodup) (old : Nodes)
    (h : Holds ((slots.take (k + 1)).flatMap fun n => (nodes n).values elevation width) rest at_) :
    ∃ last, Holds [] rest last ∧
      last.1 = Mode.next^[((slots.take (k + 1)).flatMap fun n =>
        (nodes n).values elevation width).length] at_.1 ∧
      decodeNodes elevation width more slots old at_ =
        some (fun n => if n ∈ slots.take (k + 1) then (old n).carried elevation width (nodes n)
          else old n, last.2) := by
  induction slots generalizing k old at_ with
  | nil => simp at hk
  | cons slot slots ih =>
    obtain ⟨hfresh, hnodup⟩ := List.nodup_cons.mp hnodup
    rw [List.take_succ_cons, List.flatMap_cons] at h
    obtain ⟨after, hnode, hmode, h⟩ := decodeNode_holds (old slot) h
    cases k with
    | zero =>
      have hend : Holds [] rest after := by simpa using h
      refine ⟨after, hend, by simpa using hmode, ?_⟩
      simp only [decodeNodes, hnode, Option.bind_eq_bind, Option.bind_some, hlast after hend,
        Bool.false_eq_true, if_false]
      simp only [List.take_succ_cons, List.take_zero, List.mem_singleton]
      congr 2
      funext n
      by_cases hn : n = slot <;> simp [hn]
    | succ k =>
      have hgo : more after.2 = true := by
        apply hmore _ after h
        cases slots with
        | nil => simp at hk
        | cons next slots =>
          rw [List.take_succ_cons, List.flatMap_cons]
          exact (nodes next).two_le_values
      obtain ⟨last, hend, hlastMode, hrest⟩ := ih (k := k) (by simpa using hk) hnodup
        (Function.update old slot ((old slot).carried elevation width (nodes slot))) h
      refine ⟨last, hend, ?_, ?_⟩
      · rw [hlastMode, hmode, ← Function.iterate_add_apply, List.take_succ_cons,
          List.flatMap_cons, List.length_append, Nat.add_comm]
      · simp only [decodeNodes, hnode, Option.bind_eq_bind, Option.bind_some, hgo, if_true, hrest]
        congr 2
        funext n
        by_cases hn : n = slot
        · have hnot : n ∉ slots.take (k + 1) := fun hmem => hfresh (hn ▸ List.mem_of_mem_take hmem)
          simp [hn, hn ▸ hnot]
        · simp [hn]

end Values

section Shrinks
variable {elevation width : Bool} {at_ : Mode × Bytes}

theorem readValue_shrinks : Shrinks (fun at_ => at_.2.length) readValue := by
  rintro ⟨_ | _ | _, _ | ⟨b, _ | ⟨c, rest⟩⟩⟩ r h <;> cases h <;> simp <;> omega

theorem readValue_lt {r : Int16 × Mode × Bytes} (h : readValue at_ = some r) :
    r.2.2.length < at_.2.length := by
  obtain ⟨_ | _ | _, _ | ⟨b, _ | ⟨c, rest⟩⟩⟩ := at_ <;> cases h <;> simp

/-- A node takes at least a byte. -/
theorem decodeNode_lt {node : MapNode} {r : MapNode × Mode × Bytes}
    (h : decodeNode elevation width node at_ = some r) : r.2.2.length < at_.2.length := by
  obtain ⟨⟨eastern, after⟩, hfirst, hrest⟩ := Option.bind_eq_some_iff.mp h
  refine lt_of_le_of_lt ?_ (readValue_lt hfirst)
  have hshrinks : Shrinks (fun at_ : Mode × Bytes => at_.2.length) (do
      let northern ← readValue
      let elevation ← if elevation then readValue else pure node.elevation
      let width ← if width then readValue else pure node.width
      return (⟨eastern, northern, elevation, width⟩ : MapNode)) := by
    refine readValue_shrinks.bind fun _ => ?_
    cases elevation <;> cases width
    · exact Shrinks.bind (.pure _) fun _ => Shrinks.bind (.pure _) fun _ => .pure _
    · exact Shrinks.bind (.pure _) fun _ => readValue_shrinks.bind fun _ => .pure _
    · exact readValue_shrinks.bind fun _ => Shrinks.bind (.pure _) fun _ => .pure _
    · exact readValue_shrinks.bind fun _ => readValue_shrinks.bind fun _ => .pure _
  exact hshrinks after r hrest

theorem decodeNodes_lt {more : Bytes → Bool} {slots : List (Fin maxnodes)} {nodes : Nodes}
    {r : Nodes × Bytes} (h : decodeNodes elevation width more slots nodes at_ = some r) :
    r.2.length < at_.2.length := by
  induction slots generalizing nodes at_ with
  | nil => cases h
  | cons n slots ih =>
    obtain ⟨⟨node, after⟩, hnode, hrest⟩ := Option.bind_eq_some_iff.mp h
    have hlt := decodeNode_lt hnode
    dsimp only at hrest hlt
    by_cases hmore : more after.2
    · rw [if_pos hmore] at hrest
      exact (ih hrest).trans hlt
    · rw [if_neg hmore] at hrest
      cases hrest
      exact hlt

theorem decodeNodelist_lt {nodes : Nodes} {blob : Bytes} {msgAttributes : UInt8} {r : Nodes × Bytes}
    (h : decodeNodelist nodes blob msgAttributes = some r) : r.2.length + 2 < blob.length := by
  match blob with
  | [] => cases h
  | [_] => cases h
  | length :: nodeAttributes :: rest =>
    have hlt := decodeNodes_lt h
    simp only [List.length_cons]
    exact Nat.add_lt_add_right hlt 2

end Shrinks

section RoundTrip
variable {nodes : Nodes}

theorem limited_toInt (x : Int16) : limited x.toInt = x.toInt := by
  have hlow := x.le_toInt
  have hhigh := x.toInt_lt
  simp only [limited]
  rw [if_neg (by omega), if_neg (by omega)]

theorem values_limited {elevation width : Bool} (node : MapNode) :
    (node.values elevation width).map limited = node.values elevation width := by
  cases elevation <;> cases width <;> simp [MapNode.values, limited_toInt]

theorem nodelist_limited (elevation width : Bool) (nodes : Nodes) :
    (nodelist elevation width nodes).map limited = nodelist elevation width nodes := by
  rw [nodelist, List.map_flatMap]
  congr 1
  funext n
  split
  · exact values_limited (nodes n)
  · rfl

theorem flatMap_values_length (elevation width : Bool) (nodes : Nodes) (slots : List (Fin maxnodes)) :
    (slots.flatMap fun n => (nodes n).values elevation width).length ≤ 4 * slots.length := by
  induction slots with
  | nil => simp
  | cons slot slots ih =>
    have hvalues : ((nodes slot).values elevation width).length ≤ 4 := by
      cases elevation <;> cases width <;> simp [MapNode.values]
    rw [List.flatMap_cons, List.length_append, List.length_cons]
    omega

theorem nodelist_eq (elevation width : Bool) (nodes : Nodes) :
    nodelist elevation width nodes = ((List.finRange maxnodes).filter fun n => (nodes n).Listed).flatMap
      fun n => (nodes n).values elevation width := by
  rw [nodelist]
  induction List.finRange maxnodes with
  | nil => rfl
  | cons n slots ih =>
    rw [List.flatMap_cons, ih, List.filter_cons]
    by_cases h : (nodes n).Listed <;> simp [h]

theorem nodelist_length (elevation width : Bool) (nodes : Nodes) :
    (nodelist elevation width nodes).length ≤ 80 := by
  have hslots := List.length_filter_le (fun n => decide (nodes n).Listed) (List.finRange maxnodes)
  have hvalues := flatMap_values_length elevation width nodes
    ((List.finRange maxnodes).filter fun n => (nodes n).Listed)
  rw [List.length_finRange] at hslots
  rw [nodelist_eq]
  unfold maxnodes at hslots hvalues ⊢
  omega

/-- The values of a list in the form chosen for it. -/
def listText (list : List ℤ) : Bytes :=
  if fitsPacked list then packValues list else list.flatMap wordBytes

theorem encodeNodelist_eq (nodes : Nodes) (msgAttributes : UInt8) :
    encodeNodelist nodes msgAttributes =
      nodeAttributes (hasWidth nodes)
        (fitsPacked (nodelist (hasElevation msgAttributes) (hasWidth nodes) nodes)) ::
        listText (nodelist (hasElevation msgAttributes) (hasWidth nodes) nodes) := by
  simp only [encodeNodelist, nodelist_limited, listText]

theorem listText_length {list : List ℤ} (h : list.length ≤ 80) :
    (listText list).length + 1 < 256 := by
  obtain ⟨hwhole, -⟩ := packValues_length list
  rw [listText]
  split
  · rw [hwhole]
    omega
  · rw [flatMap_wordBytes_length]
    omega

/-- The byte in front of the list holds its length. -/
theorem encodeNodelist_length (nodes : Nodes) (msgAttributes : UInt8) :
    (encodeNodelist nodes msgAttributes).length < 256 := by
  rw [encodeNodelist_eq, List.length_cons]
  exact listText_length (nodelist_length _ _ _)

theorem nodeAttributes_width (width packed : Bool) :
    (nodeAttributes width packed &&& 1 != 0) = width := by
  cases width <;> cases packed <;> rfl

theorem nodeAttributes_packed (width packed : Bool) :
    nodeAttributes width packed &&& 2 = 0 ↔ ¬ packed := by
  cases width <;> cases packed <;> decide

/-- The values of at least one node, decoded behind their length and their attributes. -/
theorem decodeNodelist_listText {k : ℕ} (hk : k < maxnodes) {list : List ℤ} {width : Bool}
    {msgAttributes : UInt8} (hlist : list = ((List.finRange maxnodes).take (k + 1)).flatMap fun n =>
      (nodes n).values (hasElevation msgAttributes) width) (old : Nodes) (rest : Bytes) :
    ∃ last, Holds [] rest last ∧
      last.1 = Mode.next^[list.length] (if fitsPacked list then .whole else .word) ∧
      decodeNodelist old (UInt8.ofNat ((listText list).length + 1) ::
          nodeAttributes width (fitsPacked list) :: (listText list ++ rest)) msgAttributes =
        some (fun n => if n.val < k + 1 then
          (old n).carried (hasElevation msgAttributes) width (nodes n) else old n, last.2) := by
  have hslots := List.length_take_le (k + 1) (List.finRange maxnodes)
  have hvalues := flatMap_values_length (hasElevation msgAttributes) width nodes
    ((List.finRange maxnodes).take (k + 1))
  have hlength : (listText list).length + 1 < 256 := by
    apply listText_length
    rw [hlist]
    unfold maxnodes at hk hslots hvalues ⊢
    omega
  have hcount : (UInt8.ofNat ((listText list).length + 1)).toNat = (listText list).length + 1 := by
    rw [UInt8.toNat_ofNat']
    exact Nat.mod_eq_of_lt hlength
  have hholds : Holds list rest
      (if nodeAttributes width (fitsPacked list) &&& 2 = 0 then .word else .whole,
        listText list ++ rest) := by
    rw [listText]
    by_cases hfits : fitsPacked list <;> simp [nodeAttributes_packed, hfits, Holds]
  let more (r : Bytes) : Bool := (listText list).length + rest.length + 1 + 1 <
    r.length + ((listText list).length + 1)
  have hmore : ∀ vs at_, Holds vs rest at_ → 2 ≤ vs.length → more at_.2 = true := by
    intro vs at_ h htwo
    have hlong := h.length.2 htwo
    simp only [more, decide_eq_true_eq]
    omega
  have hlast : ∀ at_, Holds [] rest at_ → more at_.2 = false := by
    intro at_ h
    have hshort := h.length.1 rfl
    simp only [more, decide_eq_false_iff_not]
    omega
  have hk' : k < (List.finRange maxnodes).length := by simpa using hk
  have hmode : (if fitsPacked list then Mode.whole else .word) =
      if nodeAttributes width (fitsPacked list) &&& 2 = 0 then .word else .whole := by
    simp only [nodeAttributes_packed, ite_not]
  rw [hmode]
  generalize hstart : (if nodeAttributes width (fitsPacked list) &&& 2 = 0 then Mode.word
    else .whole) = mode at hholds
  have hholds' : Holds (((List.finRange maxnodes).take (k + 1)).flatMap fun n =>
      (nodes n).values (hasElevation msgAttributes) width) rest (mode, listText list ++ rest) := by
    rw [← hlist]
    exact hholds
  obtain ⟨last, hend, hlastMode, hresult⟩ :=
    decodeNodes_holds hmore hlast hk' (List.nodup_finRange _) old hholds'
  refine ⟨last, hend, by rw [hlastMode, hlist], ?_⟩
  simp only [mem_take_finRange] at hresult
  simp only [decodeNodelist, nodeAttributes_width, List.length_cons, List.length_append, hcount,
    hstart]
  exact hresult

/-- A list of at least one node, decoded from what was written for it. -/
theorem decodeNodelist_encodeNodelist (hleading : Leading fun n => (nodes n).Listed)
    (hfirst : (nodes 0).Listed) (msgAttributes : UInt8) (old : Nodes) (rest : Bytes) :
    ∃ pad, Padding pad ∧
      decodeNodelist old (UInt8.ofNat (encodeNodelist nodes msgAttributes).length ::
        encodeNodelist nodes msgAttributes ++ rest) msgAttributes =
      some (fun n => if (nodes n).Listed then
        (old n).carried (hasElevation msgAttributes) (hasWidth nodes) (nodes n) else old n,
        pad ++ rest) := by
  obtain ⟨k, hk, hused⟩ := hleading.exists_count
  have hpos : 0 < k := (hused 0).mp hfirst
  obtain ⟨k, rfl⟩ : ∃ j, k = j + 1 := ⟨k - 1, by omega⟩
  have hlist : nodelist (hasElevation msgAttributes) (hasWidth nodes) nodes =
      ((List.finRange maxnodes).take (k + 1)).flatMap fun n =>
        (nodes n).values (hasElevation msgAttributes) (hasWidth nodes) := flatMap_used hused _
  obtain ⟨last, hend, -, hresult⟩ := decodeNodelist_listText hk hlist old rest
  obtain ⟨pad, hpad, hlast⟩ := hend.padding
  refine ⟨pad, hpad, ?_⟩
  rw [encodeNodelist_eq, List.length_cons, List.cons_append, List.cons_append, hresult, hlast]
  simp only [hused]

end RoundTrip
end V2IHub.Map
