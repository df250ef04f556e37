import Mathlib.Data.List.GetD
import V2IHub.Map.NodeList

/-! When `decode_nodelist` restores the nodes that `encode_nodelist` wrote, and stops where it
stopped. -/
namespace V2IHub.Map
open V2IHub.Foundation

/-- The node array of a lane or a barrier with these nodes. -/
def slots (nodes : List MapNode) : Nodes := fun n => nodes.getD n .zero

/-- Decoded into a cleared array, the list gives the same nodes and ends where it was ended. -/
def RestoresNodes (nodes : List MapNode) (msgAttributes : UInt8) (rest : Bytes) : Prop :=
  decodeNodelist (slots []) (UInt8.ofNat (encodeNodelist (slots nodes) msgAttributes).length ::
    encodeNodelist (slots nodes) msgAttributes ++ rest) msgAttributes = some (slots nodes, rest)

/-- All fields have at most twelve bits. -/
def MapNode.Short (node : MapNode) : Prop :=
  ∀ v ∈ [node.eastern.toInt, node.northern.toInt, node.elevation.toInt, node.width.toInt],
    -2048 ≤ v ∧ v ≤ 2047

/-- There are nodes, none on an axis, elevations only in a message with elevations, and an even
number of values if they are packed. -/
structure NodesKept (nodes : List MapNode) (msgAttributes : UInt8) : Prop where
  ne_nil : nodes ≠ []
  listed : ∀ node ∈ nodes, node.Listed
  elevation : hasElevation msgAttributes = true ∨ ∀ node ∈ nodes, node.elevation = 0
  even : (∀ node ∈ nodes, node.Short) → Even nodes.length ∨
    (hasElevation msgAttributes = true ↔ ∃ node ∈ nodes, node.width ≠ 0)

section Slots
variable {nodes : List MapNode}

theorem map_slots (h : nodes.length ≤ maxnodes) :
    (List.finRange maxnodes).map (slots nodes) =
      nodes ++ List.replicate (maxnodes - nodes.length) .zero := by
  apply List.ext_getElem
  · rw [List.length_map, List.length_finRange, List.length_append, List.length_replicate]
    omega
  · intro i hi hi'
    rw [List.getElem_map, List.getElem_finRange, slots, List.getD_eq_getElem?_getD]
    simp only [Fin.cast_mk]
    by_cases hn : i < nodes.length
    · rw [List.getElem_append_left hn, List.getElem?_eq_getElem hn, Option.getD_some]
    · rw [List.getElem_append_right (not_lt.mp hn), List.getElem_replicate,
        List.getElem?_eq_none (not_lt.mp hn), Option.getD_none]

theorem hasWidth_slots (h : nodes.length ≤ maxnodes) :
    hasWidth (slots nodes) = true ↔ ∃ node ∈ nodes, node.width ≠ 0 := by
  have hany : hasWidth (slots nodes) =
      ((List.finRange maxnodes).map (slots nodes)).any fun node => node.width ≠ 0 := by
    rw [hasWidth, List.any_map]
    rfl
  have hzero : ((List.replicate (maxnodes - nodes.length) MapNode.zero).any fun node =>
      decide (node.width ≠ 0)) = false := by
    rw [List.any_eq_false]
    intro node hnode
    rw [List.eq_of_mem_replicate hnode]
    decide
  rw [hany, map_slots h, List.any_append, hzero, Bool.or_false]
  simp

/-- The listed nodes are what the encoder takes from the array. -/
theorem nodelist_slots (h : nodes.length ≤ maxnodes) (elevation width : Bool) :
    nodelist elevation width (slots nodes) =
      (nodes.filter fun node => node.Listed).flatMap fun node => node.values elevation width := by
  have hzero : (List.replicate (maxnodes - nodes.length) MapNode.zero).filter
      (fun node => decide node.Listed) = [] := by
    rw [List.filter_eq_nil_iff]
    intro node hnode
    rw [List.eq_of_mem_replicate hnode]
    decide
  have hfilter : ((List.finRange maxnodes).filter fun n => (slots nodes n).Listed).map
      (slots nodes) = nodes.filter fun node => node.Listed := by
    have hmap : ((List.finRange maxnodes).map (slots nodes)).filter (fun node => node.Listed) =
        ((List.finRange maxnodes).filter fun n => (slots nodes n).Listed).map (slots nodes) :=
      List.filter_map
    rw [← hmap, map_slots h, List.filter_append, hzero, List.append_nil]
  rw [nodelist_eq, ← hfilter, List.flatMap_map]

theorem take_slots (h : nodes.length ≤ maxnodes) (elevation width : Bool) :
    (((List.finRange maxnodes).take nodes.length).flatMap fun n =>
      (slots nodes n).values elevation width) =
      nodes.flatMap fun node => node.values elevation width := by
  have hmap : ((List.finRange maxnodes).take nodes.length).map (slots nodes) = nodes := by
    rw [List.map_take, map_slots h, List.take_left]
  conv_rhs => rw [← hmap, List.flatMap_map]

/-- Without zero nodes behind the shorter list, the arrays differ if the lists do. -/
theorem slots_inj {nodes' : List MapNode} (h : nodes.length ≤ maxnodes)
    (hne : ∀ node ∈ nodes, node ≠ .zero) (hle : nodes'.length ≤ nodes.length) :
    slots nodes' = slots nodes ↔ nodes' = nodes := by
  refine ⟨fun hslots => ?_, fun heq => by rw [heq]⟩
  have hlists : nodes' ++ List.replicate (maxnodes - nodes'.length) .zero =
      nodes ++ List.replicate (maxnodes - nodes.length) .zero := by
    rw [← map_slots (hle.trans h), ← map_slots h, hslots]
  rcases hle.lt_or_eq with hlt | heq
  · exfalso
    have hget := congrArg (fun l => l.getD nodes'.length .zero) hlists
    simp only [List.getD_append_right _ _ _ _ le_rfl, List.getD_append _ _ _ _ hlt] at hget
    apply hne _ (List.getElem_mem hlt)
    rw [List.getD_eq_getElem _ _ hlt] at hget
    rw [← hget, Nat.sub_self]
    cases maxnodes - nodes'.length <;> rfl
  · exact List.append_inj_left hlists heq

end Slots

section Values
variable {elevation width : Bool} {node : MapNode} {nodes : List MapNode}

theorem MapNode.values_length :
    (node.values elevation width).length =
      2 + (if elevation then 1 else 0) + (if width then 1 else 0) := by
  cases elevation <;> cases width <;> rfl

theorem flatMap_values_even :
    Even (nodes.flatMap fun node => node.values elevation width).length ↔
      Even nodes.length ∨ elevation = width := by
  have hlength : (nodes.flatMap fun node => node.values elevation width).length =
      nodes.length * (2 + (if elevation then 1 else 0) + (if width then 1 else 0)) := by
    rw [List.length_flatMap]
    simp only [MapNode.values_length, List.map_const', List.sum_replicate, smul_eq_mul]
  have htwo : Even 2 := by decide
  have hthree : ¬ Even 3 := by decide
  have hfour : Even 4 := by decide
  rw [hlength, Nat.even_mul]
  cases elevation <;> cases width <;> simp [htwo, hthree, hfour]

/-- A slot that was cleared takes the whole node over if nothing of it is left out. -/
theorem MapNode.carried_zero_eq_self_iff :
    MapNode.zero.carried elevation width node = node ↔
      (elevation = true ∨ node.elevation = 0) ∧ (width = true ∨ node.width = 0) := by
  obtain ⟨e, n, z, w⟩ := node
  cases elevation <;> cases width <;> simp [MapNode.carried, MapNode.zero, eq_comm]

theorem fitsPacked_flatMap_values
    (hwhole : ∀ node ∈ nodes, MapNode.zero.carried elevation width node = node) :
    fitsPacked (nodes.flatMap fun node => node.values elevation width) = true ↔
      ∀ node ∈ nodes, node.Short := by
  simp only [fitsPacked, List.all_flatMap, List.all_eq_true]
  refine forall₂_congr fun node hnode => ?_
  obtain ⟨helevation, hwidth⟩ := MapNode.carried_zero_eq_self_iff.mp (hwhole node hnode)
  cases elevation <;> cases width <;>
    simp_all [MapNode.values, MapNode.Short] <;> omega

end Values

section Decoding
variable {nodes : List MapNode} {rest : Bytes}

theorem Mode.iterate_next_word (n : ℕ) : Mode.next^[n] .word = .word := by
  induction n with
  | zero => rfl
  | succ n ih => rw [Function.iterate_succ_apply', ih, next]

theorem Mode.iterate_next_whole (n : ℕ) :
    Mode.next^[n] .whole = if Even n then .whole else .half := by
  induction n with
  | zero => rfl
  | succ n ih =>
    rw [Function.iterate_succ_apply', ih]
    by_cases h : Even n <;> simp [Nat.even_add_one, h, next]

/-- Only half a byte is left unread. -/
theorem Holds.rest_eq_iff {last : Mode × Bytes} (h : Holds [] rest last) :
    last.2 = rest ↔ last.1 ≠ .half := by
  obtain ⟨mode, bytes⟩ := last
  cases mode with
  | word => simpa [Holds] using h
  | whole => simpa [Holds, packValues] using h.2
  | half =>
    obtain ⟨-, before, hbytes⟩ := h
    simp only [packHalf] at hbytes
    simp [hbytes]

end Decoding

section RoundTrip
variable {nodes : List MapNode} (msgAttributes : UInt8)

/-- The nodes off the axes come back, without the fields that the list leaves out. -/
theorem decodeNodelist_slots (h : nodes.length ≤ maxnodes) {listed : List MapNode} {width : Bool}
    (hlisted : nodes.filter (fun node => node.Listed) = listed) (hne : listed ≠ [])
    (hwidth : hasWidth (slots nodes) = width) {list : List ℤ}
    (hlist : (listed.flatMap fun node => node.values (hasElevation msgAttributes) width) = list)
    (rest : Bytes) :
    ∃ last, Holds [] rest last ∧
      last.1 = Mode.next^[list.length] (if fitsPacked list then .whole else .word) ∧
      decodeNodelist (slots []) (UInt8.ofNat (encodeNodelist (slots nodes) msgAttributes).length ::
        encodeNodelist (slots nodes) msgAttributes ++ rest) msgAttributes =
      some (slots (listed.map (MapNode.zero.carried (hasElevation msgAttributes) width)),
        last.2) := by
  have hlength : listed.length ≤ maxnodes := by
    rw [← hlisted]
    exact (List.length_filter_le _ _).trans h
  obtain ⟨k, hk⟩ : ∃ k, listed.length = k + 1 :=
    Nat.exists_eq_add_one.mpr (List.length_pos_iff.mpr hne)
  have htake := take_slots hlength (hasElevation msgAttributes) width
  rw [hk, hlist] at htake
  obtain ⟨last, hend, hmode, hresult⟩ :=
    decodeNodelist_listText (by omega : k < maxnodes) htake.symm (slots []) rest
  refine ⟨last, hend, hmode, ?_⟩
  rw [encodeNodelist_eq, nodelist_slots h, hwidth, hlisted, hlist, List.length_cons,
    List.cons_append, List.cons_append, hresult, Option.some.injEq, Prod.mk.injEq]
  refine ⟨?_, rfl⟩
  funext n
  have hzero : slots [] n = .zero := rfl
  rw [hzero, ← hk]
  by_cases hn : n.val < listed.length <;> simp [slots, hn]

/-- What is left to be kept where no node is on an axis. -/
theorem nodesKept_iff (h : nodes.length ≤ maxnodes) (hnodes : nodes ≠ [])
    (hlisted : ∀ node ∈ nodes, node.Listed) {width : Bool} (hwidth : hasWidth (slots nodes) = width)
    {mode : Mode} {list : List ℤ}
    (hlist : (nodes.flatMap fun node => node.values (hasElevation msgAttributes) width) = list)
    (hmode : mode = Mode.next^[list.length] (if fitsPacked list then .whole else .word)) :
    (∀ node ∈ nodes, MapNode.zero.carried (hasElevation msgAttributes) width node = node) ∧
      mode ≠ .half ↔ NodesKept nodes msgAttributes := by
  have hsome : width = true ↔ ∃ node ∈ nodes, node.width ≠ 0 := hwidth ▸ hasWidth_slots h
  have hsame : hasElevation msgAttributes = width ↔
      (hasElevation msgAttributes = true ↔ ∃ node ∈ nodes, node.width ≠ 0) := by
    rw [← hsome]
    exact Bool.eq_iff_iff
  have hhalf (hwhole : ∀ node ∈ nodes,
      MapNode.zero.carried (hasElevation msgAttributes) width node = node) :
      mode ≠ .half ↔ ((∀ node ∈ nodes, node.Short) → Even nodes.length ∨
        hasElevation msgAttributes = width) := by
    rw [hmode, ← fitsPacked_flatMap_values hwhole, hlist, ← flatMap_values_even, hlist]
    by_cases hfits : fitsPacked list
    · rw [if_pos hfits, Mode.iterate_next_whole]
      by_cases heven : Even list.length <;> simp [heven, hfits]
    · rw [if_neg hfits, Mode.iterate_next_word]
      simp [hfits]
  constructor
  · rintro ⟨hwhole, hlast⟩
    refine ⟨hnodes, hlisted, ?_, ?_⟩
    · cases helevation : hasElevation msgAttributes with
      | true => exact .inl rfl
      | false =>
        refine .inr fun node hnode => ?_
        have hnode' := (MapNode.carried_zero_eq_self_iff.mp (hwhole node hnode)).1
        simpa [helevation] using hnode'
    · rw [← hsame]
      exact (hhalf hwhole).mp hlast
  · rintro ⟨-, -, helevation, heven⟩
    have hwhole : ∀ node ∈ nodes,
        MapNode.zero.carried (hasElevation msgAttributes) width node = node := by
      intro node hnode
      refine MapNode.carried_zero_eq_self_iff.mpr
        ⟨helevation.imp_right fun hall => hall node hnode, ?_⟩
      by_contra hnot
      rw [not_or] at hnot
      exact hnot.1 (hsome.mpr ⟨node, hnode, hnot.2⟩)
    rw [← hsame] at heven
    exact ⟨hwhole, (hhalf hwhole).mpr heven⟩

/-- The list is restored exactly if it is kept. -/
theorem restoresNodes_iff (h : nodes.length ≤ maxnodes) (hne : ∀ node ∈ nodes, node ≠ .zero)
    (rest : Bytes) : RestoresNodes nodes msgAttributes rest ↔ NodesKept nodes msgAttributes := by
  by_cases hnil : nodes.filter (fun node => node.Listed) = []
  · refine iff_of_false (fun hrestores => ?_) fun hkept => ?_
    · have hlt := decodeNodelist_lt hrestores
      rw [encodeNodelist_eq, nodelist_slots h, hnil, List.flatMap_nil, listText] at hlt
      simp [fitsPacked, packValues] at hlt
    · obtain ⟨node, hnode⟩ := List.exists_mem_of_ne_nil _ hkept.ne_nil
      have hmem : node ∈ nodes.filter fun node => node.Listed :=
        List.mem_filter.mpr ⟨hnode, decide_eq_true (hkept.listed node hnode)⟩
      rw [hnil] at hmem
      exact absurd hmem List.not_mem_nil
  · obtain ⟨last, hend, hmode, hresult⟩ :=
      decodeNodelist_slots msgAttributes h rfl hnil rfl rfl rest
    have hlength : ((nodes.filter fun node => node.Listed).map (MapNode.zero.carried
        (hasElevation msgAttributes) (hasWidth (slots nodes)))).length ≤ nodes.length := by
      rw [List.length_map]
      exact List.length_filter_le _ _
    rw [RestoresNodes, hresult, Option.some.injEq, Prod.mk.injEq, hend.rest_eq_iff,
      slots_inj h hne hlength]
    by_cases hlisted : ∀ node ∈ nodes, node.Listed
    · have hall : nodes.filter (fun node => node.Listed) = nodes :=
        List.filter_eq_self.mpr fun node hnode => decide_eq_true (hlisted node hnode)
      rw [hall] at hnil hmode ⊢
      rw [← nodesKept_iff msgAttributes h hnil hlisted rfl rfl hmode]
      refine and_congr_left fun _ => ?_
      have hid := List.map_inj_left (l := nodes) (f := MapNode.zero.carried
        (hasElevation msgAttributes) (hasWidth (slots nodes))) (g := id)
      rw [List.map_id] at hid
      exact hid
    · refine iff_of_false (fun hsame => hlisted fun node hnode => ?_) fun hkept =>
        hlisted hkept.listed
      have hcount := congrArg List.length hsame.1
      rw [List.length_map, List.length_filter_eq_length_iff] at hcount
      exact of_decide_eq_true (hcount node hnode)

end RoundTrip

/-- Two nodes with elevations. -/
theorem restoresNodes_two : RestoresNodes [⟨25, -40, 3, 0⟩, ⟨7, 9, -1, 0⟩] 1 [255] := by
  apply (restoresNodes_iff 1 (by decide) (by decide) [255]).mpr
  exact ⟨by decide, by decide, .inl rfl, fun _ => .inl (by decide)⟩

/-- Behind one node with an elevation half a byte is left. -/
theorem restoresNodes_fails : [(⟨25, -40, 3, 0⟩ : MapNode)].length ≤ maxnodes ∧
    (∀ node ∈ [(⟨25, -40, 3, 0⟩ : MapNode)], node ≠ .zero) ∧
    ¬ RestoresNodes [⟨25, -40, 3, 0⟩] 1 [255] := by
  refine ⟨by decide, by simp [MapNode.zero], ?_⟩
  unfold RestoresNodes
  decide +kernel

end V2IHub.Map
