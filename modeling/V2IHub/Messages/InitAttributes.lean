import V2IHub.Messages.RouteableMessage

/-! What `set_contents` makes of an object: the attributes that it reads from the new structure, and
what it leaves of the old ones. -/
namespace V2IHub.Messages
open Foundation Api

namespace Routed

/-- What `get` of a bound attribute changes. -/
structure Got (r : Routed) (m : IvpMessage) (h : Header) (v : h.Val) (r' : Routed) : Prop where
  cached : (r'.attrs h)._attribute = some v
  bounded : (r'.attrs h).storage_version = r'.msg.storage_version
  newer : r.msg.storage_version < r'.msg.storage_version
  stored : r'.msg.tree.dataAt h.attr.path = some (h.attr.cast.toText v)
  others : ∀ path, ¬ h.attr.path <+: path → ¬ path <+: h.attr.path →
    r'.msg.tree.getChild path = r.msg.tree.getChild path
  attrs : ∀ h', h' ≠ h → r'.attrs h' = r.attrs h'
  active : (r'.attrs h).active = .field
  kept : (h.attr.given (h.attr.read m)).isSome →
    r'.ivpMsg = some m ∧ (r'.attrs h)._str = (r.attrs h)._str
  filled : h.attr.given (h.attr.read m) = none →
    r'.ivpMsg = some (h.attr.write m v) ∧ (h.attr.isString = true → (r'.attrs h)._str = .shared)

theorem get_spec {r : Routed} {m : IvpMessage} {h : Header} (hm : r.ivpMsg = some m)
    (hactive : (r.attrs h).active = .field) (hdsrc : h.isDsrc = false) :
    ∀ v, r.value h = v →
      match v with
      | none => r.get h = none
      | some x => ∃ r', r.get h = some (x, r') ∧ Got r m h x r' := by
  intro v hv
  have hw : (r.attrs h).Writable h.attr r.ivpMsg :=
    fun _ => ⟨m, hm, Header.read_write m hdsrc⟩
  have hspec := Wrapped.get_spec hw r.msg v hv
  cases v with
  | none => simp only [get, hspec, Option.map_none]
  | some x =>
    obtain ⟨w, msg, ivpMsg, hget, hgot⟩ := hspec
    simp only [get, hget, Option.map_some]
    have hself : Function.update r.attrs h w h = w := Function.update_self _ _ _
    refine ⟨_, rfl, ⟨?_, ?_, hgot.newer, hgot.stored, hgot.others, ?_, ?_, ?_, ?_⟩⟩
    · exact (congrArg Wrapped._attribute hself).trans hgot.cached
    · exact (congrArg Wrapped.storage_version hself).trans hgot.bounded
    · exact fun h' hne => Function.update_of_ne hne _ _
    · refine (congrArg Wrapped.active hself).trans ?_
      cases hgiven : h.attr.given (h.attr.read m) with
      | none => exact (hgot.filled m hactive hm hgiven).2.1
      | some x => exact (hgot.kept m hactive hm (by rw [hgiven]; rfl)).2.1
    · intro hgiven
      obtain ⟨hmsg, -, hstr⟩ := hgot.kept m hactive hm hgiven
      exact ⟨hmsg.trans hm, (congrArg Wrapped._str hself).trans hstr⟩
    · intro hgiven
      obtain ⟨hmsg, -, hstr⟩ := hgot.filled m hactive hm hgiven
      exact ⟨hmsg, fun hstring => (congrArg Wrapped._str hself).trans (hstr hstring)⟩

/-- What the tree says of an attribute. -/
def inTree (r : Routed) (h : Header) : Option h.Val :=
  h.attr.cast.fromText ((r.msg.tree.dataAt h.attr.path).getD h.attr.default_value)

/-- The value that a bound attribute gets from the structure, or else from the tree. -/
def initial (r : Routed) (m : IvpMessage) (h : Header) : Option h.Val :=
  match h.attr.given (h.attr.read m) with
  | some x => some x
  | none =>
    if h.attr.isString = true ∧ (r.attrs h)._str = .freed then none
    else (r.inTree h).map h.attr.copy

/-- What reading a list of bound attributes one after the other changes, when it gives these
values. -/
structure GotAll (r : Routed) (m : IvpMessage) (hs : List Header)
    (val : (h : Header) → Option h.Val) (r' : Routed) (m' : IvpMessage) : Prop where
  msg : r'.ivpMsg = some m'
  payload : m'.payload = m.payload
  dsrcMetadata : m'.dsrcMetadata = m.dsrcMetadata
  read : ∀ h ∈ hs, h.attr.given (h.attr.read m) = none → h.attr.read m' = val h
  same : ∀ h, (h ∈ hs → (h.attr.given (h.attr.read m)).isSome) → h.attr.read m' = h.attr.read m
  shared : ∀ h ∈ hs, h.attr.given (h.attr.read m) = none → h.attr.isString = true →
    (r'.attrs h)._str = .shared
  cached : ∀ h ∈ hs, (r'.attrs h)._attribute = val h
  stored : ∀ h ∈ hs, r'.msg.tree.dataAt h.attr.path = (val h).map h.attr.cast.toText
  others : ∀ path, (∀ h ∈ hs, ¬ h.attr.path <+: path ∧ ¬ path <+: h.attr.path) →
    r'.msg.tree.getChild path = r.msg.tree.getChild path
  attrs : ∀ h, h ∉ hs → r'.attrs h = r.attrs h
  active : ∀ h ∈ hs, (r'.attrs h).active = .field
  bounded : ∀ h ∈ hs, (r'.attrs h).storage_version ≤ r'.msg.storage_version
  newer : r.msg.storage_version ≤ r'.msg.storage_version
  strictly : hs ≠ [] → r.msg.storage_version < r'.msg.storage_version

section Got
variable {r r' : Routed} {m : IvpMessage} {h h' : Header} {v : h.Val}

/-- The structure after `get`: only the field of the attribute may have changed. -/
theorem Got.message (hgot : Got r m h v r') (hdsrc : h.isDsrc = false) :
    ∃ m', r'.ivpMsg = some m' ∧ m'.payload = m.payload ∧ m'.dsrcMetadata = m.dsrcMetadata ∧
      (∀ h', h' ≠ h → h'.attr.read m' = h'.attr.read m) ∧
      ((h.attr.given (h.attr.read m)).isSome → h.attr.read m' = h.attr.read m) ∧
      (h.attr.given (h.attr.read m) = none → h.attr.read m' = some v) := by
  cases hgiven : h.attr.given (h.attr.read m) with
  | some x =>
    refine ⟨m, (hgot.kept (by rw [hgiven]; rfl)).1, rfl, rfl, fun _ _ => rfl, fun _ => rfl, ?_⟩
    intro hnone
    cases hnone
  | none =>
    have hrest := Header.write_rest m hdsrc v
    refine ⟨_, (hgot.filled hgiven).1, hrest.2, hrest.1, ?_, ?_, ?_⟩
    · exact fun h' hne => Header.read_write_of_ne m hdsrc hne v
    · intro hsome
      cases hsome
    · exact fun _ => Header.read_write m hdsrc v

theorem Got.inTree (hgot : Got r m h v r') (hne : h' ≠ h) : r'.inTree h' = r.inTree h' := by
  rw [Routed.inTree, Routed.inTree, PTree.dataAt, PTree.dataAt,
    hgot.others _ (Header.path_not_prefix hne.symm) (Header.path_not_prefix hne)]

theorem Got.initial (hgot : Got r m h v r') (hne : h' ≠ h) {m' : IvpMessage}
    (hread : h'.attr.read m' = h'.attr.read m) : r'.initial m' h' = r.initial m h' := by
  rw [Routed.initial, Routed.initial, hread, hgot.attrs h' hne, hgot.inTree hne]

end Got

/-- A bound attribute that holds nothing current is read from the structure or from the tree. -/
theorem value_eq_initial {r : Routed} {m : IvpMessage} {h : Header} (hm : r.ivpMsg = some m)
    (hactive : (r.attrs h).active = .field)
    (hstale : (r.attrs h).storage_version < r.msg.storage_version) :
    r.value h = r.initial m h := by
  rw [value, hm, Wrapped.value_field hactive, initial, inTree, Wrapped.base_get_stale _ hstale]
  cases h.attr.given (h.attr.read m) <;> rfl

/-- A first attribute before the rest of the list. -/
theorem GotAll.cons {r r₁ r' : Routed} {m m₁ m' : IvpMessage} {h : Header} {hs : List Header}
    {v : h.Val} {val : (h : Header) → Option h.Val} (hgot : Got r m h v r₁)
    (hm₁ : r₁.ivpMsg = some m₁) (hdsrc : h.isDsrc = false) (hnot : h ∉ hs) (hval : val h = some v)
    (hdone : GotAll r₁ m₁ hs val r' m') : GotAll r m (h :: hs) val r' m' := by
  obtain ⟨m₂, hm₂, hpayload, hmetadata, hother, hkept, hfilled⟩ := hgot.message hdsrc
  obtain rfl : m₁ = m₂ := Option.some.inj (hm₁.symm.trans hm₂)
  have hne : ∀ h' ∈ hs, h' ≠ h := by
    rintro h' hmem rfl
    exact hnot hmem
  have hattrs := hdone.attrs h hnot
  constructor
  case msg => exact hdone.msg
  case payload => exact hdone.payload.trans hpayload
  case dsrcMetadata => exact hdone.dsrcMetadata.trans hmetadata
  case read =>
    intro h' hmem hnone
    rcases List.mem_cons.mp hmem with rfl | hmem
    · rw [hdone.same h' fun hmem => absurd hmem hnot, hfilled hnone, hval]
    · exact hdone.read h' hmem (by rw [hother h' (hne h' hmem)]; exact hnone)
  case same =>
    intro h' hsome
    by_cases heq : h' = h
    · subst heq
      rw [hdone.same h' fun hmem => absurd hmem hnot, hkept (hsome List.mem_cons_self)]
    · rw [← hother h' heq]
      apply hdone.same
      intro hmem
      rw [hother h' heq]
      exact hsome (List.mem_cons_of_mem _ hmem)
  case shared =>
    refine List.forall_mem_cons.mpr ⟨fun hnone hstring => ?_, fun h' hmem hnone => ?_⟩
    · rw [hattrs]
      exact (hgot.filled hnone).2 hstring
    · exact hdone.shared h' hmem (by rw [hother h' (hne h' hmem)]; exact hnone)
  case cached =>
    refine List.forall_mem_cons.mpr ⟨?_, hdone.cached⟩
    rw [hattrs, hgot.cached, hval]
  case stored =>
    refine List.forall_mem_cons.mpr ⟨?_, hdone.stored⟩
    rw [PTree.dataAt, hdone.others, ← PTree.dataAt, hgot.stored, hval, Option.map_some]
    exact fun h' hmem => ⟨Header.path_not_prefix (hne h' hmem),
      Header.path_not_prefix (hne h' hmem).symm⟩
  case others =>
    intro path hpath
    rw [List.forall_mem_cons] at hpath
    rw [hdone.others path hpath.2, hgot.others path hpath.1.1 hpath.1.2]
  case attrs =>
    intro h' hnot'
    rw [List.mem_cons, not_or] at hnot'
    rw [hdone.attrs h' hnot'.2, hgot.attrs h' hnot'.1]
  case active => exact List.forall_mem_cons.mpr ⟨hattrs ▸ hgot.active, hdone.active⟩
  case bounded =>
    refine List.forall_mem_cons.mpr ⟨?_, hdone.bounded⟩
    rw [hattrs, hgot.bounded]
    exact hdone.newer
  case newer => exact hgot.newer.le.trans hdone.newer
  case strictly => exact fun _ => hgot.newer.trans_le hdone.newer

theorem getAll_spec (hs : List Header) (hnodup : hs.Nodup) (r : Routed) (m : IvpMessage)
    (val : (h : Header) → Option h.Val) (hval : ∀ h ∈ hs, val h = r.initial m h)
    (hm : r.ivpMsg = some m) (hdsrc : ∀ h ∈ hs, h.isDsrc = false)
    (hactive : ∀ h ∈ hs, (r.attrs h).active = .field)
    (hstale : ∀ h ∈ hs, (r.attrs h).storage_version < r.msg.storage_version) :
    ((∀ h ∈ hs, (val h).isSome) →
      ∃ r' m', hs.foldlM (fun r h => (r.get h).map Prod.snd) r = some r' ∧
        GotAll r m hs val r' m') ∧
    ((∃ h ∈ hs, val h = none) → hs.foldlM (fun r h => (r.get h).map Prod.snd) r = none) := by
  induction hs generalizing r m with
  | nil =>
    refine ⟨fun _ => ⟨r, m, rfl, ?_⟩, by simp⟩
    constructor <;> simp [hm]
  | cons h hs ih =>
    rw [List.nodup_cons] at hnodup
    rw [List.forall_mem_cons] at hdsrc hactive hstale hval
    have hvalue := (value_eq_initial hm hactive.1 hstale.1).trans hval.1.symm
    have hspec := get_spec hm hactive.1 hdsrc.1 _ hvalue
    rw [List.foldlM_cons, List.forall_mem_cons, List.exists_mem_cons_iff]
    cases hfirst : val h with
    | none =>
      rw [hfirst] at hspec
      rw [hspec]
      exact ⟨fun hall => by simp at hall, fun _ => rfl⟩
    | some v =>
      rw [hfirst] at hspec
      obtain ⟨r₁, hget, hgot⟩ := hspec
      obtain ⟨m₁, hm₁, -, -, hother, -, -⟩ := hgot.message hdsrc.1
      have hne : ∀ h' ∈ hs, h' ≠ h := by
        rintro h' hmem rfl
        exact hnodup.1 hmem
      have hrest := ih hnodup.2 r₁ m₁
        (fun h' hmem => (hval.2 h' hmem).trans
          (hgot.initial (hne h' hmem) (hother h' (hne h' hmem))).symm) hm₁ hdsrc.2
        (fun h' hmem => (hgot.attrs h' (hne h' hmem)).symm ▸ hactive.2 h' hmem)
        (fun h' hmem => by
          rw [hgot.attrs h' (hne h' hmem)]
          exact (hstale.2 h' hmem).trans hgot.newer)
      simp only [Option.isSome_some, true_and, hget, Option.map_some, Option.bind_eq_bind,
        Option.bind_some, reduceCtorEq, false_or]
      refine ⟨fun hall => ?_, hrest.2⟩
      obtain ⟨r', m', hfold, hdone⟩ := hrest.1 hall
      exact ⟨r', m', hfold, .cons hgot hm₁ hdsrc.1 hnodup.1 hfirst hdone⟩

/-- The object when the attributes are bound to the new structure and none of them was read. -/
def bound (r : Routed) (m : IvpMessage) : Routed := r.destroy.bindTo m

/-- The values that `init_attributes` reads. The first attribute may still hold what is current. -/
def initValue (r : Routed) (m : IvpMessage) (h : Header) : Option h.Val :=
  if h = .type then (r.bound m).value h else (r.bound m).initial m h

theorem destroy_attrs {r : Routed} (hr : r.Valid) (h : Header) :
    r.destroy.attrs h = (r.attrs h).orphan := by
  rw [destroy]
  split_ifs with hmsg
  · rfl
  · obtain ⟨⟨v, hactive⟩, hstr⟩ := hr.loose (Option.not_isSome_iff_eq_none.mp hmsg) h
    rw [Wrapped.orphan, hactive, hstr]
    exact congrArg₂ (Wrapped.mk _ _) hactive hstr

theorem destroy_msg (r : Routed) : r.destroy.msg = r.msg := by
  rw [destroy]
  split_ifs <;> rfl

section Bound
variable {r : Routed} {m : IvpMessage} {h : Header}

theorem bound_attrs (hr : r.Valid) (h : Header) : (r.bound m).attrs h =
    if h.isDsrc ∧ m.dsrcMetadata = none then (r.attrs h).orphan else (r.attrs h).orphan.bind := by
  rw [← destroy_attrs hr]
  rfl

theorem bound_str (hr : r.Valid) : ((r.bound m).attrs h)._str = .freed ↔
    (r.attrs h)._str ≠ .own := by
  rw [bound_attrs hr]
  have hstr : ((r.attrs h).orphan._str = .freed ↔ (r.attrs h)._str ≠ .own) := by
    rw [Wrapped.orphan]
    cases (r.attrs h)._str <;> simp
  split_ifs
  · exact hstr
  · exact hstr

theorem bound_version (hr : r.Valid) :
    ((r.bound m).attrs h).storage_version = (r.attrs h).storage_version := by
  rw [bound_attrs hr]
  split_ifs <;> rfl

theorem bound_active (hr : r.Valid) (hdsrc : h.isDsrc = false) :
    ((r.bound m).attrs h).active = .field := by
  rw [bound_attrs hr, if_neg fun hand => by simp [hdsrc] at hand]
  rfl

theorem bound_inTree : (r.bound m).inTree h = r.inTree h :=
  congrArg (fun container : Container => h.attr.cast.fromText
    ((container.tree.dataAt h.attr.path).getD h.attr.default_value)) (destroy_msg r)

end Bound

/-- What `set_contents` does with a structure. -/
theorem setContents_spec (now : BitVec 64) {r : Routed} (hr : r.Valid) (m : IvpMessage) :
    ((∀ h ∈ initOrder, (r.initValue m h).isSome) →
      ∃ r' m', r.setContents now (some m) = some r' ∧
        GotAll (r.bound m) m initOrder (r.initValue m) r' m') ∧
    ((∃ h ∈ initOrder, r.initValue m h = none) → r.setContents now (some m) = none) := by
  have hactive : ∀ h, h.isDsrc = false → ((r.bound m).attrs h).active = .field :=
    fun h hdsrc => bound_active hr hdsrc
  have hspec := get_spec (r := r.bound m) (m := m) rfl (hactive .type rfl) rfl _ rfl
  have hfirst : r.initValue m .type = (r.bound m).value .type := if_pos rfl
  change (_ → ∃ r' m', (r.bound m).initAttributes = some r' ∧ _) ∧
    (_ → (r.bound m).initAttributes = none)
  rw [initAttributes, initOrder, List.foldlM_cons, List.forall_mem_cons, List.exists_mem_cons_iff,
    hfirst]
  cases hvalue : (r.bound m).value .type with
  | none =>
    rw [hvalue] at hspec
    rw [hspec]
    exact ⟨fun hall => by simp at hall, fun _ => rfl⟩
  | some v =>
    rw [hvalue] at hspec
    obtain ⟨r₁, hget, hgot⟩ := hspec
    obtain ⟨m₁, hm₁, -, -, hother, -, -⟩ := hgot.message rfl
    have hne : ∀ h ∈ [Header.subtype, .encoding, .timestamp, .flags],
        h ≠ .type ∧ h.isDsrc = false := by
      simp [Header.isDsrc]
    have hrest := getAll_spec [.subtype, .encoding, .timestamp, .flags] (by decide) r₁ m₁
      (r.initValue m)
      (fun h hmem => by
        rw [initValue, if_neg (hne h hmem).1]
        exact (hgot.initial (hne h hmem).1 (hother h (hne h hmem).1)).symm)
      hm₁ (fun h hmem => (hne h hmem).2)
      (fun h hmem => (hgot.attrs h (hne h hmem).1).symm ▸ hactive h (hne h hmem).2)
      (fun h hmem => by
        rw [hgot.attrs h (hne h hmem).1, bound_version hr]
        refine lt_of_le_of_lt (hr.bounded h) (lt_of_eq_of_lt ?_ hgot.newer)
        rw [bound, bindTo, destroy_msg])
    simp only [Option.isSome_some, true_and, hget, Option.map_some, Option.bind_eq_bind,
      Option.bind_some, reduceCtorEq, false_or]
    refine ⟨fun hall => ?_, hrest.2⟩
    obtain ⟨r', m', hfold, hdone⟩ := hrest.1 hall
    exact ⟨r', m', hfold, .cons hgot hm₁ rfl (by decide) (hfirst.trans hvalue) hdone⟩

section Values
variable {now : BitVec 64} {r r' : Routed} {m m' : IvpMessage} {h : Header}

theorem bound_msg (r : Routed) (m : IvpMessage) : (r.bound m).msg = r.msg := destroy_msg r

theorem GotAll.valid (hr : r.Valid)
    (hdone : GotAll (r.bound m) m initOrder (r.initValue m) r' m') : r'.Valid := by
  constructor
  case bounded =>
    intro h
    by_cases hmem : h ∈ initOrder
    · exact hdone.bounded h hmem
    · rw [hdone.attrs h hmem, bound_version hr]
      exact (hr.bounded h).trans ((congrArg Container.storage_version (bound_msg r m)).symm.le.trans
        hdone.newer)
  case bound =>
    intro _ h hdsrc
    by_cases hmem : h ∈ initOrder
    · exact hdone.active h hmem
    · rw [hdone.attrs h hmem]
      exact bound_active hr hdsrc
  case loose =>
    intro hnone
    rw [hdone.msg] at hnone
    cases hnone
  case metadata =>
    intro h hdsrc hactive
    have hmem : h ∉ initOrder := by
      cases h <;> simp_all [Header.isDsrc, initOrder]
    refine ⟨m', hdone.msg, ?_⟩
    rw [hdone.dsrcMetadata, Option.isSome_iff_ne_none]
    intro hnone
    rw [hdone.attrs h hmem, bound_attrs hr, if_pos ⟨hdsrc, hnone⟩, Wrapped.orphan] at hactive
    cases hcase : (r.attrs h).active <;> simp [hcase] at hactive

theorem copy_number (hstring : h.attr.isString = false) (x : h.Val) : h.attr.copy x = x := by
  cases h <;> first | rfl | cases hstring

theorem map_copy_number (hstring : h.attr.isString = false) (v : Option h.Val) :
    v.map h.attr.copy = v :=
  (congrArg (Option.map · v) (funext (copy_number hstring))).trans Option.map_id'

/-- Text is always read. -/
theorem base_get_string (hstring : h.attr.isString = true) (w : Wrapped h.Val)
    (container : Container) : ((w.base h.attr).get h.attr.cast container).1.isSome := by
  have htext : ∀ text, (h.attr.cast.fromText text).isSome := by
    intro text
    cases h <;> first | rfl | cases hstring
  by_cases hlive : (w.base h.attr).Live container
  · obtain ⟨data, -, hget⟩ := TypedAttribute.get_live h.attr.cast hlive
    rw [hget]
    rfl
  · obtain ⟨b, hget, -⟩ := TypedAttribute.get_not_live h.attr.cast hlive
    rw [hget]
    exact htext _

/-- Every first attribute gets its value from the structure, or else it needs an allocator that may
free what it made last. -/
theorem initValue_eq (hr : r.Valid) (hmem : h ∈ initOrder) : ∃ x : Option h.Val,
    (h.attr.isString = true → x.isSome) ∧
    (h ≠ .type → x = (r.inTree h).map h.attr.copy) ∧
    r.initValue m h = (h.attr.given (h.attr.read m)).or
      (if h.attr.isString = true ∧ (r.attrs h)._str ≠ .own then none else x) := by
  have hdsrc : h.isDsrc = false := by
    cases h <;> simp_all [Header.isDsrc, initOrder]
  have hfreed : (h.attr.isString = true ∧ ((r.bound m).attrs h)._str = .freed) ↔
      h.attr.isString = true ∧ (r.attrs h)._str ≠ .own := and_congr_right' (bound_str hr)
  by_cases htype : h = .type
  · refine ⟨((((r.bound m).attrs h).base h.attr).get h.attr.cast (r.bound m).msg).1.map
      h.attr.copy, fun hstring => ?_, fun hne => absurd htype hne, ?_⟩
    · rw [Option.isSome_map]
      exact base_get_string hstring _ _
    · rw [initValue, if_pos htype, value, show (r.bound m).ivpMsg = some m from rfl,
        Wrapped.value_field (bound_active hr hdsrc), if_congr hfreed rfl rfl]
      cases h.attr.given (h.attr.read m) <;> rfl
  · refine ⟨(r.inTree h).map h.attr.copy, fun hstring => ?_, fun _ => rfl, ?_⟩
    · rw [Option.isSome_map]
      cases h <;> first | rfl | cases hstring
    · rw [initValue, if_neg htype, initial, bound_inTree, if_congr hfreed rfl rfl]
      cases h.attr.given (h.attr.read m) <;> rfl

/-- The value of another attribute, which may be bound or not. -/
def laterValue (r : Routed) (m : IvpMessage) (h : Header) : Option h.Val :=
  (((r.bound m).attrs h).held h.attr (some m)).bind fun v =>
    (h.attr.given v).or
      (if h.attr.isString = true ∧ (r.attrs h)._str ≠ .own then none
        else (r.inTree h).map h.attr.copy)

theorem inTree_of_not_mem (hdone : GotAll (r.bound m) m initOrder (r.initValue m) r' m')
    (hmem : h ∉ initOrder) : r'.inTree h = r.inTree h := by
  rw [inTree, inTree, PTree.dataAt, PTree.dataAt, hdone.others, bound_msg]
  intro h' hin
  have hne : h' ≠ h := fun heq => hmem (heq ▸ hin)
  exact ⟨Header.path_not_prefix hne, Header.path_not_prefix hne.symm⟩

theorem value_later (hr : r.Valid)
    (hdone : GotAll (r.bound m) m initOrder (r.initValue m) r' m') (hmem : h ∉ initOrder) :
    r'.value h = r.laterValue m h := by
  have hread : h.attr.read m' = h.attr.read m := hdone.same h fun hin => absurd hin hmem
  have hheld : ((r.bound m).attrs h).held h.attr (some m') =
      ((r.bound m).attrs h).held h.attr (some m) := by
    rw [Wrapped.held, Wrapped.held, Option.map_some, Option.map_some, hread]
  have hstale : ((r.bound m).attrs h).storage_version < r'.msg.storage_version := by
    rw [bound_version hr]
    refine lt_of_le_of_lt (hr.bounded h) (lt_of_eq_of_lt ?_ (hdone.strictly (by simp [initOrder])))
    rw [bound_msg]
  have htree : h.attr.cast.fromText
      ((r'.msg.tree.dataAt h.attr.path).getD h.attr.default_value) = r.inTree h :=
    inTree_of_not_mem hdone hmem
  have hfreed : (h.attr.isString = true ∧ ((r.bound m).attrs h)._str = .freed) ↔
      h.attr.isString = true ∧ (r.attrs h)._str ≠ .own := and_congr_right' (bound_str hr)
  rw [value, hdone.attrs h hmem, hdone.msg, Wrapped.value, hheld, laterValue,
    Wrapped.base_get_stale _ hstale, htree, if_congr hfreed rfl rfl]
  cases ((r.bound m).attrs h).held h.attr (some m) with
  | none => rfl
  | some v =>
    simp only [Option.bind_eq_bind, Option.bind_some]
    cases h.attr.given v <;> rfl

/-- After `set_contents`, the first attributes give the values that were read. -/
theorem value_first (hdone : GotAll (r.bound m) m initOrder (r.initValue m) r' m')
    (hmem : h ∈ initOrder) (hdefined : (r.initValue m h).isSome)
    (hgiven : h.attr.isString = true → (h.attr.given (h.attr.read m)).isSome)
    (hfirst : ∀ x, h.attr.given (h.attr.read m) = some x → r.initValue m h = some x) :
    r'.value h = r.initValue m h := by
  obtain ⟨x, hx⟩ := Option.isSome_iff_exists.mp hdefined
  rw [value, hdone.msg, Wrapped.value_field (hdone.active h hmem)]
  cases hcase : h.attr.given (h.attr.read m) with
  | some y =>
    rw [hdone.same h fun _ => by rw [hcase]; rfl, hcase, hfirst y hcase]
  | none =>
    have hstring : h.attr.isString = false := by
      by_contra htrue
      have := hgiven (Bool.not_eq_false _ |>.mp htrue)
      rw [hcase] at this
      cases this
    rw [hdone.read h hmem hcase, hx]
    cases hagain : h.attr.given (some x) with
    | some y =>
      simp only [HeaderAttribute.given, Option.filter_eq_some_iff] at hagain
      exact hagain.1.symm
    | none =>
      simp only [hstring, Bool.false_eq_true, false_and, if_false]
      rw [Wrapped.base_get_synced ((hdone.cached h hmem).trans hx)
        ((hdone.stored h hmem).trans (by rw [hx]; rfl)), Option.map_some, copy_number hstring]

/-- What a number among the first attributes is, when the structure or else the tree says it. -/
def first (r : Routed) (m : IvpMessage) (h : Header) : Option h.Val :=
  (h.attr.given (h.attr.read m)).or (r.inTree h)

/-- The structure can be put into the object: a missing text can be made, and a number that is zero
can be taken from the tree. -/
structure Accepts (r : Routed) (m : IvpMessage) : Prop where
  texts : ∀ h ∈ [Header.type, .subtype, .encoding],
    (h.attr.read m).isSome ∨ (r.attrs h)._str = .own
  numbers : ∀ h ∈ [Header.timestamp, .flags], (r.first m h).isSome

theorem given_text (hmem : h ∈ [Header.type, .subtype, .encoding]) (v : Option h.Val) :
    h.attr.given v = v := by
  simp only [List.mem_cons, List.not_mem_nil, or_false] at hmem
  rcases hmem with rfl | rfl | rfl <;> cases v <;> rfl

theorem initValue_text (hr : r.Valid) (hmem : h ∈ [Header.type, .subtype, .encoding]) :
    ((r.initValue m h).isSome ↔ (h.attr.read m).isSome ∨ (r.attrs h)._str = .own) ∧
      ((h.attr.read m).isSome → r.initValue m h = h.attr.read m) := by
  have hin : h ∈ initOrder ∧ h.attr.isString = true := by
    simp only [List.mem_cons, List.not_mem_nil, or_false] at hmem
    rcases hmem with rfl | rfl | rfl <;> exact ⟨by decide, rfl⟩
  obtain ⟨x, hx, -, heq⟩ := initValue_eq (m := m) hr hin.1
  obtain ⟨y, rfl⟩ := Option.isSome_iff_exists.mp (hx hin.2)
  rw [heq, given_text hmem]
  cases h.attr.read m with
  | some v => simp
  | none => by_cases hown : (r.attrs h)._str = .own <;> simp [hown, hin.2]

theorem initValue_number (hr : r.Valid) (hmem : h ∈ [Header.timestamp, .flags]) :
    r.initValue m h = r.first m h := by
  have hin : h ∈ initOrder ∧ h ≠ .type ∧ h.attr.isString = false := by
    simp only [List.mem_cons, List.not_mem_nil, or_false] at hmem
    rcases hmem with rfl | rfl <;> exact ⟨by decide, by decide, rfl⟩
  obtain ⟨x, -, hx, heq⟩ := initValue_eq (m := m) hr hin.1
  rw [heq, hx hin.2.1, if_neg (by simp [hin.2.2]), first, map_copy_number hin.2.2]

theorem accepts_iff (hr : r.Valid) :
    (∀ h ∈ initOrder, (r.initValue m h).isSome) ↔ r.Accepts m := by
  have htexts : ∀ h ∈ [Header.type, .subtype, .encoding],
      ((r.initValue m h).isSome ↔ (h.attr.read m).isSome ∨ (r.attrs h)._str = .own) :=
    fun h hmem => (initValue_text hr hmem).1
  have hnumbers : ∀ h ∈ [Header.timestamp, .flags],
      ((r.initValue m h).isSome ↔ (r.first m h).isSome) :=
    fun h hmem => by rw [initValue_number hr hmem]
  have hsplit : (∀ h ∈ initOrder, (r.initValue m h).isSome) ↔
      (∀ h ∈ [Header.type, .subtype, .encoding], (r.initValue m h).isSome) ∧
        ∀ h ∈ [Header.timestamp, .flags], (r.initValue m h).isSome := by
    rw [← List.forall_mem_append]
    rfl
  rw [hsplit, forall₂_congr htexts, forall₂_congr hnumbers]
  exact ⟨fun h => ⟨h.1, h.2⟩, fun h => ⟨h.texts, h.numbers⟩⟩

/-- What `set_contents` leaves, as far as the next call and the getters see it. -/
structure SetTo (r : Routed) (m : IvpMessage) (r' : Routed) (m' : IvpMessage) : Prop where
  valid : r'.Valid
  msg : r'.ivpMsg = some m'
  payload : m'.payload = m.payload
  dsrcMetadata : m'.dsrcMetadata = m.dsrcMetadata
  payloadTree : r'.payloadTree = r.payloadTree
  texts : ∀ h ∈ [Header.type, .subtype, .encoding], (h.attr.read m).isSome →
    h.attr.read m' = h.attr.read m ∧ r'.value h = h.attr.read m
  shared : ∀ h ∈ [Header.type, .subtype, .encoding], h.attr.read m = none →
    (r'.attrs h)._str = .shared
  numbers : ∀ h ∈ [Header.timestamp, .flags],
    h.attr.read m' = r.first m h ∧ r'.value h = r.first m h ∧ r'.inTree h = r.first m h
  later : ∀ h, h ∉ initOrder → h.attr.read m' = h.attr.read m ∧ r'.value h = r.laterValue m h ∧
    r'.inTree h = r.inTree h ∧ ((r'.attrs h)._str = .own ↔ (r.attrs h)._str = .own)
  metadata : ∀ h, h.isDsrc = true → ∀ v, (r'.attrs h).active = .internal v ↔
    m.dsrcMetadata = none ∧ (r.attrs h).active = .internal v

theorem GotAll.setTo (hr : r.Valid) (haccepts : r.Accepts m)
    (hdone : GotAll (r.bound m) m initOrder (r.initValue m) r' m') : SetTo r m r' m' := by
  have hdefined := (accepts_iff hr).mpr haccepts
  constructor
  case valid => exact hdone.valid hr
  case msg => exact hdone.msg
  case payload => exact hdone.payload
  case dsrcMetadata => exact hdone.dsrcMetadata
  case payloadTree =>
    rw [Routed.payloadTree, Routed.payloadTree, hdone.others _ fun h _ => Header.path_not_payload,
      bound_msg]
  case texts =>
    intro h hmem hsome
    have hin : h ∈ initOrder := by
      simp only [List.mem_cons, List.not_mem_nil, or_false] at hmem
      rcases hmem with rfl | rfl | rfl <;> decide
    have hgiven : (h.attr.given (h.attr.read m)).isSome := by rwa [given_text hmem]
    have hinit := (initValue_text hr hmem).2 hsome
    refine ⟨hdone.same h fun _ => hgiven, ?_⟩
    rw [value_first hdone hin (hdefined h hin) (fun _ => hgiven), hinit]
    intro x hx
    rwa [hinit, ← given_text hmem (h.attr.read m)]
  case shared =>
    intro h hmem hnone
    have hin : h ∈ initOrder ∧ h.attr.isString = true := by
      simp only [List.mem_cons, List.not_mem_nil, or_false] at hmem
      rcases hmem with rfl | rfl | rfl <;> exact ⟨by decide, rfl⟩
    exact hdone.shared h hin.1 (by rw [hnone]; rfl) hin.2
  case numbers =>
    intro h hmem
    have hin : h ∈ initOrder ∧ h.attr.isString = false := by
      simp only [List.mem_cons, List.not_mem_nil, or_false] at hmem
      rcases hmem with rfl | rfl <;> exact ⟨by decide, rfl⟩
    have hinit := initValue_number (m := m) hr hmem
    obtain ⟨x, hx⟩ := Option.isSome_iff_exists.mp (haccepts.numbers h hmem)
    have hfirst : ∀ y, h.attr.given (h.attr.read m) = some y → r.first m h = some y :=
      fun y hy => by rw [first, hy, Option.some_or]
    refine ⟨?_, ?_, ?_⟩
    · cases hgiven : h.attr.given (h.attr.read m) with
      | none => rw [hdone.read h hin.1 hgiven, hinit]
      | some y =>
        rw [hdone.same h fun _ => by rw [hgiven]; rfl, hfirst y hgiven]
        exact (Option.filter_eq_some_iff.mp hgiven).1
    · rw [value_first hdone hin.1 (hdefined h hin.1) (fun htrue => by simp [hin.2] at htrue), hinit]
      intro y hy
      rw [hinit, hfirst y hy]
    · rw [inTree, hdone.stored h hin.1, hinit, hx]
      exact h.attr.cast.fromText_toText x
  case later =>
    intro h hmem
    refine ⟨hdone.same h fun hin => absurd hin hmem, value_later hr hdone hmem,
      inTree_of_not_mem hdone hmem, ?_⟩
    rw [hdone.attrs h hmem, bound_attrs hr]
    have hstr : (r.attrs h).orphan._str = .own ↔ (r.attrs h)._str = .own := by
      rw [Wrapped.orphan]
      cases (r.attrs h)._str <;> simp
    split_ifs
    · exact hstr
    · exact hstr
  case metadata =>
    intro h hdsrc v
    have hmem : h ∉ initOrder := by
      cases h <;> simp_all [Header.isDsrc, initOrder]
    rw [hdone.attrs h hmem, bound_attrs hr]
    split_ifs with hmetadata
    · simp only [hmetadata.2, true_and]
      rw [Wrapped.orphan]
      cases hactive : (r.attrs h).active <;> simp
    · simp only [hdsrc, true_and] at hmetadata
      simp [hmetadata, Wrapped.bind]

theorem setContents_iff (now : BitVec 64) (hr : r.Valid) (m : IvpMessage) :
    (r.Accepts m → ∃ r' m', r.setContents now (some m) = some r' ∧ SetTo r m r' m') ∧
      (¬ r.Accepts m → r.setContents now (some m) = none) := by
  have hspec := setContents_spec now hr m
  refine ⟨fun haccepts => ?_, fun hnot => hspec.2 ?_⟩
  · obtain ⟨r', m', hset, hdone⟩ := hspec.1 ((accepts_iff hr).mpr haccepts)
    exact ⟨r', m', hset, hdone.setTo hr haccepts⟩
  · by_contra hall
    push Not at hall
    exact hnot ((accepts_iff hr).mp fun h hmem => Option.isSome_iff_ne_none.mpr (hall h hmem))

end Values

end Routed

end V2IHub.Messages
