import V2IHub.Messages.InitAttributes

/-! One object for two messages: what is left of the first one when the second is read. -/
namespace V2IHub.Messages
open Foundation Api Json

namespace Header

/-- What an attribute is without a structure and without a tree. -/
def initially (h : Header) : Option h.Val := h.attr.cast.fromText h.attr.default_value

end Header

namespace Routed
variable {r r' f : Routed} {m m' : IvpMessage} {h : Header} {now : BitVec 64}

/-- A valid object returns the value. -/
theorem get_fst (hr : r.Valid) (h : Header) : (r.get h).map Prod.fst = r.value h := by
  have hw : (r.attrs h).Writable h.attr r.ivpMsg := by
    intro hactive
    cases hmsg : r.ivpMsg with
    | none =>
      obtain ⟨⟨v, hinternal⟩, -⟩ := hr.loose hmsg h
      rw [hinternal] at hactive
      cases hactive
    | some m =>
      refine ⟨m, rfl, fun x => ?_⟩
      cases hdsrc : h.isDsrc with
      | false => exact Header.read_write m hdsrc x
      | true =>
        obtain ⟨m', hm', hmetadata⟩ := hr.metadata h hdsrc hactive
        obtain rfl : m = m' := Option.some.inj (hmsg.symm.trans hm')
        obtain ⟨metadata, hsome⟩ := Option.isSome_iff_exists.mp hmetadata
        cases h <;> try cases hdsrc
        · simp only [Header.attr, HeaderAttribute.dsrc, hsome, Option.map_some]
          rfl
        · simp only [Header.attr, HeaderAttribute.dsrc, hsome, Option.map_some]
          rfl
  have hspec := Wrapped.get_spec hw r.msg _ rfl
  rw [value]
  cases hvalue : (r.attrs h).value h.attr r.msg r.ivpMsg with
  | none =>
    rw [hvalue] at hspec
    simp only [get, hspec, Option.map_none]
  | some x =>
    rw [hvalue] at hspec
    obtain ⟨w, msg, ivpMsg, hget, -⟩ := hspec
    simp only [get, hget, Option.map_some]

/-- Two objects give the same message: every getter returns, and returns the same. -/
structure SameContents (json : Format) (r f : Routed) : Prop where
  headers : ∀ h, ((r.get h).map Prod.fst).isSome ∧ (r.get h).map Prod.fst = (f.get h).map Prod.fst
  payload : (r.getPayloadStr json).map Prod.fst = (f.getPayloadStr json).map Prod.fst
  payloadTree : r.payloadTree = f.payloadTree
  message : r.ivpMsg = f.ivpMsg

/-- Nothing of what the object held, or of a first message, is taken for a part of a second one.
`now` is the time at which the other object was made. -/
structure Reusable (now : BitVec 64) (r : Routed) (m₁ m₂ : IvpMessage) : Prop where
  accepts : r.Accepts m₁
  texts : ∀ h ∈ [Header.type, .subtype, .encoding], (h.attr.read m₂).isSome
  timestamp : m₂.timestamp ≠ 0 ∨ r.first m₁ .timestamp = some now
  flags : m₂.flags ≠ 0 ∨ r.first m₁ .flags = Header.flags.initially
  source : m₂.source.isSome ∨
    (r.attrs .source)._str = .own ∧ (r.inTree .source).map cstringAt = some []
  sourceId : m₂.sourceId ≠ 0 ∨ r.inTree .sourceId = Header.sourceId.initially
  present : ∀ h, h.isDsrc = true → m₂.dsrcMetadata.isSome →
    (h.attr.given (h.attr.read m₂)).isSome ∨ r.inTree h = h.initially
  absent : ∀ h, h.isDsrc = true → m₂.dsrcMetadata = none → m₁.dsrcMetadata = none ∧
    ∃ v, (r.attrs h).active = .internal v ∧ (h.attr.given v).or (r.inTree h) = h.initially
  payloadTree : r.payloadTree = none

section Later

/-- An attribute that is bound, and was not read yet. -/
theorem laterValue_bound (hr : r.Valid) (hbound : h.isDsrc = false ∨ m.dsrcMetadata.isSome) :
    r.laterValue m h = (h.attr.given (h.attr.read m)).or
      (if h.attr.isString = true ∧ (r.attrs h)._str ≠ .own then none
        else (r.inTree h).map h.attr.copy) := by
  have hactive : ((r.bound m).attrs h).active = .field := by
    rw [bound_attrs hr, if_neg]
    · rfl
    · rintro ⟨hdsrc, hnone⟩
      rcases hbound with hbound | hbound
      · simp [hbound] at hdsrc
      · simp [hnone] at hbound
  rw [laterValue, Wrapped.held, hactive]
  rfl

/-- An attribute of the metadata, in a message without any. -/
theorem laterValue_absent (hr : r.Valid) (hdsrc : h.isDsrc = true) (hnone : m.dsrcMetadata = none)
    (x : h.Val) : r.laterValue m h = some x ↔
      ∃ v, (r.attrs h).active = .internal v ∧ (h.attr.given v).or (r.inTree h) = some x := by
  have hcopy : (if h.attr.isString = true ∧ (r.attrs h)._str ≠ .own then none
      else (r.inTree h).map h.attr.copy) = r.inTree h := by
    have hstring : h.attr.isString = false := by
      cases h <;> first | rfl | cases hdsrc
    rw [if_neg (by simp [hstring]), map_copy_number hstring]
  rw [laterValue, bound_attrs hr, if_pos ⟨hdsrc, hnone⟩, Wrapped.held, Wrapped.orphan, hcopy]
  cases (r.attrs h).active <;> simp

end Later

theorem initially_isSome (h : Header) : h.initially.isSome := by
  cases h <;> decide

theorem new_inTree (h : Header) : new.inTree h = h.initially := by
  cases h <;> rfl

theorem new_accepts (m : IvpMessage) : new.Accepts m := by
  refine ⟨fun h _ => .inr rfl, fun h _ => ?_⟩
  rw [first, new_inTree, Option.isSome_or, initially_isSome, Bool.or_true]

/-- The structure that the constructor makes. -/
def blank (now : BitVec 64) : IvpMessage := .create now none none none 0 none

theorem new_first_timestamp (now : BitVec 64) : new.first (blank now) .timestamp = some now := by
  have htree : new.inTree .timestamp = some (0 : BitVec 64) :=
    show lexicalUnsigned 64 (cstr "0") = some 0 by decide
  rw [first, htree]
  by_cases hnow : now = 0
  · subst hnow
    rfl
  · have hgiven : Header.timestamp.attr.given (Header.timestamp.attr.read (blank now)) = some now :=
      Option.filter_eq_some_iff.mpr ⟨rfl, by simpa [Header.attr, HeaderAttribute.unsigned] using hnow⟩
    rw [hgiven]
    rfl

theorem new_first_flags (now : BitVec 64) :
    new.first (blank now) .flags = Header.flags.initially := new_inTree .flags

theorem fresh_spec (now : BitVec 64) :
    ∃ f m, fresh now = some f ∧ SetTo new (blank now) f m := by
  refine (setContents_iff now new_valid (blank now)).1 ⟨fun h _ => .inr rfl, ?_⟩
  intro h hmem
  simp only [List.mem_cons, List.not_mem_nil, or_false] at hmem
  rcases hmem with rfl | rfl
  · rw [new_first_timestamp]
    rfl
  · rw [new_first_flags]
    decide

section Compare
variable {r₁ r₂ f₀ : Routed} {m₁ m₂ n₀ n₁ n₂ n : IvpMessage}

theorem or_eq_or_iff {α : Type} (x a b : Option α) :
    x.or a = x.or b ↔ x.isSome ∨ a = b := by
  cases x <;> simp

/-- The numbers among the first attributes of a second message. -/
theorem number_eq_iff (h₁ : SetTo r m₁ r₁ n₁) (h₂ : SetTo r₁ m₂ r₂ n₂)
    (h₀ : SetTo new (blank now) f₀ n₀) (hf : SetTo f₀ m₂ f n)
    (hmem : h ∈ [Header.timestamp, .flags]) : r₂.value h = f.value h ↔
      (h.attr.given (h.attr.read m₂)).isSome ∨ r.first m₁ h = new.first (blank now) h := by
  rw [(h₂.numbers h hmem).2.1, (hf.numbers h hmem).2.1, first, first, or_eq_or_iff,
    (h₁.numbers h hmem).2.2, (h₀.numbers h hmem).2.2]

/-- An attribute that is bound for the second message, and is read later. -/
theorem bound_eq_iff (h₁ : SetTo r m₁ r₁ n₁) (h₂ : SetTo r₁ m₂ r₂ n₂)
    (h₀ : SetTo new (blank now) f₀ n₀) (hf : SetTo f₀ m₂ f n) (hmem : h ∉ initOrder)
    (hbound : h.isDsrc = false ∨ m₂.dsrcMetadata.isSome) : r₂.value h = f.value h ↔
      (h.attr.given (h.attr.read m₂)).isSome ∨ (h.attr.isString = true → (r.attrs h)._str = .own) ∧
        (r.inTree h).map h.attr.copy = h.initially.map h.attr.copy := by
  have hown : (f₀.attrs h)._str = .own := (h₀.later h hmem).2.2.2.mpr rfl
  rw [(h₂.later h hmem).2.1, (hf.later h hmem).2.1, laterValue_bound h₁.valid hbound,
    laterValue_bound h₀.valid hbound, or_eq_or_iff, (h₁.later h hmem).2.2.1,
    (h₀.later h hmem).2.2.1, new_inTree,
    if_congr (and_congr_right' (not_congr (h₁.later h hmem).2.2.2)) rfl rfl,
    if_neg (c := _ ∧ (f₀.attrs h)._str ≠ .own) fun hand => hand.2 hown]
  apply or_congr_right
  split_ifs with hcase
  · obtain ⟨x, hx⟩ := Option.isSome_iff_exists.mp (initially_isSome h)
    rw [hx]
    simp [hcase]
  · simp only [not_and, not_not] at hcase
    exact ⟨fun heq => ⟨hcase, heq⟩, fun hand => hand.2⟩

/-- The metadata for a second message without any. -/
theorem absent_eq_iff (h₁ : SetTo r m₁ r₁ n₁) (h₂ : SetTo r₁ m₂ r₂ n₂)
    (h₀ : SetTo new (blank now) f₀ n₀) (hf : SetTo f₀ m₂ f n) (hdsrc : h.isDsrc = true)
    (hnone : m₂.dsrcMetadata = none) : r₂.value h = f.value h ↔
      m₁.dsrcMetadata = none ∧
        ∃ v, (r.attrs h).active = .internal v ∧ (h.attr.given v).or (r.inTree h) = h.initially := by
  have hmem : h ∉ initOrder := by
    cases h <;> simp_all [Header.isDsrc, initOrder]
  obtain ⟨x, hx⟩ := Option.isSome_iff_exists.mp (initially_isSome h)
  have hvalue : f₀.laterValue m₂ h = some x :=
    (laterValue_absent h₀.valid hdsrc hnone x).mpr
      ⟨none, (h₀.metadata h hdsrc none).mpr ⟨rfl, rfl⟩, by
        rw [(h₀.later h hmem).2.2.1, new_inTree]
        exact hx⟩
  rw [(h₂.later h hmem).2.1, (hf.later h hmem).2.1, hvalue, laterValue_absent h₁.valid hdsrc hnone,
    hx]
  simp only [h₁.metadata h hdsrc, (h₁.later h hmem).2.2.1]
  constructor
  · rintro ⟨v, ⟨hm, hv⟩, heq⟩
    exact ⟨hm, v, hv, heq⟩
  · rintro ⟨hm, v, hv, heq⟩
    exact ⟨v, ⟨hm, hv⟩, heq⟩

end Compare

/-- A new object takes every structure that has its texts. -/
theorem accepts_fresh_iff {f₀ : Routed} {n₀ : IvpMessage} (h₀ : SetTo new (blank now) f₀ n₀)
    (m : IvpMessage) :
    f₀.Accepts m ↔ ∀ h ∈ [Header.type, .subtype, .encoding], (h.attr.read m).isSome := by
  constructor
  · intro haccepts h hmem
    refine (haccepts.texts h hmem).resolve_right fun hown => ?_
    have hblank : h.attr.read (blank now) = none := by
      simp only [List.mem_cons, List.not_mem_nil, or_false] at hmem
      rcases hmem with rfl | rfl | rfl <;> rfl
    rw [h₀.shared h hmem hblank] at hown
    cases hown
  · intro htexts
    refine ⟨fun h hmem => .inl (htexts h hmem), fun h hmem => ?_⟩
    rw [first, (h₀.numbers h hmem).2.2, Option.isSome_or, Bool.or_eq_true]
    refine .inr ?_
    simp only [List.mem_cons, List.not_mem_nil, or_false] at hmem
    rcases hmem with rfl | rfl
    · rw [new_first_timestamp]
      rfl
    · rw [new_first_flags]
      exact initially_isSome .flags

theorem ext_reads {n n' : IvpMessage} (hread : ∀ h : Header, h.attr.read n = h.attr.read n')
    (hmetadata : n.dsrcMetadata = n'.dsrcMetadata) (hpayload : n.payload = n'.payload) :
    n = n' := by
  have htype : n.type = n'.type := hread .type
  have hsubtype : n.subtype = n'.subtype := hread .subtype
  have hsource : n.source = n'.source := hread .source
  have hencoding : n.encoding = n'.encoding := hread .encoding
  have hsourceId : n.sourceId = n'.sourceId := Option.some.inj (hread .sourceId)
  have htimestamp : n.timestamp = n'.timestamp := Option.some.inj (hread .timestamp)
  have hflags : n.flags = n'.flags := Option.some.inj (hread .flags)
  cases n
  cases n'
  simp_all

theorem setTo_of_setContents (hr : r.Valid) (hset : r.setContents now (some m) = some r') :
    r.Accepts m ∧ ∃ m', SetTo r m r' m' := by
  have haccepts : r.Accepts m := by
    by_contra hnot
    rw [(setContents_iff now hr m).2 hnot] at hset
    cases hset
  obtain ⟨r'', m', hset', hto⟩ := (setContents_iff now hr m).1 haccepts
  obtain rfl : r' = r'' := Option.some.inj (hset.symm.trans hset')
  exact ⟨haccepts, m', hto⟩

theorem given_unsigned {w : ℕ} (name : Bytes) (read : IvpMessage → BitVec w)
    (write : IvpMessage → BitVec w → IvpMessage) (m : IvpMessage) :
    ((HeaderAttribute.unsigned name read write).given (some (read m))).isSome ↔ read m ≠ 0 := by
  by_cases h : read m = 0 <;> simp [HeaderAttribute.unsigned, HeaderAttribute.given, h]

theorem given_timestamp (m : IvpMessage) :
    (Header.timestamp.attr.given (Header.timestamp.attr.read m)).isSome ↔ m.timestamp ≠ 0 :=
  given_unsigned _ (·.timestamp) _ m

theorem given_flags (m : IvpMessage) :
    (Header.flags.attr.given (Header.flags.attr.read m)).isSome ↔ m.flags ≠ 0 :=
  given_unsigned _ (·.flags) _ m

theorem given_sourceId (m : IvpMessage) :
    (Header.sourceId.attr.given (Header.sourceId.attr.read m)).isSome ↔ m.sourceId ≠ 0 :=
  given_unsigned _ (·.sourceId) _ m

theorem given_string (name default_value : Bytes) (read : IvpMessage → Option Bytes)
    (write : IvpMessage → Bytes → IvpMessage) (v : Option Bytes) :
    (HeaderAttribute.string name default_value read write).given v = v := by
  cases v <;> rfl

theorem given_source (m : IvpMessage) :
    (Header.source.attr.given (Header.source.attr.read m)).isSome ↔ m.source.isSome :=
  iff_of_eq (congrArg (Option.isSome · = true) (given_string _ _ (·.source) _ m.source))

section Compare
variable {r₁ r₂ f₀ : Routed} {m₁ m₂ n₀ n₁ n₂ n : IvpMessage}

/-- The headers agree exactly if nothing is left for them. -/
theorem values_eq_iff (h₁ : SetTo r m₁ r₁ n₁) (h₂ : SetTo r₁ m₂ r₂ n₂)
    (h₀ : SetTo new (blank now) f₀ n₀) (hf : SetTo f₀ m₂ f n) (haccepts : r.Accepts m₁)
    (htexts : ∀ h ∈ [Header.type, .subtype, .encoding], (h.attr.read m₂).isSome)
    (htree : r.payloadTree = none) :
    (∀ h, r₂.value h = f.value h) ↔ Reusable now r m₁ m₂ := by
  have htimestamp := number_eq_iff h₁ h₂ h₀ hf (h := .timestamp) (by simp)
  have hflags := number_eq_iff h₁ h₂ h₀ hf (h := .flags) (by simp)
  have hsource := bound_eq_iff h₁ h₂ h₀ hf (h := .source) (by decide) (.inl rfl)
  have hsourceId := bound_eq_iff h₁ h₂ h₀ hf (h := .sourceId) (by decide) (.inl rfl)
  have hpresent : ∀ h, h.isDsrc = true → m₂.dsrcMetadata.isSome → (r₂.value h = f.value h ↔
      (h.attr.given (h.attr.read m₂)).isSome ∨ r.inTree h = h.initially) := by
    intro h hdsrc hsome
    have hout : h ∉ initOrder ∧ h.attr.isString = false := by
      cases h <;> first | exact ⟨by decide, rfl⟩ | cases hdsrc
    rw [bound_eq_iff h₁ h₂ h₀ hf hout.1 (.inr hsome), map_copy_number hout.2,
      map_copy_number hout.2]
    simp [hout.2]
  constructor
  · intro hvalue
    constructor
    case accepts => exact haccepts
    case texts => exact htexts
    case timestamp =>
      exact (htimestamp.mp (hvalue _)).imp (given_timestamp m₂).mp
        (·.trans (new_first_timestamp now))
    case flags => exact (hflags.mp (hvalue _)).imp (given_flags m₂).mp (·.trans (new_first_flags now))
    case source =>
      exact (hsource.mp (hvalue _)).imp (given_source m₂).mp fun hand => ⟨hand.1 rfl, hand.2⟩
    case sourceId =>
      rw [map_copy_number rfl, map_copy_number rfl] at hsourceId
      exact (hsourceId.mp (hvalue _)).imp (given_sourceId m₂).mp And.right
    case present => exact fun h hdsrc hsome => (hpresent h hdsrc hsome).mp (hvalue h)
    case absent => exact fun h hdsrc hnone => (absent_eq_iff h₁ h₂ h₀ hf hdsrc hnone).mp (hvalue h)
    case payloadTree => exact htree
  · intro hreuse
    have htext : ∀ h ∈ [Header.type, .subtype, .encoding], r₂.value h = f.value h := fun h hmem =>
      (h₂.texts h hmem (htexts h hmem)).2.trans (hf.texts h hmem (htexts h hmem)).2.symm
    have hdsrc : ∀ h, h.isDsrc = true → r₂.value h = f.value h := by
      intro h hdsrc
      cases hmetadata : m₂.dsrcMetadata with
      | none =>
        exact (absent_eq_iff h₁ h₂ h₀ hf hdsrc hmetadata).mpr (hreuse.absent h hdsrc hmetadata)
      | some metadata =>
        have hsome : m₂.dsrcMetadata.isSome := by rw [hmetadata]; rfl
        exact (hpresent h hdsrc hsome).mpr (hreuse.present h hdsrc hsome)
    intro h
    cases h with
    | type => exact htext .type (by simp)
    | subtype => exact htext .subtype (by simp)
    | encoding => exact htext .encoding (by simp)
    | timestamp =>
      exact htimestamp.mpr (hreuse.timestamp.imp (given_timestamp m₂).mpr
        (·.trans (new_first_timestamp now).symm))
    | flags =>
      exact hflags.mpr (hreuse.flags.imp (given_flags m₂).mpr (·.trans (new_first_flags now).symm))
    | source =>
      exact hsource.mpr (hreuse.source.imp (given_source m₂).mpr
        fun hand => ⟨fun _ => hand.1, hand.2⟩)
    | sourceId =>
      rw [map_copy_number rfl, map_copy_number rfl] at hsourceId
      exact hsourceId.mpr (hreuse.sourceId.imp (given_sourceId m₂).mpr fun heq => ⟨nofun, heq⟩)
    | dsrcChannel => exact hdsrc .dsrcChannel rfl
    | dsrcPsid => exact hdsrc .dsrcPsid rfl

/-- In a new object every getter returns. -/
theorem value_isSome_fresh (h₀ : SetTo new (blank now) f₀ n₀) (hf : SetTo f₀ m₂ f n)
    (htexts : ∀ h ∈ [Header.type, .subtype, .encoding], (h.attr.read m₂).isSome)
    (haccepts : f₀.Accepts m₂) (h : Header) : (f.value h).isSome := by
  have htext : ∀ h ∈ [Header.type, .subtype, .encoding], (f.value h).isSome := fun h hmem => by
    rw [(hf.texts h hmem (htexts h hmem)).2]
    exact htexts h hmem
  have hnumber : ∀ h ∈ [Header.timestamp, .flags], (f.value h).isSome := fun h hmem => by
    rw [(hf.numbers h hmem).2.1]
    exact haccepts.numbers h hmem
  have hlater : ∀ h, h ∉ initOrder → (f.value h).isSome := by
    intro h hmem
    have hown : (f₀.attrs h)._str = .own := (h₀.later h hmem).2.2.2.mpr rfl
    obtain ⟨x, hx⟩ := Option.isSome_iff_exists.mp (initially_isSome h)
    rw [(hf.later h hmem).2.1]
    by_cases hbound : h.isDsrc = false ∨ m₂.dsrcMetadata.isSome
    · rw [laterValue_bound h₀.valid hbound, if_neg fun hand => hand.2 hown,
        (h₀.later h hmem).2.2.1, new_inTree, hx, Option.isSome_or]
      simp
    · simp only [not_or, Bool.not_eq_false, Bool.not_eq_true, Option.isSome_eq_false_iff,
        Option.isNone_iff_eq_none] at hbound
      rw [(laterValue_absent h₀.valid hbound.1 hbound.2 x).mpr]
      · rfl
      · refine ⟨none, (h₀.metadata h hbound.1 none).mpr ⟨rfl, rfl⟩, ?_⟩
        rw [(h₀.later h hmem).2.2.1, new_inTree]
        exact hx
  cases h with
  | type => exact htext .type (by simp)
  | subtype => exact htext .subtype (by simp)
  | encoding => exact htext .encoding (by simp)
  | timestamp => exact hnumber .timestamp (by simp)
  | flags => exact hnumber .flags (by simp)
  | source => exact hlater .source (by decide)
  | sourceId => exact hlater .sourceId (by decide)
  | dsrcChannel => exact hlater .dsrcChannel (by decide)
  | dsrcPsid => exact hlater .dsrcPsid (by decide)

/-- Where the headers agree, so do the structures. -/
theorem message_eq (h₂ : SetTo r₁ m₂ r₂ n₂) (hf : SetTo f₀ m₂ f n)
    (htexts : ∀ h ∈ [Header.type, .subtype, .encoding], (h.attr.read m₂).isSome)
    (hvalue : ∀ h, r₂.value h = f.value h) : n₂ = n := by
  refine ext_reads (fun h => ?_) (h₂.dsrcMetadata.trans hf.dsrcMetadata.symm)
    (h₂.payload.trans hf.payload.symm)
  by_cases hmem : h ∈ initOrder
  · rw [show initOrder = [.type, .subtype, .encoding] ++ [.timestamp, .flags] from rfl,
      List.mem_append] at hmem
    rcases hmem with hmem | hmem
    · rw [(h₂.texts h hmem (htexts h hmem)).1, (hf.texts h hmem (htexts h hmem)).1]
    · rw [(h₂.numbers h hmem).1, (hf.numbers h hmem).1, ← (h₂.numbers h hmem).2.1, hvalue,
        (hf.numbers h hmem).2.1]
  · rw [(h₂.later h hmem).1, (hf.later h hmem).1]

end Compare

/-- The text of the payload is the one of the structure. -/
theorem getPayloadStr_congr (json : Format) (hmsg : r.ivpMsg = f.ivpMsg) :
    (r.getPayloadStr json).map Prod.fst = (f.getPayloadStr json).map Prod.fst := by
  rw [getPayloadStr, getPayloadStr, hmsg]
  cases f.ivpMsg with
  | none => rfl
  | some m =>
    cases hpayload : m.payload with
    | none => simp [hpayload]
    | some payload => cases payload <;> simp [hpayload, Function.comp_def]

/-- After a first message, an object is as good as a new one for the second exactly if nothing is
left that the second could take for its own. -/
theorem setContents_reuse_iff (json : Format) (now : BitVec 64) (r : RouteableMessage)
    (m₁ m₂ : IvpMessage) :
    (∃ r₁ r₂ f₀ f, r.1.setContents now (some m₁) = some r₁ ∧
      r₁.setContents now (some m₂) = some r₂ ∧ fresh now = some f₀ ∧
      f₀.setContents now (some m₂) = some f ∧ SameContents json r₂ f) ↔
      Reusable now r.1 m₁ m₂ := by
  obtain ⟨f₀, n₀, hfresh, h₀⟩ := fresh_spec now
  constructor
  · rintro ⟨r₁, r₂, f', f, hset₁, hset₂, hfresh', hsetf, hsame⟩
    obtain rfl : f₀ = f' := Option.some.inj (hfresh.symm.trans hfresh')
    obtain ⟨haccepts, n₁, h₁⟩ := setTo_of_setContents r.2 hset₁
    obtain ⟨-, n₂, h₂⟩ := setTo_of_setContents h₁.valid hset₂
    obtain ⟨hacceptsf, n, hf⟩ := setTo_of_setContents h₀.valid hsetf
    have htree : r.1.payloadTree = none := by
      have hnone : f.payloadTree = none := hf.payloadTree.trans h₀.payloadTree
      rw [← h₁.payloadTree, ← h₂.payloadTree, hsame.payloadTree, hnone]
    refine (values_eq_iff h₁ h₂ h₀ hf haccepts ((accepts_fresh_iff h₀ m₂).mp hacceptsf) htree).mp
      fun h => ?_
    rw [← get_fst h₂.valid, ← get_fst hf.valid]
    exact (hsame.headers h).2
  · intro hreuse
    obtain ⟨r₁, n₁, hset₁, h₁⟩ := (setContents_iff now r.2 m₁).1 hreuse.accepts
    have haccepts₂ : r₁.Accepts m₂ := by
      refine ⟨fun h hmem => .inl (hreuse.texts h hmem), fun h hmem => ?_⟩
      rw [first, (h₁.numbers h hmem).2.2, Option.isSome_or, hreuse.accepts.numbers h hmem,
        Bool.or_true]
    obtain ⟨r₂, n₂, hset₂, h₂⟩ := (setContents_iff now h₁.valid m₂).1 haccepts₂
    obtain ⟨f, n, hsetf, hf⟩ :=
      (setContents_iff now h₀.valid m₂).1 ((accepts_fresh_iff h₀ m₂).mpr hreuse.texts)
    have hvalue := (values_eq_iff h₁ h₂ h₀ hf hreuse.accepts hreuse.texts hreuse.payloadTree).mpr
      hreuse
    have hmsg : r₂.ivpMsg = f.ivpMsg := by
      rw [h₂.msg, hf.msg, message_eq h₂ hf hreuse.texts hvalue]
    refine ⟨r₁, r₂, f₀, f, hset₁, hset₂, hfresh, hsetf, fun h => ?_,
      getPayloadStr_congr json hmsg, ?_, hmsg⟩
    · rw [get_fst h₂.valid, get_fst hf.valid, hvalue]
      exact ⟨value_isSome_fresh h₀ hf hreuse.texts
        ((accepts_fresh_iff h₀ m₂).mpr hreuse.texts) h, rfl⟩
    · rw [h₂.payloadTree, h₁.payloadTree, hreuse.payloadTree, hf.payloadTree, h₀.payloadTree]
      rfl

/-- A status message with its flags. -/
def sampleMessage (flags : BitVec 32) : IvpMessage where
  type := some (cstr "Status")
  subtype := some (cstr "Alive")
  source := some (cstr "Map")
  sourceId := 1
  encoding := some (cstr "json")
  timestamp := 1000
  flags := flags
  dsrcMetadata := none
  payload := none

/-- A new object is used for a message with a flag, and then for one without. -/
theorem setContents_keeps_flags :
    ¬ ∀ (json : Format) (now : BitVec 64) (r : RouteableMessage) (m₁ m₂ : IvpMessage),
      ∃ r₁ r₂ f₀ f, r.1.setContents now (some m₁) = some r₁ ∧
        r₁.setContents now (some m₂) = some r₂ ∧ fresh now = some f₀ ∧
        f₀.setContents now (some m₂) = some f ∧ SameContents json r₂ f := by
  intro hall
  obtain ⟨g, n₀, hfresh, h₀⟩ := fresh_spec 1000
  obtain ⟨r₁, r₂, g', f, hset₁, hset₂, hfresh', hsetf, hsame⟩ :=
    hall ⟨fun _ => none, fun _ => none⟩ 1000 ⟨g, h₀.valid⟩ (sampleMessage 8) (sampleMessage 0)
  obtain rfl : g = g' := Option.some.inj (hfresh.symm.trans hfresh')
  obtain ⟨-, n₁, h₁⟩ := setTo_of_setContents h₀.valid hset₁
  obtain ⟨-, n₂, h₂⟩ := setTo_of_setContents h₁.valid hset₂
  obtain ⟨-, n, hf⟩ := setTo_of_setContents h₀.valid hsetf
  have hvalue : r₂.value .flags = f.value .flags := by
    rw [← get_fst h₂.valid, ← get_fst hf.valid]
    exact (hsame.headers .flags).2
  rcases (number_eq_iff h₁ h₂ h₀ hf (by simp)).mp hvalue with hgiven | hfirst
  · exact (given_flags _).mp hgiven rfl
  · have hflag : g.first (sampleMessage 8) .flags = some (8 : BitVec 32) := rfl
    rw [new_first_flags, hflag] at hfirst
    exact absurd (show some (8 : BitVec 32) = some 0 from hfirst) (by decide)

end Routed

end V2IHub.Messages
