import V2IHub.Messages.Message

/-! A typed attribute of a message: the value it caches against the value in the tree. -/
namespace V2IHub.Messages
open Foundation

/-- `attribute_lexical_cast` between a data type and text; `none` is an exception. What is
written reads back. -/
structure LexicalCast (α : Type) where
  toText : α → Bytes
  fromText : Bytes → Option α
  fromText_toText : ∀ a, fromText (toText a) = some a

/-- `default_value` is already text, and `_reference` is the variable that the attribute is bound
to, if there is one. -/
structure TypedAttribute (α : Type) where
  path : Path
  default_value : Bytes
  _attribute : Option α
  _reference : Option α
  storage_version : ℤ

namespace TypedAttribute
variable {α : Type} (cast : LexicalCast α)

/-- A new attribute, bound to a variable or not. -/
def new (path : Path) (default_value : Bytes) (var : Option α) : TypedAttribute α :=
  ⟨path, default_value, var, var, 0⟩

def invalidate (attr : TypedAttribute α) : TypedAttribute α := { attr with _attribute := none }

def setReference (attr : TypedAttribute α) (data : α) : TypedAttribute α :=
  { attr with _reference := attr._reference.map fun _ => data }

def getAsType (attr : TypedAttribute α) (container : Container) :
    Option α × TypedAttribute α × Container :=
  let attr := if attr.storage_version < container.storage_version then attr.invalidate else attr
  match attr._attribute with
  | some data => (some data, attr, container)
  | none =>
    let (text, container') := container.retrieve attr.path attr.default_value
    match cast.fromText text with
    | none => (none, attr, container')
    | some data =>
      (some data,
        { attr with _attribute := some data, storage_version := container.storage_version },
        container')

def get (attr : TypedAttribute α) (container : Container) :
    Option α × TypedAttribute α × Container :=
  match attr.getAsType cast container with
  | (none, attr, container) => (none, attr, container)
  | (some curVal, attr, container) => (some curVal, attr.setReference curVal, container)

def set (attr : TypedAttribute α) (container : Container) (data : α) :
    TypedAttribute α × Container :=
  let container := container.store attr.path (cast.toText data)
  ({ attr.setReference data with
    _attribute := some data
    storage_version := container.storage_version }, container)

/-- What the tree says: the value at the path, or the default. -/
def valueIn (attr : TypedAttribute α) (tree : PTree) : Option α :=
  cast.fromText ((tree.dataAt attr.path).getD attr.default_value)

/-- The cached value is taken for current. -/
def Live (attr : TypedAttribute α) (container : Container) : Prop :=
  attr._attribute.isSome = true ∧ container.storage_version ≤ attr.storage_version

section Get
variable {attr : TypedAttribute α} {container : Container}

theorem valueIn_retrieve (attr : TypedAttribute α) (container : Container) :
    attr.valueIn cast container.tree =
      cast.fromText (container.retrieve attr.path attr.default_value).1 := by
  rw [valueIn, Container.retrieve]
  cases container.tree.dataAt attr.path <;> rfl

/-- What `get` does with a value that it takes for current. -/
theorem get_live (h : attr.Live container) :
    ∃ data, attr._attribute = some data ∧
      attr.get cast container = (some data, attr.setReference data, container) := by
  obtain ⟨hsome, hversion⟩ := h
  obtain ⟨data, hdata⟩ := Option.isSome_iff_exists.mp hsome
  have hkeep : ¬ attr.storage_version < container.storage_version := by omega
  refine ⟨data, hdata, ?_⟩
  simp only [get, getAsType, if_neg hkeep, hdata]

/-- What `get` does otherwise: it takes the value from the tree. -/
theorem get_not_live (h : ¬ attr.Live container) :
    ∃ attr', attr.get cast container = (attr.valueIn cast container.tree, attr',
        (container.retrieve attr.path attr.default_value).2) ∧
      attr'.path = attr.path ∧ attr'.default_value = attr.default_value ∧
      (attr'._attribute = none ∧ attr'.storage_version = attr.storage_version ∨
        attr'._attribute = attr.valueIn cast container.tree ∧
          attr'.storage_version = container.storage_version) := by
  have hnone : (if attr.storage_version < container.storage_version then attr.invalidate
      else attr) = attr.invalidate := by
    split_ifs with hversion
    · rfl
    · have hempty : attr._attribute = none := by
        by_contra hsome
        exact h ⟨Option.isSome_iff_ne_none.mpr hsome, by omega⟩
      rw [invalidate, ← hempty]
  rw [valueIn_retrieve, get, getAsType, hnone]
  simp only [invalidate]
  cases hcast : cast.fromText (container.retrieve attr.path attr.default_value).1 with
  | none => exact ⟨_, rfl, rfl, rfl, .inl ⟨rfl, rfl⟩⟩
  | some data => exact ⟨_, rfl, rfl, rfl, .inr ⟨rfl, rfl⟩⟩

end Get
end TypedAttribute

/-- `otherGet` and `otherSet` are the getter and setter of other attributes, `assign` is an
assignment of the message alone, and `assignMembers` also copies the attribute. -/
inductive AttributeAct (α : Type) where
  | get
  | set (data : α)
  | otherGet (path : Path) (default_value : Bytes)
  | otherSet (path : Path) (data : Bytes)
  | setTree (contents : PTree)
  | setText (contents : Bytes)
  | clear
  | assign (contents : PTree)
  | assignMembers (contents : PTree) (value bound : Option α) (storage_version : ℤ)

structure AttributeRun (α : Type) where
  message : Message
  attr : TypedAttribute α

namespace AttributeRun
variable {α : Type} (fmt : Format) (cast : LexicalCast α)

def step (s : AttributeRun α) : AttributeAct α → AttributeRun α
  | .get =>
    let (_, attr, container) := s.attr.get cast s.message.msg
    ⟨{ s.message with msg := container }, attr⟩
  | .set data =>
    let (attr, container) := s.attr.set cast s.message.msg data
    ⟨{ s.message with msg := container }, attr⟩
  | .otherGet path default_value => { s with message := s.message.retrieve path default_value }
  | .otherSet path data => { s with message := s.message.store path data }
  | .setTree contents => { s with message := s.message.setContentsTree contents }
  | .setText contents => { s with message := s.message.setContents fmt contents }
  | .clear => { s with message := s.message.clear }
  | .assign contents => { s with message := s.message.setContentsTree contents }
  | .assignMembers contents value bound storage_version =>
    ⟨s.message.setContentsTree contents,
      { s.attr with
        _attribute := value
        _reference := bound
        storage_version := storage_version }⟩

def machine : Machine (AttributeRun α) (AttributeAct α) := ⟨fun s a => some (s.step fmt cast a)⟩

/-- The getter returns what the tree says. -/
def Reads (s : AttributeRun α) : Prop :=
  (s.attr.get cast s.message.msg).1 = s.attr.valueIn cast s.message.tree

/-- A tree that takes the place of the present one while the cached value is taken for current
has this value too. -/
def Agreeing (attr : TypedAttribute α) (container : Container) (tree : PTree) : Prop :=
  attr.Live container → attr.valueIn cast tree = attr._attribute

/-- The tree is only replaced by one that agrees with the cached value, also where another
attribute stores its default, and the attribute by one that is not ahead of the container. -/
def Guarded (s : AttributeRun α) : AttributeAct α → Prop
  | .otherGet path default_value => s.message.tree.dataAt s.attr.path = none →
    Agreeing cast s.attr s.message.msg (s.message.retrieve path default_value).tree
  | .setTree contents => Agreeing cast s.attr s.message.msg contents
  | .clear => Agreeing cast s.attr s.message.msg .empty
  | .assign contents => Agreeing cast s.attr s.message.msg contents
  | .assignMembers contents value bound storage_version =>
    storage_version ≤ s.message.msg.storage_version ∧
      Agreeing cast { s.attr with
        _attribute := value
        _reference := bound
        storage_version := storage_version } s.message.msg contents
  | _ => True

/-- What the runs keep. -/
structure Coherent (attr : TypedAttribute α) (container : Container) : Prop where
  behind : attr.storage_version ≤ container.storage_version
  agreeing : Agreeing cast attr container container.tree

section Steps
variable {fmt cast} {attr : TypedAttribute α} {container : Container}

theorem Coherent.reads (h : Coherent cast attr container) :
    (attr.get cast container).1 = attr.valueIn cast container.tree := by
  by_cases hlive : attr.Live container
  · obtain ⟨data, hdata, hget⟩ := TypedAttribute.get_live cast hlive
    rw [hget, h.agreeing hlive, hdata]
  · obtain ⟨attr', hget, -⟩ := TypedAttribute.get_not_live cast hlive
    rw [hget]

/-- A container of a newer version puts the cached value out of use. -/
theorem Coherent.of_newer {container' : Container}
    (h : attr.storage_version < container'.storage_version) : Coherent cast attr container' where
  behind := h.le
  agreeing hlive := absurd hlive.2 (by omega)

theorem Coherent.setTree (h : Coherent cast attr container) {tree : PTree}
    (hguard : Agreeing cast attr container tree) : Coherent cast attr (container.setTree tree) where
  behind := h.behind
  agreeing := hguard

theorem Coherent.get (h : Coherent cast attr container) :
    Coherent cast (attr.get cast container).2.1 (attr.get cast container).2.2 := by
  by_cases hlive : attr.Live container
  · obtain ⟨data, -, hget⟩ := TypedAttribute.get_live cast hlive
    rw [hget]
    exact ⟨h.behind, h.agreeing⟩
  · obtain ⟨attr', hget, hpath, -, hcases⟩ := TypedAttribute.get_not_live cast hlive
    rw [hget]
    have hversion := container.retrieve_version attr.path attr.default_value
    have hbehind := h.behind
    rcases hcases with ⟨hnone, htag⟩ | ⟨hvalue, htag⟩
    · constructor
      · simp only [hversion]
        omega
      · rintro ⟨hsome, -⟩
        simp [hnone] at hsome
    · constructor
      · simp only [hversion]
        omega
      · intro _
        rw [hvalue, TypedAttribute.valueIn, hpath, Container.retrieve_dataAt,
          TypedAttribute.valueIn_retrieve cast]
        rfl

theorem Coherent.set (attr : TypedAttribute α) (container : Container) (data : α) :
    Coherent cast (attr.set cast container data).1 (attr.set cast container data).2 where
  behind := le_refl _
  agreeing _ := by
    simp only [TypedAttribute.set, TypedAttribute.valueIn, TypedAttribute.setReference,
      Container.store, PTree.dataAt_put_self, Option.getD_some, cast.fromText_toText]

/-- The container that `set_contents` of a text leaves. -/
theorem Coherent.setText {m : Message} (h : Coherent cast attr m.msg) (contents : Bytes) :
    Coherent cast attr (m.setContents fmt contents).msg := by
  have hbehind := h.behind
  unfold Message.setContents
  cases fmt.read contents with
  | none => exact h
  | some tree =>
    apply Coherent.of_newer
    simp only [Container.loaded]
    omega

/-- A value that is in the tree stays there when another attribute is read. -/
theorem Coherent.otherGet {m : Message} (h : Coherent cast attr m.msg) {path : Path}
    {default_value : Bytes} (hguard : m.tree.dataAt attr.path = none →
      Agreeing cast attr m.msg (m.retrieve path default_value).tree) :
    Coherent cast attr (m.retrieve path default_value).msg := by
  have hversion := m.msg.retrieve_version path default_value
  constructor
  · rw [Message.retrieve, hversion]
    exact h.behind
  · rintro ⟨hsome, hlive⟩
    rw [Message.retrieve, hversion] at hlive
    cases hdata : m.msg.tree.dataAt attr.path with
    | none => exact hguard hdata ⟨hsome, hlive⟩
    | some text =>
      have hkeep := Container.retrieve_dataAt_of_some hdata path default_value
      rw [← h.agreeing ⟨hsome, hlive⟩, TypedAttribute.valueIn, TypedAttribute.valueIn,
        Message.retrieve, hkeep, hdata]

theorem step_coherent {s : AttributeRun α} {a : AttributeAct α}
    (h : Coherent cast s.attr s.message.msg) (hguard : Guarded cast s a) :
    Coherent cast (s.step fmt cast a).attr (s.step fmt cast a).message.msg := by
  cases a with
  | get => exact h.get
  | set data => exact .set _ _ _
  | otherGet path default_value => exact h.otherGet hguard
  | otherSet path data =>
    have hbehind := h.behind
    apply Coherent.of_newer
    simp only [step, Message.store, Container.store]
    omega
  | setTree contents => exact h.setTree hguard
  | setText contents => exact h.setText contents
  | clear => exact h.setTree hguard
  | assign contents => exact h.setTree hguard
  | assignMembers contents value bound storage_version => exact ⟨hguard.1, hguard.2⟩

end Steps

def start (contents : Container) (path : Path) (default_value : Bytes) (var : Option α) :
    AttributeRun α :=
  ⟨.ofContainer contents, .new path default_value var⟩

/-- In every run where the trees put in place agree with the cached value, `get` returns what
the tree says. -/
theorem typedAttribute_reads {contents : Container} {path : Path} {default_value : Bytes}
    {var : Option α} {acts : List (AttributeAct α)} {s : AttributeRun α}
    (ho : (machine fmt cast).Obeys (Guarded cast) (start contents path default_value var) acts)
    (hr : (machine fmt cast).run (start contents path default_value var) acts = some s) :
    s.Reads cast := by
  let Inv (s : AttributeRun α) := Coherent cast s.attr s.message.msg
  have hstart : Inv (start contents path default_value var) := .of_newer contents.version_pos
  have hstep : ∀ u a v, Inv u → Guarded cast u a → (machine fmt cast).step u a = some v →
      Inv v := by
    intro u a v hu hguard hv
    obtain rfl : u.step fmt cast a = v := by simpa [machine] using hv
    exact step_coherent hu hguard
  have hs : Inv s := Machine.obeys_invariant hstep hstart ho hr
  exact hs.reads

/-- `std::string` is its own text. -/
def stringCast : LexicalCast Bytes := ⟨id, some, fun _ => rfl⟩

def sampleTree (value : Bytes) : PTree := PTree.empty.put [cstr "Id"] value

def sampleStart : AttributeRun Bytes := start .new [cstr "Id"] (cstr "0") none

/-- The attribute is set, the contents are replaced while another attribute has outdated the
cached value, and then cleared. -/
def sampleChanges : List (AttributeAct Bytes) :=
  [.set (cstr "5"), .get, .otherSet [cstr "Name"] (cstr "a"), .setTree (sampleTree (cstr "7")),
    .clear, .setText [], .setTree (sampleTree (cstr "8"))]

theorem sampleChanges_guarded :
    (machine MessageRun.sampleFormat stringCast).Obeys (Guarded stringCast) sampleStart
      sampleChanges := by
  refine ⟨trivial, trivial, trivial, ?_, ?_, trivial, ?_, trivial⟩
  all_goals exact fun hlive => absurd hlive.2 (by decide +kernel)

theorem typedAttribute_reads_sample :
    ∃ s, (machine MessageRun.sampleFormat stringCast).run sampleStart sampleChanges = some s ∧
      s.Reads stringCast ∧ s.attr.valueIn stringCast s.message.tree = some (cstr "8") :=
  ⟨_, rfl, typedAttribute_reads _ _ sampleChanges_guarded rfl, rfl⟩

/-- The contents are replaced while the cached value is current. -/
theorem typedAttribute_misses_tree :
    ∃ s, (machine MessageRun.sampleFormat stringCast).run sampleStart
        [.set (cstr "5"), .setTree (sampleTree (cstr "7"))] = some s ∧
      (s.attr.get stringCast s.message.msg).1 = some (cstr "5") ∧
      s.attr.valueIn stringCast s.message.tree = some (cstr "7") ∧ ¬ s.Reads stringCast := by
  refine ⟨_, rfl, rfl, rfl, fun h => ?_⟩
  change some (cstr "5") = some (cstr "7") at h
  exact absurd h (by decide)

end AttributeRun
end V2IHub.Messages
