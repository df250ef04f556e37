import V2IHub.Api.IvpMessage
import V2IHub.Client.ConfigValue
import V2IHub.Messages.TypedAttribute

/-! The header attributes of a routed message. Each is bound to a field of the C structure and is
written to the property tree when it is read. -/
namespace V2IHub.Messages
open Foundation Foundation.DecimalText Api

/-- `boost::lexical_cast` to an unsigned type of that width, which negates modulo `2 ^ w`. -/
def lexicalUnsigned (w : ℕ) (text : Bytes) : Option (BitVec w) :=
  let (negative, digits) :=
    match text with
    | 45 :: rest => (true, rest)
    | 43 :: rest => (false, rest)
    | rest => (false, rest)
  if digits ≠ [] ∧ digits.all isDigit then
    let value := digits.foldl (fun n b => n * 10 + digitVal b) 0
    if value < 2 ^ w then
      some (if negative then -BitVec.ofNat w value else BitVec.ofNat w value)
    else none
  else none

section Casts

/-- Digits are no sign. -/
theorem decimal_ne_sign (n : ℕ) {c : UInt8} (hc : isDigit c = false) (rest : Bytes) :
    decimal n ≠ c :: rest := by
  intro h
  have hdigit := decimal_isDigit n c (by simp [h])
  rw [hc] at hdigit
  cases hdigit

theorem lexicalUnsigned_decimal {w : ℕ} (x : BitVec w) :
    lexicalUnsigned w (decimal x.toNat) = some x := by
  have hsplit : (match decimal x.toNat with
      | 45 :: rest => (true, rest)
      | 43 :: rest => (false, rest)
      | rest => (false, rest)) = (false, decimal x.toNat) := by
    split
    · next h => exact absurd h (decimal_ne_sign _ rfl _)
    · next h => exact absurd h (decimal_ne_sign _ rfl _)
    · rfl
  have hdigits : decimal x.toNat ≠ [] ∧ (decimal x.toNat).all isDigit = true :=
    ⟨decimal_ne_nil _, List.all_eq_true.mpr (decimal_isDigit _)⟩
  simp only [lexicalUnsigned, hsplit, if_pos hdigits, decimal_value, if_pos x.isLt]
  simp

theorem foldl_decimal (n : ℕ) :
    (decimal n).foldl (fun (n : ℤ) b => 10 * n + digitVal b) 0 = n := by
  have hcast : ∀ (l : Bytes) (n : ℕ), l.foldl (fun (n : ℤ) b => 10 * n + digitVal b) n =
      ((l.foldl (fun acc b => acc * 10 + digitVal b) n : ℕ) : ℤ) := by
    intro l
    induction l with
    | nil => intro n; rfl
    | cons b l ih =>
      intro n
      rw [List.foldl_cons, List.foldl_cons, ← ih]
      congr 1
      push_cast
      ring
  rw [← Nat.cast_zero, hcast, decimal_value]

theorem lexicalInt_formatInt (x : BitVec 32) :
    (Client.lexicalInt (formatInt x.toInt)).map (BitVec.ofInt 32) = some x := by
  have hlow : -2 ^ 31 ≤ x.toInt := x.le_toInt
  have hhigh : x.toInt < 2 ^ 31 := x.toInt_lt
  have hdigits : decimal x.toInt.natAbs ≠ [] ∧ (decimal x.toInt.natAbs).all isDigit = true :=
    ⟨decimal_ne_nil _, List.all_eq_true.mpr (decimal_isDigit _)⟩
  have hvalue : Client.lexicalInt (formatInt x.toInt) = some x.toInt := by
    by_cases hneg : x.toInt < 0
    · have htext : formatInt x.toInt = 45 :: decimal x.toInt.natAbs := by
        simp [formatInt, signText, hneg, MINUS]
      simp only [htext, Client.lexicalInt, if_pos hdigits, foldl_decimal, if_true]
      rw [show -(x.toInt.natAbs : ℤ) = x.toInt by omega, if_pos ⟨hlow, hhigh⟩]
    · have htext : formatInt x.toInt = decimal x.toInt.natAbs := by
        simp [formatInt, signText, hneg]
      rw [htext, Client.lexicalInt, if_pos hdigits]
      · simp only [foldl_decimal, Bool.false_eq_true, if_false]
        rw [show (x.toInt.natAbs : ℤ) = x.toInt by omega, if_pos ⟨hlow, hhigh⟩]
      · exact fun rest h => decimal_ne_sign _ rfl rest h
      · exact fun rest h => decimal_ne_sign _ rfl rest h
  rw [hvalue, Option.map_some, BitVec.ofInt_toInt]

end Casts

def unsignedCast (w : ℕ) : LexicalCast (BitVec w) where
  toText x := decimal x.toNat
  fromText := lexicalUnsigned w
  fromText_toText := lexicalUnsigned_decimal

/-- An `int`. -/
def intCast : LexicalCast (BitVec 32) where
  toText x := formatInt x.toInt
  fromText text := (Client.lexicalInt text).map (BitVec.ofInt 32)
  fromText_toText := lexicalInt_formatInt

/-- The declaration of a header attribute: where its value is in the tree and in the structure,
and what its allocator makes of a value. A `StringAllocator` keeps the string it made last. -/
structure HeaderAttribute (α : Type) where
  path : Path
  default_value : Bytes
  cast : LexicalCast α
  /-- `!**_active` of a value -/
  blank : α → Bool
  copy : α → α
  isString : Bool
  read : IvpMessage → Option α
  write : IvpMessage → α → IvpMessage

/-- The value is there and is not blank. -/
def HeaderAttribute.given {α : Type} (a : HeaderAttribute α) (v : Option α) : Option α :=
  v.filter fun x => !a.blank x

def HeaderAttribute.string (name default_value : Bytes) (read : IvpMessage → Option Bytes)
    (write : IvpMessage → Bytes → IvpMessage) : HeaderAttribute Bytes where
  path := [cstr "header", name]
  default_value := default_value
  cast := AttributeRun.stringCast
  blank _ := false
  copy := cstringAt
  isString := true
  read := read
  write := write

def HeaderAttribute.unsigned {w : ℕ} (name : Bytes) (read : IvpMessage → BitVec w)
    (write : IvpMessage → BitVec w → IvpMessage) : HeaderAttribute (BitVec w) where
  path := [cstr "header", name]
  default_value := cstr "0"
  cast := unsignedCast w
  blank x := x = 0
  copy := id
  isString := false
  read msg := some (read msg)
  write := write

def HeaderAttribute.dsrc (name : Bytes) (read : IvpDsrcMetadata → BitVec 32)
    (write : IvpDsrcMetadata → BitVec 32 → IvpDsrcMetadata) : HeaderAttribute (BitVec 32) where
  path := [cstr "header", cstr "dsrcMetadata", name]
  default_value := cstr "-1"
  cast := intCast
  blank x := x = 0
  copy := id
  isString := false
  read msg := msg.dsrcMetadata.map read
  write msg x := { msg with dsrcMetadata := msg.dsrcMetadata.map (write · x) }

inductive Header
  | type | subtype | source | sourceId | encoding | timestamp | flags | dsrcChannel | dsrcPsid
  deriving DecidableEq

namespace Header

def Val : Header → Type
  | type | subtype | source | encoding => Bytes
  | timestamp => BitVec 64
  | sourceId | flags | dsrcChannel | dsrcPsid => BitVec 32

def attr : (h : Header) → HeaderAttribute h.Val
  | type => .string (cstr "type") (cstr "Unknown") (·.type) fun msg x =>
      { msg with type := some x }
  | subtype => .string (cstr "subtype") (cstr "Unknown") (·.subtype) fun msg x =>
      { msg with subtype := some x }
  | source => .string (cstr "source") [] (·.source) fun msg x => { msg with source := some x }
  | sourceId => .unsigned (cstr "sourceId") (·.sourceId) fun msg x => { msg with sourceId := x }
  | encoding => .string (cstr "encoding") [] (·.encoding) fun msg x =>
      { msg with encoding := some x }
  | timestamp => .unsigned (cstr "timestamp") (·.timestamp) fun msg x =>
      { msg with timestamp := x }
  | flags => .unsigned (cstr "flags") (·.flags) fun msg x => { msg with flags := x }
  | dsrcChannel => .dsrc (cstr "channel") (·.channel) fun metadata x =>
      { metadata with channel := x }
  | dsrcPsid => .dsrc (cstr "psid") (·.psid) fun metadata x => { metadata with psid := x }

/-- The attribute is one of the metadata, which a message may be without. -/
def isDsrc : Header → Bool
  | dsrcChannel | dsrcPsid => true
  | _ => false

end Header

/-- Where `_active` of a wrapped attribute leads: to memory of its own, to a field of the present
message, or to one of a message that was destroyed. -/
inductive Active (α : Type)
  | internal (value : Option α)
  | field
  | gone

/-- What `_str` of a `StringAllocator` points to: to nothing that another pointer shares, to the
string in the field of the present message, or to one that was freed with its message. -/
inductive Kept
  | own
  | shared
  | freed
  deriving DecidableEq

structure Wrapped (α : Type) where
  _attribute : Option α
  storage_version : ℤ
  active : Active α
  _str : Kept

namespace Wrapped
variable {α : Type} (a : HeaderAttribute α)

/-- A new attribute. -/
def new : Wrapped α := ⟨none, 0, .internal none, .own⟩

def base (w : Wrapped α) : TypedAttribute α :=
  ⟨a.path, a.default_value, w._attribute, none, w.storage_version⟩

def setBase (w : Wrapped α) (b : TypedAttribute α) : Wrapped α :=
  { w with _attribute := b._attribute, storage_version := b.storage_version }

/-- What is at `*_active`, if this memory may be read. -/
def held (w : Wrapped α) (msg : Option IvpMessage) : Option (Option α) :=
  match w.active with
  | .internal value => some value
  | .field => msg.map a.read
  | .gone => none

/-- `construct` of the allocator, which frees the string that it made before. -/
def construct (w : Wrapped α) (msg : Option IvpMessage) (data : α) :
    Option (Wrapped α × Option IvpMessage) :=
  if a.isString = true ∧ w._str = .freed then none
  else match w.active with
    | .internal _ =>
      some ({ w with active := .internal (some (a.copy data)), _str := .own }, msg)
    | .field => msg.map fun m =>
      ({ w with _str := if a.isString then .shared else w._str }, some (a.write m (a.copy data)))
    | .gone => none

def flush (w : Wrapped α) (container : Container) (value : α) : Wrapped α × Container :=
  let (b, container) := (w.base a).set a.cast container value
  (w.setBase b, container)

/-- `none` is an exception, or memory that is used after it was freed. -/
def set (w : Wrapped α) (container : Container) (msg : Option IvpMessage) (data : α) :
    Option (Wrapped α × Container × Option IvpMessage) := do
  let (w, msg) ← w.construct a msg data
  let value ← (← w.held a msg)
  let (w, container) := w.flush a container value
  some (w, container, msg)

def get (w : Wrapped α) (container : Container) (msg : Option IvpMessage) :
    Option (α × Wrapped α × Container × Option IvpMessage) := do
  match a.given (← w.held a msg) with
  | some x =>
    let (w, container) := w.flush a container x
    some (x, w, container, msg)
  | none =>
    match (w.base a).get a.cast container with
    | (none, _, _) => none
    | (some data, b, container) =>
      let (w, container, msg) ← (w.setBase b).set a container msg data
      let x ← (← w.held a msg)
      let (w, container) := w.flush a container x
      some (x, w, container, msg)

/-- `bind` to a field of the present message. -/
def bind (w : Wrapped α) : Wrapped α := { w with active := .field }

/-- The message that the attribute was bound to is destroyed. -/
def orphan (w : Wrapped α) : Wrapped α where
  _attribute := w._attribute
  storage_version := w.storage_version
  active := match w.active with
    | .field => .gone
    | active => active
  _str := if w._str = .shared then .freed else w._str

/-- What `get` returns. -/
def value (w : Wrapped α) (container : Container) (msg : Option IvpMessage) : Option α := do
  match a.given (← w.held a msg) with
  | some x => some x
  | none =>
    if a.isString = true ∧ w._str = .freed then none
    else ((w.base a).get a.cast container).1.map a.copy

section Lemmas
variable {a : HeaderAttribute α} {w : Wrapped α} {container : Container} {msg : Option IvpMessage}

/-- What is written to the field of the message is read there. -/
def Writable (a : HeaderAttribute α) (w : Wrapped α) (msg : Option IvpMessage) : Prop :=
  w.active = .field → ∃ m, msg = some m ∧ ∀ x, a.read (a.write m x) = some x

/-- The value that was constructed is the one that is read next. -/
theorem held_construct (hw : w.Writable a msg) {v : Option α} (hheld : w.held a msg = some v)
    (hstr : ¬ (a.isString = true ∧ w._str = .freed)) (data : α) :
    ∃ w' msg', w.construct a msg data = some (w', msg') ∧
      w'.held a msg' = some (some (a.copy data)) := by
  rw [construct, if_neg hstr]
  cases hactive : w.active with
  | internal value => exact ⟨_, _, rfl, rfl⟩
  | gone => simp [held, hactive] at hheld
  | field =>
    obtain ⟨m, rfl, hwrite⟩ := hw hactive
    exact ⟨_, _, rfl, congrArg some (hwrite _)⟩

@[simp] theorem setBase_active (b : TypedAttribute α) : (w.setBase b).active = w.active := rfl

@[simp] theorem setBase_str (b : TypedAttribute α) : (w.setBase b)._str = w._str := rfl

theorem flush_eq (container : Container) (v : α) : w.flush a container v =
    ({ w with _attribute := some v, storage_version := container.storage_version + 1 },
      container.store a.path (a.cast.toText v)) := rfl

theorem held_congr {w' : Wrapped α} (h : w'.active = w.active) : w'.held a msg = w.held a msg := by
  rw [held, held, h]

/-- `set` after the construction. -/
theorem set_eq (hw : w.Writable a msg) {v : Option α} (hheld : w.held a msg = some v)
    (hstr : ¬ (a.isString = true ∧ w._str = .freed)) (container : Container) (data : α) :
    ∃ w' msg', w.construct a msg data = some (w', msg') ∧
      w'.held a msg' = some (some (a.copy data)) ∧
      w.set a container msg data = some ((w'.flush a container (a.copy data)).1,
        (w'.flush a container (a.copy data)).2, msg') := by
  obtain ⟨w', msg', hconstruct, hheld'⟩ := held_construct hw hheld hstr data
  refine ⟨w', msg', hconstruct, hheld', ?_⟩
  simp [set, hconstruct, hheld']

theorem set_eq_none (hstr : a.isString = true ∧ w._str = .freed) (container : Container) (data : α) :
    w.set a container msg data = none := by
  simp [set, construct, hstr]

/-- What `get` changes beside the value that it returns. -/
structure Got (a : HeaderAttribute α) (w : Wrapped α) (container : Container)
    (msg : Option IvpMessage) (v : α) (w' : Wrapped α) (container' : Container)
    (msg' : Option IvpMessage) : Prop where
  cached : w'._attribute = some v
  bounded : w'.storage_version = container'.storage_version
  newer : container.storage_version < container'.storage_version
  stored : container'.tree.dataAt a.path = some (a.cast.toText v)
  others : ∀ path, ¬ a.path <+: path → ¬ path <+: a.path →
    container'.tree.getChild path = container.tree.getChild path
  /-- A value that was given stays as it is. -/
  kept : ∀ m, w.active = .field → msg = some m → (a.given (a.read m)).isSome →
    msg' = msg ∧ w'.active = .field ∧ w'._str = w._str
  filled : ∀ m, w.active = .field → msg = some m → a.given (a.read m) = none →
    msg' = some (a.write m v) ∧ w'.active = .field ∧ (a.isString = true → w'._str = .shared)

theorem retrieve_others {path : Path} (h : ¬ a.path <+: path) (h' : ¬ path <+: a.path)
    (default_value : Bytes) :
    (container.retrieve a.path default_value).2.tree.getChild path =
      container.tree.getChild path := by
  rw [Container.retrieve]
  cases container.tree.dataAt a.path with
  | none => exact PTree.getChild_change_of_not_prefix h h'
  | some data => rfl

/-- The container behind `get` of the attribute at its base. -/
theorem base_get_container (w : Wrapped α) (container : Container) :
    ((w.base a).get a.cast container).2.2 = container ∨
      ((w.base a).get a.cast container).2.2 =
        (container.retrieve a.path a.default_value).2 := by
  by_cases hlive : (w.base a).Live container
  · obtain ⟨data, -, hget⟩ := TypedAttribute.get_live a.cast hlive
    exact .inl (by rw [hget])
  · obtain ⟨b, hget, -⟩ := TypedAttribute.get_not_live a.cast hlive
    exact .inr (by rw [hget]; rfl)

theorem get_spec (hw : w.Writable a msg) (container : Container) :
    ∀ v, w.value a container msg = v →
      match v with
      | none => w.get a container msg = none
      | some x => ∃ w' container' msg', w.get a container msg = some (x, w', container', msg') ∧
          Got a w container msg x w' container' msg' := by
  intro v hv
  rw [value] at hv
  rw [get]
  cases hheld : w.held a msg with
  | none =>
    rw [hheld] at hv
    obtain rfl : none = v := hv
    rfl
  | some u =>
    simp only [hheld, Option.bind_eq_bind, Option.bind_some] at hv ⊢
    have hfield : ∀ m, w.active = .field → msg = some m → u = a.read m := by
      rintro m hactive rfl
      simpa [held, hactive] using hheld.symm
    cases hgiven : a.given u with
    | some x =>
      simp only [hgiven] at hv
      subst hv
      refine ⟨_, _, _, rfl, ⟨rfl, rfl, ?_, ?_, ?_, ?_, ?_⟩⟩
      · exact Int.lt_succ _
      · exact PTree.dataAt_put_self _ _ _
      · exact fun path h h' => PTree.getChild_change_of_not_prefix h h'
      · exact fun m hactive hm _ => ⟨rfl, hactive, rfl⟩
      · intro m hactive hm hnone
        rw [← hfield m hactive hm, hgiven] at hnone
        cases hnone
    | none =>
      simp only [hgiven] at hv
      by_cases hstr : a.isString = true ∧ w._str = .freed
      · rw [if_pos hstr] at hv
        subst hv
        simp only
        rcases (w.base a).get a.cast container with ⟨_ | data, b, container'⟩
        · rfl
        · simp only
          rw [set_eq_none (w := w.setBase b) hstr]
          rfl
      · rw [if_neg hstr] at hv
        have hcontainer := base_get_container (a := a) w container
        rcases hget : (w.base a).get a.cast container with ⟨_ | data, b, container'⟩
        · rw [hget] at hv
          subst hv
          rfl
        · rw [hget] at hv hcontainer
          subst hv
          obtain ⟨w', msg', hconstruct, hheld', hset⟩ := set_eq (w := w.setBase b) hw
            ((held_congr rfl).trans hheld) hstr container' data
          have hold : ∀ path, ¬ a.path <+: path → ¬ path <+: a.path →
              container'.tree.getChild path = container.tree.getChild path := by
            intro path h h'
            rcases hcontainer with rfl | rfl
            · rfl
            · exact retrieve_others h h' _
          have hversion : container'.storage_version = container.storage_version := by
            rcases hcontainer with rfl | rfl
            · rfl
            · exact Container.retrieve_version _ _ _
          simp only [flush_eq] at hset
          simp only [hset, Option.bind_some]
          have hflushed : (Wrapped.mk (some (a.copy data)) (container'.storage_version + 1) w'.active
              w'._str).held a msg' = some (some (a.copy data)) := (held_congr rfl).trans hheld'
          rw [hflushed]
          refine ⟨_, _, _, rfl, ⟨rfl, rfl, ?_, ?_, ?_, ?_, ?_⟩⟩
          · change _ < container'.storage_version + 1 + 1
            omega
          · exact PTree.dataAt_put_self _ _ _
          · intro path h h'
            rw [← hold path h h']
            exact (PTree.getChild_change_of_not_prefix h h').trans
              (PTree.getChild_change_of_not_prefix h h')
          · intro m hactive hm hsome
            rw [← hfield m hactive hm, hgiven] at hsome
            cases hsome
          · rintro m hactive rfl -
            simp only [construct, setBase_active, setBase_str, if_neg hstr, hactive,
              Option.map_some, Option.some.injEq, Prod.mk.injEq] at hconstruct
            obtain ⟨rfl, rfl⟩ := hconstruct
            exact ⟨rfl, rfl, fun h => if_pos h⟩

/-- What the base attribute reads, when what it holds is older than the container. -/
theorem base_get_stale (w : Wrapped α) {container : Container}
    (h : w.storage_version < container.storage_version) :
    ((w.base a).get a.cast container).1 =
      a.cast.fromText ((container.tree.dataAt a.path).getD a.default_value) := by
  have hlive : ¬ (w.base a).Live container := fun hlive => by
    have := hlive.2
    simp only [base] at this
    omega
  obtain ⟨b, hget, -⟩ := TypedAttribute.get_not_live a.cast hlive
  rw [hget]
  rfl

/-- What the base attribute reads, when the tree says what it holds. -/
theorem base_get_synced {v : α} (hcached : w._attribute = some v)
    (hstored : container.tree.dataAt a.path = some (a.cast.toText v)) :
    ((w.base a).get a.cast container).1 = some v := by
  by_cases hlive : (w.base a).Live container
  · obtain ⟨data, hdata, hget⟩ := TypedAttribute.get_live a.cast hlive
    rw [hget]
    exact hdata.symm.trans hcached
  · obtain ⟨b, hget, -⟩ := TypedAttribute.get_not_live a.cast hlive
    rw [hget, TypedAttribute.valueIn]
    exact (congrArg (fun text => a.cast.fromText (text.getD a.default_value)) hstored).trans
      (a.cast.fromText_toText v)

theorem value_field {m : IvpMessage} (hactive : w.active = .field) :
    w.value a container (some m) = match a.given (a.read m) with
      | some x => some x
      | none => if a.isString = true ∧ w._str = .freed then none
        else ((w.base a).get a.cast container).1.map a.copy := by
  simp only [value, held, hactive, Option.map_some, Option.bind_eq_bind, Option.bind_some]

end Lemmas
end Wrapped

end V2IHub.Messages
