import V2IHub.Foundation.Machine
import V2IHub.Messages.PropertyTree

/-! The message class: its contents, the text that it caches, and what its text says. -/
namespace V2IHub.Messages
open Foundation

/-- A serialization type over the property tree library; `none` is an exception, which leaves
the tree as it was. -/
structure Format where
  write : PTree → Option Bytes
  read : Bytes → Option PTree

/-- `tmx_message`; `flush` of a container is the one of this class, which does nothing. -/
structure Message where
  msg : Container
  msgString : Bytes
  msgVersion : ℤ

/-- The fragments between the separators of a path; the last one is not empty. -/
def fragments (path : Bytes) : Path :=
  let parts := path.splitOn 46
  if parts.getLast? = some [] then parts.dropLast else parts

namespace Message

/-- A new message with a copy of a container. -/
def ofContainer (contents : Container) : Message := ⟨contents, [], -1⟩

def tree (m : Message) : PTree := m.msg.tree

/-- The text is cached for the version of the container. -/
def cached (m : Message) : Bool := m.msgVersion = m.msg.storage_version

/-- The tree that `as_tree` returns a reference to is written. -/
def mutateTree (m : Message) (tree : PTree) : Message := { m with msg := m.msg.setTree tree }

/-- `set_contents` of a tree, which the forms with a container and `operator=` call. -/
def setContentsTree (m : Message) (contents : PTree) : Message where
  msg := m.msg.setTree contents
  msgString := []
  msgVersion := -1

def setContents (fmt : Format) (m : Message) (contents : Bytes) : Message :=
  match fmt.read contents with
  | none => m
  | some tree =>
    let msg := m.msg.loaded tree
    ⟨msg, contents, msg.storage_version⟩

/-- `operator>>` -/
def extract (fmt : Format) (m : Message) (contents : Bytes) : Message :=
  match fmt.read contents with
  | none => m
  | some tree => m.setContentsTree tree

def clear (m : Message) : Message := m.mutateTree .empty

def eraseArray (m : Message) (arrayName : Bytes) : Message :=
  m.mutateTree (m.tree.erase arrayName)

def addArrayElement (m : Message) (arrayName : Bytes) (element : PTree) : Message :=
  m.mutateTree (m.tree.change (fun array => array.pushBack [] element) (fragments arrayName))

def setArray (m : Message) (arrayName : Bytes) (array : List PTree) : Message :=
  array.foldl (fun m element => m.addArrayElement arrayName element) (m.eraseArray arrayName)

/-- The setter of an attribute. -/
def store (m : Message) (path : Path) (data : Bytes) : Message :=
  { m with msg := m.msg.store path data }

/-- The getter of an attribute. -/
def retrieve (m : Message) (path : Path) (default_value : Bytes) : Message :=
  { m with msg := (m.msg.retrieve path default_value).2 }

def flush (m : Message) : Message := { m with msgString := [], msgVersion := -1 }

/-- `operator<<` -/
def insertion (fmt : Format) (m : Message) : Option Bytes :=
  if m.cached then some m.msgString else fmt.write m.tree

def toString (fmt : Format) (m : Message) : Option Bytes × Message :=
  match m.insertion fmt with
  | none => (none, m)
  | some text => (some text, { m with msgVersion := m.msg.storage_version, msgString := text })

end Message

inductive MessageAct where
  | setTree (contents : PTree)
  | setText (contents : Bytes)
  | extract (contents : Bytes)
  | store (path : Path) (data : Bytes)
  | retrieve (path : Path) (default_value : Bytes)
  | setArray (arrayName : Bytes) (array : List PTree)
  | addArrayElement (arrayName : Bytes) (element : PTree)
  | eraseArray (arrayName : Bytes)
  | clear
  | mutateTree (tree : PTree)
  | flush
  | toString

/-- `source` is the text that the contents were set from, until they are set or stored otherwise
or flushed. -/
structure MessageRun where
  message : Message
  source : Option Bytes

namespace MessageRun
variable (fmt : Format)

def step (s : MessageRun) : MessageAct → MessageRun
  | .setTree contents => ⟨s.message.setContentsTree contents, none⟩
  | .setText contents =>
    ⟨s.message.setContents fmt contents,
      if (fmt.read contents).isSome then some contents else s.source⟩
  | .extract contents =>
    ⟨s.message.extract fmt contents, if (fmt.read contents).isSome then none else s.source⟩
  | .store path data => ⟨s.message.store path data, none⟩
  | .retrieve path default_value => { s with message := s.message.retrieve path default_value }
  | .setArray arrayName array => { s with message := s.message.setArray arrayName array }
  | .addArrayElement arrayName element =>
    { s with message := s.message.addArrayElement arrayName element }
  | .eraseArray arrayName => { s with message := s.message.eraseArray arrayName }
  | .clear => { s with message := s.message.clear }
  | .mutateTree tree => { s with message := s.message.mutateTree tree }
  | .flush => ⟨s.message.flush, none⟩
  | .toString => { s with message := (s.message.toString fmt).2 }

def machine : Machine MessageRun MessageAct := ⟨fun s a => some (s.step fmt a)⟩

/-- The operations that write the tree past the version of the container. -/
def uncounted : MessageAct → Bool
  | .retrieve _ _ => true
  | .setArray _ _ => true
  | .addArrayElement _ _ => true
  | .eraseArray _ => true
  | .clear => true
  | .mutateTree _ => true
  | _ => false

/-- An operation that writes past the version changes nothing while a text is cached. -/
def Counted (s : MessageRun) (a : MessageAct) : Prop :=
  uncounted a = true → s.message.cached = true → (s.step fmt a).message.tree = s.message.tree

/-- The text of the message by design. -/
def text (s : MessageRun) : Option Bytes :=
  match s.source with
  | some contents => some contents
  | none => fmt.write s.message.tree

/-- What the cache holds. -/
structure Coherent (s : MessageRun) : Prop where
  behind : s.message.msgVersion ≤ s.message.msg.storage_version
  written : s.source = none → s.message.cached = true →
    fmt.write s.message.tree = some s.message.msgString
  read : ∀ contents, s.source = some contents → s.message.cached = true ∧
    s.message.msgString = contents ∧ fmt.read contents = some s.message.tree

section Steps
variable {fmt} {s : MessageRun} {a : MessageAct}

/-- The cached text and both versions, which an uncounted operation leaves alone. -/
def cache (m : Message) : Bytes × ℤ × ℤ := (m.msgString, m.msgVersion, m.msg.storage_version)

theorem cache_setArray (m : Message) (arrayName : Bytes) (array : List PTree) :
    cache (m.setArray arrayName array) = cache m := by
  have hfold : ∀ m : Message,
      cache (array.foldl (fun m element => m.addArrayElement arrayName element) m) = cache m := by
    induction array with
    | nil => exact fun _ => rfl
    | cons element array ih => exact fun m => ih (m.addArrayElement arrayName element)
  exact hfold _

theorem cache_step (h : uncounted a = true) : cache (s.step fmt a).message = cache s.message := by
  cases a with
  | retrieve path default_value =>
    simp only [cache, step, Message.retrieve, Container.retrieve_version]
  | setArray arrayName array => exact cache_setArray _ _ _
  | addArrayElement arrayName element => rfl
  | eraseArray arrayName => rfl
  | clear => rfl
  | mutateTree tree => rfl
  | setTree | setText | extract | store | flush | toString => simp [uncounted] at h

theorem source_step (h : uncounted a = true) : (s.step fmt a).source = s.source := by
  cases a <;> first | rfl | simp [uncounted] at h

theorem cached_eq_of_cache {m m' : Message} (h : cache m' = cache m) : m'.cached = m.cached := by
  simp only [cache, Prod.mk.injEq] at h
  obtain ⟨-, hversion, hstorage⟩ := h
  rw [Message.cached, Message.cached, hversion, hstorage]

theorem Coherent.uncounted (h : s.Coherent fmt) (ha : uncounted a = true)
    (hguard : Counted fmt s a) : (s.step fmt a).Coherent fmt := by
  have hcache : cache (s.step fmt a).message = cache s.message := cache_step ha
  have hcached := cached_eq_of_cache hcache
  simp only [cache, Prod.mk.injEq] at hcache
  obtain ⟨hstring, hversion, hstorage⟩ := hcache
  constructor
  · rw [hversion, hstorage]
    exact h.behind
  · intro hsource hc
    rw [source_step ha] at hsource
    rw [hcached] at hc
    rw [hstring, hguard ha hc]
    exact h.written hsource hc
  · intro contents hsource
    rw [source_step ha] at hsource
    obtain ⟨hc, htext, hread⟩ := h.read contents hsource
    rw [hcached, hstring, hguard ha hc]
    exact ⟨hc, htext, hread⟩

/-- A cache that is behind holds nothing that could be wrong. -/
theorem Coherent.of_lt (h : s.message.msgVersion < s.message.msg.storage_version)
    (hsource : s.source = none) : s.Coherent fmt := by
  constructor
  · omega
  · intro _ hc
    simp only [Message.cached, decide_eq_true_eq] at hc
    omega
  · intro contents hsome
    simp [hsource] at hsome

/-- A message whose cache was cleared. -/
theorem Coherent.of_cleared (h : s.message.msgVersion = -1) (hsource : s.source = none) :
    s.Coherent fmt := by
  have hpos := s.message.msg.version_pos
  apply Coherent.of_lt _ hsource
  omega

theorem Coherent.setText (h : s.Coherent fmt) (contents : Bytes) :
    (s.step fmt (.setText contents)).Coherent fmt := by
  cases hread : fmt.read contents with
  | none =>
    have hsame : s.step fmt (.setText contents) = s := by
      simp [step, Message.setContents, hread]
    rw [hsame]
    exact h
  | some tree =>
    constructor
    · simp [step, Message.setContents, hread]
    · intro hsource
      simp [step, hread] at hsource
    · intro contents' hsource
      obtain rfl : contents = contents' := by simpa [step, hread] using hsource
      simp [step, Message.setContents, hread, Message.cached, Message.tree, Container.loaded]

theorem Coherent.extract (h : s.Coherent fmt) (contents : Bytes) :
    (s.step fmt (.extract contents)).Coherent fmt := by
  cases hread : fmt.read contents with
  | none =>
    have hsame : s.step fmt (.extract contents) = s := by
      simp [step, Message.extract, hread]
    rw [hsame]
    exact h
  | some tree =>
    apply Coherent.of_cleared
    · simp [step, Message.extract, hread, Message.setContentsTree]
    · simp [step, hread]

theorem Coherent.store (h : s.Coherent fmt) (path : Path) (data : Bytes) :
    (s.step fmt (.store path data)).Coherent fmt := by
  have hbehind := h.behind
  apply Coherent.of_lt
  · simp only [step, Message.store, Container.store]
    omega
  · rfl

theorem insertion_eq_text (h : s.Coherent fmt) : s.message.insertion fmt = s.text fmt := by
  unfold Message.insertion text
  cases hsource : s.source with
  | none =>
    cases hc : s.message.cached with
    | false => rfl
    | true => exact (h.written hsource hc).symm
  | some contents =>
    obtain ⟨hc, htext, -⟩ := h.read contents hsource
    simp [hc, htext]

theorem Coherent.toString (h : s.Coherent fmt) : (s.step fmt .toString).Coherent fmt := by
  cases hins : s.message.insertion fmt with
  | none =>
    have hsame : s.step fmt .toString = s := by simp [step, Message.toString, hins]
    rw [hsame]
    exact h
  | some out =>
    have htext : s.text fmt = some out := (insertion_eq_text h).symm.trans hins
    have hmsg : (s.step fmt .toString).message =
        ⟨s.message.msg, out, s.message.msg.storage_version⟩ := by
      simp [step, Message.toString, hins]
    constructor
    · rw [hmsg]
    · intro hsource _
      have hsource : s.source = none := hsource
      rw [text, hsource] at htext
      rw [hmsg]
      exact htext
    · intro contents hsource
      have hsource : s.source = some contents := hsource
      obtain rfl : contents = out := by simpa [text, hsource] using htext
      obtain ⟨-, -, hread⟩ := h.read contents hsource
      rw [hmsg]
      exact ⟨by simp [Message.cached], rfl, hread⟩

theorem Coherent.step (h : s.Coherent fmt) (hguard : Counted fmt s a) :
    (s.step fmt a).Coherent fmt := by
  cases a with
  | setTree contents => exact .of_cleared rfl rfl
  | setText contents => exact h.setText contents
  | extract contents => exact h.extract contents
  | store path data => exact h.store path data
  | flush => exact .of_cleared rfl rfl
  | toString => exact h.toString
  | retrieve | setArray | addArrayElement | eraseArray | clear | mutateTree =>
    exact h.uncounted rfl hguard

end Steps

/-- A message that is made from a container. -/
def start (contents : Container) : MessageRun := ⟨.ofContainer contents, none⟩

/-- In every run where no uncounted operation changes the tree while a text is cached, the text
of the message is the written tree, or the text it was read from. -/
theorem toString_follows_tree {acts : List MessageAct} {contents : Container} {s : MessageRun}
    (ho : (machine fmt).Obeys (Counted fmt) (start contents) acts)
    (hr : (machine fmt).run (start contents) acts = some s) :
    (s.message.toString fmt).1 = s.text fmt ∧ s.message.insertion fmt = s.text fmt ∧
      ∀ text, s.source = some text → fmt.read text = some s.message.tree := by
  have hstep : ∀ u a v, u.Coherent fmt → Counted fmt u a → (machine fmt).step u a = some v →
      v.Coherent fmt := by
    intro u a v hu hguard hv
    obtain rfl : u.step fmt a = v := by simpa [machine] using hv
    exact hu.step hguard
  have hs : s.Coherent fmt :=
    Machine.obeys_invariant hstep (Coherent.of_cleared rfl rfl) ho hr
  have hins := insertion_eq_text hs
  refine ⟨?_, hins, fun text hsource => (hs.read text hsource).2.2⟩
  rw [← hins, Message.toString]
  cases s.message.insertion fmt <;> rfl

/-- What the JSON format does with the empty object and with an object of one plain member. -/
def sampleFormat : Format where
  write
    | .node [] [] => some (cstr "\x7b\x7d\n")
    | .node [] [(key, .node value [])] =>
      some (cstr "\x7b\"" ++ key ++ cstr "\":\"" ++ value ++ cstr "\"\x7d\n")
    | _ => none
  read text := if text = cstr "\x7b \x7d" then some .empty else none

/-- The contents are read from a text, stored into, cleared, stored into again and written. -/
def sampleActs : List MessageAct :=
  [.setText (cstr "\x7b \x7d"), .store [cstr "Id"] (cstr "7"), .clear,
    .store [cstr "Id"] (cstr "8"), .toString]

theorem sampleActs_counted :
    (machine sampleFormat).Obeys (Counted sampleFormat) (start .new) sampleActs := by
  have hcounted : ∀ s a, uncounted a = false → Counted sampleFormat s a := by
    intro s a ha h
    simp [ha] at h
  refine ⟨hcounted _ _ rfl, hcounted _ _ rfl, fun _ hc => ?_, hcounted _ _ rfl,
    hcounted _ _ rfl, trivial⟩
  exact absurd hc (by decide +kernel)

theorem toString_follows_tree_sample :
    ∃ s, (machine sampleFormat).run (start .new) sampleActs = some s ∧
      (s.message.toString sampleFormat).1 = some (cstr "\x7b\"Id\":\"8\"\x7d\n") :=
  ⟨_, rfl, (toString_follows_tree sampleFormat sampleActs_counted rfl).1⟩

/-- A text that is no written tree comes back as it is. -/
theorem toString_keeps_source :
    ∃ s, (machine sampleFormat).run (start .new) [.setText (cstr "\x7b \x7d")] = some s ∧
      (s.message.toString sampleFormat).1 = some (cstr "\x7b \x7d") ∧
      sampleFormat.write s.message.tree = some (cstr "\x7b\x7d\n") ∧
      (s.message.toString sampleFormat).1 ≠ sampleFormat.write s.message.tree :=
  ⟨_, rfl, rfl, rfl, by decide⟩

end MessageRun
end V2IHub.Messages
