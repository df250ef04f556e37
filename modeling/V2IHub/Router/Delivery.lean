import Mathlib.Data.List.AList
import V2IHub.Api.IvpMessage

/-! Which receivers a broadcast reaches: the loops of `MessageRouterBasic::broadcastMessage`
over the registered receivers and their filters. -/
namespace V2IHub.Router
open Foundation Api

structure MessageFilterEntry where
  type : Bytes
  subtype : Bytes
  flagmask : BitVec 32
deriving DecidableEq

/-- `std::map<MessageReceiver *, std::vector<MessageFilterEntry>>`; the order of the keys,
which are pointers, is arbitrary. -/
abbrev ReceiverMap (R : Type*) := AList fun _ : R => List MessageFilterEntry

def STAR : Bytes := cstr "*"

section Loops
variable {R : Type*} [DecidableEq R]

/-- `!filterIter->flagmask || (filterIter->flagmask & msg->flags) > 0` -/
def flagsPass (entry : MessageFilterEntry) (msg : IvpMessage) : Bool :=
  entry.flagmask = 0 || 0 < entry.flagmask &&& msg.flags

/-- The inner loop: the calls of `receiveMessage` it makes on `receiver`. A call is followed
by `break`. -/
def filterLoop (msg : IvpMessage) (receiver : R) : List MessageFilterEntry → List R
  | [] => []
  | entry :: filters =>
    if entry.type = STAR then
      if flagsPass entry msg then [receiver] else filterLoop msg receiver filters
    else if msg.type = some entry.type then
      if entry.subtype = STAR ∨ msg.subtype = some entry.subtype then
        if flagsPass entry msg then [receiver] else filterLoop msg receiver filters
      else filterLoop msg receiver filters
    else filterLoop msg receiver filters

/-- The outer loop over the map. -/
def receiverLoop (sender : Option R) (msg : IvpMessage) :
    List (Sigma fun _ : R => List MessageFilterEntry) → List R
  | [] => []
  | ⟨receiver, filters⟩ :: entries =>
    if sender = some receiver then receiverLoop sender msg entries
    else filterLoop msg receiver filters ++ receiverLoop sender msg entries

/-- The calls of `receiveMessage` that one broadcast makes, in their order. -/
def broadcastMessage (map : ReceiverMap R) (sender : Option R) (msg : IvpMessage) : List R :=
  receiverLoop sender msg map.entries

end Loops

/-- The filter notes of `MessageRouter.h`: when a filter lets a message through. -/
def MessageFilterEntry.Matches (entry : MessageFilterEntry) (msg : IvpMessage) : Prop :=
  (entry.type = STAR ∨
    (msg.type = some entry.type ∧
      (entry.subtype = STAR ∨ msg.subtype = some entry.subtype))) ∧
    (entry.flagmask = 0 ∨ entry.flagmask &&& msg.flags ≠ 0)

instance (entry : MessageFilterEntry) (msg : IvpMessage) : Decidable (entry.Matches msg) :=
  inferInstanceAs (Decidable (_ ∧ _))

/-- The receivers that a broadcast is for. -/
def Addressed {R : Type*} [DecidableEq R] (map : ReceiverMap R) (sender : Option R)
    (msg : IvpMessage) (receiver : R) : Prop :=
  sender ≠ some receiver ∧
    ∃ filters ∈ map.lookup receiver, ∃ entry ∈ filters, entry.Matches msg

/-- The same receivers in the same order, each with a rearranged list of filters. -/
def SameFilters {R : Type*} (map map' : ReceiverMap R) : Prop :=
  List.Forall₂ (fun a b => a.1 = b.1 ∧ a.2.Perm b.2) map.entries map'.entries

section Delivery
variable {R : Type*}

theorem flagsPass_iff (entry : MessageFilterEntry) (msg : IvpMessage) :
    flagsPass entry msg = true ↔ entry.flagmask = 0 ∨ entry.flagmask &&& msg.flags ≠ 0 := by
  simp [flagsPass, BitVec.pos_iff_ne_zero]

/-- The early exits decide no more than whether some filter matches. -/
theorem filterLoop_eq (msg : IvpMessage) (receiver : R) (filters : List MessageFilterEntry) :
    filterLoop msg receiver filters =
      if ∃ entry ∈ filters, entry.Matches msg then [receiver] else [] := by
  induction filters with
  | nil => simp [filterLoop]
  | cons entry filters ih =>
    have hstep : filterLoop msg receiver (entry :: filters) =
        if entry.Matches msg then [receiver] else filterLoop msg receiver filters := by
      have hflags := flagsPass_iff entry msg
      by_cases hm : entry.Matches msg
      · rw [if_pos hm, filterLoop]
        unfold MessageFilterEntry.Matches at hm
        split_ifs <;> tauto
      · rw [if_neg hm, filterLoop]
        unfold MessageFilterEntry.Matches at hm
        split_ifs <;> tauto
    rw [hstep, ih]
    by_cases h : entry.Matches msg <;> simp [h]

variable [DecidableEq R]

theorem receiverLoop_eq (sender : Option R) (msg : IvpMessage)
    (entries : List (Sigma fun _ : R => List MessageFilterEntry)) :
    receiverLoop sender msg entries = (entries.filter fun e =>
      sender ≠ some e.1 ∧ ∃ entry ∈ e.2, entry.Matches msg).map Sigma.fst := by
  induction entries with
  | nil => rfl
  | cons e entries ih =>
    obtain ⟨receiver, filters⟩ := e
    rw [receiverLoop, ih, filterLoop_eq]
    by_cases hs : sender = some receiver
    · simp [hs]
    · by_cases hm : ∃ entry ∈ filters, entry.Matches msg <;> simp [hs, hm]

theorem mem_broadcastMessage {map : ReceiverMap R} {sender : Option R} {msg : IvpMessage}
    {receiver : R} :
    receiver ∈ broadcastMessage map sender msg ↔ Addressed map sender msg receiver := by
  rw [broadcastMessage, receiverLoop_eq, List.mem_map, Addressed]
  constructor
  · rintro ⟨⟨r, filters⟩, he, rfl⟩
    obtain ⟨hmem, hprop⟩ := List.mem_filter.mp he
    obtain ⟨hs, hm⟩ := of_decide_eq_true hprop
    exact ⟨hs, filters, AList.mem_lookup_iff.mpr hmem, hm⟩
  · rintro ⟨hs, filters, hl, hm⟩
    have hmem := AList.mem_lookup_iff.mp hl
    exact ⟨⟨receiver, filters⟩, List.mem_filter.mpr ⟨hmem, decide_eq_true ⟨hs, hm⟩⟩, rfl⟩

theorem broadcastMessage_nodup (map : ReceiverMap R) (sender : Option R) (msg : IvpMessage) :
    (broadcastMessage map sender msg).Nodup := by
  rw [broadcastMessage, receiverLoop_eq]
  exact List.NodupKeys.sublist List.filter_sublist map.nodupKeys

theorem receiverLoop_congr {sender : Option R} {msg : IvpMessage}
    {entries entries' : List (Sigma fun _ : R => List MessageFilterEntry)}
    (h : List.Forall₂ (fun a b => a.1 = b.1 ∧ a.2.Perm b.2) entries entries') :
    receiverLoop sender msg entries' = receiverLoop sender msg entries := by
  induction h with
  | nil => rfl
  | @cons a b entries entries' hab _ ih =>
    obtain ⟨r, filters⟩ := a
    obtain ⟨r', filters'⟩ := b
    obtain ⟨rfl, hperm⟩ : r = r' ∧ filters.Perm filters' := hab
    have hsame : (∃ entry ∈ filters', entry.Matches msg) ↔ ∃ entry ∈ filters, entry.Matches msg := by
      simp only [hperm.mem_iff]
    rw [receiverLoop, receiverLoop, ih, filterLoop_eq, filterLoop_eq]
    simp only [hsame]

/-- Exactly one call on each receiver that is addressed, none on any other, whatever the
order of the filters. -/
theorem broadcastMessage_delivery (map : ReceiverMap R) (sender : Option R) (msg : IvpMessage) :
    (∀ receiver, (Addressed map sender msg receiver →
        (broadcastMessage map sender msg).count receiver = 1) ∧
      (¬ Addressed map sender msg receiver →
        (broadcastMessage map sender msg).count receiver = 0)) ∧
    ∀ map' : ReceiverMap R, SameFilters map map' →
      broadcastMessage map' sender msg = broadcastMessage map sender msg := by
  refine ⟨fun receiver => ⟨fun ha => ?_, fun ha => ?_⟩, fun map' h => receiverLoop_congr h⟩
  · exact List.count_eq_one_of_mem (broadcastMessage_nodup map sender msg)
      (mem_broadcastMessage.mpr ha)
  · exact List.count_eq_zero.mpr fun hmem => ha (mem_broadcastMessage.mp hmem)

/-- Two receivers and a sender; the first has its matching filter behind one that does not. -/
def sampleMap : ReceiverMap ℕ :=
  ⟨[⟨1, [⟨STAR, STAR, 2⟩, ⟨cstr "J2735", cstr "BSM", 0⟩]⟩, ⟨2, [⟨STAR, STAR, 0⟩]⟩,
    ⟨3, [⟨cstr "J2735", cstr "MAP", 0⟩]⟩], by simp [List.NodupKeys, List.keys]⟩

def sampleMapReordered : ReceiverMap ℕ :=
  ⟨[⟨1, [⟨cstr "J2735", cstr "BSM", 0⟩, ⟨STAR, STAR, 2⟩]⟩, ⟨2, [⟨STAR, STAR, 0⟩]⟩,
    ⟨3, [⟨cstr "J2735", cstr "MAP", 0⟩]⟩], by simp [List.NodupKeys, List.keys]⟩

def sampleMsg : IvpMessage :=
  IvpMessage.create 0 (some (cstr "J2735")) (some (cstr "BSM")) none 1 none

theorem broadcastMessage_delivery_sample :
    (broadcastMessage sampleMap (some 2) sampleMsg).count 1 = 1 ∧
      (broadcastMessage sampleMap (some 2) sampleMsg).count 3 = 0 ∧
      broadcastMessage sampleMapReordered (some 2) sampleMsg =
        broadcastMessage sampleMap (some 2) sampleMsg := by
  obtain ⟨hcount, horder⟩ := broadcastMessage_delivery sampleMap (some 2) sampleMsg
  refine ⟨(hcount 1).1 (mem_broadcastMessage.mp (by decide)),
    (hcount 3).2 (mt mem_broadcastMessage.mpr (by decide)), horder _ ?_⟩
  refine .cons ⟨rfl, List.Perm.swap _ _ _⟩ (.cons ⟨rfl, List.Perm.refl _⟩ ?_)
  exact .cons ⟨rfl, List.Perm.refl _⟩ .nil

end Delivery

end V2IHub.Router
