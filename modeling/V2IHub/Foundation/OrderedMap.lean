import Mathlib.Data.List.Lex
import Mathlib.Tactic

/-! A `std::map`: a list of entries in the order of their keys. -/
namespace V2IHub.Foundation

/-- Not an instance, since bytes are compared with their own instances elsewhere. -/
abbrev byteOrder : LinearOrder UInt8 where
  le_refl := UInt8.le_refl
  le_trans _ _ _ := UInt8.le_trans
  le_antisymm _ _ := UInt8.le_antisymm
  le_total := UInt8.le_total
  lt_iff_le_not_ge _ _ := by
    rw [UInt8.not_le]
    exact ⟨fun h => ⟨UInt8.le_of_lt h, h⟩, And.right⟩
  toDecidableLE := inferInstance

/-- The order of `std::string`. -/
instance bytesOrder : LinearOrder (List UInt8) :=
  letI := byteOrder
  inferInstance

structure OrderedMap (κ ν : Type) [LinearOrder κ] where
  entries : List (κ × ν)
  sorted : entries.Pairwise fun a b => a.1 < b.1
deriving DecidableEq

namespace OrderedMap
variable {κ ν : Type} [LinearOrder κ]

def empty : OrderedMap κ ν := ⟨[], .nil⟩

def find (m : OrderedMap κ ν) (key : κ) : Option ν :=
  (m.entries.find? fun e => e.1 = key).map Prod.snd

def insertEntry (key : κ) (value : ν) : List (κ × ν) → List (κ × ν)
  | [] => [(key, value)]
  | e :: entries =>
    if key < e.1 then (key, value) :: e :: entries
    else if key = e.1 then (key, value) :: entries
    else e :: insertEntry key value entries

section Entries
variable {key : κ} {value : ν} {entries : List (κ × ν)}

theorem mem_insertEntry {e : κ × ν} (h : e ∈ insertEntry key value entries) :
    e = (key, value) ∨ e ∈ entries := by
  induction entries with
  | nil => simpa [insertEntry] using h
  | cons e' entries ih =>
    simp only [insertEntry] at h
    split_ifs at h <;> simp only [List.mem_cons] at h ⊢ <;> tauto

theorem sorted_insertEntry (h : entries.Pairwise fun a b => a.1 < b.1) :
    (insertEntry key value entries).Pairwise fun a b => a.1 < b.1 := by
  induction entries with
  | nil => simp [insertEntry]
  | cons e entries ih =>
    obtain ⟨he, htail⟩ := List.pairwise_cons.mp h
    simp only [insertEntry]
    split_ifs with hlt heq
    · refine List.pairwise_cons.mpr ⟨fun e' he' => ?_, h⟩
      rcases List.mem_cons.mp he' with rfl | he'
      · exact hlt
      · exact hlt.trans (he e' he')
    · exact List.pairwise_cons.mpr ⟨fun e' he' => heq ▸ he e' he', htail⟩
    · refine List.pairwise_cons.mpr ⟨fun e' he' => ?_, ih htail⟩
      rcases mem_insertEntry he' with rfl | he'
      · exact lt_of_le_of_ne (not_lt.mp hlt) (Ne.symm heq)
      · exact he e' he'

theorem find_insertEntry (key' : κ) :
    (insertEntry key value entries).find? (fun e => e.1 = key') =
      if key = key' then some (key, value) else entries.find? fun e => e.1 = key' := by
  induction entries with
  | nil => by_cases h : key = key' <;> simp [insertEntry, h]
  | cons e entries ih =>
    rw [insertEntry]
    by_cases hlt : key < e.1
    · rw [if_pos hlt]
      by_cases h : key = key' <;> simp [h]
    · rw [if_neg hlt]
      by_cases heq : key = e.1
      · by_cases h : key = key' <;> simp [← heq, h]
      · rw [if_neg heq, List.find?_cons, List.find?_cons, ih]
        by_cases h : e.1 = key'
        · have hkey : key ≠ key' := fun hk => heq (hk.trans h.symm)
          simp [h, hkey]
        · simp [h]

theorem map_insertEntry {ν' : Type} (f : κ → ν → ν') (key : κ) (value : ν)
    (entries : List (κ × ν)) :
    (insertEntry key value entries).map (fun e => (e.1, f e.1 e.2)) =
      insertEntry key (f key value) (entries.map fun e => (e.1, f e.1 e.2)) := by
  induction entries with
  | nil => rfl
  | cons e entries ih =>
    rw [List.map_cons, insertEntry, insertEntry]
    split_ifs with hlt heq
    · rfl
    · rfl
    · rw [List.map_cons, ih]

end Entries

/-- `m[key] = value` -/
def insert (m : OrderedMap κ ν) (key : κ) (value : ν) : OrderedMap κ ν :=
  ⟨insertEntry key value m.entries, sorted_insertEntry m.sorted⟩

def erase (m : OrderedMap κ ν) (key : κ) : OrderedMap κ ν :=
  ⟨m.entries.filter fun e => e.1 ≠ key, m.sorted.filter _⟩

theorem find_insert (m : OrderedMap κ ν) (key key' : κ) (value : ν) :
    (m.insert key value).find key' = if key = key' then some value else m.find key' := by
  rw [find, insert, find_insertEntry]
  split_ifs <;> rfl

theorem find_erase (m : OrderedMap κ ν) (key key' : κ) :
    (m.erase key).find key' = if key = key' then none else m.find key' := by
  rw [find, erase, List.find?_filter, find]
  split_ifs with h
  · subst h
    simp
  · congr 2
    funext e
    by_cases he : e.1 = key' <;> simp [he, Ne.symm h]

theorem mem_entries_iff {m : OrderedMap κ ν} {key : κ} {value : ν} :
    (key, value) ∈ m.entries ↔ m.find key = some value := by
  rcases m with ⟨entries, sorted⟩
  simp only [find]
  induction entries with
  | nil => simp
  | cons e entries ih =>
    obtain ⟨he, htail⟩ := List.pairwise_cons.mp sorted
    by_cases hkey : e.1 = key
    · have hout : (key, value) ∉ entries := fun h => (hkey ▸ he _ h).false
      subst hkey
      simp [hout, Prod.ext_iff, eq_comm]
    · have hne : (key, value) ≠ e := fun h => hkey (h ▸ rfl)
      simp [hkey, hne, ih htail]

section Replace
variable {ν' : Type}

/-- Another list of entries with the same keys in the same order. -/
def replace (m : OrderedMap κ ν) (entries : List (κ × ν'))
    (h : entries.map Prod.fst = m.entries.map Prod.fst) : OrderedMap κ ν' where
  entries := entries
  sorted := by
    have hkeys : (m.entries.map Prod.fst).Pairwise (· < ·) := List.pairwise_map.mpr m.sorted
    rw [← h] at hkeys
    exact List.pairwise_map.mp hkeys

end Replace

def filter (m : OrderedMap κ ν) (p : κ × ν → Bool) : OrderedMap κ ν :=
  ⟨m.entries.filter p, m.sorted.filter _⟩

theorem nodup_keys (m : OrderedMap κ ν) : (m.entries.map Prod.fst).Nodup :=
  List.pairwise_map.mpr (m.sorted.imp ne_of_lt)

theorem isSome_find_iff {m : OrderedMap κ ν} {key : κ} :
    (m.find key).isSome ↔ key ∈ m.entries.map Prod.fst := by
  simp only [Option.isSome_iff_exists, ← mem_entries_iff, List.mem_map, Prod.exists,
    exists_and_right, exists_eq_right]

theorem entries_eq_nil_iff {m : OrderedMap κ ν} : m.entries = [] ↔ ∀ key, m.find key = none := by
  constructor
  · intro h key
    rw [find, h]
    rfl
  · intro h
    cases hentries : m.entries with
    | nil => rfl
    | cons e entries =>
      have hmem : (e.1, e.2) ∈ m.entries := by simp [hentries]
      rw [mem_entries_iff, h] at hmem
      simp at hmem

end OrderedMap
end V2IHub.Foundation
