import Mathlib.Tactic

/-! Recursive mutexes: a thread that holds one may lock it again. -/
namespace V2IHub.Foundation

inductive RecursiveMutex (T : Type*) where
  | free
  | held (owner : T) (again : ℕ)
deriving DecidableEq

namespace RecursiveMutex
variable {T : Type*} [DecidableEq T]

/-- `none` while another thread holds the mutex: the caller blocks. -/
def lock (m : RecursiveMutex T) (t : T) : Option (RecursiveMutex T) :=
  match m with
  | free => some (held t 0)
  | held owner again => if owner = t then some (held owner (again + 1)) else none

/-- An unlock by a thread that is not the owner fails and changes nothing. -/
def unlock (m : RecursiveMutex T) (t : T) : RecursiveMutex T :=
  match m with
  | free => free
  | held owner 0 => if owner = t then free else held owner 0
  | held owner (again + 1) => if owner = t then held owner again else held owner (again + 1)

/-- How many times `t` holds the mutex. -/
def count (m : RecursiveMutex T) (t : T) : ℕ :=
  match m with
  | free => 0
  | held owner again => if owner = t then again + 1 else 0

@[simp] theorem count_free (t : T) : (free : RecursiveMutex T).count t = 0 := rfl

theorem count_exclusive {m : RecursiveMutex T} {t u : T} (ht : 0 < m.count t)
    (hu : 0 < m.count u) : t = u := by
  cases m with
  | free => simp at ht
  | held owner again =>
    have howner : owner = t := by
      by_contra hne
      simp [count, hne] at ht
    have howner' : owner = u := by
      by_contra hne
      simp [count, hne] at hu
    rw [← howner, howner']

theorem lock_count {m m' : RecursiveMutex T} {t : T} (h : m.lock t = some m') (u : T) :
    m'.count u = m.count u + if t = u then 1 else 0 := by
  cases m with
  | free =>
    obtain rfl : held t 0 = m' := by simpa [lock] using h
    simp [count]
  | held owner again =>
    by_cases ho : owner = t
    · obtain rfl : held owner (again + 1) = m' := by simpa [lock, ho] using h
      subst ho
      by_cases hu : owner = u <;> simp [count, hu]
    · simp [lock, ho] at h

theorem unlock_count {m : RecursiveMutex T} {t : T} (h : 0 < m.count t) (u : T) :
    (m.unlock t).count u + (if t = u then 1 else 0) = m.count u := by
  cases m with
  | free => simp at h
  | held owner again =>
    have ho : owner = t := by
      by_contra hne
      simp [count, hne] at h
    subst ho
    cases again with
    | zero => by_cases hu : owner = u <;> simp [unlock, count, hu]
    | succ n => by_cases hu : owner = u <;> simp [unlock, count, hu]

end RecursiveMutex
end V2IHub.Foundation
