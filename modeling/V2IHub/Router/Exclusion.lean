import V2IHub.Foundation.Machine
import V2IHub.Foundation.Mutex
import V2IHub.Router.Delivery

/-! Threads in `MessageRouterBasic`: the map of receivers is never changed while a broadcast
is walking it. -/
namespace V2IHub.Router
open Foundation Api

/-- The next atomic step of a `broadcastMessage`. -/
inductive BroadcastPc where
  | lockMap
  | lockActive
  | increment
  | unlockActive
  | unlockMap
  | iterate (pos : ℕ)
  | relockActive
  | decrement
  | unlockAgain
deriving DecidableEq

/-- The next atomic step of a `registerReceiver` or `unregisterReceiver`. -/
inductive WritePc where
  | lockMap
  | readActive
  | mutate
  | unlockMap
deriving DecidableEq

inductive Change (R : Type*) where
  | registerReceiver (receiver : R) (filters : List MessageFilterEntry)
  | unregisterReceiver (receiver : R)

/-- A call in progress; a broadcast keeps the calls of `receiveMessage` it has made. -/
inductive Frame (R : Type*) where
  | broadcast (pc : BroadcastPc) (sender : Option R) (msg : IvpMessage) (calls : List R)
  | write (pc : WritePc) (change : Change R)

structure MessageRouterBasic (T R : Type*) where
  mMapLock : RecursiveMutex T
  mActiveBroadcastsLock : RecursiveMutex T
  mActiveBroadcasts : ℤ
  mReceiverMessageFilterEntryMap : ReceiverMap R

/-- The router and the call stack of each thread: `receiveMessage` may call the router. -/
structure RouterState (T R : Type*) where
  router : MessageRouterBasic T R
  stack : T → List (Frame R)

inductive RouterAct (R : Type*) where
  | broadcastMessage (sender : Option R) (msg : IvpMessage)
  | change (change : Change R)
  | step

section Steps
variable {T R : Type*} [DecidableEq T] [DecidableEq R]

def Change.apply (change : Change R) (map : ReceiverMap R) : ReceiverMap R :=
  match change with
  | registerReceiver receiver filters => map.insert receiver filters
  | unregisterReceiver receiver => map.erase receiver

/-- The body of the outer loop for one entry of the map. -/
def visit (sender : Option R) (msg : IvpMessage)
    (entry : Sigma fun _ : R => List MessageFilterEntry) : List R :=
  receiverLoop sender msg [entry]

/-- One step of the call on top of the stack of `t`; it returns with no frame. -/
def stepFrame (t : T) (g : MessageRouterBasic T R) :
    Frame R → Option (MessageRouterBasic T R × Option (Frame R))
  | .broadcast .lockMap sender msg calls => (g.mMapLock.lock t).map fun m =>
      ({ g with mMapLock := m }, some (.broadcast .lockActive sender msg calls))
  | .broadcast .lockActive sender msg calls => (g.mActiveBroadcastsLock.lock t).map fun m =>
      ({ g with mActiveBroadcastsLock := m }, some (.broadcast .increment sender msg calls))
  | .broadcast .increment sender msg calls =>
      some ({ g with mActiveBroadcasts := g.mActiveBroadcasts + 1 },
        some (.broadcast .unlockActive sender msg calls))
  | .broadcast .unlockActive sender msg calls =>
      some ({ g with mActiveBroadcastsLock := g.mActiveBroadcastsLock.unlock t },
        some (.broadcast .unlockMap sender msg calls))
  | .broadcast .unlockMap sender msg calls =>
      some ({ g with mMapLock := g.mMapLock.unlock t },
        some (.broadcast (.iterate 0) sender msg calls))
  | .broadcast (.iterate pos) sender msg calls =>
      match g.mReceiverMessageFilterEntryMap.entries[pos]? with
      | some entry =>
        some (g, some (.broadcast (.iterate (pos + 1)) sender msg (calls ++ visit sender msg entry)))
      | none => some (g, some (.broadcast .relockActive sender msg calls))
  | .broadcast .relockActive sender msg calls => (g.mActiveBroadcastsLock.lock t).map fun m =>
      ({ g with mActiveBroadcastsLock := m }, some (.broadcast .decrement sender msg calls))
  | .broadcast .decrement sender msg calls =>
      some ({ g with mActiveBroadcasts := g.mActiveBroadcasts - 1 },
        some (.broadcast .unlockAgain sender msg calls))
  | .broadcast .unlockAgain _ _ _ =>
      some ({ g with mActiveBroadcastsLock := g.mActiveBroadcastsLock.unlock t }, none)
  | .write .lockMap change => (g.mMapLock.lock t).map fun m =>
      ({ g with mMapLock := m }, some (.write .readActive change))
  | .write .readActive change =>
      -- while(this->mActiveBroadcasts > 0) { sleep(0); }
      some (g, some (.write (if 0 < g.mActiveBroadcasts then .readActive else .mutate) change))
  | .write .mutate change =>
      let map := change.apply g.mReceiverMessageFilterEntryMap
      some ({ g with mReceiverMessageFilterEntryMap := map }, some (.write .unlockMap change))
  | .write .unlockMap _ => some ({ g with mMapLock := g.mMapLock.unlock t }, none)

namespace Frame

def iterating : Frame R → Bool
  | broadcast (.iterate _) _ _ _ => true
  | _ => false

/-- Between the increment and the decrement of `mActiveBroadcasts`. -/
def active : Frame R → Bool
  | broadcast .unlockActive _ _ _ | broadcast .unlockMap _ _ _ | broadcast (.iterate _) _ _ _
  | broadcast .relockActive _ _ _ | broadcast .decrement _ _ _ => true
  | _ => false

def mutating : Frame R → Bool
  | write .mutate _ => true
  | _ => false

def holdsMap : Frame R → Bool
  | broadcast .lockActive _ _ _ | broadcast .increment _ _ _ | broadcast .unlockActive _ _ _
  | broadcast .unlockMap _ _ _ => true
  | write .readActive _ | write .mutate _ | write .unlockMap _ => true
  | _ => false

end Frame

/-- A call starts on an idle thread, or from a `receiveMessage` that a broadcast makes. -/
def mayCall : List (Frame R) → Bool
  | [] => true
  | f :: _ => f.iterating

def pushCall (s : RouterState T R) (t : T) (f : Frame R) : Option (RouterState T R) :=
  if mayCall (s.stack t) then
    some { s with stack := Function.update s.stack t (f :: s.stack t) }
  else none

def routerMachine : Machine (RouterState T R) (T × RouterAct R) where
  step s
    | (t, .broadcastMessage sender msg) => pushCall s t (.broadcast .lockMap sender msg [])
    | (t, .change change) => pushCall s t (.write .lockMap change)
    | (t, .step) =>
      match s.stack t with
      | [] => none
      | f :: rest => (stepFrame t s.router f).map fun r =>
        ⟨r.1, Function.update s.stack t (r.2.toList ++ rest)⟩

/-- A router as its constructor leaves it, but with any receivers registered already. -/
def RouterState.start (map : ReceiverMap R) : RouterState T R :=
  ⟨⟨.free, .free, 0, map⟩, fun _ => []⟩

end Steps

section Invariant
variable {T R : Type*}

theorem Frame.iterating_eq {f : Frame R} (h : f.iterating = true) :
    f.active = true ∧ f.holdsMap = false ∧ f.mutating = false := by
  rcases f with ⟨pc, sender, msg, calls⟩ | ⟨pc, change⟩
  · cases pc <;> simp_all [iterating, active, holdsMap, mutating]
  · simp [iterating] at h

theorem Frame.mutating_holdsMap {f : Frame R} (h : f.mutating = true) :
    f.holdsMap = true ∧ f.active = false := by
  rcases f with ⟨pc, sender, msg, calls⟩ | ⟨pc, change⟩
  · simp [mutating] at h
  · cases pc <;> simp_all [mutating, holdsMap, active]

variable [DecidableEq T]

/-- What a step does to the counter and to the lock of the map, and when it starts to mutate. -/
structure StepSpec (t : T) (g g' : MessageRouterBasic T R) (f : Frame R) (f' : Option (Frame R)) :
    Prop where
  counter : g'.mActiveBroadcasts + f.active.toNat =
    g.mActiveBroadcasts + f'.toList.countP Frame.active
  mapLock : ∀ u, g'.mMapLock.count u + (if t = u then f.holdsMap.toNat else 0) =
    g.mMapLock.count u + if t = u then f'.toList.countP Frame.holdsMap else 0
  becomesActive : ∀ f₁ ∈ f', f₁.active = true → f.active = true ∨ f.holdsMap = true
  becomesMutating : ∀ f₁ ∈ f', f₁.mutating = true →
    g.mActiveBroadcasts ≤ 0 ∧ g'.mActiveBroadcasts = g.mActiveBroadcasts

theorem stepFrame_spec [DecidableEq R] {t : T} {g g' : MessageRouterBasic T R} {f : Frame R}
    {f' : Option (Frame R)} (h : stepFrame t g f = some (g', f'))
    (hheld : f.holdsMap = true → 0 < g.mMapLock.count t) : StepSpec t g g' f f' := by
  rcases f with ⟨pc, sender, msg, calls⟩ | ⟨pc, change⟩
  · cases pc with
    | lockMap =>
      obtain ⟨m, hm, hr⟩ := Option.map_eq_some_iff.mp h
      obtain ⟨rfl, rfl⟩ := Prod.mk.inj hr
      have hcount := RecursiveMutex.lock_count hm
      constructor <;> simp_all [Frame.active, Frame.holdsMap, Frame.mutating]
    | lockActive | relockActive =>
      obtain ⟨m, hm, hr⟩ := Option.map_eq_some_iff.mp h
      obtain ⟨rfl, rfl⟩ := Prod.mk.inj hr
      constructor <;> simp [Frame.active, Frame.holdsMap, Frame.mutating]
    | increment | unlockActive | decrement | unlockAgain =>
      obtain ⟨rfl, rfl⟩ := Prod.mk.inj (Option.some.inj h)
      constructor <;> simp [Frame.active, Frame.holdsMap, Frame.mutating]
    | unlockMap =>
      obtain ⟨rfl, rfl⟩ := Prod.mk.inj (Option.some.inj h)
      have hcount := RecursiveMutex.unlock_count (hheld rfl)
      constructor <;> simp [Frame.active, Frame.holdsMap, Frame.mutating, hcount]
    | iterate pos =>
      simp only [stepFrame] at h
      split at h <;> obtain ⟨rfl, rfl⟩ := Prod.mk.inj (Option.some.inj h) <;>
        constructor <;> simp [Frame.active, Frame.holdsMap, Frame.mutating]
  · cases pc with
    | lockMap =>
      obtain ⟨m, hm, hr⟩ := Option.map_eq_some_iff.mp h
      obtain ⟨rfl, rfl⟩ := Prod.mk.inj hr
      have hcount := RecursiveMutex.lock_count hm
      constructor <;> simp_all [Frame.active, Frame.holdsMap, Frame.mutating]
    | readActive =>
      obtain ⟨rfl, rfl⟩ := Prod.mk.inj (Option.some.inj h)
      by_cases hpos : 0 < g.mActiveBroadcasts
      · constructor <;> simp [Frame.active, Frame.holdsMap, Frame.mutating, hpos]
      · constructor <;> simp [Frame.active, Frame.holdsMap, Frame.mutating, hpos]
        omega
    | mutate =>
      obtain ⟨rfl, rfl⟩ := Prod.mk.inj (Option.some.inj h)
      constructor <;> simp [Frame.active, Frame.holdsMap, Frame.mutating]
    | unlockMap =>
      obtain ⟨rfl, rfl⟩ := Prod.mk.inj (Option.some.inj h)
      have hcount := RecursiveMutex.unlock_count (hheld rfl)
      constructor <;> simp [Frame.active, Frame.holdsMap, Frame.mutating, hcount]

variable [Fintype T]

/-- `mActiveBroadcasts` counts the broadcasts in progress, the lock of the map is held by
the calls that took it, only the innermost call of a thread is not walking the map, and
nothing is in progress while the map is changed. -/
structure RouterInv (s : RouterState T R) : Prop where
  counter : s.router.mActiveBroadcasts = ∑ t, ((s.stack t).countP Frame.active : ℤ)
  mapLock : ∀ t, s.router.mMapLock.count t = (s.stack t).countP Frame.holdsMap
  nested : ∀ t, ∀ f ∈ (s.stack t).tail, f.iterating = true
  quiet : ∀ t, ∀ f ∈ s.stack t, f.mutating = true → s.router.mActiveBroadcasts = 0

theorem sum_update (stack : T → List (Frame R)) (t : T) (new : List (Frame R)) :
    ∑ u, ((Function.update stack t new u).countP Frame.active : ℤ) + (stack t).countP Frame.active =
      ∑ u, ((stack u).countP Frame.active : ℤ) + new.countP Frame.active := by
  have hold := Finset.sum_erase_add Finset.univ
    (fun u => ((stack u).countP Frame.active : ℤ)) (Finset.mem_univ t)
  have hnew := Finset.sum_erase_add Finset.univ
    (fun u => ((Function.update stack t new u).countP Frame.active : ℤ)) (Finset.mem_univ t)
  have hsame : ∑ u ∈ Finset.univ.erase t, ((Function.update stack t new u).countP Frame.active : ℤ) =
      ∑ u ∈ Finset.univ.erase t, ((stack u).countP Frame.active : ℤ) :=
    Finset.sum_congr rfl fun u hu => by
      rw [Function.update_of_ne (Finset.ne_of_mem_erase hu)]
  simp only [Function.update_self] at hnew
  rw [← hold, ← hnew, hsame]
  ring

theorem routerInv_start (map : ReceiverMap R) :
    RouterInv (RouterState.start map : RouterState T R) := by
  constructor <;> simp [RouterState.start]

theorem routerInv_push {s s' : RouterState T R} {t : T} {f : Frame R} (hi : RouterInv s)
    (hf : f.active = false ∧ f.holdsMap = false ∧ f.mutating = false)
    (h : pushCall s t f = some s') : RouterInv s' := by
  obtain ⟨ha, hh, hm⟩ := hf
  unfold pushCall at h
  split at h
  · next hmay =>
    obtain rfl := Option.some.inj h
    have hstack : ∀ g ∈ s.stack t, g.iterating = true := by
      cases hs : s.stack t with
      | nil => simp
      | cons top rest =>
        have hrest := hi.nested t
        simp only [hs, List.tail_cons, mayCall] at hrest hmay
        simpa using ⟨hmay, hrest⟩
    constructor
    · have hsum := sum_update s.stack t (f :: s.stack t)
      rw [List.countP_cons_of_neg (by simp [ha])] at hsum
      have := hi.counter
      simp only
      omega
    · intro u
      by_cases hu : u = t
      · subst hu
        simpa [List.countP_cons, hh] using hi.mapLock u
      · simpa [Function.update_of_ne hu] using hi.mapLock u
    · intro u g hg
      by_cases hu : u = t
      · subst hu
        exact hstack g (by simpa using hg)
      · exact hi.nested u g (by simpa [Function.update_of_ne hu] using hg)
    · intro u g hg hgm
      by_cases hu : u = t
      · subst hu
        rcases List.mem_cons.mp (by simpa using hg) with rfl | hg
        · simp [hm] at hgm
        · exact hi.quiet u g hg hgm
      · exact hi.quiet u g (by simpa [Function.update_of_ne hu] using hg) hgm
  · simp at h

/-- While the counter is 0 nobody is between its increment and its decrement. -/
theorem RouterInv.no_active {s : RouterState T R} (hi : RouterInv s)
    (h0 : s.router.mActiveBroadcasts = 0) (t : T) : ∀ f ∈ s.stack t, f.active = false := by
  have hsum : ∑ t, ((s.stack t).countP Frame.active : ℤ) = 0 := by rw [← hi.counter, h0]
  have hzero := (Finset.sum_eq_zero_iff_of_nonneg fun t _ => by positivity).mp hsum t
    (Finset.mem_univ t)
  have hnone : (s.stack t).countP Frame.active = 0 := by exact_mod_cast hzero
  intro f hf
  simpa using List.countP_eq_zero.mp hnone f hf

theorem RouterInv.holdsMap_unique {s : RouterState T R} (hi : RouterInv s) {t u : T}
    {f g : Frame R} (hf : f ∈ s.stack t) (hg : g ∈ s.stack u) (hfm : f.holdsMap = true)
    (hgm : g.holdsMap = true) : t = u := by
  refine RecursiveMutex.count_exclusive (m := s.router.mMapLock) ?_ ?_
  · rw [hi.mapLock]
    exact List.countP_pos_iff.mpr ⟨f, hf, hfm⟩
  · rw [hi.mapLock]
    exact List.countP_pos_iff.mpr ⟨g, hg, hgm⟩

variable [DecidableEq R]

theorem routerInv_step {s : RouterState T R} {t : T} {f : Frame R} {rest : List (Frame R)}
    {g : MessageRouterBasic T R} {f' : Option (Frame R)} (hi : RouterInv s)
    (hs : s.stack t = f :: rest) (h : stepFrame t s.router f = some (g, f')) :
    RouterInv ⟨g, Function.update s.stack t (f'.toList ++ rest)⟩ := by
  have hlock := hi.mapLock t
  have hrest : ∀ x ∈ rest, x.iterating = true := by simpa [hs] using hi.nested t
  have hspec := stepFrame_spec h fun hf => by rw [hlock, hs, List.countP_cons_of_pos hf]; omega
  have hsum := sum_update s.stack t (f'.toList ++ rest)
  have hcounter := hi.counter
  have hstep := hspec.counter
  rw [hs, List.countP_append, List.countP_cons] at hsum
  have hnew : g.mActiveBroadcasts = ∑ u,
      ((Function.update s.stack t (f'.toList ++ rest) u).countP Frame.active : ℤ) := by
    cases hfa : f.active <;> simp [hfa] at hsum hstep <;> omega
  constructor
  · exact hnew
  · intro u
    have hu := hspec.mapLock u
    by_cases htu : t = u
    · subst htu
      rw [hs, List.countP_cons] at hlock
      simp only [Function.update_self, List.countP_append]
      cases hfh : f.holdsMap <;> simp [hfh] at hu hlock ⊢ <;> omega
    · simpa [Function.update_of_ne (Ne.symm htu), htu, hi.mapLock u] using hu
  · intro u x hx
    by_cases hu : u = t
    · subst hu
      cases f' <;> simp at hx
      · exact hrest x (List.mem_of_mem_tail hx)
      · exact hrest x hx
    · exact hi.nested u x (by simpa [Function.update_of_ne hu] using hx)
  · intro u x hx hxm
    by_cases hu : u = t
    · subst hu
      simp only [Function.update_self, List.mem_append, Option.mem_toList] at hx
      rcases hx with hx | hx
      · obtain ⟨hle, heq⟩ := hspec.becomesMutating x hx hxm
        have hnn : 0 ≤ s.router.mActiveBroadcasts := by
          rw [hcounter]
          positivity
        simp only
        omega
      · simp [(Frame.iterating_eq (hrest x hx)).2.2] at hxm
    · have hx : x ∈ s.stack u := by simpa [Function.update_of_ne hu] using hx
      have hquiet := hi.quiet u x hx hxm
      have hf : f ∈ s.stack t := by simp [hs]
      have hfa : f.active = false := hi.no_active hquiet t f hf
      have hfm : f.holdsMap = false := by
        by_contra hheld
        exact hu (hi.holdsMap_unique hx hf (Frame.mutating_holdsMap hxm).1 (by simpa using hheld))
      have hnone : f'.toList.countP Frame.active = 0 := by
        refine List.countP_eq_zero.mpr fun y hy hya => ?_
        have := hspec.becomesActive y (by simpa using hy) hya
        simp [hfa, hfm] at this
      simp only [hfa, hnone, hquiet] at hstep
      simpa using hstep

omit [Fintype T] in
/-- A step of the system either starts a call or continues the innermost call of a thread. -/
theorem routerMachine_cases {s s' : RouterState T R} {t : T} {act : RouterAct R}
    (h : routerMachine.step s (t, act) = some s') :
    (∃ f, ((∃ sender msg, f = .broadcast .lockMap sender msg []) ∨
        ∃ change, f = .write .lockMap change) ∧ pushCall s t f = some s') ∨
      ∃ f rest g f', s.stack t = f :: rest ∧ stepFrame t s.router f = some (g, f') ∧
        s' = ⟨g, Function.update s.stack t (f'.toList ++ rest)⟩ := by
  cases act with
  | broadcastMessage sender msg => exact Or.inl ⟨_, Or.inl ⟨sender, msg, rfl⟩, h⟩
  | change change => exact Or.inl ⟨_, Or.inr ⟨change, rfl⟩, h⟩
  | step =>
    simp only [routerMachine] at h
    cases hs : s.stack t with
    | nil => simp [hs] at h
    | cons f rest =>
      rw [hs] at h
      obtain ⟨⟨g, f'⟩, hstep, rfl⟩ := Option.map_eq_some_iff.mp h
      exact Or.inr ⟨f, rest, g, f', rfl, hstep, rfl⟩

theorem routerInv_machine (s : RouterState T R) (a : T × RouterAct R) (s' : RouterState T R)
    (hi : RouterInv s) (h : routerMachine.step s a = some s') : RouterInv s' := by
  obtain ⟨f, hf, hpush⟩ | ⟨f, rest, g, f', hs, hstep, rfl⟩ := routerMachine_cases h
  · rcases hf with ⟨sender, msg, rfl⟩ | ⟨change, rfl⟩ <;>
      exact routerInv_push hi ⟨rfl, rfl, rfl⟩ hpush
  · exact routerInv_step hi hs hstep

/-- `t` is about to change the map, having seen no active broadcast. -/
def RouterState.Mutates (s : RouterState T R) (t : T) : Prop :=
  ∃ f ∈ s.stack t, f.mutating = true

/-- `t` is between its increment and its decrement of `mActiveBroadcasts`. -/
def RouterState.Broadcasts (s : RouterState T R) (t : T) : Prop :=
  ∃ f ∈ s.stack t, f.active = true

/-- In every interleaving, the map is changed by one thread at a time and never while any
thread broadcasts. -/
theorem router_exclusion (map : ReceiverMap R) (acts : List (T × RouterAct R))
    {s : RouterState T R} (hr : routerMachine.run (RouterState.start map) acts = some s) (t : T)
    (hm : s.Mutates t) : ∀ u, ¬ s.Broadcasts u ∧ (s.Mutates u → u = t) := by
  have hi : RouterInv s :=
    Machine.run_invariant routerInv_machine (routerInv_start map) hr
  obtain ⟨f, hf, hfm⟩ := hm
  have h0 := hi.quiet t f hf hfm
  intro u
  constructor
  · rintro ⟨g, hg, hga⟩
    simp [hi.no_active h0 u g hg] at hga
  · rintro ⟨g, hg, hgm⟩
    exact hi.holdsMap_unique hg hf (Frame.mutating_holdsMap hgm).1 (Frame.mutating_holdsMap hfm).1

end Invariant

section Witness

/-- Thread `false` broadcasts while thread `true` waits to register a receiver, which it gets
to once the broadcast is over. -/
def sampleRun : List (Bool × RouterAct ℕ) :=
  (false, .broadcastMessage none sampleMsg) ::
    List.replicate 5 (false, RouterAct.step) ++ (true, .change (.registerReceiver 7 [])) ::
    List.replicate 3 (true, RouterAct.step) ++ List.replicate 7 (false, RouterAct.step) ++ [(true, RouterAct.step)]

def sampleState : RouterState Bool ℕ :=
  (routerMachine.run (RouterState.start sampleMap) sampleRun).getD (RouterState.start sampleMap)

theorem router_exclusion_sample :
    sampleState.Mutates true ∧ ¬ sampleState.Broadcasts false ∧ ¬ sampleState.Mutates false := by
  have hm : sampleState.Mutates true :=
    ⟨.write .mutate (.registerReceiver 7 []), List.mem_singleton.mpr rfl, rfl⟩
  have hall := router_exclusion sampleMap sampleRun (s := sampleState) rfl true hm false
  exact ⟨hm, hall.1, fun h => Bool.noConfusion (hall.2 h)⟩

end Witness

section Atomicity
variable {T R : Type*} [DecidableEq T] [DecidableEq R]

/-- What a broadcast has delivered so far, in terms of the map as it is now. -/
def Frame.Sound (map : ReceiverMap R) : Frame R → Prop
  | broadcast (.iterate pos) sender msg calls =>
    calls = receiverLoop sender msg (map.entries.take pos)
  | broadcast .relockActive sender msg calls | broadcast .decrement sender msg calls =>
    calls = broadcastMessage map sender msg
  | broadcast .unlockAgain _ _ _ => True
  | broadcast _ _ _ calls => calls = []
  | write _ _ => True

theorem Frame.sound_of_not_active {f : Frame R} (h : f.active = false) {map : ReceiverMap R}
    (map' : ReceiverMap R) (hs : f.Sound map) : f.Sound map' := by
  rcases f with ⟨pc, sender, msg, calls⟩ | ⟨pc, change⟩
  · cases pc <;> first | exact hs | simp [active] at h
  · trivial

theorem receiverLoop_append (sender : Option R) (msg : IvpMessage)
    (a b : List (Sigma fun _ : R => List MessageFilterEntry)) :
    receiverLoop sender msg (a ++ b) = receiverLoop sender msg a ++ receiverLoop sender msg b := by
  simp [receiverLoop_eq]

theorem stepFrame_sound {t : T} {g g' : MessageRouterBasic T R} {f : Frame R}
    {f' : Option (Frame R)} (h : stepFrame t g f = some (g', f'))
    (hs : f.Sound g.mReceiverMessageFilterEntryMap) :
    (∀ f₁ ∈ f', f₁.Sound g'.mReceiverMessageFilterEntryMap) ∧
      (g'.mReceiverMessageFilterEntryMap = g.mReceiverMessageFilterEntryMap ∨
        f.mutating = true) := by
  rcases f with ⟨pc, sender, msg, calls⟩ | ⟨pc, change⟩
  · cases pc with
    | lockMap | lockActive | relockActive =>
      obtain ⟨m, -, hr⟩ := Option.map_eq_some_iff.mp h
      obtain ⟨rfl, rfl⟩ := Prod.mk.inj hr
      exact ⟨by simpa [Frame.Sound] using hs, Or.inl rfl⟩
    | increment | unlockActive =>
      obtain ⟨rfl, rfl⟩ := Prod.mk.inj (Option.some.inj h)
      exact ⟨by simpa [Frame.Sound] using hs, Or.inl rfl⟩
    | decrement | unlockAgain =>
      obtain ⟨rfl, rfl⟩ := Prod.mk.inj (Option.some.inj h)
      exact ⟨by simp [Frame.Sound], Or.inl rfl⟩
    | unlockMap =>
      obtain ⟨rfl, rfl⟩ := Prod.mk.inj (Option.some.inj h)
      have hcalls : calls = [] := hs
      exact ⟨by simp [Frame.Sound, hcalls, receiverLoop], Or.inl rfl⟩
    | iterate pos =>
      have hcalls : calls = receiverLoop sender msg _ := hs
      simp only [stepFrame] at h
      split at h
      · next entry hentry =>
        obtain ⟨rfl, rfl⟩ := Prod.mk.inj (Option.some.inj h)
        refine ⟨?_, Or.inl rfl⟩
        simp [Frame.Sound, hcalls, visit, List.take_add_one, hentry, receiverLoop_append]
      · next hend =>
        obtain ⟨rfl, rfl⟩ := Prod.mk.inj (Option.some.inj h)
        have hlen := List.getElem?_eq_none_iff.mp hend
        refine ⟨?_, Or.inl rfl⟩
        simp [Frame.Sound, hcalls, broadcastMessage, List.take_of_length_le hlen]
  · refine ⟨?_, ?_⟩
    · cases pc with
      | lockMap =>
        obtain ⟨m, -, hr⟩ := Option.map_eq_some_iff.mp h
        obtain ⟨rfl, rfl⟩ := Prod.mk.inj hr
        simp [Frame.Sound]
      | readActive | mutate | unlockMap =>
        obtain ⟨rfl, rfl⟩ := Prod.mk.inj (Option.some.inj h)
        simp [Frame.Sound]
    · cases pc with
      | lockMap =>
        obtain ⟨m, -, hr⟩ := Option.map_eq_some_iff.mp h
        obtain ⟨rfl, rfl⟩ := Prod.mk.inj hr
        exact Or.inl rfl
      | mutate => exact Or.inr rfl
      | readActive | unlockMap =>
        obtain ⟨rfl, rfl⟩ := Prod.mk.inj (Option.some.inj h)
        exact Or.inl rfl

/-- Every call in progress is sound for the map as it is. -/
def AllSound (s : RouterState T R) : Prop :=
  ∀ t, ∀ f ∈ s.stack t, f.Sound s.router.mReceiverMessageFilterEntryMap

theorem allSound_push {s s' : RouterState T R} {t : T} {f : Frame R} (hi : AllSound s)
    (hf : f.Sound s.router.mReceiverMessageFilterEntryMap) (h : pushCall s t f = some s') :
    AllSound s' := by
  unfold pushCall at h
  split at h
  · obtain rfl := Option.some.inj h
    intro u x hx
    by_cases hu : u = t
    · subst hu
      rcases List.mem_cons.mp (by simpa using hx) with rfl | hx
      · exact hf
      · exact hi u x hx
    · exact hi u x (by simpa [Function.update_of_ne hu] using hx)
  · simp at h

variable [Fintype T]

/-- A change of the map meets no broadcast that has seen the old one. -/
theorem allSound_step {s : RouterState T R} {t : T} {f : Frame R} {rest : List (Frame R)}
    {g : MessageRouterBasic T R} {f' : Option (Frame R)} (hr : RouterInv s) (hi : AllSound s)
    (hs : s.stack t = f :: rest) (h : stepFrame t s.router f = some (g, f')) :
    AllSound ⟨g, Function.update s.stack t (f'.toList ++ rest)⟩ := by
  have hf : f ∈ s.stack t := by simp [hs]
  obtain ⟨hnew, hmap⟩ := stepFrame_sound h (hi t f hf)
  have hold : ∀ u, ∀ x ∈ s.stack u, x.Sound g.mReceiverMessageFilterEntryMap := by
    intro u x hx
    rcases hmap with hmap | hmut
    · rw [hmap]
      exact hi u x hx
    · exact Frame.sound_of_not_active (hr.no_active (hr.quiet t f hf hmut) u x hx) _ (hi u x hx)
  intro u x hx
  by_cases hu : u = t
  · subst hu
    simp only [Function.update_self, List.mem_append, Option.mem_toList] at hx
    rcases hx with hx | hx
    · exact hnew x hx
    · exact hold u x (by simp [hs, hx])
  · exact hold u x (by simpa [Function.update_of_ne hu] using hx)

/-- A broadcast that has walked the map has called exactly the receivers that are addressed
by the map as it still is: concurrent registrations never show in the middle of one. -/
theorem broadcast_complete (map : ReceiverMap R) (acts : List (T × RouterAct R))
    {s : RouterState T R} (hr : routerMachine.run (RouterState.start map) acts = some s) {t : T}
    {sender : Option R} {msg : IvpMessage} {calls : List R}
    (hf : Frame.broadcast .decrement sender msg calls ∈ s.stack t) :
    calls = broadcastMessage s.router.mReceiverMessageFilterEntryMap sender msg := by
  have hstep : ∀ (s : RouterState T R) a s', RouterInv s ∧ AllSound s →
      routerMachine.step s a = some s' → RouterInv s' ∧ AllSound s' := by
    rintro s a s' ⟨hr, hi⟩ h
    refine ⟨routerInv_machine s a s' hr h, ?_⟩
    obtain ⟨f, hf, hpush⟩ | ⟨f, rest, g, f', hs, hstep, rfl⟩ := routerMachine_cases h
    · refine allSound_push hi ?_ hpush
      rcases hf with ⟨sender, msg, rfl⟩ | ⟨change, rfl⟩ <;> simp [Frame.Sound]
    · exact allSound_step hr hi hs hstep
  have hi := Machine.run_invariant hstep
    ⟨routerInv_start map, by simp [AllSound, RouterState.start]⟩ hr
  exact hi.2 t _ hf

end Atomicity

end V2IHub.Router
