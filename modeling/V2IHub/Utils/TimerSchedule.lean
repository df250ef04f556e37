import V2IHub.Utils.ThreadTimer

/-! The schedule of `ThreadTimer`: when a tick is invoked first, and how far apart two
invocations of it are. -/
namespace V2IHub.Utils.ThreadTimer
open V2IHub.Foundation

def Act.triggers (id : ℕ) : Act → Bool
  | .triggerNow i _ => i = id
  | _ => false

def Act.changes (id : ℕ) : Act → Bool
  | .changeFrequency i _ => i = id
  | _ => false

/-- The first invocation of a tick comes no earlier than its delay after the start of the
timer and after its `AddPeriodicTick`. -/
def FirstDelayed (acts : List Act) : Prop :=
  ∀ p frequency startDelay added q id now r s, acts =
      p ++ Act.addPeriodicTick frequency startDelay added :: (q ++ Act.invoke id now :: r) →
    timer.run initial p = some s → s.periodicTicks.length = id →
    (∀ act ∈ q, act.invokes id = false ∧ act.triggers id = false) →
    ∀ startTime, .start startTime ∈ p ++ q →
      startTime + nanoseconds startDelay ≤ now ∧ added + nanoseconds startDelay ≤ now

/-- Two consecutive invocations of a tick without a trigger or a change of its frequency
between them are the frequency apart. -/
def Spaced (acts : List Act) : Prop :=
  ∀ pre id first mid second post s tick,
    acts = pre ++ Act.invoke id first :: (mid ++ Act.invoke id second :: post) →
    timer.run initial pre = some s → s.periodicTicks[id]? = some tick →
    (∀ act ∈ mid, act.invokes id = false ∧ act.triggers id = false ∧ act.changes id = false) →
    first + nanoseconds tick.Frequency ≤ second

/-- No change lowers the frequency below this one; a tick whose frequency is not positive
is not invoked. -/
def notLowered (id : ℕ) (frequency : ℤ) (act : Act) : Prop :=
  ∀ changed, act = .changeFrequency id changed → changed ≤ 0 ∨ frequency ≤ changed

/-- A tick with a delay is added before the timer is started, and from the initialisation
on no change before its first invocation lowers its frequency. -/
def KeepsDelay (acts : List Act) : Prop :=
  ∀ p frequency startDelay added q s,
    acts = p ++ .addPeriodicTick frequency startDelay added :: q →
    timer.run initial p = some s → 0 < startDelay →
    s.worker = .idle ∧
      ∀ x y t tick, q = x ++ .init :: y →
        timer.run s (.addPeriodicTick frequency startDelay added :: x) = some t →
        t.periodicTicks[s.periodicTicks.length]? = some tick →
        ∀ act ∈ y.takeWhile (fun act => !act.invokes s.periodicTicks.length &&
            !act.triggers s.periodicTicks.length),
          notLowered s.periodicTicks.length tick.Frequency act

section Runs
variable {s t : Timer} {acts : List Act} {id : ℕ}

theorem step_clock_le {act : Act} (h : timer.step s act = some t) : s.clock ≤ t.clock := by
  rcases step_cases h with hcall | hwork
  · cases hcall with
    | add hclock => exact hclock
    | change => exact le_rfl
    | trigger hclock => exact hclock
  · cases hwork with
    | start hclock => exact hclock
    | invoke hclock _ => exact hclock
    | skip hclock _ => exact hclock
    | _ => exact le_rfl

theorem run_clock_le (h : timer.run s acts = some t) : s.clock ≤ t.clock := by
  have hinv : ∀ u act v, s.clock ≤ u.clock → timer.step u act = some v → s.clock ≤ v.clock :=
    fun u act v hu hstep => hu.trans (step_clock_le hstep)
  exact Machine.run_invariant hinv le_rfl h

theorem run_not_idle (h : timer.run s acts = some t) (hs : s.worker ≠ .idle) :
    t.worker ≠ .idle := by
  have hinv : ∀ u act v, u.worker ≠ .idle → timer.step u act = some v → v.worker ≠ .idle := by
    intro u act v hu hstep
    rcases step_cases hstep with hcall | hwork
    · cases hcall <;> exact hu
    · cases hwork <;> simp
  exact Machine.run_invariant hinv hs h

theorem start_step {startTime : ℤ} (h : timer.step s (.start startTime) = some t) :
    s.worker = .idle ∧ s.clock ≤ startTime ∧
      t = { s with worker := .started startTime, clock := startTime } := by
  rcases step_cases h with hcall | hwork
  · cases hcall
  · cases hwork with
    | start hclock => exact ⟨rfl, hclock, rfl⟩

/-- A run up to a state before the start holds no start. -/
theorem start_not_mem (h : timer.run s acts = some t) (ht : t.worker = .idle) (startTime : ℤ) :
    .start startTime ∉ acts := by
  intro hmem
  obtain ⟨x, y, rfl, -⟩ := List.eq_append_cons_of_mem hmem
  obtain ⟨u, -, hrest⟩ := Machine.run_append_eq_some.mp h
  obtain ⟨v, hstart, hrest⟩ := Machine.run_cons_eq_some.mp hrest
  obtain ⟨-, -, rfl⟩ := start_step hstart
  exact run_not_idle hrest (by simp) ht

theorem start_le_clock {startTime : ℤ} (h : timer.run s acts = some t)
    (hmem : .start startTime ∈ acts) : startTime ≤ t.clock := by
  obtain ⟨x, y, rfl, -⟩ := List.eq_append_cons_of_mem hmem
  obtain ⟨u, -, hrest⟩ := Machine.run_append_eq_some.mp h
  obtain ⟨v, hstart, hrest⟩ := Machine.run_cons_eq_some.mp hrest
  obtain ⟨-, -, rfl⟩ := start_step hstart
  exact run_clock_le hrest

theorem invoke_step {now : ℤ} (h : timer.step s (.invoke id now) = some t) :
    ∃ tick, s.worker = .copied id tick ∧ s.clock ≤ now ∧ tick.due now = true ∧
      t = { s with worker := .called id now, clock := now } := by
  rcases step_cases h with hcall | hwork
  · cases hcall
  · cases hwork with
    | invoke hclock hdue => exact ⟨_, rfl, hclock, hdue, rfl⟩

theorem init_step (h : timer.step s .init = some t) :
    ∃ startTime, s.worker = .started startTime ∧
      t = { s with periodicTicks := s.periodicTicks.map (.init startTime), worker := .atLoop } := by
  rcases step_cases h with hcall | hwork
  · cases hcall
  · cases hwork with
    | init => exact ⟨_, rfl, rfl⟩

theorem add_step {frequency startDelay added : ℤ}
    (h : timer.step s (.addPeriodicTick frequency startDelay added) = some t) :
    s.clock ≤ added ∧ t = { s with
      periodicTicks := s.periodicTicks ++ [.added frequency startDelay], clock := added } := by
  rcases step_cases h with hcall | hwork
  · cases hcall with
    | add hclock => exact ⟨hclock, rfl⟩
  · cases hwork

/-- Until the initialisation the worker stays at the start. -/
theorem run_started_of_no_init {startTime : ℤ} (h : timer.run s acts = some t)
    (hs : s.worker = .started startTime) (hacts : .init ∉ acts) :
    t.worker = .started startTime := by
  induction acts generalizing s with
  | nil =>
    obtain rfl : s = t := by simpa using h
    exact hs
  | cons act acts ih =>
    obtain ⟨u, hstep, hrest⟩ := Machine.run_cons_eq_some.mp h
    simp only [List.mem_cons, not_or] at hacts
    apply ih hrest _ hacts.2
    rcases step_cases hstep with hcall | hwork
    · cases hcall <;> exact hs
    · cases hwork <;> cases hs
      exact absurd rfl hacts.1

/-- The delay of a tick never changes. -/
theorem run_startDelay {tick : PeriodicTickData} (h : timer.run s acts = some t)
    (hs : s.periodicTicks[id]? = some tick) :
    ∃ tick', t.periodicTicks[id]? = some tick' ∧ tick'.StartDelay = tick.StartDelay := by
  have hmodify : ∀ (ticks : List PeriodicTickData) (i : ℕ) (f : PeriodicTickData → PeriodicTickData),
      (∀ c, (f c).StartDelay = c.StartDelay) →
      (∃ c, ticks[id]? = some c ∧ c.StartDelay = tick.StartDelay) →
      ∃ c, (ticks.modify i f)[id]? = some c ∧ c.StartDelay = tick.StartDelay := by
    rintro ticks i f hf ⟨c, hc, hdelay⟩
    by_cases hi : i = id
    · subst hi
      exact ⟨f c, getElem?_modify_self hc f, (hf c).trans hdelay⟩
    · exact ⟨c, (getElem?_modify_ne hi f).trans hc, hdelay⟩
  have hinv : ∀ u act v,
      (∃ c, u.periodicTicks[id]? = some c ∧ c.StartDelay = tick.StartDelay) →
      timer.step u act = some v →
      ∃ c, v.periodicTicks[id]? = some c ∧ c.StartDelay = tick.StartDelay := by
    rintro u act v ⟨c, hc, hdelay⟩ hstep
    rcases step_cases hstep with hcall | hwork
    · cases hcall with
      | @add ticks worker clock frequency startDelay now hclock =>
        have hlength : id < ticks.length := (List.getElem?_eq_some_iff.mp hc).1
        exact ⟨c, (List.getElem?_append_left hlength).trans hc, hdelay⟩
      | change => exact hmodify _ _ _ (fun _ => rfl) ⟨c, hc, hdelay⟩
      | trigger => exact hmodify _ _ _ (fun _ => rfl) ⟨c, hc, hdelay⟩
    · cases hwork with
      | @init ticks clock startTime =>
        exact ⟨c.init startTime, by simp only [List.getElem?_map, hc, Option.map_some], hdelay⟩
      | writeBack => exact hmodify _ _ _ (fun _ => rfl) ⟨c, hc, hdelay⟩
      | _ => exact ⟨c, hc, hdelay⟩
  exact Machine.run_invariant hinv ⟨tick, hs, rfl⟩ h

/-- Where a tick stands between two steps of the worker with its own data: not invoked, and
a copy of it has its data. -/
structure Waits (id : ℕ) (P : PeriodicTickData → Prop) (s : Timer) : Prop where
  begun : s.worker ≠ .idle ∧ ∀ startTime, s.worker ≠ .started startTime
  found : ∃ tick, s.periodicTicks[id]? = some tick ∧ P tick
  notCalled : ∀ now, s.worker ≠ .called id now
  copied : ∀ tick, s.worker = .copied id tick → P tick

theorem Waits.step {P : PeriodicTickData → Prop} {act : Act} (h : Waits id P s)
    (hstep : timer.step s act = some t) (hinvoke : act.invokes id = false)
    (htrigger : act.triggers id = false)
    (hchange : ∀ frequency tick, act = .changeFrequency id frequency → P tick →
      P (tick.changeFrequency frequency)) : Waits id P t := by
  obtain ⟨tick, htick, hP⟩ := h.found
  rcases step_cases hstep with hcall | hwork
  · cases hcall with
    | @add ticks worker clock frequency startDelay now hclock =>
      have hlength : id < ticks.length := (List.getElem?_eq_some_iff.mp htick).1
      exact ⟨h.begun, ⟨tick, (List.getElem?_append_left hlength).trans htick, hP⟩, h.notCalled,
        h.copied⟩
    | @change ticks worker clock i frequency =>
      by_cases hi : i = id
      · subst hi
        exact ⟨h.begun, ⟨_, getElem?_modify_self htick _, hchange frequency tick rfl hP⟩,
          h.notCalled, h.copied⟩
      · exact ⟨h.begun, ⟨tick, (getElem?_modify_ne hi _).trans htick, hP⟩, h.notCalled, h.copied⟩
    | @trigger ticks worker clock i now hclock =>
      have hi : i ≠ id := by simpa [Act.triggers] using htrigger
      exact ⟨h.begun, ⟨tick, (getElem?_modify_ne hi _).trans htick, hP⟩, h.notCalled, h.copied⟩
  · cases hwork with
    | start _ => exact absurd rfl h.begun.1
    | @init ticks clock startTime => exact absurd rfl (h.begun.2 startTime)
    | @copy ticks clock index copy hcopy =>
      refine ⟨by simp, ⟨tick, htick, hP⟩, by simp, ?_⟩
      rintro copy' ⟨⟩
      obtain rfl : copy = tick := Option.some.inj (hcopy.symm.trans htick)
      exact hP
    | @invoke ticks clock index copy now hclock hdue =>
      have hindex : index ≠ id := by simpa [Act.invokes] using hinvoke
      exact ⟨by simp, ⟨tick, htick, hP⟩, by simp [hindex], by simp⟩
    | @writeBack ticks clock index now =>
      have hindex : index ≠ id := by
        rintro rfl
        exact h.notCalled now rfl
      exact ⟨by simp, ⟨tick, (getElem?_modify_ne hindex _).trans htick, hP⟩, by simp, by simp⟩
    | loop => exact ⟨by simp, ⟨tick, htick, hP⟩, by simp, by simp⟩
    | stop => exact ⟨by simp, ⟨tick, htick, hP⟩, by simp, by simp⟩
    | endPass _ => exact ⟨by simp, ⟨tick, htick, hP⟩, by simp, by simp⟩
    | skip _ _ => exact ⟨by simp, ⟨tick, htick, hP⟩, by simp, by simp⟩

theorem Waits.run {P : PeriodicTickData → Prop} (h : Waits id P s)
    (hrun : timer.run s acts = some t)
    (hacts : ∀ act ∈ acts, act.invokes id = false ∧ act.triggers id = false)
    (hchange : ∀ act ∈ acts, ∀ frequency tick, act = .changeFrequency id frequency → P tick →
      P (tick.changeFrequency frequency)) : Waits id P t := by
  induction acts generalizing s with
  | nil =>
    obtain rfl : s = t := by simpa using hrun
    exact h
  | cons act acts ih =>
    obtain ⟨u, hstep, hrest⟩ := Machine.run_cons_eq_some.mp hrun
    obtain ⟨hinvoke, htrigger⟩ := hacts act (by simp)
    apply ih (h.step hstep hinvoke htrigger (hchange act (by simp))) hrest
    · exact fun act hact => hacts act (by simp [hact])
    · exact fun act hact => hchange act (by simp [hact])

/-- What the worker knows of a tick when it invokes it. -/
theorem Waits.invoke {P : PeriodicTickData → Prop} {now : ℤ} (h : Waits id P s)
    (hstep : timer.step s (.invoke id now) = some t) :
    ∃ tick, P tick ∧ 0 < tick.Frequency ∧
      tick.LastTickTime + nanoseconds tick.Frequency ≤ now := by
  obtain ⟨tick, hworker, -, hdue, -⟩ := invoke_step hstep
  obtain ⟨hpos, hlast⟩ := (due_iff tick now).mp hdue
  exact ⟨tick, h.copied tick hworker, hpos, hlast⟩

/-- A delayed tick after the initialisation. -/
def Delayed (startTime startDelay frequency : ℤ) (tick : PeriodicTickData) : Prop :=
  tick.LastTickTime = startTime - nanoseconds frequency + nanoseconds startDelay ∧
    (tick.Frequency ≤ 0 ∨ frequency ≤ tick.Frequency)

/-- A tick after its write-back. -/
def Written (last frequency : ℤ) (tick : PeriodicTickData) : Prop :=
  tick.LastTickTime = last ∧ tick.Frequency = frequency

theorem init_waits {startTime : ℤ} {tick : PeriodicTickData}
    (hstep : timer.step s .init = some t) (hs : s.worker = .started startTime)
    (htick : s.periodicTicks[id]? = some tick) :
    Waits id (Delayed startTime tick.StartDelay tick.Frequency) t := by
  obtain ⟨startTime', hworker, rfl⟩ := init_step hstep
  obtain rfl : startTime = startTime' := by simpa [hs] using hworker
  refine ⟨by simp, ⟨tick.init startTime, ?_, rfl, Or.inr le_rfl⟩, by simp, by simp⟩
  simp only [List.getElem?_map, htick, Option.map_some]

/-- The write-back comes before anything else the worker does. -/
theorem run_called {first : ℤ} {tick : PeriodicTickData} (hrun : timer.run s acts = some t)
    (hs : s.worker = .called id first) (htick : s.periodicTicks[id]? = some tick)
    (hacts : ∀ act ∈ acts, act.invokes id = false ∧ act.triggers id = false ∧
      act.changes id = false) :
    t.worker = .called id first ∨ Waits id (Written first tick.Frequency) t := by
  induction acts generalizing s with
  | nil =>
    obtain rfl : s = t := by simpa using hrun
    exact Or.inl hs
  | cons act acts ih =>
    obtain ⟨u, hstep, hrest⟩ := Machine.run_cons_eq_some.mp hrun
    obtain ⟨hinvoke, htrigger, hchange⟩ := hacts act (by simp)
    have hacts' : ∀ act ∈ acts, act.invokes id = false ∧ act.triggers id = false ∧
        act.changes id = false := fun act hact => hacts act (by simp [hact])
    rcases step_cases hstep with hcall | hwork
    · cases hcall with
      | @add ticks worker clock frequency startDelay now hclock =>
        have hlength : id < ticks.length := (List.getElem?_eq_some_iff.mp htick).1
        exact ih hrest hs ((List.getElem?_append_left hlength).trans htick) hacts'
      | @change ticks worker clock i frequency =>
        have hi : i ≠ id := by simpa [Act.changes] using hchange
        exact ih hrest hs ((getElem?_modify_ne hi _).trans htick) hacts'
      | @trigger ticks worker clock i now hclock =>
        have hi : i ≠ id := by simpa [Act.triggers] using htrigger
        exact ih hrest hs ((getElem?_modify_ne hi _).trans htick) hacts'
    · cases hwork <;> cases hs
      apply Or.inr
      refine Waits.run ⟨by simp, ⟨tick.writeBack first, getElem?_modify_self htick _, rfl, rfl⟩,
        by simp, by simp⟩ hrest (fun act hact => ⟨(hacts' act hact).1, (hacts' act hact).2.1⟩) ?_
      rintro act hact frequency c rfl
      simpa [Act.changes] using (hacts' _ hact).2.2

theorem run_spaced (hrun : timer.run initial acts = some t) : Spaced acts := by
  rintro pre id first mid second post s tick rfl hpre htick hmid
  obtain ⟨s', hpre', hrest⟩ := Machine.run_append_eq_some.mp hrun
  obtain rfl : s = s' := Option.some.inj (hpre.symm.trans hpre')
  obtain ⟨s₁, hfirst, hrest⟩ := Machine.run_cons_eq_some.mp hrest
  obtain ⟨s₂, hmidRun, hrest⟩ := Machine.run_append_eq_some.mp hrest
  obtain ⟨s₃, hsecond, -⟩ := Machine.run_cons_eq_some.mp hrest
  obtain ⟨copy, -, -, -, rfl⟩ := invoke_step hfirst
  rcases run_called hmidRun rfl htick hmid with hcalled | hwaits
  · obtain ⟨copy', hcopied, -⟩ := invoke_step hsecond
    rw [hcalled] at hcopied
    cases hcopied
  · obtain ⟨c, ⟨hlast, hfrequency⟩, -, hdue⟩ := hwaits.invoke hsecond
    rw [hlast, hfrequency] at hdue
    exact hdue

/-- An invocation that the start and the addition of its tick precede. -/
theorem run_invoke_le {p q : List Act} {frequency startDelay added now : ℤ} {s₁ s₂ s₃ : Timer}
    (hp : timer.run initial p = some s)
    (hadd : timer.step s (.addPeriodicTick frequency startDelay added) = some s₁)
    (hq : timer.run s₁ q = some s₂) (hinvoke : timer.step s₂ (.invoke id now) = some s₃)
    {startTime : ℤ} (hstart : .start startTime ∈ p ++ q) : startTime ≤ now ∧ added ≤ now := by
  obtain ⟨hclock, hs₁⟩ := add_step hadd
  obtain ⟨copy, -, hnow, -, -⟩ := invoke_step hinvoke
  have hadded : added ≤ now := by
    have hle := run_clock_le hq
    rw [hs₁] at hle
    exact hle.trans hnow
  rcases List.mem_append.mp hstart with hmem | hmem
  · exact ⟨((start_le_clock hp hmem).trans hclock).trans hadded, hadded⟩
  · exact ⟨(start_le_clock hq hmem).trans hnow, hadded⟩

/-- The initialisation lies between the start and the first invocation. -/
theorem exists_init {q : List Act} {startTime now : ℤ} {u : Timer}
    (hrun : timer.run s q = some t) (hs : s.worker = .started startTime)
    (hinvoke : timer.step t (.invoke id now) = some u) :
    ∃ x y v, q = x ++ .init :: y ∧ timer.run s x = some v ∧ v.worker = .started startTime := by
  have hmem : .init ∈ q := by
    by_contra hnone
    obtain ⟨tick, hcopied, -⟩ := invoke_step hinvoke
    rw [run_started_of_no_init hrun hs hnone] at hcopied
    cases hcopied
  obtain ⟨x, y, rfl, hx⟩ := List.eq_append_cons_of_mem hmem
  obtain ⟨v, hv, -⟩ := Machine.run_append_eq_some.mp hrun
  exact ⟨x, y, v, rfl, hv, run_started_of_no_init hv hs hx⟩

theorem run_firstDelayed (hrun : timer.run initial acts = some t) (hkeeps : KeepsDelay acts) :
    FirstDelayed acts := by
  rintro p frequency startDelay added q id now r s rfl hp rfl hq startTime hstart
  obtain ⟨s', hp', hrest⟩ := Machine.run_append_eq_some.mp hrun
  obtain rfl : s = s' := Option.some.inj (hp.symm.trans hp')
  obtain ⟨s₁, hadd, hrest⟩ := Machine.run_cons_eq_some.mp hrest
  obtain ⟨s₂, hqRun, hrest⟩ := Machine.run_append_eq_some.mp hrest
  obtain ⟨s₃, hinvoke, -⟩ := Machine.run_cons_eq_some.mp hrest
  obtain ⟨hstartLe, haddLe⟩ := run_invoke_le hp hadd hqRun hinvoke hstart
  rcases le_or_gt startDelay 0 with hdelay | hdelay
  · unfold nanoseconds
    omega
  obtain ⟨hidle, hlowered⟩ := hkeeps p frequency startDelay added _ s rfl hp hdelay
  have hmem : .start startTime ∈ q :=
    (List.mem_append.mp hstart).resolve_left (start_not_mem hp hidle startTime)
  obtain ⟨q₁, q₂, rfl, -⟩ := List.eq_append_cons_of_mem hmem
  obtain ⟨v, hq₁, hrest⟩ := Machine.run_append_eq_some.mp hqRun
  obtain ⟨w, hstartStep, hq₂⟩ := Machine.run_cons_eq_some.mp hrest
  obtain ⟨-, hv, hw⟩ := start_step hstartStep
  obtain ⟨x, y, u, rfl, hx, hu⟩ := exists_init hq₂ (by rw [hw]) hinvoke
  have hprefix : timer.run s₁ (q₁ ++ .start startTime :: x) = some u :=
    Machine.run_append hq₁ (Machine.run_cons_eq_some.mpr ⟨w, hstartStep, hx⟩)
  obtain ⟨hadded, hs₁⟩ := add_step hadd
  have hfound : s₁.periodicTicks[s.periodicTicks.length]? =
      some (.added frequency startDelay) := by
    simp [hs₁]
  obtain ⟨tick, htick, htickDelay⟩ := run_startDelay hprefix hfound
  obtain ⟨u', hxu', hrest⟩ := Machine.run_append_eq_some.mp hq₂
  obtain rfl : u = u' := Option.some.inj (hx.symm.trans hxu')
  obtain ⟨u₁, hinit, hy⟩ := Machine.run_cons_eq_some.mp hrest
  have hyActs : ∀ act ∈ y, act.invokes s.periodicTicks.length = false ∧
      act.triggers s.periodicTicks.length = false := fun act hact => hq act (by simp [hact])
  have hkept : ∀ act ∈ y, notLowered s.periodicTicks.length tick.Frequency act := by
    have hwhole := hlowered (q₁ ++ .start startTime :: x)
      (y ++ .invoke s.periodicTicks.length now :: r) u tick (by simp)
      (Machine.run_cons_eq_some.mpr ⟨s₁, hadd, hprefix⟩) htick
    rw [List.takeWhile_append_of_pos fun act hact => by simp [hyActs act hact]] at hwhole
    exact fun act hact => hwhole act (List.mem_append_left _ hact)
  have hwaits := (init_waits hinit hu htick).run hy hyActs (by
    rintro act hact changed c rfl ⟨hlast, -⟩
    exact ⟨hlast, hkept _ hact changed rfl⟩)
  obtain ⟨c, ⟨hlast, hfrequency⟩, hpos, hdue⟩ := hwaits.invoke hinvoke
  have hdelayEq : tick.StartDelay = startDelay := htickDelay
  have haddedLe : added ≤ startTime := by
    have hle := run_clock_le hq₁
    rw [hs₁] at hle
    exact hle.trans hv
  rw [hlast, hdelayEq] at hdue
  unfold nanoseconds at hdue ⊢
  omega

/-- The schedule: the delay before the first invocation of a tick, and the frequency
between two of them. -/
theorem run_scheduled (hrun : timer.run initial acts = some t) (hkeeps : KeepsDelay acts) :
    FirstDelayed acts ∧ Spaced acts :=
  ⟨run_firstDelayed hrun hkeeps, run_spaced hrun⟩

end Runs

/-- A tick of 100 ms with a delay of 200 ms, invoked twice. -/
def sampleSchedule : List Act :=
  [.addPeriodicTick 100 200 0, .start 5, .init, .loop true, .copy, .skip 0 10, .endPass,
    .loop true, .copy, .invoke 0 200000005, .writeBack, .endPass, .loop true, .copy,
    .invoke 0 300000005, .writeBack, .endPass]

theorem sampleSchedule_keepsDelay : KeepsDelay sampleSchedule := by
  intro p frequency startDelay added q s hacts hrun hdelay
  obtain ⟨hp, hat, hq⟩ := split_at hacts
  have hlength : p.length < 17 := (List.getElem?_eq_some_iff.mp hat).1
  generalize p.length = n at hp hat hq hlength
  interval_cases n
  all_goals cases hat
  subst hp hq
  obtain rfl := Option.some.inj hrun
  refine ⟨rfl, ?_⟩
  intro x y t tick hxy hx htick act hact changed hchanged
  subst hchanged
  have hmem : Act.changeFrequency ([] : List PeriodicTickData).length changed ∈
      sampleSchedule.drop 1 := by
    rw [show List.drop 1 sampleSchedule = x ++ .init :: y from hxy]
    exact List.mem_append_right x (List.mem_cons_of_mem _ (List.takeWhile_subset _ hact))
  simp [sampleSchedule] at hmem

theorem run_scheduled_sample :
    (timer.run initial sampleSchedule).isSome = true ∧ FirstDelayed sampleSchedule ∧
      Spaced sampleSchedule :=
  ⟨rfl, run_scheduled rfl sampleSchedule_keepsDelay⟩

/-- A tick with a delay of one second that is added to a running timer. -/
def addedLate : List Act :=
  [.start 5000000000, .init, .loop true, .addPeriodicTick 100 1000 6000000000, .copy,
    .invoke 0 6000000000]

/-- A tick whose frequency is lowered between the initialisation and its first check. -/
def loweredEarly : List Act :=
  [.addPeriodicTick 1000 500 0, .start 0, .init, .changeFrequency 0 100, .loop true, .copy,
    .invoke 0 0]

theorem run_scheduled_fails :
    ((timer.run initial addedLate).isSome = true ∧ ¬ FirstDelayed addedLate) ∧
      (timer.run initial loweredEarly).isSome = true ∧ ¬ FirstDelayed loweredEarly := by
  refine ⟨⟨by decide +kernel, ?_⟩, by decide +kernel, ?_⟩
  · intro h
    have hlate := (h [.start 5000000000, .init, .loop true] 100 1000 6000000000 [.copy] 0
      6000000000 [] _ rfl rfl rfl (by decide) 5000000000 (by decide)).2
    revert hlate
    decide
  · intro h
    have hearly := (h [] 1000 500 0 [.start 0, .init, .changeFrequency 0 100, .loop true, .copy] 0
      0 [] _ rfl rfl rfl (by decide) 0 (by decide)).1
    revert hearly
    decide

end V2IHub.Utils.ThreadTimer
