import V2IHub.Foundation.OrderedMap

/-! `FrequencyThrottle`: how often a key is let through, over whole runs of calls. -/
namespace V2IHub.Utils
open V2IHub.Foundation

/-- The template arguments `Duration` and `Clock`: `num` ticks of the clock are `den` units
of the duration. -/
structure Units where
  num : ℤ
  den : ℤ
  num_pos : 0 < num
  den_pos : 0 < den

/-- `duration_cast<Duration>(now - then)` -/
def Units.durationCast (u : Units) (ticks : ℤ) : ℤ := (ticks * u.den).tdiv u.num

structure FrequencyThrottle (κ : Type) [LinearOrder κ] where
  frequency : ℤ
  staleDuration : ℤ
  mapLastTime : OrderedMap κ ℤ

inductive ThrottleCall (κ : Type) where
  | monitor (key : κ)
  | touch (key : κ)
  | removeStaleKeys
deriving DecidableEq

/-- A call, when the clock was read in it, and what `Monitor` returned. -/
structure ThrottleRecord (κ : Type) where
  call : ThrottleCall κ
  now : ℤ
  answer : Option Bool
deriving DecidableEq

namespace FrequencyThrottle
variable {κ : Type} [LinearOrder κ] (u : Units)

def setFrequency (s : FrequencyThrottle κ) (frequency : ℤ) : FrequencyThrottle κ :=
  { s with frequency := frequency, staleDuration := frequency + 5000 }

/-- The constructor. -/
def init (frequency : ℤ) : FrequencyThrottle κ :=
  setFrequency ⟨0, 0, .empty⟩ frequency

def monitor (s : FrequencyThrottle κ) (now : ℤ) (key : κ) : FrequencyThrottle κ × Bool :=
  match s.mapLastTime.find key with
  | none => ({ s with mapLastTime := s.mapLastTime.insert key now }, true)
  | some last =>
    let duration := u.durationCast (now - last)
    if duration ≥ s.frequency then
      ({ s with mapLastTime := s.mapLastTime.insert key now }, true)
    else (s, false)

/-- The loop of `RemoveStaleKeys` over the entries from `it` on. -/
def removeStaleLoop (stale now : ℤ) : List (κ × ℤ) → OrderedMap κ ℤ → OrderedMap κ ℤ
  | [], m => m
  | it :: rest, m =>
    let duration := u.durationCast (now - it.2)
    if duration ≥ stale then removeStaleLoop stale now rest (m.erase it.1)
    else removeStaleLoop stale now rest m

def removeStaleKeys (s : FrequencyThrottle κ) (now : ℤ) : FrequencyThrottle κ :=
  { s with
    mapLastTime := removeStaleLoop u s.staleDuration now s.mapLastTime.entries s.mapLastTime }

def touch (s : FrequencyThrottle κ) (now : ℤ) (key : κ) : FrequencyThrottle κ :=
  match s.mapLastTime.find key with
  | none => s
  | some _ => { s with mapLastTime := s.mapLastTime.insert key now }

/-- One call at the time `now`. -/
def call (s : FrequencyThrottle κ) (now : ℤ) : ThrottleCall κ → FrequencyThrottle κ × Option Bool
  | .monitor key => ((monitor u s now key).1, some (monitor u s now key).2)
  | .touch key => (touch s now key, none)
  | .removeStaleKeys => (removeStaleKeys u s now, none)

def records : FrequencyThrottle κ → List (ThrottleCall κ × ℤ) → List (ThrottleRecord κ)
  | _, [] => []
  | s, c :: calls => ⟨c.1, c.2, (call u s c.2 c.1).2⟩ :: records (call u s c.2 c.1).1 calls

/-- What `Monitor` returned, call after call. -/
def answers (s : FrequencyThrottle κ) (calls : List (ThrottleCall κ × ℤ)) : List Bool :=
  (records u s calls).filterMap ThrottleRecord.answer

def answersFor (key : κ) (rs : List (ThrottleRecord κ)) : List Bool :=
  (rs.filter fun r => r.call = .monitor key).filterMap ThrottleRecord.answer

section Units
variable {u} {ticks later d : ℤ}

theorem durationCast_lt_iff (h : 0 ≤ ticks) :
    u.durationCast ticks < d ↔ ticks * u.den < d * u.num := by
  have hnonneg : 0 ≤ ticks * u.den := mul_nonneg h u.den_pos.le
  rw [Units.durationCast, Int.tdiv_eq_ediv_of_nonneg hnonneg]
  exact Int.ediv_lt_iff_lt_mul u.num_pos

theorem le_durationCast_iff (h : 0 ≤ ticks) :
    d ≤ u.durationCast ticks ↔ d * u.num ≤ ticks * u.den := by
  rw [← not_lt, durationCast_lt_iff h, not_lt]

theorem durationCast_mono (h : 0 ≤ ticks) (hle : ticks ≤ later) :
    u.durationCast ticks ≤ u.durationCast later := by
  have hmul : ticks * u.den ≤ later * u.den := mul_le_mul_of_nonneg_right hle u.den_pos.le
  rw [le_durationCast_iff (h.trans hle)]
  exact ((le_durationCast_iff h).mp le_rfl).trans hmul

end Units

section Maps
variable {u} {s : FrequencyThrottle κ} {now t : ℤ} {key key' : κ}

theorem find_removeStaleLoop (stale now : ℤ) (its : List (κ × ℤ)) (m : OrderedMap κ ℤ) :
    (removeStaleLoop u stale now its m).find key =
      if its.any fun it => it.1 = key ∧ stale ≤ u.durationCast (now - it.2) then none
      else m.find key := by
  induction its generalizing m with
  | nil => simp [removeStaleLoop]
  | cons it its ih =>
    simp only [removeStaleLoop, ge_iff_le]
    by_cases hstale : stale ≤ u.durationCast (now - it.2)
    · rw [if_pos hstale, ih, List.any_cons, OrderedMap.find_erase]
      by_cases hkey : it.1 = key
      · simp [hkey, hstale]
      · simp only [hkey, false_and, decide_false, Bool.false_or, if_false]
    · rw [if_neg hstale, ih, List.any_cons]
      simp only [hstale, and_false, decide_false, Bool.false_or]

theorem find_removeStaleKeys :
    (removeStaleKeys u s now).mapLastTime.find key =
      match s.mapLastTime.find key with
      | none => none
      | some t => if s.staleDuration ≤ u.durationCast (now - t) then none else some t := by
  rw [removeStaleKeys, find_removeStaleLoop]
  cases hfind : s.mapLastTime.find key with
  | none => simp
  | some t =>
    have hany : (s.mapLastTime.entries.any fun it =>
        it.1 = key ∧ s.staleDuration ≤ u.durationCast (now - it.2)) =
        decide (s.staleDuration ≤ u.durationCast (now - t)) := by
      rw [Bool.eq_iff_iff, List.any_eq_true, decide_eq_true_iff]
      constructor
      · rintro ⟨it, hit, hp⟩
        obtain ⟨rfl, hle⟩ := of_decide_eq_true hp
        have hsame : s.mapLastTime.find it.1 = some it.2 := OrderedMap.mem_entries_iff.mp hit
        rw [hfind, Option.some.injEq] at hsame
        exact hsame ▸ hle
      · intro hle
        exact ⟨(key, t), OrderedMap.mem_entries_iff.mpr hfind, decide_eq_true ⟨rfl, hle⟩⟩
    simp only [hany, decide_eq_true_eq]

theorem find_touch :
    (touch s now key).mapLastTime.find key' =
      if key = key' then (s.mapLastTime.find key').map fun _ => now
      else s.mapLastTime.find key' := by
  by_cases hkey : key = key'
  · subst hkey
    cases hfind : s.mapLastTime.find key <;> simp [touch, hfind, OrderedMap.find_insert]
  · cases hfind : s.mapLastTime.find key <;> simp [touch, hfind, hkey, OrderedMap.find_insert]

theorem monitor_of_absent (h : s.mapLastTime.find key = none) :
    monitor u s now key = ({ s with mapLastTime := s.mapLastTime.insert key now }, true) := by
  simp only [monitor, h]

theorem monitor_of_elapsed (h : s.mapLastTime.find key = some t)
    (hle : s.frequency ≤ u.durationCast (now - t)) :
    monitor u s now key = ({ s with mapLastTime := s.mapLastTime.insert key now }, true) := by
  simp only [monitor, h, ge_iff_le, if_pos hle]

theorem monitor_of_recent (h : s.mapLastTime.find key = some t)
    (hlt : u.durationCast (now - t) < s.frequency) : monitor u s now key = (s, false) := by
  simp only [monitor, h, ge_iff_le, if_neg (not_le.mpr hlt)]

/-- What one `Monitor` can do. -/
theorem monitor_cases (u : Units) (s : FrequencyThrottle κ) (now : ℤ) (key : κ) :
    (monitor u s now key = ({ s with mapLastTime := s.mapLastTime.insert key now }, true) ∧
        ∀ t, s.mapLastTime.find key = some t → s.frequency ≤ u.durationCast (now - t)) ∨
      (monitor u s now key = (s, false) ∧
        ∃ t, s.mapLastTime.find key = some t ∧ u.durationCast (now - t) < s.frequency) := by
  cases hfind : s.mapLastTime.find key with
  | none => exact .inl ⟨monitor_of_absent hfind, by simp⟩
  | some t =>
    rcases le_or_gt s.frequency (u.durationCast (now - t)) with hle | hlt
    · exact .inl ⟨monitor_of_elapsed hfind hle, by simpa using hle⟩
    · exact .inr ⟨monitor_of_recent hfind hlt, t, rfl, hlt⟩

theorem find_monitor_of_ne (hkey : key ≠ key') :
    (monitor u s now key).1.mapLastTime.find key' = s.mapLastTime.find key' := by
  obtain ⟨h, -⟩ | ⟨h, -⟩ := monitor_cases u s now key <;> simp [h, OrderedMap.find_insert, hkey]

@[simp] theorem call_frequency (c : ThrottleCall κ) :
    (call u s now c).1.frequency = s.frequency := by
  cases c with
  | monitor key => obtain ⟨h, -⟩ | ⟨h, -⟩ := monitor_cases u s now key <;> simp [call, h]
  | touch key => cases hfind : s.mapLastTime.find key <;> simp [call, touch, hfind]
  | removeStaleKeys => rfl

@[simp] theorem call_staleDuration (c : ThrottleCall κ) :
    (call u s now c).1.staleDuration = s.staleDuration := by
  cases c with
  | monitor key => obtain ⟨h, -⟩ | ⟨h, -⟩ := monitor_cases u s now key <;> simp [call, h]
  | touch key => cases hfind : s.mapLastTime.find key <;> simp [call, touch, hfind]
  | removeStaleKeys => rfl

end Maps

section History
variable {u} {s : FrequencyThrottle κ} {frequency stale clock now t : ℤ} {key : κ}
  {o o' : Option ℤ} {r : ThrottleRecord κ} {hist : List (ThrottleRecord κ)}

/-- A `Monitor` of the key that returned true. -/
def Passes (key : κ) (r : ThrottleRecord κ) : Prop :=
  r.call = .monitor key ∧ r.answer = some true

def Marks (key : κ) (r : ThrottleRecord κ) : Prop := Passes key r ∨ r.call = .touch key

/-- The last record that marks the key was made at `t`. -/
def LastMark (key : κ) (t : ℤ) (hist : List (ThrottleRecord κ)) : Prop :=
  ∃ before q between, hist = before ++ q :: between ∧ Marks key q ∧ q.now = t ∧
    ∀ x ∈ between, ¬ Marks key x

/-- What a call may return after the calls `hist`. -/
structure Lawful (u : Units) (frequency : ℤ) (hist : List (ThrottleRecord κ))
    (r : ThrottleRecord κ) : Prop where
  first : ∀ key, r.call = .monitor key → (∀ q ∈ hist, q.call ≠ .monitor key) →
    r.answer = some true
  apart : ∀ key, Passes key r → ∀ q ∈ hist, Passes key q →
    frequency * u.num ≤ (r.now - q.now) * u.den
  blocked : ∀ key, r.call = .monitor key → r.answer = some false →
    ∃ t, LastMark key t hist ∧ (r.now - t) * u.den < frequency * u.num

/-- The time held for one key, against the calls made so far. -/
structure TracksKey (u : Units) (frequency : ℤ) (key : κ) (o : Option ℤ)
    (hist : List (ThrottleRecord κ)) (clock : ℤ) : Prop where
  times : ∀ q ∈ hist, q.now ≤ clock
  mark : ∀ t, o = some t → LastMark key t hist
  monitored : ∀ t, o = some t → ∃ q ∈ hist, q.call = .monitor key
  held : ∀ t, o = some t → ∀ q ∈ hist, Passes key q → q.now ≤ t
  dropped : o = none → ∀ q ∈ hist, Passes key q → frequency ≤ u.durationCast (clock - q.now)

/-- What one call can do to the time held for a key. -/
inductive KeyStep (u : Units) (stale : ℤ) (key : κ) (r : ThrottleRecord κ) :
    Option ℤ → Option ℤ → Prop where
  | keep (o : Option ℤ) (hr : ¬ Marks key r) : KeyStep u stale key r o o
  | mark (o : Option ℤ) (hr : Marks key r) (ho : o = none → r.call = .monitor key) :
    KeyStep u stale key r o (some r.now)
  | drop (t : ℤ) (hr : ¬ Marks key r) (hstale : stale ≤ u.durationCast (r.now - t)) :
    KeyStep u stale key r (some t) none
  | absent (hr : r.call = .touch key) : KeyStep u stale key r none none

omit [LinearOrder κ] in
theorem lastMark_append (h : LastMark key t hist) (hr : ¬ Marks key r) :
    LastMark key t (hist ++ [r]) := by
  obtain ⟨before, q, between, rfl, hq, ht, hbetween⟩ := h
  refine ⟨before, q, between ++ [r], by simp, hq, ht, fun x hx => ?_⟩
  rcases List.mem_append.mp hx with hx | hx
  · exact hbetween x hx
  · rw [List.mem_singleton.mp hx]
    exact hr

omit [LinearOrder κ] in
theorem lastMark_self (hr : Marks key r) : LastMark key r.now (hist ++ [r]) :=
  ⟨hist, r, [], rfl, hr, rfl, by simp⟩

omit [LinearOrder κ] in
theorem lastMark_le (h : LastMark key t hist) (htimes : ∀ q ∈ hist, q.now ≤ clock) :
    t ≤ clock := by
  obtain ⟨before, q, between, rfl, -, rfl, -⟩ := h
  apply htimes
  simp

theorem keyStep_call (s : FrequencyThrottle κ) (now : ℤ) (c : ThrottleCall κ) :
    KeyStep u s.staleDuration key ⟨c, now, (call u s now c).2⟩ (s.mapLastTime.find key)
      ((call u s now c).1.mapLastTime.find key) := by
  cases c with
  | monitor key' =>
    by_cases hkey : key' = key
    · subst hkey
      obtain ⟨h, -⟩ | ⟨h, t, ht, -⟩ := monitor_cases u s now key'
      · simp only [call, h, OrderedMap.find_insert, if_true]
        exact .mark _ (.inl ⟨rfl, rfl⟩) fun _ => rfl
      · simp only [call, h]
        exact .keep _ (by simp [Marks, Passes])
    · simp only [call, find_monitor_of_ne hkey]
      exact .keep _ (by simp [Marks, Passes, hkey])
  | touch key' =>
    simp only [call, find_touch]
    by_cases hkey : key' = key
    · subst hkey
      rw [if_pos rfl]
      cases hfind : s.mapLastTime.find key' with
      | none => exact .absent rfl
      | some t => exact .mark _ (.inr rfl) (by simp)
    · rw [if_neg hkey]
      exact .keep _ (by simp [Marks, Passes, hkey])
  | removeStaleKeys =>
    have hr (a : Option Bool) :
        ¬ Marks key (⟨.removeStaleKeys, now, a⟩ : ThrottleRecord κ) := by simp [Marks, Passes]
    simp only [call, find_removeStaleKeys]
    cases hfind : s.mapLastTime.find key with
    | none => exact .keep _ (hr _)
    | some t =>
      by_cases hstale : s.staleDuration ≤ u.durationCast (now - t)
      · simp only [if_pos hstale]
        exact .drop t (hr _) hstale
      · simp only [if_neg hstale]
        exact .keep _ (hr _)

omit [LinearOrder κ] in
theorem tracksKey_nil : TracksKey u frequency key none [] clock :=
  ⟨by simp, by simp, by simp, by simp, by simp⟩

omit [LinearOrder κ] in
theorem tracksKey_step (h : TracksKey u frequency key o hist clock) (hclock : clock ≤ r.now)
    (hstale : frequency ≤ stale) (hstep : KeyStep u stale key r o o') :
    TracksKey u frequency key o' (hist ++ [r]) r.now := by
  have htimes : ∀ q ∈ hist ++ [r], q.now ≤ r.now := by
    intro q hq
    rcases List.mem_append.mp hq with hq | hq
    · exact (h.times q hq).trans hclock
    · rw [List.mem_singleton.mp hq]
  -- Only a record that passes can break the bounds on the earlier ones.
  have hpasses {P : ThrottleRecord κ → Prop} (hr : ¬ Passes key r)
      (hP : ∀ q ∈ hist, Passes key q → P q) : ∀ q ∈ hist ++ [r], Passes key q → P q := by
    intro q hq hpass
    rcases List.mem_append.mp hq with hq | hq
    · exact hP q hq hpass
    · exact absurd (List.mem_singleton.mp hq ▸ hpass) hr
  have hlater {q : ThrottleRecord κ} (hq : q ∈ hist) :
      u.durationCast (clock - q.now) ≤ u.durationCast (r.now - q.now) := by
    have := h.times q hq
    apply durationCast_mono <;> omega
  have hmonitored : (∃ q ∈ hist, q.call = .monitor key) →
      ∃ q ∈ hist ++ [r], q.call = .monitor key := by
    rintro ⟨q, hq, hcall⟩
    exact ⟨q, List.mem_append_left _ hq, hcall⟩
  cases hstep with
  | keep o hr =>
    have hnot : ¬ Passes key r := fun hp => hr (.inl hp)
    exact ⟨htimes, fun t ht => lastMark_append (h.mark t ht) hr,
      fun t ht => hmonitored (h.monitored t ht), fun t ht => hpasses hnot (h.held t ht),
      fun ho => hpasses hnot fun q hq hp => (h.dropped ho q hq hp).trans (hlater hq)⟩
  | mark o hr ho =>
    refine ⟨htimes, ?_, ?_, ?_, by simp⟩
    · rintro t ⟨⟩
      exact lastMark_self hr
    · intro _ _
      cases o with
      | none => exact ⟨r, by simp, ho rfl⟩
      | some t => exact hmonitored (h.monitored t rfl)
    · rintro t ⟨⟩ q hq -
      exact htimes q hq
  | drop t hr hdrop =>
    refine ⟨htimes, by simp, by simp, by simp, fun _ => hpasses (fun hp => hr (.inl hp)) ?_⟩
    intro q hq hpass
    have ht : t ≤ clock := lastMark_le (h.mark t rfl) h.times
    have hle : q.now ≤ t := h.held t rfl q hq hpass
    calc frequency ≤ stale := hstale
      _ ≤ u.durationCast (r.now - t) := hdrop
      _ ≤ u.durationCast (r.now - q.now) := by apply durationCast_mono <;> omega
  | absent hr =>
    have hnot : ¬ Passes key r := fun hp => by simpa [hr] using hp.1
    exact ⟨htimes, by simp, by simp, by simp,
      fun _ => hpasses hnot fun q hq hp => (h.dropped rfl q hq hp).trans (hlater hq)⟩

theorem lawful_call (h : ∀ key, TracksKey u s.frequency key (s.mapLastTime.find key) hist clock)
    (hclock : clock ≤ now) (c : ThrottleCall κ) :
    Lawful u s.frequency hist ⟨c, now, (call u s now c).2⟩ := by
  cases c with
  | touch key => exact ⟨by simp, by simp [Passes], by simp⟩
  | removeStaleKeys => exact ⟨by simp, by simp [Passes], by simp⟩
  | monitor key =>
    obtain ⟨hmonitor, helapsed⟩ | ⟨hmonitor, t, ht, hrecent⟩ := monitor_cases u s now key
    · refine ⟨fun _ _ _ => by simp [call, hmonitor], ?_, by simp [call, hmonitor]⟩
      rintro _ ⟨⟨⟩, -⟩ q hq hpass
      have htime : q.now ≤ clock := (h key).times q hq
      dsimp only
      rw [← le_durationCast_iff (by omega)]
      cases hfind : s.mapLastTime.find key with
      | none =>
        apply ((h key).dropped hfind q hq hpass).trans
        apply durationCast_mono <;> omega
      | some t =>
        apply (helapsed t hfind).trans
        have hle := (h key).held t hfind q hq hpass
        have := lastMark_le ((h key).mark t hfind) (h key).times
        apply durationCast_mono <;> omega
    · refine ⟨?_, by simp [Passes, call, hmonitor], ?_⟩
      · rintro _ ⟨⟩ hnone
        obtain ⟨q, hq, hcall⟩ := (h key).monitored t ht
        exact absurd hcall (hnone q hq)
      · rintro _ ⟨⟩ -
        have := lastMark_le ((h key).mark t ht) (h key).times
        refine ⟨t, (h key).mark t ht, ?_⟩
        rw [← durationCast_lt_iff (by dsimp only; omega)]
        exact hrecent

/-- The run lemma: what is known of the calls so far is known of each later one. -/
theorem lawful_records {calls : List (ThrottleCall κ × ℤ)}
    (hsorted : (clock :: calls.map Prod.snd).Pairwise (· ≤ ·))
    (hstale : s.frequency ≤ s.staleDuration)
    (h : ∀ key, TracksKey u s.frequency key (s.mapLastTime.find key) hist clock)
    {before after : List (ThrottleRecord κ)}
    (hsplit : records u s calls = before ++ r :: after) :
    Lawful u s.frequency (hist ++ before) r := by
  induction calls generalizing s hist clock before with
  | nil => simp [records] at hsplit
  | cons c calls ih =>
    obtain ⟨hle, htail⟩ := List.pairwise_cons.mp hsorted
    have hclock : clock ≤ c.2 := hle c.2 (by simp)
    cases before with
    | nil =>
      obtain ⟨rfl, -⟩ := List.cons.inj hsplit
      rw [List.append_nil]
      exact lawful_call h hclock c.1
    | cons r' before =>
      obtain ⟨rfl, hrest⟩ := List.cons.inj hsplit
      have htracks : ∀ key, TracksKey u (call u s c.2 c.1).1.frequency key
          ((call u s c.2 c.1).1.mapLastTime.find key)
          (hist ++ [⟨c.1, c.2, (call u s c.2 c.1).2⟩]) c.2 := by
        intro key
        rw [call_frequency]
        exact tracksKey_step (h key) hclock hstale (keyStep_call s c.2 c.1)
      simpa using ih htail (by simpa using hstale) htracks hrest

end History

section Interference
variable {u} {s s' : FrequencyThrottle κ} {now : ℤ} {key : κ}

/-- A call that can touch the entry of the key. -/
def concerns (key : κ) : ThrottleCall κ → Bool
  | .monitor key' => key' = key
  | .touch key' => key' = key
  | .removeStaleKeys => true

/-- Two throttles that agree about the key, whatever they hold for the others. -/
structure AgreeOn (key : κ) (s s' : FrequencyThrottle κ) : Prop where
  frequency : s.frequency = s'.frequency
  staleDuration : s.staleDuration = s'.staleDuration
  find : s.mapLastTime.find key = s'.mapLastTime.find key

theorem agreeOn_call (h : AgreeOn key s s') {c : ThrottleCall κ} (hc : concerns key c = true) :
    AgreeOn key (call u s now c).1 (call u s' now c).1 ∧
      (call u s now c).2 = (call u s' now c).2 := by
  refine ⟨⟨by simpa using h.frequency, by simpa using h.staleDuration, ?_⟩, ?_⟩
  all_goals
    cases c with
    | monitor key' =>
      obtain rfl : key' = key := by simpa [concerns] using hc
      cases hfind : s'.mapLastTime.find key' with
      | none => simp [call, monitor, h.find, hfind, OrderedMap.find_insert]
      | some t =>
        by_cases hle : s'.frequency ≤ u.durationCast (now - t) <;>
          simp [call, monitor, h.find, h.frequency, hfind, hle, OrderedMap.find_insert]
    | touch key' =>
      obtain rfl : key' = key := by simpa [concerns] using hc
      simp [call, find_touch, h.find]
    | removeStaleKeys => simp [call, find_removeStaleKeys, h.find, h.staleDuration]

theorem agreeOn_other (h : AgreeOn key s s') {c : ThrottleCall κ}
    (hc : concerns key c = false) : AgreeOn key (call u s now c).1 s' := by
  refine ⟨by simpa using h.frequency, by simpa using h.staleDuration, ?_⟩
  cases c with
  | monitor key' =>
    have hne : key' ≠ key := by simpa [concerns] using hc
    simpa [call, find_monitor_of_ne hne] using h.find
  | touch key' =>
    have hne : key' ≠ key := by simpa [concerns] using hc
    simpa [call, find_touch, hne] using h.find
  | removeStaleKeys => simp [concerns] at hc

theorem answersFor_cons (r : ThrottleRecord κ) (rs : List (ThrottleRecord κ)) :
    answersFor key (r :: rs) =
      (if r.call = .monitor key then r.answer.toList else []) ++ answersFor key rs := by
  by_cases hr : r.call = .monitor key
  · cases ha : r.answer <;> simp [answersFor, hr, ha]
  · simp [answersFor, hr]

/-- The calls on other keys can be left out. -/
theorem answersFor_filter (h : AgreeOn key s s') (calls : List (ThrottleCall κ × ℤ)) :
    answersFor key (records u s calls) =
      answersFor key (records u s' (calls.filter fun c => concerns key c.1)) := by
  induction calls generalizing s s' with
  | nil => rfl
  | cons c calls ih =>
    rw [List.filter_cons, records, answersFor_cons]
    by_cases hc : concerns key c.1 = true
    · obtain ⟨hagree, hanswer⟩ := agreeOn_call (u := u) h hc
      rw [if_pos hc, records, answersFor_cons, ih hagree, hanswer]
    · have hm : c.1 ≠ .monitor key := by
        intro hm
        simp [hm, concerns] at hc
      rw [if_neg hc, if_neg hm, List.nil_append]
      exact ih (agreeOn_other h (by simpa using hc))

end Interference

section Insertion
variable {u} {s s' : FrequencyThrottle κ} {clock now : ℤ} {calls calls' : List (ThrottleCall κ × ℤ)}

/-- The second sequence is the first with `RemoveStaleKeys` calls inserted. -/
inductive Inserted : List (ThrottleCall κ × ℤ) → List (ThrottleCall κ × ℤ) → Prop where
  | nil : Inserted [] []
  | keep (c : ThrottleCall κ × ℤ) {calls calls'} (h : Inserted calls calls') :
    Inserted (c :: calls) (c :: calls')
  | insert (now : ℤ) {calls calls'} (h : Inserted calls calls') :
    Inserted calls ((.removeStaleKeys, now) :: calls')

/-- A `Touch` of a key that is held comes before the key is stale. -/
def TouchInTime (u : Units) (s : FrequencyThrottle κ) (now : ℤ) : ThrottleCall κ → Prop
  | .touch key => ∀ t, s.mapLastTime.find key = some t →
      u.durationCast (now - t) < s.staleDuration
  | _ => True

def TouchesInTime (u : Units) : FrequencyThrottle κ → List (ThrottleCall κ × ℤ) → Prop
  | _, [] => True
  | s, c :: calls => TouchInTime u s c.2 c.1 ∧ TouchesInTime u (call u s c.2 c.1).1 calls

/-- `s'` holds what `s` does, less some keys that are stale by now. -/
structure Forgets (u : Units) (clock : ℤ) (s s' : FrequencyThrottle κ) : Prop where
  frequency : s.frequency = s'.frequency
  staleDuration : s.staleDuration = s'.staleDuration
  held : ∀ key t, s.mapLastTime.find key = some t → t ≤ clock
  find : ∀ key, s'.mapLastTime.find key = s.mapLastTime.find key ∨
    s'.mapLastTime.find key = none ∧ ∃ t, s.mapLastTime.find key = some t ∧
      s.staleDuration ≤ u.durationCast (clock - t)

theorem forgets_refl (h : ∀ key t, s.mapLastTime.find key = some t → t ≤ clock) :
    Forgets u clock s s :=
  ⟨rfl, rfl, h, fun _ => .inl rfl⟩

theorem held_call {c : ThrottleCall κ} (hclock : clock ≤ now)
    (h : ∀ key t, s.mapLastTime.find key = some t → t ≤ clock) :
    ∀ key t, (call u s now c).1.mapLastTime.find key = some t → t ≤ now := by
  intro key t ht
  have hstep : KeyStep u s.staleDuration key _ _ _ := keyStep_call s now c
  rw [ht] at hstep
  generalize ho : s.mapLastTime.find key = o at hstep
  cases hstep with
  | keep _ _ => exact (h key t ho).trans hclock
  | mark _ _ _ => exact le_rfl

/-- The answer is the same, since a stale key is let through as a new one is. -/
theorem forgets_monitor (h : Forgets u clock s s') (hclock : clock ≤ now)
    (hstale : s.frequency ≤ s.staleDuration) (key : κ) :
    (monitor u s now key).2 = (monitor u s' now key).2 ∧
      ∀ key', (monitor u s' now key).1.mapLastTime.find key' =
          (monitor u s now key).1.mapLastTime.find key' ∨
        key' ≠ key := by
  rcases h.find key with hsame | ⟨hnone, t, ht, hle⟩
  · cases hfind : s.mapLastTime.find key with
    | none =>
      rw [monitor_of_absent hfind, monitor_of_absent (hsame.trans hfind)]
      refine ⟨rfl, fun key' => ?_⟩
      by_cases hkey : key = key' <;> simp [OrderedMap.find_insert, hkey, eq_comm]
    | some t =>
      rcases le_or_gt s.frequency (u.durationCast (now - t)) with hle | hlt
      · rw [monitor_of_elapsed hfind hle,
          monitor_of_elapsed (hsame.trans hfind) (h.frequency ▸ hle)]
        refine ⟨rfl, fun key' => ?_⟩
        by_cases hkey : key = key' <;> simp [OrderedMap.find_insert, hkey, eq_comm]
      · rw [monitor_of_recent hfind hlt,
          monitor_of_recent (hsame.trans hfind) (h.frequency ▸ hlt)]
        refine ⟨rfl, fun key' => ?_⟩
        by_cases hkey : key' = key
        · exact .inl (hkey ▸ hsame)
        · exact .inr hkey
  · have ht' : t ≤ clock := h.held key t ht
    have helapsed : s.frequency ≤ u.durationCast (now - t) := by
      apply hstale.trans (hle.trans _)
      apply durationCast_mono <;> omega
    rw [monitor_of_elapsed ht helapsed, monitor_of_absent hnone]
    refine ⟨rfl, fun key' => ?_⟩
    by_cases hkey : key = key' <;> simp [OrderedMap.find_insert, hkey, eq_comm]

theorem forgets_later (h : Forgets u clock s s') (hclock : clock ≤ now) :
    Forgets u now s s' := by
  refine ⟨h.frequency, h.staleDuration, fun key t ht => (h.held key t ht).trans hclock, ?_⟩
  intro key
  rcases h.find key with hsame | ⟨hnone, t, ht, hle⟩
  · exact .inl hsame
  · have := h.held key t ht
    refine .inr ⟨hnone, t, ht, hle.trans ?_⟩
    apply durationCast_mono <;> omega

theorem forgets_call (h : Forgets u clock s s') (hclock : clock ≤ now)
    (hstale : s.frequency ≤ s.staleDuration) {c : ThrottleCall κ} (hc : TouchInTime u s now c) :
    Forgets u now (call u s now c).1 (call u s' now c).1 ∧
      (call u s now c).2 = (call u s' now c).2 := by
  have hnow := forgets_later h hclock
  have hkeys : (∀ key, (call u s' now c).1.mapLastTime.find key =
        (call u s now c).1.mapLastTime.find key ∨
      (call u s' now c).1.mapLastTime.find key = none ∧
        ∃ t, (call u s now c).1.mapLastTime.find key = some t ∧
          s.staleDuration ≤ u.durationCast (now - t)) ∧
      (call u s now c).2 = (call u s' now c).2 := by
    cases c with
    | monitor key =>
      obtain ⟨hanswer, hfind⟩ := forgets_monitor h hclock hstale key
      refine ⟨fun key' => ?_, congrArg some hanswer⟩
      rcases hfind key' with hsame | hne
      · exact .inl hsame
      · simp only [call, find_monitor_of_ne hne.symm]
        exact hnow.find key'
    | touch key =>
      refine ⟨fun key' => ?_, rfl⟩
      simp only [call, find_touch]
      by_cases hkey : key = key'
      · subst hkey
        rcases hnow.find key with hsame | ⟨-, t, ht, hle⟩
        · exact .inl (by rw [hsame])
        · exact absurd (hc t ht) (not_lt.mpr hle)
      · simpa only [if_neg hkey] using hnow.find key'
    | removeStaleKeys =>
      refine ⟨fun key => .inl ?_, rfl⟩
      simp only [call, find_removeStaleKeys, ← h.staleDuration]
      rcases hnow.find key with hsame | ⟨hnone, t, ht, hle⟩
      · rw [hsame]
      · simp [hnone, ht, hle]
  exact ⟨⟨by simpa using h.frequency, by simpa using h.staleDuration,
    held_call hclock h.held, by simpa using hkeys.1⟩, hkeys.2⟩

theorem forgets_removal (h : Forgets u clock s s') (hclock : clock ≤ now) :
    Forgets u now s (removeStaleKeys u s' now) := by
  have hnow := forgets_later h hclock
  refine ⟨h.frequency, h.staleDuration, hnow.held, fun key => ?_⟩
  rw [find_removeStaleKeys, ← h.staleDuration]
  rcases hnow.find key with hsame | ⟨hnone, t, ht, hle⟩
  · rw [hsame]
    cases hfind : s.mapLastTime.find key with
    | none => exact .inl rfl
    | some t =>
      by_cases hle : s.staleDuration ≤ u.durationCast (now - t)
      · exact .inr ⟨by simp [hle], t, rfl, hle⟩
      · exact .inl (by simp [hle])
  · rw [hnone]
    exact .inr ⟨rfl, t, ht, hle⟩

theorem answers_inserted (hins : Inserted calls calls') (h : Forgets u clock s s')
    (hsorted : (clock :: calls'.map Prod.snd).Pairwise (· ≤ ·))
    (hstale : s.frequency ≤ s.staleDuration) (htouch : TouchesInTime u s calls) :
    answers u s calls = answers u s' calls' := by
  induction hins generalizing s s' clock with
  | nil => rfl
  | keep c hins ih =>
    obtain ⟨hle, htail⟩ := List.pairwise_cons.mp hsorted
    obtain ⟨hforgets, hanswer⟩ := forgets_call h (hle c.2 (by simp)) hstale htouch.1
    have hrest := ih hforgets htail (by simpa using hstale) htouch.2
    simp only [answers, records, List.filterMap_cons, hanswer] at hrest ⊢
    rw [hrest]
  | insert now hins ih =>
    obtain ⟨hle, htail⟩ := List.pairwise_cons.mp hsorted
    have hrest := ih (forgets_removal h (hle now (by simp))) htail hstale htouch
    rw [hrest]
    rfl

end Insertion

theorem exists_clock {times : List ℤ} (h : times.Pairwise (· ≤ ·)) :
    ∃ clock, (clock :: times).Pairwise (· ≤ ·) := by
  cases times with
  | nil => exact ⟨0, by simp⟩
  | cons t times =>
    refine ⟨t, List.pairwise_cons.mpr ⟨fun t' ht' => ?_, h⟩⟩
    rcases List.mem_cons.mp ht' with rfl | ht'
    · exact le_rfl
    · exact (List.pairwise_cons.mp h).1 t' ht'

/-- The rate law. Inserting `RemoveStaleKeys` is invisible as long as no `Touch` finds
its key stale. -/
theorem frequencyThrottle_rateLaw (u : Units) (frequency : ℤ)
    (calls : List (ThrottleCall κ × ℤ)) (hclock : (calls.map Prod.snd).Pairwise (· ≤ ·)) :
    (∀ before r after, records u (init frequency) calls = before ++ r :: after →
        Lawful u frequency before r) ∧
      (∀ key, answersFor key (records u (init frequency) calls) =
        answersFor key (records u (init frequency) (calls.filter fun c => concerns key c.1))) ∧
      (TouchesInTime u (init frequency) calls → ∀ calls', Inserted calls calls' →
        (calls'.map Prod.snd).Pairwise (· ≤ ·) →
        answers u (init frequency) calls = answers u (init frequency) calls') := by
  have hempty (key : κ) : (init frequency).mapLastTime.find key = none := rfl
  have hstale : (init frequency : FrequencyThrottle κ).frequency ≤
      (init frequency : FrequencyThrottle κ).staleDuration := by
    simp [init, setFrequency]
  refine ⟨fun before r after hsplit => ?_, fun key => ?_, fun htouch calls' hins hclock' => ?_⟩
  · obtain ⟨clock, hsorted⟩ := exists_clock hclock
    exact lawful_records hsorted hstale (fun key => by rw [hempty]; exact tracksKey_nil) hsplit
  · exact answersFor_filter ⟨rfl, rfl, rfl⟩ calls
  · obtain ⟨clock, hsorted⟩ := exists_clock hclock'
    exact answers_inserted hins (forgets_refl (by simp [hempty])) hsorted hstale htouch

theorem thousand_pos : (0 : ℤ) < 1000 := by decide

/-- A clock of microseconds and a duration of milliseconds. -/
def milliseconds : Units := ⟨1000, 1, thousand_pos, Int.one_pos⟩

theorem frequencyThrottle_rateLaw_two_keys :
    let calls : List (ThrottleCall ℕ × ℤ) :=
      [(.monitor 1, 0), (.monitor 2, 500000), (.touch 1, 900000), (.monitor 1, 1899999),
        (.monitor 1, 1900000)]
    let calls' : List (ThrottleCall ℕ × ℤ) :=
      [(.monitor 1, 0), (.monitor 2, 500000), (.removeStaleKeys, 600000), (.touch 1, 900000),
        (.monitor 1, 1899999), (.monitor 1, 1900000)]
    answers milliseconds (init 1000) calls = [true, true, false, true] ∧
      answers milliseconds (init 1000) calls = answers milliseconds (init 1000) calls' := by
  intro calls calls'
  refine ⟨by decide +kernel, (frequencyThrottle_rateLaw milliseconds 1000 calls
    (by decide)).2.2 ?_ calls' ?_ (by decide)⟩
  · refine ⟨trivial, trivial, ?_, trivial, trivial, trivial⟩
    intro t ht
    have hheld : t = 0 := by
      have : some t = some 0 := ht.symm.trans (by decide +kernel)
      exact Option.some.inj this
    subst hheld
    decide +kernel
  · exact .keep _ (.keep _ (.insert _ (.keep _ (.keep _ (.keep _ .nil)))))

/-- The key is dropped before a `Touch` that would have held it. -/
theorem removeStaleKeys_changes_answer :
    let calls : List (ThrottleCall ℕ × ℤ) :=
      [(.monitor 1, 0), (.touch 1, 6000000), (.monitor 1, 6001000)]
    let calls' : List (ThrottleCall ℕ × ℤ) :=
      [(.monitor 1, 0), (.removeStaleKeys, 6000000), (.touch 1, 6000000), (.monitor 1, 6001000)]
    Inserted calls calls' ∧ (calls'.map Prod.snd).Pairwise (· ≤ ·) ∧
      answers milliseconds (init 1000) calls = [true, false] ∧
      answers milliseconds (init 1000) calls' = [true, true] := by
  intro calls calls'
  refine ⟨.keep _ (.insert _ (.keep _ (.keep _ .nil))), by decide, ?_, ?_⟩ <;> decide +kernel

end FrequencyThrottle
end V2IHub.Utils
