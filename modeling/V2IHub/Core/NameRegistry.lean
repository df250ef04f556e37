import V2IHub.Core.Exceptions
import V2IHub.Foundation.Machine

/-! The set `Plugin::clientNames` that all plugins of the core share. -/
namespace V2IHub.Core
open Foundation Program CoreException

section Register
variable {D : Type} (db : Database D)

theorem registerInDatabase_name (info : RegistrationInformation) :
    Triple (fun _ => True) (registerInDatabase db info)
      (fun r _ => r.1.pluginInfo.name = info.pluginInfo.name) fun _ _ => True :=
  triple_bind triple_const fun _ => triple_bind triple_const fun _ =>
    triple_bind triple_const fun _ => triple_bind triple_const fun _ =>
      triple_pure fun _ _ => rfl

/-- The database accepts the registration. -/
def storesRegistration (info : RegistrationInformation) (s : CoreState D) : Bool :=
  match (registerInDatabase db info s).1 with
  | .ok _ => true
  | _ => false

/-- The state once `registerPlugin` has taken the name. -/
def CoreState.reserve (s : CoreState D) (name : Bytes) : CoreState D :=
  { s with clientNames := insert name s.clientNames }

theorem announceRegistration_run {s : CoreState D} (hreg : s.plugin.mRegistered = true) :
    ∃ d routed, announceRegistration db s = (.ok (), { s with db := d, routed := routed }) := by
  obtain ⟨d, hlog⟩ : ∃ d, addEventLogEntry db LogLevel_Info (cstr "Plugin registered") s =
      (.ok (), { s with db := d }) := ⟨_, registeredQuery_run hreg⟩
  obtain ⟨d', hstatus⟩ : ∃ d', setPluginStatus db IVP_STATUS_RUNNING { s with db := d } =
      (.ok (), { s with db := d' }) := ⟨_, registeredQuery_run hreg⟩
  rw [announceRegistration, bind_ok hlog, bind_ok hstatus, bind_ok (get_run _),
    sendMessageToRouter, requireRegistered_bind, if_pos hreg]
  exact ⟨d', _, rfl⟩

theorem registerReserved_run {info : RegistrationInformation} {s : CoreState D}
    (h : storesRegistration db info s = true) :
    ∃ t, registerReserved db info s = (.ok (), t) ∧ t.clientNames = s.clientNames ∧
      t.plugin.mRegistered = true ∧
      t.plugin.mInfo.pluginInfo.name = info.pluginInfo.name := by
  have hnames := registerInDatabase_preserves db (g := CoreState.clientNames)
    (fun _ _ => rfl) info s
  have hname := registerInDatabase_name db info s trivial
  unfold storesRegistration at h
  rcases hr : registerInDatabase db info s with ⟨⟨info', configMap⟩ | e | _, t⟩ <;>
    simp only [hr] at h hnames hname <;> try contradiction
  have hcatch : Program.tryCatch (registerInDatabase db info) isDbException (fun e =>
      throw (pluginException
        (cstr "Unable to register plugin with database [" ++ e.what ++ cstr "]"))) s =
      (.ok (info', configMap), t) := by
    simp [Program.tryCatch, hr]
  rw [registerReserved, bind_ok hcatch, bind_ok (modify_run _ _)]
  obtain ⟨d, routed, hdone⟩ := announceRegistration_run db
    (s := { t with plugin := t.plugin.registered info' configMap }) rfl
  exact ⟨_, hdone, hnames, rfl, hname⟩

/-- `registerPlugin` refuses the name, or leaves all to the database. -/
theorem registerPlugin_run (info : RegistrationInformation) (s : CoreState D) :
    (∃ e, registerPlugin db info s = (.throws e, s) ∧
        (info.pluginInfo.name = [] ∨ info.pluginInfo.name ∈ s.clientNames)) ∨
      (registerPlugin db info s = registerReserved db info (s.reserve info.pluginInfo.name) ∧
        info.pluginInfo.name ≠ [] ∧ info.pluginInfo.name ∉ s.clientNames) := by
  rw [registerPlugin, bind_ok (get_run s)]
  by_cases hempty : info.pluginInfo.name = []
  · rw [if_pos hempty]
    exact .inl ⟨_, rfl, .inl hempty⟩
  · rw [if_neg hempty]
    by_cases hdup : info.pluginInfo.name ∈ s.clientNames
    · rw [if_pos hdup]
      exact .inl ⟨_, rfl, .inr hdup⟩
    · rw [if_neg hdup]
      exact .inr ⟨rfl, hempty, hdup⟩

theorem logDestruction_run (s : CoreState D) :
    ∃ d, logDestruction db s = (.ok (), { s with db := d }) := by
  rw [logDestruction, bind_ok (get_run s)]
  split_ifs with hreg
  · exact ⟨_, registeredQuery_run hreg⟩
  · exact ⟨s.db, rfl⟩

theorem stopPlugin_run (s : CoreState D) :
    ∃ d filter, stopPlugin db s = (.ok (), { s with db := d, filter := filter }) := by
  unfold stopPlugin Program.tryCatch subscribeForMessages
  rw [bind_run, requireRegistered_bind]
  cases hreg : s.plugin.mRegistered with
  | false => exact ⟨s.db, s.filter, by simp [isPluginException]⟩
  | true =>
    obtain ⟨d, hstatus⟩ : ∃ d, setPluginStatus db IVP_STATUS_STOPPED_DISCONENCTED
        { s with filter := some [] } = (.ok (), { s with db := d, filter := some [] }) :=
      ⟨_, registeredQuery_run hreg⟩
    exact ⟨d, some [], by simp [hstatus]⟩

theorem destroyPlugin_run (s : CoreState D) :
    ∃ d, destroyPlugin db s = (.ok (), { s with
      db := d
      clientNames := s.clientNames.erase s.plugin.mInfo.pluginInfo.name
      filter := none }) := by
  rw [destroyPlugin, bind_ok (modify_run _ _)]
  obtain ⟨d, hlog⟩ := logDestruction_run db
    { s with clientNames := s.clientNames.erase s.plugin.mInfo.pluginInfo.name }
  rw [bind_ok hlog]
  obtain ⟨d', filter, hstop⟩ := stopPlugin_run db { s with
    db := d
    clientNames := s.clientNames.erase s.plugin.mInfo.pluginInfo.name }
  rw [bind_ok hstop, bind_ok (get_run _), bind_ok (tryQuery_run _ _)]
  exact ⟨_, rfl⟩

end Register

/-- A live plugin, and whether its last `registerPlugin` succeeded. -/
structure Member where
  plugin : Plugin
  succeeded : Bool

def Member.name (m : Member) : Bytes := m.plugin.mInfo.pluginInfo.name

def Member.Consistent (m : Member) : Prop :=
  m.plugin.mRegistered = m.succeeded ∧ (m.succeeded = true ↔ m.name ≠ [])

structure NameRegistry (D : Type) where
  db : D
  clock : BitVec 64
  clientNames : Finset Bytes
  live : ℕ → Option Member

inductive RegistryAct (D : Type) where
  | connect (i : ℕ) (id : BitVec 32)
  | register (i : ℕ) (info : RegistrationInformation)
  | disconnect (i : ℕ)
  | environment (db : D) (clock : BitVec 64)

namespace NameRegistry
variable {D : Type} (db : Database D)

/-- What the operations of one plugin see. -/
def view (r : NameRegistry D) (plugin : Plugin) : CoreState D where
  db := r.db
  clock := r.clock
  clientNames := r.clientNames
  plugin := plugin
  filter := none
  routed := []
  socket := []

def settle (r : NameRegistry D) (i : ℕ) (s : CoreState D) (m : Option Member) : NameRegistry D :=
  { r with db := s.db, clientNames := s.clientNames, live := Function.update r.live i m }

def stepRegister (r : NameRegistry D) (i : ℕ) (info : RegistrationInformation) :
    Option (NameRegistry D) :=
  match r.live i with
  | none => none
  | some m =>
    match registerPlugin db info (r.view m.plugin) with
    | (.ok _, s) => some (r.settle i s (some ⟨s.plugin, true⟩))
    | (.throws _, s) => some (r.settle i s (some ⟨s.plugin, false⟩))
    | (.crash, _) => none

def stepDisconnect (r : NameRegistry D) (i : ℕ) : Option (NameRegistry D) :=
  match r.live i with
  | none => none
  | some m =>
    match destroyPlugin db (r.view m.plugin) with
    | (.ok _, s) => some (r.settle i s none)
    | _ => none

def step (r : NameRegistry D) : RegistryAct D → Option (NameRegistry D)
  | .connect i id =>
    match r.live i with
    | none => some { r with live := Function.update r.live i (some ⟨.new id, false⟩) }
    | some _ => none
  | .register i info => r.stepRegister db i info
  | .disconnect i => r.stepDisconnect db i
  | .environment d clock => some { r with db := d, clock := clock }

def machine : Machine (NameRegistry D) (RegistryAct D) := ⟨step db⟩

/-- The core before any plugin connects. -/
def start (d : D) (clock : BitVec 64) : NameRegistry D where
  db := d
  clock := clock
  clientNames := ∅
  live := fun _ => none

/-- The set holds the names of the live plugins whose last registration succeeded. -/
def Exact (r : NameRegistry D) : Prop :=
  ∀ name, name ∈ r.clientNames ↔ ∃ i m, r.live i = some m ∧ m.succeeded = true ∧ m.name = name

/-- A plugin registers while it is not registered, and if its name is free, the database
accepts it. -/
def registersOnce (r : NameRegistry D) : RegistryAct D → Bool
  | .register i info =>
    match r.live i with
    | none => true
    | some m => !m.plugin.mRegistered &&
      (info.pluginInfo.name = [] || info.pluginInfo.name ∈ r.clientNames ||
        storesRegistration db info ((r.view m.plugin).reserve info.pluginInfo.name))
  | _ => true

/-- What the runs keep: a name belongs to one plugin, and exactly the registered ones have a
name. -/
structure WellNamed (r : NameRegistry D) : Prop where
  exact : r.Exact
  consistent : ∀ i m, r.live i = some m → m.Consistent
  unique : ∀ i j m m', r.live i = some m → r.live j = some m' → m.succeeded = true →
    m'.succeeded = true → m.name = m'.name → i = j

section Steps
variable {r t : NameRegistry D}

theorem start_wellNamed (d : D) (clock : BitVec 64) : (start d clock).WellNamed where
  exact := by simp [Exact, start]
  consistent := by simp [start]
  unique := by simp [start]

theorem update_eq_some {f : ℕ → Option Member} {i j : ℕ} {x : Option Member} {m : Member} :
    Function.update f i x j = some m ↔ j = i ∧ x = some m ∨ j ≠ i ∧ f j = some m := by
  by_cases h : j = i
  · subst h
    simp
  · simp [h]

/-- A plugin without a name comes in. -/
theorem WellNamed.join {i : ℕ} {m : Member} (h : r.WellNamed) (hi : r.live i = none)
    (hm : m.Consistent) (hsucc : m.succeeded = false) :
    WellNamed { r with live := Function.update r.live i (some m) } where
  exact := by
    intro name
    rw [h.exact name]
    constructor
    · rintro ⟨j, m', hj, hrest⟩
      exact ⟨j, m', update_eq_some.mpr (.inr ⟨fun hji => by simp_all, hj⟩), hrest⟩
    · rintro ⟨j, m', hj, hrest⟩
      rcases update_eq_some.mp hj with ⟨-, hnew⟩ | ⟨-, hold⟩
      · simp_all
      · exact ⟨j, m', hold, hrest⟩
  consistent := by
    intro j m' hj
    rcases update_eq_some.mp hj with ⟨-, hnew⟩ | ⟨-, hold⟩
    · simp_all
    · exact h.consistent j m' hold
  unique := by
    intro j k m₁ m₂ hj hk h₁ h₂ hnames
    rcases update_eq_some.mp hj with ⟨-, hnew⟩ | ⟨-, hold⟩
    · simp_all
    · rcases update_eq_some.mp hk with ⟨-, hnew⟩ | ⟨-, hold'⟩
      · simp_all
      · exact h.unique j k m₁ m₂ hold hold' h₁ h₂ hnames

/-- A plugin without a name takes one that is free. -/
theorem WellNamed.register {i : ℕ} {m m' : Member} (h : r.WellNamed) (hi : r.live i = some m)
    (hfailed : m.succeeded = false) (hm' : m'.Consistent) (hsucc : m'.succeeded = true)
    (hfree : m'.name ∉ r.clientNames) :
    WellNamed { r with
      clientNames := insert m'.name r.clientNames
      live := Function.update r.live i (some m') } where
  exact := by
    intro name
    rw [Finset.mem_insert, h.exact name]
    constructor
    · rintro (rfl | ⟨j, m₁, hj, hrest⟩)
      · exact ⟨i, m', update_eq_some.mpr (.inl ⟨rfl, rfl⟩), hsucc, rfl⟩
      · exact ⟨j, m₁, update_eq_some.mpr (.inr ⟨fun hji => by simp_all, hj⟩), hrest⟩
    · rintro ⟨j, m₁, hj, hrest⟩
      rcases update_eq_some.mp hj with ⟨-, hnew⟩ | ⟨-, hold⟩
      · simp_all
      · exact .inr ⟨j, m₁, hold, hrest⟩
  consistent := by
    intro j m₁ hj
    rcases update_eq_some.mp hj with ⟨-, hnew⟩ | ⟨-, hold⟩
    · simp_all
    · exact h.consistent j m₁ hold
  unique := by
    have hother : ∀ j m₁, r.live j = some m₁ → m₁.succeeded = true → m₁.name ≠ m'.name :=
      fun j m₁ hj h₁ hnames => hfree ((h.exact _).mpr ⟨j, m₁, hj, h₁, hnames⟩)
    intro j k m₁ m₂ hj hk h₁ h₂ hnames
    rcases update_eq_some.mp hj with ⟨hji, hnew⟩ | ⟨-, hold⟩ <;>
      rcases update_eq_some.mp hk with ⟨hki, hnew'⟩ | ⟨-, hold'⟩
    · rw [hji, hki]
    · cases hnew
      exact absurd hnames.symm (hother k m₂ hold' h₂)
    · cases hnew'
      exact absurd hnames (hother j m₁ hold h₁)
    · exact h.unique j k m₁ m₂ hold hold' h₁ h₂ hnames

/-- A plugin goes, and its name with it. -/
theorem WellNamed.leave {i : ℕ} {m : Member} (h : r.WellNamed) (hi : r.live i = some m) :
    WellNamed { r with
      clientNames := r.clientNames.erase m.name
      live := Function.update r.live i none } where
  exact := by
    intro name
    rw [Finset.mem_erase, h.exact name]
    constructor
    · rintro ⟨hne, j, m₁, hj, h₁, rfl⟩
      refine ⟨j, m₁, update_eq_some.mpr (.inr ⟨fun hji => hne ?_, hj⟩), h₁, rfl⟩
      simp_all
    · rintro ⟨j, m₁, hj, h₁, rfl⟩
      rcases update_eq_some.mp hj with ⟨-, hnew⟩ | ⟨hji, hold⟩
      · cases hnew
      · refine ⟨fun hnames => hji ?_, j, m₁, hold, h₁, rfl⟩
        have hsucc : m.succeeded = true :=
          (h.consistent i m hi).2.mpr (hnames ▸ (h.consistent j m₁ hold).2.mp h₁)
        exact h.unique j i m₁ m hold hi h₁ hsucc hnames
  consistent := by
    intro j m₁ hj
    rcases update_eq_some.mp hj with ⟨-, hnew⟩ | ⟨-, hold⟩
    · cases hnew
    · exact h.consistent j m₁ hold
  unique := by
    intro j k m₁ m₂ hj hk h₁ h₂ hnames
    rcases update_eq_some.mp hj with ⟨-, hnew⟩ | ⟨-, hold⟩
    · cases hnew
    · rcases update_eq_some.mp hk with ⟨-, hnew⟩ | ⟨-, hold'⟩
      · cases hnew
      · exact h.unique j k m₁ m₂ hold hold' h₁ h₂ hnames

/-- A registration under the condition either takes a free name or changes nothing. -/
theorem stepRegister_cases {i : ℕ} {info : RegistrationInformation} (h : r.WellNamed)
    (hguard : r.registersOnce db (.register i info) = true) (ht : stepRegister db r i info = some t) :
    ∃ m m' : Member, r.live i = some m ∧ m.succeeded = false ∧
      ((t = r ∧ (info.pluginInfo.name = [] ∨ info.pluginInfo.name ∈ r.clientNames)) ∨
        (m'.succeeded = true ∧ m'.Consistent ∧ m'.name = info.pluginInfo.name ∧
          info.pluginInfo.name ∉ r.clientNames ∧
          t = { r with
            db := t.db
            clientNames := insert m'.name r.clientNames
            live := Function.update r.live i (some m') })) := by
  unfold stepRegister at ht
  cases hi : r.live i with
  | none => simp [hi] at ht
  | some m =>
    simp only [registersOnce, hi, Bool.and_eq_true, Bool.not_eq_true', Bool.or_eq_true,
      decide_eq_true_eq] at hguard
    obtain ⟨hunregistered, hstores⟩ := hguard
    have hfailed : m.succeeded = false := (h.consistent i m hi).1 ▸ hunregistered
    simp only [hi] at ht
    rcases registerPlugin_run db info (r.view m.plugin) with
      ⟨e, hthrow, hrefused⟩ | ⟨hrun, hne, hfree⟩
    · simp only [hthrow, Option.some.injEq] at ht
      have hsame : Function.update r.live i (some m) = r.live := hi ▸ Function.update_eq_self i _
      refine ⟨m, m, rfl, hfailed, .inl ⟨?_, hrefused⟩⟩
      rw [← ht, settle, ← hfailed]
      simp only [view, hsame]
    · have hst := hstores.resolve_left (not_or.mpr ⟨hne, hfree⟩)
      obtain ⟨s, hs, hnames, hreg, hname⟩ := registerReserved_run db hst
      simp only [hrun, hs, Option.some.injEq] at ht
      refine ⟨m, ⟨s.plugin, true⟩, rfl, hfailed, .inr ⟨rfl, ⟨hreg, ?_⟩, hname, hfree, ?_⟩⟩
      · simp [Member.name, hname, hne]
      · rw [← ht, settle, hnames]
        simp [CoreState.reserve, view, Member.name, hname]

theorem stepDisconnect_eq {i : ℕ} (ht : stepDisconnect db r i = some t) :
    ∃ m, r.live i = some m ∧ t = { r with
      db := t.db
      clientNames := r.clientNames.erase m.name
      live := Function.update r.live i none } := by
  unfold stepDisconnect at ht
  cases hi : r.live i with
  | none => simp [hi] at ht
  | some m =>
    obtain ⟨d, hd⟩ := destroyPlugin_run db (r.view m.plugin)
    simp only [hi, hd, Option.some.injEq] at ht
    refine ⟨m, rfl, ?_⟩
    rw [← ht, settle]
    rfl

theorem step_wellNamed {a : RegistryAct D} (h : r.WellNamed) (hguard : r.registersOnce db a = true)
    (ht : step db r a = some t) : t.WellNamed := by
  cases a with
  | connect i id =>
    simp only [step] at ht
    cases hi : r.live i with
    | some m => simp [hi] at ht
    | none =>
      simp only [hi, Option.some.injEq] at ht
      subst ht
      exact h.join hi (by simp [Member.Consistent, Member.name, Plugin.new]) rfl
  | register i info =>
    obtain ⟨m, m', hi, hfailed, ⟨rfl, -⟩ | ⟨hsucc, hm', hname, hfree, heq⟩⟩ :=
      stepRegister_cases db h hguard ht
    · exact h
    · have hreg := h.register hi hfailed hm' hsucc (hname ▸ hfree)
      rw [heq]
      exact ⟨hreg.exact, hreg.consistent, hreg.unique⟩
  | disconnect i =>
    obtain ⟨m, hi, heq⟩ := stepDisconnect_eq db ht
    have hleave := h.leave hi
    rw [heq]
    exact ⟨hleave.exact, hleave.consistent, hleave.unique⟩
  | environment d clock =>
    obtain rfl : { r with db := d, clock := clock } = t := by simpa [step] using ht
    exact ⟨h.exact, h.consistent, h.unique⟩

theorem run_wellNamed {d : D} {clock : BitVec 64} {as : List (RegistryAct D)}
    (hok : (machine db).Obeys (fun r a => r.registersOnce db a = true) (start d clock) as)
    (hrun : (machine db).run (start d clock) as = some r) : r.WellNamed := by
  have hstep : ∀ s a t, WellNamed s → s.registersOnce db a = true →
      (machine db).step s a = some t → WellNamed t :=
    fun _ _ _ hs hguard ht => step_wellNamed db hs hguard ht
  exact Machine.obeys_invariant hstep (start_wellNamed d clock) hok hrun

end Steps

section Runs
variable {r : NameRegistry D}

/-- In a run where every plugin registers once and the database accepts what it is given, the
set is exact, a refused registration leaves it alone, and the name of a plugin that went can be
registered again. -/
theorem clientNames_exact {d : D} {clock : BitVec 64} {as : List (RegistryAct D)}
    (hok : (machine db).Obeys (fun r a => r.registersOnce db a = true) (start d clock) as)
    (hrun : (machine db).run (start d clock) as = some r) :
    r.Exact ∧
      (∀ i info t m, r.registersOnce db (.register i info) = true →
        step db r (.register i info) = some t → t.live i = some m → m.succeeded = false →
        t.clientNames = r.clientNames) ∧
      ∀ i m t j m' info u, r.live i = some m → m.succeeded = true →
        step db r (.disconnect i) = some t → t.live j = some m' →
        m'.plugin.mRegistered = false → info.pluginInfo.name = m.name →
        storesRegistration db info ((t.view m'.plugin).reserve m.name) = true →
        step db t (.register j info) = some u →
        ∃ m'', u.live j = some m'' ∧ m''.succeeded = true := by
  have h := run_wellNamed db hok hrun
  refine ⟨h.exact, ?_, ?_⟩
  · intro i info t m hguard ht hm hfailed
    obtain ⟨m₀, m', hi, -, ⟨rfl, -⟩ | ⟨hsucc, -, -, -, heq⟩⟩ := stepRegister_cases db h hguard ht
    · rfl
    · rw [heq] at hm
      simp only [Function.update_self, Option.some.injEq] at hm
      simp [← hm, hsucc] at hfailed
  · intro i m t j m' info u hi hsucc ht hj hunreg hname hstores hu
    obtain ⟨m₀, hi₀, heq⟩ := stepDisconnect_eq db ht
    obtain rfl : m = m₀ := by simpa [hi] using hi₀
    have hfree : info.pluginInfo.name ∉ t.clientNames := by
      rw [heq, hname]
      simp
    have hne : info.pluginInfo.name ≠ [] := hname ▸ (h.consistent i m hi).2.mp hsucc
    have hguard : t.registersOnce db (.register j info) = true := by
      simp [registersOnce, hj, hunreg, hname, hstores]
    have htw : t.WellNamed := step_wellNamed db (a := .disconnect i) h rfl ht
    obtain ⟨m₁, m₂, -, -, ⟨-, hrefused⟩ | ⟨hsucc₂, -, -, -, heq₂⟩⟩ :=
      stepRegister_cases db htw hguard hu
    · exact absurd hrefused (by simp [hne, hfree])
    · refine ⟨m₂, ?_, hsucc₂⟩
      rw [heq₂]
      simp

def sampleInfo : RegistrationInformation := ⟨⟨0, cstr "Map", [], []⟩, [], []⟩

/-- A plugin registers and goes, and another one takes its name. -/
theorem clientNames_exact_sample :
    ∃ r : NameRegistry Unit, (machine quietDatabase).run (start () 0)
        [.connect 0 0, .register 0 sampleInfo, .disconnect 0, .connect 1 0,
          .register 1 sampleInfo] = some r ∧ r.Exact := by
  obtain ⟨r, hr⟩ : ∃ r, (machine quietDatabase).run (start () 0)
      [.connect 0 0, .register 0 sampleInfo, .disconnect 0, .connect 1 0,
        .register 1 sampleInfo] = some r := Option.isSome_iff_exists.mp (by decide +kernel)
  exact ⟨r, hr, (clientNames_exact quietDatabase (by decide +kernel) hr).1⟩

def brokenDatabase : Database Unit :=
  { quietDatabase with insertOrUpdatePlugin := fun _ _ => (.error (cstr "Lost connection"), ()) }

/-- The name of a plugin that the database refused outlives the plugin. -/
theorem failedRegistration_leaks :
    ∃ r : NameRegistry Unit, (machine brokenDatabase).run (start () 0)
        [.connect 0 0, .register 0 sampleInfo, .disconnect 0] = some r ∧ ¬ r.Exact := by
  obtain ⟨r, hr⟩ : ∃ r, (machine brokenDatabase).run (start () 0)
      [.connect 0 0, .register 0 sampleInfo, .disconnect 0] = some r :=
    Option.isSome_iff_exists.mp (by decide +kernel)
  have hmem : ((machine brokenDatabase).run (start () 0)
      [.connect 0 0, .register 0 sampleInfo, .disconnect 0]).all
        (fun r => cstr "Map" ∈ r.clientNames) = true := by decide +kernel
  have hlive : ∀ i, ((machine brokenDatabase).run (start () 0)
      [.connect 0 0, .register 0 sampleInfo, .disconnect 0]).bind (fun r => r.live i) = none := by
    intro i
    cases i <;> rfl
  simp only [hr, Option.all_some, decide_eq_true_eq, Option.bind_some] at hmem hlive
  refine ⟨r, hr, fun h => ?_⟩
  obtain ⟨i, m, hi, -⟩ := (h (cstr "Map")).mp hmem
  simp [hlive i] at hi

end Runs
end NameRegistry
end V2IHub.Core
