import V2IHub.Command.Callbacks

/-! Who may do what: an action is performed for a session only after a login that allows it. -/
namespace V2IHub.Command
open V2IHub.Foundation V2IHub.Messages V2IHub.Utils Relation

/-- The session begins, ends or asks to be logged out. -/
def Event.resets (sid : ℕ) : Event → Bool
  | .established s => s = sid
  | .closed s => s = sid
  | .command s text _ _ => s = sid ∧ text = cstr "logout"
  | _ => false

/-- A login since the last reset of the session whose name and password are those of a row of
the user table with at least this level. -/
def LoggedIn (sid : ℕ) (level : ℤ) (events : List Event) : Prop :=
  ∃ before after args userTable row rowLevel,
    events = before ++ Event.command sid (cstr "login") args userTable :: after ∧
    (∀ e ∈ after, e.resets sid = false) ∧ row ∈ userTable ∧
    args.find (cstr "user") = some row.username ∧
    args.find (cstr "password") = some row.password ∧
    stoi row.accessLevel = some rowLevel ∧ level ≤ rowLevel

/-- Every action that was performed came after a login of its level. -/
def Justified (events : List Event) : Prop :=
  ∀ before sid action after, events = before ++ Event.performed sid action :: after →
    LoggedIn sid action.level before

theorem LoggedIn.mono {sid : ℕ} {level level' : ℤ} {events : List Event}
    (h : LoggedIn sid level events) (hle : level' ≤ level) : LoggedIn sid level' events := by
  obtain ⟨before, after, args, userTable, row, rowLevel, hevents, hafter, hrow, huser, hpassword,
    hlevel, hle'⟩ := h
  exact ⟨before, after, args, userTable, row, rowLevel, hevents, hafter, hrow, huser, hpassword,
    hlevel, hle.trans hle'⟩

theorem LoggedIn.append {sid : ℕ} {level : ℤ} {events : List Event} {e : Event}
    (h : LoggedIn sid level events) (he : e.resets sid = false) :
    LoggedIn sid level (events ++ [e]) := by
  obtain ⟨before, after, args, userTable, row, rowLevel, rfl, hafter, hrest⟩ := h
  refine ⟨before, after ++ [e], args, userTable, row, rowLevel, by simp, ?_, hrest⟩
  intro e' he'
  rcases List.mem_append.mp he' with hmem | hmem
  · exact hafter e' hmem
  · rw [List.mem_singleton.mp hmem]
    exact he

theorem Justified.append {events : List Event} {e : Event} (h : Justified events)
    (he : ∀ sid action, e = .performed sid action → LoggedIn sid action.level events) :
    Justified (events ++ [e]) := by
  intro before sid action after hevents
  rcases List.eq_nil_or_concat after with rfl | ⟨after, last, rfl⟩
  · obtain ⟨rfl, hlast⟩ := List.append_inj' hevents rfl
    exact he sid action (List.cons.inj hlast).1
  · have hsplit : events ++ [e] = (before ++ .performed sid action :: after) ++ [last] := by
      simpa using hevents
    exact h before sid action after (List.append_inj' hsplit rfl).1

/-- A session is not authorized and has no level, or its level comes from a login. -/
def Session.Trusted (sid : ℕ) (events : List Event) (s : Session) : Prop :=
  s.authorizationLevel = ReadOnly ∨
    s.authorized = true ∧ LoggedIn sid s.authorizationLevel events

structure Trusted (p : Plugin) : Prop where
  past : Justified p.events
  present : ∀ sid s, p.sessions sid = some s → s.Trusted sid p.events
  asked : ∀ sid s, p.sessions sid = some s → s.authorized = false →
    s.authorizationLevel = ReadOnly

theorem Session.Trusted.append {sid : ℕ} {events : List Event} {s : Session} {e : Event}
    (h : s.Trusted sid events) (he : s.authorized = true → e.resets sid = false) :
    s.Trusted sid (events ++ [e]) := by
  rcases h with hlevel | ⟨hauth, hlogin⟩
  · exact Or.inl hlevel
  · exact Or.inr ⟨hauth, hlogin.append (he hauth)⟩

/-- An event that is no action, and no reset of an authorized session. -/
theorem Trusted.record {p : Plugin} {e : Event} (h : Trusted p)
    (hperformed : ∀ sid action, e = .performed sid action → LoggedIn sid action.level p.events)
    (hresets : ∀ sid s, p.sessions sid = some s → s.authorized = true → e.resets sid = false) :
    Trusted (p.record e) where
  past := h.past.append hperformed
  present := fun sid s hs => (h.present sid s hs).append (hresets sid s hs)
  asked := h.asked

theorem Trusted.updateSession {p : Plugin} {sid : ℕ} {f : Session → Session} (h : Trusted p)
    (hpresent : ∀ s, p.sessions sid = some s → (f s).Trusted sid p.events)
    (hasked : ∀ s, p.sessions sid = some s → (f s).authorized = false →
      (f s).authorizationLevel = ReadOnly) : Trusted (p.updateSession sid f) where
  past := h.past
  present := by
    intro sid' s hs
    by_cases hsid : sid' = sid
    · subst hsid
      rw [Plugin.updateSession_self, Option.map_eq_some_iff] at hs
      obtain ⟨s', hs', rfl⟩ := hs
      exact hpresent s' hs'
    · rw [p.updateSession_ne f hsid] at hs
      exact h.present sid' s hs
  asked := by
    intro sid' s hs
    by_cases hsid : sid' = sid
    · subst hsid
      rw [Plugin.updateSession_self, Option.map_eq_some_iff] at hs
      obtain ⟨s', hs', rfl⟩ := hs
      exact hasked s' hs'
    · rw [p.updateSession_ne f hsid] at hs
      exact h.asked sid' s hs

/-- A change of the buffers only. -/
theorem Trusted.updateBuffers {p : Plugin} {sid : ℕ} {f : Session → Session} (h : Trusted p)
    (hf : ∀ s, (f s).authorized = s.authorized ∧
      (f s).authorizationLevel = s.authorizationLevel) : Trusted (p.updateSession sid f) := by
  apply h.updateSession
  · intro s hs
    have htrusted := h.present sid s hs
    unfold Session.Trusted at htrusted ⊢
    rwa [(hf s).1, (hf s).2]
  · intro s hs
    rw [(hf s).1, (hf s).2]
    exact h.asked sid s hs

theorem Trusted.requests {p : Plugin} (h : Trusted p)
    (uploadRequests : Bytes → Option UploadData) :
    Trusted { p with uploadRequests := uploadRequests } :=
  ⟨h.past, h.present, h.asked⟩

theorem Action.level_gt (action : Action) : ReadOnly < action.level := by
  cases action <;> simp [Action.level, ReadOnly, ApplicationAdministrator, SystemAdministrator]

/-- An authorized session of this level has logged in for it. -/
theorem Trusted.loggedIn {p : Plugin} {sid : ℕ} {s : Session} {level : ℤ} (h : Trusted p)
    (hs : p.sessions sid = some s) (hlevel : level ≤ s.authorizationLevel)
    (hgt : ReadOnly < level) : LoggedIn sid level p.events := by
  rcases h.present sid s hs with hreadOnly | ⟨-, hlogin⟩
  · omega
  · exact hlogin.mono hlevel

theorem Effect.trusted {r : Request} {p q : Plugin} (h : Effect r p q) (hp : Trusted p) :
    Trusted q := by
  cases h with
  | respond data => exact hp.updateBuffers fun _ => ⟨rfl, rfl⟩
  | @perform s action hs hauth hlevel hupload =>
    apply hp.record
    · rintro sid action' ⟨⟩
      exact hp.loggedIn hs hlevel action.level_gt
    · exact fun sid s hs hauth => rfl
  | erase => exact hp.requests _
  | @upload s name data hs hauth hlevel hdata =>
    apply (hp.requests _).record
    · rintro sid action' ⟨⟩
      exact hp.loggedIn hs hlevel (Action.level_gt (.uploadRequest name))
    · exact fun sid s hs hauth => rfl
  | @authorize s hs hauth =>
    apply hp.updateSession
    · intro s' hs'
      obtain rfl : s = s' := Option.some.inj (hs.symm.trans hs')
      have hlevel : s.authorizationLevel = ReadOnly := hp.asked r.sid s hs hauth
      exact Or.inl hlevel
    · intro s' hs' hfalse
      cases hfalse
  | @setLevel s before row level hs hauth hevents hrow huser hpassword hlevel =>
    apply hp.updateSession
    · intro s' hs'
      obtain rfl : s = s' := Option.some.inj (hs.symm.trans hs')
      exact Or.inr ⟨hauth, before, [], r.args, r.env.userTable, row, level, hevents, by simp, hrow,
        huser, hpassword, hlevel, le_rfl⟩
    · intro s' hs' hfalse
      obtain rfl : s = s' := Option.some.inj (hs.symm.trans hs')
      exact absurd (hauth.symm.trans hfalse) (by simp)

theorem Executes.trusted {r : Request} {p q : Plugin} (h : Executes r p q) (hp : Trusted p) :
    Trusted q := by
  cases h with
  | @effects _ s hs hlogout hsteps =>
    have hrecord :
        Trusted (p.record (.command r.sid r.command r.args r.env.userTable)) := by
      apply hp.record (by simp)
      intro sid s' hs' hauth
      by_cases hsid : r.sid = sid
      · subst hsid
        obtain rfl : s = s' := Option.some.inj (hs.symm.trans hs')
        simp [Event.resets, hlogout hauth]
      · simp [Event.resets, hsid]
    induction hsteps with
    | refl => exact hrecord
    | tail _ heffect ih => exact heffect.trusted ih
  | @logout s data hs hauth hcommand =>
    apply Trusted.updateBuffers (f := Session.respond data) _ fun _ => ⟨rfl, rfl⟩
    -- the event of the logout and the end of the authorization go together
    refine ⟨hp.past.append (by simp), ?_, ?_⟩
    · intro sid s' hs'
      by_cases hsid : sid = r.sid
      · subst hsid
        rw [Plugin.updateSession_self, Option.map_eq_some_iff] at hs'
        obtain ⟨s'', -, rfl⟩ := hs'
        exact Or.inl rfl
      · rw [Plugin.updateSession_ne _ _ hsid] at hs'
        apply (hp.present sid s' hs').append
        intro _
        simp [Event.resets, Ne.symm hsid]
    · intro sid s' hs'
      by_cases hsid : sid = r.sid
      · subst hsid
        rw [Plugin.updateSession_self, Option.map_eq_some_iff] at hs'
        obtain ⟨s'', -, rfl⟩ := hs'
        exact fun _ => rfl
      · rw [Plugin.updateSession_ne _ _ hsid] at hs'
        exact hp.asked sid s' hs'

theorem ReceiveEffect.trusted {sid : ℕ} {p q : Plugin} (h : ReceiveEffect sid p q)
    (hp : Trusted p) : Trusted q := by
  have hhandled : ∀ text, Trusted (p.record (.handled sid text)) :=
    fun text => hp.record (by simp) fun _ _ _ _ => rfl
  cases h with
  | buffer hf => exact hp.updateBuffers hf
  | handled text => exact hhandled text
  | executed text hr hexecutes => exact hexecutes.trusted (hhandled text)

theorem HttpEffect.trusted {p q : Plugin} (h : HttpEffect p q) (hp : Trusted p) : Trusted q := by
  cases h with
  | http h http => exact ⟨hp.past, hp.present, hp.asked⟩
  | fresh hnone => exact (hp.requests _).record (by simp) fun _ _ _ _ => rfl
  | request name hf => exact hp.requests _
  | erase name => exact hp.requests _
  | respond sid data => exact hp.updateBuffers fun _ => ⟨rfl, rfl⟩

theorem establish_trusted {p : Plugin} {sid : ℕ} (hp : Trusted p) :
    Trusted (p.establish sid) := by
  refine ⟨hp.past.append (by simp), ?_, ?_⟩
  · intro sid' s hs
    by_cases hsid : sid' = sid
    · subst hsid
      obtain rfl : Session.established = s := by simpa [Plugin.establish] using hs
      exact Or.inl rfl
    · apply (hp.present sid' s (by simpa [Plugin.establish, hsid] using hs)).append
      exact fun _ => by simp [Event.resets, Ne.symm hsid]
  · intro sid' s hs
    by_cases hsid : sid' = sid
    · subst hsid
      obtain rfl : Session.established = s := by simpa [Plugin.establish] using hs
      exact fun _ => rfl
    · exact hp.asked sid' s (by simpa [Plugin.establish, hsid] using hs)

theorem close_trusted {p : Plugin} {sid : ℕ} (hp : Trusted p) : Trusted (p.close sid) := by
  refine ⟨hp.past.append (by simp), ?_, ?_⟩
  · intro sid' s hs
    by_cases hsid : sid' = sid
    · simp [Plugin.close, hsid] at hs
    · apply (hp.present sid' s (by simpa [Plugin.close, hsid] using hs)).append
      exact fun _ => by simp [Event.resets, Ne.symm hsid]
  · intro sid' s hs
    by_cases hsid : sid' = sid
    · simp [Plugin.close, hsid] at hs
    · exact hp.asked sid' s (by simpa [Plugin.close, hsid] using hs)

theorem step_trusted {p q : Plugin} {act : Act} (hp : Trusted p)
    (hstep : plugin.step p act = some q) : Trusted q := by
  cases plugin_cases hstep with
  | established hnone => exact establish_trusted hp
  | closed hsome => exact close_trusted hp
  | receive data env hs heffects heq =>
    clear heq hstep
    induction heffects with
    | refl => exact hp
    | tail _ heffect ih => exact heffect.trusted ih
  | http _ _ _ heffects =>
    clear hstep
    induction heffects with
    | refl => exact hp
    | tail _ heffect ih => exact heffect.trusted ih

theorem initial_trusted : Trusted .initial where
  past := fun before sid action after h => by simp [Plugin.initial] at h
  present := fun sid s hs => by cases hs
  asked := fun sid s hs => by cases hs

/-- Whatever the sessions send and in whatever order, an action is performed for a session
only after a login of its level. -/
theorem run_justified {acts : List Act} {p : Plugin} (hrun : plugin.run .initial acts = some p) :
    Justified p.events :=
  (Machine.run_invariant (fun _ _ _ hp hstep => step_trusted hp hstep) initial_trusted hrun).past

/-- An administrator logs in and enables a plugin. -/
def enablingRun : List Act := [.established 1, .sends 1 [loginMessage, enableMessage]]

theorem run_justified_sample : ∃ p before, plugin.run .initial enablingRun = some p ∧
    p.events = before ++ [.performed 1 (.enable (cstr "MAP"))] ∧ Justified p.events := by
  have hlast : ((plugin.run .initial enablingRun).map fun p => p.events.getLast?) =
      some (some (.performed 1 (.enable (cstr "MAP")))) := by
    rw [enablingRun, ← List.singleton_append, run_sends (q := Plugin.initial.establish 1) rfl]
    decide +kernel
  obtain ⟨p, hrun, hp⟩ := Option.map_eq_some_iff.mp hlast
  obtain ⟨before, hevents⟩ := List.getLast?_eq_some_iff.mp hp
  exact ⟨p, before, hrun, hevents, run_justified hrun⟩

end V2IHub.Command
