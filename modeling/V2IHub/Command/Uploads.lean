import V2IHub.Command.Callbacks

/-! Whose buffer an upload request holds, and what closing another session does to it. -/
namespace V2IHub.Command
open V2IHub.Foundation V2IHub.Messages V2IHub.Utils Relation

/-- The session that asked for an upload, and whether it is still open. -/
abbrev Owner := Option (ℕ × Bool)

def Event.changeOwner (name : Bytes) (o : Owner) : Event → Owner
  | .performed sid (.uploadRequest f) => if f = name then some (sid, true) else o
  | .httpEntry f => if f = name then none else o
  | .closed sid => if o = some (sid, true) then some (sid, false) else o
  | _ => o

/-- The owner of the entry with this name, from what has happened. -/
def owner (name : Bytes) (events : List Event) : Owner :=
  events.foldl (Event.changeOwner name) none

/-- The buffer that an entry of this owner should hold. -/
def OwnedBy : Owner → Option ℕ → Prop
  | some (sid, true), outputbuffer => outputbuffer = some sid
  | some (_, false), outputbuffer => outputbuffer = none
  | none, _ => True

/-- Every entry and its owner satisfy `C`. -/
def Plugin.Entries (C : Owner → Option ℕ → Prop) (p : Plugin) : Prop :=
  ∀ name d, p.uploadRequests name = some d → C (owner name p.events) d.outputbuffer

/-- Every entry that a session asked for has the buffer of that session while it is open, and
none afterwards. -/
def Plugin.Owned (p : Plugin) : Prop := p.Entries OwnedBy

/-- A session is closed only while the entries hold no buffer of another one. -/
def AloneAtClose (p : Plugin) : Act → Prop
  | .closed sid => ∀ name d, p.uploadRequests name = some d →
      d.outputbuffer = none ∨ d.outputbuffer = some sid
  | _ => True

theorem owner_append (name : Bytes) (events : List Event) (e : Event) :
    owner name (events ++ [e]) = e.changeOwner name (owner name events) := by
  simp [owner]

/-- The entries that are left have the buffers and the owners that they had. -/
structure Keeps (p q : Plugin) : Prop where
  entries : ∀ name d, q.uploadRequests name = some d →
    ∃ d', p.uploadRequests name = some d' ∧ d'.outputbuffer = d.outputbuffer
  owners : ∀ name, owner name q.events = owner name p.events

theorem Keeps.of_eq {p q : Plugin} (hrequests : q.uploadRequests = p.uploadRequests)
    (hevents : q.events = p.events) : Keeps p q where
  entries := fun _ d hd => ⟨d, by rw [← hrequests, hd], rfl⟩
  owners := fun name => by rw [hevents]

theorem Keeps.record {p : Plugin} {e : Event} (he : ∀ name o, e.changeOwner name o = o) :
    Keeps p (p.record e) where
  entries := fun _ d hd => ⟨d, hd, rfl⟩
  owners := fun name => by rw [Plugin.record_events, owner_append, he]

theorem eraseOwn_keeps (p : Plugin) (sid : ℕ) : Keeps p (p.eraseOwn sid) where
  entries := fun _ d hd => ⟨d, (Option.filter_eq_some_iff.mp hd).1, rfl⟩
  owners := fun _ => rfl

theorem modifyRequest_keeps (p : Plugin) (name : Bytes) {f : UploadData → UploadData}
    (hf : ∀ d, (f d).outputbuffer = d.outputbuffer) : Keeps p (p.modifyRequest name f) where
  entries := by
    intro other d hd
    by_cases h : other = name
    · subst h
      obtain ⟨d', hd', rfl⟩ := Option.map_eq_some_iff.mp
        (show (p.uploadRequests other).map f = some d by simpa [Plugin.modifyRequest] using hd)
      exact ⟨d', hd', (hf d').symm⟩
    · exact ⟨d, by simpa [Plugin.modifyRequest, h] using hd, rfl⟩
  owners := fun _ => rfl

theorem eraseRequest_keeps (p : Plugin) (name : Bytes) : Keeps p (p.eraseRequest name) where
  entries := by
    intro other d hd
    by_cases h : other = name
    · simp [Plugin.eraseRequest, h] at hd
    · exact ⟨d, by simpa [Plugin.eraseRequest, h] using hd, rfl⟩
  owners := fun _ => rfl

theorem Keeps.preserved {C : Owner → Option ℕ → Prop} {p q : Plugin} (h : Keeps p q)
    (hp : p.Entries C) : q.Entries C := by
  intro name d hd
  obtain ⟨d', hd', hbuffer⟩ := h.entries name d hd
  rw [h.owners, ← hbuffer]
  exact hp name d' hd'

section Entries
variable {C : Owner → Option ℕ → Prop}

/-- A new entry, with the event that tells of it. -/
theorem putRequest_entries {p : Plugin} {name : Bytes} {data : UploadData} {e : Event}
    (hp : p.Entries C) (hnew : C (e.changeOwner name (owner name p.events)) data.outputbuffer)
    (hother : ∀ other o, other ≠ name → e.changeOwner other o = o) :
    ((p.putRequest name data).record e).Entries C := by
  intro other d hd
  rw [Plugin.record_events, Plugin.putRequest_events, owner_append]
  by_cases h : other = name
  · subst h
    obtain rfl : data = d := by simpa [Plugin.putRequest] using hd
    exact hnew
  · rw [hother other _ h]
    exact hp other d (by simpa [Plugin.putRequest, h] using hd)

theorem changeOwner_upload_ne {sid : ℕ} {name other : Bytes} (o : Owner) (h : other ≠ name) :
    (Event.performed sid (.uploadRequest name)).changeOwner other o = o :=
  if_neg (Ne.symm h)

theorem changeOwner_perform {sid : ℕ} {action : Action}
    (h : ∀ name, action ≠ .uploadRequest name) (name : Bytes) (o : Owner) :
    (Event.performed sid action).changeOwner name o = o := by
  cases action with
  | uploadRequest f => exact absurd rfl (h f)
  | _ => rfl

variable (hasked : ∀ sid, C (some (sid, true)) (some sid)) (hfresh : C none none)
include hasked

theorem Effect.entries {r : Request} {p q : Plugin} (h : Effect r p q) (hp : p.Entries C) :
    q.Entries C := by
  cases h with
  | respond data => exact (Keeps.of_eq rfl rfl).preserved hp
  | perform action hs hauth hlevel hupload =>
    exact (Keeps.record (changeOwner_perform hupload)).preserved hp
  | erase => exact (eraseOwn_keeps p r.sid).preserved hp
  | upload name data hs hauth hlevel hdata =>
    apply putRequest_entries hp
    · rw [hdata, Event.changeOwner, if_pos rfl]
      exact hasked r.sid
    · exact fun other o hne => changeOwner_upload_ne o hne
  | authorize hs hauth => exact (Keeps.of_eq rfl rfl).preserved hp
  | setLevel hs hauth hevents hrow huser hpassword hlevel =>
    exact (Keeps.of_eq rfl rfl).preserved hp

theorem Executes.entries {r : Request} {p q : Plugin} (h : Executes r p q) (hp : p.Entries C) :
    q.Entries C := by
  have hcommand : (p.record (.command r.sid r.command r.args r.env.userTable)).Entries C :=
    (Keeps.record fun _ _ => rfl).preserved hp
  cases h with
  | effects hs hlogout hsteps =>
    induction hsteps with
    | refl => exact hcommand
    | tail _ heffect ih => exact heffect.entries hasked ih
  | logout data hs hauth hlogout => exact hcommand

theorem ReceiveEffect.entries {sid : ℕ} {p q : Plugin} (h : ReceiveEffect sid p q)
    (hp : p.Entries C) : q.Entries C := by
  have hhandled : ∀ text, (p.record (.handled sid text)).Entries C :=
    fun text => (Keeps.record fun _ _ => rfl).preserved hp
  cases h with
  | buffer hf => exact (Keeps.of_eq rfl rfl).preserved hp
  | handled text => exact hhandled text
  | executed text hr hexecutes => exact hexecutes.entries hasked (hhandled text)

include hfresh

omit hasked in
theorem HttpEffect.entries {p q : Plugin} (h : HttpEffect p q) (hp : p.Entries C) :
    q.Entries C := by
  cases h with
  | http h http => exact (Keeps.of_eq rfl rfl).preserved hp
  | @fresh name hnone =>
    apply putRequest_entries hp
    · rw [Event.changeOwner, if_pos rfl]
      exact hfresh
    · exact fun other o hne => if_neg (Ne.symm hne)
  | request name hf => exact (modifyRequest_keeps p name hf).preserved hp
  | erase name => exact (eraseRequest_keeps p name).preserved hp
  | respond sid data => exact (Keeps.of_eq rfl rfl).preserved hp

/-- Only the close of a session has to be looked at. -/
theorem step_entries {p q : Plugin} {act : Act} (hstep : plugin.step p act = some q)
    (hclose : ∀ sid, act = .closed sid → (p.close sid).Entries C) (hp : p.Entries C) :
    q.Entries C := by
  cases plugin_cases hstep with
  | established hnone => exact (Keeps.record fun _ _ => rfl).preserved hp
  | closed hsome => exact hclose _ rfl
  | receive data env hs heffects heq =>
    clear heq hstep hclose
    induction heffects with
    | refl => exact hp
    | tail _ heffect ih => exact heffect.entries hasked ih
  | http _ _ _ heffects =>
    clear hstep hclose
    induction heffects with
    | refl => exact hp
    | tail _ heffect ih => exact heffect.entries hfresh ih

end Entries

section Close

/-- An entry that is left after the close was there before, and has lost its buffer. -/
theorem close_request {p : Plugin} {sid : ℕ} {name : Bytes} {d : UploadData}
    (hd : (p.close sid).uploadRequests name = some d) :
    d.outputbuffer = none ∧ ∃ d', p.uploadRequests name = some d' := by
  obtain ⟨d', hd', hclose⟩ := Option.bind_eq_some_iff.mp
    (show (p.uploadRequests name).bind (closeRequest sid) = some d from hd)
  unfold closeRequest at hclose
  split at hclose
  · cases hclose
  · obtain rfl := Option.some.inj hclose
    exact ⟨rfl, d', hd'⟩

theorem close_owner (p : Plugin) (sid : ℕ) (name : Bytes) :
    owner name (p.close sid).events =
      if owner name p.events = some (sid, true) then some (sid, false)
      else owner name p.events :=
  owner_append name p.events (.closed sid)

/-- A buffer in an entry is the one of its owner. -/
def Held (o : Owner) (outputbuffer : Option ℕ) : Prop :=
  ∀ sid, outputbuffer = some sid → o = some (sid, true)

theorem close_held (p : Plugin) (sid : ℕ) : (p.close sid).Entries Held := by
  intro name d hd other hother
  rw [(close_request hd).1] at hother
  cases hother

theorem close_owned {p : Plugin} {sid : ℕ} (hp : p.Owned) (halone : AloneAtClose p (.closed sid)) :
    (p.close sid).Owned := by
  intro name d hd
  obtain ⟨hnone, d', hd'⟩ := close_request hd
  have howned := hp name d' hd'
  rw [close_owner, hnone]
  split_ifs with howner
  · rfl
  · rcases hcase : owner name p.events with _ | ⟨other, open' | open'⟩
    · trivial
    · rfl
    · -- the entry of another open session held its buffer
      rw [hcase] at howned
      have hbuffer : d'.outputbuffer = some other := howned
      rcases halone name d' hd' with h | h
      · cases hbuffer.symm.trans h
      · obtain rfl : other = sid := Option.some.inj (hbuffer.symm.trans h)
        exact absurd hcase howner

/-- The close of one session takes the buffer from the entries of all others. -/
theorem not_owned_close {p : Plugin} {sid : ℕ} (hp : p.Entries Held)
    (halone : ¬ AloneAtClose p (.closed sid)) : ¬ (p.close sid).Owned := by
  unfold AloneAtClose at halone
  push Not at halone
  obtain ⟨name, d, hd, hsome, hother⟩ := halone
  obtain ⟨other, hbuffer⟩ := Option.ne_none_iff_exists'.mp hsome
  have howner : owner name p.events = some (other, true) := hp name d hd other hbuffer
  have hclosed : (p.close sid).uploadRequests name = some { d with outputbuffer := none } := by
    show (p.uploadRequests name).bind (closeRequest sid) = _
    rw [hd, Option.bind_some, closeRequest, if_neg fun h => hother h.1]
  intro howned
  have hafter := howned name _ hclosed
  have hne : other ≠ sid := fun h => hother (h ▸ hbuffer)
  rw [close_owner, howner, if_neg (by simp [hne])] at hafter
  cases hafter

end Close

theorem step_held {p q : Plugin} {act : Act} (hp : p.Entries Held)
    (hstep : plugin.step p act = some q) : q.Entries Held := by
  apply step_entries (C := Held) _ _ hstep (fun sid _ => close_held p sid) hp
  · rintro sid other ⟨⟩
    rfl
  · rintro other ⟨⟩

theorem step_owned {p q : Plugin} {act : Act} (hp : p.Owned) (halone : AloneAtClose p act)
    (hstep : plugin.step p act = some q) : q.Owned := by
  apply step_entries (C := OwnedBy) (fun _ => rfl) trivial hstep _ hp
  rintro sid rfl
  exact close_owned hp halone

theorem initial_entries (C : Owner → Option ℕ → Prop) : Plugin.initial.Entries C :=
  fun _ _ hd => by cases hd

/-- Every upload request has the right buffer at every moment of a run exactly when no session
is closed while an entry holds the buffer of another. -/
theorem run_owned_iff {acts : List Act} {p : Plugin} (hrun : plugin.run .initial acts = some p) :
    (∀ before after q, acts = before ++ after → plugin.run .initial before = some q → q.Owned) ↔
      plugin.Obeys AloneAtClose .initial acts := by
  constructor
  · intro howned
    apply Machine.obeys_of_prefixes
    intro before act after q hacts hq
    cases act with
    | closed sid =>
      by_contra halone
      have hheld : q.Entries Held :=
        Machine.run_invariant (fun _ _ _ => step_held) (initial_entries _) hq
      obtain ⟨q', hq', hrest⟩ := Machine.run_append_eq_some.mp (hacts ▸ hrun)
      obtain rfl : q = q' := Option.some.inj (hq.symm.trans hq')
      obtain ⟨t, hstep, -⟩ := Machine.run_cons_eq_some.mp hrest
      have hclose : t = q.close sid := by
        cases plugin_cases hstep with
        | closed hsome => rfl
        | http _ hclosed _ _ => exact absurd rfl (hclosed sid)
      subst hclose
      apply not_owned_close hheld halone
      apply howned (before ++ [.closed sid]) after
      · rw [hacts, List.append_assoc, List.singleton_append]
      · exact Machine.run_append hq (Machine.run_cons_eq_some.mpr ⟨_, hstep, rfl⟩)
    | _ => trivial
  · intro hobeys before after q hacts hq
    subst hacts
    exact Machine.obeys_invariant (fun _ _ _ => step_owned) (initial_entries _)
      (Machine.obeys_of_append hobeys) hq

def uploadMessage : Sent :=
  (cstr "uploadfile", [(cstr "uploadfilename", cstr "a"), (cstr "destinationfilename", cstr "b"),
    (cstr "destinationpath", []), (cstr "filesize", cstr "9")])

/-- A session comes and goes and comes back, and an administrator asks for an upload. -/
def requestedRun : List Act :=
  [.established 1, .established 2, .closed 2, .established 2,
    .sends 1 [loginMessage, uploadMessage]]

theorem requestedRun_owner : ∃ p d, plugin.run .initial requestedRun = some p ∧
    (p.sessions 2).isSome = true ∧ p.uploadRequests (cstr "a") = some d ∧
    d.outputbuffer = some 1 ∧ owner (cstr "a") p.events = some (1, true) := by
  have hend : ((plugin.run .initial requestedRun).map fun p =>
      ((p.sessions 2).isSome, (p.uploadRequests (cstr "a")).map UploadData.outputbuffer,
        owner (cstr "a") p.events)) =
      some (true, some (some 1), some (1, true)) := by
    have hacts : plugin.run .initial (requestedRun.take 4) =
        some ((((Plugin.initial.establish 1).establish 2).close 2).establish 2) := rfl
    rw [show requestedRun = requestedRun.take 4 ++ [.sends 1 [loginMessage, uploadMessage]] from rfl,
      run_sends hacts]
    decide +kernel
  obtain ⟨p, hrun, hp⟩ := Option.map_eq_some_iff.mp hend
  obtain ⟨hsession, hp⟩ := Prod.mk.inj hp
  obtain ⟨hentry, howner⟩ := Prod.mk.inj hp
  obtain ⟨d, hd, hbuffer⟩ := Option.map_eq_some_iff.mp hentry
  exact ⟨p, d, hrun, hsession, hd, hbuffer, howner⟩

theorem run_owned_iff_sample : ∃ p d, plugin.run .initial requestedRun = some p ∧
    p.uploadRequests (cstr "a") = some d ∧ d.outputbuffer = some 1 ∧
    ∀ before after q, requestedRun = before ++ after → plugin.run .initial before = some q →
      q.Owned := by
  obtain ⟨p, d, hrun, -, hd, hbuffer, -⟩ := requestedRun_owner
  refine ⟨p, d, hrun, hd, hbuffer, (run_owned_iff hrun).mpr ⟨trivial, trivial, ?_, ?_⟩⟩
  · intro name d hd
    cases hd
  · refine ⟨trivial, trivial, ?_⟩
    split <;> trivial

/-- The other session is closed while the request waits for its file. -/
theorem run_owned_iff_fails : ∃ p d, plugin.run .initial (requestedRun ++ [.closed 2]) = some p ∧
    p.uploadRequests (cstr "a") = some d ∧ owner (cstr "a") p.events = some (1, true) ∧
    d.outputbuffer = none ∧ ¬ p.Owned := by
  obtain ⟨p, d, hrun, hsession, hd, hbuffer, howner⟩ := requestedRun_owner
  obtain ⟨s, hs⟩ := Option.isSome_iff_exists.mp hsession
  have hclosed : (p.close 2).uploadRequests (cstr "a") = some { d with outputbuffer := none } := by
    show (p.uploadRequests (cstr "a")).bind (closeRequest 2) = _
    rw [hd, Option.bind_some, closeRequest, hbuffer, if_neg (by simp)]
  have howner' : owner (cstr "a") (p.close 2).events = some (1, true) := by
    rw [close_owner, howner, if_neg (by simp)]
  have hstep : plugin.step p (.closed 2) = some (p.close 2) := by
    show step p (.closed 2) = _
    simp only [step, hs]
  refine ⟨p.close 2, _, ?_, hclosed, howner', rfl, ?_⟩
  · exact Machine.run_append hrun (Machine.run_cons_eq_some.mpr ⟨_, hstep, rfl⟩)
  · intro howned
    have hkept := howned (cstr "a") _ hclosed
    rw [howner'] at hkept
    cases hkept

end V2IHub.Command
