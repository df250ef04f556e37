import V2IHub.Dms.DmsPlugin

/-! What the sign displays against the flags of `DmsPlugin`, over whole runs. -/
namespace V2IHub.Dms
open Foundation Client

namespace DmsPlugin

/-- Where nothing more will be sent, the sign displays the message that is requested. -/
def Shows (s : DmsPlugin) : Prop :=
  s._enableDms = true → s._isSignMessagesInitialized = true → s._msgIdRequested = s._msgIdShown →
    ∃ message, s._signMessages.find s._msgIdRequested = some message ∧
      s.sign.display = message.DmsText

/-- The sign has the texts that are marked, and displays the message shown if it is one of them or
the blank one. -/
structure Matches (s : DmsPlugin) (sign : Sign) : Prop where
  stored : ∀ id message, s._signMessages.find id = some message → id ≠ 0 →
    message.IsDmsTextInitialized = true → sign.memory id = message.DmsText
  shown : ∀ message, s._signMessages.find s._msgIdShown = some message →
    message.IsDmsTextInitialized = true ∨ s._msgIdShown = 0 → sign.display = message.DmsText

/-- The request changes what is shown. -/
def Changes (s : DmsPlugin) (msgId : ℤ) : Prop :=
  s._isSignMessagesInitialized = true ∧ msgId ≠ s._msgIdShown ∧
    (s._signMessages.find msgId).isSome

/-- The id is not the -1 of a sign that shows nothing. A disabled sign displays the message
already, and an enabled one answers when another message was shown. -/
structure CarefulRequest (s : DmsPlugin) (msgId : ℤ) (outcome : Activation) : Prop where
  sentinel : msgId = -1 → s._msgIdShown ≠ -1
  disabled : s.Changes msgId → s._enableDms = false →
    ∀ message ∈ s._signMessages.find msgId, s.sign.display = message.DmsText
  answered : s.Changes msgId → s._enableDms = true → outcome = .unanswered →
    s._msgIdShown = -1

/-- The text that a loop over these ids gives to a message. -/
def newText (config : ConfigValues) : List ℤ → Bytes → ℤ → Option Bytes
  | [], _, _ => none
  | messageId :: rest, message, id =>
    let message := (config.find (messageKey messageId)).getD message
    if messageId = id then some message else newText config rest message id

/-- The message shown, when its text is still to be put on the sign or gets another one, is the
one requested. -/
def Refreshes (s : DmsPlugin) (texts : ℤ → Option Bytes) : Prop :=
  ∀ message, s._signMessages.find s._msgIdShown = some message → s._msgIdShown ≠ 0 →
    (message.IsDmsTextInitialized = false ∨
      ∃ text ∈ texts s._msgIdShown, message.DmsText ≠ text) →
    s._msgIdRequested = s._msgIdShown

/-- A text that is reported valid is stored. -/
def Truthful (outcomes : ℤ → Assignment) : Prop :=
  ∀ id, (outcomes id).succeeds = true → (outcomes id).stored = true

/-- The sign at a new address has what the old one has, and the texts go to an enabled sign with a
controller. -/
structure CarefulUpdate (s : DmsPlugin) (outcomes : ℤ → Assignment) : Prop where
  address : s.updateEnable.updateAddress._dmsController ≠ s._dmsController →
    s.Matches s.updateEnable.updateAddress.sign
  refreshes : s.updateEnable.updateAddress._enableDms = true →
    s.updateEnable.updateAddress._isDmsControllerInitialized = true →
    s.Refreshes (newText s.config MESSAGE_IDS [])
  truthful : Truthful outcomes

def CarefulPass (s : DmsPlugin) (outcomes : ℤ → Assignment) (outcome : Activation) : Prop :=
  if s._isSignMessagesInitialized = true then s.CarefulRequest s._msgIdRequested outcome
  else s._enableDms = true → s.Refreshes (fun _ => none) ∧ Truthful outcomes

def Careful (s : DmsPlugin) : Act → Prop
  | .registered outcomes => s.CarefulUpdate outcomes
  | .configChanged key value outcomes outcome =>
    let s := s.setConfigValue key value
    if key = FORCE_MESSAGE_ID then s.CarefulRequest s.forcedMessage outcome
    else s.CarefulUpdate outcomes
  | .messageReceived msgId outcome => s.CarefulRequest msgId outcome
  | .mainPass outcomes outcome => s.CarefulPass outcomes outcome

/-- What the runs keep. -/
structure Inv (s : DmsPlugin) : Prop where
  blank : ∃ message, s._signMessages.find 0 = some message ∧ message.DmsText = []
  sentinel : s._signMessages.find (-1) = none
  marked : s._isSignMessagesInitialized = true → ∀ id message,
    s._signMessages.find id = some message → id ≠ 0 → message.IsDmsTextInitialized = true
  onSign : s.Matches s.sign
  known : s._msgIdShown ≠ -1 → (s._signMessages.find s._msgIdShown).isSome
  requested : s._msgIdRequested = -1 → s._msgIdShown ≠ -1

section Steps
variable {s t : DmsPlugin} {id : ℤ}

theorem Inv.shows (h : Inv s) : s.Shows := by
  intro _ hinit heq
  have hshown : s._msgIdShown ≠ -1 := by
    intro hnone
    exact h.requested (heq.trans hnone) hnone
  obtain ⟨message, hfind⟩ := Option.isSome_iff_exists.mp (h.known hshown)
  refine ⟨message, heq ▸ hfind, h.onSign.shown message hfind ?_⟩
  by_cases hzero : s._msgIdShown = 0
  · exact .inr hzero
  · exact .inl (h.marked hinit _ _ hfind hzero)

@[simp] theorem setSign_sign (s : DmsPlugin) (sign : Sign) : (s.setSign sign).sign = sign := by
  simp [DmsPlugin.sign, setSign]

/-- An unmarked text of a message of the configuration. -/
theorem Inv.unset (h : Inv s) (hid : 0 < id) (text : Bytes) :
    Inv { s.setMessage id ⟨text, false⟩ with _isSignMessagesInitialized := false } := by
  have hfind : ∀ id', (s._signMessages.insert id ⟨text, false⟩).find id' =
      if id = id' then some ⟨text, false⟩ else s._signMessages.find id' :=
    fun id' => OrderedMap.find_insert _ _ _ _
  constructor
  · simp only [setMessage, hfind, if_neg hid.ne']
    exact h.blank
  · simp only [setMessage, hfind, if_neg (show id ≠ -1 by omega)]
    exact h.sentinel
  · intro hinit
    simp at hinit
  · constructor
    · intro id' message hmessage hne hmarked
      simp only [setMessage, hfind] at hmessage
      split_ifs at hmessage with heq
      · obtain rfl := Option.some.inj hmessage
        simp at hmarked
      · exact h.onSign.stored id' message hmessage hne hmarked
    · intro message hmessage hmarked
      simp only [setMessage, hfind] at hmessage
      split_ifs at hmessage with heq
      · obtain rfl := Option.some.inj hmessage
        simp only [Bool.false_eq_true, false_or] at hmarked
        exact absurd (heq.trans hmarked) hid.ne'
      · exact h.onSign.shown message hmessage hmarked
  · intro hne
    simp only [setMessage, hfind]
    split_ifs
    · rfl
    · exact h.known hne
  · exact h.requested

theorem Inv.setText (h : Inv s) (hid : 0 < id) (text : Bytes) : Inv (s.setText id text) := by
  unfold DmsPlugin.setText
  simp only
  cases s._signMessages.find id with
  | none => exact h.unset hid text
  | some message =>
    simp only
    split_ifs
    · exact h.unset hid text
    · exact h

/-- What sending a text leaves: it may only forget the message shown, and mark messages. -/
structure Frame (s t : DmsPlugin) : Prop where
  requested : t._msgIdRequested = s._msgIdRequested
  enable : t._enableDms = s._enableDms
  controller : t._isDmsControllerInitialized = s._isDmsControllerInitialized
  config : t.config = s.config
  shown : t._msgIdShown = s._msgIdShown ∨ t._msgIdShown = -1
  texts : ∀ id, (t._signMessages.find id).map SignMessage.DmsText =
    (s._signMessages.find id).map SignMessage.DmsText
  marks : ∀ id message, s._signMessages.find id = some message →
    message.IsDmsTextInitialized = true → t._signMessages.find id = some message

theorem Frame.refl (s : DmsPlugin) : Frame s s :=
  ⟨rfl, rfl, rfl, rfl, .inl rfl, fun _ => rfl, fun _ _ h _ => h⟩

theorem Frame.trans {u : DmsPlugin} (h : Frame s t) (h' : Frame t u) : Frame s u where
  requested := h'.requested.trans h.requested
  enable := h'.enable.trans h.enable
  controller := h'.controller.trans h.controller
  config := h'.config.trans h.config
  shown := by
    rcases h'.shown with hsame | hnone
    · exact hsame ▸ h.shown
    · exact .inr hnone
  texts id := (h'.texts id).trans (h.texts id)
  marks id message hfind hmarked := h'.marks id message (h.marks id message hfind hmarked) hmarked

/-- A message that is there, and what it was before. -/
theorem Frame.find (h : Frame s t) {message : SignMessage}
    (hfind : t._signMessages.find id = some message) :
    ∃ before, s._signMessages.find id = some before ∧ before.DmsText = message.DmsText ∧
      (message.IsDmsTextInitialized = false → before.IsDmsTextInitialized = false) := by
  have htext := h.texts id
  rw [hfind, Option.map_some, eq_comm, Option.map_eq_some_iff] at htext
  obtain ⟨before, hbefore, heq⟩ := htext
  refine ⟨before, hbefore, heq, fun hunmarked => ?_⟩
  by_contra hmarked
  have hsame := h.marks id before hbefore (Bool.not_eq_false _ ▸ hmarked)
  rw [hfind, Option.some.injEq] at hsame
  exact hmarked (hsame ▸ hunmarked)

theorem Frame.refreshes (h : Frame s t) (hnone : t._signMessages.find (-1) = none)
    {texts : ℤ → Option Bytes} (hs : s.Refreshes texts) : t.Refreshes texts := by
  intro message hfind hne hpending
  rcases h.shown with hsame | hgone
  · obtain ⟨before, hbefore, htext, hunmarked⟩ := h.find hfind
    rw [hsame] at hbefore hne hpending ⊢
    rw [h.requested]
    refine hs before hbefore hne ?_
    rcases hpending with hpending | ⟨text, htext', hother⟩
    · exact .inl (hunmarked hpending)
    · exact .inr ⟨text, htext', htext ▸ hother⟩
  · rw [hgone, hnone] at hfind
    simp at hfind

section Assign
variable {message : SignMessage} {outcome : Assignment}

/-- What `AssignMessageOnSign` does. -/
theorem assign_frame (s : DmsPlugin) (id : ℤ) (text : Bytes) (outcome : Assignment) :
    Frame s (s.assignMessageOnSign id text outcome).2 := by
  unfold assignMessageOnSign
  simp only
  split_ifs
  all_goals
    exact ⟨rfl, rfl, rfl, rfl, by simp [setSign], fun _ => rfl, fun _ _ hfind _ => hfind⟩

theorem assign_eq (hid : id ≠ 0) (s : DmsPlugin) (text : Bytes) (outcome : Assignment) :
    let t := (s.assignMessageOnSign id text outcome).2
    (s.assignMessageOnSign id text outcome).1 = outcome.succeeds ∧
      t._signMessages = s._signMessages ∧
      t._isSignMessagesInitialized = s._isSignMessagesInitialized ∧
      t._msgIdShown = (if s._msgIdRequested = id then -1 else s._msgIdShown) ∧
      t.sign = { s.sign with memory := assignMemory s.sign.memory id text outcome } := by
  by_cases hrequested : s._msgIdRequested = id
  · simp only [assignMessageOnSign, if_neg hid, if_pos hrequested]
    exact ⟨trivial, rfl, rfl, rfl, setSign_sign _ _⟩
  · simp only [assignMessageOnSign, if_neg hid, if_neg hrequested]
    exact ⟨trivial, rfl, rfl, rfl, setSign_sign _ _⟩

theorem Inv.assign (h : Inv s) (hid : id ≠ 0) (hfind : s._signMessages.find id = some message)
    (hunmarked : message.IsDmsTextInitialized = false) (outcome : Assignment) :
    Inv (s.assignMessageOnSign id message.DmsText outcome).2 := by
  obtain ⟨-, hmessages, hinit, hshown, hsign⟩ := assign_eq hid s message.DmsText outcome
  have hrequested := (assign_frame s id message.DmsText outcome).requested
  have hsentinel := h.sentinel
  generalize (s.assignMessageOnSign id message.DmsText outcome).2 = t at *
  constructor
  · rw [hmessages]
    exact h.blank
  · rw [hmessages]
    exact hsentinel
  · rw [hmessages, hinit]
    exact h.marked
  · constructor
    · intro id' message' hfind' hne hmarked
      rw [hmessages] at hfind'
      have hother : id' ≠ id := by
        rintro rfl
        rw [hfind, Option.some.injEq] at hfind'
        rw [hfind', hmarked] at hunmarked
        simp at hunmarked
      rw [hsign, ← h.onSign.stored id' message' hfind' hne hmarked]
      simp [assignMemory, hother]
    · intro message' hfind' hmarked
      rw [hmessages, hshown] at hfind'
      rw [hshown] at hmarked
      rw [hsign]
      split_ifs at hfind' hmarked
      · rw [hsentinel] at hfind'
        simp at hfind'
      · exact h.onSign.shown message' hfind' hmarked
  · rw [hmessages, hshown]
    split_ifs
    · simp
    · exact h.known
  · rw [hrequested, hshown]
    intro hnone
    split_ifs with hid'
    · rw [← hid', hnone, hsentinel] at hfind
      simp at hfind
    · exact h.requested hnone

/-- A text that is on the sign is marked. -/
theorem Inv.mark (h : Inv s) (hid : id ≠ 0) (hfind : s._signMessages.find id = some message)
    (hstored : s.sign.memory id = message.DmsText) (hshown : s._msgIdShown ≠ id) :
    Inv (s.setMessage id { message with IsDmsTextInitialized := true }) := by
  have hfind' : ∀ id', (s._signMessages.insert id { message with IsDmsTextInitialized := true }).find
      id' = if id = id' then some { message with IsDmsTextInitialized := true }
        else s._signMessages.find id' := fun id' => OrderedMap.find_insert _ _ _ _
  have hsentinel : id ≠ -1 := by
    rintro rfl
    rw [h.sentinel] at hfind
    simp at hfind
  constructor
  · simp only [setMessage, hfind', if_neg hid]
    exact h.blank
  · simp only [setMessage, hfind', if_neg hsentinel]
    exact h.sentinel
  · intro hinit id' message' hmessage hne
    simp only [setMessage, hfind'] at hmessage
    split_ifs at hmessage
    · obtain rfl := Option.some.inj hmessage
      rfl
    · exact h.marked hinit id' message' hmessage hne
  · constructor
    · intro id' message' hmessage hne hmarked
      simp only [setMessage, hfind'] at hmessage
      split_ifs at hmessage with heq
      · obtain rfl := Option.some.inj hmessage
        rw [← heq]
        exact hstored
      · exact h.onSign.stored id' message' hmessage hne hmarked
    · intro message' hmessage hmarked
      simp only [setMessage, hfind', if_neg (Ne.symm hshown)] at hmessage hmarked
      exact h.onSign.shown message' hmessage hmarked
  · intro hne
    simp only [setMessage, hfind', if_neg (Ne.symm hshown)]
    exact h.known hne
  · exact h.requested

theorem mark_frame (hfind : s._signMessages.find id = some message) :
    Frame s (s.setMessage id { message with IsDmsTextInitialized := true }) := by
  refine ⟨rfl, rfl, rfl, rfl, .inl rfl, fun id' => ?_, fun id' message' hmessage hmarked => ?_⟩
  · rw [setMessage, OrderedMap.find_insert]
    split_ifs with heq
    · rw [← heq, hfind]
      rfl
    · rfl
  · rw [setMessage, OrderedMap.find_insert]
    split_ifs with heq
    · rw [← heq, hfind, Option.some.injEq] at hmessage
      rw [← hmarked, hmessage]
    · exact hmessage

/-- Sending a text keeps the invariant when the message shown is requested if it is sent. -/
theorem sendText_spec (h : Inv s) (hid : id ≠ 0) (hrefresh : s.Refreshes fun _ => none)
    (htruthful : outcome.succeeds = true → outcome.stored = true) :
    Inv (s.sendText id outcome).2 ∧ Frame s (s.sendText id outcome).2 ∧
      ((s.sendText id outcome).1 = true → ∀ message,
        (s.sendText id outcome).2._signMessages.find id = some message →
        message.IsDmsTextInitialized = true) := by
  unfold sendText
  cases hfind : s._signMessages.find id with
  | none => exact ⟨h, .refl s, fun _ message hmessage => by simp [hfind] at hmessage⟩
  | some message =>
    simp only
    by_cases hmarked : message.IsDmsTextInitialized = true
    · rw [if_pos hmarked]
      refine ⟨h, .refl s, fun _ message' hmessage => ?_⟩
      rw [hfind, Option.some.injEq] at hmessage
      exact hmessage ▸ hmarked
    · have hunmarked : message.IsDmsTextInitialized = false := by simpa using hmarked
      rw [if_neg hmarked]
      have hinv := h.assign hid hfind hunmarked outcome
      have hframe := assign_frame s id message.DmsText outcome
      obtain ⟨hdone, hmessages, -, hshown, hsign⟩ := assign_eq hid s message.DmsText outcome
      cases hassign : s.assignMessageOnSign id message.DmsText outcome with
      | mk done t =>
        rw [hassign] at hinv hframe hdone hmessages hshown hsign
        simp only at hinv hframe hdone hmessages hshown hsign
        cases done with
        | false => exact ⟨hinv, hframe, fun hfalse => by simp at hfalse⟩
        | true =>
          have hfind' : t._signMessages.find id = some message := hmessages ▸ hfind
          have hstored : t.sign.memory id = message.DmsText := by
            have hok := hdone.symm
            simp only [Assignment.succeeds, decide_eq_true_eq] at hok
            rw [hsign]
            simp [assignMemory, htruthful hdone.symm, hok.1, hok.2.1]
          have hother : t._msgIdShown ≠ id := by
            rw [hshown]
            split_ifs with hreq
            · rintro rfl
              rw [h.sentinel] at hfind
              simp at hfind
            · intro heq
              exact hreq ((hrefresh message (heq ▸ hfind) (heq ▸ hid) (.inl hunmarked)).trans heq)
          refine ⟨hinv.mark hid hfind' hstored hother, hframe.trans (mark_frame hfind'), ?_⟩
          intro _ message' hmessage
          change (t._signMessages.insert id _).find id = some message' at hmessage
          rw [OrderedMap.find_insert, if_pos rfl] at hmessage
          obtain rfl := Option.some.inj hmessage
          rfl

end Assign

section Loops
variable {outcomes : ℤ → Assignment}

theorem initializeLoop_spec (htruthful : Truthful outcomes) (ids : List ℤ) (h : Inv s)
    (hrefresh : s.Refreshes fun _ => none) :
    Inv (initializeLoop outcomes ids s).2 ∧ Frame s (initializeLoop outcomes ids s).2 ∧
      ((initializeLoop outcomes ids s).1 = true → ∀ id ∈ ids, id ≠ 0 → ∀ message,
        (initializeLoop outcomes ids s).2._signMessages.find id = some message →
        message.IsDmsTextInitialized = true) := by
  induction ids generalizing s with
  | nil => exact ⟨h, .refl s, by simp⟩
  | cons id rest ih =>
    unfold initializeLoop
    by_cases hid : id = 0
    · rw [if_pos hid]
      obtain ⟨hinv, hframe, hmarked⟩ := ih h hrefresh
      refine ⟨hinv, hframe, fun hdone id' hmem hne => ?_⟩
      rcases List.mem_cons.mp hmem with rfl | hmem
      · exact absurd hid hne
      · exact hmarked hdone id' hmem hne
    · rw [if_neg hid]
      obtain ⟨hinv, hframe, hmarked⟩ := sendText_spec h hid hrefresh (htruthful id)
      cases hsend : s.sendText id (outcomes id) with
      | mk sent t =>
        rw [hsend] at hinv hframe hmarked
        cases sent with
        | false => exact ⟨hinv, hframe, fun hfalse => by simp at hfalse⟩
        | true =>
          obtain ⟨hinv', hframe', hmarked'⟩ := ih hinv (hframe.refreshes hinv.sentinel hrefresh)
          refine ⟨hinv', hframe.trans hframe', fun hdone id' hmem hne message hfind => ?_⟩
          rcases List.mem_cons.mp hmem with rfl | hmem
          · obtain ⟨before, hbefore, -, -⟩ := hframe'.find hfind
            have hbeforeMarked := hmarked rfl before hbefore
            have hsame := hframe'.marks id' before hbefore hbeforeMarked
            obtain rfl : message = before := Option.some.inj (hfind.symm.trans hsame)
            exact hbeforeMarked
          · exact hmarked' hdone id' hmem hne message hfind

theorem Inv.initialize (h : Inv s) (hcareful : s._enableDms = true →
      s.Refreshes (fun _ => none) ∧ Truthful outcomes) :
    Inv { (s.initializeSignMessages outcomes).2 with
      _isSignMessagesInitialized := (s.initializeSignMessages outcomes).1 } := by
  unfold initializeSignMessages
  by_cases henable : s._enableDms = true
  · rw [if_pos henable]
    obtain ⟨hrefresh, htruthful⟩ := hcareful henable
    obtain ⟨hinv, hframe, hmarked⟩ :=
      initializeLoop_spec htruthful (s._signMessages.entries.map Prod.fst) h hrefresh
    refine ⟨hinv.blank, hinv.sentinel, ?_, ⟨hinv.onSign.stored, hinv.onSign.shown⟩, hinv.known,
      hinv.requested⟩
    intro hdone id message hfind hne
    obtain ⟨before, hbefore, -, -⟩ := hframe.find hfind
    have hmem : id ∈ s._signMessages.entries.map Prod.fst := by
      rw [← OrderedMap.isSome_find_iff, hbefore]
      rfl
    exact hmarked hdone id hmem hne message hfind
  · rw [if_neg henable]
    exact ⟨h.blank, h.sentinel, by simp, ⟨h.onSign.stored, h.onSign.shown⟩, h.known, h.requested⟩

theorem newText_of_not_mem {config : ConfigValues} {ids : List ℤ} (h : id ∉ ids) (message : Bytes) :
    newText config ids message id = none := by
  induction ids generalizing message with
  | nil => rfl
  | cons id' rest ih =>
    obtain ⟨hne, hrest⟩ : id ≠ id' ∧ id ∉ rest := by simpa using h
    rw [newText, if_neg (Ne.symm hne)]
    exact ih hrest _

theorem Refreshes.none {texts : ℤ → Option Bytes} (h : s.Refreshes texts) :
    s.Refreshes fun _ => none := by
  intro message hfind hne hpending
  rcases hpending with hunmarked | ⟨text, htext, -⟩
  · exact h message hfind hne (.inl hunmarked)
  · simp at htext

/-- A new text changes the messages and what is known of them, and nothing else. -/
theorem setText_eq (s : DmsPlugin) (id : ℤ) (text : Bytes) :
    ∃ messages initialized, s.setText id text =
      { s with _signMessages := messages, _isSignMessagesInitialized := initialized } := by
  unfold DmsPlugin.setText
  simp only
  cases s._signMessages.find id with
  | none => exact ⟨_, _, rfl⟩
  | some message =>
    simp only
    split_ifs
    · exact ⟨_, _, rfl⟩
    · exact ⟨_, _, rfl⟩

theorem setText_find (s : DmsPlugin) (id id' : ℤ) (text : Bytes) :
    (s.setText id text)._signMessages.find id' =
      if id = id' ∧ (s._signMessages.find id).map SignMessage.DmsText ≠ some text then
        some ⟨text, false⟩
      else s._signMessages.find id' := by
  unfold DmsPlugin.setText
  simp only
  cases hfind : s._signMessages.find id with
  | none => simp [setMessage, OrderedMap.find_insert]
  | some message =>
    by_cases hsame : message.DmsText = text
    · simp [hsame]
    · simp [hsame, setMessage, OrderedMap.find_insert]

/-- The texts of the rest of the loop. -/
theorem setText_refreshes (h : Inv s) (hid : 0 < id) {rest : List ℤ} (hrest : id ∉ rest)
    {message : Bytes} (hrefresh : s.Refreshes (newText s.config (id :: rest) message)) :
    let text := (s.config.find (messageKey id)).getD message
    (s.setText id text).Refreshes (newText s.config rest text) := by
  intro text pending hfind hne hpending
  have hnext : ∀ id', newText s.config (id :: rest) message id' =
      if id = id' then some text else newText s.config rest text id' := fun _ => rfl
  obtain ⟨messages, initialized, heq⟩ := setText_eq s id text
  have hshown : (s.setText id text)._msgIdShown = s._msgIdShown := by rw [heq]
  have hrequested : (s.setText id text)._msgIdRequested = s._msgIdRequested := by rw [heq]
  rw [hshown] at hfind hne hpending ⊢
  rw [hrequested]
  rw [setText_find] at hfind
  split_ifs at hfind with hedited
  · obtain ⟨hsame, hother⟩ := hedited
    obtain ⟨before, hbefore⟩ := Option.isSome_iff_exists.mp (h.known (by omega))
    refine hrefresh before hbefore hne (.inr ⟨text, ?_, ?_⟩)
    · rw [hnext, if_pos hsame]
      rfl
    · rw [hsame, hbefore, Option.map_some] at hother
      exact fun heq => hother (congrArg some heq)
  · refine hrefresh pending hfind hne ?_
    rcases hpending with hunmarked | ⟨text', htext', hother⟩
    · exact .inl hunmarked
    · refine .inr ⟨text', ?_, hother⟩
      rw [hnext]
      split_ifs with hsame
      · rw [← hsame, newText_of_not_mem hrest] at htext'
        simp at htext'
      · exact htext'

/-- One iteration of the loop over the messages. -/
theorem addSignMessage_spec (htruthful : Truthful outcomes) (h : Inv s) (hid : 0 < id)
    {rest : List ℤ} (hrest : id ∉ rest) {message : Bytes} (sendToSign : Bool)
    (hrefresh : s._enableDms = true → s._isDmsControllerInitialized = true →
      s.Refreshes (newText s.config (id :: rest) message)) :
    let text := (s.config.find (messageKey id)).getD message
    let t := (s.addSignMessage id text sendToSign (outcomes id)).2
    Inv t ∧ t.config = s.config ∧ (t._enableDms = true → t._isDmsControllerInitialized = true →
      t.Refreshes (newText t.config rest text)) := by
  intro text
  have hinv := h.setText hid text
  obtain ⟨messages, initialized, heq⟩ := setText_eq s id text
  have henable : (s.setText id text)._enableDms = s._enableDms := by rw [heq]
  have hcontroller : (s.setText id text)._isDmsControllerInitialized =
      s._isDmsControllerInitialized := by rw [heq]
  have hconfig : (s.setText id text).config = s.config := by rw [heq]
  have hrefresh' : (s.setText id text)._enableDms = true →
      (s.setText id text)._isDmsControllerInitialized = true →
      (s.setText id text).Refreshes (newText s.config rest text) := by
    rw [henable, hcontroller]
    exact fun he hc => setText_refreshes h hid hrest (hrefresh he hc)
  unfold addSignMessage
  simp only
  by_cases hsend : (s.setText id text)._enableDms = true ∧
      (s.setText id text)._isDmsControllerInitialized = true ∧ sendToSign = true
  case neg =>
    rw [if_pos hsend]
    exact ⟨hinv, hconfig, hconfig ▸ hrefresh'⟩
  case pos =>
    rw [if_neg (not_not.mpr hsend), if_neg hid.ne']
    obtain ⟨he, hc, -⟩ := hsend
    have hpending := hrefresh' he hc
    obtain ⟨hinv', hframe, -⟩ := sendText_spec hinv hid.ne' hpending.none (htruthful id)
    refine ⟨hinv', hframe.config.trans hconfig, fun _ _ => ?_⟩
    rw [hframe.config, hconfig]
    exact hframe.refreshes hinv'.sentinel hpending

theorem updateMessages_inv (htruthful : Truthful outcomes) (ids : List ℤ)
    (hpos : ∀ id ∈ ids, 0 < id) (hnodup : ids.Nodup) (h : Inv s) (message : Bytes)
    (sendToSign : Bool)
    (hrefresh : s._enableDms = true → s._isDmsControllerInitialized = true →
      s.Refreshes (newText s.config ids message)) :
    Inv (updateMessages outcomes ids message sendToSign s) := by
  induction ids generalizing s message sendToSign with
  | nil => exact h
  | cons id rest ih =>
    obtain ⟨hrest, hnodup⟩ := List.nodup_cons.mp hnodup
    obtain ⟨hinv, -, hrefresh'⟩ := addSignMessage_spec htruthful h (hpos id (by simp)) hrest
      sendToSign hrefresh
    unfold updateMessages
    simp only
    exact ih (fun id' hmem => hpos id' (by simp [hmem])) hnodup hinv _ _ hrefresh'

end Loops

/-- A new address changes where the sign is, and the flag of the controller. -/
theorem updateAddress_eq (s : DmsPlugin) :
    ∃ ip port address controller, s.updateAddress = { s with
      _dmsIpAddress := ip
      _dmsPort := port
      _dmsController := address
      _isDmsControllerInitialized := controller } := by
  unfold updateAddress
  simp only
  split_ifs <;> exact ⟨_, _, _, _, rfl⟩

theorem Inv.updateConfig {outcomes : ℤ → Assignment} (h : Inv s)
    (hcareful : s.CarefulUpdate outcomes) : Inv (s.updateConfig outcomes) := by
  obtain ⟨haddress, hrefresh, htruthful⟩ := hcareful
  obtain ⟨ip, port, address, controller, heq⟩ := updateAddress_eq s.updateEnable
  unfold DmsPlugin.updateConfig
  rw [heq] at haddress hrefresh ⊢
  refine updateMessages_inv htruthful _ (by decide) (by decide) ?_ _ _ hrefresh
  refine ⟨h.blank, h.sentinel, h.marked, ?_, h.known, h.requested⟩
  by_cases hmoved : address = s._dmsController
  · rw [hmoved]
    exact ⟨h.onSign.stored, h.onSign.shown⟩
  · have hmatches := haddress hmoved
    exact ⟨hmatches.stored, hmatches.shown⟩

/-- A message is shown that the sign displays. -/
theorem Inv.showing (h : Inv s) {message : SignMessage}
    (hfind : s._signMessages.find id = some message) (hdisplay : s.sign.display = message.DmsText) :
    Inv { s with _msgIdShown := id } := by
  refine ⟨h.blank, h.sentinel, h.marked, ⟨h.onSign.stored, ?_⟩, ?_, ?_⟩
  · intro message' hfind' _
    obtain rfl : message = message' := Option.some.inj (hfind.symm.trans hfind')
    exact hdisplay
  · intro _
    simp [hfind]
  · rintro - rfl
    rw [h.sentinel] at hfind
    simp at hfind

theorem Inv.setDisplay (h : Inv s) (hshown : s._msgIdShown = -1) (display : Bytes) :
    Inv (s.setSign { s.sign with display }) := by
  refine ⟨h.blank, h.sentinel, h.marked, ?_, h.known, h.requested⟩
  rw [setSign_sign]
  refine ⟨h.onSign.stored, fun message hfind => ?_⟩
  change s._signMessages.find s._msgIdShown = some message at hfind
  rw [hshown, h.sentinel] at hfind
  simp at hfind

theorem Inv.forget (h : Inv s) (hrequested : s._msgIdRequested ≠ -1) :
    Inv { s with _msgIdShown := -1 } := by
  refine ⟨h.blank, h.sentinel, h.marked, ⟨h.onSign.stored, ?_⟩, ?_, ?_⟩
  · intro message hfind
    change s._signMessages.find (-1) = some message at hfind
    rw [h.sentinel] at hfind
    simp at hfind
  · intro hne
    exact absurd rfl hne
  · intro hnone
    exact absurd hnone hrequested

/-- An activation puts the text of a message that is on the sign on its display. -/
theorem Inv.display (h : Inv s) (hinit : s._isSignMessagesInitialized = true)
    {message : SignMessage} (hfind : s._signMessages.find id = some message) :
    (if id = 0 then [] else s.sign.memory id) = message.DmsText := by
  split_ifs with hzero
  · obtain ⟨blank, hblank, htext⟩ := h.blank
    obtain rfl : message = blank := Option.some.inj (hfind.symm.trans (hzero ▸ hblank))
    exact htext.symm
  · exact h.onSign.stored id message hfind hzero (h.marked hinit id message hfind hzero)

theorem Inv.setRequestedMessage (h : Inv s) {outcome : Activation}
    (hcareful : s.CarefulRequest id outcome) : Inv (s.setRequestedMessage id outcome) := by
  have hrequest : Inv { s with _msgIdRequested := id } :=
    ⟨h.blank, h.sentinel, h.marked, ⟨h.onSign.stored, h.onSign.shown⟩, h.known,
      fun hnone => hcareful.sentinel hnone⟩
  unfold DmsPlugin.setRequestedMessage showSignMessage
  simp only
  by_cases hsame : id = s._msgIdShown
  · rw [if_pos hsame]
    exact hrequest
  rw [if_neg hsame]
  by_cases hinit : s._isSignMessagesInitialized = true
  case neg =>
    rw [if_pos (by simpa using hinit)]
    exact hrequest
  rw [if_neg (by simp [hinit])]
  cases hfind : s._signMessages.find id with
  | none => exact hrequest
  | some message =>
    have hchanges : s.Changes id := ⟨hinit, hsame, by simp [hfind]⟩
    rw [if_neg (by simp)]
    by_cases henable : s._enableDms = true
    case neg =>
      rw [if_neg henable]
      have hdisabled : s._enableDms = false := by simpa using henable
      exact hrequest.showing hfind (hcareful.disabled hchanges hdisabled message hfind)
    case pos =>
      rw [if_pos henable]
      unfold activateMessage
      cases outcome with
      | failed => exact hrequest
      | unanswered => exact hrequest.setDisplay (hcareful.answered hchanges henable rfl) _
      | done =>
        have hknown : id ≠ -1 := by
          rintro rfl
          rw [h.sentinel] at hfind
          simp at hfind
        have hdisplay := hrequest.display hinit hfind
        have hforgot := (hrequest.forget hknown).setDisplay rfl
          (if id = 0 then [] else s.sign.memory id)
        exact hforgot.showing hfind (by rw [setSign_sign]; exact hdisplay)

theorem step_inv {a : Act} (h : Inv s) (hcareful : s.Careful a) : Inv (s.step a) := by
  have hset : ∀ key value, Inv (s.setConfigValue key value) := fun _ _ =>
    ⟨h.blank, h.sentinel, h.marked, ⟨h.onSign.stored, h.onSign.shown⟩, h.known, h.requested⟩
  cases a with
  | registered outcomes => exact h.updateConfig hcareful
  | configChanged key value outcomes outcome =>
    simp only [step, onConfigChanged, Careful] at hcareful ⊢
    split_ifs at hcareful ⊢ with hforce
    · exact (hset key value).setRequestedMessage hcareful
    · exact (hset key value).updateConfig hcareful
  | messageReceived msgId outcome => exact h.setRequestedMessage hcareful
  | mainPass outcomes outcome =>
    simp only [step, DmsPlugin.mainPass, Careful, CarefulPass] at hcareful ⊢
    split_ifs at hcareful ⊢ with hinit hpending
    · exact h.setRequestedMessage hcareful
    · exact h
    · exact h.initialize hcareful

/-- Nothing is marked or shown at the start. -/
theorem new_matches (config : ConfigValues) (signs : Address → Sign) (sign : Sign) :
    (new config signs).Matches sign := by
  have hfind : ∀ id message, (new config signs)._signMessages.find id = some message → id = 0 := by
    intro id message hfind
    change (OrderedMap.empty.insert (0 : ℤ) (⟨[], false⟩ : SignMessage)).find id = _ at hfind
    rw [OrderedMap.find_insert] at hfind
    split_ifs at hfind with hid
    · exact hid.symm
    · simp [OrderedMap.find, OrderedMap.empty] at hfind
  constructor
  · intro id message hmessage hne
    exact absurd (hfind id message hmessage) hne
  · intro message hmessage
    exact absurd (hfind _ message hmessage) (by simp [new])

theorem Inv.new (config : ConfigValues) (signs : Address → Sign) : Inv (new config signs) := by
  refine ⟨⟨⟨[], false⟩, rfl, rfl⟩, rfl, ?_, new_matches config signs _, ?_, ?_⟩
  · intro hinit
    simp [DmsPlugin.new] at hinit
  · intro hne
    exact absurd rfl hne
  · intro hnone
    simp [DmsPlugin.new] at hnone

end Steps

/-- In a run of careful steps the sign displays the requested message whenever nothing more will be
sent. -/
theorem run_shows {config : ConfigValues} {signs : Address → Sign} {acts : List Act}
    {s : DmsPlugin} (ho : machine.Obeys Careful (new config signs) acts)
    (hr : machine.run (new config signs) acts = some s) : s.Shows := by
  have hstep : ∀ u a v, Inv u → u.Careful a → machine.step u a = some v → Inv v := by
    intro u a v hu hcareful hv
    obtain rfl : u.step a = v := by simpa [machine] using hv
    exact step_inv hu hcareful
  have hs : Inv s := Machine.obeys_invariant hstep (Inv.new config signs) ho hr
  exact hs.shows

/-- A plugin that has shown nothing yet loses nothing. -/
theorem refreshes_of_unshown {s : DmsPlugin} (h : Inv s) (hshown : s._msgIdShown = -1)
    (texts : ℤ → Option Bytes) : s.Refreshes texts := by
  intro message hfind
  rw [hshown, h.sentinel] at hfind
  simp at hfind

def sampleConfig : ConfigValues :=
  ((OrderedMap.empty.insert (cstr "DMS IP Address") (cstr "10.0.0.1")).insert
    (cstr "Enable DMS") (cstr "1")).insert (cstr "Message 02") (cstr "25")

def sampleSigns : Address → Sign := fun _ => ⟨fun _ => [], []⟩

/-- Every request to the sign succeeds. -/
def sampleOutcomes : ℤ → Assignment := fun _ => ⟨true, 1, 2, true, 4⟩

/-- The texts are put on the sign, and message 2 is requested. -/
def sampleActs : List Act :=
  [.registered sampleOutcomes, .mainPass sampleOutcomes .done, .messageReceived 2 .done]

theorem sampleActs_careful : machine.Obeys Careful (new sampleConfig sampleSigns) sampleActs := by
  have hstart := Inv.new sampleConfig sampleSigns
  have hregistered : (new sampleConfig sampleSigns).CarefulUpdate sampleOutcomes :=
    ⟨fun _ => new_matches _ _ _, fun _ _ => refreshes_of_unshown hstart rfl _, fun _ _ => rfl⟩
  have hupdated : Inv ((new sampleConfig sampleSigns).step (.registered sampleOutcomes)) :=
    step_inv hstart hregistered
  refine ⟨hregistered, ?_, ?_, trivial⟩
  · simp only [Careful, CarefulPass]
    rw [if_neg (by decide)]
    exact fun _ => ⟨refreshes_of_unshown hupdated (by decide) _, fun _ _ => rfl⟩
  · refine ⟨fun hnone => absurd hnone (by decide), fun _ hdisabled => ?_, fun _ _ hlost => ?_⟩
    · exact absurd hdisabled (by decide)
    · exact absurd hlost (by decide)

theorem run_shows_sample : ∃ s, machine.run (new sampleConfig sampleSigns) sampleActs = some s ∧
    s.Shows ∧ s._isSignMessagesInitialized = true ∧ s._msgIdShown = 2 ∧
    s.sign.display = cstr "25" :=
  ⟨_, rfl, run_shows sampleActs_careful rfl, by decide, by decide, by decide⟩

/-- Then the sign gets another address. -/
theorem shows_fails : ∃ s, machine.run (new sampleConfig sampleSigns) (sampleActs ++
      [.configChanged (cstr "DMS IP Address") (cstr "10.0.0.2") sampleOutcomes .done]) = some s ∧
    ¬ s.Shows := by
  refine ⟨_, rfl, fun h => ?_⟩
  obtain ⟨message, hfind, hdisplay⟩ := h (by decide) (by decide) (by decide)
  obtain rfl : message = ⟨cstr "25", true⟩ := Option.some.inj (hfind.symm.trans rfl)
  exact absurd hdisplay (by decide)

end DmsPlugin
end V2IHub.Dms
