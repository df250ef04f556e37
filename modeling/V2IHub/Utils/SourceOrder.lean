import V2IHub.Foundation.Observation
import V2IHub.Utils.SourceView

/-! `TmxMessageManager` handles the messages of a source one after the other, in the order in which
they came. -/
namespace V2IHub.Utils
open Foundation

namespace SourceView

theorem setLane_same {v : SourceView} {i : ℕ} {lane : Lane} (h : v.lanes[i]? = some lane) :
    v.setLane i lane = v := by
  obtain ⟨hlt, rfl⟩ := List.getElem?_eq_some_iff.mp h
  rw [setLane, List.set_getElem_self hlt]

end SourceView

namespace RxThread

theorem push_cases (t : RxThread) (item : MessageStruct) (accepted : Bool) :
    t.push item accepted = ({ t with inQ := t.inQ ++ [item] }, true) ∨
      t.push item accepted = (t, false) := by
  unfold push
  split_ifs
  · exact .inr rfl
  · exact .inl rfl
  · exact .inr rfl

theorem pushOut_cases (t : RxThread) (item : MessageStruct) :
    (t.pushOut item).1 = { t with outQ := t.outQ ++ [item] } ∨ (t.pushOut item).1 = t := by
  unfold pushOut
  split_ifs
  · exact .inl rfl
  · exact .inr rfl

end RxThread

namespace MessageManager

def lane (k : Source) (t : RxThread) : Lane where
  waiting := t.inQ.filter fun m => m.source = k
  working := t.current.filter fun m => m.source = k
  cleanups := t.outQ.countP fun m => m.source = k

def view (k : Source) (s : MessageManager) : SourceView where
  count := s.count k
  threadId := s.threadId k
  calls := (s.calls.filter fun c => c.msg.source = k).map fun c => (c.msg, c.thread)
  lanes := s.workerThreads.map (lane k)

/-- What a step does to the messages of the source. -/
def event (byteStreamDecode : Bytes → Bytes) (k : Source) (s : MessageManager) :
    ManagerAct → Option SourceEvent
  | .incoming caller form source timestamp rand =>
    if source = k then
      (s.incoming byteStreamDecode caller form source timestamp rand).calls[s.calls.length]?.map
        fun c => .given c.msg
    else none
  | .push i => s.calls[i]?.bind fun c =>
    if c.msg.source = k ∧ s.workerThreads[c.thread]?.any fun t =>
      (t.push c.msg (s.accept c.caller)).2 then some (.queued c.msg) else none
  | .beginWork i => (s.workerThreads[i]?.bind fun t => t.inQ.head?).bind fun msg =>
    if msg.source = k then some (.handled msg) else none
  | _ => none

/-- The messages of the source come from one thread. -/
def OneCall (k : Source) (s : MessageManager) : ManagerAct → Prop
  | .incoming _ _ source _ _ => source = k → ∀ c ∈ s.calls, c.msg.source ≠ k
  | _ => True

instance decidableOneCall (k : Source) (s : MessageManager) :
    (a : ManagerAct) → Decidable (OneCall k s a)
  | .incoming _ _ source _ _ =>
    decidable_of_iff (source ≠ k ∨ ∀ c ∈ s.calls, c.msg.source ≠ k) imp_iff_not_or.symm
  | .push _ | .beginWork _ | .endWork _ | .outgoing _ _ _ | .output _ | .start _ | .stop _
  | .setStrategy _ | .setOverflow _ => isTrue trivial

section Moves
open SourceView
variable {byteStreamDecode : Bytes → Bytes} {k source : Source} {s s' : MessageManager} {i : ℕ}
  {t t' : RxThread}

theorem view_setThread (s : MessageManager) (i : ℕ) (t : RxThread) :
    (s.setThread i t).view k = (s.view k).setLane i (lane k t) := by
  simp only [view, setThread, setLane, List.map_set]

theorem view_lane (k : Source) (h : s.workerThreads[i]? = some t) :
    (s.view k).lanes[i]? = some (lane k t) := by
  simp only [view, List.getElem?_map, h, Option.map_some]

/-- What a worker does with other messages. -/
theorem view_setThread_same (h : s.workerThreads[i]? = some t) (hlane : lane k t' = lane k t) :
    (s.setThread i t').view k = s.view k := by
  rw [view_setThread, hlane, setLane_same (view_lane k h)]

theorem assign_spec (hk : k ≠ (0, 0)) (hsize : s.workerThreads.length ≠ 0) (rand : ℕ) :
    ∃ thread : ℕ, (s.assign k rand).2 = thread ∧ (s.assign k rand).1.threadId k = thread ∧
      (0 ≤ s.threadId k → (thread : ℤ) = s.threadId k) := by
  simp only [assign, if_neg hsize]
  split_ifs with hchoose
  · have hneg := hchoose.resolve_right hk
    exact ⟨_, rfl, Function.update_self _ _ _, fun h => absurd hneg (not_lt.mpr h)⟩
  · push Not at hchoose
    exact ⟨(s.threadId k).toNat, by omega, by simp only; omega, fun _ => by omega⟩

theorem assign_other (hne : k ≠ source) (rand : ℕ) :
    (s.assign source rand).1.count k = s.count k ∧
      (s.assign source rand).1.threadId k = s.threadId k := by
  simp only [assign]
  split_ifs <;> simp [Function.update_of_ne hne]

theorem unassign_other (hne : k ≠ source) :
    (s.unassign source).count k = s.count k ∧ (s.unassign source).threadId k = s.threadId k := by
  simp only [unassign]
  split_ifs <;> simp [Function.update_of_ne hne]

theorem unassign_self (s : MessageManager) (k : Source) :
    (s.unassign k).count k = s.count k - 1 ∧
      (s.unassign k).threadId k = if s.count k - 1 = 0 then -1 else s.threadId k := by
  simp only [unassign, Function.update_self]
  split_ifs <;> simp

/-- What `IncomingMessage` does before the push. -/
theorem incoming_cases (byteStreamDecode : Bytes → Bytes) (s : MessageManager) (caller : Option ℕ)
    (form : Incoming) (source : Source) (timestamp : BitVec 64) (rand : ℕ) :
    s.incoming byteStreamDecode caller form source timestamp rand = s ∨
      s.workerThreads.length ≠ 0 ∧ ∃ encoding bytes,
        s.incoming byteStreamDecode caller form source timestamp rand =
          { (s.assign source rand).1 with
            calls := s.calls ++ [⟨⟨source, timestamp, encoding, some bytes⟩,
              (s.assign source rand).2.toNat, caller⟩] } := by
  cases hbytes : form.toBytes byteStreamDecode with
  | mk data encoding =>
    cases data with
    | none => exact .inl (by simp only [incoming, hbytes])
    | some bytes =>
      by_cases hsize : s.workerThreads.length = 0
      · exact .inl (by simp [incoming, hbytes, assign, hsize])
      · refine .inr ⟨hsize, encoding, bytes, ?_⟩
        simp only [incoming, hbytes, if_neg (chosen_nonneg s source rand hsize), assign_calls]

theorem move_incoming (hk : k ≠ (0, 0)) {caller : Option ℕ} {form : Incoming}
    {timestamp : BitVec 64} {rand : ℕ} (hone : source = k → ∀ c ∈ s.calls, c.msg.source ≠ k) :
    Move (s.view k) (event byteStreamDecode k s (.incoming caller form source timestamp rand))
      ((s.incoming byteStreamDecode caller form source timestamp rand).view k) := by
  rcases s.incoming_cases byteStreamDecode caller form source timestamp rand with
    hsame | ⟨hsize, encoding, bytes, hincoming⟩
  · simp only [event, hsame, List.getElem?_eq_none le_rfl, Option.map_none, ite_self]
    exact .stay _
  · by_cases hsource : source = k
    · subst hsource
      obtain ⟨thread, hthread, hid, hpinned⟩ := assign_spec hk hsize rand
      have hfree : (s.calls.filter fun c => c.msg.source = source) = [] := by
        simpa [List.filter_eq_nil_iff] using hone rfl
      have hview : (s.incoming byteStreamDecode caller form source timestamp rand).view source =
          { s.view source with
            count := s.count source + 1
            threadId := thread
            calls := [(⟨source, timestamp, encoding, some bytes⟩, thread)] } := by
        rw [hincoming]
        simp only [view, hid, hthread, assign_count s source rand hsize, assign_workerThreads,
          List.filter_append, hfree, Function.update_self, Int.toNat_natCast]
        simp
      have hevent : event byteStreamDecode source s
          (.incoming caller form source timestamp rand) =
            some (.given ⟨source, timestamp, encoding, some bytes⟩) := by
        simp [event, hincoming]
      rw [hview, hevent]
      apply Move.give
      · simp only [view, hfree, List.map_nil]
      · exact hpinned
    · obtain ⟨hcount, hid⟩ := assign_other (s := s) (Ne.symm hsource) rand
      have hview : (s.incoming byteStreamDecode caller form source timestamp rand).view k =
          s.view k := by
        rw [hincoming]
        simp [view, hcount, hid, assign_workerThreads, hsource]
      rw [hview]
      simp only [event, if_neg hsource]
      exact .stay _

theorem move_push (hs : s.pushCall i = some s') :
    Move (s.view k) (event byteStreamDecode k s (.push i)) (s'.view k) := by
  cases hcall : s.calls[i]? with
  | none => simp [pushCall, hcall] at hs
  | some c =>
    obtain ⟨hlt, hget⟩ := List.getElem?_eq_some_iff.mp hcall
    have hsplit : s.calls = s.calls.take i ++ c :: s.calls.drop (i + 1) := by
      rw [← hget, ← List.drop_eq_getElem_cons hlt, List.take_append_drop]
    have herase : s.calls.eraseIdx i = s.calls.take i ++ s.calls.drop (i + 1) :=
      List.eraseIdx_eq_take_drop_succ ..
    simp only [pushCall, hcall] at hs
    simp only [event, hcall, Option.bind_some]
    by_cases hsource : c.msg.source = k
    · -- the view without the call
      have hcalls : (s.view k).calls =
          (((s.calls.take i).filter fun c => c.msg.source = k).map fun c => (c.msg, c.thread)) ++
            (c.msg, c.thread) ::
              (((s.calls.drop (i + 1)).filter fun c => c.msg.source = k).map
                fun c => (c.msg, c.thread)) := by
        rw [view, hsplit, List.filter_append, List.filter_cons_of_pos (by simpa using hsource),
          List.map_append, List.map_cons, ← hsplit]
      have hwithout : view k { s with calls := s.calls.eraseIdx i } =
          { s.view k with calls :=
            (((s.calls.take i).filter fun c => c.msg.source = k).map fun c => (c.msg, c.thread)) ++
              (((s.calls.drop (i + 1)).filter fun c => c.msg.source = k).map
                fun c => (c.msg, c.thread)) } := by
        simp only [view, herase, List.filter_append, List.map_append]
      cases ht : s.workerThreads[c.thread]? with
      | none =>
        simp only [ht, Option.some.injEq] at hs
        subst hs
        simp only [Option.any_none, Bool.false_eq_true, and_false, if_false, hwithout]
        exact .lose hcalls
      | some t =>
        simp only [ht, Option.some.injEq] at hs
        subst hs
        rcases t.push_cases c.msg (s.accept c.caller) with hpush | hpush
        · simp only [hsource, Option.any_some, hpush, and_self, if_true, view_setThread, hwithout]
          have hmove := Move.queue hcalls (view_lane k ht)
          simpa [lane, hsource] using hmove
        · simp only [Option.any_some, hpush, Bool.false_eq_true, and_false, if_false]
          rw [view_setThread_same (s := { s with calls := s.calls.eraseIdx i }) ht rfl, hwithout]
          exact .lose hcalls
    · have hwithout : view k { s with calls := s.calls.eraseIdx i } = s.view k := by
        simp only [view]
        conv_rhs => rw [hsplit]
        simp [herase, hsource]
      simp only [hsource, false_and, if_false]
      cases ht : s.workerThreads[c.thread]? with
      | none =>
        simp only [ht, Option.some.injEq] at hs
        subst hs
        rw [hwithout]
        exact .stay _
      | some t =>
        simp only [ht, Option.some.injEq] at hs
        subst hs
        have hlane : lane k (t.push c.msg (s.accept c.caller)).1 = lane k t := by
          rcases t.push_cases c.msg (s.accept c.caller) with hpush | hpush
          · simp [hpush, lane, hsource]
          · rw [hpush]
        rw [view_setThread_same (s := { s with calls := s.calls.eraseIdx i }) ht hlane, hwithout]
        exact .stay _

theorem move_beginWork (hs : s.beginWork i = some s') :
    Move (s.view k) (event byteStreamDecode k s (.beginWork i)) (s'.view k) := by
  unfold beginWork at hs
  cases ht : s.workerThreads[i]? with
  | none => simp [ht] at hs
  | some t =>
    simp only [ht] at hs
    split at hs
    · rename_i msg rest _ hcurrent hinQ
      obtain rfl := Option.some.inj hs
      simp only [event, ht, Option.bind_some, hinQ, List.head?_cons]
      by_cases hsource : msg.source = k
      · have hlane : lane k t = ⟨msg :: rest.filter fun m => m.source = k, none,
            t.outQ.countP fun m => m.source = k⟩ := by
          simp [lane, hinQ, hcurrent, hsource]
        rw [if_pos hsource, view_setThread]
        have hmove := Move.begin (v := s.view k) (by rw [view_lane k ht, hlane])
        simpa [lane, Option.filter_some, hsource] using hmove
      · have hlane : lane k { t with current := some msg, inQ := rest } = lane k t := by
          simp [lane, hinQ, hcurrent, Option.filter_some, hsource]
        rw [if_neg hsource, view_setThread_same ht hlane]
        exact .stay _
    · simp at hs

theorem move_endWork (hs : s.endWork i = some s') : Move (s.view k) none (s'.view k) := by
  unfold endWork at hs
  cases ht : s.workerThreads[i]? with
  | none => simp [ht] at hs
  | some t =>
    cases hcurrent : t.current with
    | none => simp [ht, hcurrent] at hs
    | some msg =>
      simp only [ht, hcurrent, Option.some.injEq] at hs
      subst hs
      have hout := RxThread.pushOut_cases { t with current := none } (RxThread.cleanupMsg msg)
      by_cases hsource : msg.source = k
      · have hlane : lane k t = ⟨t.inQ.filter fun m => m.source = k, some msg,
            t.outQ.countP fun m => m.source = k⟩ := by
          simp [lane, hcurrent, hsource]
        rw [view_setThread]
        rcases hout with hout | hout
        · have hmove := Move.finish (v := s.view k) (by rw [view_lane k ht, hlane]) le_rfl
          rw [hout]
          simpa [lane, RxThread.cleanupMsg, hsource] using hmove
        · have hmove := Move.finish (v := s.view k) (by rw [view_lane k ht, hlane]) (Nat.le_succ _)
          rw [hout]
          simpa [lane] using hmove
      · have hlane : lane k (RxThread.pushOut { t with current := none }
            (RxThread.cleanupMsg msg)).1 = lane k t := by
          have hnot : (RxThread.cleanupMsg msg).source ≠ k := hsource
          rcases hout with hout | hout
          · simp [hout, lane, hcurrent, Option.filter_some, hsource, hnot]
          · simp [hout, lane, hcurrent, Option.filter_some, hsource]
        rw [view_setThread_same ht hlane]
        exact .stay _

theorem move_output (hs : s.output i = some s') : Move (s.view k) none (s'.view k) := by
  unfold output at hs
  cases ht : s.workerThreads[i]? with
  | none => simp [ht] at hs
  | some t =>
    cases hout : t.outQ with
    | nil =>
      obtain rfl : s = s' := by simpa [ht, hout] using hs
      exact .stay _
    | cons msg rest =>
      simp only [ht, hout, Option.some.injEq] at hs
      subst hs
      by_cases hsource : msg.source = k
      · have hlane : lane k t = ⟨t.inQ.filter fun m => m.source = k,
            t.current.filter fun m => m.source = k,
            (rest.countP fun m => m.source = k) + 1⟩ := by
          simp [lane, hout, hsource]
        have hmove := Move.cleanup (v := s.view k) (by rw [view_lane k ht, hlane])
        have hview : view k ((s.setThread i { t with outQ := rest }).unassign msg.source) =
            { s.view k with
              count := s.count k - 1
              threadId := if s.count k - 1 = 0 then -1 else s.threadId k }.setLane i
                (lane k { t with outQ := rest }) := by
          obtain ⟨hcount, hid⟩ := unassign_self (s.setThread i { t with outQ := rest }) k
          rw [hsource]
          simp only [view, hcount, hid, unassign_calls, unassign_workerThreads]
          simp only [setThread, SourceView.setLane, List.map_set]
          rfl
        rw [hview]
        exact hmove
      · have hlane : lane k { t with outQ := rest } = lane k t := by
          simp [lane, hout, hsource]
        obtain ⟨hcount, hid⟩ := unassign_other (s := s.setThread i { t with outQ := rest })
          (Ne.symm hsource)
        have hview : view k ((s.setThread i { t with outQ := rest }).unassign msg.source) =
            (s.setThread i { t with outQ := rest }).view k := by
          simp only [view, hcount, hid, unassign_calls, unassign_workerThreads]
        rw [hview, view_setThread_same ht hlane]
        exact .stay _

theorem move_pushOut (hk : k ≠ (0, 0)) {id : ℕ} (text : Bytes)
    (ht : s.workerThreads[id]? = some t) : Move (s.view k) none
      ((s.setThread id (t.pushOut ⟨(0, 0), 0, some (cstr "json"), some text⟩).1).view k) := by
  have hlane : lane k (t.pushOut ⟨(0, 0), 0, some (cstr "json"), some text⟩).1 = lane k t := by
    rcases t.pushOut_cases ⟨(0, 0), 0, some (cstr "json"), some text⟩ with hout | hout
    · rw [hout]
      simp [lane, Ne.symm hk]
    · rw [hout]
  rw [view_setThread_same ht hlane]
  exact .stay _

theorem move_outgoing (hk : k ≠ (0, 0)) (caller : Option ℕ) (text : Bytes) (immediate : Bool) :
    Move (s.view k) none ((s.outgoing caller text immediate).view k) := by
  unfold outgoing
  cases immediate with
  | true => exact .stay _
  | false =>
    cases caller with
    | none =>
      simp only [Bool.false_eq_true, ↓reduceIte, Option.getD_none, Option.isSome_none]
      cases ht : s.workerThreads[s.lastId]? with
      | none => exact .stay _
      | some t => exact move_pushOut (s := { s with lastId := _ }) hk text ht
    | some id =>
      simp only [Bool.false_eq_true, ↓reduceIte, Option.getD_some, Option.isSome_some]
      cases ht : s.workerThreads[id]? with
      | none => exact .stay _
      | some t => exact move_pushOut hk text ht

theorem move_start (n : ℕ) : Move (s.view k) none ((s.startThreads n).view k) := by
  have hview : (s.startThreads n).view k = { s.view k with
      lanes := (s.view k).lanes ++ List.replicate (n - s.workerThreads.length) .empty } := by
    simp only [view, startThreads, List.map_append, List.map_map, List.map_replicate]
    rfl
  rw [hview]
  exact .start _ _

theorem move_stop (hs : s.stopThread i = some s') : Move (s.view k) none (s'.view k) := by
  unfold stopThread at hs
  cases ht : s.workerThreads[i]? with
  | none => simp [ht] at hs
  | some t =>
    simp only [ht, Option.ite_none_right_eq_some, Option.some.injEq] at hs
    obtain ⟨-, rfl⟩ := hs
    have hview : (s.setThread i { t with running := false }).view k = s.view k :=
      view_setThread_same ht rfl
    rw [hview]
    exact .stay _

/-- A step of the manager is a move of the source. -/
theorem move_step (hk : k ≠ (0, 0)) {a : ManagerAct} (hone : OneCall k s a)
    (hs : (machine byteStreamDecode).step s a = some s') :
    Move (s.view k) (event byteStreamDecode k s a) (s'.view k) := by
  cases a with
  | incoming caller form source timestamp rand =>
    obtain ⟨-, rfl⟩ : s.calls.length < 2 ^ 32 ∧ _ = s' := by simpa [machine] using hs
    exact move_incoming hk hone
  | push call => exact move_push hs
  | beginWork thread => exact move_beginWork hs
  | endWork thread => exact move_endWork hs
  | outgoing caller text immediate =>
    obtain rfl := Option.some.inj hs
    exact move_outgoing hk caller text immediate
  | output thread => exact move_output hs
  | start n =>
    obtain ⟨-, rfl⟩ : n < 2 ^ 31 ∧ _ = s' := by simpa [machine] using hs
    exact move_start n
  | stop thread => exact move_stop hs
  | setStrategy strategy =>
    obtain rfl := Option.some.inj hs
    exact .stay _
  | setOverflow overflow =>
    obtain rfl := Option.some.inj hs
    exact .stay _

theorem inOrder_init : InOrder [] (init.view k) := by
  refine ⟨⟨0, rfl, le_rfl⟩, ?_, ?_, ?_, ?_, ?_⟩ <;>
    simp [view, init, SourceView.waiting, handled, queued]

theorem inOrder_run (hk : k ≠ (0, 0)) {acts : List ManagerAct} {log : List SourceEvent}
    (hlog : (machine byteStreamDecode).events (event byteStreamDecode k) init acts = log)
    (hobeys : (machine byteStreamDecode).Obeys (OneCall k) init acts)
    (hrun : (machine byteStreamDecode).run init acts = some s)
    (hbound : (given log).length < 2 ^ 64) : InOrder log (s.view k) := by
  let Inv (log : List SourceEvent) (s : MessageManager) : Prop :=
    (given log).length < 2 ^ 64 → InOrder log (s.view k)
  have hstep (log : List SourceEvent) (s : MessageManager) (a : ManagerAct) (s' : MessageManager)
      (h : Inv log s) (hone : OneCall k s a) (hs : (machine byteStreamDecode).step s a = some s') :
      Inv (log ++ (event byteStreamDecode k s a).toList) s' := by
    intro hlog
    have hbefore : (given log).length < 2 ^ 64 := by
      rw [given, List.filterMap_append, List.length_append] at hlog
      exact lt_of_le_of_lt (Nat.le_add_right _ _) hlog
    exact (move_step hk hone hs).inOrder (h hbefore) hbefore
  have hinit : Inv [] init := fun _ => inOrder_init
  have hinv := Machine.events_invariant hstep hinit hobeys hrun
  rw [List.nil_append, hlog] at hinv
  exact hinv hbound

end Moves

def workedLog : List SourceEvent := (machine id).events (event id (3, 7)) init workedRun

end MessageManager
end V2IHub.Utils
