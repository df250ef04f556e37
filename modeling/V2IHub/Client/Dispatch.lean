import V2IHub.Client.MessageFilter
import V2IHub.Messages.ContentsReuse

/-! The message handlers of a plugin, and which of them a routed message reaches. -/
namespace V2IHub.Client
open Foundation Api Router Messages Messages.Routed

/-- The part of a `PluginClient` that is about its handlers. `allocators` holds the static local
of each instance of `register_handler`; a null pointer in the map of handlers is as good as no
entry. -/
structure PluginClient (κ η : Type) where
  msgFilter : Option Json.CJson
  allocators : κ → Option η
  msgHandlers : Bytes × Bytes → Option η

namespace PluginClient
variable {κ η : Type} [DecidableEq κ] (names : κ → Bytes × Bytes)

/-- No handler has been registered in the process. -/
def create : PluginClient κ η := ⟨none, fun _ => none, fun _ => none⟩

/-- The allocator is made once for an instance of the template, whatever the handler. -/
def registerHandler (client : PluginClient κ η) (k : κ) (handler : η) : PluginClient κ η :=
  let allocator := (client.allocators k).getD handler
  { client with
    allocators := Function.update client.allocators k (some allocator)
    msgHandlers := Function.update client.msgHandlers (names k) (some allocator) }

/-- The filter of the template of `AddMessageFilter` for a type of messages. -/
def request (k : κ) : FilterRequest := ⟨some (names k).1, some (names k).2, 0⟩

/-- `AddMessageFilter<MsgType>` -/
def addHandler (client : PluginClient κ η) (r : κ × η) : PluginClient κ η :=
  registerHandler names
    { client with msgFilter := addMessageFilter client.msgFilter (request names r.1) } r.1 r.2

/-- The plugin after these calls. -/
def withHandlers (rs : List (κ × η)) : PluginClient κ η := rs.foldl (addHandler names) create

/-- The handler that `OnMessageReceived` invokes. -/
def invoked (now : BitVec 64) (client : PluginClient κ η) (msg : IvpMessage) : Option η := do
  let routeableMsg ← Routed.new.setContents now (some msg)
  let type ← routeableMsg.value .type
  let subtype ← routeableMsg.value .subtype
  client.msgHandlers (type, subtype)

/-- What is in the tables: each instance has the handler it was first called with, and each pair of
names the handler of the instance that was last called for it. -/
structure Registered (client : PluginClient κ η) (rs : List (κ × η)) : Prop where
  filter : client.msgFilter = builtFilter (rs.map fun r => request names r.1)
  allocators : ∀ k, client.allocators k = (rs.find? fun r => r.1 = k).map Prod.snd
  handlers : ∀ key, client.msgHandlers key =
    (rs.reverse.find? fun r => names r.1 = key).bind fun last =>
      (rs.find? fun r => r.1 = last.1).map Prod.snd

variable {names}

theorem find_concat {rs : List (κ × η)} (r : κ × η) (k : κ) :
    ((rs ++ [r]).find? fun x => x.1 = k).map Prod.snd =
      ((rs.find? fun x => x.1 = k).map Prod.snd).or (if r.1 = k then some r.2 else none) := by
  rw [List.find?_append]
  cases rs.find? fun x => x.1 = k with
  | some x => rfl
  | none =>
    by_cases hk : r.1 = k
    · simp [hk]
    · simp [hk]

theorem registered_add {client : PluginClient κ η} {rs : List (κ × η)}
    (h : Registered names client rs) (r : κ × η) :
    Registered names (addHandler names client r) (rs ++ [r]) := by
  constructor
  · rw [List.map_append, List.map_singleton, ← builtFilter_concat, ← h.filter]
    rfl
  · intro k
    rw [find_concat, ← h.allocators]
    by_cases hk : r.1 = k
    · subst hk
      simp only [addHandler, registerHandler, Function.update_self, if_true]
      cases client.allocators r.1 <;> rfl
    · simp only [addHandler, registerHandler, Function.update_of_ne (Ne.symm hk), if_neg hk,
        Option.or_none]
  · intro key
    rw [List.reverse_append, List.reverse_singleton, List.singleton_append, List.find?_cons]
    by_cases hkey : names r.1 = key
    · subst hkey
      simp only [decide_true, Option.bind_some, find_concat, if_true, ← h.allocators]
      simp only [addHandler, registerHandler, Function.update_self]
      cases client.allocators r.1 <;> rfl
    · simp only [hkey, decide_false]
      simp only [addHandler, registerHandler, Function.update_of_ne (Ne.symm hkey), h.handlers]
      cases hlast : rs.reverse.find? fun x => names x.1 = key with
      | none => rfl
      | some last =>
        -- an instance that has been called before keeps its handler
        have hmem : last ∈ rs := List.mem_reverse.mp (List.mem_of_find?_eq_some hlast)
        obtain ⟨first, hfirst⟩ : ∃ first, (rs.find? fun x => x.1 = last.1) = some first := by
          rw [← Option.isSome_iff_exists, List.find?_isSome]
          exact ⟨last, hmem, by simp⟩
        simp only [Option.bind_some, find_concat, hfirst, Option.map_some, Option.some_or]

theorem registered_withHandlers (rs : List (κ × η)) :
    Registered names (withHandlers names rs) rs := by
  induction rs using List.reverseRecOn with
  | nil => exact ⟨rfl, fun _ => rfl, fun _ => rfl⟩
  | append_singleton rs r ih =>
    have hstep : withHandlers names (rs ++ [r]) = addHandler names (withHandlers names rs) r :=
      List.foldl_concat ..
    rw [hstep]
    exact registered_add ih r

theorem isSome_handler_iff {client : PluginClient κ η} {rs : List (κ × η)}
    (h : Registered names client rs) (key : Bytes × Bytes) :
    (client.msgHandlers key).isSome ↔ ∃ r ∈ rs, names r.1 = key := by
  rw [h.handlers]
  constructor
  · intro hsome
    obtain ⟨handler, hbind⟩ := Option.isSome_iff_exists.mp hsome
    obtain ⟨last, hlast, -⟩ := Option.bind_eq_some_iff.mp hbind
    exact ⟨last, List.mem_reverse.mp (List.mem_of_find?_eq_some hlast),
      by simpa using List.find?_some hlast⟩
  · rintro ⟨r, hr, hkey⟩
    obtain ⟨last, hlast⟩ : ∃ last, (rs.reverse.find? fun x => names x.1 = key) = some last := by
      rw [← Option.isSome_iff_exists, List.find?_isSome]
      exact ⟨r, List.mem_reverse.mpr hr, by simpa using hkey⟩
    have hmem : last ∈ rs := List.mem_reverse.mp (List.mem_of_find?_eq_some hlast)
    rw [hlast, Option.bind_some, Option.isSome_map, List.find?_isSome]
    exact ⟨last, hmem, by simp⟩

omit [DecidableEq κ] in
/-- A message with a type and a subtype reaches the handler for them. -/
theorem invoked_eq {client : PluginClient κ η} (now : BitVec 64) {msg : IvpMessage}
    {type subtype : Bytes} (htype : msg.type = some type) (hsubtype : msg.subtype = some subtype) :
    client.invoked now msg = client.msgHandlers (type, subtype) := by
  obtain ⟨r, m, hset, hto⟩ := (setContents_iff now new_valid msg).1 (new_accepts msg)
  have hread : Header.type.attr.read msg = some type := htype
  have hread' : Header.subtype.attr.read msg = some subtype := hsubtype
  have hvalue := (hto.texts .type (by simp) (hread ▸ rfl)).2.trans hread
  have hvalue' := (hto.texts .subtype (by simp) (hread' ▸ rfl)).2.trans hread'
  simp only [invoked, hset, hvalue, hvalue', Option.bind_eq_bind, Option.bind_some]
  rfl

variable (names)

/-- The names of the types are text, and no wildcards. -/
def Proper : Prop :=
  ∀ k, (cstringAt (names k).1 = (names k).1 ∧ cstringAt (names k).2 = (names k).2) ∧
    (names k).1 ≠ STAR ∧ (names k).2 ≠ STAR

variable {names}

omit [DecidableEq κ] in
/-- A request of the template wants the messages of its names. -/
theorem wants_request_iff (hnames : Proper names) (k : κ) (msg : IvpMessage) :
    (request names k).Wants msg ↔
      msg.type = some (names k).1 ∧ msg.subtype = some (names k).2 := by
  obtain ⟨⟨htype, hsubtype⟩, hstar, hstar'⟩ := hnames k
  simp [FilterRequest.Wants, request, htype, hsubtype, hstar, hstar']

/-- However often and in whatever order a plugin adds filters with handlers: of the messages of
other plugins the router sends it exactly those, with a type and a subtype, that a handler is
invoked for. That is the first handler that its instance of the template was called with, of the
instance that was called last for these names. -/
theorem handlers_match_subscription (hnames : Proper names) (rs : List (κ × η)) :
    (withHandlers names rs).msgFilter = builtFilter (rs.map fun r => request names r.1) ∧
      ∀ (R : Type) [DecidableEq R] (map : ReceiverMap R) (sender : Option R) (receiver : R)
        (msg : IvpMessage) (now : BitVec 64),
        map.lookup receiver = some (requestedEntries (rs.map fun r => request names r.1)) →
        sender ≠ some receiver →
        (receiver ∈ broadcastMessage map sender msg ↔ ∃ type subtype, msg.type = some type ∧
          msg.subtype = some subtype ∧ ((withHandlers names rs).invoked now msg).isSome) ∧
        ∀ handler, receiver ∈ broadcastMessage map sender msg →
          (withHandlers names rs).invoked now msg = some handler →
          ∃ last, (rs.reverse.find? fun r => msg.type = some (names r.1).1 ∧
              msg.subtype = some (names r.1).2) = some last ∧
            (rs.find? fun r => r.1 = last.1).map Prod.snd = some handler := by
  have hregistered : Registered names (withHandlers names rs) rs :=
    registered_withHandlers rs
  refine ⟨hregistered.filter, fun R _ map sender receiver msg now hmap hsender => ?_⟩
  have hdelivered : receiver ∈ broadcastMessage map sender msg ↔
      ∃ r ∈ rs, msg.type = some (names r.1).1 ∧ msg.subtype = some (names r.1).2 := by
    rw [mem_broadcastMessage_requested msg hmap]
    simp only [ne_eq, hsender, not_false_eq_true, true_and, List.mem_map,
      exists_exists_and_eq_and, wants_request_iff hnames]
  constructor
  · rw [hdelivered]
    constructor
    · rintro ⟨r, hr, htype, hsubtype⟩
      refine ⟨_, _, htype, hsubtype, ?_⟩
      rw [invoked_eq now htype hsubtype, isSome_handler_iff hregistered]
      exact ⟨r, hr, rfl⟩
    · rintro ⟨type, subtype, htype, hsubtype, hsome⟩
      rw [invoked_eq now htype hsubtype, isSome_handler_iff hregistered] at hsome
      obtain ⟨r, hr, hkey⟩ := hsome
      exact ⟨r, hr, by rw [htype, hkey], by rw [hsubtype, hkey]⟩
  · intro handler hmem hinvoked
    obtain ⟨r, hr, htype, hsubtype⟩ := hdelivered.mp hmem
    rw [invoked_eq now htype hsubtype, hregistered.handlers] at hinvoked
    obtain ⟨last, hlast, hhandler⟩ := Option.bind_eq_some_iff.mp hinvoked
    refine ⟨last, ?_, hhandler⟩
    rw [← hlast]
    congr 1
    funext x
    simp [htype, hsubtype, Prod.ext_iff, eq_comm]

/-- Two types of messages. -/
def sampleNames (bsm : Bool) : Bytes × Bytes :=
  (cstr "J2735", if bsm then cstr "BSM" else cstr "SPAT")

def sampleHandlers : List (Bool × ℕ) := [(true, 1), (false, 2), (true, 3)]

def sampleBsm : IvpMessage := .create 0 (some (cstr "J2735")) (some (cstr "BSM")) none 0 none

def sampleMap : ReceiverMap ℕ :=
  AList.insert 7 (requestedEntries (sampleHandlers.map fun r => request sampleNames r.1)) ∅

/-- The second handler for the same type is never called. -/
theorem handlers_match_subscription_sample :
    7 ∈ broadcastMessage sampleMap none sampleBsm ∧
      (withHandlers sampleNames sampleHandlers).invoked 0 sampleBsm = some 1 := by
  have hnames : Proper sampleNames := by
    intro k
    cases k <;> decide
  have hmatch := (handlers_match_subscription hnames sampleHandlers).2 ℕ sampleMap none 7
    sampleBsm 0 (AList.lookup_insert _) (by simp)
  have hdelivered : 7 ∈ broadcastMessage sampleMap none sampleBsm := by decide
  obtain ⟨-, -, -, -, hsome⟩ := hmatch.1.mp hdelivered
  obtain ⟨handler, hinvoked⟩ := Option.isSome_iff_exists.mp hsome
  obtain ⟨last, hlast, hhandler⟩ := hmatch.2 handler hdelivered hinvoked
  have hthird : (sampleHandlers.reverse.find? fun r =>
      sampleBsm.type = some (sampleNames r.1).1 ∧ sampleBsm.subtype = some (sampleNames r.1).2) =
      some (true, 3) := by decide
  obtain rfl := Option.some.inj (hthird.symm.trans hlast)
  exact ⟨hdelivered, hinvoked.trans hhandler.symm⟩

end PluginClient
end V2IHub.Client
