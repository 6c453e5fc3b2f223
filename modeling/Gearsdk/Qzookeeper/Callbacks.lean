import Gearsdk.OrderedMap
import Gearsdk.Responder
import Mathlib.Data.Finset.Erase
import Mathlib.Data.Finset.Filter
import Mathlib.Data.Finset.Insert

/-! The callbacks for changed values that the ZooKeeper clients of both languages keep,
against the set of the pairs of a callback and a context that are registered. -/
namespace Gearsdk
open Std

/-- A function and a context are known by their identity alone. -/
abbrev Callback := Nat

abbrev Context := Nat

inductive CallbackCall where
  | registerValueChangeCallback (callback : Callback) (context : Context)
  | unregisterValueChangeCallback (callback : Callback) (context : Context)

namespace CallbackCall

def callback : CallbackCall → Callback
  | registerValueChangeCallback callback _ | unregisterValueChangeCallback callback _ => callback

def context : CallbackCall → Context
  | registerValueChangeCallback _ context | unregisterValueChangeCallback _ context => context

/-- The set of registered pairs. The answer to a call is what a broadcast invokes after it. -/
def pairs :
    Responder (Finset (Callback × Context)) CallbackCall (Multiset (Callback × Context)) where
  init := ∅
  call
    | registered, .registerValueChangeCallback callback context =>
        let registered := insert (callback, context) registered
        (registered, registered.val)
    | registered, .unregisterValueChangeCallback callback context =>
        let registered := registered.erase (callback, context)
        (registered, registered.val)

end CallbackCall

/-! ### The client of the servers: a `std::map` -/
namespace Qzookeeper

abbrev Callbacks := TreeMap Callback Context

def registerValueChangeCallback (callbacks : Callbacks) (callback : Callback) (context : Context) :
    Callbacks :=
  if callback ∈ callbacks then callbacks else callbacks.insert callback context

/-- The context is not used. -/
def unregisterValueChangeCallback (callbacks : Callbacks) (callback : Callback) (_ : Context) :
    Callbacks :=
  if callback ∈ callbacks then callbacks.erase callback else callbacks

/-- What `broadcast_value_change_to_all` calls, with the path and the data besides. -/
def invoked (callbacks : Callbacks) : List (Callback × Context) := callbacks.toList

end Qzookeeper

/-! ### The client of the TypeScript servers: a `Map` in the order of insertion -/
namespace QzookeeperTs

abbrev Callbacks := List (Callback × Context)

def has (callbacks : Callbacks) (callback : Callback) : Bool :=
  callbacks.any fun entry => entry.1 = callback

def registerValueChangeCallback (callbacks : Callbacks) (callback : Callback) (context : Context) :
    Callbacks :=
  if has callbacks callback then callbacks else callbacks ++ [(callback, context)]

def unregisterValueChangeCallback (callbacks : Callbacks) (callback : Callback) (_ : Context) :
    Callbacks :=
  if has callbacks callback then callbacks.filter fun entry => entry.1 ≠ callback else callbacks

/-- What the `forEach` of the watcher calls. -/
def invoked (callbacks : Callbacks) : List (Callback × Context) := callbacks

end QzookeeperTs

/-! ### A map from callbacks to contexts against the set of pairs -/

/-- A registry that keeps the first context of a callback and forgets a callback whatever
the context. -/
structure KeyedRegistry (S : Type) where
  init : S
  register : S → Callback → Context → S
  unregister : S → Callback → Context → S
  invoked : S → List (Callback × Context)
  invoked_init : invoked init = []
  register_found : ∀ s callback other context, (callback, other) ∈ invoked s →
    register s callback context = s
  register_new : ∀ s callback context, (∀ other, (callback, other) ∉ invoked s) →
    (invoked (register s callback context)).Perm ((callback, context) :: invoked s)
  unregister_invoked : ∀ s callback context,
    (invoked (unregister s callback context)).Perm ((invoked s).filter fun entry =>
      entry.1 ≠ callback)

namespace KeyedRegistry
open CallbackCall
variable {S : Type} {r : KeyedRegistry S} {s : S} {registered : Finset (Callback × Context)}

def responder (r : KeyedRegistry S) : Responder S CallbackCall (Multiset (Callback × Context)) where
  init := r.init
  call
    | s, .registerValueChangeCallback callback context =>
        let s := r.register s callback context
        (s, r.invoked s)
    | s, .unregisterValueChangeCallback callback context =>
        let s := r.unregister s callback context
        (s, r.invoked s)

/-- A broadcast invokes the registered pairs, and no callback is registered with two contexts. -/
structure Matches (r : KeyedRegistry S) (s : S) (registered : Finset (Callback × Context)) :
    Prop where
  invoked : (r.invoked s : Multiset (Callback × Context)) = registered.val
  single : ∀ callback context other, (callback, context) ∈ registered →
    (callback, other) ∈ registered → context = other

/-- The callback of a call is registered with the context of the call, if it is registered. -/
def SameContext (registered : Finset (Callback × Context)) (call : CallbackCall) : Prop :=
  ∀ context, (call.callback, context) ∈ registered → context = call.context

theorem Matches.init (r : KeyedRegistry S) : r.Matches r.init ∅ :=
  ⟨by rw [r.invoked_init]; rfl, fun _ _ _ member => absurd member (Finset.notMem_empty _)⟩

theorem Matches.mem_iff (matched : r.Matches s registered) (entry : Callback × Context) :
    entry ∈ r.invoked s ↔ entry ∈ registered := by
  rw [← Multiset.mem_coe, matched.invoked, Finset.mem_val]

theorem Matches.register_iff (matched : r.Matches s registered) (callback : Callback)
    (context : Context) :
    (r.invoked (r.register s callback context) : Multiset (Callback × Context)) =
      (insert (callback, context) registered).val ↔
      SameContext registered (.registerValueChangeCallback callback context) := by
  by_cases found : ∃ other, (callback, other) ∈ r.invoked s
  · obtain ⟨other, found⟩ := found
    have kept := (matched.mem_iff _).mp found
    rw [r.register_found _ _ _ _ found, matched.invoked, Finset.val_inj, eq_comm,
      Finset.insert_eq_self]
    constructor
    · intro member another present
      exact matched.single callback another context present member
    · intro same
      obtain rfl : other = context := same other kept
      exact kept
  · have fresh : ∀ other, (callback, other) ∉ registered := fun other member =>
      found ⟨other, (matched.mem_iff _).mpr member⟩
    refine iff_of_true ?_ fun other member => absurd member (fresh other)
    have grown := r.register_new s callback context fun other member => found ⟨other, member⟩
    rw [Multiset.coe_eq_coe.mpr grown, ← Multiset.cons_coe, matched.invoked,
      Finset.insert_val_of_notMem (fresh context)]

theorem Matches.unregister_iff (matched : r.Matches s registered) (callback : Callback)
    (context : Context) :
    (r.invoked (r.unregister s callback context) : Multiset (Callback × Context)) =
      (registered.erase (callback, context)).val ↔
      SameContext registered (.unregisterValueChangeCallback callback context) := by
  have remaining : (r.invoked (r.unregister s callback context) : Multiset (Callback × Context)) =
      (registered.filter fun entry => entry.1 ≠ callback).val := by
    rw [Multiset.coe_eq_coe.mpr (r.unregister_invoked s callback context), ← Multiset.filter_coe,
      matched.invoked, Finset.filter_val]
  rw [remaining, Finset.val_inj, Finset.ext_iff]
  simp only [Finset.mem_filter, Finset.mem_erase, Prod.forall, Prod.mk.injEq, ne_eq, not_and]
  constructor
  · intro same other member
    by_contra different
    exact ((same callback other).mpr ⟨fun _ => different, member⟩).2 rfl
  · intro same first second
    constructor
    · rintro ⟨member, other⟩
      exact ⟨fun here => absurd here other, member⟩
    · rintro ⟨kept, member⟩
      refine ⟨member, ?_⟩
      rintro rfl
      exact kept rfl (same second member)

theorem Matches.answer_iff (matched : r.Matches s registered) (call : CallbackCall) :
    (r.responder.call s call).2 = (pairs.call registered call).2 ↔ SameContext registered call := by
  cases call with
  | registerValueChangeCallback callback context => exact matched.register_iff callback context
  | unregisterValueChangeCallback callback context => exact matched.unregister_iff callback context

theorem Matches.next (matched : r.Matches s registered) (call : CallbackCall)
    (same : SameContext registered call) :
    r.Matches (r.responder.call s call).1 (pairs.call registered call).1 := by
  have answered := (matched.answer_iff call).mpr same
  cases call with
  | registerValueChangeCallback callback context =>
    refine ⟨answered, fun first second third left right => ?_⟩
    simp only [pairs, Finset.mem_insert, Prod.mk.injEq] at left right
    rcases left with ⟨rfl, rfl⟩ | before
    · rcases right with ⟨_, rfl⟩ | other
      · rfl
      · exact (same third other).symm
    · rcases right with ⟨rfl, rfl⟩ | other
      · exact same second before
      · exact matched.single first second third before other
  | unregisterValueChangeCallback callback context =>
    exact ⟨answered, fun first second third left right =>
      matched.single first second third (Finset.mem_of_mem_erase left) (Finset.mem_of_mem_erase right)⟩

theorem answers_eq_iff (r : KeyedRegistry S) (calls : List CallbackCall) :
    r.responder.answers calls = pairs.answers calls ↔
      ∀ before call later, calls = before ++ call :: later →
        SameContext (pairs.after before) call :=
  Responder.answers_eq_iff (Matches.init r) (fun call matched => matched.answer_iff call)
    (fun call matched same => matched.next call same) calls

end KeyedRegistry

open KeyedRegistry

theorem Qzookeeper.mem_invoked (callbacks : Qzookeeper.Callbacks) (entry : Callback × Context) :
    entry ∈ Qzookeeper.invoked callbacks ↔ callbacks[entry.1]? = some entry.2 :=
  TreeMap.mem_toList_iff_getElem?_eq_some

def Qzookeeper.callbackRegistry : KeyedRegistry Qzookeeper.Callbacks where
  init := ∅
  register := Qzookeeper.registerValueChangeCallback
  unregister := Qzookeeper.unregisterValueChangeCallback
  invoked := Qzookeeper.invoked
  invoked_init := rfl
  register_found := by
    intro callbacks callback other context found
    exact if_pos (OrderedMap.mem_of_lookup ((Qzookeeper.mem_invoked callbacks _).mp found))
  register_new := by
    intro callbacks callback context fresh
    have absent : callback ∉ callbacks := by
      intro member
      obtain ⟨other, found⟩ := OrderedMap.mem_iff_lookup.mp member
      exact fresh other ((Qzookeeper.mem_invoked callbacks _).mpr found)
    rw [Qzookeeper.registerValueChangeCallback, if_neg absent]
    exact OrderedMap.toList_insert_new callbacks context absent
  unregister_invoked := by
    intro callbacks callback context
    refine (List.perm_ext_iff_of_nodup (OrderedMap.toList_nodup _)
      ((OrderedMap.toList_nodup _).filter _)).mpr ?_
    rintro ⟨other, value⟩
    simp only [List.mem_filter, TreeMap.mem_toList_iff_getElem?_eq_some, decide_eq_true_eq,
      Qzookeeper.unregisterValueChangeCallback]
    split
    · rw [OrderedMap.lookup_erase]
      by_cases same : callback = other
      · simp [same]
      · simp [same, Ne.symm same]
    · rename_i absent
      refine ⟨fun found => ⟨found, ?_⟩, And.left⟩
      rintro rfl
      exact absent (OrderedMap.mem_of_lookup found)

theorem QzookeeperTs.has_iff (callbacks : QzookeeperTs.Callbacks) (callback : Callback) :
    QzookeeperTs.has callbacks callback = true ↔ ∃ context, (callback, context) ∈ callbacks := by
  simp [QzookeeperTs.has]

def QzookeeperTs.callbackRegistry : KeyedRegistry QzookeeperTs.Callbacks where
  init := []
  register := QzookeeperTs.registerValueChangeCallback
  unregister := QzookeeperTs.unregisterValueChangeCallback
  invoked := QzookeeperTs.invoked
  invoked_init := rfl
  register_found := by
    intro callbacks callback other context found
    exact if_pos ((QzookeeperTs.has_iff callbacks callback).mpr ⟨other, found⟩)
  register_new := by
    intro callbacks callback context fresh
    have absent : ¬ QzookeeperTs.has callbacks callback = true := by
      rw [QzookeeperTs.has_iff]
      rintro ⟨other, found⟩
      exact fresh other found
    rw [QzookeeperTs.registerValueChangeCallback, if_neg absent]
    exact List.perm_append_singleton _ callbacks
  unregister_invoked := by
    intro callbacks callback context
    rw [QzookeeperTs.unregisterValueChangeCallback]
    split
    · rfl
    · rename_i absent
      rw [QzookeeperTs.has_iff] at absent
      refine List.Perm.of_eq (List.filter_eq_self.mpr fun entry member => ?_).symm
      rw [decide_eq_true_eq]
      rintro rfl
      exact absent ⟨entry.2, member⟩

/-- In both clients the broadcasts invoke the registered pairs just as long as no callback is
registered or unregistered with another context than the one it is registered with. -/
theorem callbacks_invoked_iff (calls : List CallbackCall) :
    (Qzookeeper.callbackRegistry.responder.answers calls = CallbackCall.pairs.answers calls ↔
      ∀ before call later, calls = before ++ call :: later →
        SameContext (CallbackCall.pairs.after before) call) ∧
    (QzookeeperTs.callbackRegistry.responder.answers calls = CallbackCall.pairs.answers calls ↔
      ∀ before call later, calls = before ++ call :: later →
        SameContext (CallbackCall.pairs.after before) call) :=
  ⟨KeyedRegistry.answers_eq_iff _ calls, KeyedRegistry.answers_eq_iff _ calls⟩

/-- One function registered for two objects, and for the second no longer. -/
def sharedCallback : List CallbackCall :=
  [.registerValueChangeCallback 1 10, .registerValueChangeCallback 1 11,
    .unregisterValueChangeCallback 1 11]

theorem sharedCallback_invoked :
    Qzookeeper.callbackRegistry.responder.answers sharedCallback ≠
      CallbackCall.pairs.answers sharedCallback ∧
    QzookeeperTs.callbackRegistry.responder.answers sharedCallback ≠
      CallbackCall.pairs.answers sharedCallback := by
  decide +kernel

end Gearsdk
