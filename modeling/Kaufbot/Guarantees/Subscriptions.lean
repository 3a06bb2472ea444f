import Kaufbot.Infra.EventBus
import Kaufbot.Library.Machine
import Mathlib.Logic.Function.Basic

/-!
What the event bus is for, as a list of handlers with their user data for each
event type, and the refinement: every run of the code answers as that list
does. The handlers do not call the bus themselves, so a publication changes
nothing.
-/

namespace Kaufbot

open Machine Runs

/-- What the bus is for: the handlers of each type with their user data, in the order of their
subscriptions. -/
abbrev Subscriptions (Handler Userdata : Type) := Fin eventCount → List (Handler × Option Userdata)

section Steps
variable {Handler Userdata : Type} [DecidableEq Handler]

def Subscriptions.none : Subscriptions Handler Userdata := fun _ => []

def Subscriptions.subscribe (subs : Subscriptions Handler Userdata) (type : Fin eventCount)
    (handler : Handler) (userdata : Option Userdata) : Subscriptions Handler Userdata × Int :=
  if (subs type).length < eventBusMaxSubscribers then
    (Function.update subs type (subs type ++ [(handler, userdata)]), 0)
  else (subs, -1)

/-- The earliest entry with the handler goes. -/
def Subscriptions.unsubscribe (subs : Subscriptions Handler Userdata) (type : Fin eventCount)
    (handler : Handler) : Subscriptions Handler Userdata × Int :=
  if (subs type).any (fun entry => entry.1 = handler) then
    (Function.update subs type ((subs type).eraseP (fun entry => entry.1 = handler)), 0)
  else (subs, -1)

def Subscriptions.publish (subs : Subscriptions Handler Userdata) (type : Fin eventCount)
    (data : Option CString) : List (HandlerCall Handler Userdata) :=
  (subs type).map (fun entry =>
    { handler := entry.1, type := type, data := data, userdata := entry.2 })

/-- A NULL handler or a number that is no event type is refused. -/
def subscriptionsStep (subs : Subscriptions Handler Userdata) :
    BusOp Handler Userdata → Subscriptions Handler Userdata × BusAnswer Handler Userdata
  | .subscribe type (some handler) userdata =>
      if htype : type < eventCount then
        let (subs, rc) := subs.subscribe ⟨type, htype⟩ handler userdata
        (subs, .status rc)
      else (subs, .status (-1))
  | .unsubscribe type (some handler) =>
      if htype : type < eventCount then
        let (subs, rc) := subs.unsubscribe ⟨type, htype⟩ handler
        (subs, .status rc)
      else (subs, .status (-1))
  | .subscribe _ none _ | .unsubscribe _ none => (subs, .status (-1))
  | .publish type data =>
      if htype : type < eventCount then (subs, .calls (subs.publish ⟨type, htype⟩ data))
      else (subs, .calls [])

end Steps

/-- The slot of an entry. -/
def Subscriber.of {Handler Userdata : Type} (entry : Handler × Option Userdata) :
    Subscriber Handler Userdata where
  handler := some entry.1
  userdata := entry.2
  active := 1

/-- The slots of one event type. -/
def SimpleEventBus.ofType {Handler Userdata : Type} (bus : SimpleEventBus Handler Userdata)
    (type : Fin eventCount) : Slots (Subscriber Handler Userdata) eventBusMaxSubscribers :=
  bus.subscribers[type]

/-- The slots in use are the entries in order, and all others are zero. -/
structure Represents {Handler Userdata : Type} (bus : SimpleEventBus Handler Userdata)
    (subs : Subscriptions Handler Userdata) : Prop where
  entries : ∀ type, (bus.ofType type).toList = (subs type).map .of
  vacant : ∀ type, (bus.ofType type).Vacant .zero

section Represents
variable {Handler Userdata : Type} {bus : SimpleEventBus Handler Userdata}
  {subs : Subscriptions Handler Userdata}

theorem represents_new :
    Represents (eventBusNew : SimpleEventBus Handler Userdata) Subscriptions.none where
  entries := fun type => by simp [SimpleEventBus.ofType, eventBusNew, Subscriptions.none]
  vacant := fun type => by
    simpa [SimpleEventBus.ofType, eventBusNew] using Slots.vacant_zeroed _

theorem Represents.count (h : Represents bus subs) (type : Fin eventCount) :
    (bus.ofType type).count = (subs type).length := by
  rw [← Slots.length_toList, h.entries, List.length_map]

theorem ofType_set_of_ne {type other : Fin eventCount} (h : other ≠ type)
    (slots : Slots (Subscriber Handler Userdata) eventBusMaxSubscribers) :
    SimpleEventBus.ofType { subscribers := bus.subscribers.set type slots } other =
      bus.ofType other :=
  Vector.getElem_set_ne type.isLt other.isLt (fun heq => h (Fin.ext heq.symm))

/-- Replacing the slots of one type and its list leaves the other types alone. -/
theorem Represents.set (h : Represents bus subs) (type : Fin eventCount)
    {slots : Slots (Subscriber Handler Userdata) eventBusMaxSubscribers}
    {entries : List (Handler × Option Userdata)} (hentries : slots.toList = entries.map .of)
    (hvacant : slots.Vacant .zero) :
    Represents { subscribers := bus.subscribers.set type slots }
      (Function.update subs type entries) := by
  constructor
  · intro other
    by_cases heq : other = type
    · subst heq
      simpa [SimpleEventBus.ofType] using hentries
    · rw [ofType_set_of_ne heq, Function.update_of_ne heq]
      exact h.entries other
  · intro other
    by_cases heq : other = type
    · subst heq
      simpa [SimpleEventBus.ofType] using hvacant
    · rw [ofType_set_of_ne heq]
      exact h.vacant other

theorem Represents.subscribe (h : Represents bus subs) (type : Fin eventCount)
    (handler : Handler) (userdata : Option Userdata) :
    (busSubscribe bus type (some handler) userdata).2 =
        (subs.subscribe type handler userdata).2 ∧
      Represents (busSubscribe bus type (some handler) userdata).1
        (subs.subscribe type handler userdata).1 := by
  have count : bus.subscribers[type.val].count = (subs type).length := h.count type
  simp only [busSubscribe, Subscriptions.subscribe, Option.isNone_some, Bool.false_eq_true,
    if_false, type.isLt, dif_pos]
  by_cases room : (subs type).length < eventBusMaxSubscribers
  · rw [dif_pos (by rw [count]; exact room), if_pos room]
    refine ⟨rfl, h.set type ?_ ((h.vacant type).push _ _)⟩
    rw [Slots.toList_push, List.map_append]
    exact congrArg (· ++ _) (h.entries type)
  · rw [dif_neg (by rw [count]; exact room), if_neg room]
    exact ⟨rfl, h⟩

theorem removeSubscriber_spec [DecidableEq Handler]
    {slots : Slots (Subscriber Handler Userdata) eventBusMaxSubscribers}
    {entries : List (Handler × Option Userdata)} (hentries : slots.toList = entries.map .of)
    (hvacant : slots.Vacant .zero) (handler : Handler) :
    (removeSubscriber slots (some handler)).isSome =
        entries.any (fun entry => entry.1 = handler) ∧
      ∀ slots', removeSubscriber slots (some handler) = some slots' →
        slots'.toList = (entries.eraseP (fun entry => entry.1 = handler)).map .of ∧
          slots'.Vacant .zero := by
  constructor
  · rw [removeSubscriber, Option.isSome_map, Slots.search_isSome, hentries, List.any_map]
    simp only [Function.comp_def, Subscriber.of, Option.some.injEq]
  · intro slots' hslots
    obtain ⟨i, hi, rfl⟩ := Option.map_eq_some_iff.mp hslots
    refine ⟨?_, hvacant.erase_wipe i⟩
    rw [Slots.toList_wipe, Slots.toList_erase_search hi, hentries, List.eraseP_map]
    simp only [Function.comp_def, Subscriber.of, Option.some.injEq]

theorem Represents.unsubscribe [DecidableEq Handler] (h : Represents bus subs)
    (type : Fin eventCount) (handler : Handler) :
    (busUnsubscribe bus type (some handler)).2 = (subs.unsubscribe type handler).2 ∧
      Represents (busUnsubscribe bus type (some handler)).1
        (subs.unsubscribe type handler).1 := by
  obtain ⟨found, removed⟩ :=
    removeSubscriber_spec (h.entries type) (h.vacant type) handler
  simp only [busUnsubscribe, Subscriptions.unsubscribe, Option.isNone_some, Bool.false_eq_true,
    if_false, type.isLt, dif_pos]
  cases hremove : removeSubscriber bus.subscribers[type.val] (some handler) with
  | none =>
      have absent := found.symm.trans (congrArg Option.isSome hremove)
      rw [if_neg (by simp [absent])]
      exact ⟨rfl, h⟩
  | some slots =>
      have present := found.symm.trans (congrArg Option.isSome hremove)
      rw [Option.isSome_some] at present
      obtain ⟨hentries, hvacant⟩ := removed slots hremove
      rw [if_pos present]
      exact ⟨rfl, h.set type hentries hvacant⟩

theorem Represents.publish (h : Represents bus subs) (type : Fin eventCount)
    (data : Option CString) : busPublish bus type data = subs.publish type data := by
  have entries : bus.subscribers[type.val].toList = (subs type).map .of := h.entries type
  simp only [busPublish, type.isLt, dif_pos, entries, List.filterMap_map, Subscriptions.publish]
  exact congrFun List.filterMap_eq_map _

theorem busStep_refines [DecidableEq Handler] (h : Represents bus subs)
    (op : BusOp Handler Userdata) :
    (busStep bus op).2 = (subscriptionsStep subs op).2 ∧
      Represents (busStep bus op).1 (subscriptionsStep subs op).1 := by
  cases op with
  | subscribe type handler userdata =>
      cases handler with
      | none => exact ⟨rfl, h⟩
      | some handler =>
          by_cases htype : type < eventCount
          · obtain ⟨same, next⟩ := h.subscribe ⟨type, htype⟩ handler userdata
            simp only [busStep, subscriptionsStep, dif_pos htype]
            exact ⟨congrArg BusAnswer.status same, next⟩
          · simp only [busStep, subscriptionsStep, busSubscribe, dif_neg htype, ite_self]
            exact ⟨trivial, h⟩
  | unsubscribe type handler =>
      cases handler with
      | none => exact ⟨rfl, h⟩
      | some handler =>
          by_cases htype : type < eventCount
          · obtain ⟨same, next⟩ := h.unsubscribe ⟨type, htype⟩ handler
            simp only [busStep, subscriptionsStep, dif_pos htype]
            exact ⟨congrArg BusAnswer.status same, next⟩
          · simp only [busStep, subscriptionsStep, busUnsubscribe, dif_neg htype, ite_self]
            exact ⟨trivial, h⟩
  | publish type data =>
      by_cases htype : type < eventCount
      · have same := h.publish ⟨type, htype⟩ data
        simp only [busStep, subscriptionsStep, dif_pos htype]
        exact ⟨congrArg BusAnswer.calls same, h⟩
      · simp only [busStep, subscriptionsStep, busPublish, dif_neg htype]
        exact ⟨trivial, h⟩

/-- An operation writes to the slots of its own type only. -/
theorem busStep_other_type [DecidableEq Handler] (bus : SimpleEventBus Handler Userdata)
    (op : BusOp Handler Userdata) (other : Fin eventCount) (hne : other.val ≠ op.type) :
    (busStep bus op).1.ofType other = bus.ofType other := by
  have set (htype : op.type < eventCount)
      (slots : Slots (Subscriber Handler Userdata) eventBusMaxSubscribers) :
      SimpleEventBus.ofType { subscribers := bus.subscribers.set op.type slots } other =
        bus.ofType other :=
    ofType_set_of_ne (fun heq : other = ⟨op.type, htype⟩ => hne (congrArg Fin.val heq)) slots
  cases op with
  | subscribe type handler userdata =>
      simp only [busStep, busSubscribe]
      split
      · rfl
      · split
        · next htype =>
            split
            · exact set htype _
            · rfl
        · rfl
  | unsubscribe type handler =>
      simp only [busStep, busUnsubscribe]
      split
      · rfl
      · split
        · next htype =>
            split
            · exact set htype _
            · rfl
        · rfl
  | publish type data => rfl

/-- After any calls on a new bus the answers are those of the lists, no list is longer than
eight, the slots hold the lists followed by zeros, and no call touches another event type. -/
theorem eventBus_subscriptions [DecidableEq Handler] (ops : List (BusOp Handler Userdata)) :
    trace busStep eventBusNew ops = trace subscriptionsStep .none ops ∧
      Represents (run (next busStep) eventBusNew ops)
        (run (next subscriptionsStep) .none ops) ∧
      (∀ type, (run (next subscriptionsStep) (.none : Subscriptions Handler Userdata) ops
        type).length ≤ eventBusMaxSubscribers) ∧
      ∀ (op : BusOp Handler Userdata) (other : Fin eventCount), other.val ≠ op.type →
        (busStep (run (next busStep) eventBusNew ops) op).1.ofType other =
          (run (next busStep) (eventBusNew : SimpleEventBus Handler Userdata) ops).ofType other := by
  obtain ⟨answers, related⟩ := simulation (fun _ : BusOp Handler Userdata => True)
    (fun _ _ op _ h => busStep_refines h op) ops (fun _ _ => trivial) represents_new
  refine ⟨answers, related, fun type => ?_, fun op other hne => ?_⟩
  · rw [← related.count type]
    exact Slots.fits _
  · exact busStep_other_type _ op other hne

end Represents

end Kaufbot
