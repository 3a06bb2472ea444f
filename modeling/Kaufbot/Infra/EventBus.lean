import Kaufbot.Library.CString
import Kaufbot.Library.Slots

/-!
The event bus: for each event type an array of eight subscribers and a count.
Handlers and user data are pointers, so each may be NULL; a publication is
modelled by the calls it makes, in order.
-/

namespace Kaufbot

/-- `EVENT_COUNT`. An `EventType` is a C enum, so the functions can be given any number. -/
def eventCount : Nat := 5

def eventBusMaxSubscribers : Nat := 8

structure Subscriber (Handler Userdata : Type) where
  handler : Option Handler
  userdata : Option Userdata
  active : Int
deriving DecidableEq

def Subscriber.zero {Handler Userdata : Type} : Subscriber Handler Userdata where
  handler := none
  userdata := none
  active := 0

structure SimpleEventBus (Handler Userdata : Type) where
  subscribers : Vector (Slots (Subscriber Handler Userdata) eventBusMaxSubscribers) eventCount

/-- One call `handler(type, data, userdata)`. -/
structure HandlerCall (Handler Userdata : Type) where
  handler : Handler
  type : Nat
  data : Option CString
  userdata : Option Userdata
deriving DecidableEq

section Bus
variable {Handler Userdata : Type}

def eventBusNew : SimpleEventBus Handler Userdata where
  subscribers := Vector.replicate eventCount (Slots.zeroed .zero)

def busSubscribe (bus : SimpleEventBus Handler Userdata) (type : Nat)
    (handler : Option Handler) (userdata : Option Userdata) :
    SimpleEventBus Handler Userdata × Int :=
  if handler.isNone then (bus, -1)
  else if htype : type < eventCount then
    let subs := bus.subscribers[type]
    if room : subs.count < eventBusMaxSubscribers then
      let sub : Subscriber Handler Userdata :=
        { handler := handler, userdata := userdata, active := 1 }
      ({ subscribers := bus.subscribers.set type (subs.push sub room) }, 0)
    else (bus, -1)
  else (bus, -1)

/-- The loop of `bus_unsubscribe`: the first subscriber with the handler is shifted out and the
vacated slot is cleared. -/
def removeSubscriber [DecidableEq Handler]
    (subs : Slots (Subscriber Handler Userdata) eventBusMaxSubscribers)
    (handler : Option Handler) : Option (Slots (Subscriber Handler Userdata) eventBusMaxSubscribers) :=
  (subs.search (fun sub => sub.handler = handler)).map
    (fun i => (subs.erase i).wipe .zero (subs.count_erase_lt i))

def busUnsubscribe [DecidableEq Handler] (bus : SimpleEventBus Handler Userdata) (type : Nat)
    (handler : Option Handler) : SimpleEventBus Handler Userdata × Int :=
  if handler.isNone then (bus, -1)
  else if htype : type < eventCount then
    match removeSubscriber bus.subscribers[type] handler with
    | some subs => ({ subscribers := bus.subscribers.set type subs }, 0)
    | none => (bus, -1)
  else (bus, -1)

def Subscriber.call (type : Nat) (data : Option CString) (sub : Subscriber Handler Userdata) :
    Option (HandlerCall Handler Userdata) :=
  if sub.active ≠ 0 then
    sub.handler.map (fun handler =>
      { handler := handler, type := type, data := data, userdata := sub.userdata })
  else none

def busPublish (bus : SimpleEventBus Handler Userdata) (type : Nat) (data : Option CString) :
    List (HandlerCall Handler Userdata) :=
  if htype : type < eventCount then
    bus.subscribers[type].toList.filterMap (Subscriber.call type data)
  else []

end Bus

inductive BusOp (Handler Userdata : Type) where
  | subscribe (type : Nat) (handler : Option Handler) (userdata : Option Userdata)
  | unsubscribe (type : Nat) (handler : Option Handler)
  | publish (type : Nat) (data : Option CString)

inductive BusAnswer (Handler Userdata : Type) where
  | status (rc : Int)
  | calls (calls : List (HandlerCall Handler Userdata))

section Steps
variable {Handler Userdata : Type} [DecidableEq Handler]

def BusOp.type : BusOp Handler Userdata → Nat
  | .subscribe type _ _ | .unsubscribe type _ | .publish type _ => type

def busStep (bus : SimpleEventBus Handler Userdata) :
    BusOp Handler Userdata → SimpleEventBus Handler Userdata × BusAnswer Handler Userdata
  | .subscribe type handler userdata =>
      let (bus, rc) := busSubscribe bus type handler userdata
      (bus, .status rc)
  | .unsubscribe type handler =>
      let (bus, rc) := busUnsubscribe bus type handler
      (bus, .status rc)
  | .publish type data => (bus, .calls (busPublish bus type data))

end Steps

/-- What a handler may do to the bus while it runs. -/
inductive BusEdit (Handler Userdata : Type) where
  | subscribe (type : Nat) (handler : Option Handler) (userdata : Option Userdata)
  | unsubscribe (type : Nat) (handler : Option Handler)

section Reentrance
variable {Handler Userdata : Type} [DecidableEq Handler]

def BusEdit.op : BusEdit Handler Userdata → BusOp Handler Userdata
  | .subscribe type handler userdata => .subscribe type handler userdata
  | .unsubscribe type handler => .unsubscribe type handler

def busEdited (bus : SimpleEventBus Handler Userdata) (edits : List (BusEdit Handler Userdata)) :
    SimpleEventBus Handler Userdata :=
  edits.foldl (fun bus edit => (busStep bus edit.op).1) bus

/-- The loop of `bus_publish` from index `i` on, when the handler called at index `j` makes the
calls `edits j` before it returns. The count and the slots are read anew in every round. -/
def busPublishFrom (edits : Nat → List (BusEdit Handler Userdata)) (type : Nat)
    (data : Option CString) (bus : SimpleEventBus Handler Userdata) (i : Nat) :
    List (HandlerCall Handler Userdata) × SimpleEventBus Handler Userdata :=
  if htype : type < eventCount then
    if more : i < bus.subscribers[type].count then
      match (bus.subscribers[type].get ⟨i, more⟩).call type data with
      | some call =>
          let (calls, bus) := busPublishFrom edits type data (busEdited bus (edits i)) (i + 1)
          (call :: calls, bus)
      | none => busPublishFrom edits type data bus (i + 1)
    else ([], bus)
  else ([], bus)
termination_by eventBusMaxSubscribers - i
decreasing_by all_goals
  have := bus.subscribers[type].fits
  omega

end Reentrance

end Kaufbot
