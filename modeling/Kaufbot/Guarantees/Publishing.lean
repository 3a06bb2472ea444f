import Kaufbot.Guarantees.Subscriptions
import Kaufbot.Library.LiveList

/-!
A publication whose handlers subscribe and unsubscribe while it runs. The
subscriptions of the published type are followed by the place they had when it
began; a handler that removes an earlier subscription makes the loop skip one.
-/

namespace Kaufbot

open Machine Runs LiveList

/-- A subscription, with the place it had when the publication began, if it was there. -/
structure Tracked (Handler Userdata : Type) where
  entry : Handler × Option Userdata
  place : Option Nat
deriving DecidableEq

section Tracked
variable {Handler Userdata : Type}

def Tracked.call (type : Fin eventCount) (data : Option CString)
    (sub : Tracked Handler Userdata) : HandlerCall Handler Userdata where
  handler := sub.entry.1
  type := type
  data := data
  userdata := sub.entry.2

def tracked (entries : List (Handler × Option Userdata)) : List (Tracked Handler Userdata) :=
  entries.zipIdx.map (fun entry => { entry := entry.1, place := some entry.2 })

def places (l : List (Tracked Handler Userdata)) : List Nat := l.filterMap (·.place)

def trackEdit [DecidableEq Handler] (type : Fin eventCount) (l : List (Tracked Handler Userdata)) :
    BusEdit Handler Userdata → List (Tracked Handler Userdata)
  | .subscribe other (some handler) userdata =>
      if other = type.val ∧ l.length < eventBusMaxSubscribers then
        l ++ [{ entry := (handler, userdata), place := none }]
      else l
  | .unsubscribe other (some handler) =>
      if other = type.val then l.eraseP (fun sub => sub.entry.1 = handler) else l
  | .subscribe _ none _ | .unsubscribe _ none => l

/-- The rounds of a publication from index `i` on, at most `n` of them. -/
def publishTurns [DecidableEq Handler] (edits : Nat → List (BusEdit Handler Userdata))
    (type : Fin eventCount) :
    (n : Nat) → Nat → List (Tracked Handler Userdata) → List (Turn (Tracked Handler Userdata))
  | 0, _, _ => []
  | n + 1, i, l =>
      if i < l.length then
        let after := (edits i).foldl (trackEdit type) l
        { index := i, before := l, after := after } :: publishTurns edits type n (i + 1) after
      else []

/-- The same round, as the subscriptions from the beginning see it. -/
def initialTurn (t : Turn (Tracked Handler Userdata)) : Turn Nat where
  index := t.index
  before := places t.before
  after := places t.after

/-- The calls of the rounds, each with the place of the subscription it is for. -/
def placedCalls (type : Fin eventCount) (data : Option CString)
    (turns : List (Turn (Tracked Handler Userdata))) :
    List (Option Nat × HandlerCall Handler Userdata) :=
  turns.filterMap (fun t => t.reached.map (fun sub => (sub.place, sub.call type data)))

/-- Those from the beginning stand before those that came later, and all fit the array. -/
structure Followed (l : List (Tracked Handler Userdata)) : Prop where
  initialFirst : l.Pairwise (fun a b => b.place.isSome → a.place.isSome)
  fits : l.length ≤ eventBusMaxSubscribers

theorem getElem?_places {l : List (Tracked Handler Userdata)}
    (h : l.Pairwise (fun a b => b.place.isSome → a.place.isSome)) (i : Nat) :
    (places l)[i]? = l[i]?.bind (·.place) := by
  induction l generalizing i with
  | nil => simp [places]
  | cons sub l ih =>
      obtain ⟨first, rest⟩ := List.pairwise_cons.mp h
      cases hplace : sub.place with
      | some k =>
          rw [places, List.filterMap_cons_some hplace]
          cases i with
          | zero => simp [hplace]
          | succ i => simpa [places] using ih rest i
      | none =>
          have late : ∀ other ∈ sub :: l, other.place = none := by
            intro other hother
            rcases List.mem_cons.mp hother with rfl | later
            · exact hplace
            · by_contra initial
              have := first other later (Option.isSome_iff_ne_none.mpr initial)
              rw [hplace] at this
              exact Bool.noConfusion this
          rw [places, List.filterMap_eq_nil_iff.mpr late, List.getElem?_nil]
          cases hi : (sub :: l)[i]? with
          | none => rfl
          | some other => exact (late other (List.mem_of_getElem? hi)).symm

theorem tracked_places (entries : List (Handler × Option Userdata)) :
    places (tracked entries) = List.range entries.length := by
  have snd : places (tracked entries) = entries.zipIdx.map Prod.snd := by
    rw [places, tracked, List.filterMap_map]
    exact congrFun List.filterMap_eq_map _
  rw [snd, List.zipIdx_map_snd, List.range_eq_range']

theorem tracked_entries (entries : List (Handler × Option Userdata)) :
    (tracked entries).map (·.entry) = entries := by
  rw [tracked, List.map_map]
  exact List.zipIdx_map_fst 0 entries

theorem tracked_followed {entries : List (Handler × Option Userdata)}
    (fits : entries.length ≤ eventBusMaxSubscribers) : Followed (tracked entries) where
  initialFirst := by
    rw [tracked, List.pairwise_map]
    exact List.pairwise_of_forall fun _ _ => fun _ => rfl
  fits := by simpa [tracked] using fits

end Tracked

section Edits
variable {Handler Userdata : Type} [DecidableEq Handler] {type : Fin eventCount}
  {l : List (Tracked Handler Userdata)} {bus : SimpleEventBus Handler Userdata}
  {subs : Subscriptions Handler Userdata}

theorem Followed.edit (h : Followed l) (type : Fin eventCount) (edit : BusEdit Handler Userdata) :
    Followed (trackEdit type l edit) ∧ (places (trackEdit type l edit)).Sublist (places l) := by
  fun_cases trackEdit type l edit with
  | case1 other handler userdata room =>
      refine ⟨⟨?_, ?_⟩, ?_⟩
      · refine List.pairwise_append.mpr ⟨h.initialFirst, List.pairwise_singleton _ _, ?_⟩
        intro a _ b hb
        rw [List.mem_singleton.mp hb]
        exact fun initial => Bool.noConfusion initial
      · rw [List.length_append]
        exact room.2
      · simp [places]
  | case3 handler =>
      exact ⟨⟨h.initialFirst.sublist List.eraseP_sublist,
        Nat.le_trans List.eraseP_sublist.length_le h.fits⟩, List.eraseP_sublist.filterMap _⟩
  | case2 | case4 | case5 | case6 => exact ⟨h, List.Sublist.refl _⟩

theorem Followed.edits (h : Followed l) (type : Fin eventCount)
    (edits : List (BusEdit Handler Userdata)) :
    Followed (edits.foldl (trackEdit type) l) ∧
      (places (edits.foldl (trackEdit type) l)).Sublist (places l) := by
  induction edits generalizing l with
  | nil => exact ⟨h, List.Sublist.refl _⟩
  | cons edit edits ih =>
      obtain ⟨next, fewer⟩ := h.edit type edit
      obtain ⟨later, still⟩ := ih next
      exact ⟨later, still.trans fewer⟩

theorem subscriptionsStep_other_type (op : BusOp Handler Userdata) (hne : type.val ≠ op.type) :
    (subscriptionsStep subs op).1 type = subs type := by
  have set (htype : op.type < eventCount) (entries : List (Handler × Option Userdata)) :
      Function.update subs ⟨op.type, htype⟩ entries type = subs type :=
    Function.update_of_ne (fun heq => hne (congrArg Fin.val heq)) _ _
  fun_cases subscriptionsStep subs op with
  | case1 other handler userdata htype subs' rc result =>
      rw [Subscriptions.subscribe] at result
      split at result
      · obtain ⟨rfl, -⟩ := Prod.mk.inj result
        exact set htype _
      · obtain ⟨rfl, -⟩ := Prod.mk.inj result
        rfl
  | case3 other handler htype subs' rc result =>
      rw [Subscriptions.unsubscribe] at result
      split at result
      · obtain ⟨rfl, -⟩ := Prod.mk.inj result
        exact set htype _
      · obtain ⟨rfl, -⟩ := Prod.mk.inj result
        rfl
  | case2 | case4 | case5 | case6 | case7 | case8 => rfl

/-- The tracked list is the list of the specification, whatever the handlers do. -/
theorem subscriptionsStep_trackEdit (same : subs type = l.map (·.entry))
    (edit : BusEdit Handler Userdata) :
    (subscriptionsStep subs edit.op).1 type = (trackEdit type l edit).map (·.entry) := by
  have length : (subs type).length = l.length := by rw [same, List.length_map]
  fun_cases trackEdit type l edit with
  | case1 other handler userdata room =>
      obtain ⟨rfl, room⟩ := room
      simp only [BusEdit.op, subscriptionsStep, type.isLt, dif_pos, Subscriptions.subscribe, length,
        if_pos room]
      simp [same]
  | case2 other handler userdata full =>
      by_cases hother : type.val = other
      · subst hother
        simp only [BusEdit.op, subscriptionsStep, type.isLt, dif_pos, Subscriptions.subscribe,
          length, if_neg (fun room => full ⟨rfl, room⟩)]
        exact same
      · rw [subscriptionsStep_other_type _ hother, same]
  | case3 handler =>
      simp only [BusEdit.op, subscriptionsStep, type.isLt, dif_pos, Subscriptions.unsubscribe]
      split
      · simp [same, List.eraseP_map, Function.comp_def]
      · next absent =>
          have keep : ∀ sub ∈ l, ¬ decide (sub.entry.1 = handler) = true := by
            simpa [same] using absent
          rw [List.eraseP_of_forall_not keep]
          exact same
  | case4 other handler hother =>
      rw [subscriptionsStep_other_type _ (fun heq : type.val = other => hother heq.symm), same]
  | case5 | case6 => exact same

/-- The bus after some edits, and the list followed through them. -/
theorem busEdited_tracked (h : Represents bus subs) (same : subs type = l.map (·.entry))
    (edits : List (BusEdit Handler Userdata)) :
    ∃ subs', Represents (busEdited bus edits) subs' ∧
      subs' type = (edits.foldl (trackEdit type) l).map (·.entry) := by
  induction edits generalizing bus subs l with
  | nil => exact ⟨subs, h, same⟩
  | cons edit edits ih =>
      exact ih (busStep_refines h edit.op).2 (subscriptionsStep_trackEdit same edit)

end Edits

section Publish
variable {Handler Userdata : Type} [DecidableEq Handler] {type : Fin eventCount}
  {l : List (Tracked Handler Userdata)} {bus : SimpleEventBus Handler Userdata}
  {subs : Subscriptions Handler Userdata} {data : Option CString}
  (edits : Nat → List (BusEdit Handler Userdata))

theorem busPublishFrom_call {i : Nat} {call : HandlerCall Handler Userdata}
    (more : i < (bus.ofType type).count)
    (hcall : ((bus.ofType type).get ⟨i, more⟩).call type data = some call) :
    busPublishFrom edits type data bus i =
      (call :: (busPublishFrom edits type data (busEdited bus (edits i)) (i + 1)).1,
        (busPublishFrom edits type data (busEdited bus (edits i)) (i + 1)).2) := by
  change i < bus.subscribers[type.val].count at more
  change (bus.subscribers[type.val].get ⟨i, more⟩).call type data = some call at hcall
  rw [busPublishFrom, dif_pos type.isLt, dif_pos more, hcall]

theorem busPublishFrom_end {i : Nat} (done : ¬ i < (bus.ofType type).count) :
    busPublishFrom edits type data bus i = ([], bus) := by
  change ¬ i < bus.subscribers[type.val].count at done
  rw [busPublishFrom, dif_pos type.isLt, dif_neg done]

omit [DecidableEq Handler] in
theorem Represents.tracked_slots (h : Represents bus subs) (same : subs type = l.map (·.entry)) :
    (bus.ofType type).toList = l.map (fun sub => .of sub.entry) := by
  rw [h.entries, same, List.map_map]
  rfl

/-- The loop over the slots makes the calls of the rounds, in their order. -/
theorem busPublishFrom_calls (h : Represents bus subs) (same : subs type = l.map (·.entry))
    {n i : Nat} (enough : eventBusMaxSubscribers ≤ i + n) :
    (busPublishFrom edits type data bus i).1 =
      (placedCalls type data (publishTurns edits type n i l)).map Prod.snd := by
  induction n generalizing i bus subs l with
  | zero =>
      have fits := (bus.ofType type).fits
      rw [busPublishFrom_end edits (by omega)]
      rfl
  | succ n ih =>
      have slots := h.tracked_slots same
      have count : (bus.ofType type).count = l.length := by
        rw [← Slots.length_toList, slots, List.length_map]
      rw [publishTurns]
      by_cases more : i < l.length
      · have room : i < (bus.ofType type).count := by rwa [count]
        have slot : (bus.ofType type).get ⟨i, room⟩ = .of l[i].entry := by
          rw [← Slots.getElem_toList _ (by rwa [Slots.length_toList])]
          simp only [slots, List.getElem_map]
        obtain ⟨subs', represented, followed⟩ := busEdited_tracked h same (edits i)
        rw [busPublishFrom_call edits room (congrArg _ slot), if_pos more,
          ih represented followed (by omega)]
        simp [placedCalls, Turn.reached, List.getElem?_eq_getElem more]
        rfl
      · rw [busPublishFrom_end edits (by rwa [count]), if_neg more]
        rfl

/-- The rounds as the initial subscriptions see them: a loop over a list that only loses. -/
theorem publishTurns_run (h : Followed l) {n i : Nat} (enough : eventBusMaxSubscribers ≤ i + n) :
    Run i (places l) ((publishTurns edits type n i l).map initialTurn) := by
  have short : (places l).length ≤ l.length := List.length_filterMap_le _ _
  have fits := h.fits
  induction n generalizing i l with
  | zero => exact .stop (by omega)
  | succ n ih =>
      rw [publishTurns]
      split
      · obtain ⟨next, fewer⟩ := h.edits type (edits i)
        exact .turn fewer (ih next (by omega) (List.length_filterMap_le _ _) next.fits)
      · exact .stop (by omega)

theorem placedCalls_count (h : Followed l) (n i k : Nat) :
    (placedCalls type data (publishTurns edits type n i l)).countP (fun call => call.1 = some k) =
      visits k ((publishTurns edits type n i l).map initialTurn) := by
  induction n generalizing i l with
  | zero => rfl
  | succ n ih =>
      rw [publishTurns]
      split
      · next more =>
          have rest := ih (h.edits type (edits i)).1 (i + 1)
          simp only [List.map_cons, initialTurn, visits_cons, getElem?_places h.initialFirst,
            List.getElem?_eq_getElem more, Option.bind_some, ← rest]
          simp [placedCalls, Turn.reached, List.getElem?_eq_getElem more, List.countP_cons]
      · rfl

end Publish

/-- Every subscription of the type that was there when the publication began, and is not removed
while the loop is still before it, is called once. -/
def PublishReaches {Handler Userdata : Type} [DecidableEq Handler]
    (edits : Nat → List (BusEdit Handler Userdata)) (type : Fin eventCount)
    (data : Option CString) (entries : List (Handler × Option Userdata)) : Prop :=
  let turns := publishTurns edits type eventBusMaxSubscribers 0 (tracked entries)
  ∀ k < entries.length, ¬ GoesAhead k (turns.map initialTurn) →
    (placedCalls type data turns).countP (fun call => call.1 = some k) = 1

/-- The first of two handlers removes itself when it is called: the second is never called. -/
theorem busPublish_skips_one :
    let type : Fin eventCount := ⟨2, by decide⟩
    let ops : List (BusOp Nat Unit) := [.subscribe 2 (some 0) none, .subscribe 2 (some 1) none]
    let edits : Nat → List (BusEdit Nat Unit) := fun i =>
      if i = 0 then [.unsubscribe 2 (some 0)] else []
    (busPublishFrom edits type none (run (next busStep) eventBusNew ops) 0).1 =
        [{ handler := 0, type := 2, data := none, userdata := none }] ∧
      ¬ PublishReaches edits type none (run (next subscriptionsStep) Subscriptions.none ops type) := by
  intro type ops edits
  have related := (eventBus_subscriptions ops).2.1
  constructor
  · exact busPublishFrom_calls edits related (tracked_entries _).symm (n := 8) (Nat.le_refl _)
  · intro reached
    have stays : ¬ GoesAhead 1 ((publishTurns edits type eventBusMaxSubscribers 0
        (tracked (run (next subscriptionsStep) Subscriptions.none ops type))).map initialTurn) := by
      unfold GoesAhead
      decide
    exact absurd (reached 1 (by decide) stays) (by decide)

/-- For every state of the bus, every publication and everything its handlers do to the bus: the
loop makes the calls of its rounds, and it reaches everyone exactly when in no round a handler
removes a subscription the loop has reached while a later one is left. -/
theorem busPublish_reaches_iff {Handler Userdata : Type} [DecidableEq Handler]
    (ops : List (BusOp Handler Userdata)) (edits : Nat → List (BusEdit Handler Userdata))
    (type : Fin eventCount) (data : Option CString) :
    let bus := run (next busStep) eventBusNew ops
    let entries := run (next subscriptionsStep) Subscriptions.none ops type
    let turns := publishTurns edits type eventBusMaxSubscribers 0 (tracked entries)
    (bus.ofType type).toList = entries.map .of ∧
      (busPublishFrom edits type data bus 0).1 = (placedCalls type data turns).map Prod.snd ∧
      (PublishReaches edits type data entries ↔ ∀ t ∈ turns, (initialTurn t).Orderly) := by
  intro bus entries turns
  obtain ⟨-, related, short, -⟩ := eventBus_subscriptions ops
  have start : Followed (tracked entries) := tracked_followed (short type)
  have whole : Run 0 (places (tracked entries)) (turns.map initialTurn) :=
    publishTurns_run edits start (Nat.le_refl _)
  refine ⟨related.entries type, ?_, ?_⟩
  · exact busPublishFrom_calls edits related (tracked_entries entries).symm (Nat.le_refl _)
  · rw [tracked_places] at whole
    have reached := whole.reaches_iff List.nodup_range
    rw [List.forall_mem_map, List.drop_zero] at reached
    rw [← reached, PublishReaches]
    simp only [placedCalls_count edits start, List.mem_range]
    rfl

end Kaufbot
