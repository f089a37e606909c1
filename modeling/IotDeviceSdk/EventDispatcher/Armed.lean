import IotDeviceSdk.EventDispatcher.DispatcherStep

/-!
# Time events that are named by their handle

On a dispatcher whose events are each run by the handler of their own handle, a handle points to an
event exactly while this event is pending: `pending_iff`. The operations are told by what they do to
the handles.
-/

namespace IotDeviceSdk.EventDispatcher.Evtd

open Datastructures

variable {s s' : Evtd (Option HandlePtr)} {e : EventPtr} {k : HandlePtr}

/-- Every pending event is run by the handler of its handle, or has neither. -/
def Matched (s : Evtd (Option HandlePtr)) : Prop := ∀ e ∈ s.timeEvents.array,
  (s.timeEvents.event e).eventHandle = (s.timeEvents.event e).timeEventHandle

/-- The pending event of a handler is the one its handle points to. -/
theorem pending_iff (hw : s.WF) (hm : s.Matched) :
    e ∈ s.timeEvents.array ∧ (s.timeEvents.event e).eventHandle = some k ↔
      s.timeEvents.ptrToPosition k = some e := by
  constructor
  · rintro ⟨he, hk⟩
    rw [hm e he] at hk
    exact hw.valid.handle_of_event e he k hk
  · intro hk
    obtain ⟨he, hhandle⟩ := hw.valid.event_of_handle k e hk
    exact ⟨he, (hm e he).trans hhandle⟩

/-- Two handles do not point to one event. -/
theorem handle_injective (hw : s.WF) {j : HandlePtr} (hk : s.timeEvents.ptrToPosition k = some e)
    (hj : s.timeEvents.ptrToPosition j = some e) : j = k := by
  have h₁ := (hw.valid.event_of_handle k e hk).2
  have h₂ := (hw.valid.event_of_handle j e hj).2
  exact Option.some.inj (h₂.symm.trans h₁)

/-- What an `iotc_evtd_execute_in` that is accepted leaves. -/
structure Armed (s : Evtd (Option HandlePtr)) (k : Option HandlePtr) (time : Int)
    (s' : Evtd (Option HandlePtr)) : Prop where
  wf : s'.WF
  matched : s'.Matched
  currentStep : s'.currentStep = s.currentStep
  handles : ∀ j, s'.timeEvents.ptrToPosition j =
    if k = some j then some s.nextEvent else s.timeEvents.ptrToPosition j
  time : s'.timeEvents.time s.nextEvent = time
  times : ∀ e ∈ s.timeEvents.array, s'.timeEvents.time e = s.timeEvents.time e

/-- What an `iotc_evtd_execute_in` without memory leaves. -/
structure Unarmed (s s' : Evtd (Option HandlePtr)) : Prop where
  wf : s'.WF
  matched : s'.Matched
  currentStep : s'.currentStep = s.currentStep
  handles : s'.timeEvents.ptrToPosition = s.timeEvents.ptrToPosition
  times : ∀ e ∈ s.timeEvents.array, s'.timeEvents.time e = s.timeEvents.time e

/-- With a place in the container an event is added. -/
theorem add_ne_outOfMemory {H : Type} {c c' : TimeEvents H} {handle : Option HandlePtr} {mem : Bool}
    (h : c.container.HasPlace mem) : c.add e handle mem ≠ some (c', .outOfMemory) := by
  obtain ⟨pushed, hpush⟩ := h.push e
  intro hadd
  obtain ⟨_, _, hadd⟩ := Option.bind_eq_some_iff.1 hadd
  obtain ⟨inserted, hinserted, hadd⟩ := Option.bind_eq_some_iff.1 hadd
  simp only [TimeEvents.insertTimeEvent, hpush] at hinserted
  obtain ⟨⟨c₁, index⟩, -, hinserted⟩ := Option.bind_eq_some_iff.1 hinserted
  obtain rfl := Option.some.inj hinserted
  obtain ⟨added, -, hadd⟩ := Option.bind_eq_some_iff.1 hadd
  obtain ⟨_, -, hadd⟩ := Option.bind_eq_some_iff.1 hadd
  simp at hadd

/-- **`iotc_evtd_execute_in` with a free handle arms it, and fails only without memory.** -/
theorem executeIn_handles (hw : s.WF) (hm : s.Matched) {k : Option HandlePtr}
    (hfree : ∀ j ∈ k, s.timeEvents.ptrToPosition j = none) (timeDiff : Int) (mem grow : Bool) :
    (∃ s', s.executeIn k timeDiff k mem grow = some (s', [.added s.nextEvent]) ∧
        Armed s k (s.currentStep + timeDiff) s') ∨
      ∃ s', s.executeIn k timeDiff k mem grow = some (s', []) ∧ Unarmed s s' ∧
        ¬ (mem = true ∧ s.timeEvents.container.HasPlace grow) := by
  cases mem with
  | false => exact .inr ⟨s, rfl, ⟨hw, hm, rfl, rfl, fun _ _ => rfl⟩, by simp⟩
  | true =>
    have hnext := hw.next_notMem
    obtain ⟨hv, hsame⟩ := TimeEvents.newEvent_valid hw.valid hnext k (s.currentStep + timeDiff)
    have hnull : ((s.timeEvents.newEvent s.nextEvent k
        (s.currentStep + timeDiff)).event s.nextEvent).timeEventHandle = none := by
      simp [TimeEvents.newEvent]
    have hnew : ((s.timeEvents.newEvent s.nextEvent k
        (s.currentStep + timeDiff)).event s.nextEvent).eventHandle = k := by
      simp [TimeEvents.newEvent]
    rcases TimeEvents.add_spec hv hnext hnull hfree grow with hfail |
      ⟨c, P, S, hadd, hv', harr, harr', -, -, htime, hhandle, htimeEvent, hptr⟩
    · refine .inr ⟨{ s with
        timeEvents := s.timeEvents.newEvent s.nextEvent k (s.currentStep + timeDiff)
        nextEvent := s.nextEvent + 1 }, ?_, ?_, ?_⟩
      · simp [executeIn, hfail]
      · refine ⟨⟨hv, fun e he => Nat.lt_succ_of_lt (hw.bounded e he)⟩, fun e he => ?_, rfl, rfl,
          fun e he => ?_⟩
        · rw [hsame e he]
          exact hm e he
        · exact congrArg TimeEvent.timeOfExecution (hsame e he)
      · rintro ⟨-, hplace⟩
        have hplace' : (s.timeEvents.newEvent s.nextEvent k
            (s.currentStep + timeDiff)).container.HasPlace grow := hplace
        exact add_ne_outOfMemory hplace' hfail
    · have hmem : ∀ e, e ∈ c.array ↔ e = s.nextEvent ∨ e ∈ s.timeEvents.array := fun e => by
        rw [harr', show s.timeEvents.array = P ++ S from harr, List.perm_middle.mem_iff,
          List.mem_cons]
      refine .inl ⟨{ s with timeEvents := c, nextEvent := s.nextEvent + 1 }, ?_, ?_⟩
      · simp [executeIn, hadd]
      · refine ⟨⟨hv', fun e he => ?_⟩, fun e he => ?_, rfl, hptr, ?_, fun e he => ?_⟩
        · rcases (hmem e).1 he with rfl | he
          · exact Nat.lt_succ_self _
          · exact Nat.lt_succ_of_lt (hw.bounded e he)
        · show (c.event e).eventHandle = (c.event e).timeEventHandle
          rw [hhandle, htimeEvent]
          rcases (hmem e).1 he with rfl | he
          · rw [if_pos rfl, hnew]
          · have hne : e ≠ s.nextEvent := fun h => hnext (h ▸ he)
            rw [if_neg hne, hsame e he]
            exact hm e he
        · show c.time s.nextEvent = _
          rw [htime]
          simp [TimeEvents.time, TimeEvents.newEvent]
        · show c.time e = _
          rw [htime]
          exact congrArg TimeEvent.timeOfExecution (hsame e he)

/-- What the removal of a pending event leaves. -/
structure Disarmed (s : Evtd (Option HandlePtr)) (k : Option HandlePtr)
    (s' : Evtd (Option HandlePtr)) : Prop where
  wf : s'.WF
  matched : s'.Matched
  currentStep : s'.currentStep = s.currentStep
  handles : ∀ j, s'.timeEvents.ptrToPosition j =
    if k = some j then none else s.timeEvents.ptrToPosition j
  times : s'.timeEvents.time = s.timeEvents.time

/-- **`iotc_evtd_cancel` of a pending event disarms its handle.** -/
theorem cancel_handles (hw : s.WF) (hm : s.Matched) (hk : s.timeEvents.ptrToPosition k = some e) :
    ∃ s', s.cancel k = some (s', [.cancelled e]) ∧ Disarmed s (some k) s' := by
  obtain ⟨c, L, R, harr, hcan, hv, harr', hsame, hptr⟩ := TimeEvents.cancel_spec hw.valid hk
  have hmem : ∀ x ∈ c.array, x ∈ s.timeEvents.array := fun x hx => by
    rw [harr'] at hx
    rw [harr]
    simp only [List.mem_append, List.mem_cons] at hx ⊢
    exact hx.imp id .inr
  refine ⟨{ s with timeEvents := c }, by simp [cancel, hcan], ⟨hv, fun x hx => hw.bounded x (hmem x hx)⟩,
    fun x hx => ?_, rfl, fun j => ?_, hsame.time⟩
  · show (c.event x).eventHandle = (c.event x).timeEventHandle
    rw [hsame.eventHandle, hsame.timeEventHandle]
    exact hm x (hmem x hx)
  · show c.ptrToPosition j = _
    rw [hptr]
    by_cases hj : k = j
    · rw [if_pos (hj ▸ hk), if_pos (congrArg some hj)]
    · rw [if_neg fun h => hj (handle_injective hw hk h).symm, if_neg fun h => hj (Option.some.inj h)]

/-- **The removal of the first event disarms the handle of its handler.** -/
theorem getTop_handles (hw : s.WF) (hm : s.Matched) (he : s.timeEvents.peekTop = some e) :
    ∃ c, s.timeEvents.getTop = some (c, some e) ∧
      Disarmed s (s.timeEvents.event e).eventHandle { s with timeEvents := c } := by
  obtain ⟨R, harr⟩ : ∃ R, s.timeEvents.array = e :: R := by
    cases harr : s.timeEvents.array with
    | nil => simp [TimeEvents.peekTop, harr] at he
    | cons x R =>
      obtain rfl : x = e := by simpa [TimeEvents.peekTop, harr] using he
      exact ⟨R, rfl⟩
  have hmemTop : e ∈ s.timeEvents.array := harr ▸ List.mem_cons_self
  obtain ⟨c, htop, hv, harr', hsame, hptr⟩ := TimeEvents.getTop_spec hw.valid harr
  have hmem : ∀ x ∈ c.array, x ∈ s.timeEvents.array := fun x hx => by
    rw [harr]
    exact List.mem_cons_of_mem _ (harr' ▸ hx)
  refine ⟨c, htop, ⟨hv, fun x hx => hw.bounded x (hmem x hx)⟩, fun x hx => ?_, rfl, fun j => ?_,
    hsame.time⟩
  · show (c.event x).eventHandle = (c.event x).timeEventHandle
    rw [hsame.eventHandle, hsame.timeEventHandle]
    exact hm x (hmem x hx)
  · show c.ptrToPosition j = _
    rw [hptr]
    by_cases hj : s.timeEvents.ptrToPosition j = some e
    · rw [if_pos hj, if_pos ((pending_iff hw hm).2 hj).2]
    · rw [if_neg hj, if_neg fun h => hj ((pending_iff hw hm).1 ⟨hmemTop, h⟩)]

/-- **`iotc_evtd_restart` of a pending event** leaves the handles as they are. -/
theorem restart_handles (hw : s.WF) (hm : s.Matched) (hk : s.timeEvents.ptrToPosition k = some e)
    (newTime : Int) :
    ∃ s', s.restart k newTime = some (s', [.restarted e]) ∧ s'.WF ∧ s'.Matched ∧
      s'.currentStep = s.currentStep ∧ s'.timeEvents.ptrToPosition = s.timeEvents.ptrToPosition := by
  obtain ⟨c, L, R, P, S, harr, hrestart, hv, harr', hPS, -, hhandle, hevent, hptr⟩ :=
    TimeEvents.restart_spec hw.valid hk (s.currentStep + newTime)
  have hmem (x : EventPtr) (hx : x ∈ c.array) : x ∈ s.timeEvents.array := by
    rw [harr'] at hx
    rw [harr]
    have hiff : x ∈ P ++ S ↔ x ∈ L ++ R := by rw [hPS]
    simp only [List.mem_append, List.mem_cons] at hx hiff ⊢
    rcases hx with hx | hx | hx
    · exact (hiff.mp (.inl hx)).imp id .inr
    · exact .inr (.inl hx)
    · exact (hiff.mp (.inr hx)).imp id .inr
  refine ⟨{ s with timeEvents := c }, ?_, ⟨hv, fun x hx => hw.bounded x (hmem x hx)⟩, fun x hx => ?_,
    rfl, hptr⟩
  · simp [restart, hrestart, hk]
  · change (c.event x).eventHandle = (c.event x).timeEventHandle
    rw [hhandle, hevent]
    exact hm x (hmem x hx)

end IotDeviceSdk.EventDispatcher.Evtd
