import Mathlib.Data.List.Perm.Basic
import IotDeviceSdk.EventDispatcher.Dispatcher
import IotDeviceSdk.EventDispatcher.TimeEventSpec

/-!
# What one step of the dispatcher does

`Account s log s'` relates a state, a log and the state after it: where every event and every
queued call went. A call of the interface, the removal of a due event and the removal of a queued
call are accounted for one by one, and accounts compose; so the loops are accounted for whatever
the handlers do.

* `account_timedLoop`, `account_queueLoop` — the two loops
* `step_contract` — the step
-/

namespace IotDeviceSdk.EventDispatcher

open Datastructures

variable {H : Type}

/-! ## Reading a log -/

def timedRuns (log : List (Entry H)) : List (EventPtr × Int × H) :=
  log.filterMap fun | .ranTimed e time handle => some (e, time, handle) | _ => none

def queuedRuns (log : List (Entry H)) : List (CallPtr × H) :=
  log.filterMap fun | .ranQueued c handle => some (c, handle) | _ => none

def enqueuedCalls (log : List (Entry H)) : List (CallPtr × H) :=
  log.filterMap fun | .enqueued c handle => some (c, handle) | _ => none

def addedEvents (log : List (Entry H)) : List EventPtr :=
  log.filterMap fun | .added e => some e | _ => none

def cancelledEvents (log : List (Entry H)) : List EventPtr :=
  log.filterMap fun | .cancelled e => some e | _ => none

def restartedEvents (log : List (Entry H)) : List EventPtr :=
  log.filterMap fun | .restarted e => some e | _ => none

/-- A call that schedules or restarts does so for a time to come. -/
def Call.Positive : Call H → Prop
  | .executeIn _ timeDiff _ _ _ => 0 < timeDiff
  | .restart _ newTime => 0 < newTime
  | _ => True

namespace Evtd

variable {s s₀ s₁ s₂ s' : Evtd H} {log log₁ log₂ : List (Entry H)}

/-- The invariant of a dispatcher. -/
structure WF (s : Evtd H) : Prop where
  valid : s.timeEvents.Valid
  bounded : ∀ e ∈ s.timeEvents.array, e < s.nextEvent

theorem WF.next_notMem (hw : s.WF) : s.nextEvent ∉ s.timeEvents.array := fun h =>
  absurd (hw.bounded _ h) (lt_irrefl _)

/-! ## Accounts -/

/-- Where the events and the calls of `s` and of `log` went, when the delays were positive. -/
structure Account (s : Evtd H) (log : List (Entry H)) (s' : Evtd H) : Prop where
  wf : s'.WF
  currentStep : s'.currentStep = s.currentStep
  grows : s.nextEvent ≤ s'.nextEvent
  fresh : ∀ e ∈ addedEvents log, s.nextEvent ≤ e ∧ e < s'.nextEvent
  nodup : (addedEvents log).Nodup
  contents : (s.timeEvents.array ++ addedEvents log).Perm
    ((timedRuns log).map Prod.fst ++ cancelledEvents log ++ s'.timeEvents.array)
  queue : s.callQueue ++ enqueuedCalls log = queuedRuns log ++ s'.callQueue
  restarted : ∀ e ∈ restartedEvents log, e ∈ s.timeEvents.array ∨ e ∈ addedEvents log
  unmoved : ∀ e ∈ s'.timeEvents.array, e ∉ restartedEvents log → e ∉ addedEvents log →
    s'.timeEvents.time e = s.timeEvents.time e ∧
      (s'.timeEvents.event e).eventHandle = (s.timeEvents.event e).eventHandle
  moved : ∀ e ∈ s'.timeEvents.array, e ∈ restartedEvents log ∨ e ∈ addedEvents log →
    s.currentStep < s'.timeEvents.time e
  ran : ∀ r ∈ timedRuns log, r.1 ∉ restartedEvents log ∧ r.1 ∉ addedEvents log ∧
    r.2.1 = s.timeEvents.time r.1 ∧ r.2.1 ≤ s.currentStep ∧
    r.2.2 = (s.timeEvents.event r.1).eventHandle
  ranBefore : ∀ r ∈ timedRuns log, ∀ e ∈ s'.timeEvents.array, r.2.1 ≤ s'.timeEvents.time e
  sortedRuns : (timedRuns log).Pairwise fun a b => a.2.1 ≤ b.2.1

theorem account_refl (hw : s.WF) : Account s [] s where
  wf := hw
  currentStep := rfl
  grows := le_refl _
  fresh e he := by simp [addedEvents] at he
  nodup := List.nodup_nil
  contents := by simp [addedEvents, timedRuns, cancelledEvents]
  queue := by simp [enqueuedCalls, queuedRuns]
  restarted e he := by simp [restartedEvents] at he
  unmoved _ _ _ _ := ⟨rfl, rfl⟩
  moved e _ he := by simp [restartedEvents, addedEvents] at he
  ran r hr := by simp [timedRuns] at hr
  ranBefore r hr := by simp [timedRuns] at hr
  sortedRuns := List.Pairwise.nil

/-- All events an account speaks about are different. -/
theorem Account.nodup_all (hw : s.WF) (ha : Account s log s') :
    ((timedRuns log).map Prod.fst ++ cancelledEvents log ++ s'.timeEvents.array).Nodup := by
  refine ha.contents.nodup_iff.mp (List.nodup_append.mpr
    ⟨hw.valid.placed.nodup, ha.nodup, fun a hm b hb hab => ?_⟩)
  exact Nat.ne_of_lt (lt_of_lt_of_le (hw.bounded a hm) (ha.fresh b hb).1) hab

theorem Account.ran_bounded (hw : s.WF) (ha : Account s log s') {r : EventPtr × Int × H}
    (hr : r ∈ timedRuns log) :
    r.1 ∈ s.timeEvents.array ∧ r.1 < s'.nextEvent ∧ r.1 ∉ s'.timeEvents.array := by
  have hmem : r.1 ∈ s.timeEvents.array ++ addedEvents log := by
    rw [ha.contents.mem_iff]
    simp only [List.mem_append, List.mem_map]
    exact Or.inl (Or.inl ⟨r, hr, rfl⟩)
  have hin : r.1 ∈ s.timeEvents.array := by
    rcases List.mem_append.mp hmem with h | h
    · exact h
    · exact absurd h (ha.ran r hr).2.1
  refine ⟨hin, lt_of_lt_of_le (hw.bounded _ hin) ha.grows, fun h => ?_⟩
  have hnd := ha.nodup_all hw
  refine List.disjoint_of_nodup_append hnd ?_ h
  simp only [List.mem_append, List.mem_map]
  exact Or.inl ⟨r, hr, rfl⟩

/-- **Accounts compose.** -/
theorem Account.trans (hw : s.WF) (h₁ : Account s log₁ s₁) (h₂ : Account s₁ log₂ s₂) :
    Account s (log₁ ++ log₂) s₂ := by
  have hadd : addedEvents (log₁ ++ log₂) = addedEvents log₁ ++ addedEvents log₂ :=
    List.filterMap_append
  have hres : restartedEvents (log₁ ++ log₂) = restartedEvents log₁ ++ restartedEvents log₂ :=
    List.filterMap_append
  have hcan : cancelledEvents (log₁ ++ log₂) = cancelledEvents log₁ ++ cancelledEvents log₂ :=
    List.filterMap_append
  have hrun : timedRuns (log₁ ++ log₂) = timedRuns log₁ ++ timedRuns log₂ :=
    List.filterMap_append
  have henq : enqueuedCalls (log₁ ++ log₂) = enqueuedCalls log₁ ++ enqueuedCalls log₂ :=
    List.filterMap_append
  have hque : queuedRuns (log₁ ++ log₂) = queuedRuns log₁ ++ queuedRuns log₂ :=
    List.filterMap_append
  -- what comes into play after the first account was in its container or is new
  have hlater : ∀ e, e ∈ restartedEvents log₂ ∨ e ∈ addedEvents log₂ →
      e ∈ s₁.timeEvents.array ∨ s₁.nextEvent ≤ e := by
    rintro e (he | he)
    · rcases h₂.restarted e he with h | h
      · exact Or.inl h
      · exact Or.inr (h₂.fresh e h).1
    · exact Or.inr (h₂.fresh e he).1
  have hnew : ∀ e ∈ s₂.timeEvents.array, e ∉ addedEvents log₂ → e ∈ s₁.timeEvents.array := by
    intro e he hna
    have : e ∈ s₁.timeEvents.array ++ addedEvents log₂ := by
      rw [h₂.contents.mem_iff]
      simp [he]
    exact (List.mem_append.mp this).resolve_right hna
  refine ⟨h₂.wf, h₂.currentStep.trans h₁.currentStep, h₁.grows.trans h₂.grows, ?_, ?_, ?_, ?_, ?_,
    ?_, ?_, ?_, ?_, ?_⟩
  · intro e he
    rw [hadd] at he
    rcases List.mem_append.mp he with he | he
    · exact ⟨(h₁.fresh e he).1, lt_of_lt_of_le (h₁.fresh e he).2 h₂.grows⟩
    · exact ⟨h₁.grows.trans (h₂.fresh e he).1, (h₂.fresh e he).2⟩
  · rw [hadd]
    refine List.nodup_append.mpr ⟨h₁.nodup, h₂.nodup, fun a ha b hb hab => ?_⟩
    exact Nat.ne_of_lt (lt_of_lt_of_le (h₁.fresh a ha).2 (h₂.fresh b hb).1) hab
  · have hp₁ := List.perm_iff_count.mp h₁.contents
    have hp₂ := List.perm_iff_count.mp h₂.contents
    rw [hadd, hrun, hcan, List.perm_iff_count]
    intro e
    have c₁ := hp₁ e
    have c₂ := hp₂ e
    simp only [List.map_append, List.count_append] at c₁ c₂ ⊢
    omega
  · rw [henq, hque, ← List.append_assoc, h₁.queue, List.append_assoc, h₂.queue,
      List.append_assoc]
  · intro e he
    rw [hres] at he
    rw [hadd]
    rcases List.mem_append.mp he with he | he
    · exact (h₁.restarted e he).imp id (List.mem_append_left _)
    · rcases h₂.restarted e he with h | h
      · have : e ∈ s.timeEvents.array ++ addedEvents log₁ := by
          rw [h₁.contents.mem_iff]
          simp [h]
        exact (List.mem_append.mp this).imp id (List.mem_append_left _)
      · exact Or.inr (List.mem_append_right _ h)
  · intro e he hnr hna
    rw [hres, List.mem_append, not_or] at hnr
    rw [hadd, List.mem_append, not_or] at hna
    obtain ⟨ht₂, hh₂⟩ := h₂.unmoved e he hnr.2 hna.2
    obtain ⟨ht₁, hh₁⟩ := h₁.unmoved e (hnew e he hna.2) hnr.1 hna.1
    exact ⟨ht₂.trans ht₁, hh₂.trans hh₁⟩
  · intro e he hm
    by_cases hm₂ : e ∈ restartedEvents log₂ ∨ e ∈ addedEvents log₂
    · rw [← h₁.currentStep]
      exact h₂.moved e he hm₂
    · rw [not_or] at hm₂
      rw [hres, hadd, List.mem_append, List.mem_append] at hm
      rw [(h₂.unmoved e he hm₂.1 hm₂.2).1]
      exact h₁.moved e (hnew e he hm₂.2) (by tauto)
  · intro r hr
    rw [hrun] at hr
    rw [hres, hadd, List.mem_append, List.mem_append]
    rcases List.mem_append.mp hr with hr | hr
    · obtain ⟨hnr, hna, hrest⟩ := h₁.ran r hr
      obtain ⟨_, hb, hnot⟩ := h₁.ran_bounded hw hr
      refine ⟨?_, ?_, hrest⟩
      · rintro (h | h)
        · exact hnr h
        · rcases hlater _ (Or.inl h) with h | h
          · exact hnot h
          · exact absurd (lt_of_lt_of_le hb h) (lt_irrefl _)
      · rintro (h | h)
        · exact hna h
        · rcases hlater _ (Or.inr h) with h | h
          · exact hnot h
          · exact absurd (lt_of_lt_of_le hb h) (lt_irrefl _)
    · obtain ⟨hnr, hna, ht, hle, hh⟩ := h₂.ran r hr
      have hin := (h₂.ran_bounded h₁.wf hr).1
      -- a moved event is later than the current step, so it is not run
      have hnm : ¬ (r.1 ∈ restartedEvents log₁ ∨ r.1 ∈ addedEvents log₁) := fun hm => by
        have := h₁.moved r.1 hin hm
        rw [h₁.currentStep] at hle
        omega
      rw [not_or] at hnm
      obtain ⟨ht₁, hh₁⟩ := h₁.unmoved r.1 hin hnm.1 hnm.2
      rw [h₁.currentStep] at hle
      exact ⟨by tauto, by tauto, ht.trans ht₁, hle, hh.trans hh₁⟩
  · intro r hr e he
    rw [hrun] at hr
    rcases List.mem_append.mp hr with hr | hr
    · by_cases hm₂ : e ∈ restartedEvents log₂ ∨ e ∈ addedEvents log₂
      · have h1 := h₂.moved e he hm₂
        have h2 := (h₁.ran r hr).2.2.2.1
        rw [h₁.currentStep] at h1
        omega
      · rw [not_or] at hm₂
        rw [(h₂.unmoved e he hm₂.1 hm₂.2).1]
        exact h₁.ranBefore r hr e (hnew e he hm₂.2)
    · exact h₂.ranBefore r hr e he
  · rw [hrun]
    refine List.pairwise_append.mpr ⟨h₁.sortedRuns, h₂.sortedRuns, fun a ha b hb => ?_⟩
    rw [(h₂.ran b hb).2.2.1]
    exact h₁.ranBefore a ha b.1 (h₂.ran_bounded h₁.wf hb).1

/-! ## Calls -/

theorem account_execute (hw : s.WF) (handle : H) (mem : Bool) :
    Account s (s.execute handle mem).2 (s.execute handle mem).1 := by
  cases mem with
  | false => exact account_refl hw
  | true =>
    exact
      { account_refl hw with
        wf := ⟨hw.valid, hw.bounded⟩
        contents := by simp [execute, addedEvents, timedRuns, cancelledEvents]
        queue := by simp [execute, enqueuedCalls, queuedRuns] }

/-- What `iotc_evtd_execute_in` does to the container. -/
theorem executeIn_cases (hw : s.WF) {handle : H} {timeDiff : Int} {k : Option HandlePtr}
    {mem grow : Bool} (h : s.executeIn handle timeDiff k mem grow = some (s', log)) :
    (log = [] ∧ s'.WF ∧ s'.timeEvents.array = s.timeEvents.array ∧
      (∀ e ∈ s.timeEvents.array, s'.timeEvents.event e = s.timeEvents.event e) ∧
      s.nextEvent ≤ s'.nextEvent ∧ s'.callQueue = s.callQueue ∧ s'.currentStep = s.currentStep) ∨
    (log = [.added s.nextEvent] ∧ s'.WF ∧
      s'.timeEvents.array.Perm (s.nextEvent :: s.timeEvents.array) ∧
      (∀ e ∈ s.timeEvents.array, s'.timeEvents.time e = s.timeEvents.time e ∧
        (s'.timeEvents.event e).eventHandle = (s.timeEvents.event e).eventHandle) ∧
      s'.timeEvents.time s.nextEvent = s.currentStep + timeDiff ∧
      (s'.timeEvents.event s.nextEvent).eventHandle = handle ∧
      s'.nextEvent = s.nextEvent + 1 ∧ s'.callQueue = s.callQueue ∧
      s'.currentStep = s.currentStep) := by
  unfold executeIn at h
  split at h
  · have hnext := hw.next_notMem
    obtain ⟨hv, hsame⟩ := TimeEvents.newEvent_valid hw.valid hnext handle (s.currentStep + timeDiff)
    have hnull : ((s.timeEvents.newEvent s.nextEvent handle
        (s.currentStep + timeDiff)).event s.nextEvent).timeEventHandle = none := by
      simp [TimeEvents.newEvent]
    have hfree : ∀ j ∈ k, (s.timeEvents.newEvent s.nextEvent handle
        (s.currentStep + timeDiff)).ptrToPosition j = none := by
      intro j hj
      cases hj
      by_contra hne
      have hsome : ((s.timeEvents.newEvent s.nextEvent handle
          (s.currentStep + timeDiff)).ptrToPosition j).isNone = false := by
        simpa [Option.isSome_iff_ne_none] using hne
      simp [TimeEvents.add, guard, hsome] at h
    rcases TimeEvents.add_spec hv hnext hnull hfree grow with hfail |
      ⟨c, P, S, hadd, hv', harr, harr', _, _, htime, hhandle, _, _⟩
    · left
      simp only [hfail, Option.bind_eq_bind, Option.bind_some, Option.pure_def, Option.some.injEq,
        Prod.mk.injEq] at h
      obtain ⟨rfl, rfl⟩ := h
      exact ⟨by simp, ⟨hv, fun e he => Nat.lt_succ_of_lt (hw.bounded e he)⟩, rfl, hsame,
        Nat.le_succ _, rfl, rfl⟩
    · right
      simp only [hadd, Option.bind_eq_bind, Option.bind_some, Option.pure_def, Option.some.injEq,
        Prod.mk.injEq] at h
      obtain ⟨rfl, rfl⟩ := h
      have hperm : c.array.Perm (s.nextEvent :: s.timeEvents.array) := by
        rw [harr', show s.timeEvents.array = P ++ S from harr]
        exact List.perm_middle
      refine ⟨by simp, ⟨hv', ?_⟩, hperm, ?_, ?_, ?_, rfl, rfl, rfl⟩
      · intro e he
        rcases List.mem_cons.mp (hperm.mem_iff.mp he) with rfl | he
        · exact Nat.lt_succ_self _
        · exact Nat.lt_succ_of_lt (hw.bounded e he)
      · intro e he
        refine ⟨?_, ?_⟩
        · rw [htime, TimeEvents.time, hsame e he]
          rfl
        · rw [hhandle, hsame e he]
      · show c.time s.nextEvent = _
        rw [htime]
        simp [TimeEvents.time, TimeEvents.newEvent]
      · show (c.event s.nextEvent).eventHandle = handle
        rw [hhandle]
        simp [TimeEvents.newEvent]
  · left
    simp only [Option.some.injEq, Prod.mk.injEq] at h
    obtain ⟨rfl, rfl⟩ := h
    exact ⟨rfl, hw, rfl, fun _ _ => rfl, le_refl _, rfl, rfl⟩

/-- What `iotc_evtd_cancel` does to the container. -/
theorem cancel_cases (hw : s.WF) {k : HandlePtr} (h : s.cancel k = some (s', log)) :
    ∃ e, log = [.cancelled e] ∧ s'.WF ∧ s.timeEvents.array.Perm (e :: s'.timeEvents.array) ∧
      TimeEvents.SameEvents s.timeEvents s'.timeEvents ∧ s'.nextEvent = s.nextEvent ∧
      s'.callQueue = s.callQueue ∧ s'.currentStep = s.currentStep := by
  cases hk : s.timeEvents.ptrToPosition k with
  | none => simp [cancel, TimeEvents.cancel, hk] at h
  | some e =>
    obtain ⟨c, L, R, harr, hcan, hv, harr', hsame, _⟩ := TimeEvents.cancel_spec hw.valid hk
    simp only [cancel, hcan, Option.bind_eq_bind, Option.bind_some, Option.pure_def,
      Option.some.injEq, Prod.mk.injEq] at h
    obtain ⟨rfl, rfl⟩ := h
    have hperm : s.timeEvents.array.Perm (e :: c.array) := by
      rw [harr, harr']
      exact List.perm_middle
    exact ⟨e, rfl, ⟨hv, fun x hx => hw.bounded x (hperm.mem_iff.mpr (by simp [show x ∈ c.array from hx]))⟩,
      hperm, hsame, rfl, rfl, rfl⟩

/-- What `iotc_evtd_restart` does to the container. -/
theorem restart_cases (hw : s.WF) {k : HandlePtr} {newTime : Int}
    (h : s.restart k newTime = some (s', log)) :
    ∃ e ∈ s.timeEvents.array, log = [.restarted e] ∧ s'.WF ∧
      s'.timeEvents.array.Perm s.timeEvents.array ∧
      s'.timeEvents.time = Function.update s.timeEvents.time e (s.currentStep + newTime) ∧
      (∀ x, (s'.timeEvents.event x).eventHandle = (s.timeEvents.event x).eventHandle) ∧
      s'.nextEvent = s.nextEvent ∧ s'.callQueue = s.callQueue ∧
      s'.currentStep = s.currentStep := by
  cases hk : s.timeEvents.ptrToPosition k with
  | none => simp [restart, TimeEvents.restart, hk] at h
  | some e =>
    obtain ⟨c, L, R, P, S, harr, hre, hv, harr', hPS, htime, hhandle, _, _⟩ :=
      TimeEvents.restart_spec hw.valid hk (s.currentStep + newTime)
    simp only [restart, hre, hk, Option.bind_eq_bind, Option.bind_some, Option.pure_def,
      Option.some.injEq, Prod.mk.injEq] at h
    obtain ⟨rfl, rfl⟩ := h
    have hperm : c.array.Perm s.timeEvents.array := by
      rw [harr', harr]
      refine List.perm_middle.trans ?_
      rw [hPS]
      exact List.perm_middle.symm
    exact ⟨e, (hw.valid.event_of_handle k e hk).1, rfl,
      ⟨hv, fun x hx => hw.bounded x (hperm.mem_iff.mp hx)⟩, hperm, htime, hhandle, rfl, rfl, rfl⟩

theorem account_executeIn (hw : s.WF) {handle : H} {timeDiff : Int} {k : Option HandlePtr}
    {mem grow : Bool} (hpos : 0 < timeDiff)
    (h : s.executeIn handle timeDiff k mem grow = some (s', log)) : Account s log s' := by
  rcases executeIn_cases hw h with ⟨rfl, hw', harr, hsame, hle, hq, hstep⟩ |
    ⟨rfl, hw', hperm, hsame, htime, -, hnext, hq, hstep⟩
  · exact
      { account_refl hw with
        wf := hw'
        currentStep := hstep
        grows := hle
        fresh := fun e he => by simp [addedEvents] at he
        contents := by simp [addedEvents, timedRuns, cancelledEvents, harr]
        queue := by simp [enqueuedCalls, queuedRuns, hq]
        unmoved := fun e he _ _ => by
          rw [harr] at he
          rw [TimeEvents.time, hsame e he]
          exact ⟨rfl, rfl⟩
        moved := fun e _ hm => by simp [restartedEvents, addedEvents] at hm
        ranBefore := fun r hr => by simp [timedRuns] at hr }
  · have hadd : addedEvents [(.added s.nextEvent : Entry H)] = [s.nextEvent] := rfl
    have hruns : timedRuns [(.added s.nextEvent : Entry H)] = [] := rfl
    have hin : ∀ e ∈ s'.timeEvents.array, e ∉ [s.nextEvent] → e ∈ s.timeEvents.array := by
      intro e he hne
      rcases List.mem_cons.mp (hperm.mem_iff.mp he) with rfl | he
      · simp at hne
      · exact he
    exact
      { wf := hw'
        currentStep := hstep
        grows := by
          rw [hnext]
          exact Nat.le_succ _
        fresh := fun e he => by
          rw [hadd, List.mem_singleton] at he
          rw [he, hnext]
          exact ⟨le_refl _, Nat.lt_succ_self _⟩
        nodup := List.nodup_singleton _
        contents := by
          refine (List.perm_append_singleton s.nextEvent _).trans (List.Perm.trans hperm.symm ?_)
          simp [timedRuns, cancelledEvents]
        queue := by simp [enqueuedCalls, queuedRuns, hq]
        restarted := fun e he => by simp [restartedEvents] at he
        unmoved := fun e he _ hna => hsame e (hin e he hna)
        moved := fun e _ hm => by
          have he : e = s.nextEvent := by simpa [restartedEvents, addedEvents] using hm
          rw [he, htime]
          omega
        ran := fun r hr => by simp [hruns] at hr
        ranBefore := fun r hr => by simp [hruns] at hr
        sortedRuns := List.Pairwise.nil }

theorem account_cancel (hw : s.WF) {k : HandlePtr} (h : s.cancel k = some (s', log)) :
    Account s log s' := by
  obtain ⟨e, rfl, hw', hperm, hsame, hnext, hq, hstep⟩ := cancel_cases hw h
  exact
    { wf := hw'
      currentStep := hstep
      grows := by rw [hnext]
      fresh := fun x hx => by simp [addedEvents] at hx
      nodup := List.nodup_nil
      contents := by
        show (s.timeEvents.array ++ []).Perm ([e] ++ s'.timeEvents.array)
        rw [List.append_nil]
        exact hperm
      queue := by simp [enqueuedCalls, queuedRuns, hq]
      restarted := fun x hx => by simp [restartedEvents] at hx
      unmoved := fun x _ _ _ => ⟨by rw [hsame.time], hsame.eventHandle x⟩
      moved := fun x _ hm => by simp [restartedEvents, addedEvents] at hm
      ran := fun r hr => by simp [timedRuns] at hr
      ranBefore := fun r hr => by simp [timedRuns] at hr
      sortedRuns := List.Pairwise.nil }

theorem account_restart (hw : s.WF) {k : HandlePtr} {newTime : Int} (hpos : 0 < newTime)
    (h : s.restart k newTime = some (s', log)) : Account s log s' := by
  obtain ⟨e, he, rfl, hw', hperm, htime, hhandle, hnext, hq, hstep⟩ := restart_cases hw h
  have hres : restartedEvents [(.restarted e : Entry H)] = [e] := rfl
  exact
    { wf := hw'
      currentStep := hstep
      grows := by rw [hnext]
      fresh := fun x hx => by simp [addedEvents] at hx
      nodup := List.nodup_nil
      contents := by
        show (s.timeEvents.array ++ []).Perm s'.timeEvents.array
        rw [List.append_nil]
        exact hperm.symm
      queue := by simp [enqueuedCalls, queuedRuns, hq]
      restarted := fun x hx => by
        rw [hres, List.mem_singleton] at hx
        exact Or.inl (hx ▸ he)
      unmoved := fun x _ hnr _ => by
        rw [hres, List.mem_singleton] at hnr
        rw [htime, Function.update_of_ne hnr]
        exact ⟨rfl, hhandle x⟩
      moved := fun x _ hm => by
        have hx : x = e := by simpa [restartedEvents, addedEvents] using hm
        rw [hx, htime, Function.update_self]
        omega
      ran := fun r hr => by simp [timedRuns] at hr
      ranBefore := fun r hr => by simp [timedRuns] at hr
      sortedRuns := List.Pairwise.nil }

/-- One call, when its delay is positive. -/
theorem account_call (hw : s.WF) {c : Call H} (hpos : c.Positive)
    (h : s.call c = some (s', log)) : Account s log s' := by
  cases c with
  | execute handle mem =>
    rw [call, Option.some.injEq] at h
    obtain ⟨rfl, rfl⟩ := Prod.mk.inj h
    exact account_execute hw handle mem
  | executeIn handle timeDiff k mem grow => exact account_executeIn hw hpos h
  | cancel k => exact account_cancel hw h
  | restart k newTime => exact account_restart hw hpos h
  | continueWhenEmpty handle =>
    rw [call, Option.some.injEq] at h
    obtain ⟨rfl, rfl⟩ := Prod.mk.inj h
    exact { account_refl hw with wf := ⟨hw.valid, hw.bounded⟩ }
  | stop =>
    rw [call, Option.some.injEq] at h
    obtain ⟨rfl, rfl⟩ := Prod.mk.inj h
    exact { account_refl hw with wf := ⟨hw.valid, hw.bounded⟩ }

/-- The calls of a handler, when their delays are positive. -/
theorem account_calls : ∀ {cs : List (Call H)} {s s' : Evtd H} {log : List (Entry H)}, s.WF →
    (∀ c ∈ cs, c.Positive) → s.calls cs = some (s', log) → Account s log s'
  | [], s, s', log, hw, _, h => by
    rw [calls, Option.some.injEq] at h
    obtain ⟨rfl, rfl⟩ := Prod.mk.inj h
    exact account_refl hw
  | c :: cs, s, s', log, hw, hpos, h => by
    rw [calls] at h
    obtain ⟨⟨s₁, log₁⟩, h₁, h⟩ := Option.bind_eq_some_iff.mp h
    obtain ⟨⟨s₂, log₂⟩, h₂, h⟩ := Option.bind_eq_some_iff.mp h
    obtain ⟨rfl, rfl⟩ := Prod.mk.inj (Option.some.inj h)
    have ha := account_call hw (hpos c (by simp)) h₁
    exact ha.trans hw (account_calls ha.wf (fun d hd => hpos d (by simp [hd])) h₂)

/-! ## Runs -/

/-- A due event is taken out and run. -/
theorem account_getTop (hw : s.WF) {e : EventPtr} {R : List EventPtr} {c : TimeEvents H}
    {top : Option EventPtr} (harr : s.timeEvents.array = e :: R)
    (hdue : s.timeEvents.time e ≤ s.currentStep) (h : s.timeEvents.getTop = some (c, top)) :
    Account s [.ranTimed e (s.timeEvents.time e) (s.timeEvents.event e).eventHandle]
      { s with timeEvents := c } := by
  obtain ⟨c', htop, hv, harr', hsame, _⟩ := TimeEvents.getTop_spec hw.valid harr
  obtain ⟨rfl, rfl⟩ := Prod.mk.inj (Option.some.inj (htop.symm.trans h))
  have hruns : timedRuns [(.ranTimed e (s.timeEvents.time e)
      (s.timeEvents.event e).eventHandle : Entry H)] =
      [(e, s.timeEvents.time e, (s.timeEvents.event e).eventHandle)] := rfl
  have hmem : ∀ x ∈ c'.array, x ∈ s.timeEvents.array := fun x hx => by
    rw [harr]
    exact List.mem_cons_of_mem _ (harr' ▸ hx)
  have hsorted := hw.valid.sorted
  rw [harr, List.pairwise_cons] at hsorted
  exact
    { wf := ⟨hv, fun x hx => hw.bounded x (hmem x hx)⟩
      currentStep := rfl
      grows := le_refl _
      fresh := fun x hx => by simp [addedEvents] at hx
      nodup := List.nodup_nil
      contents := by
        show (s.timeEvents.array ++ []).Perm ([e] ++ [] ++ c'.array)
        rw [harr, harr', List.append_nil, List.append_nil]
        exact List.Perm.refl _
      queue := by simp [enqueuedCalls, queuedRuns]
      restarted := fun x hx => by simp [restartedEvents] at hx
      unmoved := fun x _ _ _ => ⟨by rw [hsame.time], hsame.eventHandle x⟩
      moved := fun x _ hm => by simp [restartedEvents, addedEvents] at hm
      ran := fun r hr => by
        rw [hruns, List.mem_singleton] at hr
        subst hr
        exact ⟨by simp [restartedEvents], by simp [addedEvents], rfl, hdue, rfl⟩
      ranBefore := fun r hr x hx => by
        rw [hruns, List.mem_singleton] at hr
        subst hr
        show _ ≤ c'.time x
        rw [hsame.time]
        exact hsorted.1 x (harr' ▸ hx)
      sortedRuns := by
        rw [hruns]
        exact List.pairwise_singleton _ _ }

/-- The first queued call is taken out and run. -/
theorem account_pop (hw : s.WF) {first : CallPtr × H} {queue : List (CallPtr × H)}
    (hq : s.callQueue = first :: queue) :
    Account s [.ranQueued first.1 first.2] { s with callQueue := queue } :=
  { account_refl hw with
    wf := ⟨hw.valid, hw.bounded⟩
    contents := by simp [addedEvents, timedRuns, cancelledEvents]
    queue := by simp [enqueuedCalls, queuedRuns, hq] }

theorem account_onEmpty (hw : s.WF) (handle : H) : Account s [.ranOnEmpty handle] s :=
  { account_refl hw with }

/-- An account does not speak about `stop` and `on_empty`. -/
theorem Account.withFlags (ha : Account s log s') (stop : Bool) (onEmpty : Option H) :
    Account s log { s' with stop, onEmpty } :=
  { ha with wf := ⟨ha.wf.valid, ha.wf.bounded⟩ }

/-- No event of the container is due. -/
def Late (s : Evtd H) : Prop := ∀ e ∈ s.timeEvents.array, s.currentStep < s.timeEvents.time e

theorem Account.late (hl : s.Late) (ha : Account s log s') : s'.Late := by
  intro e he
  rw [ha.currentStep]
  by_cases hm : e ∈ restartedEvents log ∨ e ∈ addedEvents log
  · exact ha.moved e he hm
  · rw [not_or] at hm
    rw [(ha.unmoved e he hm.1 hm.2).1]
    have : e ∈ s.timeEvents.array ++ addedEvents log := by
      rw [ha.contents.mem_iff]
      simp [he]
    exact hl e ((List.mem_append.mp this).resolve_right hm.2)

/-- The delays of all calls of a script are positive. -/
def PositiveScript (script : List (Reaction H)) : Prop :=
  ∀ r ∈ script, ∀ c ∈ r.calls, c.Positive

/-- **The first loop**: it ends when no event is due. -/
theorem account_timedLoop : ∀ {script : List (Reaction H)} {s s' : Evtd H} {log : List (Entry H)}
    {rest : List (Reaction H)}, s.WF → PositiveScript script →
    timedLoop script s = some (s', log, rest) →
    Account s log s' ∧ s'.Late ∧ PositiveScript rest
  | script, s, s', log, rest, hw, hpos, h => by
    rw [timedLoop.eq_def] at h
    cases harr : s.timeEvents.array with
    | nil =>
      simp only [TimeEvents.peekTop, harr, List.head?_nil, Option.some.injEq, Prod.mk.injEq] at h
      obtain ⟨rfl, rfl, rfl⟩ := h
      exact ⟨account_refl hw, fun e he => by simp [harr] at he, hpos⟩
    | cons e R =>
      simp only [TimeEvents.peekTop, harr, List.head?_cons] at h
      have hsorted := hw.valid.sorted
      rw [harr, List.pairwise_cons] at hsorted
      split at h
      · next hdue =>
        cases script with
        | nil => simp at h
        | cons r script =>
          obtain ⟨⟨c, top⟩, htop, h⟩ := Option.bind_eq_some_iff.mp h
          obtain ⟨⟨s₁, log₁⟩, h₁, h⟩ := Option.bind_eq_some_iff.mp h
          obtain ⟨⟨s₂, log₂, rest'⟩, h₂, h⟩ := Option.bind_eq_some_iff.mp h
          obtain ⟨rfl, rfl, rfl⟩ :
              s₂ = s' ∧ _ = log ∧ rest' = rest := by simpa using Option.some.inj h
          have ha := account_getTop hw harr hdue htop
          have hb := account_calls ha.wf (fun d hd => hpos r (by simp) d hd) h₁
          have hb' := hb.withFlags (s₁.stop || r.fatal) s₁.onEmpty
          obtain ⟨hc, hl, hp⟩ := account_timedLoop hb'.wf
            (fun q hq => hpos q (by simp [hq])) h₂
          exact ⟨ha.trans hw (hb'.trans ha.wf hc), hl, hp⟩
      · next hdue =>
        simp only [Option.some.injEq, Prod.mk.injEq] at h
        obtain ⟨rfl, rfl, rfl⟩ := h
        refine ⟨account_refl hw, fun x hx => ?_, hpos⟩
        rw [harr] at hx
        rcases List.mem_cons.mp hx with rfl | hx
        · omega
        · have := hsorted.1 x hx
          omega

/-- **The second loop**: it ends when no call is queued. -/
theorem account_queueLoop : ∀ {script : List (Reaction H)} {s s' : Evtd H} {log : List (Entry H)}
    {rest : List (Reaction H)}, s.WF → PositiveScript script →
    queueLoop s.currentStep script s = some (s', log, rest) →
    Account s log s' ∧ s'.callQueue = [] ∧ PositiveScript rest
  | script, s, s', log, rest, hw, hpos, h => by
    rw [queueLoop.eq_def] at h
    cases hq : s.callQueue with
    | nil =>
      simp only [hq, Option.some.injEq, Prod.mk.injEq] at h
      obtain ⟨rfl, rfl, rfl⟩ := h
      refine ⟨?_, rfl, hpos⟩
      rw [← hq]
      exact account_refl hw
    | cons first queue =>
      simp only [hq] at h
      cases script with
      | nil => simp at h
      | cons r script =>
        obtain ⟨⟨s₁, log₁⟩, h₁, h⟩ := Option.bind_eq_some_iff.mp h
        obtain ⟨⟨s₂, log₂, rest'⟩, h₂, h⟩ := Option.bind_eq_some_iff.mp h
        obtain ⟨rfl, rfl, rfl⟩ :
            s₂ = s' ∧ _ = log ∧ rest' = rest := by simpa using Option.some.inj h
        obtain ⟨⟨s₃, log₃⟩, h₃, h₁⟩ := Option.bind_eq_some_iff.mp h₁
        obtain ⟨rfl, rfl⟩ := Prod.mk.inj (Option.some.inj h₁)
        have ha := account_pop hw hq
        have hb := account_calls ha.wf (fun d hd => hpos r (by simp) d hd) h₃
        have hstep : s₃.currentStep = s.currentStep := hb.currentStep
        rw [← hstep] at h₂
        obtain ⟨hc, hl, hp⟩ := account_queueLoop hb.wf (fun q hq => hpos q (by simp [hq])) h₂
        exact ⟨(ha.trans hw hb).trans hw hc, hl, hp⟩

/-! ## Reachable states -/

theorem wf_call (hw : s.WF) {c : Call H} (h : s.call c = some (s', log)) : s'.WF := by
  cases c with
  | execute handle mem =>
    rw [call, Option.some.injEq] at h
    obtain ⟨rfl, rfl⟩ := Prod.mk.inj h
    exact (account_execute hw handle mem).wf
  | executeIn handle timeDiff k mem grow =>
    rcases executeIn_cases hw h with ⟨_, hw', _⟩ | ⟨_, hw', _⟩
    · exact hw'
    · exact hw'
  | cancel k => exact (account_cancel hw h).wf
  | restart k newTime =>
    obtain ⟨e, _, _, hw', _⟩ := restart_cases hw h
    exact hw'
  | continueWhenEmpty handle =>
    rw [call, Option.some.injEq] at h
    obtain ⟨rfl, rfl⟩ := Prod.mk.inj h
    exact ⟨hw.valid, hw.bounded⟩
  | stop =>
    rw [call, Option.some.injEq] at h
    obtain ⟨rfl, rfl⟩ := Prod.mk.inj h
    exact ⟨hw.valid, hw.bounded⟩

theorem wf_calls : ∀ {cs : List (Call H)} {s s' : Evtd H} {log : List (Entry H)}, s.WF →
    s.calls cs = some (s', log) → s'.WF
  | [], s, s', log, hw, h => by
    rw [calls, Option.some.injEq] at h
    obtain ⟨rfl, rfl⟩ := Prod.mk.inj h
    exact hw
  | c :: cs, s, s', log, hw, h => by
    rw [calls] at h
    obtain ⟨⟨s₁, log₁⟩, h₁, h⟩ := Option.bind_eq_some_iff.mp h
    obtain ⟨⟨s₂, log₂⟩, h₂, h⟩ := Option.bind_eq_some_iff.mp h
    obtain ⟨rfl, rfl⟩ := Prod.mk.inj (Option.some.inj h)
    exact wf_calls (wf_call hw h₁) h₂

theorem wf_timedLoop : ∀ {script : List (Reaction H)} {s s' : Evtd H} {log : List (Entry H)}
    {rest : List (Reaction H)}, s.WF → timedLoop script s = some (s', log, rest) → s'.WF
  | script, s, s', log, rest, hw, h => by
    rw [timedLoop.eq_def] at h
    cases harr : s.timeEvents.array with
    | nil =>
      simp only [TimeEvents.peekTop, harr, List.head?_nil, Option.some.injEq, Prod.mk.injEq] at h
      exact h.1 ▸ hw
    | cons e R =>
      simp only [TimeEvents.peekTop, harr, List.head?_cons] at h
      split at h
      · next hdue =>
        cases script with
        | nil => simp at h
        | cons r script =>
          obtain ⟨⟨c, top⟩, htop, h⟩ := Option.bind_eq_some_iff.mp h
          obtain ⟨⟨s₁, log₁⟩, h₁, h⟩ := Option.bind_eq_some_iff.mp h
          obtain ⟨⟨s₂, log₂, rest'⟩, h₂, h⟩ := Option.bind_eq_some_iff.mp h
          have hs : s₂ = s' := (Prod.mk.inj (Option.some.inj h)).1
          have hb := wf_calls (account_getTop hw harr hdue htop).wf h₁
          refine hs ▸ wf_timedLoop ?_ h₂
          exact ⟨hb.valid, hb.bounded⟩
      · simp only [Option.some.injEq, Prod.mk.injEq] at h
        exact h.1 ▸ hw

theorem wf_singleStep (hw : s.WF) {first : CallPtr × H} {queue : List (CallPtr × H)}
    {r : Reaction H} {newStep : Int} (h : s.singleStep first queue r newStep = some (s', log)) :
    s'.WF := by
  obtain ⟨⟨s₁, log₁⟩, h₁, h⟩ := Option.bind_eq_some_iff.mp h
  obtain ⟨rfl, rfl⟩ := Prod.mk.inj (Option.some.inj h)
  refine wf_calls ?_ h₁
  exact ⟨hw.valid, hw.bounded⟩

theorem wf_queueLoop {newStep : Int} : ∀ {script : List (Reaction H)} {s s' : Evtd H}
    {log : List (Entry H)} {rest : List (Reaction H)}, s.WF →
    queueLoop newStep script s = some (s', log, rest) → s'.WF
  | script, s, s', log, rest, hw, h => by
    rw [queueLoop.eq_def] at h
    cases hq : s.callQueue with
    | nil =>
      simp only [hq, Option.some.injEq, Prod.mk.injEq] at h
      exact h.1 ▸ ⟨hw.valid, hw.bounded⟩
    | cons first queue =>
      simp only [hq] at h
      cases script with
      | nil => simp at h
      | cons r script =>
        obtain ⟨⟨s₁, log₁⟩, h₁, h⟩ := Option.bind_eq_some_iff.mp h
        obtain ⟨⟨s₂, log₂, rest'⟩, h₂, h⟩ := Option.bind_eq_some_iff.mp h
        have hs : s₂ = s' := (Prod.mk.inj (Option.some.inj h)).1
        exact hs ▸ wf_queueLoop (wf_singleStep hw h₁) h₂

/-- What the end of the step does: nothing, or it runs `on_empty`. -/
theorem runOnEmpty_cases {script rest : List (Reaction H)}
    (h : runOnEmpty script s = some (s', log, rest)) :
    (log = [] ∧ s' = s) ∨
    ∃ handle r s₁ log₁, s.timeEvents.array = [] ∧ s.onEmpty = some handle ∧ r ∈ script ∧
      s.calls r.calls = some (s₁, log₁) ∧ log = .ranOnEmpty handle :: log₁ ∧
      s' = { s₁ with onEmpty := none } := by
  unfold runOnEmpty at h
  split at h
  · next handle harr hon =>
    cases script with
    | nil => simp at h
    | cons r script =>
      obtain ⟨⟨s₁, log₁⟩, h₁, h⟩ := Option.bind_eq_some_iff.mp h
      obtain ⟨rfl, rfl, _⟩ : _ = s' ∧ _ = log ∧ _ = rest := by simpa using Option.some.inj h
      exact Or.inr ⟨handle, r, s₁, log₁, harr, hon, by simp, h₁, rfl, rfl⟩
  · simp only [Option.some.injEq, Prod.mk.injEq] at h
    exact Or.inl ⟨h.2.1.symm, h.1.symm⟩

theorem wf_step (hw : s.WF) {script rest : List (Reaction H)} {newStep : Int}
    (h : step script s newStep = some (s', log, rest)) : s'.WF := by
  obtain ⟨⟨s₁, log₁, script₁⟩, hd, h⟩ := Option.bind_eq_some_iff.mp h
  obtain ⟨⟨s₂, log₂, script₂⟩, he, h⟩ := Option.bind_eq_some_iff.mp h
  have hs : s₂ = s' := (Prod.mk.inj (Option.some.inj h)).1
  obtain ⟨⟨s₃, log₃, script₃⟩, ht, hd⟩ := Option.bind_eq_some_iff.mp hd
  obtain ⟨⟨s₄, log₄, script₄⟩, hq, hd⟩ := Option.bind_eq_some_iff.mp hd
  have hs₁ : s₄ = s₁ := (Prod.mk.inj (Option.some.inj hd)).1
  have hw₃ : s₃.WF := by
    refine wf_timedLoop ?_ ht
    exact ⟨hw.valid, hw.bounded⟩
  have hw₁ : s₁.WF := hs₁ ▸ wf_queueLoop hw₃ hq
  rcases runOnEmpty_cases he with ⟨_, h⟩ | ⟨_, r, s₅, log₅, _, _, _, hc, _, h⟩
  · exact hs ▸ h ▸ hw₁
  · have hw₅ := wf_calls hw₁ hc
    exact hs ▸ h ▸ ⟨hw₅.valid, hw₅.bounded⟩

theorem Reachable.wf (hr : Reachable s) : s.WF := by
  induction hr with
  | create memory =>
    exact ⟨TimeEvents.valid_empty rfl fun _ => rfl, fun e he => by
      simp [Evtd.create, TimeEvents.array, IotcVector.create] at he⟩
  | call c _ h ih => exact wf_call ih h
  | singleStep r newStep _ _ h ih => exact wf_singleStep ih h
  | step newStep _ h ih => exact wf_step ih h

/-! ## The contract -/

/-- What a step to the time `t` does, from the state `s` to the state `s'`, by its log. -/
structure StepContract (s : Evtd H) (t : Int) (log : List (Entry H)) (s' : Evtd H) : Prop where
  /-- a due event is run unless it was cancelled or moved before its turn -/
  runs_due : ∀ e ∈ s.timeEvents.array, s.timeEvents.time e ≤ t →
    (e ∈ (timedRuns log).map Prod.fst ↔ e ∉ cancelledEvents log ∧ e ∉ restartedEvents log)
  /-- what is run is due, is run with its own time and handler, and was not cancelled -/
  runs_only : ∀ r ∈ timedRuns log, r.1 ∈ s.timeEvents.array ∧ r.2.1 = s.timeEvents.time r.1 ∧
    r.2.1 ≤ t ∧ r.2.2 = (s.timeEvents.event r.1).eventHandle ∧ r.1 ∉ cancelledEvents log
  runs_once : ((timedRuns log).map Prod.fst).Nodup
  in_order : (timedRuns log).Pairwise fun a b => a.2.1 ≤ b.2.1
  /-- nothing gets lost, and what is left is later than `t` -/
  conserved : (s.timeEvents.array ++ addedEvents log).Perm
    ((timedRuns log).map Prod.fst ++ cancelledEvents log ++ s'.timeEvents.array)
  left : ∀ e ∈ s'.timeEvents.array, t < s'.timeEvents.time e
  /-- the calls are run in the order in which they were queued -/
  fifo : s.callQueue ++ enqueuedCalls log = queuedRuns log ++ s'.callQueue
  /-- when no event is left and no call is queued, `on_empty` is run, once, and what it queues is
  left for the next step -/
  ends : s'.callQueue = [] ∨
    ∃ log₁ handle log₂, log = log₁ ++ .ranOnEmpty handle :: log₂ ∧
      s.callQueue ++ enqueuedCalls log₁ = queuedRuns log₁ ∧
      (s.timeEvents.array ++ addedEvents log₁).Perm
        ((timedRuns log₁).map Prod.fst ++ cancelledEvents log₁) ∧
      timedRuns log₂ = [] ∧ queuedRuns log₂ = [] ∧ s'.callQueue = enqueuedCalls log₂ ∧
      s'.onEmpty = none

theorem account_drain (hw : s.WF) {script rest : List (Reaction H)} {t : Int}
    (hpos : PositiveScript script) (h : drain script s t = some (s', log, rest)) :
    Account { s with currentStep := t } log s' ∧ s'.Late ∧ s'.callQueue = [] ∧
      PositiveScript rest := by
  obtain ⟨⟨s₁, log₁, script₁⟩, ht, h⟩ := Option.bind_eq_some_iff.mp h
  obtain ⟨⟨s₂, log₂, script₂⟩, hq, h⟩ := Option.bind_eq_some_iff.mp h
  obtain ⟨rfl, rfl, rfl⟩ : s₂ = s' ∧ _ = log ∧ script₂ = rest := by simpa using Option.some.inj h
  have hw₀ : WF { s with currentStep := t } := ⟨hw.valid, hw.bounded⟩
  obtain ⟨ha, hl, hp⟩ := account_timedLoop hw₀ hpos ht
  have hstep : s₁.currentStep = t := ha.currentStep
  rw [← hstep] at hq
  obtain ⟨hb, hempty, hp'⟩ := account_queueLoop ha.wf hp hq
  exact ⟨ha.trans hw₀ hb, hb.late hl, hempty, hp'⟩

/-- The handler of `on_empty` makes calls and runs nothing. -/
theorem runs_calls : ∀ {cs : List (Call H)} {s s' : Evtd H} {log : List (Entry H)},
    s.calls cs = some (s', log) → timedRuns log = [] ∧ queuedRuns log = []
  | [], s, s', log, h => by
    rw [calls, Option.some.injEq] at h
    obtain ⟨rfl, rfl⟩ := Prod.mk.inj h
    exact ⟨rfl, rfl⟩
  | c :: cs, s, s', log, h => by
    rw [calls] at h
    obtain ⟨⟨s₁, log₁⟩, h₁, h⟩ := Option.bind_eq_some_iff.mp h
    obtain ⟨⟨s₂, log₂⟩, h₂, h⟩ := Option.bind_eq_some_iff.mp h
    obtain ⟨rfl, rfl⟩ := Prod.mk.inj (Option.some.inj h)
    obtain ⟨ht, hq⟩ := runs_calls h₂
    have hc : timedRuns log₁ = [] ∧ queuedRuns log₁ = [] := by
      cases c with
      | execute handle mem =>
        cases mem <;> (obtain ⟨rfl, rfl⟩ := Prod.mk.inj (Option.some.inj h₁); exact ⟨rfl, rfl⟩)
      | executeIn handle timeDiff k mem grow =>
        simp only [call, executeIn] at h₁
        split at h₁
        · obtain ⟨⟨c, state⟩, _, h₁⟩ := Option.bind_eq_some_iff.mp h₁
          obtain ⟨rfl, rfl⟩ := Prod.mk.inj (Option.some.inj h₁)
          cases state <;> exact ⟨rfl, rfl⟩
        · obtain ⟨rfl, rfl⟩ := Prod.mk.inj (Option.some.inj h₁)
          exact ⟨rfl, rfl⟩
      | cancel k =>
        obtain ⟨⟨c, e, state⟩, _, h₁⟩ := Option.bind_eq_some_iff.mp h₁
        obtain ⟨rfl, rfl⟩ := Prod.mk.inj (Option.some.inj h₁)
        cases e <;> exact ⟨rfl, rfl⟩
      | restart k newTime =>
        obtain ⟨⟨c, state⟩, _, h₁⟩ := Option.bind_eq_some_iff.mp h₁
        obtain ⟨rfl, rfl⟩ := Prod.mk.inj (Option.some.inj h₁)
        cases s.timeEvents.ptrToPosition k <;> exact ⟨rfl, rfl⟩
      | continueWhenEmpty handle =>
        obtain ⟨rfl, rfl⟩ := Prod.mk.inj (Option.some.inj h₁)
        exact ⟨rfl, rfl⟩
      | stop =>
        obtain ⟨rfl, rfl⟩ := Prod.mk.inj (Option.some.inj h₁)
        exact ⟨rfl, rfl⟩
    simp only [timedRuns, queuedRuns, List.filterMap_append] at ht hq hc ⊢
    rw [hc.1, hc.2, ht, hq]
    exact ⟨rfl, rfl⟩

/-- **From every reachable state and for every behaviour of the handlers with which it ends, a step
meets its contract, when the handlers schedule and restart with positive delays.** -/
theorem step_contract (hr : Reachable s) {script rest : List (Reaction H)} {t : Int}
    (hpos : PositiveScript script) (h : step script s t = some (s', log, rest)) :
    StepContract s t log s' := by
  have hw := hr.wf
  obtain ⟨⟨s₁, log₁, script₁⟩, hd, h⟩ := Option.bind_eq_some_iff.mp h
  obtain ⟨⟨s₂, log₂, script₂⟩, he, h⟩ := Option.bind_eq_some_iff.mp h
  obtain ⟨rfl, rfl, rfl⟩ : s₂ = s' ∧ _ = log ∧ script₂ = rest := by simpa using Option.some.inj h
  have hw₀ : WF { s with currentStep := t } := ⟨hw.valid, hw.bounded⟩
  obtain ⟨ha, hl, hempty, hp⟩ := account_drain hw hpos hd
  -- the account of the whole step, and how it ends
  obtain ⟨hall, hlate, hends⟩ : Account { s with currentStep := t } (log₁ ++ log₂) s₂ ∧ s₂.Late ∧
      (s₂.callQueue = [] ∨ ∃ handle log₃, log₂ = .ranOnEmpty handle :: log₃ ∧
        s₁.timeEvents.array = [] ∧ timedRuns log₃ = [] ∧ queuedRuns log₃ = [] ∧
        s₂.callQueue = enqueuedCalls log₃ ∧ s₂.onEmpty = none) := by
    rcases runOnEmpty_cases he with ⟨rfl, rfl⟩ | ⟨handle, r, s₃, log₃, harr, _, hrm, hc, rfl, rfl⟩
    · rw [List.append_nil]
      exact ⟨ha, hl, Or.inl hempty⟩
    · have hb := (account_onEmpty ha.wf handle).trans ha.wf
        (account_calls ha.wf (fun d hd => hp r hrm d hd) hc)
      have hb' := hb.withFlags s₃.stop none
      obtain ⟨hnt, hnq⟩ := runs_calls hc
      have hq := (account_calls ha.wf (fun d hd => hp r hrm d hd) hc).queue
      rw [hempty, hnq, List.nil_append, List.nil_append] at hq
      exact ⟨ha.trans hw₀ hb', hb'.late hl, Or.inr ⟨handle, log₃, rfl, harr, hnt, hnq, hq.symm, rfl⟩⟩
  have hnd := hall.nodup_all hw₀
  refine ⟨?_, ?_, ?_, hall.sortedRuns, hall.contents, ?_, hall.queue, ?_⟩
  · intro e he hdue
    have hmem : e ∈ (timedRuns (log₁ ++ log₂)).map Prod.fst ++ cancelledEvents (log₁ ++ log₂) ++
        s₂.timeEvents.array := hall.contents.mem_iff.mp (List.mem_append_left _ he)
    rw [List.mem_append, List.mem_append] at hmem
    constructor
    · intro hrun
      refine ⟨fun hcan => ?_, ?_⟩
      · exact List.disjoint_of_nodup_append (List.nodup_append.mp hnd).1 hrun hcan
      · obtain ⟨r, hr, rfl⟩ := List.mem_map.mp hrun
        exact (hall.ran r hr).1
    · rintro ⟨hnc, hnr⟩
      rcases hmem with (h | h) | h
      · exact h
      · exact absurd h hnc
      · exfalso
        have hna : e ∉ addedEvents (log₁ ++ log₂) := fun hadd => by
          have h1 : s.nextEvent ≤ e := (hall.fresh e hadd).1
          exact absurd (lt_of_lt_of_le (hw.bounded e he) h1) (lt_irrefl _)
        have htime := (hall.unmoved e h hnr hna).1
        have hlt := hlate e h
        rw [htime, hall.currentStep] at hlt
        exact absurd hdue (not_le.mpr hlt)
  · intro r hr
    obtain ⟨_, _, ht, hle, hh⟩ := hall.ran r hr
    refine ⟨(hall.ran_bounded hw₀ hr).1, ht, hle, hh, fun hcan => ?_⟩
    exact List.disjoint_of_nodup_append (List.nodup_append.mp hnd).1
      (List.mem_map.mpr ⟨r, hr, rfl⟩) hcan
  · exact (List.nodup_append.mp (List.nodup_append.mp hnd).1).1
  · intro e he
    have := hlate e he
    rw [hall.currentStep] at this
    exact this
  · rcases hends with h | ⟨handle, log₃, rfl, harr, hnt, hnq, hq, hon⟩
    · exact Or.inl h
    · refine Or.inr ⟨log₁, handle, log₃, rfl, ?_, ?_, hnt, hnq, hq, hon⟩
      · have := ha.queue
        rw [hempty, List.append_nil] at this
        exact this
      · have := ha.contents
        rw [harr, List.append_nil] at this
        exact this

/-- Calls from outside, one after another. -/
theorem Reachable.calls : ∀ {cs : List (Call H)} {s s' : Evtd H} {log : List (Entry H)},
    Reachable s → s.calls cs = some (s', log) → Reachable s'
  | [], s, s', log, hr, h => by
    obtain ⟨rfl, rfl⟩ := Prod.mk.inj (Option.some.inj h)
    exact hr
  | c :: cs, s, s', log, hr, h => by
    obtain ⟨⟨s₁, log₁⟩, h₁, h⟩ := Option.bind_eq_some_iff.mp h
    obtain ⟨⟨s₂, log₂⟩, h₂, h⟩ := Option.bind_eq_some_iff.mp h
    obtain ⟨rfl, rfl⟩ := Prod.mk.inj (Option.some.inj h)
    exact (hr.call c h₁).calls h₂

/-- Calls from outside on a fresh dispatcher, then one step. -/
def runOnce (cs : List (Call Nat)) (script : List (Reaction Nat)) (t : Int) :
    Option (Evtd Nat × Outcome Nat) := do
  let (s, _) ← (create fun _ => ⟨0, 0, 0, none⟩).calls cs
  let outcome ← step script s t
  return (s, outcome)

theorem runOnce_eq_some {cs : List (Call Nat)} {script rest : List (Reaction Nat)} {t : Int}
    {s s' : Evtd Nat} {log : List (Entry Nat)}
    (h : runOnce cs script t = some (s, s', log, rest)) :
    Reachable s ∧ step script s t = some (s', log, rest) := by
  obtain ⟨⟨s₁, log₁⟩, h₁, h⟩ := Option.bind_eq_some_iff.mp h
  obtain ⟨o, h₂, h⟩ := Option.bind_eq_some_iff.mp h
  obtain ⟨rfl, rfl⟩ := Prod.mk.inj (Option.some.inj h)
  exact ⟨(Reachable.create _).calls h₁, h₂⟩

/-- A timed handler cancels one pending event, restarts another and queues a call. -/
theorem step_contract_run :
    ∃ s s' log, Reachable s ∧
      step [⟨[.cancel 1, .restart 2 4, .execute 7 true], false⟩, ⟨[], false⟩] s 5 =
        some (s', log, []) ∧
      ((timedRuns log).map Prod.fst, s'.timeEvents.array) = ([0], [2]) ∧
      StepContract (H := Nat) s 5 log s' := by
  have hrun : (runOnce [.executeIn 1 2 none true true, .executeIn 2 3 (some 1) true true,
        .executeIn 3 3 (some 2) true true]
      [⟨[.cancel 1, .restart 2 4, .execute 7 true], false⟩, ⟨[], false⟩] 5).map
      (fun r => ((timedRuns r.2.2.1).map Prod.fst, r.2.1.timeEvents.array, r.2.2.2.length)) =
      some ([0], [2], 0) := by decide +kernel
  obtain ⟨⟨s, s', log, rest⟩, h, hout⟩ := Option.map_eq_some_iff.mp hrun
  simp only [Prod.mk.injEq, List.length_eq_zero_iff] at hout
  obtain ⟨hr, hstep⟩ := runOnce_eq_some h
  rw [hout.2.2] at hstep
  exact ⟨s, s', log, hr, hstep, by rw [hout.1, hout.2.1],
    step_contract hr (by simp [PositiveScript, Call.Positive]) hstep⟩

/-- What `on_empty` queues is left in the call queue, and a call that restarts a pending event for
now leaves it in the container: with such handlers a step does not end with nothing to do. -/
theorem step_leaves_work :
    (∃ s s' log, Reachable s ∧ (step (H := Nat) [⟨[.execute 8 true], false⟩] s 1 = some (s', log, []))
      ∧ s'.callQueue ≠ []) ∧
    (∃ s s' log, Reachable s ∧ (step (H := Nat) [⟨[.restart 0 0], false⟩] s 1 = some (s', log, []))
      ∧ ∃ e ∈ s'.timeEvents.array, s'.timeEvents.time e ≤ 1) := by
  constructor
  · have hrun : (runOnce [.continueWhenEmpty (some 7)] [⟨[.execute 8 true], false⟩] 1).map
        (fun r => (r.2.1.callQueue.length, r.2.2.2.length)) = some (1, 0) := by decide +kernel
    obtain ⟨⟨s, s', log, rest⟩, h, hout⟩ := Option.map_eq_some_iff.mp hrun
    simp only [Prod.mk.injEq, List.length_eq_zero_iff] at hout
    obtain ⟨hr, hstep⟩ := runOnce_eq_some h
    rw [hout.2] at hstep
    refine ⟨s, s', log, hr, hstep, fun hnil => ?_⟩
    rw [hnil] at hout
    exact absurd hout.1 (by decide)
  · have hrun : (runOnce [.executeIn 3 5 (some 0) true true, .execute 8 true]
        [⟨[.restart 0 0], false⟩] 1).map
        (fun r => (r.2.1.timeEvents.array, r.2.1.timeEvents.time 0, r.2.2.2.length)) =
        some ([0], 1, 0) := by decide +kernel
    obtain ⟨⟨s, s', log, rest⟩, h, hout⟩ := Option.map_eq_some_iff.mp hrun
    simp only [Prod.mk.injEq, List.length_eq_zero_iff] at hout
    obtain ⟨hr, hstep⟩ := runOnce_eq_some h
    rw [hout.2.2] at hstep
    exact ⟨s, s', log, hr, hstep, 0, by rw [hout.1]; simp, by rw [hout.2.1]⟩

end Evtd

end IotDeviceSdk.EventDispatcher
