import Mathlib.Data.Multiset.AddSub
import IotDeviceSdk.EventDispatcher.TimeEventSpec
import IotDeviceSdk.Infra.Run

/-!
# Runs of time event operations

`History` is the container with a record of what was done to it: which events were added, handed
out by `get_top`, cancelled, restarted, and which event each handle was last used for. Events are
numbered in the order in which `add` was called for them.

* `Kept` is the invariant of a history, and `kept_step` that every operation keeps it.
* `timeEvents_contract` is what a user of the container relies on, after any operations.
-/

namespace IotDeviceSdk.EventDispatcher

open Datastructures Infra

variable {H : Type}

/-- An operation on the container. `mem` is the answer of the allocator. -/
inductive Op (H : Type) where
  | add (eventHandle : H) (timeOfExecution : Int) (handle : Option HandlePtr) (mem : Bool)
  | getTop
  | restart (handle : HandlePtr) (newTime : Int)
  | cancel (handle : HandlePtr)

/-- The container and what was done to it. -/
structure History (H : Type) where
  events : TimeEvents H
  next : EventPtr
  added : List EventPtr
  output : List EventPtr
  cancelled : List EventPtr
  restarted : List EventPtr
  lastEvent : HandlePtr → Option EventPtr

namespace History

/-- A fresh container, over a memory without time events and with empty handles. -/
def init (memory : EventPtr → TimeEvent H) : History H where
  events := { container := IotcVector.create, event := memory, ptrToPosition := fun _ => none }
  next := 0
  added := []
  output := []
  cancelled := []
  restarted := []
  lastEvent := fun _ => none

/-- One operation, with its record. -/
def step (s : History H) : Op H → Option (History H)
  | .add eventHandle timeOfExecution handle mem => do
    let e := s.next
    let (c, state) ← (s.events.newEvent e eventHandle timeOfExecution).add e handle mem
    match state with
    | .ok =>
      return { s with
        events := c
        next := e + 1
        added := s.added ++ [e]
        lastEvent := fun h => if handle = some h then some e else s.lastEvent h }
    | _ => return { s with events := c, next := e + 1 }
  | .getTop => do
    let (c, top) ← s.events.getTop
    return { s with events := c, output := s.output ++ top.toList }
  | .restart handle newTime => do
    let (c, _) ← s.events.restart handle newTime
    return { s with
      events := c
      restarted := s.restarted ++ (s.events.ptrToPosition handle).toList }
  | .cancel handle => do
    let (c, e, _) ← s.events.cancel handle
    return { s with events := c, cancelled := s.cancelled ++ e.toList }

/-- The preconditions of the operations: a handle that is added is empty, a handle that is
restarted or cancelled is not. -/
def Callable (s : History H) : Op H → Prop
  | .add _ _ handle _ => ∀ h ∈ handle, s.events.ptrToPosition h = none
  | .getTop => True
  | .restart handle _ => s.events.ptrToPosition handle ≠ none
  | .cancel handle => s.events.ptrToPosition handle ≠ none

/-- Two events that were never restarted and have the same time are in the order of their `add`. -/
def InOrder (time : EventPtr → Int) (restarted : List EventPtr) (a b : EventPtr) : Prop :=
  time a = time b → a ∉ restarted → b ∉ restarted → a < b

/-- The invariant of a history. -/
structure Kept (s : History H) : Prop where
  valid : s.events.Valid
  contents : s.added.Perm (s.output ++ s.cancelled ++ s.events.array)
  numbered : s.added.Pairwise (· < ·)
  fresh : ∀ e ∈ s.added, e < s.next
  lastAdded : ∀ h e, s.lastEvent h = some e → e ∈ s.added
  handles : ∀ h, s.events.ptrToPosition h = (s.lastEvent h).filter (· ∈ s.events.array)
  order : s.events.array.Pairwise (InOrder s.events.time s.restarted)
  outputOrder : s.output.Pairwise (InOrder s.events.time s.restarted)
  outputFirst : ∀ x ∈ s.output, ∀ y ∈ s.events.array, InOrder s.events.time s.restarted x y

theorem kept_init (memory : EventPtr → TimeEvent H) : (init memory).Kept where
  valid := TimeEvents.valid_empty rfl fun _ => rfl
  contents := List.Perm.refl _
  numbered := List.Pairwise.nil
  fresh e he := by simp [init] at he
  lastAdded h e he := by simp [init] at he
  handles h := rfl
  order := List.Pairwise.nil
  outputOrder := List.Pairwise.nil
  outputFirst x hx := by simp [init] at hx

variable {s s' : History H}

theorem Kept.mem_added (hs : s.Kept) {e : EventPtr} (he : e ∈ s.events.array) : e ∈ s.added :=
  hs.contents.mem_iff.mpr (by simp [he])

theorem Kept.next_notMem (hs : s.Kept) : s.next ∉ s.added := fun h =>
  absurd (hs.fresh _ h) (lt_irrefl _)

/-- Events that went are not in the container. -/
theorem Kept.disjoint (hs : s.Kept) :
    ∀ x ∈ s.output ++ s.cancelled, x ∉ s.events.array := by
  have hnd : (s.output ++ s.cancelled ++ s.events.array).Nodup :=
    hs.contents.nodup_iff.mp (hs.numbered.imp fun h => Nat.ne_of_lt h)
  exact fun x hx hx' => List.disjoint_of_nodup_append hnd hx hx'

/-! ## Each operation keeps the invariant -/

/-- A new event in memory changes nothing that the invariant speaks about. -/
theorem Kept.newEvent (hs : s.Kept) (eventHandle : H) (t : Int) :
    Kept { s with events := s.events.newEvent s.next eventHandle t, next := s.next + 1 } := by
  have hne : ∀ x ∈ s.added, x ≠ s.next := fun x hx heq => hs.next_notMem (heq ▸ hx)
  have hnext : s.next ∉ s.events.array := fun h => hs.next_notMem (hs.mem_added h)
  have htime : ∀ x ∈ s.added,
      (s.events.newEvent s.next eventHandle t).time x = s.events.time x := fun x hx => by
    simp [TimeEvents.time, TimeEvents.newEvent, hne x hx]
  have hout : ∀ x ∈ s.output, x ∈ s.added := fun x hx => hs.contents.mem_iff.mpr (by simp [hx])
  refine ⟨(TimeEvents.newEvent_valid hs.valid hnext eventHandle t).1, hs.contents, hs.numbered, ?_,
    hs.lastAdded, hs.handles, ?_, ?_, ?_⟩
  · exact fun e he => Nat.lt_succ_of_lt (hs.fresh e he)
  · refine hs.order.imp_of_mem fun ha hb hab => ?_
    simp only [InOrder, htime _ (hs.mem_added ha), htime _ (hs.mem_added hb)]
    exact hab
  · refine hs.outputOrder.imp_of_mem fun ha hb hab => ?_
    simp only [InOrder, htime _ (hout _ ha), htime _ (hout _ hb)]
    exact hab
  · intro x hx y hy
    simp only [InOrder, htime _ (hout _ hx), htime _ (hs.mem_added hy)]
    exact hs.outputFirst x hx y hy

/-- What `add` does to a history: nothing but the use of a number, or the event is in. -/
theorem step_add (hs : s.Kept) (eventHandle : H) (t : Int) (mem : Bool) {handle : Option HandlePtr}
    (hc : ∀ h ∈ handle, s.events.ptrToPosition h = none) :
    step s (.add eventHandle t handle mem) =
        some { s with events := s.events.newEvent s.next eventHandle t, next := s.next + 1 } ∨
      ∃ c P S, step s (.add eventHandle t handle mem) = some { s with
          events := c
          next := s.next + 1
          added := s.added ++ [s.next]
          lastEvent := fun h => if handle = some h then some s.next else s.lastEvent h } ∧
        c.Valid ∧ s.events.array = P ++ S ∧ c.array = P ++ s.next :: S ∧
        c.time s.next = t ∧ (∀ x ≠ s.next, c.time x = s.events.time x) ∧
        (∀ x ∈ S, t < s.events.time x) ∧
        ∀ h, c.ptrToPosition h = if handle = some h then some s.next
          else s.events.ptrToPosition h := by
  have hnext : s.next ∉ s.events.array := fun h => hs.next_notMem (hs.mem_added h)
  obtain ⟨hv, _⟩ := TimeEvents.newEvent_valid hs.valid hnext eventHandle t
  have hte : (s.events.newEvent s.next eventHandle t).time s.next = t := by
    simp [TimeEvents.time, TimeEvents.newEvent]
  have htx : ∀ x ≠ s.next, (s.events.newEvent s.next eventHandle t).time x = s.events.time x :=
    fun x hx => by simp [TimeEvents.time, TimeEvents.newEvent, hx]
  have hnull : ((s.events.newEvent s.next eventHandle t).event s.next).timeEventHandle = none := by
    simp [TimeEvents.newEvent]
  rcases TimeEvents.add_spec hv hnext hnull hc mem with hfail |
    ⟨c, P, S, hadd, hv', harr, harr', _, hS, htime, _, _, hptr⟩
  · left
    simp only [step, hfail, Option.bind_eq_bind, Option.bind_some, Option.pure_def]
  · right
    refine ⟨c, P, S, ?_, hv', harr, harr', ?_, ?_, ?_, hptr⟩
    · simp only [step, hadd, Option.bind_eq_bind, Option.bind_some, Option.pure_def]
    · rw [htime, hte]
    · intro x hx
      rw [htime, htx x hx]
    · intro x hx
      have := hS x hx
      rw [hte, htx x] at this
      · exact this
      · rintro rfl
        exact hnext (by rw [show s.events.array = P ++ S from harr]; simp [hx])

theorem kept_add (hs : s.Kept) {eventHandle : H} {t : Int} {handle : Option HandlePtr} {mem : Bool}
    (h : step s (.add eventHandle t handle mem) = some s')
    (hc : ∀ h ∈ handle, s.events.ptrToPosition h = none) : s'.Kept := by
  rcases step_add hs eventHandle t mem hc with hfail |
    ⟨c, P, S, hadd, hv, harr, harr', hte, htx, hS, hptr⟩
  · rw [hfail, Option.some.injEq] at h
    exact h ▸ hs.newEvent eventHandle t
  · rw [hadd, Option.some.injEq] at h
    subst h
    have hlt : ∀ x ∈ s.added, x < s.next := hs.fresh
    have hout : ∀ x ∈ s.output, x ∈ s.added := fun x hx => hs.contents.mem_iff.mpr (by simp [hx])
    have htadd : ∀ x ∈ s.added, c.time x = s.events.time x := fun x hx =>
      htx x (Nat.ne_of_lt (hlt x hx))
    have hmem : ∀ x, x ∈ c.array ↔ x = s.next ∨ x ∈ s.events.array := fun x => by
      rw [harr', List.perm_middle.mem_iff, List.mem_cons, harr]
    refine ⟨hv, ?_, ?_, ?_, ?_, ?_, ?_, ?_, ?_⟩
    · refine (List.perm_append_singleton _ _).trans ?_
      have hperm := hs.contents
      rw [harr] at hperm
      refine (hperm.cons s.next).trans ?_
      rw [show c.array = P ++ s.next :: S from harr', ← List.append_assoc, ← List.append_assoc]
      exact List.perm_middle.symm
    · refine List.pairwise_append.mpr ⟨hs.numbered, List.pairwise_singleton _ _, ?_⟩
      intro a ha b hb
      rw [List.mem_singleton.mp hb]
      exact hlt a ha
    · intro x hx
      rcases List.mem_append.mp hx with hx | hx
      · exact Nat.lt_succ_of_lt (hlt x hx)
      · rw [List.mem_singleton.mp hx]
        exact Nat.lt_succ_self _
    · intro h x hx
      simp only at hx
      split at hx
      · rw [← Option.some.inj hx]
        simp
      · exact List.mem_append_left _ (hs.lastAdded h x hx)
    · intro h
      show c.ptrToPosition h =
        (if handle = some h then some s.next else s.lastEvent h).filter (· ∈ c.array)
      rw [hptr]
      split
      · exact (Option.filter_eq_some_iff.mpr ⟨rfl, by simp [hmem]⟩).symm
      · rw [hs.handles h]
        cases hl : s.lastEvent h with
        | none => rfl
        | some x =>
          have hne : x ≠ s.next := Nat.ne_of_lt (hlt x (hs.lastAdded h x hl))
          simp [Option.filter_some, hmem, hne]
    · have horder := hs.order
      rw [harr] at horder
      rw [List.pairwise_append] at horder
      show List.Pairwise _ c.array
      rw [harr', List.pairwise_append, List.pairwise_cons]
      have hP : ∀ x ∈ P, x ∈ s.added := fun x hx => hs.mem_added (by rw [harr]; simp [hx])
      have hSm : ∀ x ∈ S, x ∈ s.added := fun x hx => hs.mem_added (by rw [harr]; simp [hx])
      refine ⟨?_, ⟨?_, ?_⟩, ?_⟩
      · refine horder.1.imp_of_mem fun ha hb hab => ?_
        simp only [InOrder, htadd _ (hP _ ha), htadd _ (hP _ hb)]
        exact hab
      · intro b hb heq
        have := hS b hb
        simp only [hte, htadd b (hSm b hb)] at heq
        omega
      · refine horder.2.1.imp_of_mem fun ha hb hab => ?_
        simp only [InOrder, htadd _ (hSm _ ha), htadd _ (hSm _ hb)]
        exact hab
      · intro a ha b hb
        rcases List.mem_cons.mp hb with rfl | hb
        · exact fun _ _ _ => hlt a (hP a ha)
        · simp only [InOrder, htadd a (hP a ha), htadd b (hSm b hb)]
          exact horder.2.2 a ha b hb
    · refine hs.outputOrder.imp_of_mem fun ha hb hab => ?_
      simp only [InOrder, htadd _ (hout _ ha), htadd _ (hout _ hb)]
      exact hab
    · intro x hx y hy
      rcases (hmem y).mp hy with rfl | hy
      · exact fun _ _ _ => hlt x (hout x hx)
      · simp only [InOrder, htadd x (hout x hx), htadd y (hs.mem_added hy)]
        exact hs.outputFirst x hx y hy

/-- What taking `e` out does to the invariant's clauses about handles and order. -/
theorem Kept.remove (hs : s.Kept) {c : TimeEvents H} {L R : List EventPtr} {e : EventPtr}
    (harr : s.events.array = L ++ e :: R) (harr' : c.array = L ++ R)
    (htime : c.time = s.events.time)
    (hptr : ∀ h, c.ptrToPosition h =
      if s.events.ptrToPosition h = some e then none else s.events.ptrToPosition h) :
    (∀ h, c.ptrToPosition h = (s.lastEvent h).filter (· ∈ c.array)) ∧
      c.array.Pairwise (InOrder c.time s.restarted) := by
  have hnd := hs.valid.placed.nodup
  rw [harr] at hnd
  have heLR : e ∉ L ++ R := (List.nodup_cons.mp (List.perm_middle.nodup_iff.mp hnd)).1
  have hmem : ∀ x, x ∈ s.events.array ↔ x = e ∨ x ∈ c.array := fun x => by
    rw [harr, harr', List.perm_middle.mem_iff, List.mem_cons]
  refine ⟨?_, ?_⟩
  · intro h
    rw [hptr, hs.handles h]
    cases hl : s.lastEvent h with
    | none => simp
    | some x =>
      by_cases hx : x = e
      · subst hx
        have hxc : x ∉ c.array := harr' ▸ heLR
        simp [Option.filter_some, hmem, hxc]
      · simp only [Option.filter_some, hmem, hx, false_or]
        split <;> simp_all
  · rw [harr', htime]
    refine hs.order.sublist ?_
    rw [harr]
    exact List.Sublist.append_left (List.sublist_cons_self e R) L

theorem kept_getTop (hs : s.Kept) (h : step s .getTop = some s') : s'.Kept := by
  cases harr : s.events.array with
  | nil =>
    simp only [step, TimeEvents.getTop_empty harr, Option.bind_eq_bind, Option.bind_some,
      Option.pure_def, Option.toList_none, List.append_nil, Option.some.injEq] at h
    exact h ▸ hs
  | cons e R =>
    obtain ⟨c, htop, hv, harr', hsame, hptr⟩ := TimeEvents.getTop_spec hs.valid harr
    simp only [step, htop, Option.bind_eq_bind, Option.bind_some, Option.pure_def,
      Option.toList_some, Option.some.injEq] at h
    subst h
    have hsplit : s.events.array = [] ++ e :: R := harr
    have hcR : c.array = [] ++ R := harr'
    obtain ⟨hhandles, horder⟩ := hs.remove hsplit hcR hsame.time hptr
    have hO := hs.order
    rw [harr, List.pairwise_cons] at hO
    refine ⟨hv, ?_, hs.numbered, hs.fresh, hs.lastAdded, hhandles, ?_, ?_, ?_⟩
    · have hperm := hs.contents
      rw [harr] at hperm
      refine hperm.trans ?_
      show (s.output ++ s.cancelled ++ e :: R).Perm (s.output ++ [e] ++ s.cancelled ++ c.array)
      rw [harr', List.append_assoc, List.append_assoc, List.append_assoc]
      refine List.Perm.append_left _ ?_
      exact List.perm_middle.trans (List.Perm.refl _)
    · exact horder
    · show List.Pairwise (InOrder c.time s.restarted) _
      rw [hsame.time]
      refine List.pairwise_append.mpr ⟨hs.outputOrder, List.pairwise_singleton _ _, ?_⟩
      intro a ha b hb
      rw [List.mem_singleton.mp hb]
      exact hs.outputFirst a ha e (by rw [harr]; simp)
    · intro x hx y hy
      show InOrder c.time s.restarted x y
      rw [hsame.time]
      have hy' : y ∈ R := harr' ▸ hy
      rcases List.mem_append.mp hx with hx | hx
      · exact hs.outputFirst x hx y (by rw [harr]; simp [hy'])
      · rw [List.mem_singleton.mp hx]
        exact hO.1 y hy'

theorem kept_cancel (hs : s.Kept) {k : HandlePtr} (h : step s (.cancel k) = some s') :
    s'.Kept := by
  cases hk : s.events.ptrToPosition k with
  | none => simp [step, TimeEvents.cancel, hk] at h
  | some e =>
    obtain ⟨c, L, R, harr, hcan, hv, harr', hsame, hptr⟩ := TimeEvents.cancel_spec hs.valid hk
    simp only [step, hcan, Option.bind_eq_bind, Option.bind_some, Option.pure_def,
      Option.toList_some, Option.some.injEq] at h
    subst h
    obtain ⟨hhandles, horder⟩ := hs.remove harr harr' hsame.time hptr
    refine ⟨hv, ?_, hs.numbered, hs.fresh, hs.lastAdded, hhandles, ?_, ?_, ?_⟩
    · have hperm := hs.contents
      rw [harr] at hperm
      refine hperm.trans ?_
      show (s.output ++ s.cancelled ++ (L ++ e :: R)).Perm
        (s.output ++ (s.cancelled ++ [e]) ++ c.array)
      rw [harr', List.append_assoc, List.append_assoc, List.append_assoc]
      refine List.Perm.append_left _ (List.Perm.append_left _ ?_)
      exact List.perm_middle
    · exact horder
    · show List.Pairwise (InOrder c.time s.restarted) _
      rw [hsame.time]
      exact hs.outputOrder
    · intro x hx y hy
      show InOrder c.time s.restarted x y
      rw [hsame.time]
      refine hs.outputFirst x hx y ?_
      rw [harr]
      rw [show c.array = L ++ R from harr'] at hy
      simp only [List.mem_append, List.mem_cons] at hy ⊢
      exact hy.imp id Or.inr

theorem kept_restart (hs : s.Kept) {k : HandlePtr} {t : Int}
    (h : step s (.restart k t) = some s') : s'.Kept := by
  cases hk : s.events.ptrToPosition k with
  | none => simp [step, TimeEvents.restart, hk] at h
  | some e =>
    obtain ⟨c, L, R, P, S, harr, hre, hv, harr', hPS, htime, _, _, hptr⟩ :=
      TimeEvents.restart_spec hs.valid hk t
    simp only [step, hre, hk, Option.bind_eq_bind, Option.bind_some, Option.pure_def,
      Option.toList_some, Option.some.injEq] at h
    subst h
    have hperm : c.array.Perm s.events.array := by
      rw [harr', harr]
      refine List.perm_middle.trans ?_
      rw [hPS]
      exact List.perm_middle.symm
    have hmem : ∀ x, x ∈ c.array ↔ x ∈ s.events.array := fun x => hperm.mem_iff
    -- the restarted event is exempt, and the others have the times they had
    have hin : ∀ a b, InOrder s.events.time s.restarted a b → c.time a = c.time b → a ∉ s.restarted ++ [e] →
        b ∉ s.restarted ++ [e] → a < b := by
      intro a b hab heq ha hb
      simp only [List.mem_append, List.mem_singleton, not_or] at ha hb
      rw [htime, Function.update_of_ne ha.2, Function.update_of_ne hb.2] at heq
      exact hab heq ha.1 hb.1
    refine ⟨hv, ?_, hs.numbered, hs.fresh, hs.lastAdded, ?_, ?_, ?_, ?_⟩
    · exact hs.contents.trans (List.Perm.append_left _ hperm.symm)
    · intro h
      rw [hptr, hs.handles h]
      simp only [hmem]
    · show List.Pairwise _ c.array
      have hO := hs.order
      have hsub : (P ++ S).Pairwise (InOrder s.events.time s.restarted) := by
        refine hO.sublist ?_
        rw [hPS, harr]
        exact List.Sublist.append_left (List.sublist_cons_self e R) L
      rw [harr', List.pairwise_append, List.pairwise_cons]
      rw [List.pairwise_append] at hsub
      refine ⟨hsub.1.imp fun hab => hin _ _ hab, ⟨?_, hsub.2.1.imp fun hab => hin _ _ hab⟩, ?_⟩
      · exact fun b _ _ he _ => absurd (by simp) he
      · intro a ha b hb
        rcases List.mem_cons.mp hb with rfl | hb
        · exact fun _ _ he => absurd (by simp) he
        · exact hin _ _ (hsub.2.2 a ha b hb)
    · exact hs.outputOrder.imp fun hab => hin _ _ hab
    · exact fun x hx y hy => hin _ _ (hs.outputFirst x hx y ((hmem y).mp hy))

/-- **Every operation keeps the invariant.** -/
theorem kept_step (s : History H) (op : Op H) (s' : History H) (hs : s.Kept)
    (h : step s op = some s') : s'.Kept := by
  cases op with
  | add eventHandle t handle mem =>
    refine kept_add hs h fun k hk => ?_
    cases hk
    by_contra hne
    have : (s.events.ptrToPosition k).isNone = false := by
      simpa [Option.isSome_iff_ne_none] using hne
    simp [step, TimeEvents.add, TimeEvents.newEvent, guard, this] at h
  | getTop => exact kept_getTop hs h
  | restart k t => exact kept_restart hs h
  | cancel k => exact kept_cancel hs h

theorem kept_run {memory : EventPtr → TimeEvent H} {ops : List (Op H)}
    (h : run step (init memory) ops = some s) : s.Kept :=
  run_invariant kept_step (kept_init memory) h

/-- No assertion fails and no `NULL` is followed when the caller meets the preconditions. -/
theorem Kept.step_isSome (hs : s.Kept) {op : Op H} (hc : s.Callable op) :
    ∃ s', step s op = some s' := by
  cases op with
  | add eventHandle t handle mem =>
    rcases step_add hs eventHandle t mem hc with h | ⟨c, P, S, h, _⟩
    · exact ⟨_, h⟩
    · exact ⟨_, h⟩
  | getTop =>
    cases harr : s.events.array with
    | nil => exact ⟨_, by simp only [step, TimeEvents.getTop_empty harr, Option.bind_eq_bind]; rfl⟩
    | cons e R =>
      obtain ⟨c, htop, _⟩ := TimeEvents.getTop_spec hs.valid harr
      exact ⟨_, by simp only [step, htop, Option.bind_eq_bind, Option.bind_some]; rfl⟩
  | restart k t =>
    obtain ⟨e, hk⟩ := Option.ne_none_iff_exists'.mp hc
    obtain ⟨c, L, R, P, S, _, hre, _⟩ := TimeEvents.restart_spec hs.valid hk t
    exact ⟨_, by simp only [step, hre, Option.bind_eq_bind, Option.bind_some]; rfl⟩
  | cancel k =>
    obtain ⟨e, hk⟩ := Option.ne_none_iff_exists'.mp hc
    obtain ⟨c, L, R, _, hcan, _⟩ := TimeEvents.cancel_spec hs.valid hk
    exact ⟨_, by simp only [step, hcan, Option.bind_eq_bind, Option.bind_some]; rfl⟩

/-! ## The contract -/

/-- What a user of the container relies on. -/
structure Contract (s : History H) : Prop where
  /-- the top is an event of the container, and none is earlier -/
  top : ∀ e, s.events.peekTop = some e →
    e ∈ s.events.array ∧ ∀ x ∈ s.events.array, s.events.time e ≤ s.events.time x
  /-- `get_top` returns what `peek_top` shows, which is `NULL` only when there is nothing -/
  getTop : ∃ c, s.events.getTop = some (c, s.events.peekTop)
  top_none : s.events.peekTop = none → s.events.array = []
  /-- the stored position of an event is its index -/
  position : ∀ (i : Nat) (e : EventPtr), s.events.array[i]? = some e →
    (s.events.event e).position = i
  /-- a handle points to the event it was last added with, as long as that event is there -/
  handle : ∀ h, s.events.ptrToPosition h =
    (s.lastEvent h).filter fun e => e ∈ s.events.array
  /-- the contents are what was added, less what was removed -/
  contents : (s.events.array : Multiset EventPtr) =
    (s.added : Multiset EventPtr) - ((s.output : Multiset EventPtr) + (s.cancelled : Multiset EventPtr))
  /-- equal times and no restart: first in, first out -/
  numbered : s.added.Pairwise (· < ·)
  fifo : (s.output ++ s.events.array).Pairwise (InOrder s.events.time s.restarted)
  /-- an `add` that fails for want of memory leaves everything as it was -/
  failedAdd : ∀ (eventHandle : H) (t : Int) (handle : Option HandlePtr) (mem : Bool),
    s.Callable (.add eventHandle t handle mem) → s.events.container.push s.next mem = none →
    ∃ s', step s (.add eventHandle t handle mem) = some s' ∧
      s'.events.container = s.events.container ∧
      s'.events.ptrToPosition = s.events.ptrToPosition ∧
      (∀ e ∈ s.events.array, s'.events.event e = s.events.event e) ∧ s'.added = s.added
  /-- within the preconditions no assertion fails -/
  total : ∀ op, s.Callable op → ∃ s', step s op = some s'

theorem Kept.contract (hs : s.Kept) : s.Contract where
  top e he := by
    obtain ⟨R, harr⟩ := List.head?_eq_some_iff.mp he
    have hsorted := hs.valid.sorted
    rw [harr, List.pairwise_cons] at hsorted
    refine ⟨by rw [harr]; simp, ?_⟩
    rw [harr]
    intro x hx
    rcases List.mem_cons.mp hx with rfl | hx
    · exact le_refl _
    · exact hsorted.1 x hx
  getTop := by
    cases harr : s.events.array with
    | nil => exact ⟨_, by rw [TimeEvents.getTop_empty harr, TimeEvents.peekTop, harr]; rfl⟩
    | cons e R =>
      obtain ⟨c, htop, _⟩ := TimeEvents.getTop_spec hs.valid harr
      exact ⟨c, by rw [htop, TimeEvents.peekTop, harr]; rfl⟩
  top_none h := List.head?_eq_none_iff.mp h
  position := hs.valid.placed
  handle := hs.handles
  contents := by
    rw [Multiset.coe_eq_coe.mpr (hs.contents.trans List.perm_append_comm), ← Multiset.coe_add,
      Multiset.coe_add s.output s.cancelled, Multiset.add_sub_cancel_right]
  numbered := hs.numbered
  fifo := List.pairwise_append.mpr ⟨hs.outputOrder, hs.order, hs.outputFirst⟩
  failedAdd eventHandle t handle mem hc hfull := by
    have hnext : s.next ∉ s.events.array := fun h => hs.next_notMem (hs.mem_added h)
    rcases step_add hs eventHandle t mem hc with h |
      ⟨c, P, S, h, _⟩
    · exact ⟨_, h, rfl, rfl, (TimeEvents.newEvent_valid hs.valid hnext eventHandle t).2, rfl⟩
    · exfalso
      have hfull' : (s.events.newEvent s.next eventHandle t).container.push s.next mem = none :=
        hfull
      simp only [step, TimeEvents.add, TimeEvents.insertTimeEvent, hfull', Option.bind_eq_bind,
        Option.bind_some, Option.pure_def, Option.bind_eq_some_iff] at h
      obtain ⟨r, ⟨_, _, hr⟩, h⟩ := h
      rw [← Option.some.inj hr] at h
      have hadded := congrArg History.added (Option.some.inj h)
      simp at hadded
  total _ hc := hs.step_isSome hc

/-- **After any operations, whatever their times and whatever the allocator answers, the container
meets its contract.** -/
theorem timeEvents_contract {memory : EventPtr → TimeEvent H} {ops : List (Op H)}
    (h : run step (init memory) ops = some s) : s.Contract :=
  (kept_run h).contract

/-- Equal times, a restart to a later time, a cancel and a second use of a handle. -/
theorem timeEvents_contract_run :
    ∃ s, run step (init fun _ => ⟨(), 0, 0, none⟩)
        [.add () 5 (some 0) true, .add () 5 (some 1) true, .restart 0 9, .getTop,
          .add () 5 (some 1) true, .cancel 0, .getTop] = some s ∧
      (s.output, s.cancelled, s.events.array) = ([1, 2], [0], []) ∧ s.Contract := by
  have hrun : (run step (init fun _ => ⟨(), 0, 0, none⟩)
      [.add () 5 (some 0) true, .add () 5 (some 1) true, .restart 0 9, .getTop,
        .add () 5 (some 1) true, .cancel 0, .getTop]).map
      (fun s => (s.output, s.cancelled, s.events.array)) = some ([1, 2], [0], []) := rfl
  obtain ⟨s, hs, hout⟩ := Option.map_eq_some_iff.mp hrun
  exact ⟨s, hs, hout, timeEvents_contract hs⟩

end History

end IotDeviceSdk.EventDispatcher
