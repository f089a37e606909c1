import Mathlib.Order.Basic
import IotDeviceSdk.Context.Globals

/-!
# The contexts that are registered

What a create and a deletion do to the handle table, whatever the allocator answers. The address of a
block is not used again, so that a context that is deleted does not come back.

* `createContext_grown` — at most one context is added, with an address and a handle of its own
* `deleteContext_cases` — one handle is freed, or with the last reference the handle table
-/

namespace IotDeviceSdk.Context

open Datastructures Infra

variable {c : Config} {m m' : Heap}

/-! ## Addresses -/

theorem next_vectorCreate {v : Option VectorBlocks} (h : vectorCreate m = (v, m')) :
    m.next ≤ m'.next := by
  unfold vectorCreate at h
  split at h
  · next h₁ =>
    obtain ⟨-, rfl⟩ := Prod.mk.inj h
    exact (Heap.next_alloc h₁).1
  · next h₁ =>
    split at h <;> obtain ⟨-, rfl⟩ := Prod.mk.inj h
    · next h₂ => exact (Heap.next_alloc h₁).1.trans (Heap.next_alloc h₂).1
    · next h₂ => exact (Heap.next_alloc h₁).1.trans (Heap.next_alloc h₂).1

theorem next_vectorCreateFrom {v : Option VectorBlocks} (h : vectorCreateFrom m = (v, m')) :
    m.next ≤ m'.next := by
  unfold vectorCreateFrom at h
  split at h <;> obtain ⟨-, rfl⟩ := Prod.mk.inj h <;> next h₁ => exact (Heap.next_alloc h₁).1

theorem next_evtdCreateInstance {e : Option EvtdInstance} (h : evtdCreateInstance m = (e, m')) :
    m.next ≤ m'.next := by
  unfold evtdCreateInstance at h
  split at h
  · next h₁ =>
    obtain ⟨-, rfl⟩ := Prod.mk.inj h
    exact (Heap.next_alloc h₁).1
  · next h₁ =>
    have hle := (Heap.next_alloc h₁).1
    split at h
    · next h₂ =>
      obtain ⟨-, rfl⟩ := Prod.mk.inj h
      exact hle.trans (next_vectorCreate h₂:)
    · next h₂ =>
      replace hle := hle.trans (next_vectorCreate h₂)
      split at h
      · next h₃ =>
        obtain ⟨-, rfl⟩ := Prod.mk.inj h
        exact hle.trans (next_vectorCreate h₃:)
      · next h₃ =>
        replace hle := hle.trans (next_vectorCreate h₃)
        split at h <;> obtain ⟨-, rfl⟩ := Prod.mk.inj h
        · next h₄ => exact hle.trans (next_vectorCreate h₄:)
        · next h₄ => exact hle.trans (next_vectorCreate h₄)

theorem next_backoffConfigureUsingData {b b' : BackoffStatus} {state : IotcState}
    (h : backoffConfigureUsingData b m = (state, b', m')) : m.next ≤ m'.next := by
  simp only [backoffConfigureUsingData, backoffReleaseLuts] at h
  have hle : m.next ≤ (m.freeAll b.blocks).next := Nat.le_of_eq Heap.next_freeAll.symm
  split at h
  · next h₁ =>
    obtain ⟨-, -, rfl⟩ := Prod.mk.inj h |>.imp id Prod.mk.inj
    exact hle.trans (next_vectorCreateFrom h₁)
  · next h₁ =>
    replace hle := hle.trans (next_vectorCreateFrom h₁)
    split at h <;> obtain ⟨-, -, rfl⟩ := Prod.mk.inj h |>.imp id Prod.mk.inj
    · next h₂ => exact hle.trans (next_vectorCreateFrom h₂)
    · next h₂ => exact hle.trans (next_vectorCreateFrom h₂)

theorem next_makeTimedTaskContainer {t : Option TimedTaskContainer}
    (h : makeTimedTaskContainer m = (t, m')) : m.next ≤ m'.next := by
  unfold makeTimedTaskContainer at h
  split at h
  · next h₁ =>
    obtain ⟨-, rfl⟩ := Prod.mk.inj h
    exact (Heap.next_alloc h₁).1
  · next h₁ =>
    obtain ⟨-, rfl⟩ := Prod.mk.inj h
    exact (Heap.next_alloc h₁).1.trans (next_vectorCreate rfl)

theorem next_layersCreate {n : Nat} {layers : List (Option Ptr)} (h : layersCreate n m = (layers, m')) :
    m.next ≤ m'.next := by
  induction n generalizing m layers with
  | zero =>
    obtain ⟨-, rfl⟩ := Prod.mk.inj h
    exact Nat.le_refl _
  | succ n ih =>
    obtain ⟨-, rfl⟩ := Prod.mk.inj h
    exact (Heap.next_alloc rfl).1.trans (ih rfl)

theorem next_layerChainCreate {n : Nat} {layers : List Ptr}
    (h : layerChainCreate n m = some (layers, m')) : m.next ≤ m'.next := by
  simp only [layerChainCreate] at h
  split at h
  · obtain ⟨-, rfl⟩ := Prod.mk.inj (Option.some.inj h)
    exact next_layersCreate rfl
  · cases h

/-! ## Handles -/

/-- The context that a handle denotes. -/
def Denotes (g : Globals) (contextHandle : Int) (context : Ptr) : Prop :=
  ∃ t ∈ g.contextHandlesVector, t.slots.objectForHandle contextHandle = some context

theorem Denotes.mem {g : Globals} {contextHandle : Int} {x : Ptr} (h : Denotes g contextHandle x) :
    x ∈ g.registered := by
  obtain ⟨t, ht, hx⟩ := h
  rw [Globals.registered, Option.mem_def.1 ht]
  exact Handles.mem_objects.2 (Handles.objectForHandle_mem hx)

/-- Between two worlds at most one context was added, with an address and a handle of its own. -/
structure Grown (w w' : World) : Prop where
  next : w.heap.next ≤ w'.heap.next
  registered : w'.globals.registered = w.globals.registered ∨
    ∃ p, w.heap.next ≤ p ∧ p < w'.heap.next ∧
      w'.globals.registered.Perm (p :: w.globals.registered)
  denoted : ∀ h x, Denotes w.globals h x → Denotes w'.globals h x

theorem Grown.of_eq {w w' : World} (hnext : w.heap.next ≤ w'.heap.next)
    (h : w'.globals.contextHandlesVector = w.globals.contextHandlesVector) : Grown w w' :=
  ⟨hnext, .inl (by rw [Globals.registered, h, Globals.registered]),
    fun _ _ ⟨t, ht, hx⟩ => ⟨t, h ▸ ht, hx⟩⟩

theorem Grown.trans {w w₁ w' : World} (hnext : w.heap.next ≤ w₁.heap.next)
    (hregistered : w₁.globals.registered = w.globals.registered)
    (hdenoted : ∀ h x, Denotes w.globals h x → Denotes w₁.globals h x) (h : Grown w₁ w') :
    Grown w w' := by
  refine ⟨hnext.trans h.next, ?_, fun k x hx => h.denoted k x (hdenoted k x hx)⟩
  rw [← hregistered]
  exact h.registered.imp id fun ⟨p, hle, hlt, hp⟩ => ⟨p, hnext.trans hle, hlt, hp⟩

/-- What a registration does to the handle table. -/
theorem HandleTable.register_cases {t : HandleTable} {r : Option HandleTable} {n : Nat} {p : Ptr}
    (h : t.register n p m = (r, m')) : m.next ≤ m'.next ∧ ∀ t' ∈ r,
      t'.slots.array = t.slots.array ∨
        (∃ l r, t.slots.array = l ++ none :: r ∧ t'.slots.array = l ++ some p :: r) ∨
          t'.slots.array = t.slots.array ++ [some p] := by
  unfold HandleTable.register at h
  split at h
  · split at h <;> obtain ⟨rfl, rfl⟩ := Prod.mk.inj h
    · next h₁ =>
      refine ⟨(Heap.next_alloc h₁).1, fun t' ht' => ?_⟩
      obtain ⟨v, hv, rfl⟩ := Option.map_eq_some_iff.1 ht'
      exact Handles.registerHandleForObject_eq_some hv
    · next h₁ =>
      rw [Heap.next_freeAll]
      refine ⟨(Heap.next_alloc h₁).1, fun t' ht' => ?_⟩
      obtain ⟨v, hv, rfl⟩ := Option.map_eq_some_iff.1 ht'
      exact Handles.registerHandleForObject_eq_some hv
  · obtain ⟨rfl, rfl⟩ := Prod.mk.inj h
    refine ⟨Nat.le_refl _, fun t' ht' => ?_⟩
    obtain ⟨v, hv, rfl⟩ := Option.map_eq_some_iff.1 ht'
    exact Handles.registerHandleForObject_eq_some hv

/-! ## What a create does -/

theorem newContext_grown {w w' : World} {evtd : Option Ptr} {r : IotcState × Option Ptr}
    (h : newContext c evtd w = some (r, w')) :
    Grown w w' ∧ w'.globals.globalsRefCount = w.globals.globalsRefCount := by
  unfold newContext at h
  split at h
  · next h₁ =>
    obtain ⟨-, rfl⟩ := Prod.mk.inj (Option.some.inj h)
    exact ⟨.of_eq (Heap.next_alloc h₁).1 rfl, rfl⟩
  · next p m₁ h₁ =>
    obtain ⟨hle, hp⟩ := Heap.next_alloc h₁
    obtain ⟨rfl, hlt⟩ := hp p rfl
    split at h
    · next h₂ =>
      obtain ⟨-, rfl⟩ := Prod.mk.inj (Option.some.inj h)
      exact ⟨.of_eq (hle.trans (next_vectorCreate h₂:)) rfl, rfl⟩
    · next m₂ h₂ =>
      have h₁₂ := next_vectorCreate h₂
      obtain ⟨⟨layers, m₃⟩, h₃, h⟩ := Option.bind_eq_some_iff.1 h
      have h₂₃ := next_layerChainCreate h₃
      obtain ⟨t, ht, h⟩ := Option.bind_eq_some_iff.1 h
      split at h
      · next h₄ =>
        obtain ⟨-, rfl⟩ := Prod.mk.inj (Option.some.inj h)
        have h₃₄ := (HandleTable.register_cases h₄).1
        exact ⟨.of_eq (hle.trans (h₁₂.trans (h₂₃.trans h₃₄))) rfl, rfl⟩
      · next t' m₄ h₄ =>
        obtain ⟨-, rfl⟩ := Prod.mk.inj (Option.some.inj h)
        obtain ⟨h₃₄, ht'⟩ := HandleTable.register_cases h₄
        have hend := h₁₂.trans (h₂₃.trans h₃₄)
        refine ⟨⟨hle.trans hend, ?_, ?_⟩, rfl⟩
        · simp only [Globals.registered, ht, Option.map_some, Option.getD_some, Handles.objects]
          rcases ht' t' rfl with harray | ⟨l, r, harray, harray'⟩ | harray
          · exact .inl (by rw [harray])
          · exact .inr ⟨_, Nat.le_refl _, Nat.lt_of_lt_of_le hlt hend, by simp [harray, harray']⟩
          · refine .inr ⟨_, Nat.le_refl _, Nat.lt_of_lt_of_le hlt hend, ?_⟩
            rw [harray, List.filterMap_append]
            exact List.perm_append_singleton _ _
        · rintro k x ⟨u, hu, hx⟩
          obtain rfl : t = u := Option.some.inj (ht.symm.trans hu)
          refine ⟨t', rfl, ?_⟩
          rcases ht' t' rfl with harray | ⟨l, r, harray, harray'⟩ | harray
          · rwa [Handles.objectForHandle, Handles.get, harray]
          · rw [Handles.objectForHandle, Handles.get_replace harray harray', if_neg]
            · exact hx
            · intro heq
              simp [Handles.objectForHandle, Handles.get, heq, harray] at hx
          · rw [Handles.objectForHandle, Handles.get_push harray, if_neg]
            · exact hx
            · intro heq
              simp [Handles.objectForHandle, Handles.get, heq] at hx

theorem createGlobals_cases {g g' : Globals} {r : Option IotcState}
    (h : createGlobals g m = (r, g', m')) :
    m.next ≤ m'.next ∧ g'.globalsRefCount = g.globalsRefCount ∧
      (g'.contextHandlesVector = g.contextHandlesVector ∨ g'.registered = []) := by
  simp only [createGlobals] at h
  have h₁ := next_evtdCreateInstance (m := m) rfl
  split at h
  · next h₂ =>
    replace h₁ := h₁.trans (next_backoffConfigureUsingData h₂)
    split at h
    · obtain ⟨-, rfl, rfl⟩ := Prod.mk.inj h |>.imp id Prod.mk.inj
      exact ⟨h₁, rfl, .inl rfl⟩
    · obtain ⟨-, rfl, rfl⟩ := Prod.mk.inj h |>.imp id Prod.mk.inj
      refine ⟨h₁.trans ((next_vectorCreate rfl).trans (next_makeTimedTaskContainer rfl)), rfl, .inr ?_⟩
      simp only [Globals.registered]
      cases (vectorCreate _).1 <;> rfl
  · next h₂ =>
    obtain ⟨-, rfl, rfl⟩ := Prod.mk.inj h |>.imp id Prod.mk.inj
    exact ⟨h₁.trans (next_backoffConfigureUsingData h₂), rfl, .inl rfl⟩

/-- **A create adds at most one context, and takes a reference in any case.** -/
theorem createContext_grown {w w' : World} {r : Int}
    (hempty : (w.globals.globalsRefCount + 1) % 256 = 1 → w.globals.registered = [])
    (h : createContext c w = some (r, w')) :
    Grown w w' ∧ w'.globals.globalsRefCount = (w.globals.globalsRefCount + 1) % 256 := by
  obtain ⟨⟨⟨state, context⟩, w₁⟩, hcreate, h⟩ := Option.bind_eq_some_iff.1 h
  obtain rfl : w₁ = w' := by
    simp only at h
    split at h
    · exact (Prod.mk.inj (Option.some.inj h)).2
    · obtain ⟨t, -, h⟩ := Option.map_eq_some_iff.1 h
      split at h <;> exact (Prod.mk.inj h).2
  simp only [createContextWithCustomLayersAndEvtd] at hcreate
  split at hcreate
  · next hone =>
    have hregistered := hempty hone
    split at hcreate
    · next hglobals =>
      obtain ⟨-, rfl⟩ := Prod.mk.inj (Option.some.inj hcreate)
      obtain ⟨hnext, hcount, hsame | hnil⟩ := createGlobals_cases hglobals
      · exact ⟨.of_eq hnext hsame, hcount⟩
      · refine ⟨⟨hnext, .inl (hnil.trans hregistered.symm), fun k x hx => ?_⟩, hcount⟩
        exact absurd hx.mem (by simp [hregistered])
    · next g₁ m₁ hglobals =>
      obtain ⟨hnext, hcount, hsame⟩ := createGlobals_cases hglobals
      obtain ⟨hgrown, hcount'⟩ := newContext_grown hcreate
      refine ⟨.trans hnext ?_ (fun k x hx => absurd hx.mem (by simp [hregistered])) hgrown,
        hcount'.trans hcount⟩
      rcases hsame with hsame | hnil
      · simp only [Globals.registered, hsame]
      · exact hnil.trans hregistered.symm
  · obtain ⟨hgrown, hcount⟩ := newContext_grown hcreate
    exact ⟨⟨hgrown.next, hgrown.registered, hgrown.denoted⟩, hcount⟩

/-! ## What a deletion does -/

theorem releaseGlobals_cases {g g' : Globals} (h : releaseGlobals g m = some (g', m')) :
    m'.next = m.next ∧ g'.globalsRefCount = g.globalsRefCount ∧ g'.contextHandlesVector = none := by
  simp only [releaseGlobals, backoffReleaseLuts] at h
  obtain ⟨t, -, h⟩ := Option.bind_eq_some_iff.1 h
  obtain ⟨m₁, h₁, h⟩ := Option.map_eq_some_iff.1 h
  obtain ⟨rfl, rfl⟩ := Prod.mk.inj h
  refine ⟨?_, rfl, rfl⟩
  unfold destroyTimedTaskContainer at h₁
  split at h₁
  · cases h₁
  · obtain ⟨v, -, rfl⟩ := Option.map_eq_some_iff.1 h₁
    unfold evtdDestroyInstance
    split <;> simp only [vectorDestroy, Heap.next_free, Heap.next_freeAll]

/-- A deletion frees one handle, or with the last reference the handle table. -/
theorem deleteContext_cases {w w' : World} {k : Int} {state : IotcState}
    (h : deleteContext w k = some (state, w')) :
    ∃ x, Denotes w.globals k x ∧ w'.heap.next = w.heap.next ∧
      w'.globals.globalsRefCount = (w.globals.globalsRefCount + 255) % 256 ∧
      (w'.globals.globalsRefCount = 0 ∧ w'.globals.registered = [] ∨
        w'.globals.globalsRefCount ≠ 0 ∧
          w.globals.registered.Perm (x :: w'.globals.registered) ∧
          ∀ j y, y ≠ x → Denotes w.globals j y → Denotes w'.globals j y) := by
  obtain ⟨t, ht, h⟩ := Option.bind_eq_some_iff.1 h
  split at h
  · cases h
  · next x hx =>
    refine ⟨x, ⟨t, ht, hx⟩, ?_⟩
    have hmem : x ∈ t.slots.objects := Handles.mem_objects.2 (Handles.objectForHandle_mem hx)
    obtain ⟨slots, hslots, hperm⟩ := Handles.deleteHandleForObject_spec hmem
    simp only [deleteContextWithCustomLayers, ht, Option.bind_some, hslots] at h
    obtain ⟨y, -, h⟩ := Option.bind_eq_some_iff.1 h
    split at h
    · next hzero =>
      obtain ⟨⟨g, m⟩, hrelease, h⟩ := Option.map_eq_some_iff.1 h
      obtain ⟨-, rfl⟩ := Prod.mk.inj h
      obtain ⟨hnext, hcount, hnone⟩ := releaseGlobals_cases hrelease
      refine ⟨by simpa using hnext, hcount, .inl ⟨hcount.trans hzero, ?_⟩⟩
      simp only [Globals.registered, hnone, Option.map_none, Option.getD_none]
    · next hzero =>
      obtain ⟨-, rfl⟩ := Prod.mk.inj (Option.some.inj h)
      refine ⟨by simp, rfl, .inr ⟨hzero, ?_, ?_⟩⟩
      · simpa only [Globals.registered, ht, Option.map_some, Option.getD_some] using hperm
      · rintro j z hne ⟨u, hu, hz⟩
        obtain rfl : t = u := Option.some.inj (ht.symm.trans hu)
        exact ⟨{ t with slots := slots }, rfl,
          Handles.objectForHandle_of_delete hslots hne hz⟩

end IotDeviceSdk.Context
