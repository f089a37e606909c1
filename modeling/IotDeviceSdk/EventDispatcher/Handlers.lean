import IotDeviceSdk.EventDispatcher.DispatcherStep
import IotDeviceSdk.EventDispatcher.Sockets

/-!
# The handlers that wait

What a dispatcher and its sockets will run: no operation brings in a handler but the one that it is
given.
-/

namespace IotDeviceSdk.EventDispatcher

open Datastructures

variable {H : Type} {handle x : H}

namespace Evtd

variable {s s' : Evtd H} {log : List (Entry H)} {k : HandlePtr}

/-- The handlers of the time events. -/
def timedHandlers (s : Evtd H) : List H :=
  s.timeEvents.array.map fun e => (s.timeEvents.event e).eventHandle

/-- The handlers of the call queue. -/
def queuedHandlers (s : Evtd H) : List H := s.callQueue.map Prod.snd

theorem mem_execute {mem : Bool} (h : x ∈ (s.execute handle mem).1.queuedHandlers) :
    x = handle ∨ x ∈ s.queuedHandlers := by
  cases mem with
  | false => exact .inr h
  | true =>
    simp only [queuedHandlers, execute, if_true, List.map_append, List.mem_append] at h
    exact h.symm.imp List.mem_singleton.1 id

theorem timed_execute {mem : Bool} : (s.execute handle mem).1.timedHandlers = s.timedHandlers := by
  cases mem <;> rfl

theorem mem_executeIn (hw : s.WF) {timeDiff : Int} {j : Option HandlePtr} {mem grow : Bool}
    (h : s.executeIn handle timeDiff j mem grow = some (s', log)) :
    s'.WF ∧ s'.callQueue = s.callQueue ∧
      ∀ x ∈ s'.timedHandlers, x = handle ∨ x ∈ s.timedHandlers := by
  rcases executeIn_cases hw h with ⟨-, hw', harray, hsame, -, hqueue, -⟩ |
    ⟨-, hw', hperm, hsame, -, hhandle, -, hqueue, -⟩
  · refine ⟨hw', hqueue, fun x hx => .inr ?_⟩
    obtain ⟨e, he, rfl⟩ := List.mem_map.1 hx
    rw [harray] at he
    rw [hsame e he]
    exact List.mem_map.2 ⟨e, he, rfl⟩
  · refine ⟨hw', hqueue, fun x hx => ?_⟩
    obtain ⟨e, he, rfl⟩ := List.mem_map.1 hx
    rcases List.mem_cons.1 (hperm.mem_iff.1 he) with rfl | he
    · exact .inl hhandle
    · rw [(hsame e he).2]
      exact .inr (List.mem_map.2 ⟨e, he, rfl⟩)

theorem mem_cancel (hw : s.WF) (h : s.cancel k = some (s', log)) :
    s'.WF ∧ s'.callQueue = s.callQueue ∧ ∀ x ∈ s'.timedHandlers, x ∈ s.timedHandlers := by
  obtain ⟨e, -, hw', hperm, hsame, -, hqueue, -⟩ := cancel_cases hw h
  refine ⟨hw', hqueue, fun x hx => ?_⟩
  obtain ⟨e, he, rfl⟩ := List.mem_map.1 hx
  rw [hsame.eventHandle]
  exact List.mem_map.2 ⟨e, hperm.mem_iff.2 (List.mem_cons_of_mem _ he), rfl⟩

theorem mem_restart (hw : s.WF) {newTime : Int} (h : s.restart k newTime = some (s', log)) :
    s'.WF ∧ s'.callQueue = s.callQueue ∧ ∀ x ∈ s'.timedHandlers, x ∈ s.timedHandlers := by
  obtain ⟨e, -, -, hw', hperm, -, hsame, -, hqueue, -⟩ := restart_cases hw h
  refine ⟨hw', hqueue, fun x hx => ?_⟩
  obtain ⟨e, he, rfl⟩ := List.mem_map.1 hx
  rw [hsame]
  exact List.mem_map.2 ⟨e, hperm.mem_iff.1 he, rfl⟩

/-- The first time event is taken out: its handler waited. -/
theorem mem_getTop (hw : s.WF) {e : EventPtr} {c : TimeEvents H} {r : Option EventPtr}
    (he : s.timeEvents.peekTop = some e) (h : s.timeEvents.getTop = some (c, r)) :
    (s.timeEvents.event e).eventHandle ∈ s.timedHandlers ∧
      ({ s with timeEvents := c } : Evtd H).WF ∧
      ∀ x ∈ ({ s with timeEvents := c } : Evtd H).timedHandlers, x ∈ s.timedHandlers := by
  obtain ⟨R, harray⟩ : ∃ R, s.timeEvents.array = e :: R := by
    cases harray : s.timeEvents.array with
    | nil => simp [TimeEvents.peekTop, harray] at he
    | cons x R =>
      obtain rfl : x = e := by simpa [TimeEvents.peekTop, harray] using he
      exact ⟨R, rfl⟩
  obtain ⟨c', htop, hv, harray', hsame, -⟩ := TimeEvents.getTop_spec hw.valid harray
  obtain ⟨rfl, -⟩ := Prod.mk.inj (Option.some.inj (htop.symm.trans h))
  have hmem : ∀ d ∈ c'.array, d ∈ s.timeEvents.array := fun d hd => by
    rw [harray]
    exact List.mem_cons_of_mem _ (harray' ▸ hd)
  refine ⟨List.mem_map.2 ⟨e, harray ▸ List.mem_cons_self, rfl⟩,
    ⟨hv, fun d hd => hw.bounded d (hmem d hd)⟩, fun x hx => ?_⟩
  obtain ⟨d, hd, rfl⟩ := List.mem_map.1 hx
  exact List.mem_map.2 ⟨d, hmem d hd, (hsame.eventHandle d).symm⟩

end Evtd

namespace Sockets

variable {v w : Sockets H} {fd : Fd}

/-- The handlers of the sockets. -/
def handlers (v : Sockets H) : List H := v.array.flatMap fun t => [t.handle, t.readHandle]

theorem mem_handlers {v : Sockets H} :
    x ∈ v.handlers ↔ ∃ t ∈ v.array, x = t.handle ∨ x = t.readHandle := by
  simp [handlers, List.mem_flatMap]

theorem mem_register {mem grow : Bool} (h : v.register fd handle mem grow = some w)
    (hx : x ∈ w.handlers) : x = handle ∨ x ∈ v.handlers := by
  unfold register at h
  split at h
  · cases h
  · split at h
    · obtain rfl := Option.some.inj h
      cases hpush : v.push ⟨fd, handle, handle, .wantRead⟩ grow with
      | none =>
        rw [hpush] at hx
        exact .inr hx
      | some w =>
        rw [hpush, Option.getD_some, handlers, (IotcVector.push_eq_some hpush).1,
          List.flatMap_append, List.mem_append] at hx
        exact hx.symm.imp (fun hx => by simpa using hx) id
    · obtain rfl := Option.some.inj h
      exact .inr hx

/-- One tuple has other handlers. -/
theorem mem_update {id : Nat} {f : FdTuple H → FdTuple H} (hx : x ∈ (v.update id f).handlers) :
    x ∈ v.handlers ∨ ∃ t, v.array[id]? = some t ∧ (x = (f t).handle ∨ x = (f t).readHandle) := by
  obtain ⟨t, ht, hx⟩ := mem_handlers.1 hx
  obtain ⟨i, hi⟩ := List.getElem?_of_mem ht
  rw [update, List.getElem?_modify] at hi
  cases hget : v.array[i]? with
  | none => simp [hget] at hi
  | some u =>
    rw [hget] at hi
    split at hi <;> obtain rfl := Option.some.inj hi
    · next heq =>
      subst heq
      exact .inr ⟨u, hget, hx⟩
    · exact .inl (mem_handlers.2 ⟨u, List.mem_of_getElem? hget, hx⟩)

theorem mem_continueWhen {eventType : EventType}
    (h : v.continueWhenEvtOnSocket eventType handle fd = some w) (hx : x ∈ w.handlers) :
    x = handle ∨ x ∈ v.handlers := by
  obtain ⟨id, -, rfl⟩ := Option.map_eq_some_iff.1 h
  rcases mem_update hx with hx | ⟨t, ht, rfl | rfl⟩
  · exact .inr hx
  · exact .inl rfl
  · exact .inr (mem_handlers.2 ⟨t, List.mem_of_getElem? ht, .inr rfl⟩)

/-- The handler of a socket that is ready waited there. -/
theorem mem_updateEvent (h : v.updateEvent fd = some (handle, w)) :
    handle ∈ v.handlers ∧ ∀ x ∈ w.handlers, x ∈ v.handlers := by
  obtain ⟨id, -, h⟩ := Option.bind_eq_some_iff.1 h
  obtain ⟨t, ht, h⟩ := Option.map_eq_some_iff.1 h
  obtain ⟨rfl, rfl⟩ := Prod.mk.inj h
  refine ⟨mem_handlers.2 ⟨t, List.mem_of_getElem? ht, .inl rfl⟩, fun x hx => ?_⟩
  rcases mem_update hx with hx | ⟨u, hu, hx⟩
  · exact hx
  · exact mem_handlers.2 ⟨u, List.mem_of_getElem? hu, .inr (hx.elim (fun h => h) fun h => h)⟩

theorem mem_unregister (hx : x ∈ (v.unregister fd).handlers) : x ∈ v.handlers := by
  unfold unregister at hx
  split at hx
  · obtain ⟨t, ht, hx⟩ := mem_handlers.1 hx
    exact mem_handlers.2 ⟨t, IotcVector.mem_of_mem_del ht, hx⟩
  · exact hx

end Sockets

end IotDeviceSdk.EventDispatcher
