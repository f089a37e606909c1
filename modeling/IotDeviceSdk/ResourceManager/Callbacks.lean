import IotDeviceSdk.ResourceManager.Manager

/-!
# The callback of a coroutine that runs (`iotc_resource_manager.c`)

While it goes on, a coroutine leaves its callback where it is. When it ends, the callback is handed to the
dispatcher or is invoked, and the context has none any more: `resume_cases`.
-/

namespace IotDeviceSdk.ResourceManager

open Datastructures

variable {σ : SizeT} {a : Answers σ} {w u v : World} {r : World × Exit}

/-- The callback is where it was, and none has been handed over or invoked. -/
structure Kept (w u : World) : Prop where
  queue : u.queue = w.queue
  log : u.log = w.log
  callback : u.ctx.callback = w.ctx.callback

theorem Kept.refl (w : World) : Kept w w := ⟨rfl, rfl, rfl⟩

theorem Kept.trans (h : Kept w u) (h' : Kept u v) : Kept w v :=
  ⟨h'.queue.trans h.queue, h'.log.trans h.log, h'.callback.trans h.callback⟩

/-! ## The body of a coroutine -/

theorem kept_yieldUntil {state : IotcState} {cs : Cs} {next : World → Option (World × Exit)}
    (hnext : ∀ {w r}, next w = some r → Kept w r.1) (h : w.yieldUntil state cs next = some r) :
    Kept w r.1 := by
  unfold World.yieldUntil at h
  split at h
  · obtain rfl := Option.some.inj h
    exact .refl w
  · have hunregister : Kept w w.unregister := ⟨rfl, rfl, rfl⟩
    split at h
    · exact hunregister.trans (hnext h)
    · obtain rfl := Option.some.inj h
      exact hunregister

theorem kept_yieldFrom {c : Coroutine} {mem : Bool} {loop : World → Option (World × Exit)}
    (hloop : ∀ {w r}, loop w = some r → Kept w r.1) (h : w.yieldFrom c mem loop = some r) :
    Kept w r.1 := by
  unfold World.yieldFrom at h
  split at h
  · cases h
  · split at h
    · have hregister : Kept w { w with files := w.files ++ [(w.ctx.resourceHandle, c)] } :=
        ⟨rfl, rfl, rfl⟩
      exact hregister.trans (hloop h)
    · obtain rfl := Option.some.inj h
      exact .refl w

theorem kept_openLoop (h : World.openLoop a w = some r) : Kept w r.1 := by
  refine kept_yieldUntil (fun h => ?_) h
  obtain rfl := Option.some.inj h
  exact ⟨rfl, rfl, rfl⟩

theorem kept_statLoop (h : World.statLoop a w = some r) : Kept w r.1 := by
  have hstat := kept_yieldUntil (fun h => kept_yieldFrom kept_openLoop h) h
  exact ⟨hstat.queue, hstat.log, hstat.callback⟩

theorem kept_accumulate {state : IotcState} {t : World × Option IotcState}
    (h : World.accumulate a state w = some t) : Kept w t.1 := by
  unfold World.accumulate at h
  split at h
  · split at h
    · obtain ⟨s, -, rfl⟩ := Option.map_eq_some_iff.mp h
      exact ⟨rfl, rfl, rfl⟩
    · split at h
      · obtain ⟨s, -, h⟩ := Option.bind_eq_some_iff.mp h
        split at h
        · obtain rfl := Option.some.inj h
          exact ⟨rfl, rfl, rfl⟩
        · obtain ⟨s', -, rfl⟩ := Option.map_eq_some_iff.mp h
          exact ⟨rfl, rfl, rfl⟩
      · obtain rfl := Option.some.inj h
        exact .refl w
  · split at h
    · obtain ⟨s, -, rfl⟩ := Option.map_eq_some_iff.mp h
      exact ⟨rfl, rfl, rfl⟩
    · obtain rfl := Option.some.inj h
      exact .refl w

theorem kept_readLoop (h : World.readLoop a w = some r) : Kept w r.1 := by
  obtain ⟨t, ht, h⟩ := Option.bind_eq_some_iff.mp h
  have hadvance : Kept w (w.advance a) := ⟨rfl, rfl, rfl⟩
  have ht := hadvance.trans (kept_accumulate ht)
  split at h
  · obtain rfl := Option.some.inj h
    exact ht
  · refine ht.trans (kept_yieldUntil (fun h => ?_) h)
    split at h
    · cases h
    · obtain rfl := Option.some.inj h
      exact .refl _

theorem kept_closeLoop (h : World.closeLoop a w = some r) : Kept w r.1 := by
  refine kept_yieldUntil (fun h => ?_) h
  split at h
  · cases h
  · obtain rfl := Option.some.inj h
    exact ⟨rfl, rfl, rfl⟩

/-- The body of a coroutine leaves the callback to what follows it. -/
theorem kept_body {c : Coroutine} (h : World.body a c w = some r) : Kept w r.1 := by
  cases c with
  | openCoroutine =>
    change World.openBody a w = _ at h
    unfold World.openBody at h
    split at h
    · exact kept_statLoop h
    · exact kept_openLoop h
    · exact kept_yieldFrom kept_statLoop h
  | readCoroutine =>
    change World.readBody a w = _ at h
    unfold World.readBody at h
    split at h
    · exact kept_readLoop h
    · have hread := kept_yieldFrom kept_readLoop h
      exact ⟨hread.queue, hread.log, hread.callback⟩
  | closeCoroutine =>
    change World.closeBody a w = _ at h
    unfold World.closeBody at h
    split at h
    · exact kept_closeLoop h
    · exact kept_yieldFrom kept_closeLoop h

/-! ## A coroutine -/

/-- The callback has left the context: it has been handed to the dispatcher, or it has been invoked. -/
structure Ended (w u : World) : Prop where
  callback : u.ctx.callback = none
  called : (∃ cb s, w.ctx.callback = some cb ∧ u.log = w.log ∧
      u.queue = w.queue ++ [.callback (cb.setCallbackState s)]) ∨
    ∃ s, u.queue = w.queue ∧ u.log = w.log ++ (w.ctx.callback.map (·.setCallbackState s)).toList

theorem ended_errHandling (h : Kept w v) (c : Coroutine) (s : IotcState) :
    Ended w (v.errHandling c s) :=
  ⟨rfl, .inr ⟨s, h.queue, by rw [World.errHandling, h.log, h.callback]⟩⟩

theorem ended_invokeCallback (h : Kept w v) (c : Coroutine) (execute : Bool) :
    Ended w (v.invokeCallback c execute) := by
  unfold World.invokeCallback
  split
  · exact ended_errHandling h c _
  · next cb hcb =>
    split
    · exact ⟨rfl, .inl ⟨cb, .ok, h.callback.symm.trans hcb, h.log, by rw [h.queue]⟩⟩
    · exact ended_errHandling h c _

/-- **What becomes of the callback** when a coroutine runs. -/
theorem resume_cases {c : Coroutine} (h : World.resume a c w = some u) : Kept w u ∨ Ended w u := by
  obtain ⟨⟨v, exit⟩, hbody, rfl⟩ := Option.map_eq_some_iff.mp h
  have hkept := kept_body hbody
  cases exit with
  | yields cs => exact .inl ⟨hkept.queue, hkept.log, hkept.callback⟩
  | errHandling s => exact .inr (ended_errHandling hkept c s)
  | invokeCallback => exact .inr (ended_invokeCallback hkept c a.execute)

theorem closeLoop_not_yields (hclose : a.closeState ≠ .wantRead) (h : World.closeLoop a w = some r)
    (cs : Cs) : r.2 ≠ .yields cs := by
  unfold World.closeLoop World.yieldUntil at h
  rw [if_neg hclose] at h
  dsimp only at h
  split at h
  · split at h
    · cases h
    · obtain rfl := Option.some.inj h
      exact fun h => by cases h
  · obtain rfl := Option.some.inj h
    exact fun h => by cases h

theorem closeBody_not_yields (hclose : a.closeState ≠ .wantRead) (h : World.closeBody a w = some r)
    (cs : Cs) : r.2 ≠ .yields cs := by
  unfold World.closeBody at h
  split at h
  · exact closeLoop_not_yields hclose h cs
  · unfold World.yieldFrom at h
    split at h
    · cases h
    · split at h
      · exact closeLoop_not_yields hclose h cs
      · obtain rfl := Option.some.inj h
        exact fun h => by cases h

/-- **Closing ends at once** where the file system does not have it wait. -/
theorem close_ended (hclose : a.closeState ≠ .wantRead)
    (h : World.resume a .closeCoroutine w = some u) : Ended w u := by
  obtain ⟨⟨v, exit⟩, hbody, rfl⟩ := Option.map_eq_some_iff.mp h
  have hkept := kept_body hbody
  cases exit with
  | yields cs => exact absurd rfl (closeBody_not_yields hclose hbody cs)
  | errHandling s => exact ended_errHandling hkept _ s
  | invokeCallback => exact ended_invokeCallback hkept _ a.execute

end IotDeviceSdk.ResourceManager
