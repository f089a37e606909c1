import IotDeviceSdk.ResourceManager.Manager

/-!
# Callbacks that have been invoked (`iotc_resource_manager.c`)

The body of a coroutine invokes no callback: only `err_handling` and the dispatcher do. So the list of
the callbacks that have been invoked only gets longer.
-/

namespace IotDeviceSdk.ResourceManager

open Datastructures Infra

variable {σ : SizeT} {w u : World} {exit : Exit} {a : Answers σ}

theorem log_yieldUntil {state : IotcState} {cs : Cs} {next : World → Option (World × Exit)}
    (hnext : ∀ {w u : World} {exit : Exit}, next w = some (u, exit) → u.log = w.log)
    (h : w.yieldUntil state cs next = some (u, exit)) : u.log = w.log := by
  unfold World.yieldUntil at h
  split at h
  · obtain ⟨rfl, -⟩ := Prod.mk.inj (Option.some.inj h)
    rfl
  · split at h
    · exact (hnext h).trans rfl
    · obtain ⟨rfl, -⟩ := Prod.mk.inj (Option.some.inj h)
      rfl

theorem log_yieldFrom {c : Coroutine} {mem : Bool} {loop : World → Option (World × Exit)}
    (hloop : ∀ {w u : World} {exit : Exit}, loop w = some (u, exit) → u.log = w.log)
    (h : w.yieldFrom c mem loop = some (u, exit)) : u.log = w.log := by
  unfold World.yieldFrom at h
  split at h
  · cases h
  · split at h
    · exact (hloop h).trans rfl
    · obtain ⟨rfl, -⟩ := Prod.mk.inj (Option.some.inj h)
      rfl

theorem log_openLoop (h : World.openLoop a w = some (u, exit)) : u.log = w.log := by
  refine log_yieldUntil (fun h => ?_) h
  obtain ⟨rfl, -⟩ := Prod.mk.inj (Option.some.inj h)
  rfl

theorem log_statLoop (h : World.statLoop a w = some (u, exit)) : u.log = w.log :=
  (log_yieldUntil (fun h => log_yieldFrom log_openLoop h) h).trans rfl

theorem log_closeLoop (h : World.closeLoop a w = some (u, exit)) : u.log = w.log := by
  refine log_yieldUntil (fun h => ?_) h
  split at h
  · cases h
  · obtain ⟨rfl, -⟩ := Prod.mk.inj (Option.some.inj h)
    rfl

theorem log_accumulate {state : IotcState} {r : World × Option IotcState}
    (h : World.accumulate a state w = some r) : r.1.log = w.log := by
  unfold World.accumulate at h
  split at h
  · split at h
    · obtain ⟨t, -, rfl⟩ := Option.map_eq_some_iff.mp h
      rfl
    · split at h
      · obtain ⟨t, -, h⟩ := Option.bind_eq_some_iff.mp h
        split at h
        · rw [← Option.some.inj h]
        · obtain ⟨t', -, rfl⟩ := Option.map_eq_some_iff.mp h
          rfl
      · rw [← Option.some.inj h]
  · split at h
    · obtain ⟨t, -, rfl⟩ := Option.map_eq_some_iff.mp h
      rfl
    · rw [← Option.some.inj h]

theorem log_readLoop (h : World.readLoop a w = some (u, exit)) : u.log = w.log := by
  obtain ⟨r, hr, h⟩ := Option.bind_eq_some_iff.mp h
  have hlog : r.1.log = w.log := (log_accumulate hr).trans rfl
  split at h
  · obtain ⟨rfl, -⟩ := Prod.mk.inj (Option.some.inj h)
    exact hlog
  · refine (log_yieldUntil (fun h => ?_) h).trans hlog
    split at h
    · cases h
    · obtain ⟨rfl, -⟩ := Prod.mk.inj (Option.some.inj h)
      rfl

/-- The body of a coroutine invokes nothing. -/
theorem log_body {c : Coroutine} (h : World.body a c w = some (u, exit)) : u.log = w.log := by
  cases c with
  | openCoroutine =>
    change World.openBody a w = _ at h
    unfold World.openBody at h
    split at h
    · exact log_statLoop h
    · exact log_openLoop h
    · exact log_yieldFrom log_statLoop h
  | readCoroutine =>
    change World.readBody a w = _ at h
    unfold World.readBody at h
    split at h
    · exact log_readLoop h
    · exact (log_yieldFrom log_readLoop h).trans rfl
  | closeCoroutine =>
    change World.closeBody a w = _ at h
    unfold World.closeBody at h
    split at h
    · exact log_closeLoop h
    · exact log_yieldFrom log_closeLoop h

theorem log_errHandling (w : World) (c : Coroutine) (state : IotcState) :
    w.log <+: (w.errHandling c state).log := List.prefix_append ..

theorem log_conclude (c : Coroutine) (execute : Bool) (r : World × Exit) :
    r.1.log <+: (World.conclude c execute r).log := by
  obtain ⟨w, exit⟩ := r
  cases exit with
  | yields cs => exact List.prefix_refl _
  | errHandling state => exact log_errHandling w c state
  | invokeCallback =>
    change w.log <+: (w.invokeCallback c execute).log
    unfold World.invokeCallback
    split
    · exact log_errHandling ..
    · split
      · exact List.prefix_refl _
      · exact log_errHandling ..

theorem log_resume {c : Coroutine} (h : World.resume a c w = some u) : w.log <+: u.log := by
  obtain ⟨r, hr, rfl⟩ := Option.map_eq_some_iff.mp h
  exact log_body hr ▸ log_conclude c a.execute r

/-- **A callback that has been invoked stays so**, in a step and in a run. -/
theorem log_step {e : Event σ} (h : step w e = some u) : w.log <+: u.log := by
  cases e with
  | call c callback mem =>
    obtain rfl := Option.some.inj h
    unfold World.call
    split
    · exact List.prefix_refl _
    · split <;> exact List.prefix_refl _
  | dispatch a =>
    simp only [step] at h
    split at h
    · obtain rfl := Option.some.inj h
      exact List.prefix_refl _
    · obtain rfl := Option.some.inj h
      exact List.prefix_append ..
    · have hlog := log_resume h
      exact hlog
  | ready fd a =>
    simp only [step] at h
    split at h
    · obtain rfl := Option.some.inj h
      exact List.prefix_refl _
    · exact log_resume h

theorem log_run {es : List (Event σ)} (h : run step w es = some u) : w.log <+: u.log :=
  run_invariant (P := fun u => w.log <+: u.log)
    (fun _ _ _ hlog hstep => hlog.trans (log_step hstep)) (List.prefix_refl _) h

end IotDeviceSdk.ResourceManager
