import IotDeviceSdk.ResourceManager.Returns

/-!
# Runs of operations (`iotc_resource_manager.c`)

Each step is as claimed exactly under its condition, and then keeps the invariant. The run theorem is for
every order of calls, dispatches and answers; a call that comes too early is refused.
-/

namespace IotDeviceSdk.ResourceManager

open Datastructures Infra

variable {σ : SizeT}

/-! ## Steps and runs -/

section Steps

variable {J : World → Prop} {cb : Callback} {c : Coroutine} {v w : World} {a : Answers σ}

/-- When reading ends, and the condition on it, hang on the context only. -/
theorem read_congr {u : World} (hctx : u.ctx = v.ctx) :
    u.readEnding a = v.readEnding a ∧ (u.ReadWithin a ↔ v.ReadWithin a) := by
  obtain ⟨ctx, memory, files, queue, log, operation⟩ := u
  obtain rfl : ctx = v.ctx := hctx
  exact ⟨rfl, .rfl⟩

theorem CloseWithin.congr {u : World} (hctx : u.ctx = v.ctx) :
    u.CloseWithin a ↔ v.CloseWithin a := by
  unfold World.CloseWithin World.Resumed
  rw [hctx]

/-- **A coroutine that begins.** -/
theorem returns_begin_iff (hinv : ∀ w, Inv σ w → J w) (hreset : ∀ w, J w → w.Reset)
    (hv : Running σ c cb [] v) (hcs : ¬v.ctx.cs.IsYield) :
    Returns J v.log c a.execute cb (v.ending a c) (World.body a c v) ↔
      v.Within a c ∧ ∀ s ∈ v.ending a c, cb.Takes s := by
  obtain ⟨hopen, hread, hclose⟩ := body_begin (a := a) hcs
  have hne : v.ctx.cs ≠ .statYield ∧ v.ctx.cs ≠ .openYield ∧ v.ctx.cs ≠ .readYield ∧
      v.ctx.cs ≠ .closeYield := by
    simpa only [Cs.IsYield, not_or] using hcs
  have hresumed : ¬v.Resumed := hcs
  cases c with
  | openCoroutine =>
    simp only [World.ending, World.Within, World.body, hopen, if_neg hne.1, if_neg hne.2.1]
    refine (returns_yieldFrom_iff (W := True) hinv hreset hv fun u hu _ _ hlog => ?_).trans
      (and_congr_left' (by simp))
    rw [true_and]
    exact hlog ▸ returns_statLoop_iff hinv hreset hu
  | readCoroutine =>
    simp only [World.ending, World.Within, World.body, hread, if_neg hne.2.2.1]
    have hv' : Running σ .readCoroutine cb [] v.rewind := hv.of_ctx rfl rfl rfl
    refine (returns_yieldFrom_iff (v := v.rewind) (W := v.rewind.ReadWithin a) hinv hreset hv'
      fun u hu hctx _ hlog => ?_).trans (and_congr_left' ?_)
    · obtain ⟨hending, hwithin⟩ := read_congr (a := a) hctx
      rw [← hending, ← hwithin, ← hlog]
      exact returns_readLoop_iff hinv hreset hu
    · cases a.register with
      | true => simp
      | false => simpa using (show ¬v.rewind.Resumed from hresumed)
  | closeCoroutine =>
    simp only [World.ending, World.Within, World.body, hclose, if_neg hne.2.2.2]
    refine (returns_yieldFrom_iff (W := v.CloseWithin a) hinv hreset hv
      fun u hu hctx _ hlog => ?_).trans (and_congr_left' ?_)
    · rw [← CloseWithin.congr hctx, ← hlog]
      exact returns_closeLoop_iff hinv hreset hu
    · cases a.register with
      | true => simp [hne.2.2.2]
      | false => simpa [hne.2.2.2] using hresumed

/-- **A coroutine that goes on.** -/
theorem returns_resume_iff (hinv : ∀ w, Inv σ w → J w) (hreset : ∀ w, J w → w.Reset)
    (hv : Looping σ c cb v) (hcs : c.Yields v.ctx.cs) :
    Returns J v.log c a.execute cb (v.ending a c) (World.body a c v) ↔
      v.Within a c ∧ ∀ s ∈ v.ending a c, cb.Takes s := by
  cases c with
  | openCoroutine =>
    rcases hcs with hcs | hcs
    · simp only [World.ending, World.Within, World.body, World.openBody, hcs, if_true, true_and]
      exact returns_statLoop_iff hinv hreset hv
    · simp only [World.ending, World.Within, World.body, World.openBody, hcs, if_true, true_and]
      exact returns_openLoop_iff hinv hreset hv
  | readCoroutine =>
    have hcs' : v.ctx.cs = .readYield := hcs
    simp only [World.ending, World.Within, World.body, World.readBody, hcs', if_true]
    exact returns_readLoop_iff hinv hreset hv
  | closeCoroutine =>
    have hcs' : v.ctx.cs = .closeYield := hcs
    simp only [World.ending, World.Within, World.body, World.closeBody, hcs', if_true, true_or]
    exact returns_closeLoop_iff hinv hreset hv

/-- A callback of the queue is invoked. -/
theorem calls_dispatch {callback : Callback} {queue : List Pending}
    (hq : w.queue = .callback callback :: queue) :
    { w with queue, log := w.log ++ [callback] : World }.calls = w.calls := by
  simp [World.calls, hq]

/-- A step that runs no coroutine. -/
theorem quiet (hinv : ∀ w, Inv σ w → J w) {e : Event σ} {w' : World} (hstep : step w e = some w')
    (hruns : w.runs e = none) (hw' : Inv σ w') (hcalls : w'.calls = w.calls) :
    ∃ w', step w e = some w' ∧ J w' ∧ w'.calls = w.calls ++ (w.outcome e).toList := by
  refine ⟨w', hstep, hinv w' hw', ?_⟩
  rw [World.outcome, hruns, hcalls]
  exact (List.append_nil _).symm

/-- A step that runs the coroutine `c` in the world `v`. -/
theorem step_runs_iff {e : Event σ} (hstep : step w e = World.resume a c v)
    (hruns : w.runs e = some (c, a)) (hctx : v.ctx = w.ctx) (hcb : v.ctx.callback = some cb)
    (hcalls : w.calls = v.log) :
    (∃ w', step w e = some w' ∧ J w' ∧ w'.calls = w.calls ++ (w.outcome e).toList) ↔
      Returns J v.log c a.execute cb (v.ending a c) (World.body a c v) := by
  have hending : w.ending a c = v.ending a c := by
    obtain ⟨ctx, memory, files, queue, log, operation⟩ := w
    obtain rfl : v.ctx = ctx := hctx
    rfl
  rw [hstep, hcalls, World.outcome, hruns, Option.bind_some, ← hctx, hcb, Option.bind_some, hending]
  exact .rfl

theorem stepWithin_runs_iff {e : Event σ} (hcall : ∀ c callback mem, e ≠ .call c callback mem)
    (hruns : w.runs e = some (c, a)) (hcb : w.ctx.callback = some cb) :
    w.StepWithin e ↔ w.Within a c ∧ ∀ s ∈ w.ending a c, cb.Takes s := by
  unfold World.StepWithin
  rw [hruns, hcb]
  cases e with
  | call c callback mem => exact absurd rfl (hcall c callback mem)
  | dispatch a => simp
  | ready fd a => simp

theorem stepWithin_quiet {e : Event σ} (hcall : ∀ c callback mem, e ≠ .call c callback mem)
    (hruns : w.runs e = none) : w.StepWithin e := by
  unfold World.StepWithin
  rw [hruns]
  cases e with
  | call c callback mem => exact absurd rfl (hcall c callback mem)
  | dispatch a => simp
  | ready fd a => simp

/-- A call is as claimed unless it is accepted, and the dispatcher has no memory. -/
theorem step_call_iff (hinv : ∀ w, Inv σ w → J w) (hreset : ∀ w, J w → w.Reset) (hI : Inv σ w)
    (c : Coroutine) (callback : Callback) (mem : Bool) :
    (∃ w', step w (.call c callback mem : Event σ) = some w' ∧ J w' ∧
      w'.calls = w.calls ++ (w.outcome (.call c callback mem : Event σ)).toList) ↔
      w.StepWithin (.call c callback mem : Event σ) := by
  have hwithin : w.StepWithin (.call c callback mem : Event σ) ↔ w.Refuses c ∨ mem = true :=
    and_iff_right fun r hr => absurd hr (by simp [World.runs])
  rw [hwithin]
  by_cases hrefuses : w.Refuses c
  · have hcall : w.call c callback mem = w := if_pos hrefuses
    exact iff_of_true (quiet hinv (congrArg some hcall) rfl hI rfl) (.inl hrefuses)
  rw [or_iff_right hrefuses]
  obtain ⟨hdisposed, -⟩ := not_or.mp hrefuses
  cases hI with
  | queued c' cb h => exact absurd (by rw [h.callback]; rfl) hdisposed
  | waiting c' cb h hcs => exact absurd (by rw [h.callback]; rfl) hdisposed
  | idle h =>
    cases mem with
    | true =>
      refine iff_of_true ?_ rfl
      obtain ⟨cbs, hqueue⟩ := h.queue
      have hcall : w.call c callback true = { w with
          ctx := { w.ctx with callback := some callback }
          queue := w.queue ++ [.coroutine c]
          operation := some c } := (if_neg hrefuses).trans (if_pos rfl)
      refine quiet hinv (congrArg some hcall) rfl (.queued c callback ?_) ?_
      · exact { backed := h.backed, size_lt := h.size_lt, operation := rfl, callback := rfl
                files := h.files, not_yield := h.not_yield, queue := ⟨cbs, by rw [← hqueue]⟩ }
      · simp [World.calls]
    | false =>
      refine iff_of_false ?_ (by simp)
      rintro ⟨w', hstep, hJ, -⟩
      have hcall : w.call c callback false = { w with
          ctx := { w.ctx with callback := some callback } } := (if_neg hrefuses).trans (if_neg (by simp))
      obtain rfl := Option.some.inj ((congrArg some hcall).symm.trans hstep)
      have hnone := (hreset _ hJ h.operation).2.1
      cases hnone

/-- A callback that has been invoked leaves the stage as it is. -/
theorem Inv.dispatch {callback : Callback} {queue : List Pending} (hI : Inv σ w)
    (hq : w.queue = .callback callback :: queue) :
    Inv σ { w with queue, log := w.log ++ [callback] } := by
  cases hI with
  | idle h =>
    obtain ⟨cbs, hcbs⟩ := h.queue
    cases cbs with
    | nil => cases hcbs.symm.trans hq
    | cons cb cbs =>
      obtain ⟨-, rfl⟩ := List.cons.inj (hcbs.symm.trans hq)
      exact .idle
        { backed := h.backed, size_lt := h.size_lt, operation := h.operation
          callback := h.callback, files := h.files, not_yield := h.not_yield, queue := ⟨cbs, rfl⟩ }
  | queued c cb h =>
    obtain ⟨cbs, hcbs⟩ := h.queue
    cases cbs with
    | nil => cases hcbs.symm.trans hq
    | cons cb' cbs =>
      obtain ⟨-, rfl⟩ := List.cons.inj (hcbs.symm.trans hq)
      exact .queued c cb
        { backed := h.backed, size_lt := h.size_lt, operation := h.operation
          callback := h.callback, files := h.files, not_yield := h.not_yield, queue := ⟨cbs, rfl⟩ }
  | waiting c cb h hcs => cases h.queue.symm.trans hq

/-- The dispatcher takes what is first in its queue. -/
theorem step_dispatch_iff (hinv : ∀ w, Inv σ w → J w) (hreset : ∀ w, J w → w.Reset) (hI : Inv σ w)
    (a : Answers σ) :
    (∃ w', step w (.dispatch a) = some w' ∧ J w' ∧
      w'.calls = w.calls ++ (w.outcome (.dispatch a)).toList) ↔ w.StepWithin (.dispatch a) := by
  have hcall : ∀ c callback mem, (.dispatch a : Event σ) ≠ .call c callback mem := by simp
  cases hq : w.queue with
  | nil =>
    have hruns : w.runs (.dispatch a) = none := by simp only [World.runs, hq]
    have hstep : step w (.dispatch a) = some w := by simp only [step, hq]
    exact iff_of_true (quiet hinv hstep hruns hI rfl) (stepWithin_quiet hcall hruns)
  | cons pending queue =>
    cases pending with
    | callback callback =>
      have hruns : w.runs (.dispatch a) = none := by simp only [World.runs, hq]
      have hstep : step w (.dispatch a) = some { w with queue, log := w.log ++ [callback] } := by
        simp only [step, hq]
      exact iff_of_true (quiet hinv hstep hruns (hI.dispatch hq) (calls_dispatch hq))
        (stepWithin_quiet hcall hruns)
    | coroutine c =>
      have hruns : w.runs (.dispatch a) = some (c, a) := by simp only [World.runs, hq]
      have hstep : step w (.dispatch a) = World.resume a c { w with queue } := by
        simp only [step, hq]
      cases hI with
      | idle h =>
        obtain ⟨cbs, hcbs⟩ := h.queue
        cases cbs with
        | nil => cases hcbs.symm.trans hq
        | cons cb cbs => cases (List.cons.inj (hcbs.symm.trans hq)).1
      | waiting c' cb h hcs => cases h.queue.symm.trans hq
      | queued c' cb h =>
        obtain ⟨cbs, hcbs⟩ := h.queue
        cases cbs with
        | cons cb' cbs => cases (List.cons.inj (hcbs.symm.trans hq)).1
        | nil =>
          obtain ⟨hc, rfl⟩ := List.cons.inj (hcbs.symm.trans hq)
          obtain rfl := Pending.coroutine.inj hc
          have hv : Running σ c' cb [] { w with queue := [] } :=
            { backed := h.backed, size_lt := h.size_lt, operation := h.operation
              callback := h.callback, files_eq := h.files, queue := rfl }
          refine (step_runs_iff hstep hruns rfl h.callback (by simp [World.calls, hq])).trans
            ((returns_begin_iff hinv hreset hv h.not_yield).trans ?_)
          exact (stepWithin_runs_iff hcall hruns h.callback).symm

/-- The dispatcher runs the handle of a file. -/
theorem step_ready_iff (hinv : ∀ w, Inv σ w → J w) (hreset : ∀ w, J w → w.Reset) (hI : Inv σ w)
    (fd : Int) (a : Answers σ) :
    (∃ w', step w (.ready fd a) = some w' ∧ J w' ∧
      w'.calls = w.calls ++ (w.outcome (.ready fd a)).toList) ↔ w.StepWithin (.ready fd a) := by
  have hcall : ∀ c callback mem, (.ready fd a : Event σ) ≠ .call c callback mem := by simp
  cases hfind : w.files.find? fun file => file.1 = fd with
  | none =>
    have hruns : w.runs (.ready fd a) = none := by simp only [World.runs, hfind, Option.map_none]
    have hstep : step w (.ready fd a) = some w := by simp only [step, hfind]
    exact iff_of_true (quiet hinv hstep hruns hI rfl) (stepWithin_quiet hcall hruns)
  | some file =>
    have hruns : w.runs (.ready fd a) = some (file.2, a) := by
      simp only [World.runs, hfind, Option.map_some]
    have hstep : step w (.ready fd a) = World.resume a file.2 w := by simp only [step, hfind]
    have hmem := List.mem_of_find?_eq_some hfind
    cases hI with
    | idle h => exact absurd hmem (by rw [h.files]; exact List.not_mem_nil)
    | queued c cb h => exact absurd hmem (by rw [h.files]; exact List.not_mem_nil)
    | waiting c cb h hcs =>
      rw [h.files_eq, List.mem_singleton] at hmem
      subst hmem
      refine (step_runs_iff hstep hruns rfl h.callback (calls_of_queue h.queue)).trans
        ((returns_resume_iff hinv hreset h hcs).trans ?_)
      exact (stepWithin_runs_iff hcall hruns h.callback).symm

/-- **A step** is as claimed, and leads to `J`, exactly under the condition. -/
theorem step_iff (hinv : ∀ w, Inv σ w → J w) (hreset : ∀ w, J w → w.Reset) (hI : Inv σ w)
    (e : Event σ) :
    (∃ w', step w e = some w' ∧ J w' ∧ w'.calls = w.calls ++ (w.outcome e).toList) ↔
      w.StepWithin e := by
  cases e with
  | call c callback mem => exact step_call_iff hinv hreset hI c callback mem
  | dispatch a => exact step_dispatch_iff hinv hreset hI a
  | ready fd a => exact step_ready_iff hinv hreset hI fd a

end Steps

theorem inv_create {memory : Blocks UInt8} {dataBuffer : Option DataDesc} {uniqueFd : Int}
    (h : ∀ desc ∈ dataBuffer, desc.Backed σ memory) : Inv σ (.create memory dataBuffer uniqueFd) :=
  .idle { backed := h, size_lt := Nat.lt_of_lt_of_le (show 0 < 2 ^ 32 by decide) σ.le_size
          operation := rfl, callback := rfl, files := rfl, not_yield := (by decide : ¬Cs.fresh.IsYield)
          queue := ⟨[], rfl⟩ }

/-- **Operations in any order**: every step of a run from a new context is as claimed exactly if every
step meets the condition. -/
theorem operations_sound_iff (σ : SizeT) (memory : Blocks UInt8) (dataBuffer : Option DataDesc)
    (uniqueFd : Int) (es : List (Event σ)) (hbuffer : ∀ desc ∈ dataBuffer, desc.Backed σ memory) :
    AllSteps step World.Sound (.create memory dataBuffer uniqueFd) es ↔
      AllSteps step World.StepWithin (.create memory dataBuffer uniqueFd) es := by
  refine allSteps_iff (I := Inv σ) (fun w e w' hI hwithin hstep => ?_) (fun w e hI => ?_)
    (inv_create hbuffer)
  · obtain ⟨w₁, hstep₁, hI', -⟩ := (step_iff (fun _ h => h) (fun _ h => h.reset) hI e).mpr hwithin
    obtain rfl := Option.some.inj (hstep₁.symm.trans hstep)
    exact hI'
  · exact step_iff (fun _ h => h.reset) (fun _ h => h) hI e

theorem one_byte_fits : ([0x63] : Bytes).length < SizeT.size .bits32 := by decide

theorem two_bytes_fit : ([0x61, 0x62] : Bytes).length < SizeT.size .bits32 := by decide

/-- A file of three bytes is opened, read in two chunks and closed. -/
def openReadClose : List (Event .bits32) :=
  [.call .openCoroutine ⟨0, .ok⟩ true, .dispatch { resourceSize := 3, resourceHandle := 7 }, .dispatch {},
    .call .readCoroutine ⟨1, .ok⟩ true, .dispatch { buffer := some ⟨[0x61, 0x62], two_bytes_fit⟩ },
    .ready 7 { buffer := some ⟨[0x63], one_byte_fits⟩ }, .dispatch {},
    .call .closeCoroutine ⟨2, .ok⟩ true, .dispatch {}, .dispatch {}]

theorem operations_sound_iff_file :
    AllSteps step World.Sound (.create .empty none (-1)) openReadClose :=
  (operations_sound_iff .bits32 .empty none (-1) openReadClose (by simp)).mpr (by decide +kernel)

/-- A file is opened and closed. -/
def openClose : List (Event .bits32) :=
  [.call .openCoroutine ⟨0, .ok⟩ true, .dispatch { resourceSize := 3, resourceHandle := 7 }, .dispatch {},
    .call .closeCoroutine ⟨1, .ok⟩ true, .dispatch {}]

/-- **A file that has not been read cannot be closed**: the assertion on the data buffer fails. -/
theorem operations_sound_iff_fails :
    ¬AllSteps step World.Sound (.create .empty none (-1)) openClose := by
  rintro ⟨-, h⟩
  obtain ⟨-, h⟩ := h _ rfl
  obtain ⟨-, h⟩ := h _ rfl
  obtain ⟨-, h⟩ := h _ rfl
  obtain ⟨⟨w', hstep, -⟩, -⟩ := h _ rfl
  cases hstep

end IotDeviceSdk.ResourceManager
