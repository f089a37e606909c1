import IotDeviceSdk.ResourceManager.Operations

/-!
# How a coroutine returns (`iotc_resource_manager.c`)

`Returns J` says of what a coroutine does from here on that it ends in a world with `J` and has called
the callback as the ending of the operation says. `J` is any property that lies between the invariant and
what is claimed of a world, so that each theorem is about the claim and about the invariant.

There is one theorem about each way to leave a body, one about each half of
`IOTC_RESOURCE_MANAGER_YIELD_FROM`, and one about each loop.
-/

namespace IotDeviceSdk.ResourceManager

open Datastructures Infra

variable {σ : SizeT}

/-! ## How a coroutine returns -/

/-- The coroutine returns to a world with `J`, having called the callback with the state `ending`. -/
def Returns (J : World → Prop) (log : List Callback) (c : Coroutine) (execute : Bool) (cb : Callback)
    (ending : Option IotcState) (r : Option (World × Exit)) : Prop :=
  ∃ w', r.map (World.conclude c execute) = some w' ∧ J w' ∧
    w'.calls = log ++ (ending.map fun state => { cb with state }).toList

section Returns

variable {J : World → Prop} {c : Coroutine} {execute : Bool} {cb : Callback} {v : World}
  {ending : Option IotcState} {state : IotcState} {files : List (Int × Coroutine)}

/-- What a coroutine does to its context, the data buffer and the size of the file apart. -/
theorem Running.of_ctx (hv : Running σ c cb files v) {ctx : Context}
    (hbuffer : ctx.dataBuffer = v.ctx.dataBuffer) (hsize : ctx.resourceSize = v.ctx.resourceSize)
    (hcallback : ctx.callback = v.ctx.callback) : Running σ c cb files { v with ctx } where
  backed := fun desc hdesc => hv.backed desc (hbuffer ▸ hdesc)
  size_lt := Nat.lt_of_le_of_lt (Nat.le_of_eq hsize) hv.size_lt
  operation := hv.operation
  callback := hcallback.trans hv.callback
  files_eq := hv.files_eq
  queue := hv.queue

theorem not_returns_none {log : List Callback} : ¬Returns J log c execute cb ending none := by
  rintro ⟨w', h, -⟩
  cases h

theorem calls_of_queue {w : World} (h : w.queue = []) : w.calls = w.log := by
  rw [World.calls, h, List.filterMap_nil, List.append_nil]

/-- A yield ends nothing. -/
theorem returns_yields (hinv : ∀ w, Inv σ w → J w) (hv : Looping σ c cb v) {cs : Cs}
    (hcs : c.Yields cs) : Returns J v.log c execute cb none (some (v, .yields cs)) := by
  refine ⟨_, rfl, hinv _ (.waiting c cb (hv.of_ctx rfl rfl rfl) hcs), ?_⟩
  · refine (calls_of_queue (w := { v with ctx := { v.ctx with cs } }) hv.queue).trans ?_
    rw [Option.map_none, Option.toList_none, List.append_nil]

theorem not_returns_yields (hv : Running σ c cb files v) {cs : Cs} :
    ¬Returns J v.log c execute cb (some state) (some (v, .yields cs)) := by
  rintro ⟨w', h, -, hcalls⟩
  obtain rfl := Option.some.inj h
  have hlog := calls_of_queue (w := { v with ctx := { v.ctx with cs } }) hv.queue
  have hlength := congrArg List.length (hlog.symm.trans hcalls)
  simp at hlength

theorem setCallbackState_eq_iff : cb.setCallbackState state = { cb with state } ↔ cb.Takes state := by
  unfold Callback.setCallbackState Callback.Takes
  split
  · next h => exact iff_of_true rfl (.inl h)
  · next h =>
    rw [or_iff_right h]
    exact ⟨fun heq => congrArg Callback.state heq, fun heq => by rw [← heq]⟩

/-- What `err_handling` calls. -/
theorem calls_errHandling (hv : Running σ c cb files v) :
    (v.errHandling c state).calls = v.log ++ [cb.setCallbackState state] := by
  refine (calls_of_queue (w := v.errHandling c state) hv.queue).trans ?_
  rw [World.errHandling, hv.callback]
  rfl

/-- `err_handling` does what it has to if nothing is registered, and `cs` is not that of a yield. -/
theorem returns_errHandling_iff (hinv : ∀ w, Inv σ w → J w) (hreset : ∀ w, J w → w.Reset)
    (hv : Running σ c cb [] v) :
    Returns J v.log c execute cb (some state) (some (v, .errHandling state)) ↔
      (c = .openCoroutine ∨ ¬v.Resumed) ∧ cb.Takes state := by
  have hcs : ¬(v.errHandling c state).ctx.cs.IsYield ↔ c = .openCoroutine ∨ ¬v.Resumed := by
    change ¬(if c = .openCoroutine then Cs.reset else v.ctx.cs).IsYield ↔ _
    split
    · next h => exact iff_of_true (by decide) (.inl h)
    · next h => rw [or_iff_right h, World.Resumed]
  rw [← hcs, ← setCallbackState_eq_iff]
  constructor
  · rintro ⟨w', h, hJ, hcalls⟩
    obtain rfl := Option.some.inj h
    have heq := List.append_cancel_left ((calls_errHandling hv).symm.trans hcalls)
    exact ⟨(hreset _ hJ rfl).2.2, List.singleton_inj.mp heq⟩
  · rintro ⟨hnot, heq⟩
    refine ⟨_, rfl, hinv _ (.idle ?_), ?_⟩
    · exact { backed := hv.backed, size_lt := hv.size_lt, operation := rfl, callback := rfl
              files := hv.files_eq, not_yield := hnot, queue := ⟨[], hv.queue⟩ }
    · rw [Option.map_some, Option.toList_some, ← heq]
      exact calls_errHandling hv

/-- `err_handling` leaves what is registered. -/
theorem not_returns_errHandling (hreset : ∀ w, J w → w.Reset) (hne : v.files ≠ [])
    {log : List Callback} : ¬Returns J log c execute cb ending (some (v, .errHandling state)) := by
  rintro ⟨w', h, hJ, -⟩
  obtain rfl := Option.some.inj h
  exact hne (hreset _ hJ rfl).1

/-- The invocation of the callback does, if there is memory for the queue or `err_handling` does. -/
theorem returns_invokeCallback_iff (hinv : ∀ w, Inv σ w → J w) (hreset : ∀ w, J w → w.Reset)
    (hv : Running σ c cb [] v) :
    Returns J v.log c execute cb (granted execute (some .ok)) (some (v, .invokeCallback)) ↔
      (execute = true ∨ c = .openCoroutine ∨ ¬v.Resumed) ∧
        ∀ s ∈ granted execute (some .ok), cb.Takes s := by
  cases execute with
  | false =>
    have hexit : Returns J v.log c false cb (some .outOfMemory) (some (v, .invokeCallback)) ↔
        Returns J v.log c false cb (some .outOfMemory) (some (v, .errHandling .outOfMemory)) := by
      have heq : World.conclude c false (v, .invokeCallback) =
          World.conclude c false (v, .errHandling .outOfMemory) := by
        simp [World.conclude, World.invokeCallback, hv.callback]
      simp only [Returns, Option.map_some, heq]
    refine hexit.trans ((returns_errHandling_iff hinv hreset hv).trans (and_congr ?_ ?_))
    · simp
    · simp [granted]
  | true =>
    have htakes : (∀ s ∈ granted true (some .ok), cb.Takes s) ↔
        cb.setCallbackState .ok = { cb with state := .ok } := by
      rw [setCallbackState_eq_iff]
      simp [granted]
    have hworld : World.conclude c true (v, .invokeCallback) =
        { v with
          ctx := { v.ctx with callback := none, cs := .exited }
          queue := [.callback (cb.setCallbackState .ok)]
          operation := none } := by
      simp [World.conclude, World.invokeCallback, hv.callback, hv.queue]
    rw [htakes, and_iff_right (.inl rfl), Returns, Option.map_some, hworld]
    constructor
    · rintro ⟨w', h, -, hcalls⟩
      obtain rfl := Option.some.inj h
      exact List.singleton_inj.mp (List.append_cancel_left hcalls)
    · intro heq
      refine ⟨_, rfl, hinv _ (.idle ?_), ?_⟩
      · exact { backed := hv.backed, size_lt := hv.size_lt, operation := rfl, callback := rfl
                files := hv.files_eq, not_yield := (by decide : ¬Cs.exited.IsYield), queue := ⟨[_], rfl⟩ }
      · exact congrArg (fun callback => v.log ++ [callback]) heq

/-! ### The loops -/

theorem Running.unregister (hv : Looping σ c cb v) : Running σ c cb [] v.unregister where
  backed := hv.backed
  size_lt := hv.size_lt
  operation := hv.operation
  callback := hv.callback
  files_eq := by
    rw [World.unregister, hv.files_eq]
    simp
  queue := hv.queue

/-- **The loop ends**, or the coroutine yields. -/
theorem returns_yieldUntil_iff (hinv : ∀ w, Inv σ w → J w) (hreset : ∀ w, J w → w.Reset)
    (hv : Looping σ c cb v) {cs : Cs} (hcs : c.Yields cs) {next : World → Option (World × Exit)}
    {W : Prop}
    (hnext : Returns J v.log c execute cb ending (next v.unregister) ↔
      W ∧ ∀ s ∈ ending, cb.Takes s) :
    Returns J v.log c execute cb (afterState state ending) (v.yieldUntil state cs next) ↔
      (state = .wantRead ∨ if state = .ok then W else c = .openCoroutine ∨ ¬v.Resumed) ∧
        ∀ s ∈ afterState state ending, cb.Takes s := by
  unfold World.yieldUntil
  by_cases hread : state = .wantRead
  · subst hread
    rw [if_pos rfl]
    exact iff_of_true (returns_yields hinv hv hcs) ⟨.inl rfl, by simp⟩
  rw [if_neg hread, or_iff_right hread]
  by_cases hok : state = .ok
  · subst hok
    rw [if_pos rfl, if_pos rfl]
    exact hnext
  · rw [if_neg hok, if_neg hok, afterState_other hread hok]
    refine (returns_errHandling_iff hinv hreset hv.unregister).trans ?_
    simp only [Option.mem_def, Option.some.injEq, forall_eq']
    exact .rfl

/-- **The loop begins**, unless there is no memory to register the descriptor. -/
theorem returns_yieldFrom_iff (hinv : ∀ w, Inv σ w → J w) (hreset : ∀ w, J w → w.Reset)
    (hv : Running σ c cb [] v) {mem : Bool} {loop : World → Option (World × Exit)} {W : Prop}
    (hloop : ∀ u : World, Looping σ c cb u → u.ctx = v.ctx → u.memory = v.memory → u.log = v.log →
      (Returns J v.log c execute cb ending (loop u) ↔ W ∧ ∀ s ∈ ending, cb.Takes s)) :
    Returns J v.log c execute cb (granted mem ending) (v.yieldFrom c mem loop) ↔
      (if mem = true then W else c = .openCoroutine ∨ ¬v.Resumed) ∧
        ∀ s ∈ granted mem ending, cb.Takes s := by
  have hany : (v.files.any fun file => file.1 = v.ctx.resourceHandle) = false := by
    rw [hv.files_eq]
    rfl
  unfold World.yieldFrom granted
  rw [hany, if_neg Bool.false_ne_true]
  cases mem with
  | true =>
    rw [if_pos rfl, if_pos rfl, if_pos rfl]
    refine hloop { v with files := v.files ++ [(v.ctx.resourceHandle, c)] } ?_ rfl rfl rfl
    exact { backed := hv.backed, size_lt := hv.size_lt, operation := hv.operation
            callback := hv.callback, files_eq := by rw [hv.files_eq]; rfl, queue := hv.queue }
  | false =>
    rw [if_neg Bool.false_ne_true, if_neg Bool.false_ne_true, if_neg Bool.false_ne_true]
    refine (returns_errHandling_iff hinv hreset hv).trans ?_
    simp only [Option.mem_def, Option.some.injEq, forall_eq']

end Returns

/-! ## Opening and closing -/

/-- A coroutine begins at its beginning where no coroutine has yielded. -/
theorem body_begin {v : World} {a : Answers σ} (hcs : ¬v.ctx.cs.IsYield) :
    World.openBody a v = v.yieldFrom .openCoroutine a.register (World.statLoop a) ∧
      World.readBody a v = v.rewind.yieldFrom .readCoroutine a.register (World.readLoop a) ∧
      World.closeBody a v = v.yieldFrom .closeCoroutine a.register (World.closeLoop a) := by
  unfold World.openBody World.readBody World.closeBody
  cases hv : v.ctx.cs with
  | fresh => exact ⟨rfl, rfl, rfl⟩
  | exited => exact ⟨rfl, rfl, rfl⟩
  | reset => exact ⟨rfl, rfl, rfl⟩
  | statYield => exact absurd (.inl hv) hcs
  | openYield => exact absurd (.inr (.inl hv)) hcs
  | readYield => exact absurd (.inr (.inr (.inl hv))) hcs
  | closeYield => exact absurd (.inr (.inr (.inr hv))) hcs


section Bodies

variable {J : World → Prop} {cb : Callback} {v : World} {a : Answers σ}

theorem returns_openLoop_iff (hinv : ∀ w, Inv σ w → J w) (hreset : ∀ w, J w → w.Reset)
    (hv : Looping σ .openCoroutine cb v) :
    Returns J v.log .openCoroutine a.execute cb a.openEnding (World.openLoop a v) ↔
      ∀ s ∈ a.openEnding, cb.Takes s := by
  refine (returns_yieldUntil_iff (W := True) hinv hreset hv (.inr rfl) ?_).trans ?_
  · refine (returns_invokeCallback_iff hinv hreset ?_).trans (and_congr_left' (by simp))
    exact hv.unregister.of_ctx rfl rfl rfl
  · exact and_iff_right (by simp)

theorem returns_statLoop_iff (hinv : ∀ w, Inv σ w → J w) (hreset : ∀ w, J w → w.Reset)
    (hv : Looping σ .openCoroutine cb v) :
    Returns J v.log .openCoroutine a.execute cb a.statEnding (World.statLoop a v) ↔
      ∀ s ∈ a.statEnding, cb.Takes s := by
  have hv' : Looping σ .openCoroutine cb
      { v with ctx := { v.ctx with resourceSize := a.resourceSize % σ.size } } :=
    { backed := hv.backed, operation := hv.operation, callback := hv.callback
      files_eq := hv.files_eq, queue := hv.queue
      size_lt := Nat.mod_lt _ (Nat.lt_of_lt_of_le (by decide) σ.le_size) }
  refine (returns_yieldUntil_iff (W := True) hinv hreset hv' (.inl rfl) ?_).trans ?_
  · refine (returns_yieldFrom_iff (W := True) hinv hreset hv'.unregister
      fun u hu _ _ hlog => ?_).trans (and_congr_left' (by simp))
    rw [true_and]
    exact hlog ▸ returns_openLoop_iff hinv hreset hu
  · exact and_iff_right (by simp)

theorem returns_closeLoop_iff (hinv : ∀ w, Inv σ w → J w) (hreset : ∀ w, J w → w.Reset)
    (hv : Looping σ .closeCoroutine cb v) :
    Returns J v.log .closeCoroutine a.execute cb a.closeEnding (World.closeLoop a v) ↔
      v.CloseWithin a ∧ ∀ s ∈ a.closeEnding, cb.Takes s := by
  refine (returns_yieldUntil_iff (W := v.ctx.dataBuffer.isSome = true ∧
    (a.execute = true ∨ ¬v.Resumed)) hinv hreset hv rfl ?_).trans ?_
  · change Returns J v.log .closeCoroutine a.execute cb a.lastEnding
      (if v.ctx.dataBuffer.isNone = true then none else _) ↔ _
    cases hbuffer : v.ctx.dataBuffer with
    | none => exact iff_of_false not_returns_none (by simp)
    | some desc =>
      refine (returns_invokeCallback_iff hinv hreset ?_).trans (and_congr_left' ?_)
      · exact hv.unregister.of_ctx rfl rfl rfl
      · rw [or_iff_right (show ¬Coroutine.closeCoroutine = .openCoroutine by decide),
          and_iff_right Option.isSome_some]
        exact .rfl
  · refine and_congr_left' (or_congr_right ?_)
    rw [or_iff_right (show ¬Coroutine.closeCoroutine = .openCoroutine by decide)]

end Bodies

/-! ## Reading -/

section Read

variable {v : World} {a : Answers σ}

theorem retState_of_completes (h : v.Completes a) : (v.advance a).retState a = .ok := by
  unfold World.retState
  rw [if_neg fun hne => hne.2 h.2]
  exact h.1

theorem retState_of_not_completes (hstate : a.readState = .ok ∨ a.readState = .wantRead)
    (h : ¬v.Completes a) : (v.advance a).retState a = .wantRead := by
  unfold World.retState
  rcases hstate with hok | hread
  · exact if_pos ⟨hok, fun heq => h ⟨hok, heq⟩⟩
  · split
    · rfl
    · exact hread

theorem retState_of_error (hok : a.readState ≠ .ok) : (v.advance a).retState a = a.readState :=
  if_neg fun h => hok h.1

theorem bytes_of_isSome (h : a.buffer.isSome = true) :
    ∃ chunk : Chunk σ, a.bytes = some chunk.bytes ∧ a.bufferSize = chunk.bytes.length := by
  obtain ⟨chunk, hchunk⟩ := Option.isSome_iff_exists.mp h
  have hbytes : a.bytes = some chunk.bytes := by rw [Answers.bytes, hchunk, Option.map_some]
  exact ⟨chunk, hbytes, by rw [Answers.bufferSize, hbytes, Option.getD_some]⟩

theorem bytes_of_not_isSome (h : ¬a.buffer.isSome = true) : a.bytes = none := by
  rw [Answers.bytes, Option.not_isSome_iff_eq_none.mp h, Option.map_none]

/-- The world with another data buffer, after a call of `read_resource`. -/
def World.accumulated (a : Answers σ) (v : World) (m : Blocks UInt8) (desc : Option DataDesc) : World :=
  { v.advance a with
    memory := m
    ctx := { (v.advance a).ctx with dataBuffer := desc } }

/-- All is read at once. -/
theorem accumulate_ok (h : v.ctx.dataBuffer = none) :
    World.accumulate a .ok (v.advance a) =
      (DataDesc.makeDescFromBufferShare v.memory a.bytes a.descMem).map fun r =>
        (v.accumulated a r.1 r.2, if r.2.isNone then some .outOfMemory else none) := by
  have h' : (v.advance a).ctx.dataBuffer = none := h
  unfold World.accumulate
  simp only [h', if_true]
  rfl

/-- The first chunk. -/
theorem accumulate_wantRead (h : v.ctx.dataBuffer = none) :
    World.accumulate a .wantRead (v.advance a) =
      (DataDesc.makeEmptyDescAlloc v.memory v.ctx.resourceSize a.descMem a.bufferMem).bind fun r =>
        if r.2.isNone then some (v.accumulated a r.1 r.2, some .outOfMemory)
        else (DataDesc.appendBytes σ r.1 r.2 a.bytes).map fun t =>
          (v.accumulated a t.1 t.2.1, if t.2.2 = .ok then none else some .wantRead) := by
  have h' : (v.advance a).ctx.dataBuffer = none := h
  unfold World.accumulate
  simp only [h', if_true]
  rfl

/-- A chunk that continues. -/
theorem accumulate_some {desc : DataDesc} (h : v.ctx.dataBuffer = some desc) {s : IotcState}
    (hs : s = .wantRead ∨ s = .ok) :
    World.accumulate a s (v.advance a) =
      (DataDesc.appendDataResize σ v.memory (some desc) a.bytes a.appendMem).map fun t =>
        (v.accumulated a t.1 t.2.1, if t.2.2 = .ok then none else some s) := by
  have h' : (v.advance a).ctx.dataBuffer = some desc := h
  unfold World.accumulate
  simp only [h', if_pos hs]
  rfl

theorem makeEmptyDescAlloc_granted (m : Blocks UInt8) {n : Nat} (hn : n ≠ 0) :
    DataDesc.makeEmptyDescAlloc m n true true =
      some ((m.alloc (List.replicate n 0)).2, some ⟨m.next, .ofNat n, 0, .managed⟩) :=
  if_neg hn

/-- A chunk has room in an empty buffer, or not. -/
theorem willItFit_empty {p : Ptr} (n : Nat) (chunk : Chunk σ) :
    DataDesc.willItFit σ ⟨p, .ofNat n, 0, .managed⟩ chunk.bytes.length = true ↔
      chunk.bytes.length ≤ n % 2 ^ 32 := by
  have hlen : ((0 : UInt32).toNat + chunk.bytes.length) % σ.size = chunk.bytes.length := by
    rw [UInt32.toNat_zero, Nat.zero_add, Nat.mod_eq_of_lt chunk.length_lt]
  rw [DataDesc.willItFit, hlen, Bool.not_eq_true', decide_eq_false_iff_not, Nat.not_lt,
    UInt32.toNat_ofNat']

theorem retState_of_accepted (hstate : a.readState = .ok ∨ a.readState = .wantRead) :
    (v.advance a).retState a = .wantRead ∨ (v.advance a).retState a = .ok := by
  by_cases hcompletes : v.Completes a
  · exact .inr (retState_of_completes hcompletes)
  · exact .inl (retState_of_not_completes hstate hcompletes)

/-- The first chunk goes to a buffer of the size of the file. -/
theorem accumulate_first (hs : Sized σ v) (hbuffer : v.ctx.dataBuffer = none) {chunk : Chunk σ}
    (hbytes : a.bytes = some chunk.bytes) (hdesc : a.descMem = true) (hmem : a.bufferMem = true)
    (hne : v.ctx.resourceSize ≠ 0) (hroom : chunk.bytes.length ≤ v.ctx.resourceSize % 2 ^ 32) :
    ∃ m desc, World.accumulate a .wantRead (v.advance a) =
        some (v.accumulated a m (some desc), none) ∧ desc.Backed σ m ∧
      desc.content m = some chunk.bytes ∧ desc.length.toNat = chunk.bytes.length ∧
      desc.limit = max (v.ctx.resourceSize % 2 ^ 32) (2 ^ 31) := by
  have hcapacity : (UInt32.ofNat v.ctx.resourceSize).toNat = v.ctx.resourceSize % 2 ^ 32 :=
    UInt32.toNat_ofNat'
  have hext : DataDesc.Extendable ⟨v.memory.next, .ofNat v.ctx.resourceSize, 0, .managed⟩
      chunk.bytes.length true := by
    refine .inl ?_
    rw [hcapacity, DataDesc.needed]
    exact Nat.le_trans (Nat.le_of_eq (Nat.zero_add _)) hroom
  obtain ⟨m', desc', happend, hb', hcontent, hlength, hlimit⟩ :=
    DataDesc.append_extends (DataDesc.backed_empty (σ := σ) v.memory hs.size_lt) hext
  rw [← DataDesc.appendBytes_of_fits ((willItFit_empty _ chunk).mpr hroom)] at happend
  refine ⟨m', desc', ?_, hb', ?_, ?_, ?_⟩
  · rw [accumulate_wantRead hbuffer, hdesc, hmem, makeEmptyDescAlloc_granted _ hne, Option.bind_some,
      hbytes, if_neg (by simp), happend]
    rfl
  · rw [hcontent, DataDesc.content_empty, Option.map_some, List.nil_append]
  · exact hlength.trans (Nat.zero_add _)
  · rw [hlimit, DataDesc.limit, hcapacity]

/-- **The data buffer takes the bytes.** -/
theorem accumulate_of_accepts (hs : Sized σ v)
    (hstate : a.readState = .ok ∨ a.readState = .wantRead) (h : v.Accepts a) :
    ∃ m desc, World.accumulate a ((v.advance a).retState a) (v.advance a) =
        some (v.accumulated a m (some desc), none) ∧ desc.Backed σ m := by
  unfold World.Accepts at h
  cases hbuffer : v.ctx.dataBuffer with
  | none =>
    simp only [hbuffer] at h
    by_cases hcompletes : v.Completes a
    · rw [if_pos hcompletes] at h
      obtain ⟨hsome, hdesc⟩ := h
      obtain ⟨chunk, hbytes, -⟩ := bytes_of_isSome hsome
      refine ⟨_, _, ?_, DataDesc.backed_share v.memory chunk.length_lt⟩
      rw [retState_of_completes hcompletes, accumulate_ok hbuffer, hbytes, hdesc]
      rfl
    · rw [if_neg hcompletes] at h
      obtain ⟨hsome, hdesc, hmem, hne, hroom⟩ := h
      obtain ⟨chunk, hbytes, hsize⟩ := bytes_of_isSome hsome
      obtain ⟨m', desc', haccumulate, hb', -⟩ :=
        accumulate_first hs hbuffer hbytes hdesc hmem hne (hsize ▸ hroom)
      exact ⟨m', desc', by rw [retState_of_not_completes hstate hcompletes, haccumulate], hb'⟩
  | some desc =>
    simp only [hbuffer] at h
    obtain ⟨chunk, hbytes, hsize⟩ := bytes_of_isSome h.1
    obtain ⟨m', desc', happend, hb', -⟩ :=
      DataDesc.append_extends (hs.backed desc hbuffer) (hsize ▸ h.2)
    refine ⟨m', desc', ?_, hb'⟩
    rw [accumulate_some hbuffer (retState_of_accepted hstate), hbytes, happend]
    rfl

/-- **The data buffer does not take the bytes**: an assertion fails, or the coroutine goes to
`err_handling` with its file registered. -/
theorem accumulate_of_not_accepts (hs : Sized σ v)
    (hstate : a.readState = .ok ∨ a.readState = .wantRead) (h : ¬v.Accepts a) :
    World.accumulate a ((v.advance a).retState a) (v.advance a) = none ∨
      ∃ m desc s, World.accumulate a ((v.advance a).retState a) (v.advance a) =
        some (v.accumulated a m desc, some s) := by
  unfold World.Accepts at h
  cases hbuffer : v.ctx.dataBuffer with
  | none =>
    simp only [hbuffer] at h
    by_cases hcompletes : v.Completes a
    · rw [if_pos hcompletes] at h
      rw [retState_of_completes hcompletes, accumulate_ok hbuffer]
      by_cases hsome : a.buffer.isSome = true
      · obtain ⟨chunk, hbytes, -⟩ := bytes_of_isSome hsome
        have hdesc : a.descMem = false := Bool.eq_false_iff.mpr fun hdesc => h ⟨hsome, hdesc⟩
        rw [hbytes, hdesc]
        exact .inr ⟨_, _, _, rfl⟩
      · rw [bytes_of_not_isSome hsome]
        exact .inl rfl
    · rw [if_neg hcompletes] at h
      rw [retState_of_not_completes hstate hcompletes, accumulate_wantRead hbuffer]
      by_cases hne : v.ctx.resourceSize = 0
      · rw [hne]
        exact .inl rfl
      by_cases hmem : (a.descMem && a.bufferMem) = true
      · obtain ⟨hdesc, hmem⟩ := Bool.and_eq_true_iff.mp hmem
        rw [hdesc, hmem, makeEmptyDescAlloc_granted _ hne, Option.bind_some, if_neg (by simp)]
        by_cases hsome : a.buffer.isSome = true
        · obtain ⟨chunk, hbytes, hsize⟩ := bytes_of_isSome hsome
          have hfits : DataDesc.willItFit σ
              ⟨v.memory.next, .ofNat v.ctx.resourceSize, 0, .managed⟩ chunk.bytes.length = false :=
            Bool.eq_false_iff.mpr fun hfits =>
              h ⟨hsome, hdesc, hmem, hne, hsize ▸ (willItFit_empty _ chunk).mp hfits⟩
          rw [hbytes, DataDesc.appendBytes_of_not_fits hfits]
          exact .inr ⟨_, _, _, rfl⟩
        · rw [bytes_of_not_isSome hsome]
          exact .inr ⟨_, _, _, rfl⟩
      · rw [DataDesc.makeEmptyDescAlloc, if_neg hne, if_neg hmem]
        exact .inr ⟨_, _, _, rfl⟩
  | some desc =>
    simp only [hbuffer] at h
    rw [accumulate_some hbuffer (retState_of_accepted hstate)]
    by_cases hsome : a.buffer.isSome = true
    · obtain ⟨chunk, hbytes, hsize⟩ := bytes_of_isSome hsome
      have hext : ¬desc.Extendable chunk.bytes.length a.appendMem := fun hext =>
        h ⟨hsome, hsize ▸ hext⟩
      rw [hbytes]
      rcases DataDesc.append_not_extends (hs.backed desc hbuffer) hext with hnone | ⟨-, hrefused⟩
      · exact .inl (by rw [hnone]; rfl)
      · rw [hrefused]
        exact .inr ⟨_, _, _, rfl⟩
    · rw [bytes_of_not_isSome hsome]
      exact .inr ⟨_, _, _, rfl⟩

variable {J : World → Prop} {cb : Callback}

/-- The loop after the data buffer has taken the bytes: the whole file has been read, or not. -/
theorem readLoop_of_accumulated {m : Blocks UInt8} {desc : DataDesc}
    (hstate : a.readState = .ok ∨ a.readState = .wantRead)
    (h : World.accumulate a ((v.advance a).retState a) (v.advance a) =
      some (v.accumulated a m (some desc), none)) :
    World.readLoop a v =
      if v.Completes a then some ((v.accumulated a m (some desc)).unregister, .invokeCallback)
      else some (v.accumulated a m (some desc), .yields .readYield) := by
  have hloop : World.readLoop a v = (v.accumulated a m (some desc)).yieldUntil
      (if (v.advance a).ctx.dataOffset < v.ctx.resourceSize then .wantRead
        else (v.advance a).retState a) .readYield fun w =>
          if w.ctx.dataBuffer.isNone then none else some (w, .invokeCallback) := by
    rw [World.readLoop, h]
    rfl
  rw [hloop]
  by_cases hcompletes : v.Completes a
  · rw [if_pos hcompletes, retState_of_completes hcompletes, if_neg (by rw [hcompletes.2]; omega),
      World.yieldUntil, if_neg (by decide), if_pos rfl]
    exact if_neg Bool.false_ne_true
  · rw [if_neg hcompletes, retState_of_not_completes hstate hcompletes, ite_self, World.yieldUntil,
      if_pos rfl]

theorem looping_accumulated (hv : Looping σ .readCoroutine cb v) {m : Blocks UInt8} {desc : DataDesc}
    (hb : desc.Backed σ m) : Looping σ .readCoroutine cb (v.accumulated a m (some desc)) where
  backed d hd := by
    obtain rfl := Option.some.inj hd
    exact hb
  size_lt := hv.size_lt
  operation := hv.operation
  callback := hv.callback
  files_eq := hv.files_eq
  queue := hv.queue

/-- The bytes are taken: the operation is at its end, or goes on. -/
theorem returns_readLoop_of_accepts (hinv : ∀ w, Inv σ w → J w) (hreset : ∀ w, J w → w.Reset)
    (hv : Looping σ .readCoroutine cb v) (hstate : a.readState = .ok ∨ a.readState = .wantRead)
    (h : v.Accepts a) :
    Returns J v.log .readCoroutine a.execute cb (if v.Completes a then a.lastEnding else none)
        (World.readLoop a v) ↔
      (v.Completes a → a.execute = true ∨ ¬v.Resumed) ∧
        ∀ s ∈ if v.Completes a then a.lastEnding else none, cb.Takes s := by
  obtain ⟨m, desc, haccumulate, hb⟩ := accumulate_of_accepts hv.toSized hstate h
  have hu := looping_accumulated (a := a) hv hb
  rw [readLoop_of_accumulated hstate haccumulate]
  by_cases hcompletes : v.Completes a
  · rw [if_pos hcompletes, if_pos hcompletes]
    refine (returns_invokeCallback_iff hinv hreset hu.unregister).trans (and_congr_left' ?_)
    rw [or_iff_right (show ¬Coroutine.readCoroutine = .openCoroutine by decide),
      forall_prop_of_true hcompletes]
    exact .rfl
  · rw [if_neg hcompletes, if_neg hcompletes]
    exact iff_of_true (returns_yields hinv hu rfl) ⟨fun hc => absurd hc hcompletes, by simp⟩

/-- An error is the end at the end of the file. -/
theorem returns_readLoop_of_error (hinv : ∀ w, Inv σ w → J w) (hreset : ∀ w, J w → w.Reset)
    (hv : Looping σ .readCoroutine cb v) (hok : a.readState ≠ .ok)
    (hread : a.readState ≠ .wantRead) :
    Returns J v.log .readCoroutine a.execute cb (some a.readState) (World.readLoop a v) ↔
      (v.ctx.resourceSize ≤ (v.advance a).ctx.dataOffset ∧ ¬v.Resumed) ∧ cb.Takes a.readState := by
  have haccumulate : World.accumulate a ((v.advance a).retState a) (v.advance a) =
      some (v.advance a, none) := by
    rw [retState_of_error hok]
    unfold World.accumulate
    split
    · rw [if_neg hok, if_neg hread]
    · rw [if_neg (not_or.mpr ⟨hread, hok⟩)]
  have hu : Looping σ .readCoroutine cb (v.advance a) := hv.of_ctx rfl rfl rfl
  have hloop : World.readLoop a v = (v.advance a).yieldUntil
      (if (v.advance a).ctx.dataOffset < v.ctx.resourceSize then .wantRead
        else (v.advance a).retState a) .readYield fun w =>
          if w.ctx.dataBuffer.isNone then none else some (w, .invokeCallback) := by
    rw [World.readLoop, haccumulate]
    rfl
  rw [hloop, retState_of_error hok]
  by_cases hlt : (v.advance a).ctx.dataOffset < v.ctx.resourceSize
  · rw [if_pos hlt, World.yieldUntil, if_pos rfl]
    exact iff_of_false (not_returns_yields hu) fun h => Nat.not_le.mpr hlt h.1.1
  · rw [if_neg hlt, World.yieldUntil, if_neg hread, if_neg hok]
    refine (returns_errHandling_iff hinv hreset hu.unregister).trans (and_congr_left' ?_)
    rw [or_iff_right (show ¬Coroutine.readCoroutine = .openCoroutine by decide),
      and_iff_right (Nat.not_lt.mp hlt)]
    exact .rfl

/-- **The loop around `read_resource`.** -/
theorem returns_readLoop_iff (hinv : ∀ w, Inv σ w → J w) (hreset : ∀ w, J w → w.Reset)
    (hv : Looping σ .readCoroutine cb v) :
    Returns J v.log .readCoroutine a.execute cb (v.readEnding a) (World.readLoop a v) ↔
      v.ReadWithin a ∧ ∀ s ∈ v.readEnding a, cb.Takes s := by
  unfold World.readEnding World.ReadWithin
  by_cases hstate : a.readState = .ok ∨ a.readState = .wantRead
  · rw [if_pos hstate, if_pos hstate]
    by_cases haccepts : v.Accepts a
    · rw [if_pos haccepts, and_iff_right haccepts]
      exact returns_readLoop_of_accepts hinv hreset hv hstate haccepts
    · rw [if_neg haccepts]
      refine iff_of_false ?_ fun h => haccepts h.1.1
      rw [World.readLoop]
      rcases accumulate_of_not_accepts hv.toSized hstate haccepts with hnone | ⟨m, desc, s, hsome⟩
      · rw [hnone]
        exact not_returns_none
      · rw [hsome]
        refine not_returns_errHandling hreset fun hnil => ?_
        exact absurd (hv.files_eq.symm.trans hnil) (by simp)
  · rw [if_neg hstate, if_neg hstate]
    obtain ⟨hok, hread⟩ := not_or.mp hstate
    refine (returns_readLoop_of_error hinv hreset hv hok hread).trans (and_congr_right fun _ => ?_)
    simp only [Option.mem_def, Option.some.injEq, forall_eq']

end Read

end IotDeviceSdk.ResourceManager
