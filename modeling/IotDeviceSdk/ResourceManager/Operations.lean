import IotDeviceSdk.Datastructures.Append
import IotDeviceSdk.ResourceManager.Manager

/-!
# Operations in any order (`iotc_resource_manager.c`)

`Sound` is what is claimed of a step: no assertion fails; the callback of an operation that ends, and no
other, is invoked or handed to the dispatcher, with the outcome of the operation; and while no operation
goes on nothing is registered and `cs` is not the line of a yield. `ending` says when an operation ends
and with what, from the answers alone: the first answer that is neither `OK` nor `WANT_READ` ends it.

`StepWithin` is the condition under which a step is so. An operation leaves something behind if

* there is no memory for the queue of the dispatcher when it is called;
* reading or closing fails after a yield, since `cs` is not reset;
* the data buffer does not take the bytes, since the file stays registered.

An error before the end of the file does not end reading, closing needs a data buffer, and the state that
a callback comes with is not overwritten.
-/

namespace IotDeviceSdk.ResourceManager

open Datastructures Infra

variable {σ : SizeT}

/-! ## When an operation ends -/

/-- What the state that a function of the file system returns means for the operation. -/
def afterState (state : IotcState) (next : Option IotcState) : Option IotcState :=
  if state = .wantRead then none else if state = .ok then next else some state

@[simp] theorem afterState_wantRead (next : Option IotcState) : afterState .wantRead next = none :=
  rfl

@[simp] theorem afterState_ok (next : Option IotcState) : afterState .ok next = next := rfl

theorem afterState_other {state : IotcState} (hread : state ≠ .wantRead) (hok : state ≠ .ok)
    (next : Option IotcState) : afterState state next = some state := by
  rw [afterState, if_neg hread, if_neg hok]

/-- What an answer of an allocator means for it. -/
def granted (mem : Bool) (next : Option IotcState) : Option IotcState :=
  if mem then next else some .outOfMemory

/-- The callback is handed to the dispatcher. -/
def Answers.lastEnding (a : Answers σ) : Option IotcState := granted a.execute (some .ok)

/-- From the loop around `open_resource` on. -/
def Answers.openEnding (a : Answers σ) : Option IotcState := afterState a.openState a.lastEnding

/-- From the loop around `stat_resource` on. -/
def Answers.statEnding (a : Answers σ) : Option IotcState :=
  afterState a.statState (granted a.registerOpen a.openEnding)

/-- From the loop around `close_resource` on. -/
def Answers.closeEnding (a : Answers σ) : Option IotcState := afterState a.closeState a.lastEnding

/-- A callback comes with `OK`, or with the state that it gets. -/
def Callback.Takes (callback : Callback) (state : IotcState) : Prop :=
  callback.state = .ok ∨ callback.state = state

instance (callback : Callback) (state : IotcState) : Decidable (callback.Takes state) :=
  inferInstanceAs (Decidable (_ ∨ _))

namespace World

/-- The whole file has been read. -/
def Completes (a : Answers σ) (w : World) : Prop :=
  a.readState = .ok ∧ (w.advance a).ctx.dataOffset = w.ctx.resourceSize

instance (a : Answers σ) (w : World) : Decidable (w.Completes a) := inferInstanceAs (Decidable (_ ∧ _))

/-- The data buffer takes the bytes. Without one, it is the buffer of the file system for a whole file,
and else one of the size of the file, which is cut to 32 bits. -/
def Accepts (a : Answers σ) (w : World) : Prop :=
  match w.ctx.dataBuffer with
  | none =>
    if w.Completes a then a.buffer.isSome ∧ a.descMem = true
    else a.buffer.isSome ∧ a.descMem = true ∧ a.bufferMem = true ∧ w.ctx.resourceSize ≠ 0 ∧
      a.bufferSize ≤ w.ctx.resourceSize % 2 ^ 32
  | some dataBuffer => a.buffer.isSome ∧ dataBuffer.Extendable a.bufferSize a.appendMem

instance (a : Answers σ) (w : World) : Decidable (w.Accepts a) := by
  unfold Accepts
  split <;> infer_instance

/-- From the loop around `read_resource` on. -/
def readEnding (a : Answers σ) (w : World) : Option IotcState :=
  if a.readState = .ok ∨ a.readState = .wantRead then
    if w.Accepts a then if w.Completes a then a.lastEnding else none
    else some .outOfMemory
  else some a.readState

/-- Reading begins at the start of the file. -/
def rewind (w : World) : World := { w with ctx := { w.ctx with dataOffset := 0 } }

/-- **When the coroutine ends its operation**, and with what. -/
def ending (a : Answers σ) (w : World) : Coroutine → Option IotcState
  | .openCoroutine =>
    if w.ctx.cs = .statYield then a.statEnding
    else if w.ctx.cs = .openYield then a.openEnding
    else granted a.register a.statEnding
  | .readCoroutine =>
    if w.ctx.cs = .readYield then w.readEnding a else granted a.register (w.rewind.readEnding a)
  | .closeCoroutine =>
    if w.ctx.cs = .closeYield then a.closeEnding else granted a.register a.closeEnding

/-- The coroutine that a step runs, with the answers to it. -/
def runs (w : World) : Event σ → Option (Coroutine × Answers σ)
  | .call .. => none
  | .dispatch a =>
    match w.queue with
    | .coroutine c :: _ => some (c, a)
    | _ => none
  | .ready fd a => (w.files.find? fun file => file.1 = fd).map fun file => (file.2, a)

/-! ## What is claimed -/

/-- The callbacks that have been invoked, and those that the dispatcher is about to invoke. -/
def calls (w : World) : List Callback :=
  w.log ++ w.queue.filterMap fun
    | .coroutine _ => none
    | .callback callback => some callback

/-- Between two operations no file is registered, the callback is disposed, and a coroutine begins at
its beginning. -/
def Reset (w : World) : Prop :=
  w.operation = none → w.files = [] ∧ w.ctx.callback = none ∧ ¬w.ctx.cs.IsYield

/-- The call of the callback of the operation that ends with the step. -/
def outcome (w : World) (e : Event σ) : Option Callback :=
  (w.runs e).bind fun r =>
    w.ctx.callback.bind fun callback => (w.ending r.2 r.1).map fun state => { callback with state }

/-- **What is claimed of a step.** -/
def Sound (w : World) (e : Event σ) : Prop :=
  ∃ w', step w e = some w' ∧ w'.Reset ∧ w'.calls = w.calls ++ (w.outcome e).toList

/-! ## The condition -/

/-- The coroutine has yielded before. -/
def Resumed (w : World) : Prop := w.ctx.cs.IsYield

instance (w : World) : Decidable w.Resumed := inferInstanceAs (Decidable w.ctx.cs.IsYield)

/-- The condition on the loop around `read_resource`. -/
def ReadWithin (a : Answers σ) (w : World) : Prop :=
  if a.readState = .ok ∨ a.readState = .wantRead then
    w.Accepts a ∧ (w.Completes a → a.execute = true ∨ ¬w.Resumed)
  else w.ctx.resourceSize ≤ (w.advance a).ctx.dataOffset ∧ ¬w.Resumed

instance (a : Answers σ) (w : World) : Decidable (w.ReadWithin a) := by
  unfold ReadWithin
  infer_instance

/-- The condition on the loop around `close_resource`. -/
def CloseWithin (a : Answers σ) (w : World) : Prop :=
  a.closeState = .wantRead ∨
    if a.closeState = .ok then w.ctx.dataBuffer.isSome ∧ (a.execute = true ∨ ¬w.Resumed)
    else ¬w.Resumed

instance (a : Answers σ) (w : World) : Decidable (w.CloseWithin a) := by
  unfold CloseWithin
  infer_instance

/-- The condition on a coroutine. There is none on opening. -/
def Within (a : Answers σ) (w : World) : Coroutine → Prop
  | .openCoroutine => True
  | .readCoroutine =>
    if w.ctx.cs = .readYield then w.ReadWithin a else a.register = true → w.rewind.ReadWithin a
  | .closeCoroutine => if w.ctx.cs = .closeYield ∨ a.register = true then w.CloseWithin a else True

instance (a : Answers σ) (w : World) (c : Coroutine) : Decidable (w.Within a c) := by
  cases c <;> unfold Within <;> infer_instance

/-- **The condition on a step.** -/
def StepWithin (w : World) (e : Event σ) : Prop :=
  (∀ r ∈ w.runs e, w.Within r.2 r.1 ∧
    ∀ callback ∈ w.ctx.callback, ∀ state ∈ w.ending r.2 r.1, callback.Takes state) ∧
    match e with
    | .call c _ mem => w.Refuses c ∨ mem = true
    | _ => True

instance (w : World) (e : Event σ) : Decidable (w.StepWithin e) := by
  unfold StepWithin
  cases e <;> infer_instance

end World

/-! ## The stages of an operation -/

/-- A coroutine yields at its own lines. -/
def Coroutine.Yields : Coroutine → Cs → Prop
  | .openCoroutine, cs => cs = .statYield ∨ cs = .openYield
  | .readCoroutine, cs => cs = .readYield
  | .closeCoroutine, cs => cs = .closeYield

/-- The data buffer is one, and the size of the file is a `size_t`. -/
structure Sized (σ : SizeT) (w : World) : Prop where
  backed : ∀ desc ∈ w.ctx.dataBuffer, desc.Backed σ w.memory
  size_lt : w.ctx.resourceSize < σ.size

/-- No operation goes on. -/
structure Idle (σ : SizeT) (w : World) : Prop extends Sized σ w where
  operation : w.operation = none
  callback : w.ctx.callback = none
  files : w.files = []
  not_yield : ¬w.ctx.cs.IsYield
  queue : ∃ cbs : List Callback, w.queue = cbs.map .callback

/-- The coroutine `c` is in the queue of the dispatcher. -/
structure Queued (σ : SizeT) (c : Coroutine) (cb : Callback) (w : World) : Prop
    extends Sized σ w where
  operation : w.operation = some c
  callback : w.ctx.callback = some cb
  files : w.files = []
  not_yield : ¬w.ctx.cs.IsYield
  queue : ∃ cbs : List Callback, w.queue = cbs.map .callback ++ [.coroutine c]

/-- The coroutine `c` runs, and these files are registered. -/
structure Running (σ : SizeT) (c : Coroutine) (cb : Callback) (files : List (Int × Coroutine))
    (w : World) : Prop extends Sized σ w where
  operation : w.operation = some c
  callback : w.ctx.callback = some cb
  files_eq : w.files = files
  queue : w.queue = []

/-- The loop of the coroutine `c` goes on. -/
abbrev Looping (σ : SizeT) (c : Coroutine) (cb : Callback) (w : World) : Prop :=
  Running σ c cb [(w.ctx.resourceHandle, c)] w

/-- **The invariant.** -/
inductive Inv (σ : SizeT) (w : World) : Prop
  | idle (h : Idle σ w)
  | queued (c : Coroutine) (cb : Callback) (h : Queued σ c cb w)
  | waiting (c : Coroutine) (cb : Callback) (h : Looping σ c cb w) (hcs : c.Yields w.ctx.cs)

theorem Inv.reset {w : World} (h : Inv σ w) : w.Reset := by
  intro hnone
  cases h with
  | idle h => exact ⟨h.files, h.callback, h.not_yield⟩
  | queued c cb h => exact absurd (hnone.symm.trans h.operation) (by simp)
  | waiting c cb h hcs => exact absurd (hnone.symm.trans h.operation) (by simp)

theorem Coroutine.Yields.isYield {c : Coroutine} {cs : Cs} (h : c.Yields cs) : cs.IsYield := by
  cases c with
  | openCoroutine => exact h.elim .inl fun h => .inr (.inl h)
  | readCoroutine => exact .inr (.inr (.inl h))
  | closeCoroutine => exact .inr (.inr (.inr h))

end IotDeviceSdk.ResourceManager
