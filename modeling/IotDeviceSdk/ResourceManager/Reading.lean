import IotDeviceSdk.ResourceManager.Invoked
import IotDeviceSdk.ResourceManager.Returns

/-!
# Reading a file in any pieces (`iotc_resource_manager_read_coroutine`)

`Delivers` is every way to deliver the contents of a file: pieces of any sizes, with `OK` or `WANT_READ`,
until one comes with `OK` and nothing is left. `ReadsAll` says that reading ends with these contents in
the data buffer and has invoked its callback once, with `OK`.

It does not for an empty file that needs a second call, since no buffer of 0 bytes is made; for a call
without data that leaves the buffer `NULL`, since that cannot be appended; for a data buffer that is not
empty, since the file is appended to it; and for files that the buffer cannot grow to.
-/

namespace IotDeviceSdk.ResourceManager

open Datastructures Infra

variable {σ : SizeT}

/-! ## Deliveries -/

/-- What `read_resource` answers. -/
structure ReadResult (σ : SizeT) where
  state : IotcState
  buffer : Option (Chunk σ)

/-- The bytes that are delivered. A buffer that is `NULL` delivers none. -/
def ReadResult.bytes (r : ReadResult σ) : Bytes := (r.buffer.map Chunk.bytes).getD []

/-- The answers with memory for whatever the coroutine asks for. -/
def ReadResult.answers (r : ReadResult σ) : Answers σ := { readState := r.state, buffer := r.buffer }

/-- **The ways to deliver the contents of a file.** The last call says `OK`, and no other one says so with
nothing left. -/
inductive Delivers : Bytes → List (ReadResult σ) → Prop
  | last (r : ReadResult σ) (hstate : r.state = .ok) : Delivers r.bytes [r]
  | more (r : ReadResult σ) {rest : Bytes} {rs : List (ReadResult σ)}
      (hstate : r.state = .wantRead ∨ r.state = .ok ∧ rest ≠ []) (h : Delivers rest rs) :
      Delivers (r.bytes ++ rest) (r :: rs)

/-- The coroutine goes on with these answers, and the dispatcher takes the callback. -/
def remaining (fd : Int) (rs : List (ReadResult σ)) : List (Event σ) :=
  (rs.map fun r => .ready fd r.answers) ++ [.dispatch {}]

/-- A call of `iotc_resource_manager_read`, and the coroutine with these answers. -/
def readEvents (fd : Int) (callback : Callback) : List (ReadResult σ) → List (Event σ)
  | [] => []
  | r :: rs => .call .readCoroutine callback true :: .dispatch r.answers :: remaining fd rs

/-- The callback has been invoked once more, with `OK`, and the data buffer has the contents. -/
def HasRead (log : List Callback) (callback : Callback) (content : Bytes) (w : World) : Prop :=
  w.log = log ++ [{ callback with state := .ok }] ∧
    ∃ desc, w.ctx.dataBuffer = some desc ∧ desc.content w.memory = some content

/-- **What is claimed of reading.** -/
def ReadsAll (w : World) (callback : Callback) (content : Bytes) (rs : List (ReadResult σ)) : Prop :=
  ∃ w', run step w (readEvents w.ctx.resourceHandle callback rs) = some w' ∧
    HasRead w.log callback content w'

/-- A resource is open, `stat` has reported its length, and no operation goes on. -/
structure Opened (σ : SizeT) (content : Bytes) (w : World) : Prop extends Idle σ w where
  queue_nil : w.queue = []
  handle : 0 ≤ w.ctx.resourceHandle
  size : w.ctx.resourceSize = content.length

/-- **The condition**: the callback comes with `OK`; all buffers but the last one are not `NULL`; and
the data buffer can have the contents. -/
def ReadsWithin (w : World) (callback : Callback) (content : Bytes) (rs : List (ReadResult σ)) :
    Prop :=
  callback.state = .ok ∧ (∀ r ∈ rs.dropLast, r.buffer.isSome) ∧
    match w.ctx.dataBuffer with
    | none => content.length < 2 ^ 32 ∧ if rs.length = 1 then ∀ r ∈ rs, r.buffer.isSome else content ≠ []
    | some desc => desc.length = 0 ∧ content.length ≤ desc.limit

/-! ## The loop with a data buffer -/

section Loop

variable {log : List Callback} {cb : Callback} {content old : Bytes} {v w : World} {fd : Int}
  {r : ReadResult σ} {rs : List (ReadResult σ)} {desc : DataDesc}

/-- What is left to do ends as it has to. -/
def Reads (log : List Callback) (cb : Callback) (content : Bytes) (es : List (Event σ)) (v : World) :
    Prop := ∃ w', run step v es = some w' ∧ HasRead log cb content w'

/-- The coroutine is in its loop, with this answer and then the others. -/
def ReadsFrom (log : List Callback) (cb : Callback) (content : Bytes) (r : ReadResult σ)
    (rs : List (ReadResult σ)) (v : World) : Prop :=
  ∃ v', (World.readLoop r.answers v).map (World.conclude .readCoroutine true) = some v' ∧
    Reads log cb content (remaining v.ctx.resourceHandle rs) v'

/-- A callback that has not got `OK`. -/
theorem setCallbackState_ne {state : IotcState} (h : state ≠ .ok) :
    cb.setCallbackState state ≠ { cb with state := .ok } := by
  intro heq
  have hstate := congrArg Callback.state heq
  unfold Callback.setCallbackState at hstate
  split at hstate
  · exact h hstate
  · next hcb => exact hcb hstate

/-- It cannot be undone. -/
theorem not_reads {x : Callback} (hlog : v.log = log ++ [x]) (hx : x ≠ { cb with state := .ok })
    (es : List (Event σ)) : ¬Reads log cb content es v := by
  rintro ⟨w', hrun, hw', -⟩
  have hlogs := log_run hrun
  rw [hlog, hw', List.prefix_append_right_inj] at hlogs
  exact hx (List.singleton_inj.mp (hlogs.eq_of_length rfl))

/-- `err_handling` with a state that is not `OK` is not the end that is wanted. -/
theorem not_readsFrom_errHandling (hv : Looping σ .readCoroutine cb v) (hlog : v.log = log)
    {u : World} {state : IotcState} (hcb : u.ctx.callback = v.ctx.callback) (hu : u.log = v.log)
    (hloop : World.readLoop r.answers v = some (u, .errHandling state)) (hstate : state ≠ .ok) :
    ¬ReadsFrom log cb content r rs v := by
  rintro ⟨v', hv', hreads⟩
  rw [hloop] at hv'
  obtain rfl := Option.some.inj hv'
  refine not_reads (x := cb.setCallbackState state) ?_ (setCallbackState_ne hstate) _ hreads
  change u.log ++ (u.ctx.callback.map (·.setCallbackState state)).toList = _
  rw [hcb, hv.callback, hu, hlog]
  rfl

theorem not_readsFrom_none (hloop : World.readLoop r.answers v = none) :
    ¬ReadsFrom log cb content r rs v := by
  rintro ⟨v', hv', -⟩
  rw [hloop] at hv'
  cases hv'

/-! ### One call of `read_resource` -/

theorem bytes_answers (hbuffer : r.buffer = none) : r.answers.bytes = none ∧ r.bytes = [] := by
  rw [Answers.bytes, ReadResult.answers, ReadResult.bytes, hbuffer]
  exact ⟨rfl, rfl⟩

theorem bytes_answers_some {chunk : Chunk σ} (hbuffer : r.buffer = some chunk) :
    r.answers.bytes = some chunk.bytes ∧ r.bytes = chunk.bytes := by
  rw [Answers.bytes, ReadResult.answers, ReadResult.bytes, hbuffer]
  exact ⟨rfl, rfl⟩

/-- The offset stays within the file. -/
theorem offset_advance (hs : Sized σ v)
    (hle : v.ctx.dataOffset + r.bytes.length ≤ v.ctx.resourceSize) :
    (v.advance r.answers).ctx.dataOffset = v.ctx.dataOffset + r.bytes.length :=
  Nat.mod_eq_of_lt (Nat.lt_of_le_of_lt hle hs.size_lt)

theorem completes_iff (hs : Sized σ v)
    (hle : v.ctx.dataOffset + r.bytes.length ≤ v.ctx.resourceSize) :
    v.Completes r.answers ↔
      r.state = .ok ∧ v.ctx.dataOffset + r.bytes.length = v.ctx.resourceSize := by
  rw [World.Completes, offset_advance hs hle]
  exact .rfl

/-- A `NULL` buffer is refused, and the state stays what the file system has said. -/
theorem readLoop_null (hv : v.ctx.dataBuffer = some desc)
    (hstate : r.state = .ok ∨ r.state = .wantRead) (hbuffer : r.buffer = none) :
    World.readLoop r.answers v = some (v.accumulated r.answers v.memory (some desc),
      .errHandling ((v.advance r.answers).retState r.answers)) := by
  rw [World.readLoop, accumulate_some hv (retState_of_accepted hstate), (bytes_answers hbuffer).1]
  rfl

/-- The bytes are appended. -/
theorem readLoop_append (hv : v.ctx.dataBuffer = some desc)
    (hstate : r.state = .ok ∨ r.state = .wantRead) {chunk : Chunk σ} (hbuffer : r.buffer = some chunk)
    {m : Blocks UInt8} {desc' : DataDesc}
    (happend : DataDesc.appendDataResize σ v.memory (some desc) (some chunk.bytes) true =
      some (m, some desc', .ok)) :
    World.readLoop r.answers v =
      if v.Completes r.answers then
        some ((v.accumulated r.answers m (some desc')).unregister, .invokeCallback)
      else some (v.accumulated r.answers m (some desc'), .yields .readYield) := by
  refine readLoop_of_accumulated hstate ?_
  rw [accumulate_some hv (retState_of_accepted hstate), (bytes_answers_some hbuffer).1,
    show r.answers.appendMem = true from rfl, happend]
  rfl

theorem readLoop_too_large (hv : v.ctx.dataBuffer = some desc)
    (hstate : r.state = .ok ∨ r.state = .wantRead) {chunk : Chunk σ} (hbuffer : r.buffer = some chunk)
    (happend : DataDesc.appendDataResize σ v.memory (some desc) (some chunk.bytes) true = none) :
    World.readLoop r.answers v = none := by
  rw [World.readLoop, accumulate_some hv (retState_of_accepted hstate), (bytes_answers_some hbuffer).1,
    show r.answers.appendMem = true from rfl, happend]
  rfl

/-- With memory, an append is possible up to the limit. -/
theorem extendable_iff {n : Nat} : desc.Extendable n true ↔ desc.needed n ≤ desc.limit := by
  rw [DataDesc.Extendable, DataDesc.limit, and_iff_left rfl]
  omega

/-! ### The end -/

theorem reads_nil_iff : Reads log cb content ([] : List (Event σ)) v ↔ HasRead log cb content v := by
  constructor
  · rintro ⟨w', hrun, hw'⟩
    obtain rfl := Option.some.inj hrun
    exact hw'
  · intro hw'
    exact ⟨v, rfl, hw'⟩

theorem reads_cons_iff {e : Event σ} {es : List (Event σ)} (h : step v e = some w) :
    Reads log cb content (e :: es) v ↔ Reads log cb content es w := by
  unfold Reads
  rw [run_cons, h, Option.bind_some]

theorem readsFrom_iff (h : (World.readLoop r.answers v).map (World.conclude .readCoroutine true) =
    some w) : ReadsFrom log cb content r rs v ↔
      Reads log cb content (remaining v.ctx.resourceHandle rs) w := by
  constructor
  · rintro ⟨v', hv', hreads⟩
    obtain rfl := Option.some.inj (h.symm.trans hv')
    exact hreads
  · intro hreads
    exact ⟨w, h, hreads⟩

theorem setCallbackState_ok_iff :
    cb.setCallbackState .ok = { cb with state := .ok } ↔ cb.state = .ok :=
  setCallbackState_eq_iff.trans (or_self_iff ..)

/-- What a callback and a data buffer have to be at the end. -/
theorem hasRead_iff (hlog : w.log = log ++ [cb.setCallbackState .ok])
    (hbuffer : w.ctx.dataBuffer = some desc) :
    HasRead log cb content w ↔ cb.state = .ok ∧ desc.content w.memory = some content := by
  unfold HasRead
  rw [hlog, hbuffer, List.append_cancel_left_eq, List.singleton_inj, setCallbackState_ok_iff]
  simp

/-- The end by the queue of the dispatcher. -/
theorem readsFrom_invokeCallback_iff (hv : Looping σ .readCoroutine cb v) (hlog : v.log = log)
    {m : Blocks UInt8} (hloop : World.readLoop r.answers v =
      some ((v.accumulated r.answers m (some desc)).unregister, .invokeCallback)) :
    ReadsFrom log cb content r [] v ↔ cb.state = .ok ∧ desc.content m = some content := by
  have hcb : (v.accumulated r.answers m (some desc)).unregister.ctx.callback = some cb := hv.callback
  have hqueue : (v.accumulated r.answers m (some desc)).unregister.queue = [] := hv.queue
  have hconclude : (World.readLoop r.answers v).map (World.conclude .readCoroutine true) =
      some { (v.accumulated r.answers m (some desc)).unregister with
        ctx := { (v.accumulated r.answers m (some desc)).unregister.ctx with
          callback := none, cs := .exited }
        queue := [.callback (cb.setCallbackState .ok)]
        operation := none } := by
    simp only [hloop, Option.map_some, World.conclude, World.invokeCallback, hcb, if_true, hqueue,
      List.nil_append]
  refine (readsFrom_iff hconclude).trans ((reads_cons_iff rfl).trans (reads_nil_iff.trans ?_))
  exact hasRead_iff (by rw [← hlog]; rfl) rfl

/-- The end by `err_handling`, which has invoked the callback already. -/
theorem readsFrom_errHandling_iff (hv : Looping σ .readCoroutine cb v) (hlog : v.log = log)
    {m : Blocks UInt8} (hloop : World.readLoop r.answers v =
      some (v.accumulated r.answers m (some desc), .errHandling .ok)) :
    ReadsFrom log cb content r [] v ↔ cb.state = .ok ∧ desc.content m = some content := by
  have hconclude : (World.readLoop r.answers v).map (World.conclude .readCoroutine true) =
      some ((v.accumulated r.answers m (some desc)).errHandling .readCoroutine .ok) := by
    rw [hloop]
    rfl
  have hqueue : ((v.accumulated r.answers m (some desc)).errHandling .readCoroutine .ok).queue = [] :=
    hv.queue
  have hstep : step ((v.accumulated r.answers m (some desc)).errHandling .readCoroutine .ok)
      (.dispatch {} : Event σ) =
      some ((v.accumulated r.answers m (some desc)).errHandling .readCoroutine .ok) := by
    simp only [step, hqueue]
  refine (readsFrom_iff hconclude).trans ((reads_cons_iff hstep).trans (reads_nil_iff.trans ?_))
  refine hasRead_iff ?_ rfl
  change v.log ++ (v.ctx.callback.map (·.setCallbackState .ok)).toList = _
  rw [hv.callback, hlog]
  rfl

/-! ### From call to call -/

/-- The dispatcher runs the coroutine again, from where it has yielded. -/
theorem reads_remaining_iff (hv : Looping σ .readCoroutine cb v) (hcs : v.ctx.cs = .readYield) :
    Reads log cb content (remaining v.ctx.resourceHandle (r :: rs)) v ↔
      ReadsFrom log cb content r rs v := by
  have hstep : step v (.ready v.ctx.resourceHandle r.answers) =
      (World.readLoop r.answers v).map (World.conclude .readCoroutine true) := by
    have hfind : v.files.find? (fun file => file.1 = v.ctx.resourceHandle) =
        some (v.ctx.resourceHandle, .readCoroutine) := by
      rw [hv.files_eq]
      simp
    simp only [step, hfind, World.resume, World.body, World.readBody, hcs]
    rfl
  unfold ReadsFrom
  constructor
  · rintro ⟨w', hrun, hw'⟩
    obtain ⟨v', hv', hrun⟩ := Option.bind_eq_some_iff.mp hrun
    exact ⟨v', hstep.symm.trans hv', w', hrun, hw'⟩
  · rintro ⟨v', hv', w', hrun, hw'⟩
    exact ⟨w', Option.bind_eq_some_iff.mpr ⟨v', hstep.trans hv', hrun⟩, hw'⟩

/-- The coroutine yields, and goes on with the next answer. -/
theorem readsFrom_yields_iff (hv : Looping σ .readCoroutine cb v) {m : Blocks UInt8}
    (hb : desc.Backed σ m) (hloop : World.readLoop r.answers v =
      some (v.accumulated r.answers m (some desc), .yields .readYield)) (r' : ReadResult σ)
    (rs : List (ReadResult σ)) :
    ∃ u : World, Looping σ .readCoroutine cb u ∧ u.log = v.log ∧ u.memory = m ∧
      u.ctx.dataBuffer = some desc ∧ u.ctx.resourceSize = v.ctx.resourceSize ∧
      u.ctx.dataOffset = (v.advance r.answers).ctx.dataOffset ∧
      (ReadsFrom log cb content r (r' :: rs) v ↔ ReadsFrom log cb content r' rs u) := by
  have hu : Looping σ .readCoroutine cb { v.accumulated r.answers m (some desc) with
      ctx := { (v.accumulated r.answers m (some desc)).ctx with cs := .readYield } } :=
    (looping_accumulated hv hb).of_ctx rfl rfl rfl
  refine ⟨{ v.accumulated r.answers m (some desc) with
    ctx := { (v.accumulated r.answers m (some desc)).ctx with cs := .readYield } }, hu,
    rfl, rfl, rfl, rfl, rfl, ?_⟩
  refine (readsFrom_iff ?_).trans (reads_remaining_iff hu rfl)
  rw [hloop]
  rfl

/-- **The loop with a data buffer**: all buffers but the last are not `NULL`, and the data buffer can
grow to what is left. -/
theorem readsFrom_some_iff {rest : Bytes} (h : Delivers rest rs) :
    ∀ {v : World} {desc : DataDesc} {old : Bytes} {r : ReadResult σ} {rs' : List (ReadResult σ)},
      rs = r :: rs' → Looping σ .readCoroutine cb v → v.log = log → v.ctx.dataBuffer = some desc →
      desc.content v.memory = some old →
      v.ctx.dataOffset + rest.length = v.ctx.resourceSize →
      (ReadsFrom log cb content r rs' v ↔
        (∀ r ∈ rs.dropLast, r.buffer.isSome) ∧ desc.needed rest.length ≤ desc.limit ∧
          cb.state = .ok ∧ old ++ rest = content) := by
  induction h with
  | last r hstate =>
    intro v desc old r' rs' heq hv hlog hbuffer hold hoffset
    obtain ⟨rfl, rfl⟩ := List.cons.inj heq
    have hcompletes : v.Completes r.answers :=
      (completes_iff hv.toSized (Nat.le_of_eq hoffset)).mpr ⟨hstate, hoffset⟩
    have hb := hv.backed desc hbuffer
    cases hr : r.buffer with
    | none =>
      have hloop := readLoop_null hbuffer (.inl hstate) hr
      rw [retState_of_completes hcompletes] at hloop
      have hlimit : desc.needed 0 ≤ desc.limit := by
        have hle := hb.length_le
        rw [DataDesc.needed, DataDesc.limit]
        omega
      refine (readsFrom_errHandling_iff hv hlog hloop).trans ?_
      rw [hold, (bytes_answers hr).2]
      simp [hlimit]
    | some chunk =>
      obtain ⟨-, hbytes⟩ := bytes_answers_some hr
      rw [hbytes]
      by_cases hlimit : desc.needed chunk.bytes.length ≤ desc.limit
      · obtain ⟨m, desc', happend, hb', hcontent, -⟩ :=
          DataDesc.append_extends hb (extendable_iff.mpr hlimit)
        have hloop := readLoop_append hbuffer (.inl hstate) hr happend
        rw [if_pos hcompletes] at hloop
        refine (readsFrom_invokeCallback_iff hv hlog hloop).trans ?_
        rw [hcontent, hold]
        simp [hlimit]
      · refine iff_of_false ?_ fun h => hlimit h.2.1
        refine not_readsFrom_none (readLoop_too_large hbuffer (.inl hstate) hr ?_)
        refine (DataDesc.append_not_extends hb fun h => hlimit (extendable_iff.mp h)).elim id ?_
        exact fun h => absurd h.1 (by decide)
  | @more r rest rs hstate h ih =>
    intro v desc old r' rs' heq hv hlog hbuffer hold hoffset
    obtain ⟨rfl, rfl⟩ := List.cons.inj heq
    rw [List.length_append] at hoffset
    have hstate' : r.state = .ok ∨ r.state = .wantRead := hstate.elim .inr fun h => .inl h.1
    have hle : v.ctx.dataOffset + r.bytes.length ≤ v.ctx.resourceSize := by omega
    have hcompletes : ¬v.Completes r.answers := by
      rw [completes_iff hv.toSized hle]
      rintro ⟨hok, hall⟩
      rcases hstate with hread | ⟨-, hne⟩
      · exact absurd (hok.symm.trans hread) (by decide)
      · exact hne (List.length_eq_zero_iff.mp (by omega))
    have hb := hv.backed desc hbuffer
    obtain ⟨r₂, rs₂, rfl⟩ : ∃ r₂ rs₂, rs = r₂ :: rs₂ := by
      cases h with
      | last r _ => exact ⟨r, [], rfl⟩
      | more r _ _ => exact ⟨r, _, rfl⟩
    rw [List.dropLast_cons_cons, List.forall_mem_cons]
    cases hr : r.buffer with
    | none =>
      have hloop := readLoop_null hbuffer hstate' hr
      rw [retState_of_not_completes hstate' hcompletes] at hloop
      refine iff_of_false ?_ fun h => absurd h.1.1 (by simp)
      exact not_readsFrom_errHandling (u := v.accumulated r.answers v.memory (some desc)) hv hlog
        rfl rfl hloop (by decide)
    | some chunk =>
      obtain ⟨-, hbytes⟩ := bytes_answers_some hr
      rw [hbytes] at hle hoffset ⊢
      by_cases hlimit : desc.needed chunk.bytes.length ≤ desc.limit
      · obtain ⟨m, desc', happend, hb', hcontent, hlength, hgrown⟩ :=
          DataDesc.append_extends hb (extendable_iff.mpr hlimit)
        have hloop := readLoop_append hbuffer hstate' hr happend
        rw [if_neg hcompletes] at hloop
        obtain ⟨u, hu, hulog, humemory, hubuffer, husize, huoffset, hiff⟩ :=
          readsFrom_yields_iff hv hb' hloop r₂ rs₂
        have huoffset' : u.ctx.dataOffset + rest.length = u.ctx.resourceSize := by
          rw [huoffset, husize, offset_advance hv.toSized (hbytes ▸ hle), hbytes]
          omega
        have hneeded : desc'.needed rest.length = desc.needed (chunk.bytes ++ rest).length := by
          rw [DataDesc.needed, hlength, DataDesc.needed, DataDesc.needed, List.length_append]
          omega
        have hucontent : desc'.content u.memory = some (old ++ chunk.bytes) := by
          rw [humemory, hcontent, hold, Option.map_some]
        refine hiff.trans ((ih rfl hu (hulog.trans hlog) hubuffer hucontent huoffset').trans ?_)
        rw [hneeded, hgrown, List.append_assoc]
        simp
      · refine iff_of_false ?_ fun h => hlimit ?_
        · refine not_readsFrom_none (readLoop_too_large hbuffer hstate' hr ?_)
          refine (DataDesc.append_not_extends hb fun h => hlimit (extendable_iff.mp h)).elim id ?_
          exact fun h => absurd h.1 (by decide)
        · have hall := h.2.1
          rw [DataDesc.needed, List.length_append] at hall
          rw [DataDesc.needed]
          omega

end Loop

/-! ## The loop without a data buffer -/

section NoBuffer

variable {log : List Callback} {cb : Callback} {content : Bytes} {v : World}
  {r r' : ReadResult σ} {rs : List (ReadResult σ)}

/-- A file that comes at once is shared. -/
theorem readLoop_share (hv : v.ctx.dataBuffer = none) (hcompletes : v.Completes r.answers)
    {chunk : Chunk σ} (hbuffer : r.buffer = some chunk) :
    World.readLoop r.answers v = some ((v.accumulated r.answers (v.memory.alloc chunk.bytes).2
      (some ⟨v.memory.next, .ofNat chunk.bytes.length, .ofNat chunk.bytes.length,
        .unmanaged⟩)).unregister, .invokeCallback) := by
  refine (readLoop_of_accumulated (.inl hcompletes.1) ?_).trans (if_pos hcompletes)
  rw [retState_of_completes hcompletes, accumulate_ok hv, (bytes_answers_some hbuffer).1]
  rfl

/-- Without bytes there is nothing to share. -/
theorem readLoop_share_null (hv : v.ctx.dataBuffer = none) (hcompletes : v.Completes r.answers)
    (hbuffer : r.buffer = none) : World.readLoop r.answers v = none := by
  rw [World.readLoop, retState_of_completes hcompletes, accumulate_ok hv, (bytes_answers hbuffer).1]
  rfl

/-- The descriptor of a shared buffer has its bytes as long as their number has a place in 32 bits. -/
theorem content_share_iff (m : Blocks UInt8) (xs : Bytes) :
    DataDesc.content (m.alloc xs).2 ⟨m.next, .ofNat xs.length, .ofNat xs.length, .unmanaged⟩ =
      some xs ↔ xs.length < 2 ^ 32 := by
  constructor
  · intro h
    refine Nat.not_le.mp fun hle => ?_
    have hlen : (UInt32.ofNat xs.length).toNat ≤ xs.length := by
      rw [UInt32.toNat_ofNat']
      exact Nat.mod_le ..
    rw [DataDesc.content_eq _ (Blocks.alloc_block_self m xs) hlen, Option.some.injEq] at h
    have hlength := congrArg List.length h
    rw [List.length_take, UInt32.toNat_ofNat'] at hlength
    have hmod := Nat.mod_lt xs.length (show 2 ^ 32 > 0 by decide)
    omega
  · exact DataDesc.content_share m

/-- No buffer of 0 bytes is made. -/
theorem readLoop_empty (hv : v.ctx.dataBuffer = none)
    (hstate : r.state = .ok ∨ r.state = .wantRead) (hcompletes : ¬v.Completes r.answers)
    (hsize : v.ctx.resourceSize = 0) : World.readLoop r.answers v = none := by
  rw [World.readLoop, retState_of_not_completes hstate hcompletes, accumulate_wantRead hv, hsize]
  rfl

/-- The first piece without bytes, or with too many of them. -/
theorem readLoop_first_refused (hv : v.ctx.dataBuffer = none)
    (hstate : r.state = .ok ∨ r.state = .wantRead) (hcompletes : ¬v.Completes r.answers)
    (hsize : v.ctx.resourceSize ≠ 0) (hbuffer : ∀ chunk, r.buffer = some chunk →
      ¬chunk.bytes.length ≤ v.ctx.resourceSize % 2 ^ 32) :
    ∃ m desc, World.readLoop r.answers v =
      some (v.accumulated r.answers m desc, .errHandling .wantRead) := by
  rw [World.readLoop, retState_of_not_completes hstate hcompletes, accumulate_wantRead hv,
    show r.answers.descMem = true from rfl, show r.answers.bufferMem = true from rfl,
    makeEmptyDescAlloc_granted _ hsize, Option.bind_some, if_neg (by simp)]
  cases hr : r.buffer with
  | none =>
    rw [(bytes_answers hr).1]
    exact ⟨_, _, rfl⟩
  | some chunk =>
    have hfits : DataDesc.willItFit σ ⟨v.memory.next, .ofNat v.ctx.resourceSize, 0, .managed⟩
        chunk.bytes.length = false :=
      Bool.eq_false_iff.mpr fun h => hbuffer chunk hr ((willItFit_empty _ chunk).mp h)
    rw [(bytes_answers_some hr).1, DataDesc.appendBytes_of_not_fits hfits]
    exact ⟨_, _, rfl⟩

/-- The first piece goes to a buffer of the size of the file. -/
theorem readLoop_first (hs : Sized σ v) (hv : v.ctx.dataBuffer = none)
    (hstate : r.state = .ok ∨ r.state = .wantRead) (hcompletes : ¬v.Completes r.answers)
    (hsize : v.ctx.resourceSize ≠ 0) {chunk : Chunk σ} (hbuffer : r.buffer = some chunk)
    (hroom : chunk.bytes.length ≤ v.ctx.resourceSize % 2 ^ 32) :
    ∃ m desc, World.readLoop r.answers v =
        some (v.accumulated r.answers m (some desc), .yields .readYield) ∧
      desc.Backed σ m ∧ desc.content m = some chunk.bytes ∧
      desc.length.toNat = chunk.bytes.length ∧
      desc.limit = max (v.ctx.resourceSize % 2 ^ 32) (2 ^ 31) := by
  obtain ⟨m, desc, haccumulate, hdesc⟩ := accumulate_first (a := r.answers) hs hv
    (bytes_answers_some hbuffer).1 rfl rfl hsize hroom
  refine ⟨m, desc, ?_, hdesc⟩
  rw [← retState_of_not_completes hstate hcompletes] at haccumulate
  exact (readLoop_of_accumulated hstate haccumulate).trans (if_neg hcompletes)

/-- All comes at once. -/
theorem readsFrom_share_iff (hstate : r.state = .ok) (hv : Looping σ .readCoroutine cb v)
    (hlog : v.log = log) (hbuffer : v.ctx.dataBuffer = none) (hoffset : v.ctx.dataOffset = 0)
    (hsize : v.ctx.resourceSize = r.bytes.length) :
    ReadsFrom log cb r.bytes r [] v ↔
      cb.state = .ok ∧ r.bytes.length < 2 ^ 32 ∧ r.buffer.isSome := by
  have hcompletes : v.Completes r.answers :=
    (completes_iff hv.toSized (by omega)).mpr ⟨hstate, by omega⟩
  cases hr : r.buffer with
  | none =>
    refine iff_of_false (not_readsFrom_none (readLoop_share_null hbuffer hcompletes hr)) ?_
    exact fun h => absurd h.2.2 (by simp)
  | some chunk =>
    obtain ⟨-, hbytes⟩ := bytes_answers_some hr
    refine (readsFrom_invokeCallback_iff hv hlog (readLoop_share hbuffer hcompletes hr)).trans ?_
    rw [hbytes, content_share_iff]
    simp

/-- **The loop without a data buffer**: the first piece makes one. -/
theorem readsFrom_none_iff (h : Delivers content (r :: rs)) (hv : Looping σ .readCoroutine cb v)
    (hlog : v.log = log) (hbuffer : v.ctx.dataBuffer = none) (hoffset : v.ctx.dataOffset = 0)
    (hsize : v.ctx.resourceSize = content.length) :
    ReadsFrom log cb content r rs v ↔
      cb.state = .ok ∧ (∀ x ∈ (r :: rs).dropLast, x.buffer.isSome) ∧ content.length < 2 ^ 32 ∧
        if (r :: rs).length = 1 then ∀ x ∈ r :: rs, x.buffer.isSome else content ≠ [] := by
  cases h with
  | last r hstate =>
    refine (readsFrom_share_iff hstate hv hlog hbuffer hoffset hsize).trans ?_
    simp
  | @more r rest rs hstate h =>
    rw [List.length_append] at hsize
    have hstate' : r.state = .ok ∨ r.state = .wantRead := hstate.elim .inr fun h => .inl h.1
    have hcompletes : ¬v.Completes r.answers := by
      rw [completes_iff hv.toSized (by omega)]
      rintro ⟨hok, hall⟩
      rcases hstate with hread | ⟨-, hne⟩
      · exact absurd (hok.symm.trans hread) (by decide)
      · exact hne (List.length_eq_zero_iff.mp (by omega))
    obtain ⟨r₂, rs₂, rfl⟩ : ∃ r₂ rs₂, rs = r₂ :: rs₂ := by
      cases h with
      | last r _ => exact ⟨r, [], rfl⟩
      | more r _ _ => exact ⟨r, _, rfl⟩
    rw [if_neg (by simp), List.dropLast_cons_cons, List.forall_mem_cons]
    by_cases hempty : v.ctx.resourceSize = 0
    · refine iff_of_false (not_readsFrom_none (readLoop_empty hbuffer hstate' hcompletes hempty))
        fun h => h.2.2.2 (List.length_eq_zero_iff.mp ?_)
      rw [List.length_append]
      omega
    have hcontent : r.bytes ++ rest ≠ [] := fun hnil => hempty (by
      rw [hsize, ← List.length_append, hnil, List.length_nil])
    have hlimit : (r.bytes ++ rest).length ≤ max (v.ctx.resourceSize % 2 ^ 32) (2 ^ 31) ↔
        (r.bytes ++ rest).length < 2 ^ 32 := by
      rw [List.length_append, ← hsize]
      omega
    by_cases hfirst : ∃ chunk, r.buffer = some chunk ∧
        chunk.bytes.length ≤ v.ctx.resourceSize % 2 ^ 32
    · obtain ⟨chunk, hr, hroom⟩ := hfirst
      obtain ⟨-, hbytes⟩ := bytes_answers_some hr
      obtain ⟨m, desc, hloop, hb, hdesc, hlength, hdlimit⟩ :=
        readLoop_first hv.toSized hbuffer hstate' hcompletes hempty hr hroom
      obtain ⟨u, hu, hulog, humemory, hubuffer, husize, huoffset, hiff⟩ :=
        readsFrom_yields_iff hv hb hloop r₂ rs₂
      have huoffset' : u.ctx.dataOffset + rest.length = u.ctx.resourceSize := by
        rw [huoffset, husize, offset_advance hv.toSized (by omega)]
        omega
      have hneeded : desc.needed rest.length = (r.bytes ++ rest).length := by
        rw [DataDesc.needed, hlength, List.length_append, hbytes]
      refine hiff.trans ((readsFrom_some_iff h rfl hu (hulog.trans hlog) hubuffer
        (humemory ▸ hdesc) huoffset').trans ?_)
      rw [hneeded, hdlimit, hlimit, hr, ← hbytes]
      constructor
      · rintro ⟨hbuffers, hlt, hstate, -⟩
        exact ⟨hstate, ⟨rfl, hbuffers⟩, hlt, hcontent⟩
      · rintro ⟨hstate, ⟨-, hbuffers⟩, hlt, -⟩
        exact ⟨hbuffers, hlt, hstate, rfl⟩
    · obtain ⟨m, desc, hloop⟩ := readLoop_first_refused hbuffer hstate' hcompletes hempty
        fun chunk hr hroom => hfirst ⟨chunk, hr, hroom⟩
      refine iff_of_false (not_readsFrom_errHandling (u := v.accumulated r.answers m desc) hv hlog
        rfl rfl hloop (by decide)) ?_
      rintro ⟨-, ⟨hsome, -⟩, hlt, -⟩
      obtain ⟨chunk, hr⟩ := Option.isSome_iff_exists.mp hsome
      refine hfirst ⟨chunk, hr, ?_⟩
      rw [List.length_append] at hlt
      rw [← (bytes_answers_some hr).2, hsize, Nat.mod_eq_of_lt hlt]
      omega

end NoBuffer

/-! ## The whole operation -/

/-- The call, and the begin of the coroutine. -/
theorem readsAll_iff_readsFrom {w : World} {content : Bytes} (hw : Opened σ content w) (cb : Callback)
    (r : ReadResult σ) (rs : List (ReadResult σ)) :
    ∃ v : World, Looping σ .readCoroutine cb v ∧ v.log = w.log ∧ v.memory = w.memory ∧
      v.ctx.dataBuffer = w.ctx.dataBuffer ∧ v.ctx.dataOffset = 0 ∧
      v.ctx.resourceSize = content.length ∧
      (ReadsAll w cb content (r :: rs) ↔ ReadsFrom w.log cb content r rs v) := by
  have hcall : step w (.call .readCoroutine cb true : Event σ) = some { w with
      ctx := { w.ctx with callback := some cb }
      queue := [.coroutine .readCoroutine]
      operation := some .readCoroutine } := by
    have hrefuses : ¬w.Refuses .readCoroutine := by
      have hhandle := hw.handle
      simp [World.Refuses, hw.callback, hhandle]
    simp only [step, World.call, if_neg hrefuses, if_true, hw.queue_nil, List.nil_append]
  let v : World := { w with
    ctx := { w.ctx with callback := some cb, dataOffset := 0 }
    files := [(w.ctx.resourceHandle, .readCoroutine)]
    queue := []
    operation := some .readCoroutine }
  have hv : Looping σ .readCoroutine cb v :=
    { backed := hw.backed, size_lt := hw.size_lt, operation := rfl, callback := rfl
      files_eq := rfl, queue := rfl }
  have hdispatch : step { w with
      ctx := { w.ctx with callback := some cb }
      queue := [.coroutine .readCoroutine]
      operation := some .readCoroutine } (.dispatch r.answers) =
      (World.readLoop r.answers v).map (World.conclude .readCoroutine true) := by
    have hbegin := (body_begin (v := { w with
      ctx := { w.ctx with callback := some cb }
      queue := []
      operation := some .readCoroutine }) (a := r.answers) hw.not_yield).2.1
    have hbody : World.readBody r.answers { w with
        ctx := { w.ctx with callback := some cb }
        queue := []
        operation := some .readCoroutine } = World.readLoop r.answers v := by
      rw [hbegin, World.yieldFrom]
      simp only [World.rewind, hw.files, List.any_nil, List.nil_append]
      rfl
    exact congrArg (Option.map (World.conclude .readCoroutine true)) hbody
  refine ⟨v, hv, rfl, rfl, rfl, rfl, hw.size, ?_⟩
  have hevents : readEvents w.ctx.resourceHandle cb (r :: rs) = .call .readCoroutine cb true ::
      .dispatch r.answers :: remaining w.ctx.resourceHandle rs := rfl
  unfold ReadsAll ReadsFrom
  rw [hevents, run_cons, hcall, Option.bind_some, run_cons, hdispatch]
  constructor
  · rintro ⟨w', hrun, hw'⟩
    obtain ⟨v', hv', hrun⟩ := Option.bind_eq_some_iff.mp hrun
    exact ⟨v', hv', w', hrun, hw'⟩
  · rintro ⟨v', hv', w', hrun, hw'⟩
    exact ⟨w', Option.bind_eq_some_iff.mpr ⟨v', hv', hrun⟩, hw'⟩

/-- **Opening a resource** leads to where reading begins. -/
theorem exists_opened {w : World} {cb : Callback} {content : Bytes} {handle : Int} (hw : Idle σ w)
    (hqueue : w.queue = []) (hclosed : w.ctx.resourceHandle < 0) (hlen : content.length < σ.size)
    (hhandle : 0 ≤ handle) :
    ∃ w', run step w [.call .openCoroutine cb true,
        .dispatch { resourceSize := content.length, resourceHandle := handle },
        (.dispatch {} : Event σ)] = some w' ∧
      Opened σ content w' ∧ w'.ctx.dataBuffer = w.ctx.dataBuffer ∧ w'.memory = w.memory := by
  have hcall : step w (.call .openCoroutine cb true : Event σ) = some { w with
      ctx := { w.ctx with callback := some cb }
      queue := [.coroutine .openCoroutine]
      operation := some .openCoroutine } := by
    have hrefuses : ¬w.Refuses .openCoroutine := by
      simp [World.Refuses, hw.callback, hclosed]
    simp only [step, World.call, if_neg hrefuses, if_true, hqueue, List.nil_append]
  have hdispatch : step { w with
      ctx := { w.ctx with callback := some cb }
      queue := [.coroutine .openCoroutine]
      operation := some .openCoroutine }
      (.dispatch { resourceSize := content.length, resourceHandle := handle } : Event σ) =
      some { w with
        ctx := { w.ctx with
          resourceSize := content.length, resourceHandle := handle, callback := none, cs := .exited }
        queue := [.callback (cb.setCallbackState .ok)]
        operation := none } := by
    have hbegin := (body_begin (v := { w with
      ctx := { w.ctx with callback := some cb }
      queue := []
      operation := some .openCoroutine })
      (a := ({ resourceSize := content.length, resourceHandle := handle } : Answers σ)) hw.not_yield).1
    simp only [step, World.resume, World.body, hbegin]
    simp [World.yieldFrom, World.statLoop, World.yieldUntil, World.unregister, World.openLoop,
      World.conclude, World.invokeCallback, hw.files, Nat.mod_eq_of_lt hlen]
  refine ⟨{ w with
    ctx := { w.ctx with
      resourceSize := content.length, resourceHandle := handle, callback := none, cs := .exited }
    queue := []
    log := w.log ++ [cb.setCallbackState .ok]
    operation := none }, ?_, ?_, rfl, rfl⟩
  · rw [run_cons, hcall, Option.bind_some, run_cons, hdispatch]
    rfl
  exact { backed := hw.backed, size_lt := hlen, operation := rfl, callback := rfl, files := hw.files
          not_yield := (by decide : ¬Cs.exited.IsYield), queue := ⟨[], rfl⟩, queue_nil := rfl
          handle := hhandle, size := rfl }

/-- **Reading a file in any pieces**: it ends with the contents in the data buffer and one call of the
callback with `OK` exactly under the condition. -/
theorem reads_all_iff (σ : SizeT) (w : World) (cb : Callback) (content : Bytes)
    (rs : List (ReadResult σ)) (hw : Opened σ content w) (hrs : Delivers content rs) :
    ReadsAll w cb content rs ↔ ReadsWithin w cb content rs := by
  obtain ⟨r, rs', rfl⟩ : ∃ r rs', rs = r :: rs' := by
    cases hrs with
    | last r _ => exact ⟨r, [], rfl⟩
    | more r _ _ => exact ⟨r, _, rfl⟩
  obtain ⟨v, hv, hlog, hmemory, hbuffer, hoffset, hsize, hiff⟩ :=
    readsAll_iff_readsFrom hw cb r rs'
  refine hiff.trans ?_
  unfold ReadsWithin
  cases hdata : w.ctx.dataBuffer with
  | none => exact readsFrom_none_iff hrs hv hlog (hbuffer.trans hdata) hoffset hsize
  | some desc =>
    obtain ⟨xs, hxs, hcap, -⟩ := (hw.backed desc hdata).block
    have hold := (hw.backed desc hdata).content_eq hxs
    refine (readsFrom_some_iff hrs rfl hv hlog (hbuffer.trans hdata) (hmemory ▸ hold)
      (by rw [hoffset, hsize, Nat.zero_add])).trans ?_
    have hnil : xs.take desc.length.toNat ++ content = content ↔ desc.length = 0 := by
      have hle := Nat.le_trans (hw.backed desc hdata).length_le hcap
      rw [List.append_left_eq_self, ← List.length_eq_zero_iff, List.length_take, Nat.min_eq_left hle,
        ← UInt32.toNat_inj]
      exact .rfl
    rw [hnil]
    constructor
    · rintro ⟨hbuffers, hneeded, hstate, hzero⟩
      refine ⟨hstate, hbuffers, hzero, ?_⟩
      rwa [DataDesc.needed, hzero, UInt32.toNat_zero, Nat.zero_add] at hneeded
    · rintro ⟨hstate, hbuffers, hzero, hle⟩
      refine ⟨hbuffers, ?_, hstate, hzero⟩
      rwa [DataDesc.needed, hzero, UInt32.toNat_zero, Nat.zero_add]

/-- A file of `n` bytes is open, with the handle 7. -/
def fileOpened (n : Nat) : World := ⟨⟨none, none, n, 7, 0, .exited⟩, .empty, [], [], [], none⟩

theorem fileOpened_opened (content : Bytes) (hlen : content.length < σ.size) :
    Opened σ content (fileOpened content.length) where
  backed _ h := by cases h
  size_lt := hlen
  operation := rfl
  callback := rfl
  files := rfl
  not_yield := (by decide : ¬Cs.exited.IsYield)
  queue := ⟨[], rfl⟩
  queue_nil := rfl
  handle := (by decide : (0 : Int) ≤ 7)
  size := rfl

/-- Three bytes come in two pieces, with a call between them that has none. -/
def threeBytes : List (ReadResult .bits32) :=
  [⟨.ok, some ⟨[0x61, 0x62], by decide⟩⟩, ⟨.wantRead, some ⟨[], by decide⟩⟩,
    ⟨.ok, some ⟨[0x63], by decide⟩⟩]

theorem reads_all_iff_threeBytes : ReadsAll (fileOpened 3) ⟨0, .ok⟩ [0x61, 0x62, 0x63] threeBytes :=
  (reads_all_iff .bits32 (fileOpened 3) ⟨0, .ok⟩ [0x61, 0x62, 0x63] threeBytes
    (fileOpened_opened [0x61, 0x62, 0x63] (by decide))
    (.more ⟨.ok, some ⟨[0x61, 0x62], by decide⟩⟩ (.inr ⟨rfl, by decide⟩)
      (.more ⟨.wantRead, some ⟨[], by decide⟩⟩ (.inl rfl)
        (.last ⟨.ok, some ⟨[0x63], by decide⟩⟩ rfl)))).mpr
    ⟨rfl, by decide, by decide, by decide⟩

/-- One byte comes after a call that says `WANT_READ` and leaves the buffer `NULL`. -/
def lateByte : List (ReadResult .bits32) := [⟨.wantRead, none⟩, ⟨.ok, some ⟨[0x61], by decide⟩⟩]

/-- **A call without data is refused by the data buffer**: the callback gets `WANT_READ`, and the file,
which stays registered, makes the dispatcher begin the coroutine again, where an assertion fails. -/
theorem reads_all_iff_fails :
    Opened .bits32 [0x61] (fileOpened 1) ∧ Delivers [0x61] lateByte ∧
      ((run step (fileOpened 1) [(.call .readCoroutine ⟨0, .ok⟩ true : Event .bits32),
        .dispatch (ReadResult.answers ⟨.wantRead, none⟩)]).map World.log) = some [⟨0, .wantRead⟩] ∧
      ¬ReadsAll (fileOpened 1) ⟨0, .ok⟩ [0x61] lateByte := by
  refine ⟨fileOpened_opened [0x61] (by decide), ?_, rfl, ?_⟩
  · exact .more ⟨.wantRead, none⟩ (.inl rfl) (.last ⟨.ok, some ⟨[0x61], by decide⟩⟩ rfl)
  · rintro ⟨w', hrun, -⟩
    cases hrun

end IotDeviceSdk.ResourceManager
