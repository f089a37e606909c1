import IotDeviceSdk.Io.NetLayer

/-!
# What the socket receives (`iotc_io_net_layer_push`)

The progress of a buffer is in its `curr_pos`. A write that finds the socket busy registers the buffer,
and the dispatcher calls `iotc_io_net_layer_push` with it again when the socket is ready.

`writes` are the calls of `iotc_bsp_io_net_write` in a run, each with the offset and the size that it is
given, and `received` what the socket takes by them.
-/

namespace IotDeviceSdk.Io

open EventDispatcher Datastructures

/-! ## The writes -/

/-- A call of `iotc_bsp_io_net_write` with `buffer->data_ptr + offset` and `size`, and its result. -/
structure Write where
  offset : Nat
  size : Nat
  result : BspResult
  deriving DecidableEq, Repr

/-- The calls of `writeLoop`. -/
def loopWrites (capacity : Nat) : Nat → List BspResult → List Write
  | currPos, [] => [⟨currPos, capacity - currPos, .busy⟩]
  | currPos, r :: rs => ⟨currPos, capacity - currPos, r⟩ ::
    match r with
    | .ok len =>
      if len < 0 then []
      else if capacity - (currPos + len.toNat) > 0 then loopWrites capacity (currPos + len.toNat) rs
      else []
    | _ => []

/-- The calls of `push`. -/
def pushWrites (w : World) (buffer : DataDesc) (results : List BspResult) : List Write :=
  if w.disconnected then []
  else if buffer.capacity > 0 then loopWrites buffer.capacity buffer.currPos results else []

/-- The calls of `step`. -/
def stepWrites (w : World) : Event → List Write
  | .push capacity results => pushWrites w ⟨w.nextBuffer, capacity, 0⟩ results
  | .ready _ results =>
    match w.socket.bind w.sockets.updateEvent with
    | some (.push buffer, sockets) => pushWrites { w with sockets := sockets } buffer results
    | _ => []
  | _ => []

/-- The calls of a run. -/
def writes : World → List Event → List Write
  | _, [] => []
  | w, e :: es => stepWrites w e ++ writes (step w e) es

/-- The bytes that the socket takes by a call. -/
def Write.taken (content : Bytes) (x : Write) : Bytes :=
  match x.result with
  | .ok len => (content.drop x.offset).take len.toNat
  | _ => []

/-- **What the socket receives.** -/
def received (content : Bytes) (ws : List Write) : Bytes := ws.flatMap (Write.taken content)

/-! ## The results of the writes of one buffer -/

/-- Results of `iotc_bsp_io_net_write` for a buffer that is written up to `pos`: some of the bytes that are
offered, or a busy socket, and nothing after the last byte or an error. -/
def Offered (capacity : Nat) : Nat → List BspResult → Prop
  | _, [] => True
  | pos, .ok len :: rs =>
    0 < len ∧ pos + len.toNat ≤ capacity ∧ Offered capacity (pos + len.toNat) rs
  | pos, .busy :: rs => pos < capacity ∧ Offered capacity pos rs
  | pos, _ :: rs => pos < capacity ∧ rs = []

/-- The last byte has been written, or there has been an error. -/
def Ends (capacity : Nat) : Nat → List BspResult → Prop
  | pos, [] => pos = capacity
  | pos, .ok len :: rs => Ends capacity (pos + len.toNat) rs
  | pos, .busy :: rs => Ends capacity pos rs
  | _, _ => True

/-- The results that each call of `iotc_io_net_layer_push` gets: it goes on to the first busy one. -/
def calls : List BspResult → List BspResult × List (List BspResult)
  | [] => ([], [])
  | .busy :: rs => ([], (calls rs).1 :: (calls rs).2)
  | r :: rs => (r :: (calls rs).1, (calls rs).2)

/-- The push of a buffer, and that the socket is ready after each busy result. -/
def life (capacity : Nat) (mem : Bool) (results : List BspResult) : List Event :=
  .push capacity (calls results).1 :: (calls results).2.map (.ready mem)

/-! ## What is claimed -/

/-- The layer is connected, and the dispatcher knows its socket. -/
structure World.Connected (w : World) (fd : Fd) : Prop where
  socket : w.socket = some fd
  registered : fd ∈ w.sockets.fds
  operational : w.layerState.notOperational = false

/-- All has been written, and that is reported. -/
structure Written (w : World) (id : BufferId) (content : Bytes) (ws : List Write) (w' : World) : Prop where
  whole : received content ws = content
  reported : w'.reported = w.reported ++ [(id, .written)]
  freed : w'.writesFreed = w.writesFreed ++ [id]
  layerState : w'.layerState = w.layerState

/-- A write has failed, and the layer is closed. -/
structure Failed (w : World) (id : BufferId) (w' : World) : Prop where
  reported : w'.reported = w.reported
  freed : w'.writesFreed = w.writesFreed ++ [id]
  layerState : w'.layerState = .closed

/-- The buffer waits for the socket. -/
structure Waits (w w' : World) : Prop where
  reported : w'.reported = w.reported
  freed : w'.writesFreed = w.writesFreed
  layerState : w'.layerState = w.layerState

/-- The world after the life of a buffer with this content. -/
def after (w : World) (content : Bytes) (mem : Bool) (results : List BspResult) : World :=
  (life content.length mem results).foldl step w

/-- The writes of its life. -/
def writesOf (w : World) (content : Bytes) (mem : Bool) (results : List BspResult) : List Write :=
  writes w (life content.length mem results)

/-- **What is claimed of a push**: the socket receives the first bytes of the buffer, in their order; in
the end all of them have been written, or a write has failed, and the buffer is freed once. -/
structure Delivers (w : World) (content : Bytes) (mem : Bool) (results : List BspResult) : Prop where
  order : received content (writesOf w content mem results) <+: content
  ends : Ends content.length 0 results →
    Xor (Written w w.nextBuffer content (writesOf w content mem results) (after w content mem results))
      (Failed w w.nextBuffer (after w content mem results))
  waits : ¬Ends content.length 0 results → Waits w (after w content mem results)

/-! ## One call -/

variable {w : World} {fd : Fd} {id : BufferId} {capacity pos : Nat} {content : Bytes}
  {results : List BspResult} {mem : Bool}

theorem World.Connected.disconnected (hw : w.Connected fd) : w.disconnected = false := by
  rw [World.disconnected, hw.operational, hw.socket]
  rfl

/-- An empty buffer. -/
theorem push_empty (hw : w.Connected fd) (id : BufferId) (results : List BspResult) :
    push w ⟨id, 0, 0⟩ results = { w.freeWrite id with reported := w.reported ++ [(id, .written)] } ∧
      pushWrites w ⟨id, 0, 0⟩ results = [] := by
  constructor
  · simp [push, hw.socket, hw.operational]
  · simp [pushWrites]

/-- A write that is not the last one. -/
theorem push_part (hw : w.Connected fd) (id : BufferId) {len : Int} (hlen : 0 < len)
    (hpos : pos + len.toNat < capacity) (results : List BspResult) :
    push w ⟨id, capacity, pos⟩ (.ok len :: results) = push w ⟨id, capacity, pos + len.toNat⟩ results ∧
      pushWrites w ⟨id, capacity, pos⟩ (.ok len :: results) =
        ⟨pos, capacity - pos, .ok len⟩ :: pushWrites w ⟨id, capacity, pos + len.toNat⟩ results := by
  have hcapacity : 0 < capacity := by omega
  have hneg : ¬len < 0 := by omega
  have hleft : 0 < capacity - (pos + len.toNat) := by omega
  constructor
  · simp [push, writeLoop, hw.socket, hw.operational, hcapacity, hneg, hleft]
  · simp [pushWrites, loopWrites, hw.disconnected, hcapacity, hneg, hleft]

/-- The write of the last bytes. -/
theorem push_last (hw : w.Connected fd) (id : BufferId) {len : Int} (hlen : 0 < len)
    (hpos : pos + len.toNat = capacity) (results : List BspResult) :
    push w ⟨id, capacity, pos⟩ (.ok len :: results) =
        { w.freeWrite id with reported := w.reported ++ [(id, .written)] } ∧
      pushWrites w ⟨id, capacity, pos⟩ (.ok len :: results) = [⟨pos, capacity - pos, .ok len⟩] := by
  have hcapacity : 0 < capacity := by omega
  have hneg : ¬len < 0 := by omega
  have hleft : ¬0 < capacity - (pos + len.toNat) := by omega
  constructor
  · simp [push, writeLoop, hw.socket, hw.operational, hcapacity, hneg, hleft]
  · simp [pushWrites, loopWrites, hw.disconnected, hcapacity, hneg, hleft]

/-- A write that fails. -/
theorem push_fails (hw : w.Connected fd) (id : BufferId) (hcapacity : 0 < capacity) (pos : Nat)
    {r : BspResult} (hr : r = .connectionReset ∨ r = .error) (results : List BspResult) :
    push w ⟨id, capacity, pos⟩ (r :: results) = (w.freeWrite id).closing ∧
      pushWrites w ⟨id, capacity, pos⟩ (r :: results) = [⟨pos, capacity - pos, r⟩] := by
  constructor
  · rcases hr with rfl | rfl <;> simp [push, writeLoop, hw.socket, hw.operational, hcapacity]
  · rcases hr with rfl | rfl <;> simp [pushWrites, loopWrites, hw.disconnected, hcapacity]

/-- **A busy socket**: when it is ready, the dispatcher goes on with the buffer as it has been left. -/
theorem push_busy (hw : w.Connected fd) (id : BufferId) (hcapacity : 0 < capacity) (pos : Nat) :
    pushWrites w ⟨id, capacity, pos⟩ [] = [⟨pos, capacity - pos, .busy⟩] ∧
      ∃ sockets sockets', push w ⟨id, capacity, pos⟩ [] = { w with sockets := sockets } ∧
        sockets.updateEvent fd = some (.push ⟨id, capacity, pos⟩, sockets') ∧
        { w with sockets := sockets' : World }.Connected fd := by
  refine ⟨by simp [pushWrites, loopWrites, hw.disconnected, hcapacity], ?_⟩
  obtain ⟨sockets, hcontinue⟩ := Sockets.exists_continueWhen .wantWrite
    (Handle.push ⟨id, capacity, pos⟩) hw.registered
  obtain ⟨sockets', hupdate, hfds⟩ := Sockets.updateEvent_continueWhen hcontinue
  refine ⟨sockets, sockets', ?_, hupdate, hw.socket, hfds ▸ hw.registered, hw.operational⟩
  simp [push, writeLoop, hw.socket, hw.operational, hcapacity, hcontinue]

/-! ## The life of a buffer -/

/-- What becomes of a buffer of which `pos` bytes have been written. -/
structure Outcome (w : World) (id : BufferId) (content : Bytes) (pos : Nat) (results : List BspResult)
    (ws : List Write) (w' : World) : Prop where
  order : content.take pos ++ received content ws <+: content
  ends : Ends content.length pos results →
    (content.take pos ++ received content ws = content ∧
      w'.reported = w.reported ++ [(id, .written)] ∧ w'.writesFreed = w.writesFreed ++ [id] ∧
      w'.layerState = w.layerState) ∨ Failed w id w'
  waits : ¬Ends content.length pos results → Waits w w'

/-- The call with the first results, and the calls when the socket is ready. -/
def goOn (w : World) (buffer : DataDesc) (mem : Bool) (results : List BspResult) : World :=
  ((calls results).2.map (.ready mem)).foldl step (push w buffer (calls results).1)

def goOnWrites (w : World) (buffer : DataDesc) (mem : Bool) (results : List BspResult) : List Write :=
  pushWrites w buffer (calls results).1 ++
    writes (push w buffer (calls results).1) ((calls results).2.map (.ready mem))

theorem Offered.eq_nil (h : Offered capacity capacity results) : results = [] := by
  cases results with
  | nil => rfl
  | cons r rs =>
    cases r with
    | ok len =>
      obtain ⟨hlen, hle, -⟩ := h
      omega
    | busy => exact absurd h.1 (Nat.lt_irrefl _)
    | connectionReset => exact absurd h.1 (Nat.lt_irrefl _)
    | error => exact absurd h.1 (Nat.lt_irrefl _)

theorem calls_ok (len : Int) (rs : List BspResult) :
    calls (.ok len :: rs) = (.ok len :: (calls rs).1, (calls rs).2) := rfl

theorem received_cons (content : Bytes) (x : Write) (ws : List Write) :
    received content (x :: ws) = x.taken content ++ received content ws := List.flatMap_cons

/-- The bytes up to `pos`, and those of one more write. -/
theorem take_taken (content : Bytes) (pos size : Nat) (len : Int) :
    content.take pos ++ Write.taken content ⟨pos, size, .ok len⟩ = content.take (pos + len.toNat) :=
  List.take_add.symm

/-- A buffer of which a write fails. -/
theorem goOn_fails (mem : Bool) (hw : w.Connected fd) (hpos : pos < content.length) {r : BspResult}
    (hr : r = .connectionReset ∨ r = .error) :
    Outcome w id content pos [r] (goOnWrites w ⟨id, content.length, pos⟩ mem [r])
      (goOn w ⟨id, content.length, pos⟩ mem [r]) := by
  have hcapacity : 0 < content.length := Nat.lt_of_le_of_lt (Nat.zero_le _) hpos
  obtain ⟨hpush, hwrites⟩ := push_fails hw id hcapacity pos hr []
  have hcalls : calls [r] = ([r], []) := by rcases hr with rfl | rfl <;> rfl
  have hworld : goOn w ⟨id, content.length, pos⟩ mem [r] = (w.freeWrite id).closing := by
    rw [goOn, hcalls]
    exact hpush
  have hall : goOnWrites w ⟨id, content.length, pos⟩ mem [r] = [⟨pos, content.length - pos, r⟩] := by
    rw [goOnWrites, hcalls]
    exact (congrArg (· ++ []) hwrites).trans (List.append_nil _)
  have hends : Ends content.length pos [r] := by rcases hr with rfl | rfl <;> trivial
  have hnone : received content [⟨pos, content.length - pos, r⟩] = [] := by
    rcases hr with rfl | rfl <;> rfl
  rw [hworld, hall]
  refine ⟨?_, fun _ => .inr ⟨rfl, rfl, rfl⟩, fun hno => absurd hends hno⟩
  rw [hnone, List.append_nil]
  exact List.take_prefix pos content

/-- **The life of a buffer**, by induction on the results of its writes. -/
theorem goOn_outcome (mem : Bool) (hw : w.Connected fd) (hpos : pos < content.length)
    (h : Offered content.length pos results) :
    Outcome w id content pos results (goOnWrites w ⟨id, content.length, pos⟩ mem results)
      (goOn w ⟨id, content.length, pos⟩ mem results) := by
  have hcapacity : 0 < content.length := Nat.lt_of_le_of_lt (Nat.zero_le _) hpos
  induction results generalizing w pos with
  | nil =>
    obtain ⟨hwrites, sockets, sockets', hpush, -⟩ := push_busy hw id hcapacity pos
    have hnil : goOnWrites w ⟨id, content.length, pos⟩ mem [] = [⟨pos, content.length - pos, .busy⟩] := by
      rw [goOnWrites, calls, hwrites]
      rfl
    have hworld : goOn w ⟨id, content.length, pos⟩ mem [] = { w with sockets := sockets } := hpush
    rw [hnil, hworld]
    refine ⟨?_, fun hends => absurd hends (Nat.ne_of_lt hpos), fun _ => ⟨rfl, rfl, rfl⟩⟩
    rw [received_cons]
    simpa [Write.taken, received] using List.take_prefix pos content
  | cons r rs ih =>
    cases r with
    | ok len =>
      obtain ⟨hlen, hle, hrest⟩ := h
      rcases Nat.lt_or_eq_of_le hle with hlt | heq
      · obtain ⟨hpush, hwrites⟩ := push_part hw id hlen hlt (calls rs).1
        have hworld : goOn w ⟨id, content.length, pos⟩ mem (.ok len :: rs) =
            goOn w ⟨id, content.length, pos + len.toNat⟩ mem rs := by
          rw [goOn, calls_ok, hpush]
          rfl
        have hall : goOnWrites w ⟨id, content.length, pos⟩ mem (.ok len :: rs) =
            ⟨pos, content.length - pos, .ok len⟩ ::
              goOnWrites w ⟨id, content.length, pos + len.toNat⟩ mem rs := by
          rw [goOnWrites, calls_ok, hpush, hwrites]
          rfl
        have hih := ih hw hlt hrest
        rw [hworld, hall]
        constructor
        · rw [received_cons, ← List.append_assoc, take_taken]
          exact hih.order
        · rw [received_cons, ← List.append_assoc, take_taken]
          exact hih.ends
        · exact hih.waits
      · obtain rfl := Offered.eq_nil (heq ▸ hrest)
        obtain ⟨hpush, hwrites⟩ := push_last hw id hlen heq []
        have hworld : goOn w ⟨id, content.length, pos⟩ mem [.ok len] =
            { w.freeWrite id with reported := w.reported ++ [(id, .written)] } := hpush
        have hall : goOnWrites w ⟨id, content.length, pos⟩ mem [.ok len] =
            [⟨pos, content.length - pos, .ok len⟩] := by
          rw [goOnWrites]
          exact (congrArg (· ++ []) hwrites).trans (List.append_nil _)
        have hbytes : content.take pos ++ received content [⟨pos, content.length - pos, .ok len⟩] =
            content := by
          rw [received_cons, ← List.append_assoc, take_taken, heq, List.take_length]
          exact List.append_nil _
        rw [hworld, hall]
        refine ⟨⟨[], by rw [List.append_nil, hbytes]⟩, fun _ => .inl ⟨hbytes, rfl, rfl, rfl⟩, fun hno => absurd heq hno⟩
    | busy =>
      obtain ⟨hwrites, sockets, sockets', hpush, hupdate, hw'⟩ := push_busy hw id hcapacity pos
      have hready : step { w with sockets := sockets } (.ready mem (calls rs).1) =
          push { w with sockets := sockets' } ⟨id, content.length, pos⟩ (calls rs).1 := by
        simp [step, hw.socket, hupdate, World.execute]
      have hworld : goOn w ⟨id, content.length, pos⟩ mem (.busy :: rs) =
          goOn { w with sockets := sockets' } ⟨id, content.length, pos⟩ mem rs := by
        rw [goOn, calls, hpush, List.map_cons, List.foldl_cons, hready]
        rfl
      have hall : goOnWrites w ⟨id, content.length, pos⟩ mem (.busy :: rs) =
          ⟨pos, content.length - pos, .busy⟩ ::
            goOnWrites { w with sockets := sockets' } ⟨id, content.length, pos⟩ mem rs := by
        rw [goOnWrites, calls, hpush, hwrites, List.map_cons, writes, hready]
        simp [stepWrites, hw.socket, hupdate, goOnWrites]
      have hih := ih hw' hpos h.2
      rw [hworld, hall]
      constructor
      · exact hih.order
      · intro hends
        exact (hih.ends hends).imp_right fun hf => ⟨hf.reported, hf.freed, hf.layerState⟩
      · intro hno
        obtain ⟨hreported, hfreed, hstate⟩ := hih.waits hno
        exact ⟨hreported, hfreed, hstate⟩
    | connectionReset =>
      obtain ⟨-, rfl⟩ := h
      exact goOn_fails mem hw hpos (.inl rfl)
    | error =>
      obtain ⟨-, rfl⟩ := h
      exact goOn_fails mem hw hpos (.inr rfl)

/-! ## The push -/

/-- The world with the number of the next buffer. -/
def World.numbered (w : World) : World :=
  { w with nextBuffer := w.nextBuffer + 1, pushed := w.pushed ++ [w.nextBuffer] }

theorem after_eq (hw : w.Connected fd) (content : Bytes) (mem : Bool) (results : List BspResult) :
    after w content mem results = goOn w.numbered ⟨w.nextBuffer, content.length, 0⟩ mem results := by
  rw [after, life, List.foldl_cons, step, hw.disconnected]
  rfl

theorem writesOf_eq (hw : w.Connected fd) (content : Bytes) (mem : Bool) (results : List BspResult) :
    writesOf w content mem results =
      goOnWrites w.numbered ⟨w.nextBuffer, content.length, 0⟩ mem results := by
  rw [writesOf, life, writes, step, hw.disconnected]
  rfl

/-- A push of a buffer that is not empty. -/
theorem outcome_of_push (hw : w.Connected fd) (mem : Bool) (h : Offered content.length 0 results) :
    Outcome w w.nextBuffer content 0 results (writesOf w content mem results)
      (after w content mem results) := by
  rw [after_eq hw, writesOf_eq hw]
  have hw' : w.numbered.Connected fd := ⟨hw.socket, hw.registered, hw.operational⟩
  rcases Nat.eq_zero_or_pos content.length with hzero | hpos
  · -- nothing is written
    obtain rfl := Offered.eq_nil (hzero ▸ h : Offered 0 0 results)
    obtain rfl := List.length_eq_zero_iff.mp hzero
    obtain ⟨hpush, hwrites⟩ := push_empty hw' w.nextBuffer []
    have hworld : goOn w.numbered ⟨w.nextBuffer, 0, 0⟩ mem [] = _ := hpush
    have hall : goOnWrites w.numbered ⟨w.nextBuffer, 0, 0⟩ mem [] = [] :=
      (congrArg (· ++ []) hwrites).trans (List.append_nil _)
    change Outcome w w.nextBuffer [] 0 [] (goOnWrites w.numbered ⟨w.nextBuffer, 0, 0⟩ mem [])
      (goOn w.numbered ⟨w.nextBuffer, 0, 0⟩ mem [])
    rw [hworld, hall]
    exact ⟨List.prefix_refl _, fun _ => .inl ⟨rfl, rfl, rfl, rfl⟩, fun hno => absurd rfl hno⟩
  · have hgoOn : Outcome w.numbered w.nextBuffer content 0 results
        (goOnWrites w.numbered ⟨w.nextBuffer, content.length, 0⟩ mem results)
        (goOn w.numbered ⟨w.nextBuffer, content.length, 0⟩ mem results) :=
      goOn_outcome mem hw' hpos h
    refine ⟨hgoOn.order, fun hends => ?_, fun hno => ?_⟩
    · exact (hgoOn.ends hends).imp_right fun hf => ⟨hf.reported, hf.freed, hf.layerState⟩
    · obtain ⟨hreported, hfreed, hstate⟩ := hgoOn.waits hno
      exact ⟨hreported, hfreed, hstate⟩

theorem World.Connected.delivers (hw : w.Connected fd) (mem : Bool)
    (h : Offered content.length 0 results) : Delivers w content mem results := by
  have houtcome := outcome_of_push hw mem h
  refine ⟨houtcome.order, fun hends => ?_, houtcome.waits⟩
  rcases houtcome.ends hends with ⟨hwhole, hreported, hfreed, hstate⟩ | hfailed
  · refine .inl ⟨⟨hwhole, hreported, hfreed, hstate⟩, fun hfailed => ?_⟩
    -- a write that fails reports nothing
    have heq := hfailed.reported.symm.trans hreported
    exact absurd (congrArg List.length heq) (by simp)
  · refine .inr ⟨hfailed, fun hwritten => ?_⟩
    have heq := hfailed.reported.symm.trans hwritten.reported
    exact absurd (congrArg List.length heq) (by simp)

/-! ## The states of a layer -/

/-- The socket of a layer that has one is known to the dispatcher. -/
def World.Registered (w : World) (fd : Fd) : Prop := ∀ s ∈ w.socket, s = fd ∧ fd ∈ w.sockets.fds

/-- The socket and what the dispatcher knows are the same. -/
structure World.SameSocket (w w' : World) : Prop where
  socket : w'.socket = w.socket
  fds : w'.sockets.fds = w.sockets.fds

theorem World.Registered.same {w' : World} (h : w.Registered fd) (hsame : w.SameSocket w') :
    w'.Registered fd := by
  intro s hs
  rw [hsame.socket] at hs
  rw [hsame.fds]
  exact h s hs

theorem push_same (w : World) (buffer : DataDesc) (results : List BspResult) :
    w.SameSocket (push w buffer results) := by
  unfold push
  split
  · exact ⟨rfl, rfl⟩
  · split
    · exact ⟨rfl, rfl⟩
    · split
      · exact ⟨rfl, rfl⟩
      · split
        · next hcontinue => exact ⟨rfl, Sockets.fds_continueWhen hcontinue⟩
        · exact ⟨rfl, rfl⟩
      · exact ⟨rfl, rfl⟩
      · exact ⟨rfl, rfl⟩

theorem read_same (w : World) (s : Fd) (buffer : BufferId) (result : BspResult) :
    w.SameSocket (read w s buffer result) := by
  unfold read
  split
  · exact ⟨rfl, rfl⟩
  · split
    · next hcontinue => exact ⟨rfl, Sockets.fds_continueWhen hcontinue⟩
    · exact ⟨rfl, rfl⟩
  · exact ⟨rfl, rfl⟩
  · exact ⟨rfl, rfl⟩

theorem pull_same (w : World) (data : Option BufferId) (mem : Bool) (result : BspResult) :
    w.SameSocket (pull w data mem result) := by
  have hfree : w.SameSocket (data.elim w w.freeRead) := by cases data <;> exact ⟨rfl, rfl⟩
  unfold pull
  split
  · exact hfree
  · next s _ =>
    split
    · exact hfree
    · split
      · exact read_same w s _ result
      · split
        · obtain ⟨hsocket, hfds⟩ := read_same { w with
            nextBuffer := w.nextBuffer + 1
            allocated := w.allocated ++ [w.nextBuffer] } s w.nextBuffer result
          exact ⟨hsocket, hfds⟩
        · exact ⟨rfl, rfl⟩

theorem step_registered (h : w.Registered fd) (e : Event) : (step w e).Registered fd := by
  cases e with
  | push capacity results =>
    simp only [step]
    split
    · exact h
    · exact World.Registered.same (w := w.numbered) h (push_same _ _ _)
  | pull mem result => exact h.same (pull_same _ _ _ _)
  | ready mem results =>
    simp only [step]
    split
    · next handle sockets hready =>
      obtain ⟨s, hs, hupdate⟩ := Option.bind_eq_some_iff.mp hready
      have hnew : { w with sockets := sockets : World }.Registered fd :=
        h.same ⟨rfl, Sockets.fds_updateEvent hupdate⟩
      cases handle with
      | pull data => exact hnew.same (pull_same _ _ _ _)
      | push buffer => exact hnew.same (push_same _ _ _)
    · exact h
  | close => exact h
  | closeExternally =>
    simp only [step, closeExternally]
    split
    · exact h
    · intro s hs
      cases hs

theorem run_registered (fd : Fd) (es : List Event) : (es.foldl step (connectedWorld fd)).Registered fd := by
  induction es using List.reverseRecOn with
  | nil =>
    rintro s ⟨⟩
    exact ⟨rfl, List.mem_singleton.mpr rfl⟩
  | append_singleton es e ih =>
    rw [List.foldl_append]
    exact step_registered ih e

/-- A layer that is not disconnected. -/
theorem World.Registered.connected (h : w.Registered fd) (hw : w.disconnected = false) :
    w.Connected fd := by
  rw [World.disconnected, Bool.or_eq_false_iff, Option.isNone_eq_false_iff] at hw
  obtain ⟨s, hs⟩ := Option.isSome_iff_exists.mp hw.2
  obtain ⟨rfl, hregistered⟩ := h s hs
  exact ⟨hs, hregistered, hw.1⟩

/-- A push to a layer that is disconnected frees the buffer, and the socket receives nothing. -/
theorem push_disconnected (hw : w.disconnected = true) (buffer : DataDesc) (results : List BspResult) :
    push w buffer results = w.freeWrite buffer.id ∧ pushWrites w buffer results = [] := by
  refine ⟨?_, if_pos hw⟩
  rw [World.disconnected, Bool.or_eq_true, Option.isNone_iff_eq_none] at hw
  unfold push
  split
  · rfl
  · next socket hsocket =>
    rcases hw with hw | hw
    · rw [if_pos hw]
    · rw [hsocket] at hw
      cases hw

end IotDeviceSdk.Io
