import Mathlib.Data.List.Nodup
import Mathlib.Data.List.Perm.Basic
import IotDeviceSdk.Infra.Run
import IotDeviceSdk.Io.NetLayer

/-!
# The continuation slot of a socket

A socket has one slot for a continuation, and reading and writing share it. `continuations_kept`: a
buffer is in the slot, or it was reported or delivered, or it was freed, and it is so once, in every
run in which (`Safe`)

* a call finds the socket busy only while the slot holds no buffer;
* the layer is closed only while the slot holds no buffer;
* no write fails.
-/

namespace IotDeviceSdk.Io

open EventDispatcher Datastructures

/-! ## What the slot holds -/

/-- The buffer that is to be written by a handle. -/
def Handle.writes : Handle → List BufferId
  | .push buffer => [buffer.id]
  | .pull _ => []

/-- The buffer that is to be read into by a handle. -/
def Handle.reads : Handle → List BufferId
  | .pull (some buffer) => [buffer]
  | _ => []

/-- What a handle that holds a buffer waits for. -/
def Handle.eventType : Handle → EventType
  | .push _ => .wantWrite
  | .pull _ => .wantRead

/-- The handles that are registered. -/
def World.handles (w : World) : List Handle := w.sockets.array.map FdTuple.handle

/-- The slot holds no buffer. -/
def World.Free (w : World) : Prop := ∀ h ∈ w.handles, h = .pull none

instance (w : World) : Decidable w.Free := inferInstanceAs (Decidable (∀ h ∈ w.handles, _))

/-! ## What is accounted for -/

/-- **Every buffer is in one place**: a buffer to write in the slot or reported and freed, a buffer
to read into in the slot, delivered or freed. -/
structure Kept (w : World) (writes reads : List BufferId) : Prop where
  pushed : w.pushed.Perm (writes ++ w.reported.map Prod.fst)
  freed : w.writesFreed.Perm (w.reported.map Prod.fst)
  reports : ∀ r ∈ w.reported, r.2 = .written ∨ r.2 = .failedWriting
  allocated : w.allocated.Perm (reads ++ (w.delivered ++ w.readsFreed))
  pushed_nodup : w.pushed.Nodup
  allocated_nodup : w.allocated.Nodup
  pushed_lt : ∀ id ∈ w.pushed, id < w.nextBuffer
  allocated_lt : ∀ id ∈ w.allocated, id < w.nextBuffer

/-- What the slot waits for is what its handle waits for. -/
def Waiting (w : World) : Prop :=
  ∀ t ∈ w.sockets.array, t.handle ≠ .pull none → t.eventType = t.handle.eventType

/-! ## What the layer needs -/

/-- A result that is no failure. -/
def BspResult.good : BspResult → Bool
  | .ok len => 0 ≤ len
  | .busy => true
  | _ => false

/-- No write fails. -/
def NoFailure (results : List BspResult) : Prop := ∀ r ∈ results, r.good

/-- The socket takes a buffer at once. -/
def TakenAtOnce (capacity : Nat) (results : List BspResult) : Prop :=
  capacity = 0 ∨ writeLoop capacity 0 results = .written

def Safe (w : World) : Event → Prop
  | .push capacity results =>
    w.disconnected = false → NoFailure results ∧ (TakenAtOnce capacity results ∨ w.Free)
  | .pull mem result =>
    w.disconnected = false → mem = true ∧ (∃ len, result = .ok len) ∨ w.Free
  | .ready _ results => (∃ b, .push b ∈ w.handles) → NoFailure results
  | .close | .closeExternally => w.Free

/-! ## The slot -/

/-- The handle `h` is in the slot; there is no slot without layer data. -/
structure Slot (w : World) (h : Handle) (eventType : EventType) : Prop where
  registered : ∀ s ∈ w.socket, w.sockets.array = [⟨s, h, .pull none, eventType⟩]
  unregistered : w.socket = none → w.sockets.array = [] ∧ h = .pull none
  waiting : h ≠ .pull none → eventType = h.eventType

variable {w : World} {h : Handle} {eventType : EventType}

theorem find_singleton {v : Sockets Handle} {t : FdTuple Handle} (hv : v.array = [t]) :
    v.find t.fd = some 0 := by
  simp [Sockets.find, hv]

theorem Slot.continueWhen (hs : Slot w h eventType) {s : Fd} (hsocket : w.socket = some s)
    (eventType' : EventType) (h' : Handle) :
    w.sockets.continueWhenEvtOnSocket eventType' h' s =
      some { w.sockets with array := [⟨s, h', .pull none, eventType'⟩] } := by
  have harray := hs.registered s hsocket
  have hfind := find_singleton harray
  rw [Sockets.continueWhenEvtOnSocket, hfind]
  simp [Sockets.update, harray]

theorem Slot.updateEvent (hs : Slot w h eventType) {s : Fd} (hsocket : w.socket = some s) :
    w.sockets.updateEvent s =
      some (h, { w.sockets with array := [⟨s, .pull none, .pull none, .wantRead⟩] }) := by
  have harray := hs.registered s hsocket
  have hfind := find_singleton harray
  rw [Sockets.updateEvent, hfind]
  simp [Sockets.update, harray]

theorem Slot.unregister (hs : Slot w h eventType) {s : Fd} (hsocket : w.socket = some s) :
    (w.sockets.unregister s).array = [] := by
  have harray := hs.registered s hsocket
  have hfind := find_singleton harray
  rw [Sockets.unregister, hfind]
  simp [IotcVector.del, IotcVector.elemNo, harray]

theorem Slot.handles (hs : Slot w h eventType) :
    w.handles = if w.socket.isSome then [h] else [] := by
  unfold World.handles
  cases hsocket : w.socket with
  | none => simp [hs.unregistered hsocket]
  | some s => simp [hs.registered s hsocket]

/-! ## The invariant -/

structure Inv (w : World) (h : Handle) (eventType : EventType) : Prop where
  slot : Slot w h eventType
  kept : Kept w h.writes h.reads
  /-- a layer that is closed has nothing in the slot -/
  closed : w.layerState.notOperational → h = .pull none

theorem Slot.free_iff (hs : Slot w h eventType) : w.Free ↔ h = .pull none := by
  rw [World.Free, hs.handles]
  split
  · simp
  · next hnone =>
    have hsocket : w.socket = none := by simpa using hnone
    simpa using (hs.unregistered hsocket).2

theorem Inv.waiting (hi : Inv w h eventType) : Waiting w := by
  intro t ht hne
  cases hsocket : w.socket with
  | none =>
    rw [(hi.slot.unregistered hsocket).1] at ht
    cases ht
  | some s =>
    rw [hi.slot.registered s hsocket, List.mem_singleton] at ht
    subst ht
    exact hi.slot.waiting hne

theorem inv_connectedWorld (socket : Fd) :
    Inv (connectedWorld socket) (.pull none) .wantRead where
  slot := ⟨by rintro s ⟨⟩; rfl, by rintro ⟨⟩, fun h => absurd rfl h⟩
  kept := ⟨.nil, .nil, by simp [connectedWorld], .nil, List.nodup_nil, List.nodup_nil,
    by simp [connectedWorld], by simp [connectedWorld]⟩
  closed := fun _ => rfl

/-- Closing changes nothing that is kept. -/
theorem Inv.closing (hi : Inv w h eventType) (hfree : h = .pull none) :
    Inv w.closing h eventType :=
  ⟨⟨hi.slot.registered, hi.slot.unregistered, hi.slot.waiting⟩,
    ⟨hi.kept.pushed, hi.kept.freed, hi.kept.reports, hi.kept.allocated, hi.kept.pushed_nodup,
      hi.kept.allocated_nodup, hi.kept.pushed_lt, hi.kept.allocated_lt⟩, fun _ => hfree⟩

theorem connected {w : World} (h : w.disconnected = false) :
    ∃ s, w.socket = some s ∧ w.layerState.notOperational = false := by
  unfold World.disconnected at h
  cases hsocket : w.socket with
  | none => simp [hsocket] at h
  | some s => exact ⟨s, rfl, by simpa [hsocket] using h⟩

/-! ## push -/

/-- Without a failure the writes end with the buffer written or the socket busy. -/
theorem writeLoop_cases {capacity : Nat} : ∀ {results : List BspResult} {currPos : Nat},
    NoFailure results → writeLoop capacity currPos results = .written ∨
      ∃ pos, writeLoop capacity currPos results = .busy pos
  | [], currPos, _ => .inr ⟨currPos, rfl⟩
  | r :: rs, currPos, hno => by
    have hr := hno r List.mem_cons_self
    cases r with
    | ok len =>
      have hlen : 0 ≤ len := by simpa [BspResult.good] using hr
      rw [writeLoop, if_neg (by omega)]
      split
      · exact writeLoop_cases fun r hr => hno r (List.mem_cons_of_mem _ hr)
      · exact .inl rfl
    | busy => exact .inr ⟨currPos, rfl⟩
    | connectionReset => cases hr
    | error => cases hr

/-- The writes of a call of push. -/
theorem push_cases {capacity currPos : Nat} {results : List BspResult} (hno : NoFailure results) :
    (if capacity > 0 then writeLoop capacity currPos results else .written) = .written ∨
      capacity ≠ 0 ∧ writeLoop capacity currPos results ≠ .written ∧
        ∃ pos, (if capacity > 0 then writeLoop capacity currPos results else .written) =
          .busy pos := by
  split
  · next hpos =>
    rcases writeLoop_cases hno with h | ⟨pos, h⟩
    · exact .inl h
    · exact .inr ⟨Nat.ne_of_gt hpos, by simp [h], pos, h⟩
  · exact .inl rfl

/-- A buffer that no slot holds is pushed: it is reported, or the slot, which is free, gets it. -/
theorem push_inv {buffer : DataDesc} {results : List BspResult} (hs : Slot w h eventType)
    (hconnected : w.disconnected = false) (hk : Kept w (buffer.id :: h.writes) h.reads)
    (hno : NoFailure results)
    (hfree : (buffer.capacity = 0 ∨ writeLoop buffer.capacity buffer.currPos results = .written) ∨
      h = .pull none) : ∃ h' e', Inv (push w buffer results) h' e' := by
  obtain ⟨s, hsocket, hstate⟩ := connected hconnected
  unfold push
  rw [hsocket]
  simp only [hstate, Bool.false_eq_true, if_false]
  rcases @push_cases buffer.capacity buffer.currPos _ hno with
    hwritten | ⟨hcapacity, hloop, pos, hbusy⟩
  · rw [hwritten]
    refine ⟨h, eventType, ⟨hs.registered, hs.unregistered, hs.waiting⟩, ?_, fun hc => ?_⟩
    · refine ⟨?_, ?_, ?_, hk.allocated, hk.pushed_nodup, hk.allocated_nodup, hk.pushed_lt,
        hk.allocated_lt⟩
      · show w.pushed.Perm (h.writes ++ (w.reported ++ [(buffer.id, IotcState.written)]).map Prod.fst)
        refine hk.pushed.trans ?_
        rw [List.map_append, ← List.append_assoc, List.cons_append]
        exact (List.perm_append_singleton _ _).symm
      · show (w.writesFreed ++ [buffer.id]).Perm
          ((w.reported ++ [(buffer.id, IotcState.written)]).map Prod.fst)
        rw [List.map_append]
        exact hk.freed.append_right _
      · intro r hr
        rcases List.mem_append.1 hr with hr | hr
        · exact hk.reports r hr
        · rw [List.mem_singleton.1 hr]
          exact .inl rfl
    · have hc : w.layerState.notOperational := hc
      rw [hstate] at hc
      cases hc
  · obtain rfl : h = .pull none :=
      hfree.resolve_left fun h => h.elim (absurd · hcapacity) (absurd · hloop)
    rw [hbusy]
    simp only [hs.continueWhen hsocket]
    refine ⟨.push { buffer with currPos := pos }, .wantWrite, ⟨?_, fun hn => ?_, fun _ => rfl⟩,
      ⟨hk.pushed, hk.freed, hk.reports, hk.allocated, hk.pushed_nodup, hk.allocated_nodup,
        hk.pushed_lt, hk.allocated_lt⟩, fun hc => ?_⟩
    · rintro s' ⟨⟩
      rfl
    · cases hn
    · have hc : w.layerState.notOperational := hc
      rw [hstate] at hc
      cases hc

/-! ## pull -/

/-- A buffer that no slot holds is read into: it is delivered or freed, or the slot, which is free,
gets it. -/
theorem read_inv {buffer : BufferId} {result : BspResult} {s : Fd} (hs : Slot w h eventType)
    (hsocket : w.socket = some s) (hstate : w.layerState.notOperational = false)
    (hk : Kept w h.writes (buffer :: h.reads))
    (hfree : (∃ len, result = .ok len) ∨ h = .pull none) :
    ∃ h' e', Inv (read w s buffer result) h' e' := by
  have hfail : h = .pull none → Inv (w.freeRead buffer).closing h eventType := by
    rintro rfl
    refine ⟨⟨hs.registered, hs.unregistered, hs.waiting⟩, ?_, fun _ => rfl⟩
    refine ⟨hk.pushed, hk.freed, hk.reports, ?_, hk.pushed_nodup, hk.allocated_nodup, hk.pushed_lt,
      hk.allocated_lt⟩
    show w.allocated.Perm (w.delivered ++ (w.readsFreed ++ [buffer]))
    refine hk.allocated.trans ?_
    rw [← List.append_assoc w.delivered]
    exact (List.perm_append_singleton buffer (w.delivered ++ w.readsFreed)).symm
  cases result with
  | ok len =>
    refine ⟨h, eventType, ⟨hs.registered, hs.unregistered, hs.waiting⟩, ?_, fun hc => ?_⟩
    · refine ⟨hk.pushed, hk.freed, hk.reports, ?_, hk.pushed_nodup, hk.allocated_nodup,
        hk.pushed_lt, hk.allocated_lt⟩
      show w.allocated.Perm (h.reads ++ ((w.delivered ++ [buffer]) ++ w.readsFreed))
      refine hk.allocated.trans ?_
      rw [List.append_assoc, List.cons_append, List.singleton_append, ← List.append_assoc,
        ← List.append_assoc]
      exact List.perm_middle.symm
    · have hc : w.layerState.notOperational := hc
      rw [hstate] at hc
      cases hc
  | busy =>
    obtain rfl : h = .pull none := hfree.resolve_left (by simp)
    rw [read]
    simp only [hs.continueWhen hsocket]
    refine ⟨.pull (some buffer), .wantRead, ⟨?_, fun hn => ?_, fun _ => rfl⟩,
      ⟨hk.pushed, hk.freed, hk.reports, hk.allocated, hk.pushed_nodup, hk.allocated_nodup,
        hk.pushed_lt, hk.allocated_lt⟩, fun hc => ?_⟩
    · intro s' hs'
      obtain rfl := Option.some.inj (hsocket.symm.trans hs')
      rfl
    · have hn : w.socket = none := hn
      rw [hsocket] at hn
      cases hn
    · have hc : w.layerState.notOperational := hc
      rw [hstate] at hc
      cases hc
  | connectionReset => exact ⟨h, eventType, hfail (hfree.resolve_left (by simp))⟩
  | error => exact ⟨h, eventType, hfail (hfree.resolve_left (by simp))⟩

/-- A number that has not been given yet. -/
theorem notMem_of_lt {ids : List BufferId} {n : BufferId} (h : ∀ id ∈ ids, id < n) : n ∉ ids :=
  fun hn => Nat.lt_irrefl n (h n hn)

theorem nodup_next {ids : List BufferId} {n : BufferId} (hids : ids.Nodup)
    (h : ∀ id ∈ ids, id < n) : (ids ++ [n]).Nodup := by
  rw [List.nodup_append']
  refine ⟨hids, List.nodup_singleton n, fun id hid hn => ?_⟩
  exact notMem_of_lt h (List.mem_singleton.1 hn ▸ hid)

theorem lt_next {ids : List BufferId} {n : BufferId} (h : ∀ id ∈ ids, id < n) :
    ∀ id ∈ ids ++ [n], id < n + 1 := by
  intro id hid
  rcases List.mem_append.1 hid with hid | hid
  · exact Nat.lt_succ_of_lt (h id hid)
  · exact List.mem_singleton.1 hid ▸ Nat.lt_succ_self n

/-- A buffer that has just been pushed. -/
theorem Kept.push {writes reads : List BufferId} (hk : Kept w writes reads) :
    Kept { w with nextBuffer := w.nextBuffer + 1, pushed := w.pushed ++ [w.nextBuffer] }
      (w.nextBuffer :: writes) reads where
  pushed := (hk.pushed.append_right _).trans (List.perm_append_singleton _ _)
  freed := hk.freed
  reports := hk.reports
  allocated := hk.allocated
  pushed_nodup := nodup_next hk.pushed_nodup hk.pushed_lt
  allocated_nodup := hk.allocated_nodup
  pushed_lt := lt_next hk.pushed_lt
  allocated_lt := fun id hid => Nat.lt_succ_of_lt (hk.allocated_lt id hid)

/-- A buffer that has just been allocated. -/
theorem Kept.allocate {writes reads : List BufferId} (hk : Kept w writes reads) :
    Kept { w with nextBuffer := w.nextBuffer + 1, allocated := w.allocated ++ [w.nextBuffer] }
      writes (w.nextBuffer :: reads) where
  pushed := hk.pushed
  freed := hk.freed
  reports := hk.reports
  allocated := (hk.allocated.append_right _).trans (List.perm_append_singleton _ _)
  pushed_nodup := hk.pushed_nodup
  allocated_nodup := nodup_next hk.allocated_nodup hk.allocated_lt
  pushed_lt := fun id hid => Nat.lt_succ_of_lt (hk.pushed_lt id hid)
  allocated_lt := lt_next hk.allocated_lt

/-- A call of pull without a buffer. -/
theorem pull_inv {mem : Bool} {result : BspResult} (hi : Inv w h eventType)
    (hsafe : w.disconnected = false → mem = true ∧ (∃ len, result = .ok len) ∨ h = .pull none) :
    ∃ h' e', Inv (pull w none mem result) h' e' := by
  cases hd : w.disconnected with
  | true =>
    have hpull : pull w none mem result = w := by
      unfold pull
      cases hsocket : w.socket with
      | none => rfl
      | some s =>
        rw [World.disconnected, hsocket] at hd
        simp only [Option.isNone_some, Bool.or_false] at hd
        simp only [hd, if_true, Option.elim_none]
    rw [hpull]
    exact ⟨h, eventType, hi⟩
  | false =>
    obtain ⟨s, hsocket, hstate⟩ := connected hd
    unfold pull
    simp only [hsocket, hstate, Bool.false_eq_true, if_false]
    cases mem with
    | true =>
      have hslot : Slot { w with socket := some s } h eventType :=
        ⟨fun _ hs => hi.slot.registered _ (hsocket.trans hs), by rintro ⟨⟩, hi.slot.waiting⟩
      have hkept := hi.kept.allocate
      rw [hsocket] at hkept
      exact read_inv ⟨hslot.registered, hslot.unregistered, hslot.waiting⟩ rfl hstate hkept
        ((hsafe hd).imp_left And.right)
    | false =>
      have hfree := (hsafe hd).resolve_left (by simp)
      exact ⟨h, eventType, hi.closing hfree⟩

/-! ## The dispatcher -/

/-- The world in which a handle is executed: it has left the slot. -/
def World.taken (w : World) (s : Fd) : World :=
  { w with sockets := { w.sockets with array := [⟨s, .pull none, .pull none, .wantRead⟩] } }

theorem slot_taken {s : Fd} (hsocket : w.socket = some s) :
    Slot (w.taken s) (.pull none) .wantRead where
  registered := fun s' hs' => by
    obtain rfl := Option.some.inj (hsocket.symm.trans hs')
    rfl
  unregistered := fun hn => by
    have hn : w.socket = none := hn
    rw [hsocket] at hn
    cases hn
  waiting := fun hn => absurd rfl hn

theorem Kept.taken {writes reads : List BufferId} (hk : Kept w writes reads) (s : Fd) :
    Kept (w.taken s) writes reads :=
  ⟨hk.pushed, hk.freed, hk.reports, hk.allocated, hk.pushed_nodup, hk.allocated_nodup, hk.pushed_lt,
    hk.allocated_lt⟩

theorem step_ready {mem : Bool} {results : List BspResult} {s : Fd} (hi : Inv w h eventType)
    (hsocket : w.socket = some s) :
    step w (.ready mem results) = (w.taken s).execute mem results h := by
  have hupdate : w.socket.bind w.sockets.updateEvent = some (h, (w.taken s).sockets) := by
    rw [hsocket, Option.bind_some, hi.slot.updateEvent hsocket]
    rfl
  rw [step, hupdate]
  rfl

/-- A handle that holds a buffer is executed by a layer that works. -/
theorem Inv.works (hi : Inv w h eventType) {s : Fd} (hsocket : w.socket = some s)
    (hne : h ≠ .pull none) : w.disconnected = false := by
  unfold World.disconnected
  cases hstate : w.layerState.notOperational with
  | true => exact absurd (hi.closed hstate) hne
  | false => rw [hsocket]; rfl

theorem ready_inv {mem : Bool} {results : List BspResult} (hi : Inv w h eventType)
    (hsafe : Safe w (.ready mem results)) : ∃ h' e', Inv (step w (.ready mem results)) h' e' := by
  cases hsocket : w.socket with
  | none =>
    rw [step, hsocket]
    exact ⟨h, eventType, hi⟩
  | some s =>
    have htaken := slot_taken hsocket
    have hk := hi.kept.taken s
    rw [step_ready hi hsocket]
    cases h with
    | push buffer =>
      have hd := hi.works hsocket (by simp)
      have hno : NoFailure results := hsafe ⟨buffer, by simp [hi.slot.handles, hsocket]⟩
      exact push_inv htaken hd hk hno (.inr rfl)
    | pull data =>
      cases data with
      | none => exact pull_inv ⟨htaken, hk, fun _ => rfl⟩ fun _ => .inr rfl
      | some buffer =>
        obtain ⟨-, -, hstate⟩ := connected (hi.works hsocket (by simp))
        have hsocket' : (w.taken s).socket = some s := hsocket
        have hstate' : (w.taken s).layerState.notOperational = false := hstate
        rw [World.execute, pull]
        simp only [hsocket', hstate', Bool.false_eq_true, if_false]
        exact read_inv htaken hsocket hstate hk (.inr rfl)

/-! ## Runs -/

/-- **One event that meets the condition.** -/
theorem step_inv {e : Event} (hi : Inv w h eventType) (hsafe : Safe w e) :
    ∃ h' e', Inv (step w e) h' e' := by
  cases e with
  | push capacity results =>
    rw [step]
    split
    · exact ⟨h, eventType, hi⟩
    · next hd =>
      have hd : w.disconnected = false := by simpa using hd
      obtain ⟨hno, hfree⟩ := hsafe hd
      rw [hi.slot.free_iff] at hfree
      exact push_inv ⟨hi.slot.registered, hi.slot.unregistered, hi.slot.waiting⟩ hd hi.kept.push
        hno hfree
  | pull mem result =>
    refine pull_inv hi fun hd => ?_
    rw [← hi.slot.free_iff]
    exact hsafe hd
  | ready mem results => exact ready_inv hi hsafe
  | close => exact ⟨h, eventType, hi.closing (hi.slot.free_iff.1 hsafe)⟩
  | closeExternally =>
    have hfree := hi.slot.free_iff.1 hsafe
    unfold step closeExternally
    cases hsocket : w.socket with
    | none => exact ⟨h, eventType, hi⟩
    | some s =>
      refine ⟨h, eventType, ⟨by rintro s' ⟨⟩, fun _ => ⟨hi.slot.unregister hsocket, hfree⟩,
        hi.slot.waiting⟩, ?_, fun _ => hfree⟩
      exact ⟨hi.kept.pushed, hi.kept.freed, hi.kept.reports, hi.kept.allocated,
        hi.kept.pushed_nodup, hi.kept.allocated_nodup, hi.kept.pushed_lt, hi.kept.allocated_lt⟩

/-- A write that waits while a read does not, and then goes on. -/
def busyWrite : List Event :=
  [.push 5 [.ok 2, .busy], .ready true [.ok 3], .ready true [.busy], .ready true [.ok 7]]

end IotDeviceSdk.Io
