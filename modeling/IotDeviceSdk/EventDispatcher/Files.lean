import IotDeviceSdk.Datastructures.VectorRun
import IotDeviceSdk.EventDispatcher.Continuations

/-!
# The files of a dispatcher (`iotc_event_dispatcher.c`)

The container `handles_and_file_fd`. A file is always ready: one pass goes through the container by
index and runs the handle of each file. Handles register and unregister files while the pass goes on,
and a file that is unregistered leaves its place to the last one.
-/

namespace IotDeviceSdk.EventDispatcher

open Datastructures Infra

variable {H : Type}

/-- `handles_and_file_fd` -/
abbrev Files (H : Type) := Sockets H

/-- A call of the interface for files. `mem` and `grow` are answers of the allocator. -/
inductive FileCall (H : Type) where
  | register (eventType : EventType) (fd : Fd) (handle : H) (mem grow : Bool)
  | unregister (fd : Fd)
  deriving DecidableEq, Repr

/-- The events for which `iotc_evtd_update_file_fd_events` runs the handle of a file. -/
def EventType.updatesFile : EventType → Bool
  | .wantRead => true
  | .wantWrite => true
  | .error => true
  | .wantConnect => false

namespace Files

/-- `iotc_evtd_register_file_fd`. Without memory nothing is registered. -/
def register (v : Files H) (eventType : EventType) (fd : Fd) (handle : H) (mem grow : Bool) :
    Option (Files H) :=
  if (v.find fd).isSome then none
  else if mem then some ((v.push ⟨fd, handle, handle, eventType⟩ grow).getD v)
  else some v

/-- One call, and what happens to the slots. -/
def call (v : Files H) : FileCall H → Option (Files H × List (Fd × SlotEntry H))
  | .register eventType fd handle mem grow => (register v eventType fd handle mem grow).map fun w =>
      (w, if (w.find fd).isSome then [(fd, .opened handle)] else [])
  | .unregister fd => some (v.unregister fd, if (v.find fd).isSome then [(fd, .closed)] else [])

/-- The calls of a handle. -/
def calls (v : Files H) : List (FileCall H) → Option (Files H × List (Fd × SlotEntry H))
  | [] => some (v, [])
  | c :: cs => (call v c).bind fun r => (calls r.1 cs).map fun t => (t.1, r.2 ++ t.2)

/-- `iotc_evtd_update_event_on_file`: the handle that is run. The tuple of a file keeps it. -/
def updateEvent (v : Files H) (fd : Fd) : Option H :=
  (v.find fd).bind fun id => (v.array[id]?).map FdTuple.handle

end Files

/-- A pass: the container, the index that comes next, what was run and what happened to the slots, and
`was_there_an_event`. -/
structure FilePass (H : Type) where
  files : Files H
  i : Nat
  log : List (Fd × SlotEntry H)
  wasThereAnEvent : Bool

namespace FilePass

/-- The pass begins. -/
def start (v : Files H) : FilePass H := ⟨v, 0, [], false⟩

/-- One turn of the loop, in which the handle does `cs`. Behind the end there is no turn. -/
def turn (p : FilePass H) (cs : List (FileCall H)) : Option (FilePass H) :=
  match p.files.array[p.i]? with
  | none => some p
  | some t =>
    if t.eventType.updatesFile then
      match Files.updateEvent p.files t.fd with
      | none => some { p with i := p.i + 1, wasThereAnEvent := true }
      | some handle => (Files.calls p.files cs).map fun r =>
        { files := r.1, i := p.i + 1, log := p.log ++ (t.fd, .fired handle) :: r.2,
          wasThereAnEvent := true }
    else some { p with i := p.i + 1 }

/-- `iotc_evtd_update_file_fd_events` from where the pass is. `script` is what the handles do, one
entry for each turn. -/
def updateFileFdEvents : List (List (FileCall H)) → FilePass H → Option (FilePass H)
  | script, p =>
    match p.files.array[p.i]? with
    | none => some p
    | some _ =>
      match script with
      | [] => none
      | cs :: script => (p.turn cs).bind (updateFileFdEvents script)

/-- The pass is over. -/
def Done (p : FilePass H) : Prop := p.files.array[p.i]? = none

theorem turn_done {p : FilePass H} (h : p.Done) (cs : List (FileCall H)) : p.turn cs = some p := by
  unfold turn
  rw [h]

/-- A turn leaves the pass where it is, at its end, or takes it on. -/
theorem turn_i {p q : FilePass H} {cs : List (FileCall H)} (h : p.turn cs = some q) :
    p.Done ∧ q = p ∨ q.i = p.i + 1 := by
  unfold turn at h
  split at h
  · next hget => exact .inl ⟨hget, (Option.some.inj h).symm⟩
  · refine .inr ?_
    split at h
    · split at h
      · obtain rfl := Option.some.inj h
        rfl
      · obtain ⟨r, -, rfl⟩ := Option.map_eq_some_iff.1 h
        rfl
    · obtain rfl := Option.some.inj h
      rfl

/-- Behind the end there are no turns. -/
theorem run_done {p : FilePass H} (h : p.Done) (script : List (List (FileCall H))) :
    run turn p script = some p := by
  induction script with
  | nil => rfl
  | cons cs script ih => rw [run_cons, turn_done h, Option.bind_some, ih]

theorem updateFileFdEvents_done {p : FilePass H} (h : p.Done)
    (script : List (List (FileCall H))) : updateFileFdEvents script p = some p := by
  rw [Done] at h
  rw [updateFileFdEvents.eq_def]
  simp only [h]

/-- A pass is a run of turns to its end. -/
theorem updateFileFdEvents_iff {script : List (List (FileCall H))} {p q : FilePass H} :
    updateFileFdEvents script p = some q ↔ run turn p script = some q ∧ q.Done := by
  induction script generalizing p with
  | nil =>
    rw [run_nil, Option.some.injEq]
    constructor
    · intro h
      cases hget : p.files.array[p.i]? with
      | none =>
        rw [updateFileFdEvents_done hget, Option.some.injEq] at h
        exact ⟨h, h ▸ hget⟩
      | some t =>
        rw [updateFileFdEvents.eq_def] at h
        simp [hget] at h
    · rintro ⟨rfl, hdone⟩
      exact updateFileFdEvents_done hdone []
  | cons cs script ih =>
    cases hget : p.files.array[p.i]? with
    | none =>
      rw [updateFileFdEvents_done hget, run_done hget, Option.some.injEq]
      constructor
      · rintro rfl
        exact ⟨rfl, hget⟩
      · exact And.left
    | some t =>
      have hcons : updateFileFdEvents (cs :: script) p =
          (p.turn cs).bind (updateFileFdEvents script) := by
        rw [updateFileFdEvents.eq_def]
        simp only [hget]
      rw [hcons, run_cons]
      cases p.turn cs with
      | none => simp
      | some p' => exact ih

end FilePass

/-! ## The slots of the files -/

namespace Files

variable {v w : Files H} {log more : List (Fd × SlotEntry H)}

/-- The container of the files: the slots are what their histories say, and the handles stay. -/
structure Kept (v : Files H) (log : List (Fd × SlotEntry H)) : Prop extends Sockets.Kept v log where
  plain : ∀ t ∈ v.array, t.handle = t.readHandle

theorem kept_create : Kept (H := H) .create [] where
  toKept := Sockets.kept_create
  plain _ ht := absurd ht List.not_mem_nil

/-- What a registration does to the container. -/
theorem register_cases {eventType : EventType} {fd : Fd} {handle : H} {mem grow : Bool}
    (h : register v eventType fd handle mem grow = some w) :
    v.find fd = none ∧ (w = v ∨ w.array = v.array ++ [⟨fd, handle, handle, eventType⟩]) := by
  unfold register at h
  split at h
  · cases h
  · next hfind =>
    rw [Option.not_isSome_iff_eq_none] at hfind
    refine ⟨hfind, ?_⟩
    split at h
    · obtain rfl := Option.some.inj h
      cases hpush : v.push ⟨fd, handle, handle, eventType⟩ grow with
      | none => exact .inl rfl
      | some u => exact .inr (IotcVector.push_eq_some hpush).1
    · exact .inl (Option.some.inj h).symm

theorem slot_register (hnodup : v.fds.Nodup) {eventType : EventType} {fd : Fd} {handle : H}
    {mem grow : Bool} (h : register v eventType fd handle mem grow = some w) :
    w.fds.Nodup ∧ (w = v ∧ w.find fd = none ∨ (w.find fd).isSome ∧
      ∀ x, w.slot x = if x = fd then some (handle, handle) else v.slot x) := by
  unfold register at h
  split at h
  · cases h
  · next hfind =>
    rw [Option.not_isSome_iff_eq_none] at hfind
    split at h
    · exact Sockets.slot_push hnodup hfind (Option.some.inj h)
    · obtain rfl := Option.some.inj h
      exact ⟨hnodup, .inl ⟨rfl, hfind⟩⟩

theorem Kept.call {c : FileCall H} (hk : Kept v log) (h : call v c = some (w, more)) :
    Kept w (log ++ more) := by
  cases c with
  | register eventType fd handle mem grow =>
    obtain ⟨u, hu, h⟩ := Option.map_eq_some_iff.1 h
    obtain ⟨rfl, rfl⟩ := Prod.mk.inj h
    refine ⟨?_, fun t ht => ?_⟩
    · obtain ⟨hnodup, ⟨rfl, hnone⟩ | ⟨hsome, hslot⟩⟩ := slot_register hk.nodup hu
      · rw [hnone, Option.isSome_none, if_neg Bool.false_ne_true, List.append_nil]
        exact hk.toKept
      · rw [if_pos hsome]
        refine hk.toKept.concat hnodup hslot ?_
        rintro _ ⟨⟩
    · rcases (register_cases hu).2 with rfl | harray
      · exact hk.plain t ht
      · rw [harray] at ht
        rcases List.mem_append.1 ht with ht | ht
        · exact hk.plain t ht
        · rw [List.mem_singleton.1 ht]
  | unregister fd =>
    obtain ⟨rfl, rfl⟩ := Prod.mk.inj (Option.some.inj h)
    refine ⟨hk.toKept.call (c := .unregister fd) rfl, fun t ht => hk.plain t ?_⟩
    unfold Sockets.unregister at ht
    split at ht
    · exact IotcVector.mem_of_mem_del ht
    · exact ht

theorem Kept.calls : ∀ {cs : List (FileCall H)} {v w : Files H}
    {log more : List (Fd × SlotEntry H)}, Kept v log → calls v cs = some (w, more) →
      Kept w (log ++ more)
  | [], v, w, log, more, hk, h => by
    obtain ⟨rfl, rfl⟩ := Prod.mk.inj (Option.some.inj h)
    rwa [List.append_nil]
  | c :: cs, v, w, log, more, hk, h => by
    obtain ⟨⟨v₁, more₁⟩, h₁, h⟩ := Option.bind_eq_some_iff.1 h
    obtain ⟨⟨v₂, more₂⟩, h₂, h⟩ := Option.map_eq_some_iff.1 h
    obtain ⟨rfl, rfl⟩ := Prod.mk.inj h
    rw [← List.append_assoc]
    exact (hk.call h₁).calls h₂

/-- The handle that is run is the one in the tuple at the index, and in the slot. -/
theorem Kept.updateEvent {t : FdTuple H} (hk : Kept v log) (ht : t ∈ v.array) :
    updateEvent v t.fd = some t.handle ∧ Kept v (log ++ [(t.fd, .fired t.handle)]) := by
  have htuple : v.tuple t.fd = some t := (Sockets.tuple_eq_some hk.nodup).2 ⟨ht, rfl⟩
  have hslot : v.slot t.fd = some (t.readHandle, t.handle) := by
    rw [Sockets.slot, htuple]
    rfl
  constructor
  · obtain ⟨id, hid⟩ := Option.isSome_iff_exists.1 (Sockets.find_isSome.2 (List.mem_map_of_mem ht))
    obtain ⟨L, u, M, harray, hL, -, hu, -⟩ := Sockets.exists_of_find hid
    obtain rfl := Option.some.inj (htuple.symm.trans hu)
    rw [Files.updateEvent, hid, Option.bind_some, harray, ← hL]
    simp
  · refine ⟨hk.toKept.concat hk.nodup (fun x => ?_) ?_, hk.plain⟩
    · by_cases hx : x = t.fd
      · rw [if_pos hx, hx, hslot, hk.plain t ht]
        rfl
      · rw [if_neg hx]
    · intro h hfired
      obtain rfl := SlotEntry.fired.inj hfired
      exact ⟨t.readHandle, hslot⟩

end Files

/-- A turn keeps what the histories say. -/
theorem FilePass.turn_kept {p q : FilePass H} {cs : List (FileCall H)}
    {before : List (Fd × SlotEntry H)} (hk : Files.Kept p.files (before ++ p.log))
    (h : p.turn cs = some q) : Files.Kept q.files (before ++ q.log) := by
  unfold turn at h
  split at h
  · obtain rfl := Option.some.inj h
    exact hk
  · next t ht =>
    split at h
    · obtain ⟨hhandle, hfired⟩ := hk.updateEvent (List.mem_of_getElem? ht)
      rw [hhandle] at h
      obtain ⟨⟨w, more⟩, hcalls, rfl⟩ := Option.map_eq_some_iff.1 h
      have hall := hfired.calls hcalls
      rwa [List.append_assoc, List.append_assoc, List.singleton_append] at hall
    · obtain rfl := Option.some.inj h
      exact hk

/-! ## How many files there are -/

namespace Files

variable {v w : Files H} {log : List (Fd × SlotEntry H)}

theorem bounded_create : IotcVector.Bounded (.create : Files H) := by
  constructor <;> simp [IotcVector.create, IotcVector.elemNo, IotcVector.defaultCapacity]

theorem bounded_call (hv : v.Bounded) {c : FileCall H} (h : call v c = some (w, log)) :
    w.Bounded := by
  cases c with
  | register eventType fd handle mem grow =>
    obtain ⟨u, hu, h⟩ := Option.map_eq_some_iff.1 h
    obtain ⟨rfl, -⟩ := Prod.mk.inj h
    unfold register at hu
    split at hu
    · cases hu
    · split at hu
      · obtain rfl := Option.some.inj hu
        cases hpush : v.push ⟨fd, handle, handle, eventType⟩ grow with
        | none => exact hv
        | some u => exact hv.push hpush
      · obtain rfl := Option.some.inj hu
        exact hv
  | unregister fd =>
    obtain ⟨rfl, -⟩ := Prod.mk.inj (Option.some.inj h)
    unfold Sockets.unregister
    split
    · rw [IotcVector.del_eq]
      refine hv.shrink ?_
      rw [IotcVector.elemNo]
      rcases Nat.lt_or_ge _ v.array.length with hlt | hge
      · exact Nat.le_of_succ_le (Nat.le_of_eq (length_swapDelete hlt))
      · rw [swapDelete_of_le hge]
    · exact hv

theorem bounded_calls : ∀ {cs : List (FileCall H)} {v w : Files H} {log : List (Fd × SlotEntry H)},
    v.Bounded → calls v cs = some (w, log) → w.Bounded
  | [], v, w, log, hv, h => by
    obtain ⟨rfl, -⟩ := Prod.mk.inj (Option.some.inj h)
    exact hv
  | c :: cs, v, w, log, hv, h => by
    obtain ⟨⟨v₁, log₁⟩, h₁, h⟩ := Option.bind_eq_some_iff.1 h
    obtain ⟨⟨v₂, log₂⟩, h₂, h⟩ := Option.map_eq_some_iff.1 h
    obtain ⟨rfl, -⟩ := Prod.mk.inj h
    exact bounded_calls (bounded_call hv h₁) h₂

end Files

theorem FilePass.turn_bounded {p q : FilePass H} {cs : List (FileCall H)} (hv : p.files.Bounded)
    (h : p.turn cs = some q) : q.files.Bounded := by
  unfold turn at h
  split at h
  · obtain rfl := Option.some.inj h
    exact hv
  · split at h
    · split at h
      · obtain rfl := Option.some.inj h
        exact hv
      · obtain ⟨⟨w, more⟩, hcalls, rfl⟩ := Option.map_eq_some_iff.1 h
        exact Files.bounded_calls hv hcalls
    · obtain rfl := Option.some.inj h
      exact hv

/-! ## Where a file is -/

namespace Files

variable {v w : Files H} {log : List (Fd × SlotEntry H)} {t : FdTuple H} {m k : Nat}

/-- The file that a call takes from behind the index `k` to a place before it: the last one, when a
file before the index is unregistered. -/
def movedBack (k : Nat) (v : Files H) : FileCall H → Option Fd
  | .register .. => none
  | .unregister fd =>
    match v.find fd with
    | none => none
    | some id => if id < k ∧ k < v.elemNo then (v.array.getLast?).map FdTuple.fd else none

/-- The container after a call. -/
def after (v : Files H) (c : FileCall H) : Option (Files H) := (call v c).map Prod.fst

/-- The call does not take the file `fd` back over the index. -/
def Spared (k : Nat) (fd : Fd) (v : Files H) (c : FileCall H) : Prop := movedBack k v c ≠ some fd

/-- A file that is registered is where it was, or it was the last one and fills a gap. What the
histories say of it stays. -/
theorem place_call (hnodup : v.fds.Nodup) (hget : v.array[m]? = some t) {c : FileCall H}
    (h : call v c = some (w, log)) (hopen : (t.fd, .closed) ∉ log) :
    logOf log t.fd = [] ∧ ∃ m', w.array[m']? = some t ∧ (m < k → m' < k ∧ Spared k t.fd v c) ∧
      (k ≤ m → (k ≤ m' ↔ Spared k t.fd v c)) := by
  have htuple : v.tuple t.fd = some t :=
    (Sockets.tuple_eq_some hnodup).2 ⟨List.mem_of_getElem? hget, rfl⟩
  obtain ⟨hlt, -⟩ := List.getElem?_eq_some_iff.1 hget
  cases c with
  | register eventType fd handle mem grow =>
    obtain ⟨u, hu, h⟩ := Option.map_eq_some_iff.1 h
    obtain ⟨rfl, rfl⟩ := Prod.mk.inj h
    obtain ⟨hfind, hcases⟩ := register_cases hu
    -- a file that is registered cannot be registered once more
    have hne : t.fd ≠ fd := by
      intro heq
      rw [Sockets.find_eq_none, ← heq, htuple] at hfind
      cases hfind
    have hspared : Spared k t.fd v (.register eventType fd handle mem grow) := by
      rintro ⟨⟩
    refine ⟨?_, m, ?_, fun hk => ⟨hk, hspared⟩, fun hk => iff_of_true hk hspared⟩
    · split
      · rw [logOf_singleton, if_neg hne]
      · rfl
    · rcases hcases with rfl | harray
      · exact hget
      · rw [harray, List.getElem?_append_left hlt, hget]
  | unregister fd =>
    obtain ⟨rfl, rfl⟩ := Prod.mk.inj (Option.some.inj h)
    unfold Sockets.unregister
    cases hfind : v.find fd with
    | none =>
      have hspared : Spared k t.fd v (.unregister fd) := by simp [Spared, movedBack, hfind]
      exact ⟨rfl, m, hget, fun hk => ⟨hk, hspared⟩, fun hk => iff_of_true hk hspared⟩
    | some id =>
      rw [hfind, Option.isSome_some, if_pos rfl, List.mem_singleton] at hopen
      have hne : t.fd ≠ fd := by
        rintro rfl
        exact hopen rfl
      obtain ⟨L, u, M, harray, hL, hu, -, -⟩ := Sockets.exists_of_find hfind
      have hid : v.array[id]? = some u := by simp [harray, ← hL]
      obtain ⟨hidlt, -⟩ := List.getElem?_eq_some_iff.1 hid
      have hmid : m ≠ id := by
        rintro rfl
        obtain rfl := Option.some.inj (hget.symm.trans hid)
        exact hne hu
      have hplace : ∀ j, (v.del id).array[j]? = if j + 1 < v.array.length then
          (if j = id then v.array[v.array.length - 1]? else v.array[j]?) else none := by
        intro j
        rw [IotcVector.del_eq]
        exact getElem?_swapDelete hidlt j
      refine ⟨?_, ?_⟩
      · rw [Option.isSome_some, if_pos rfl, logOf_singleton, if_neg hne]
      by_cases hlast : m + 1 = v.array.length
      · -- the last file fills the gap
        have hm : v.array.length - 1 = m := by omega
        refine ⟨id, ?_, fun hk => ⟨by omega, ?_⟩, fun hk => ?_⟩
        · rw [hplace, if_pos (by omega), if_pos rfl, hm, hget]
        · have hk' : ¬ k < v.elemNo := by
            rw [IotcVector.elemNo]
            omega
          simp [Spared, movedBack, hfind, hk']
        · have hgetLast : v.array.getLast? = some t := by
            rw [List.getLast?_eq_getElem?, hm, hget]
          have hk' : k < v.elemNo := by
            rw [IotcVector.elemNo]
            omega
          simp only [Spared, movedBack, hfind, hgetLast, Option.map_some]
          by_cases hidk : id < k
          · simp [hidk, hk']
          · simp [hidk]
            omega
      · -- the last file is another one
        have hspared : Spared k t.fd v (.unregister fd) := by
          simp only [Spared, movedBack, hfind]
          split
          · intro hmoved
            obtain ⟨z, hz, hzfd⟩ := Option.map_eq_some_iff.1 hmoved
            have hzt : z = t := by
              have hmem : z ∈ v.array := List.mem_of_getLast? hz
              exact List.inj_on_of_nodup_map hnodup hmem (List.mem_of_getElem? hget) hzfd
            rw [hzt, List.getLast?_eq_getElem?] at hz
            have hsame := (List.getElem?_inj hlt (hnodup.of_map _)).1 (hget.trans hz.symm)
            omega
          · rintro ⟨⟩
        refine ⟨m, ?_, fun hk => ⟨hk, hspared⟩, fun hk => iff_of_true hk hspared⟩
        rw [hplace, if_pos (by omega), if_neg hmid, hget]

/-- **The calls of a handle.** A file before the index stays before it; one behind it stays there
exactly when no call takes it back. -/
theorem place_calls : ∀ {cs : List (FileCall H)} {v w : Files H} {log before : List (Fd × SlotEntry H)}
    {m : Nat}, Kept v before → v.array[m]? = some t → calls v cs = some (w, log) →
      (t.fd, .closed) ∉ log → logOf log t.fd = [] ∧ ∃ m', w.array[m']? = some t ∧
        (m < k → m' < k ∧ AllSteps after (Spared k t.fd) v cs) ∧
        (k ≤ m → (k ≤ m' ↔ AllSteps after (Spared k t.fd) v cs))
  | [], v, w, log, before, m, _, hget, h, _ => by
    obtain ⟨rfl, rfl⟩ := Prod.mk.inj (Option.some.inj h)
    exact ⟨rfl, m, hget, fun hk => ⟨hk, trivial⟩, fun hk => iff_of_true hk trivial⟩
  | c :: cs, v, w, log, before, m, hkept, hget, h, hopen => by
    obtain ⟨⟨v₁, log₁⟩, h₁, h⟩ := Option.bind_eq_some_iff.1 h
    obtain ⟨⟨v₂, log₂⟩, h₂, h⟩ := Option.map_eq_some_iff.1 h
    obtain ⟨rfl, rfl⟩ := Prod.mk.inj h
    rw [List.mem_append, not_or] at hopen
    obtain ⟨hlog₁, m₁, hget₁, hbehind₁, hahead₁⟩ :=
      place_call (k := k) hkept.nodup hget h₁ hopen.1
    obtain ⟨hlog₂, m₂, hget₂, hbehind₂, hahead₂⟩ :=
      place_calls (hkept.call h₁) hget₁ h₂ hopen.2
    have hafter : after v c = some v₁ := by
      rw [after, h₁]
      rfl
    refine ⟨?_, m₂, hget₂, fun hm => ?_, fun hm => ?_⟩
    · rw [logOf_append, hlog₁, hlog₂, List.append_nil]
    · obtain ⟨hm₁, hspared⟩ := hbehind₁ hm
      obtain ⟨hm₂, hall⟩ := hbehind₂ hm₁
      exact ⟨hm₂, .cons hspared hafter hall⟩
    · by_cases hm₁ : k ≤ m₁
      · rw [hahead₂ hm₁]
        constructor
        · intro hall
          exact .cons ((hahead₁ hm).1 hm₁) hafter hall
        · rintro ⟨-, hall⟩
          exact hall _ hafter
      · -- the call took the file back
        refine iff_of_false ?_ ?_
        · exact Nat.not_le.2 (hbehind₂ (Nat.lt_of_not_le hm₁)).1
        · rintro ⟨hspared, -⟩
          exact hm₁ ((hahead₁ hm).2 hspared)

end Files

/-! ## A pass -/

namespace FilePass

variable {p q : FilePass H} {t : FdTuple H} {m : Nat} {before : List (Fd × SlotEntry H)}

/-- The turn runs the handle of the file `fd` if it comes to it, and no call of the handle that it
runs takes the file back over the index. -/
def Spares (fd : Fd) (p : FilePass H) (cs : List (FileCall H)) : Prop :=
  ∀ u ∈ p.files.array[p.i]?, (u.fd = fd → u.eventType.updatesFile) ∧
    (u.eventType.updatesFile → AllSteps Files.after (Files.Spared (p.i + 1) fd) p.files cs)

/-- How often the handle of a file was run. -/
def runs (p : FilePass H) (fd : Fd) : List H := SlotEntry.fires (logOf p.log fd)

/-- A turn only adds to the log. -/
theorem turn_log {cs : List (FileCall H)} (h : p.turn cs = some q) : p.log <+: q.log := by
  unfold turn at h
  split at h
  · obtain rfl := Option.some.inj h
    exact List.prefix_refl _
  · split at h
    · split at h
      · obtain rfl := Option.some.inj h
        exact List.prefix_refl _
      · obtain ⟨r, -, rfl⟩ := Option.map_eq_some_iff.1 h
        exact List.prefix_append _ _
    · obtain rfl := Option.some.inj h
      exact List.prefix_refl _

/-- The turn that runs the handle of a file. -/
theorem turn_ran {cs : List (FileCall H)} {u : FdTuple H} (hk : Files.Kept p.files (before ++ p.log))
    (hu : p.files.array[p.i]? = some u) (hready : u.eventType.updatesFile)
    (h : p.turn cs = some q) :
    ∃ w more, Files.calls p.files cs = some (w, more) ∧ q.files = w ∧ q.i = p.i + 1 ∧
      q.log = p.log ++ (u.fd, .fired u.handle) :: more := by
  unfold turn at h
  rw [hu] at h
  simp only [hready, if_true, (hk.updateEvent (List.mem_of_getElem? hu)).1] at h
  obtain ⟨⟨w, more⟩, hcalls, rfl⟩ := Option.map_eq_some_iff.1 h
  exact ⟨w, more, hcalls, rfl, rfl, rfl⟩

theorem turn_passed {cs : List (FileCall H)} {u : FdTuple H}
    (hu : p.files.array[p.i]? = some u) (hready : u.eventType.updatesFile = false)
    (h : p.turn cs = some q) : q = { p with i := p.i + 1 } := by
  unfold turn at h
  rw [hu] at h
  simp only [hready, Bool.false_eq_true, if_false, Option.some.injEq] at h
  exact h.symm

theorem runs_fired (p : FilePass H) (x fd : Fd) (handle : H) {more : List (Fd × SlotEntry H)}
    (hlog : q.log = p.log ++ (x, .fired handle) :: more) (hmore : logOf more fd = []) :
    q.runs fd = if fd = x then p.runs fd ++ [handle] else p.runs fd := by
  have hcons : (x, SlotEntry.fired handle) :: more = [(x, .fired handle)] ++ more := rfl
  rw [runs, hlog, logOf_append, hcons, logOf_append, hmore, List.append_nil, logOf_singleton]
  by_cases hx : fd = x
  · rw [if_pos hx, if_pos hx, SlotEntry.fires, List.filterMap_append]
    rfl
  · rw [if_neg hx, if_neg hx, List.append_nil]
    rfl

/-- What is in the log of a turn was not unregistered by its calls. -/
theorem open_of_log {x : Fd} {handle : H} {fd : Fd} {more : List (Fd × SlotEntry H)}
    (hlog : q.log = p.log ++ (x, .fired handle) :: more) (hopen : (fd, .closed) ∉ q.log) :
    (fd, .closed) ∉ more := by
  intro hmem
  rw [hlog] at hopen
  exact hopen (List.mem_append_right _ (List.mem_cons_of_mem _ hmem))

/-- Two files are at different places. -/
theorem place_unique {v : Files H} (hnodup : v.fds.Nodup) {u : FdTuple H} {n : Nat}
    (ht : v.array[m]? = some t) (hu : v.array[n]? = some u) (hfd : t.fd = u.fd) : m = n := by
  have htu : t = u := List.inj_on_of_nodup_map hnodup (List.mem_of_getElem? ht)
    (List.mem_of_getElem? hu) hfd
  rw [htu] at ht
  exact (List.getElem?_inj (List.getElem?_eq_some_iff.1 ht).1 (hnodup.of_map _)).1 (ht.trans hu.symm)

/-- A file before the index is not run again. -/
theorem turn_behind {cs : List (FileCall H)} (hk : Files.Kept p.files (before ++ p.log))
    (hget : p.files.array[m]? = some t) (hm : m < p.i) (h : p.turn cs = some q)
    (hopen : (t.fd, .closed) ∉ q.log) :
    ∃ m', q.files.array[m']? = some t ∧ m' < q.i ∧ q.runs t.fd = p.runs t.fd ∧
      p.Spares t.fd cs := by
  cases hu : p.files.array[p.i]? with
  | none =>
    obtain rfl := Option.some.inj ((turn_done hu cs).symm.trans h)
    refine ⟨m, hget, hm, rfl, fun u hmem => ?_⟩
    rw [hu] at hmem
    cases hmem
  | some u =>
    have hne : t.fd ≠ u.fd := by
      intro heq
      have := place_unique hk.nodup hget hu heq
      omega
    cases hready : u.eventType.updatesFile with
    | false =>
      obtain rfl := turn_passed hu hready h
      refine ⟨m, hget, Nat.lt_succ_of_lt hm, rfl, fun u' hmem => ?_⟩
      obtain rfl := Option.some.inj (hu.symm.trans hmem)
      exact ⟨fun heq => absurd heq.symm hne, fun htrue => absurd (hready.symm.trans htrue) (by simp)⟩
    | true =>
      obtain ⟨w, more, hcalls, rfl, hi, hlog⟩ := turn_ran hk hu hready h
      obtain ⟨hmore, m', hget', hbehind, -⟩ :=
        Files.place_calls (k := p.i + 1) hk hget hcalls (open_of_log hlog hopen)
      obtain ⟨hm', hall⟩ := hbehind (Nat.lt_succ_of_lt hm)
      refine ⟨m', hget', hi ▸ hm', ?_, fun u' hmem => ?_⟩
      · rw [runs_fired p u.fd t.fd u.handle hlog hmore, if_neg hne]
      · obtain rfl := Option.some.inj (hu.symm.trans hmem)
        exact ⟨fun heq => absurd heq.symm hne, fun _ => hall⟩

/-- A file behind the index: it is run, or it is passed over, or it is still behind the index. -/
theorem turn_ahead {cs : List (FileCall H)} (hk : Files.Kept p.files (before ++ p.log))
    (hget : p.files.array[m]? = some t) (hm : p.i ≤ m) (h : p.turn cs = some q)
    (hopen : (t.fd, .closed) ∉ q.log) :
    ∃ m', q.files.array[m']? = some t ∧
      (m' < q.i ∧ q.runs t.fd = p.runs t.fd ++ [t.handle] ∧ p.Spares t.fd cs ∨
        m' < q.i ∧ q.runs t.fd = p.runs t.fd ∧ ¬ p.Spares t.fd cs ∨
        q.i ≤ m' ∧ q.runs t.fd = p.runs t.fd ∧ p.Spares t.fd cs) := by
  obtain ⟨u, hu⟩ : ∃ u, p.files.array[p.i]? = some u := by
    obtain ⟨hlt, -⟩ := List.getElem?_eq_some_iff.1 hget
    exact ⟨_, List.getElem?_eq_getElem (by omega)⟩
  cases hready : u.eventType.updatesFile with
  | false =>
    obtain rfl := turn_passed hu hready h
    refine ⟨m, hget, .inr ?_⟩
    by_cases heq : m = p.i
    · -- the turn is the one of the file, and it does not run it
      subst heq
      obtain rfl := Option.some.inj (hget.symm.trans hu)
      refine .inl ⟨Nat.lt_succ_self _, rfl, fun hspares => ?_⟩
      have := (hspares t hu).1 rfl
      rw [hready] at this
      cases this
    · refine .inr ⟨Nat.lt_of_le_of_ne hm (Ne.symm heq), rfl, fun u' hmem => ?_⟩
      obtain rfl := Option.some.inj (hu.symm.trans hmem)
      exact ⟨fun hfd => absurd (place_unique hk.nodup hget hu hfd.symm) heq,
        fun htrue => absurd (hready.symm.trans htrue) (by simp)⟩
  | true =>
    obtain ⟨w, more, hcalls, rfl, hi, hlog⟩ := turn_ran hk hu hready h
    obtain ⟨hmore, m', hget', hbehind, hahead⟩ :=
      Files.place_calls (k := p.i + 1) hk hget hcalls (open_of_log hlog hopen)
    have hruns := runs_fired p u.fd t.fd u.handle hlog hmore
    have hspares : p.Spares t.fd cs ↔
        AllSteps Files.after (Files.Spared (p.i + 1) t.fd) p.files cs := by
      constructor
      · intro hspares
        exact (hspares u hu).2 hready
      · intro hall u' hmem
        obtain rfl := Option.some.inj (hu.symm.trans hmem)
        exact ⟨fun _ => hready, fun _ => hall⟩
    refine ⟨m', hget', ?_⟩
    by_cases heq : m = p.i
    · subst heq
      obtain rfl := Option.some.inj (hget.symm.trans hu)
      rw [if_pos rfl] at hruns
      obtain ⟨hm', hall⟩ := hbehind (Nat.lt_succ_self _)
      exact .inl ⟨hi ▸ hm', hruns, hspares.2 hall⟩
    · rw [if_neg (fun hfd => heq (place_unique hk.nodup hget hu hfd))] at hruns
      have hiff := (hahead (by omega)).trans hspares.symm
      rw [← hi] at hiff
      by_cases hm' : q.i ≤ m'
      · exact .inr (.inr ⟨hm', hruns, hiff.1 hm'⟩)
      · exact .inr (.inl ⟨Nat.lt_of_not_le hm', hruns, fun hsp => hm' (hiff.2 hsp)⟩)

/-- The turns of a pass only add to the log. -/
theorem run_log : ∀ {script : List (List (FileCall H))} {p q : FilePass H},
    run turn p script = some q → p.log <+: q.log
  | [], p, q, h => by
    obtain rfl := Option.some.inj h
    exact List.prefix_refl _
  | cs :: script, p, q, h => by
    rw [run_cons, Option.bind_eq_some_iff] at h
    obtain ⟨p', hturn, h⟩ := h
    exact (turn_log hturn).trans (run_log h)

theorem run_kept {script : List (List (FileCall H))} (hk : Files.Kept p.files (before ++ p.log))
    (h : run turn p script = some q) : Files.Kept q.files (before ++ q.log) :=
  run_invariant (P := fun p : FilePass H => Files.Kept p.files (before ++ p.log))
    (fun _ _ _ hk h => turn_kept hk h) hk h

/-- A file that the pass is past is not run by the rest of the pass, and is not taken back. -/
theorem run_behind : ∀ {script : List (List (FileCall H))} {p : FilePass H} {m : Nat},
    Files.Kept p.files (before ++ p.log) → p.files.array[m]? = some t → m < p.i →
      run turn p script = some q → (t.fd, .closed) ∉ q.log →
        q.runs t.fd = p.runs t.fd ∧ AllSteps turn (Spares t.fd) p script
  | [], p, m, _, _, _, h, _ => by
    obtain rfl := Option.some.inj h
    exact ⟨rfl, trivial⟩
  | cs :: script, p, m, hk, hget, hm, h, hopen => by
    rw [run_cons, Option.bind_eq_some_iff] at h
    obtain ⟨p', hturn, h⟩ := h
    have hopen' : (t.fd, .closed) ∉ p'.log := fun hmem => hopen ((run_log h).subset hmem)
    obtain ⟨m', hget', hm', hruns, hspares⟩ := turn_behind hk hget hm hturn hopen'
    obtain ⟨hrest, hall⟩ := run_behind (turn_kept hk hturn) hget' hm' h hopen
    exact ⟨hrest.trans hruns, .cons hspares hturn hall⟩

/-- **One file.** The pass runs its handle once exactly when every turn spares the file. -/
theorem run_ahead : ∀ {script : List (List (FileCall H))} {p : FilePass H} {m : Nat},
    Files.Kept p.files (before ++ p.log) → p.files.array[m]? = some t → p.i ≤ m →
      run turn p script = some q → q.Done → (t.fd, .closed) ∉ q.log →
        (q.runs t.fd = p.runs t.fd ++ [t.handle] ↔ AllSteps turn (Spares t.fd) p script)
  | [], p, m, _, hget, hm, h, hdone, _ => by
    obtain rfl := Option.some.inj h
    -- the pass is not over, since the file is still to come
    obtain ⟨hlt, -⟩ := List.getElem?_eq_some_iff.1 hget
    have := List.getElem?_eq_none_iff.1 hdone
    omega
  | cs :: script, p, m, hk, hget, hm, h, hdone, hopen => by
    rw [run_cons, Option.bind_eq_some_iff] at h
    obtain ⟨p', hturn, h⟩ := h
    have hopen' : (t.fd, .closed) ∉ p'.log := fun hmem => hopen ((run_log h).subset hmem)
    have hk' := turn_kept hk hturn
    obtain ⟨m', hget', ⟨hm', hruns, hspares⟩ | ⟨hm', hruns, hspares⟩ | ⟨hm', hruns, hspares⟩⟩ :=
      turn_ahead hk hget hm hturn hopen'
    · obtain ⟨hrest, hall⟩ := run_behind hk' hget' hm' h hopen
      exact iff_of_true (hrest.trans hruns) (.cons hspares hturn hall)
    · obtain ⟨hrest, -⟩ := run_behind hk' hget' hm' h hopen
      refine iff_of_false ?_ fun hall => hspares hall.1
      rw [hrest, hruns]
      simp
    · rw [← hruns, run_ahead hk' hget' hm' h hdone hopen]
      constructor
      · intro hall
        exact .cons hspares hturn hall
      · rintro ⟨-, hall⟩
        exact hall _ hturn

/-- The turns bring the pass to its end, or as far as there are turns. -/
theorem run_i : ∀ {script : List (List (FileCall H))} {p q : FilePass H},
    run turn p script = some q → q.Done ∨ q.i = p.i + script.length
  | [], p, q, h => by
    obtain rfl := Option.some.inj h
    exact .inr rfl
  | cs :: script, p, q, h => by
    rw [run_cons, Option.bind_eq_some_iff] at h
    obtain ⟨p', hturn, h⟩ := h
    rcases turn_i hturn with ⟨hdone, rfl⟩ | hi
    · rw [run_done hdone] at h
      obtain rfl := Option.some.inj h
      exact .inl hdone
    · refine (run_i h).imp id fun hq => ?_
      rw [hq, hi, List.length_cons]
      omega

/-- **A pass comes to its end.** The container has never more than 127 files, so that a pass whose
handles make no call that fails is over after as many turns, however many files they register. -/
theorem updateFileFdEvents_returns {history : List (FileCall H)} {v : Files H}
    (hbuilt : Files.calls .create history = some (v, before)) {script : List (List (FileCall H))}
    (hlength : 127 ≤ script.length) (hrun : run turn (start v) script = some q) :
    updateFileFdEvents script (start v) = some q := by
  refine updateFileFdEvents_iff.2 ⟨hrun, ?_⟩
  have hbounded : q.files.Bounded :=
    run_invariant (P := fun p : FilePass H => p.files.Bounded) (fun _ _ _ hv h => turn_bounded hv h)
      (Files.bounded_calls Files.bounded_create hbuilt) hrun
  rcases run_i hrun with hdone | hi
  · exact hdone
  · have hle := hbounded.elemNo_le
    have hcapacity := hbounded.capacity_le
    rw [IotcVector.elemNo] at hle
    have hfar : q.files.array.length ≤ q.i := by
      rw [hi]
      omega
    exact List.getElem?_eq_none hfar

/-! ### Whether a handle was run -/

theorem turn_event {cs : List (FileCall H)} (h : p.turn cs = some q) (hp : p.wasThereAnEvent = true) :
    q.wasThereAnEvent = true := by
  unfold turn at h
  split at h
  · exact Option.some.inj h ▸ hp
  · split at h
    · split at h
      · exact Option.some.inj h ▸ rfl
      · obtain ⟨r, -, rfl⟩ := Option.map_eq_some_iff.1 h
        rfl
    · exact Option.some.inj h ▸ hp

/-- The turn of a file that is run is an event. -/
theorem turn_ready {cs : List (FileCall H)} (hu : p.files.array[p.i]? = some t)
    (hready : t.eventType.updatesFile) (h : p.turn cs = some q) : q.wasThereAnEvent = true := by
  unfold turn at h
  rw [hu] at h
  simp only [hready, if_true] at h
  split at h
  · exact Option.some.inj h ▸ rfl
  · obtain ⟨r, -, rfl⟩ := Option.map_eq_some_iff.1 h
    rfl

/-- Without files that are run a pass changes nothing. -/
theorem pass_quiet {v : Files H} {script : List (List (FileCall H))}
    (hpass : updateFileFdEvents script (start v) = some q)
    (hquiet : ∀ t ∈ v.array, t.eventType.updatesFile = false) :
    q.files = v ∧ q.wasThereAnEvent = false := by
  refine run_invariant (P := fun p : FilePass H => p.files = v ∧ p.wasThereAnEvent = false) ?_
    ⟨rfl, rfl⟩ (updateFileFdEvents_iff.1 hpass).1
  rintro p cs p' ⟨rfl, hevent⟩ hturn
  cases hu : p.files.array[p.i]? with
  | none =>
    obtain rfl := Option.some.inj ((turn_done hu cs).symm.trans hturn)
    exact ⟨rfl, hevent⟩
  | some u =>
    obtain rfl := turn_passed hu (hquiet u (List.mem_of_getElem? hu)) hturn
    exact ⟨rfl, hevent⟩

/-- With a file that is run there is an event: the pass comes to the first such file. -/
theorem run_ready : ∀ {script : List (List (FileCall H))} {p : FilePass H} {m : Nat},
    run turn p script = some q → q.Done → p.files.array[m]? = some t → p.i ≤ m →
      t.eventType.updatesFile → q.wasThereAnEvent = true
  | [], p, m, h, hdone, hget, hm, _ => by
    obtain rfl := Option.some.inj h
    obtain ⟨hlt, -⟩ := List.getElem?_eq_some_iff.1 hget
    have := List.getElem?_eq_none_iff.1 hdone
    omega
  | cs :: script, p, m, h, hdone, hget, hm, hready => by
    rw [run_cons, Option.bind_eq_some_iff] at h
    obtain ⟨p', hturn, h⟩ := h
    obtain ⟨u, hu⟩ : ∃ u, p.files.array[p.i]? = some u := by
      obtain ⟨hlt, -⟩ := List.getElem?_eq_some_iff.1 hget
      exact ⟨_, List.getElem?_eq_getElem (by omega)⟩
    cases hfirst : u.eventType.updatesFile with
    | true =>
      exact run_invariant (P := fun p : FilePass H => p.wasThereAnEvent = true)
        (fun _ _ _ hp h => turn_event h hp) (turn_ready hu hfirst hturn) h
    | false =>
      have hne : m ≠ p.i := by
        rintro rfl
        obtain rfl := Option.some.inj (hget.symm.trans hu)
        rw [hready] at hfirst
        cases hfirst
      obtain rfl := turn_passed hu hfirst hturn
      exact run_ready h hdone hget (Nat.lt_of_le_of_ne hm (Ne.symm hne)) hready

/-- A pass over `v`, after the history `before`, ran the handle of each file that stayed registered
once, and of no file that was not registered. -/
structure EachOnce (v : Files H) (before : List (Fd × SlotEntry H)) (q : FilePass H) : Prop where
  once : ∀ t ∈ v.array, (t.fd, .closed) ∉ q.log → q.runs t.fd = [t.handle]
  registered : ∀ fd, SlotEntry.Honest (logOf (before ++ q.log) fd)

/-- **A pass runs each file that stays registered exactly once exactly when it passes over none of
them**: it comes to each one for an event that is run, and whenever a handle unregisters a file at or
before the index of the pass, the last file, which fills the gap, is before the index too or does not
stay registered. -/
theorem eachOnce_iff {history : List (FileCall H)} {v : Files H}
    (hbuilt : Files.calls .create history = some (v, before)) {script : List (List (FileCall H))}
    (hpass : updateFileFdEvents script (start v) = some q) :
    EachOnce v before q ↔
      AllSteps turn (fun p cs => ∀ t ∈ v.array, (t.fd, .closed) ∉ q.log → p.Spares t.fd cs)
        (start v) script := by
  obtain ⟨hrun, hdone⟩ := updateFileFdEvents_iff.1 hpass
  have hk : Files.Kept (start v).files (before ++ (start v).log) := by
    have := Files.kept_create.calls hbuilt
    rwa [List.nil_append, ← List.append_nil before] at this
  have hone : ∀ t ∈ v.array, (t.fd, .closed) ∉ q.log →
      (q.runs t.fd = [t.handle] ↔ AllSteps turn (Spares t.fd) (start v) script) := by
    intro t ht hopen
    obtain ⟨m, hm⟩ := List.getElem?_of_mem ht
    exact run_ahead hk hm (Nat.zero_le m) hrun hdone hopen
  simp only [allSteps_forall]
  constructor
  · intro heach t ht hopen
    exact (hone t ht hopen).1 (heach.once t ht hopen)
  · intro hall
    exact ⟨fun t ht hopen => (hone t ht hopen).2 (hall t ht hopen), (run_kept hk hrun).honest⟩

instance (fd : Fd) (p : FilePass H) (cs : List (FileCall H)) : Decidable (p.Spares fd cs) :=
  have : ∀ k v c, Decidable (Files.Spared (H := H) k fd v c) := fun _ _ _ =>
    inferInstanceAs (Decidable (_ ≠ _))
  inferInstanceAs (Decidable (∀ u ∈ p.files.array[p.i]?, (u.fd = fd → u.eventType.updatesFile) ∧
    (u.eventType.updatesFile → AllSteps Files.after (Files.Spared (p.i + 1) fd) p.files cs)))

/-- Two files are read. The handle of the first registers another one, which the same pass runs, and
which is done by then. -/
theorem eachOnce_reading :
    ∃ b ∈ Files.calls (H := Nat) .create
        [.register .wantRead (-1) 1 true true, .register .wantRead (-2) 2 true true],
      ∃ q ∈ updateFileFdEvents [[.register .wantRead (-3) 3 true true], [], [.unregister (-3)]]
        (start b.1), EachOnce b.1 b.2 q := by
  obtain ⟨b, hb, q, hq, hall⟩ : ∃ b ∈ Files.calls (H := Nat) .create
        [.register .wantRead (-1) 1 true true, .register .wantRead (-2) 2 true true],
      ∃ q ∈ updateFileFdEvents [[.register .wantRead (-3) 3 true true], [], [.unregister (-3)]]
        (start b.1), AllSteps turn
          (fun p cs => ∀ t ∈ b.1.array, (t.fd, .closed) ∉ q.log → p.Spares t.fd cs) (start b.1)
          [[.register .wantRead (-3) 3 true true], [], [.unregister (-3)]] := by
    decide +kernel
  exact ⟨b, hb, q, hq, (eachOnce_iff hb hq).2 hall⟩

/-- The first of three files is done and unregisters itself. The last one takes its place, which the
pass has left, and is not run. -/
theorem eachOnce_fails :
    ∃ b ∈ Files.calls (H := Nat) .create
        [.register .wantRead (-1) 1 true true, .register .wantRead (-2) 2 true true,
          .register .wantRead (-3) 3 true true],
      ∃ q ∈ updateFileFdEvents [[.unregister (-1)], []] (start b.1),
        (-3, .closed) ∉ q.log ∧ -3 ∈ b.1.fds ∧ q.runs (-3) = [] ∧ ¬ EachOnce b.1 b.2 q := by
  obtain ⟨b, hb, q, hq, t, ht, hfd, hopen, hruns⟩ : ∃ b ∈ Files.calls (H := Nat) .create
        [.register .wantRead (-1) 1 true true, .register .wantRead (-2) 2 true true,
          .register .wantRead (-3) 3 true true],
      ∃ q ∈ updateFileFdEvents [[.unregister (-1)], []] (start b.1),
        ∃ t ∈ b.1.array, t.fd = -3 ∧ (t.fd, .closed) ∉ q.log ∧ q.runs t.fd = [] := by
    decide +kernel
  refine ⟨b, hb, q, hq, hfd ▸ hopen, hfd ▸ List.mem_map_of_mem ht, hfd ▸ hruns, fun heach => ?_⟩
  have hone := heach.once t ht hopen
  rw [hruns] at hone
  cases hone

end FilePass

end IotDeviceSdk.EventDispatcher
