import Mathlib.Data.List.Nodup
import Mathlib.Data.List.Perm.Basic
import IotDeviceSdk.Datastructures.Vector

/-!
# The sockets of a dispatcher (`iotc_event_dispatcher.c`)

The container `handles_and_socket_fd`: a vector of tuples, one for each socket, with the handle that
is run when the socket is ready. A continuation takes the place of that handle until it is run. A
failed assertion is `none`.
-/

namespace IotDeviceSdk.EventDispatcher

open Datastructures

/-- `iotc_fd_t` -/
abbrev Fd := Int

/-- `iotc_event_type_t`, without the values that no modelled function uses. -/
inductive EventType where
  | wantRead
  | wantWrite
  | error
  | wantConnect
  deriving DecidableEq, Repr

/-- `iotc_evtd_fd_tuple_t` of a socket. -/
structure FdTuple (H : Type) where
  fd : Fd
  handle : H
  readHandle : H
  eventType : EventType
  deriving DecidableEq, Repr

/-- `handles_and_socket_fd` -/
abbrev Sockets (H : Type) := IotcVector (FdTuple H)

namespace Sockets

variable {H : Type}

/-- `iotc_vector_find` with `iotc_evtd_cmp_fd` -/
def find (v : Sockets H) (fd : Fd) : Option Nat := v.array.findIdx? fun t => t.fd = fd

/-- `iotc_evtd_register_socket_fd`. `mem` and `grow` are answers of the allocator; without memory
nothing is registered. -/
def register (v : Sockets H) (fd : Fd) (readHandle : H) (mem grow : Bool) : Option (Sockets H) :=
  if (v.find fd).isSome then none
  else if mem then some ((v.push ⟨fd, readHandle, readHandle, .wantRead⟩ grow).getD v)
  else some v

/-- `iotc_evtd_unregister_socket_fd` -/
def unregister (v : Sockets H) (fd : Fd) : Sockets H :=
  match v.find fd with
  | some id => v.del id
  | none => v

/-- The tuple at `id` after `f`. -/
def update (v : Sockets H) (id : Nat) (f : FdTuple H → FdTuple H) : Sockets H :=
  { v with array := v.array.modify id f }

/-- `iotc_evtd_continue_when_evt_on_socket`. `none` is the result -1. -/
def continueWhenEvtOnSocket (v : Sockets H) (eventType : EventType) (handle : H) (fd : Fd) :
    Option (Sockets H) :=
  (v.find fd).map fun id => v.update id fun t => { t with eventType := eventType, handle := handle }

/-- `iotc_evtd_update_event_on_socket`: the handle to execute and the container by then. `none` is
`IOTC_FD_HANDLER_NOT_FOUND`. -/
def updateEvent (v : Sockets H) (fd : Fd) : Option (H × Sockets H) :=
  (v.find fd).bind fun id =>
    (v.array[id]?).map fun t =>
      (t.handle, v.update id fun t => { t with eventType := .wantRead, handle := t.readHandle })

/-! ## The descriptors -/

/-- The descriptors that are registered, in the order of the container. -/
def fds (v : Sockets H) : List Fd := v.array.map FdTuple.fd

theorem find_isSome {v : Sockets H} {fd : Fd} : (v.find fd).isSome ↔ fd ∈ v.fds := by
  simp only [find, List.findIdx?_isSome, List.any_eq_true, decide_eq_true_eq, fds, List.mem_map]

theorem find_eq_some {v : Sockets H} {fd : Fd} {id : Nat} (h : v.find fd = some id) :
    ∃ t, v.array[id]? = some t ∧ t.fd = fd := by
  obtain ⟨hlt, hfd, -⟩ := List.findIdx?_eq_some_iff_getElem.1 h
  exact ⟨v.array[id], List.getElem?_eq_getElem hlt, by simpa using hfd⟩

theorem fds_update {v : Sockets H} {id : Nat} {f : FdTuple H → FdTuple H}
    (hf : ∀ t, (f t).fd = t.fd) : (v.update id f).fds = v.fds := by
  refine List.ext_getElem? fun i => ?_
  simp only [fds, update, List.getElem?_map, List.getElem?_modify]
  cases v.array[i]? with
  | none => simp
  | some t =>
    simp only [Option.map_some]
    split <;> simp [hf]

theorem fds_continueWhen {v w : Sockets H} {eventType : EventType} {handle : H} {fd : Fd}
    (h : v.continueWhenEvtOnSocket eventType handle fd = some w) : w.fds = v.fds := by
  obtain ⟨id, -, rfl⟩ := Option.map_eq_some_iff.1 h
  exact fds_update fun _ => rfl

theorem fds_updateEvent {v w : Sockets H} {handle : H} {fd : Fd}
    (h : v.updateEvent fd = some (handle, w)) : w.fds = v.fds := by
  obtain ⟨id, -, h⟩ := Option.bind_eq_some_iff.1 h
  obtain ⟨t, -, h⟩ := Option.map_eq_some_iff.1 h
  obtain ⟨rfl, rfl⟩ := Prod.mk.inj h
  exact fds_update fun _ => rfl

/-- A registered socket can be updated. -/
theorem updateEvent_isSome {v : Sockets H} {fd : Fd} (h : fd ∈ v.fds) :
    (v.updateEvent fd).isSome := by
  obtain ⟨id, hid⟩ := Option.isSome_iff_exists.1 (find_isSome.2 h)
  obtain ⟨t, ht, -⟩ := find_eq_some hid
  rw [updateEvent, hid, Option.bind_some, ht]
  rfl

theorem fds_register {v w : Sockets H} {fd : Fd} {readHandle : H} {mem grow : Bool}
    (h : v.register fd readHandle mem grow = some w) :
    w.fds = v.fds ∨ fd ∉ v.fds ∧ w.fds = v.fds ++ [fd] := by
  unfold register at h
  split at h
  · cases h
  · next hfind =>
    split at h
    · obtain rfl := Option.some.inj h
      cases hpush : v.push ⟨fd, readHandle, readHandle, .wantRead⟩ grow with
      | none => exact .inl rfl
      | some w =>
        refine .inr ⟨fun hfd => hfind (find_isSome.2 hfd), ?_⟩
        rw [Option.getD_some, fds, (IotcVector.push_eq_some hpush).1, List.map_append]
        rfl
    · exact .inl (congrArg fds (Option.some.inj h).symm)

/-- A descriptor that is unregistered leaves the container, and the last one may take its place. -/
theorem unregister_cases (v : Sockets H) (fd : Fd) :
    fd ∉ v.fds ∧ v.unregister fd = v ∨ ∃ L M, v.fds = L ++ fd :: M ∧
      (v.unregister fd).fds.Perm (L ++ M) := by
  unfold unregister
  cases hid : v.find fd with
  | none =>
    refine .inl ⟨fun hfd => ?_, rfl⟩
    have := find_isSome.2 hfd
    rw [hid] at this
    cases this
  | some id =>
    obtain ⟨t, ht, rfl⟩ := find_eq_some hid
    obtain ⟨hlt, rfl⟩ := List.getElem?_eq_some_iff.1 ht
    have hsplit : v.array = v.array.take id ++ v.array[id] :: v.array.drop (id + 1) := by simp
    have hlength : (v.array.take id).length = id := by
      rw [List.length_take]
      omega
    refine .inr ⟨(v.array.take id).map FdTuple.fd, (v.array.drop (id + 1)).map FdTuple.fd, ?_, ?_⟩
    · rw [fds, ← List.map_cons, ← List.map_append, ← hsplit]
    · rcases List.eq_nil_or_concat (v.array.drop (id + 1)) with hnil | ⟨M, z, hM⟩
      · rw [hnil] at hsplit ⊢
        have hdel := IotcVector.del_end hsplit
        rw [hlength] at hdel
        simp only [fds, hdel, List.map_nil, List.append_nil]
        exact .rfl
      · rw [List.concat_eq_append] at hM
        rw [hM] at hsplit ⊢
        have hdel := IotcVector.del_middle hsplit
        rw [hlength] at hdel
        simp only [fds, hdel, List.map_append, List.map_cons, List.map_nil]
        exact (List.perm_append_singleton _ _).symm.append_left _

/-! ## Continuations -/

theorem find_eq (v : Sockets H) (fd : Fd) : v.find fd = v.fds.findIdx? fun x => x = fd := by
  rw [fds, List.findIdx?_map]
  rfl

theorem exists_continueWhen {v : Sockets H} {fd : Fd} (eventType : EventType) (handle : H)
    (h : fd ∈ v.fds) : ∃ w, v.continueWhenEvtOnSocket eventType handle fd = some w := by
  obtain ⟨id, hid⟩ := Option.isSome_iff_exists.mp (find_isSome.mpr h)
  exact ⟨_, by rw [continueWhenEvtOnSocket, hid, Option.map_some]⟩

/-- **What has been registered is what the next event runs.** -/
theorem updateEvent_continueWhen {v w : Sockets H} {eventType : EventType} {handle : H} {fd : Fd}
    (h : v.continueWhenEvtOnSocket eventType handle fd = some w) :
    ∃ w', w.updateEvent fd = some (handle, w') ∧ w'.fds = v.fds := by
  have hfds := fds_continueWhen h
  obtain ⟨id, hid, rfl⟩ := Option.map_eq_some_iff.mp h
  obtain ⟨t, ht, -⟩ := find_eq_some hid
  obtain ⟨w', hw'⟩ : ∃ w', (v.update id fun t =>
      { t with eventType := eventType, handle := handle }).updateEvent fd = some (handle, w') := by
    have hget : (v.update id fun t =>
        { t with eventType := eventType, handle := handle }).array[id]? =
          some { t with eventType := eventType, handle := handle } := by
      simp [update, ht]
    rw [updateEvent, find_eq, hfds, ← find_eq, hid, Option.bind_some, hget]
    exact ⟨_, rfl⟩
  exact ⟨w', hw', (fds_updateEvent hw').trans hfds⟩

end Sockets

end IotDeviceSdk.EventDispatcher
