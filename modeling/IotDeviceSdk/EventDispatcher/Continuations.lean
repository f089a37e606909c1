import IotDeviceSdk.EventDispatcher.Dispatcher
import IotDeviceSdk.EventDispatcher.Sockets
import IotDeviceSdk.Infra.OneShot
import IotDeviceSdk.Infra.Run

/-!
# Continuations that handlers register

A dispatcher has a slot for the handler that is run when there is nothing left to do, and one for
each of its sockets. What a handler registers is to be run once, at the next event. The slot of a
socket is set back before its handler is run. The slot `on_empty` is cleared after its handler was
run, and with it what this handler registered.
-/

namespace IotDeviceSdk.EventDispatcher

open Datastructures Infra

variable {H : Type}

/-- A call of the interface for sockets. `mem` and `grow` are answers of the allocator. -/
inductive SocketCall (H : Type) where
  | register (fd : Fd) (readHandle : H) (mem grow : Bool)
  | unregister (fd : Fd)
  | continueWhen (eventType : EventType) (handle : H) (fd : Fd)
  deriving DecidableEq, Repr

namespace Sockets

/-- One call, and what happens to the slots. -/
def call (v : Sockets H) : SocketCall H → Option (Sockets H × List (Fd × SlotEntry H))
  | .register fd readHandle mem grow => (v.register fd readHandle mem grow).map fun w =>
      (w, if (w.find fd).isSome then [(fd, .opened readHandle)] else [])
  | .unregister fd => some (v.unregister fd, if (v.find fd).isSome then [(fd, .closed)] else [])
  | .continueWhen eventType handle fd =>
    some ((v.continueWhenEvtOnSocket eventType handle fd).getD v,
      if (v.find fd).isSome then [(fd, .set handle)] else [])

/-- The calls of a handler. -/
def calls (v : Sockets H) : List (SocketCall H) → Option (Sockets H × List (Fd × SlotEntry H))
  | [] => some (v, [])
  | c :: cs => (v.call c).bind fun r => (calls r.1 cs).map fun t => (t.1, r.2 ++ t.2)

end Sockets

/-- What the calls of a handler register for `on_empty`. -/
def continuations (calls : List (Call H)) : List (Option H) :=
  calls.filterMap fun
    | .continueWhenEmpty handle => some handle
    | _ => none

/-- What the calls of a handler do to the slot `on_empty`. -/
def registrations (calls : List (Call H)) : List (SlotEntry (Option H)) :=
  (continuations calls).map .set

/-- What the handlers of a script did to that slot, when `rest` of the script is left. -/
def registeredBy (script rest : List (Reaction H)) : List (SlotEntry (Option H)) :=
  (script.take (script.length - rest.length)).flatMap fun r => registrations r.calls

/-- What happened to the slot of one socket. -/
def logOf (log : List (Fd × SlotEntry H)) (fd : Fd) : List (SlotEntry H) :=
  (log.filter fun x => x.1 = fd).map Prod.snd

/-- A dispatcher with its sockets, and what happened to its slots. -/
structure Watched (H : Type) where
  evtd : Evtd H
  sockets : Sockets H
  onEmptyLog : List (SlotEntry (Option H))
  socketLog : List (Fd × SlotEntry H)

/-- What a dispatcher goes through: a step, whose handlers make `socketCalls` beside what is in the
script; a step of the call queue alone; an event on a socket, whose handler makes the calls; and
calls from elsewhere. -/
inductive Event (H : Type) where
  | step (newStep : Int) (script : List (Reaction H)) (socketCalls : List (SocketCall H))
  | singleStep (newStep : Int) (r : Reaction H) (socketCalls : List (SocketCall H))
  | socket (fd : Fd) (calls : List (Call H)) (socketCalls : List (SocketCall H))
  | call (c : Call H)
  | socketCall (c : SocketCall H)

namespace Watched

/-- A new dispatcher. -/
def create (memory : EventPtr → TimeEvent H) : Watched H :=
  ⟨.create memory, .create, [.opened none], []⟩

/-- The slots after the calls `calls` and `socketCalls` of a handler. -/
def after (w : Watched H) (calls : List (Call H)) (socketCalls : List (SocketCall H)) :
    Option (Watched H) :=
  (w.evtd.calls calls).bind fun s => (w.sockets.calls socketCalls).map fun v =>
    { evtd := s.1, sockets := v.1, onEmptyLog := w.onEmptyLog ++ registrations calls,
      socketLog := w.socketLog ++ v.2 }

/-- The end of `iotc_evtd_step`: when no time event is left, the slot `on_empty` is fired. -/
def finish (script : List (Reaction H)) (w : Watched H) : Option (Watched H) :=
  (w.evtd.runOnEmpty script).map fun o =>
    { w with
      evtd := o.1
      onEmptyLog := w.onEmptyLog ++
        if w.evtd.timeEvents.array = [] then
          .fired w.evtd.onEmpty :: registeredBy script o.2.2
        else [] }

/-- `iotc_evtd_step` -/
def evtdStep (w : Watched H) (newStep : Int) (script : List (Reaction H)) : Option (Watched H) :=
  (w.evtd.drain script newStep).bind fun d =>
    finish d.2.2 { w with
      evtd := d.1
      onEmptyLog := w.onEmptyLog ++ registeredBy script d.2.2 }

/-- One event. -/
def step (w : Watched H) : Event H → Option (Watched H)
  | .step newStep script socketCalls =>
    (w.evtdStep newStep script).bind fun w => w.after [] socketCalls
  | .singleStep newStep r socketCalls =>
    match w.evtd.callQueue with
    | [] => some { w with evtd := { w.evtd with currentStep := newStep } }
    | _ :: queue =>
      after { w with evtd := { w.evtd with currentStep := newStep, callQueue := queue } } r.calls
        socketCalls
  | .socket fd calls socketCalls =>
    match w.sockets.updateEvent fd with
    | none => some { w with evtd := { w.evtd with stop := true } }
    | some (handle, v) =>
      after { w with sockets := v, socketLog := w.socketLog ++ [(fd, .fired handle)] } calls
        socketCalls
  | .call c => w.after [c] []
  | .socketCall c => w.after [] [c]

end Watched

/-- The step of the dispatcher is the one that is watched. -/
theorem Watched.evtdStep_evtd (w : Watched H) (newStep : Int) (script : List (Reaction H)) :
    (w.evtdStep newStep script).map Watched.evtd = (w.evtd.step script newStep).map Prod.fst := by
  unfold Watched.evtdStep Watched.finish Evtd.step
  cases w.evtd.drain script newStep with
  | none => rfl
  | some d =>
    obtain ⟨s, log, rest⟩ := d
    simp only [Option.bind_some, Option.map_map, Option.bind_eq_bind]
    cases s.runOnEmpty rest with
    | none => rfl
    | some o => rfl

/-! ## What is registered for `on_empty` -/

theorem registrations_cons (c : Call H) (cs : List (Call H)) :
    registrations (c :: cs) = registrations [c] ++ registrations cs := by
  rw [registrations, continuations, ← List.singleton_append, List.filterMap_append, List.map_append]
  rfl

theorem registrations_quiet {calls : List (Call H)} : ∀ e ∈ registrations calls, e.Quiet := by
  intro e he
  obtain ⟨h, -, rfl⟩ := List.mem_map.1 he
  trivial

theorem registeredBy_append (used rest : List (Reaction H)) :
    registeredBy (used ++ rest) rest = used.flatMap fun r => registrations r.calls := by
  rw [registeredBy, List.length_append, Nat.add_sub_cancel, List.take_left]

theorem registeredBy_quiet {script rest : List (Reaction H)} :
    ∀ e ∈ registeredBy script rest, e.Quiet := by
  intro e he
  obtain ⟨r, -, hr⟩ := List.mem_flatMap.1 he
  exact registrations_quiet e hr

namespace Evtd

variable {s s' : Evtd H} {log : List (Entry H)}

/-- The slot `on_empty` after more entries. -/
def registered (entries : List (SlotEntry (Option H))) (s : Evtd H) :
    Option (Option H × Option H) :=
  entries.foldl SlotEntry.apply (some (none, s.onEmpty))

theorem registered_append {entries more : List (SlotEntry (Option H))}
    (h : registered entries s = some (none, s'.onEmpty)) :
    registered (entries ++ more) s = registered more s' := by
  unfold registered at h ⊢
  rw [List.foldl_append, h]

theorem call_onEmpty {c : Call H} (h : s.call c = some (s', log)) :
    registered (registrations [c]) s = some (none, s'.onEmpty) := by
  cases c with
  | execute handle mem =>
    obtain ⟨rfl, -⟩ := Prod.mk.inj (Option.some.inj h)
    cases mem <;> rfl
  | executeIn handle timeDiff j mem grow =>
    cases mem with
    | false =>
      obtain ⟨rfl, -⟩ := Prod.mk.inj (Option.some.inj h)
      rfl
    | true =>
      obtain ⟨c, -, h⟩ := Option.bind_eq_some_iff.1 h
      obtain ⟨rfl, -⟩ := Prod.mk.inj (Option.some.inj h)
      rfl
  | cancel j =>
    obtain ⟨c, -, h⟩ := Option.bind_eq_some_iff.1 h
    obtain ⟨rfl, -⟩ := Prod.mk.inj (Option.some.inj h)
    rfl
  | restart j newTime =>
    obtain ⟨c, -, h⟩ := Option.bind_eq_some_iff.1 h
    obtain ⟨rfl, -⟩ := Prod.mk.inj (Option.some.inj h)
    rfl
  | continueWhenEmpty handle =>
    obtain ⟨rfl, -⟩ := Prod.mk.inj (Option.some.inj h)
    rfl
  | stop =>
    obtain ⟨rfl, -⟩ := Prod.mk.inj (Option.some.inj h)
    rfl

theorem calls_onEmpty : ∀ {cs : List (Call H)} {s s' : Evtd H} {log : List (Entry H)},
    s.calls cs = some (s', log) → registered (registrations cs) s = some (none, s'.onEmpty)
  | [], s, s', log, h => by
    obtain ⟨rfl, -⟩ := Prod.mk.inj (Option.some.inj h)
    rfl
  | c :: cs, s, s', log, h => by
    obtain ⟨⟨s₁, log₁⟩, h₁, h⟩ := Option.bind_eq_some_iff.1 h
    obtain ⟨⟨s₂, log₂⟩, h₂, h⟩ := Option.bind_eq_some_iff.1 h
    obtain ⟨rfl, -⟩ := Prod.mk.inj (Option.some.inj h)
    rw [registrations_cons, registered_append (call_onEmpty h₁)]
    exact calls_onEmpty h₂

/-- The handlers that a loop ran, and what is in the slot by then. -/
def Registers (script rest : List (Reaction H)) (s s' : Evtd H) : Prop :=
  ∃ used, script = used ++ rest ∧
    registered (used.flatMap fun r => registrations r.calls) s = some (none, s'.onEmpty)

theorem Registers.refl {script : List (Reaction H)} (h : s'.onEmpty = s.onEmpty) :
    Registers script script s s' := by
  refine ⟨[], rfl, ?_⟩
  rw [h]
  rfl

/-- One handler is run first. -/
theorem Registers.cons {script rest : List (Reaction H)} {s₁ : Evtd H} {r : Reaction H}
    (hr : registered (registrations r.calls) s = some (none, s₁.onEmpty))
    (h : Registers script rest s₁ s') : Registers (r :: script) rest s s' := by
  obtain ⟨used, rfl, hused⟩ := h
  refine ⟨r :: used, rfl, ?_⟩
  rw [List.flatMap_cons, registered_append hr, hused]

theorem Registers.trans {script middle rest : List (Reaction H)} {s₁ : Evtd H}
    (h₁ : Registers script middle s s₁) (h₂ : Registers middle rest s₁ s') :
    Registers script rest s s' := by
  obtain ⟨used, rfl, hused⟩ := h₁
  obtain ⟨more, rfl, hmore⟩ := h₂
  refine ⟨used ++ more, (List.append_assoc _ _ _).symm, ?_⟩
  rw [List.flatMap_append, registered_append hused, hmore]

theorem Registers.registeredBy {script rest : List (Reaction H)} (h : Registers script rest s s') :
    registered (registeredBy script rest) s = some (none, s'.onEmpty) := by
  obtain ⟨used, rfl, hused⟩ := h
  rw [registeredBy_append, hused]

theorem timedLoop_onEmpty : ∀ {script rest : List (Reaction H)} {s s' : Evtd H}
    {log : List (Entry H)}, timedLoop script s = some (s', log, rest) →
      Registers script rest s s' := by
  intro script
  induction script with
  | nil =>
    intro rest s s' log h
    rw [timedLoop.eq_def] at h
    cases hpeek : s.timeEvents.peekTop with
    | none =>
      simp only [hpeek, Option.some.injEq, Prod.mk.injEq] at h
      obtain ⟨rfl, -, rfl⟩ := h
      exact .refl rfl
    | some e =>
      simp only [hpeek] at h
      split at h
      · cases h
      · simp only [Option.some.injEq, Prod.mk.injEq] at h
        obtain ⟨rfl, -, rfl⟩ := h
        exact .refl rfl
  | cons r script ih =>
    intro rest s s' log h
    rw [timedLoop.eq_def] at h
    cases hpeek : s.timeEvents.peekTop with
    | none =>
      simp only [hpeek, Option.some.injEq, Prod.mk.injEq] at h
      obtain ⟨rfl, -, rfl⟩ := h
      exact .refl rfl
    | some e =>
      simp only [hpeek] at h
      split at h
      · obtain ⟨⟨c, top⟩, -, h⟩ := Option.bind_eq_some_iff.1 h
        obtain ⟨⟨s₁, log₁⟩, h₁, h⟩ := Option.bind_eq_some_iff.1 h
        obtain ⟨⟨s₂, log₂, rest₂⟩, h₂, h⟩ := Option.bind_eq_some_iff.1 h
        obtain ⟨rfl, -, rfl⟩ : s₂ = s' ∧ _ = log ∧ rest₂ = rest := by simpa using Option.some.inj h
        have hcalls := calls_onEmpty h₁
        exact (ih h₂).cons hcalls
      · simp only [Option.some.injEq, Prod.mk.injEq] at h
        obtain ⟨rfl, -, rfl⟩ := h
        exact .refl rfl

theorem queueLoop_onEmpty {newStep : Int} : ∀ {script rest : List (Reaction H)} {s s' : Evtd H}
    {log : List (Entry H)}, queueLoop newStep script s = some (s', log, rest) →
      Registers script rest s s' := by
  intro script
  induction script with
  | nil =>
    intro rest s s' log h
    rw [queueLoop.eq_def] at h
    cases hqueue : s.callQueue with
    | nil =>
      simp only [hqueue, Option.some.injEq, Prod.mk.injEq] at h
      obtain ⟨rfl, -, rfl⟩ := h
      exact .refl rfl
    | cons first queue =>
      simp only [hqueue] at h
      cases h
  | cons r script ih =>
    intro rest s s' log h
    rw [queueLoop.eq_def] at h
    cases hqueue : s.callQueue with
    | nil =>
      simp only [hqueue, Option.some.injEq, Prod.mk.injEq] at h
      obtain ⟨rfl, -, rfl⟩ := h
      exact .refl rfl
    | cons first queue =>
      simp only [hqueue] at h
      obtain ⟨⟨s₁, log₁⟩, h₁, h⟩ := Option.bind_eq_some_iff.1 h
      obtain ⟨⟨s₂, log₂, rest₂⟩, h₂, h⟩ := Option.bind_eq_some_iff.1 h
      obtain ⟨rfl, -, rfl⟩ : s₂ = s' ∧ _ = log ∧ rest₂ = rest := by simpa using Option.some.inj h
      obtain ⟨⟨s₃, log₃⟩, h₃, h₁⟩ := Option.bind_eq_some_iff.1 h₁
      obtain ⟨rfl, -⟩ := Prod.mk.inj (Option.some.inj h₁)
      have hcalls := calls_onEmpty h₃
      exact (ih h₂).cons hcalls

/-- **Until the handler `on_empty` is run, the slot holds what was registered last.** -/
theorem drain_onEmpty {script rest : List (Reaction H)} {newStep : Int}
    (h : s.drain script newStep = some (s', log, rest)) : Registers script rest s s' := by
  obtain ⟨⟨s₁, log₁, script₁⟩, h₁, h⟩ := Option.bind_eq_some_iff.1 h
  obtain ⟨⟨s₂, log₂, script₂⟩, h₂, h⟩ := Option.bind_eq_some_iff.1 h
  obtain ⟨rfl, -, rfl⟩ : s₂ = s' ∧ _ ∧ script₂ = rest := by simpa using Option.some.inj h
  obtain ⟨used, hscript, hused⟩ := timedLoop_onEmpty h₁
  exact .trans ⟨used, hscript, hused⟩ (queueLoop_onEmpty h₂)

end Evtd

/-! ## The slots of the sockets -/

namespace Sockets

variable {v w : Sockets H} {fd x : Fd}

/-- The tuple of a descriptor. -/
def tuple (v : Sockets H) (fd : Fd) : Option (FdTuple H) := v.array.find? fun t => t.fd = fd

/-- The slot of a descriptor: the handle that is run by default, and the one that is run next. -/
def slot (v : Sockets H) (fd : Fd) : Option (H × H) :=
  (v.tuple fd).map fun t => (t.readHandle, t.handle)

theorem tuple_eq_some (hnodup : v.fds.Nodup) {t : FdTuple H} :
    v.tuple fd = some t ↔ t ∈ v.array ∧ t.fd = fd := by
  constructor
  · intro h
    exact ⟨List.mem_of_find?_eq_some h, by simpa using List.find?_some h⟩
  · rintro ⟨ht, rfl⟩
    cases h : v.tuple t.fd with
    | none =>
      have hne := List.find?_eq_none.1 h t ht
      simp at hne
    | some u =>
      have hu : u ∈ v.array ∧ u.fd = t.fd :=
        ⟨List.mem_of_find?_eq_some h, by simpa using List.find?_some h⟩
      exact congrArg some (List.inj_on_of_nodup_map hnodup hu.1 ht hu.2)

theorem tuple_eq_none : v.tuple fd = none ↔ fd ∉ v.fds := by
  simp [tuple, fds, List.find?_eq_none]

theorem find_eq_none : v.find fd = none ↔ v.tuple fd = none := by
  rw [tuple_eq_none, ← find_isSome, Option.not_isSome_iff_eq_none]

/-- The descriptor is found, and nothing before it has its number. -/
theorem exists_of_find {id : Nat} (h : v.find fd = some id) :
    ∃ L t M, v.array = L ++ t :: M ∧ L.length = id ∧ t.fd = fd ∧ v.tuple fd = some t ∧
      ∀ u ∈ L, u.fd ≠ fd := by
  obtain ⟨hlt, hfd, hbefore⟩ := List.findIdx?_eq_some_iff_getElem.1 h
  obtain ⟨L, t, M, harray, hL⟩ := exists_eq_append_cons hlt
  have ht : t.fd = fd := by simpa [harray, hL] using hfd
  have hne : ∀ u ∈ L, u.fd ≠ fd := by
    intro u hu heq
    obtain ⟨j, hj, rfl⟩ := List.getElem_of_mem hu
    have := hbefore j (by omega)
    simp [harray, List.getElem_append_left hj, heq] at this
  refine ⟨L, t, M, harray, hL, ht, ?_, hne⟩
  have hnone : L.find? (fun t => t.fd = fd) = none := by simpa [List.find?_eq_none] using hne
  rw [tuple, harray, List.find?_append, hnone, Option.none_or, List.find?_cons_of_pos (by simpa)]

theorem tuple_update {id : Nat} {f : FdTuple H → FdTuple H} (hf : ∀ t, (f t).fd = t.fd)
    (h : v.find fd = some id) :
    (v.update id f).tuple x = if x = fd then (v.tuple x).map f else v.tuple x := by
  obtain ⟨L, t, M, harray, rfl, rfl, htuple, hne⟩ := exists_of_find h
  have hupdate : (v.update L.length f).array = L ++ f t :: M := by
    rw [update, harray, List.modify_eq_take_cons_drop (by simp)]
    simp
  by_cases hx : x = t.fd
  · subst hx
    have hnone : L.find? (fun u => u.fd = t.fd) = none := by simpa [List.find?_eq_none] using hne
    rw [if_pos rfl, htuple, tuple, hupdate, List.find?_append, hnone, Option.none_or,
      List.find?_cons_of_pos (by simpa using hf t)]
    rfl
  · rw [if_neg hx, tuple, tuple, hupdate, harray, List.find?_append, List.find?_append,
      List.find?_cons_of_neg (by simpa [hf t] using Ne.symm hx),
      List.find?_cons_of_neg (by simpa using Ne.symm hx)]

theorem slot_continueWhen {eventType : EventType} {handle : H} :
    ((v.continueWhenEvtOnSocket eventType handle fd).getD v).slot x =
      if x = fd then (v.slot x).map (fun s => (s.1, handle)) else v.slot x := by
  cases h : v.find fd with
  | none =>
    rw [continueWhenEvtOnSocket, h, Option.map_none, Option.getD_none]
    split
    · next heq =>
      subst heq
      rw [slot, find_eq_none.1 h]
      rfl
    · rfl
  | some id =>
    rw [continueWhenEvtOnSocket, h, Option.map_some, Option.getD_some, slot,
      tuple_update (by exact fun _ => rfl) h, slot]
    split
    · rw [Option.map_map, Option.map_map]
      rfl
    · rfl

theorem slot_updateEvent {handle : H} (h : v.updateEvent fd = some (handle, w)) :
    (∃ d, v.slot fd = some (d, handle)) ∧
      w.slot x = if x = fd then (v.slot x).map (fun s => (s.1, s.1)) else v.slot x := by
  obtain ⟨id, hid, h⟩ := Option.bind_eq_some_iff.1 h
  obtain ⟨t, ht, h⟩ := Option.map_eq_some_iff.1 h
  obtain ⟨rfl, rfl⟩ := Prod.mk.inj h
  obtain ⟨L, u, M, harray, rfl, -, htuple, -⟩ := exists_of_find hid
  obtain rfl : u = t := by simpa [harray] using ht
  refine ⟨⟨u.readHandle, by rw [slot, htuple]; rfl⟩, ?_⟩
  rw [slot, tuple_update (by exact fun _ => rfl) hid, slot]
  split
  · rw [Option.map_map, Option.map_map]
    rfl
  · rfl

theorem slot_unregister (hnodup : v.fds.Nodup) (fd x : Fd) :
    (v.unregister fd).fds.Nodup ∧
      (v.unregister fd).slot x = if x = fd then none else v.slot x := by
  unfold unregister
  cases h : v.find fd with
  | none =>
    refine ⟨hnodup, ?_⟩
    by_cases hx : x = fd
    · subst hx
      rw [if_pos rfl, slot, find_eq_none.1 h]
      rfl
    · rw [if_neg hx]
  | some id =>
    obtain ⟨L, t, M, harray, rfl, rfl, -, -⟩ := exists_of_find h
    have hget : v.array[L.length]? = some t := by simp [harray]
    have hperm : v.array.Perm (t :: (v.del L.length).array) := by
      rw [IotcVector.del_eq]
      exact swapDelete_perm hget
    have hnodup' : (t.fd :: fds (v.del L.length)).Nodup :=
      (hperm.map FdTuple.fd).nodup_iff.1 hnodup
    rw [List.nodup_cons] at hnodup'
    refine ⟨hnodup'.2, ?_⟩
    by_cases hx : x = t.fd
    · subst hx
      have hnone : tuple (v.del L.length) t.fd = none := tuple_eq_none.2 hnodup'.1
      rw [if_pos rfl, slot, hnone]
      rfl
    · rw [if_neg hx]
      refine congrArg (Option.map _) (Option.ext fun u => ?_)
      rw [tuple_eq_some hnodup'.2, tuple_eq_some hnodup, hperm.mem_iff, List.mem_cons]
      constructor
      · rintro ⟨hu, rfl⟩
        exact ⟨.inr hu, rfl⟩
      · rintro ⟨rfl | hu, rfl⟩
        · exact absurd rfl hx
        · exact ⟨hu, rfl⟩

/-- A new tuple is put behind the others, if there is room. -/
theorem slot_push (hnodup : v.fds.Nodup) {t : FdTuple H} (hfind : v.find t.fd = none) {grow : Bool}
    (h : (v.push t grow).getD v = w) :
    w.fds.Nodup ∧ (w = v ∧ w.find t.fd = none ∨ (w.find t.fd).isSome ∧
      ∀ x, w.slot x = if x = t.fd then some (t.readHandle, t.handle) else v.slot x) := by
  cases hpush : v.push t grow with
  | none =>
    rw [hpush] at h
    subst h
    exact ⟨hnodup, .inl ⟨rfl, hfind⟩⟩
  | some u =>
    rw [hpush, Option.getD_some] at h
    subst h
    have harray := (IotcVector.push_eq_some hpush).1
    have hfds : fds u = v.fds ++ [t.fd] := by
      rw [fds, harray, List.map_append]
      rfl
    have hnew : t.fd ∉ v.fds := tuple_eq_none.1 (find_eq_none.1 hfind)
    refine ⟨?_, .inr ⟨find_isSome.2 (by simp [hfds]), fun x => ?_⟩⟩
    · rw [hfds, List.nodup_append]
      refine ⟨hnodup, List.nodup_singleton _, fun y hy z hz heq => hnew ?_⟩
      rwa [← List.mem_singleton.1 hz, ← heq]
    · rw [slot, tuple, harray, List.find?_append]
      by_cases hx : x = t.fd
      · subst hx
        have hnone : v.array.find? (fun u => u.fd = t.fd) = none := find_eq_none.1 hfind
        rw [if_pos rfl, hnone, Option.none_or, List.find?_cons_of_pos (by simp)]
        rfl
      · rw [if_neg hx, List.find?_cons_of_neg (by simpa using Ne.symm hx), List.find?_nil,
          Option.or_none]
        rfl

theorem slot_register (hnodup : v.fds.Nodup) {readHandle : H} {mem grow : Bool}
    (h : v.register fd readHandle mem grow = some w) :
    w.fds.Nodup ∧ (w = v ∧ w.find fd = none ∨ (w.find fd).isSome ∧
      ∀ x, w.slot x = if x = fd then some (readHandle, readHandle) else v.slot x) := by
  unfold register at h
  split at h
  · cases h
  · next hfind =>
    rw [Option.not_isSome_iff_eq_none] at hfind
    split at h
    · exact slot_push hnodup hfind (Option.some.inj h)
    · obtain rfl := Option.some.inj h
      exact ⟨hnodup, .inl ⟨rfl, hfind⟩⟩

end Sockets

theorem logOf_append (log more : List (Fd × SlotEntry H)) (fd : Fd) :
    logOf (log ++ more) fd = logOf log fd ++ logOf more fd := by
  rw [logOf, List.filter_append, List.map_append]
  rfl

theorem logOf_singleton (fd x : Fd) (e : SlotEntry H) :
    logOf [(fd, e)] x = if x = fd then [e] else [] := by
  by_cases hx : x = fd
  · simp [logOf, hx]
  · simp [logOf, hx, Ne.symm hx]

namespace Sockets

variable {v w : Sockets H} {log more : List (Fd × SlotEntry H)}

/-- The slots of the sockets are what their histories say, and what was run is what they held. -/
structure Kept (v : Sockets H) (log : List (Fd × SlotEntry H)) : Prop where
  nodup : v.fds.Nodup
  slots : ∀ fd, SlotEntry.slot (logOf log fd) = v.slot fd
  honest : ∀ fd, SlotEntry.Honest (logOf log fd)

theorem kept_create : Kept (H := H) .create [] where
  nodup := List.nodup_nil
  slots _ := rfl
  honest _ := SlotEntry.honest_nil

/-- What happens to one slot. -/
theorem Kept.concat {fd : Fd} {e : SlotEntry H} (hk : v.Kept log) (hnodup : w.fds.Nodup)
    (hslot : ∀ x, w.slot x = if x = fd then SlotEntry.apply (v.slot x) e else v.slot x)
    (he : ∀ h, e = .fired h → ∃ d, v.slot fd = some (d, h)) : w.Kept (log ++ [(fd, e)]) := by
  refine ⟨hnodup, fun x => ?_, fun x => ?_⟩
  · rw [hslot, logOf_append, logOf_singleton]
    by_cases hx : x = fd
    · rw [if_pos hx, if_pos hx, SlotEntry.slot_concat, hk.slots]
    · rw [if_neg hx, if_neg hx, List.append_nil, hk.slots]
  · rw [logOf_append, logOf_singleton]
    by_cases hx : x = fd
    · subst hx
      rw [if_pos rfl]
      refine (hk.honest x).concat fun h hfired => ?_
      rw [hk.slots]
      exact he h hfired
    · rw [if_neg hx, List.append_nil]
      exact hk.honest x

theorem Kept.call {c : SocketCall H} (hk : v.Kept log) (h : v.call c = some (w, more)) :
    w.Kept (log ++ more) := by
  cases c with
  | register fd readHandle mem grow =>
    obtain ⟨u, hu, h⟩ := Option.map_eq_some_iff.1 h
    obtain ⟨rfl, rfl⟩ := Prod.mk.inj h
    obtain ⟨hnodup, ⟨rfl, hnone⟩ | ⟨hsome, hslot⟩⟩ := slot_register hk.nodup hu
    · rw [hnone, Option.isSome_none, if_neg Bool.false_ne_true, List.append_nil]
      exact hk
    · rw [if_pos hsome]
      refine hk.concat hnodup hslot ?_
      rintro _ ⟨⟩
  | unregister fd =>
    obtain ⟨rfl, rfl⟩ := Prod.mk.inj (Option.some.inj h)
    have hunregister := slot_unregister hk.nodup fd
    cases hfind : v.find fd with
    | none =>
      have hsame : v.unregister fd = v := by rw [unregister, hfind]
      rw [hsame, Option.isSome_none, if_neg Bool.false_ne_true, List.append_nil]
      exact hk
    | some id =>
      rw [Option.isSome_some, if_pos rfl]
      refine hk.concat (hunregister fd).1 (fun x => (hunregister x).2) ?_
      rintro _ ⟨⟩
  | continueWhen eventType handle fd =>
    obtain ⟨rfl, rfl⟩ := Prod.mk.inj (Option.some.inj h)
    cases hfind : v.find fd with
    | none =>
      have hsame : v.continueWhenEvtOnSocket eventType handle fd = none := by
        rw [continueWhenEvtOnSocket, hfind, Option.map_none]
      rw [hsame, Option.getD_none, Option.isSome_none, if_neg Bool.false_ne_true, List.append_nil]
      exact hk
    | some id =>
      have hsome : v.continueWhenEvtOnSocket eventType handle fd = some (v.update id fun t =>
          { t with eventType := eventType, handle := handle }) := by
        rw [continueWhenEvtOnSocket, hfind, Option.map_some]
      rw [Option.isSome_some, if_pos rfl]
      refine hk.concat ?_ (fun _ => slot_continueWhen) ?_
      · rw [hsome, Option.getD_some, fds_continueWhen hsome]
        exact hk.nodup
      · rintro _ ⟨⟩

theorem Kept.calls : ∀ {cs : List (SocketCall H)} {v w : Sockets H}
    {log more : List (Fd × SlotEntry H)}, v.Kept log → v.calls cs = some (w, more) →
      w.Kept (log ++ more)
  | [], v, w, log, more, hk, h => by
    obtain ⟨rfl, rfl⟩ := Prod.mk.inj (Option.some.inj h)
    rwa [List.append_nil]
  | c :: cs, v, w, log, more, hk, h => by
    obtain ⟨⟨v₁, more₁⟩, h₁, h⟩ := Option.bind_eq_some_iff.1 h
    obtain ⟨⟨v₂, more₂⟩, h₂, h⟩ := Option.map_eq_some_iff.1 h
    obtain ⟨rfl, rfl⟩ := Prod.mk.inj h
    rw [← List.append_assoc]
    exact (hk.call h₁).calls h₂

/-- The slot is set back before its handler is run. -/
theorem Kept.updateEvent {fd : Fd} {handle : H} (hk : v.Kept log)
    (h : v.updateEvent fd = some (handle, w)) : w.Kept (log ++ [(fd, .fired handle)]) := by
  refine hk.concat ?_ (fun x => (slot_updateEvent (x := x) h).2) ?_
  · rw [fds_updateEvent h]
    exact hk.nodup
  · rintro _ ⟨⟩
    exact (slot_updateEvent (x := fd) h).1

end Sockets

/-! ## Runs of a dispatcher -/

namespace Watched

variable {w w' : Watched H}

/-- **What is registered stays until it is run, and it is run once, at the next event.** The slots
hold what their histories say, and every event ran what was in its slot. -/
structure Faithful (w : Watched H) : Prop where
  onEmpty : SlotEntry.slot w.onEmptyLog = some (none, w.evtd.onEmpty)
  honest : SlotEntry.Honest w.onEmptyLog
  sockets : w.sockets.Kept w.socketLog

/-- The handler `on_empty` that a step runs does not leave a continuation in its own slot. -/
def Disposes (w : Watched H) : Event H → Prop
  | .step newStep script _ => ∀ d ∈ w.evtd.drain script newStep, d.1.timeEvents.array = [] →
      d.1.onEmpty.isSome → ∀ r ∈ d.2.2.head?, (continuations r.calls).getLastD none = none
  | _ => True

theorem faithful_create (memory : EventPtr → TimeEvent H) : (create memory).Faithful where
  onEmpty := rfl
  honest := SlotEntry.honest_nil.concat (by rintro _ ⟨⟩)
  sockets := Sockets.kept_create

theorem Faithful.after {cs : List (Call H)} {socketCalls : List (SocketCall H)} (hf : w.Faithful)
    (h : w.after cs socketCalls = some w') : w'.Faithful := by
  obtain ⟨⟨s, log⟩, hs, h⟩ := Option.bind_eq_some_iff.1 h
  obtain ⟨⟨v, more⟩, hv, rfl⟩ := Option.map_eq_some_iff.1 h
  refine ⟨?_, hf.honest.append registrations_quiet, hf.sockets.calls hv⟩
  rw [SlotEntry.slot_append, hf.onEmpty]
  exact Evtd.calls_onEmpty hs

/-- The calls that are not registrations leave the slot `on_empty`. -/
theorem after_nil {socketCalls : List (SocketCall H)} (h : w.after [] socketCalls = some w') :
    w'.evtd = w.evtd ∧ w'.onEmptyLog = w.onEmptyLog ∧
      (w.sockets.Kept w.socketLog → w'.sockets.Kept w'.socketLog) := by
  obtain ⟨⟨s, log⟩, hs, h⟩ := Option.bind_eq_some_iff.1 h
  obtain ⟨rfl, -⟩ := Prod.mk.inj (Option.some.inj hs)
  obtain ⟨⟨v, more⟩, hv, rfl⟩ := Option.map_eq_some_iff.1 h
  exact ⟨rfl, List.append_nil _, fun hk => hk.calls hv⟩

/-- **The slot `on_empty` is kept exactly when the handler that was run there left nothing in it.** -/
theorem Faithful.finish {script : List (Reaction H)} (hf : w.Faithful)
    (h : w.finish script = some w') :
    w'.Faithful ↔ (w.evtd.timeEvents.array = [] → w.evtd.onEmpty.isSome →
      ∀ r ∈ script.head?, (continuations r.calls).getLastD none = none) := by
  obtain ⟨⟨s, log, rest⟩, ho, rfl⟩ := Option.map_eq_some_iff.1 h
  unfold Evtd.runOnEmpty at ho
  -- an event on the slot: it fires what the slot holds
  have hfires : SlotEntry.Honest (w.onEmptyLog ++ [.fired w.evtd.onEmpty]) :=
    hf.honest.concat fun _ hfired => ⟨none, by rw [hf.onEmpty, SlotEntry.fired.inj hfired]⟩
  have hfired : SlotEntry.slot (w.onEmptyLog ++ [.fired w.evtd.onEmpty]) = some (none, none) := by
    rw [SlotEntry.slot_concat, hf.onEmpty]
    rfl
  by_cases harray : w.evtd.timeEvents.array = []
  · rw [if_pos harray]
    cases hempty : w.evtd.onEmpty with
    | none =>
      simp only [harray, hempty, Option.some.injEq, Prod.mk.injEq] at ho
      obtain ⟨rfl, -, rfl⟩ := ho
      have hnothing : registeredBy script script = [] := registeredBy_append [] script
      rw [hempty] at hfires hfired
      rw [hnothing]
      refine iff_of_true ⟨?_, hfires, hf.sockets⟩ fun _ hsome => absurd hsome (by simp)
      rw [hfired, hempty]
    | some handle =>
      cases script with
      | nil => simp [harray, hempty] at ho
      | cons r script =>
        simp only [harray, hempty] at ho
        obtain ⟨⟨s₁, log₁⟩, -, ho⟩ := Option.bind_eq_some_iff.1 ho
        obtain ⟨rfl, -, rfl⟩ : _ = s ∧ _ = log ∧ script = rest := by simpa using Option.some.inj ho
        have hregistered : registeredBy (r :: script) script = registrations r.calls := by
          have := registeredBy_append [r] script
          rwa [List.flatMap_singleton] at this
        rw [hempty] at hfires hfired
        rw [hregistered, ← List.singleton_append, ← List.append_assoc]
        have hslot : SlotEntry.slot (w.onEmptyLog ++ [.fired (some handle)] ++
            registrations r.calls) = some (none, (continuations r.calls).getLastD none) := by
          rw [SlotEntry.slot_append, hfired, registrations, SlotEntry.foldl_set]
        constructor
        · rintro ⟨honEmpty, -, -⟩ - - r' hr'
          obtain rfl := Option.some.inj hr'
          rw [hslot] at honEmpty
          exact (Prod.mk.inj (Option.some.inj honEmpty)).2
        · intro hlast
          have hnone := hlast harray rfl r rfl
          rw [hnone] at hslot
          exact ⟨hslot, hfires.append registrations_quiet, hf.sockets⟩
  · rw [if_neg harray, List.append_nil]
    have hsame : s = w.evtd := by
      split at ho
      · next hnil _ => exact absurd hnil harray
      · exact (Prod.mk.inj (Option.some.inj ho)).1.symm
    subst hsame
    exact iff_of_true ⟨hf.onEmpty, hf.honest, hf.sockets⟩ fun hnil => absurd hnil harray

theorem Faithful.evtdStep {newStep : Int} {script : List (Reaction H)} (hf : w.Faithful)
    (h : w.evtdStep newStep script = some w') :
    w'.sockets.Kept w'.socketLog ∧ (w'.Faithful ↔ w.Disposes (.step newStep script [])) := by
  obtain ⟨⟨s, log, rest⟩, hd, h⟩ := Option.bind_eq_some_iff.1 h
  have hdrained : Faithful { w with
      evtd := s
      onEmptyLog := w.onEmptyLog ++ registeredBy script rest } := by
    refine ⟨?_, hf.honest.append registeredBy_quiet, hf.sockets⟩
    rw [SlotEntry.slot_append, hf.onEmpty]
    exact (Evtd.drain_onEmpty hd).registeredBy
  constructor
  · obtain ⟨o, -, rfl⟩ := Option.map_eq_some_iff.1 h
    exact hf.sockets
  · rw [hdrained.finish h]
    constructor
    · intro hlast d hd'
      obtain rfl := Option.some.inj (hd.symm.trans hd')
      exact hlast
    · intro hdisposes
      exact hdisposes _ hd

/-- **One event keeps the slots exactly when it meets the condition.** -/
theorem Faithful.step {e : Event H} (hf : w.Faithful) (h : w.step e = some w') :
    w'.Faithful ↔ w.Disposes e := by
  cases e with
  | step newStep script socketCalls =>
    obtain ⟨w₁, h₁, h⟩ := Option.bind_eq_some_iff.1 h
    obtain ⟨hsockets, hiff⟩ := hf.evtdStep h₁
    refine Iff.trans ?_ hiff
    constructor
    · rintro ⟨honEmpty, hhonest, -⟩
      obtain ⟨hevtd, hlog, -⟩ := after_nil h
      rw [hevtd, hlog] at honEmpty
      rw [hlog] at hhonest
      exact ⟨honEmpty, hhonest, hsockets⟩
    · intro hf₁
      exact hf₁.after h
  | singleStep newStep r socketCalls =>
    refine iff_of_true ?_ trivial
    simp only [Watched.step] at h
    split at h
    · obtain rfl := Option.some.inj h
      exact ⟨hf.onEmpty, hf.honest, hf.sockets⟩
    · next first queue hqueue =>
      have hpopped : Faithful { w with
          evtd := { w.evtd with currentStep := newStep, callQueue := queue } } :=
        ⟨hf.onEmpty, hf.honest, hf.sockets⟩
      exact hpopped.after h
  | socket fd cs socketCalls =>
    refine iff_of_true ?_ trivial
    simp only [Watched.step] at h
    split at h
    · obtain rfl := Option.some.inj h
      exact ⟨hf.onEmpty, hf.honest, hf.sockets⟩
    · next handle v hupdate =>
      have hready : Faithful { w with
          sockets := v
          socketLog := w.socketLog ++ [(fd, .fired handle)] } :=
        ⟨hf.onEmpty, hf.honest, hf.sockets.updateEvent hupdate⟩
      exact hready.after h
  | call c => exact iff_of_true (hf.after h) trivial
  | socketCall c => exact iff_of_true (hf.after h) trivial

instance (w : Watched H) : ∀ e, Decidable (w.Disposes e)
  | .step newStep script _ => inferInstanceAs (Decidable (∀ d ∈ w.evtd.drain script newStep,
      d.1.timeEvents.array = [] → d.1.onEmpty.isSome → ∀ r ∈ d.2.2.head?,
        (continuations r.calls).getLastD none = none))
  | .singleStep .. => .isTrue trivial
  | .socket .. => .isTrue trivial
  | .call _ => .isTrue trivial
  | .socketCall _ => .isTrue trivial

/-- The handler of a socket registers a continuation for this socket and one for `on_empty`, and both
are run. -/
def continued : List (Event Nat) :=
  [.socketCall (.register 4 10 true true),
    .socket 4 [.continueWhenEmpty (some 7)] [.continueWhen .wantWrite 11 4],
    .step 1 [⟨[], false⟩] [], .socket 4 [] [], .socket 4 [] []]

end Watched

end IotDeviceSdk.EventDispatcher
