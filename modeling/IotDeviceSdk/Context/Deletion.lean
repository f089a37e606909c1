import IotDeviceSdk.Context.Pending
import IotDeviceSdk.Context.Registered
import IotDeviceSdk.EventDispatcher.Handlers
import IotDeviceSdk.Infra.Run

/-!
# The deletion of a context

`iotc_delete_context` takes nothing off the dispatcher, unless it is the last reference that it
gives back. So what waits for a context is run after its memory was freed, when the context was not
settled before. `context_deleted` is about the runs that delete settled contexts only.
-/

namespace IotDeviceSdk.Context

open Datastructures EventDispatcher Infra Mqtt.Logic

variable {c : Config}

/-! ## Work that is live -/

/-- Work for a context that is there. The handle of a timed task denotes this context. -/
def Work.Live (g : Globals) (work : Work) : Prop :=
  ∃ x ∈ g.registered, work.context = some x ∧
    ∀ task k s, work.handler = .timedTask task k s → Denotes g k x

namespace System

/-- The work that waits: time events, queued calls, and the handlers of the sockets. -/
def pending (w : System) : List Work :=
  w.dispatcher.timedHandlers ++ w.dispatcher.queuedHandlers ++ w.sockets.handlers

/-- Nothing that is run refers to the context, and nothing that waits, unless the dispatcher goes
with the context. -/
def Settled (w : System) (context : Ptr) : Prop :=
  (∀ work ∈ w.running, work.context ≠ some context) ∧
    (w.world.globals.globalsRefCount = 1 ∨ ∀ work ∈ w.pending, work.context ≠ some context)

/-- The context that is deleted is settled; a timed task is scheduled for a context; and the
reference count does not overflow. -/
def Clean (w : System) : Step → Prop
  | .createContext _ => w.world.globals.globalsRefCount < 255
  | .scheduleTimedTask contextHandle _ _ _ _ _ =>
    ∃ x, Denotes w.world.globals contextHandle x
  | .deleteContext contextHandle =>
    ∀ x, Denotes w.world.globals contextHandle x → w.Settled x
  | _ => True

theorem contextFor_join_iff {w : System} {k : Int} {x : Ptr} :
    (w.contextFor k).join = some x ↔ Denotes w.world.globals k x := by
  simp only [contextFor, Option.join_eq_some_iff, Option.map_eq_some_iff, Denotes, Option.mem_def]

instance (w : System) (context : Ptr) : Decidable (w.Settled context) :=
  inferInstanceAs (Decidable (_ ∧ _))

instance (w : System) : ∀ s, Decidable (w.Clean s)
  | .createContext _ => inferInstanceAs (Decidable (_ < _))
  | .scheduleTimedTask k _ _ _ _ _ =>
    decidable_of_iff ((w.contextFor k).join.isSome) (by
      simp only [Option.isSome_iff_exists, contextFor_join_iff, Clean])
  | .deleteContext k =>
    decidable_of_iff (∀ x ∈ (w.contextFor k).join, w.Settled x) (by
      simp only [Option.mem_def, contextFor_join_iff, Clean])
  | .connectTo _ _ _ _ _ | .shutdownConnection _ _ _ | .publish _ _ _ | .subscribe _ _ _
  | .cancelTimedTask _ | .layerCall _ | .tick _ | .takeDue | .takeCall | .socketReady _ _
  | .returns _ _ => .isTrue trivial

/-- Nothing refers to a context that was deleted: not what waits, nor what is run, nor what was run
after the deletion. -/
structure Safe (w : System) : Prop where
  pending : ∀ work ∈ w.pending, work.Live w.world.globals
  running : ∀ work ∈ w.running, work.Live w.world.globals
  gone : ∀ x, .deleted x ∈ w.log → ∀ work, work ∈ w.pending ∨ work ∈ w.running →
    work.context ≠ some x
  silent : w.log.Pairwise fun a b => ∀ x work, a = .deleted x → b = .executed work →
    work.context ≠ some x

/-- A deletion keeps what waits for the other contexts. -/
def OthersKept (w : System) : Step → Prop
  | .deleteContext contextHandle => ∀ x w', Denotes w.world.globals contextHandle x →
    w.deleteContext contextHandle = some w' →
    (∀ e ∈ w.dispatcher.timeEvents.array,
      (w.dispatcher.timeEvents.event e).eventHandle.context ≠ some x →
        e ∈ w'.dispatcher.timeEvents.array ∧
        w'.dispatcher.timeEvents.event e = w.dispatcher.timeEvents.event e) ∧
    (∀ call ∈ w.dispatcher.callQueue, call.2.context ≠ some x → call ∈ w'.dispatcher.callQueue) ∧
    (∀ s ∈ w.sockets.array, s.handle.context ≠ some x → s ∈ w'.sockets.array)
  | _ => True

end System

/-- What the runs keep. -/
structure Sound (w : System) : Prop where
  wf : w.dispatcher.WF
  nodup : w.world.globals.registered.Nodup
  fresh : ∀ x ∈ w.world.globals.registered, x < w.world.heap.next
  count : w.world.globals.registered.length ≤ w.world.globals.globalsRefCount
  bound : w.world.globals.globalsRefCount ≤ 255
  pending : ∀ work ∈ w.pending, work.Live w.world.globals
  running : ∀ work ∈ w.running, work.Live w.world.globals
  gone : ∀ x, .deleted x ∈ w.log → x < w.world.heap.next ∧ x ∉ w.world.globals.registered
  silent : w.log.Pairwise fun a b => ∀ x work, a = .deleted x → b = .executed work →
    work.context ≠ some x

variable {w w' : System} {work : Work}

theorem Work.Live.ne {g : Globals} (h : work.Live g) {x : Ptr} (hx : x ∉ g.registered) :
    work.context ≠ some x := by
  obtain ⟨y, hy, heq, -⟩ := h
  rw [heq]
  rintro ⟨⟩
  exact hx hy

theorem Sound.safe (h : Sound w) : w.Safe := by
  refine ⟨h.pending, h.running, fun x hx work hwork => ?_, h.silent⟩
  have hlive := hwork.elim (h.pending work) (h.running work)
  exact hlive.ne (h.gone x hx).2

theorem sound_initial : Sound .initial where
  wf := ⟨TimeEvents.valid_empty rfl fun _ => rfl, fun e he => by
    simp [System.initial, newDispatcher, Evtd.create, TimeEvents.array, IotcVector.create] at he⟩
  nodup := .nil
  fresh := fun x hx => by simp [System.initial, World.initial, Globals.initial, Globals.registered] at hx
  count := Nat.le_refl _
  bound := by decide
  pending := fun work hwork => by
    have hnil : System.initial.pending = [] := rfl
    simp [hnil] at hwork
  running := fun work hwork => by cases hwork
  gone := fun x hx => by simp [System.initial] at hx
  silent := .nil

/-! ## Calls -/

/-- The contexts are as before, and what waits is from before or live. -/
theorem Sound.frame (h : Sound w) (hglobals : w'.world.globals = w.world.globals)
    (hnext : w.world.heap.next ≤ w'.world.heap.next) (hlog : w'.log = w.log)
    (hrunning : w'.running = w.running ∨ w'.running = none) (hwf : w'.dispatcher.WF)
    (hpending : ∀ work ∈ w'.pending, work ∈ w.pending ∨ work.Live w.world.globals) : Sound w' := by
  refine ⟨hwf, hglobals ▸ h.nodup, fun x hx => ?_, hglobals ▸ h.count, hglobals ▸ h.bound,
    fun work hwork => ?_, fun work hwork => ?_, fun x hx => ?_, hlog ▸ h.silent⟩
  · rw [hglobals] at hx
    exact Nat.lt_of_lt_of_le (h.fresh x hx) hnext
  · rw [hglobals]
    exact (hpending work hwork).elim (h.pending work) id
  · rw [hglobals]
    rcases hrunning with hsame | hnone
    · exact h.running work (hsame ▸ hwork)
    · rw [hnone] at hwork
      cases hwork
  · rw [hlog] at hx
    rw [hglobals]
    obtain ⟨hlt, hnot⟩ := h.gone x hx
    exact ⟨Nat.lt_of_lt_of_le hlt hnext, hnot⟩

theorem System.mem_pending : work ∈ w.pending ↔ work ∈ w.dispatcher.timedHandlers ∨
    work ∈ w.dispatcher.queuedHandlers ∨ work ∈ w.sockets.handlers := by
  simp only [System.pending, List.mem_append, or_assoc]

theorem Sound.execute (h : Sound w) (hwork : work.Live w.world.globals) (mem : Bool) :
    Sound (w.execute work mem) := by
  have hwf := (Evtd.account_execute h.wf work mem).wf
  refine h.frame rfl (Nat.le_refl _) rfl (.inl rfl) hwf fun x hx => ?_
  rcases System.mem_pending.1 hx with hx | hx | hx
  · rw [System.execute, Evtd.timed_execute] at hx
    exact .inl (System.mem_pending.2 (.inl hx))
  · rcases Evtd.mem_execute hx with rfl | hx
    · exact .inr hwork
    · exact .inl (System.mem_pending.2 (.inr (.inl hx)))
  · exact .inl (System.mem_pending.2 (.inr (.inr hx)))

/-- A dispatcher that brings in live handlers only. -/
theorem Sound.dispatcher (h : Sound w) {d : Evtd Work} (hwf : d.WF)
    (hqueue : d.callQueue = w.dispatcher.callQueue)
    (htimed : ∀ x ∈ d.timedHandlers, x.Live w.world.globals ∨ x ∈ w.dispatcher.timedHandlers) :
    Sound { w with dispatcher := d } := by
  refine h.frame rfl (Nat.le_refl _) rfl (.inl rfl) hwf fun x hx => ?_
  rcases System.mem_pending.1 hx with hx | hx | hx
  · rcases htimed x hx with hx | hx
    · exact .inr hx
    · exact .inl (System.mem_pending.2 (.inl hx))
  · rw [Evtd.queuedHandlers, hqueue] at hx
    exact .inl (System.mem_pending.2 (.inr (.inl hx)))
  · exact .inl (System.mem_pending.2 (.inr (.inr hx)))

theorem Sound.executeIn (h : Sound w) (hwork : work.Live w.world.globals) {timeDiff : Int}
    {k : HandlePtr} {mem grow ok : Bool}
    (hexecute : w.executeIn work timeDiff k mem grow = some (w', ok)) :
    Sound w' ∧ w'.world = w.world ∧ w'.running = w.running := by
  obtain ⟨⟨d, log⟩, hd, hw'⟩ := Option.map_eq_some_iff.1 hexecute
  obtain ⟨rfl, -⟩ := Prod.mk.inj hw'
  obtain ⟨hwf, hqueue, htimed⟩ := Evtd.mem_executeIn h.wf hd
  exact ⟨h.dispatcher hwf hqueue fun x hx =>
    (htimed x hx).imp (fun (heq : x = work) => heq ▸ hwork) id, rfl, rfl⟩

theorem Sound.cancel (h : Sound w) {k : HandlePtr} (hcancel : w.cancel k = some w') :
    Sound w' := by
  obtain ⟨⟨d, log⟩, hd, rfl⟩ := Option.map_eq_some_iff.1 hcancel
  obtain ⟨hwf, hqueue, htimed⟩ := Evtd.mem_cancel h.wf hd
  exact h.dispatcher hwf hqueue fun x hx => .inr (htimed x hx)

theorem Sound.restart (h : Sound w) {k : HandlePtr} {newTime : Int}
    (hrestart : w.restart k newTime = some w') : Sound w' := by
  obtain ⟨⟨d, log⟩, hd, rfl⟩ := Option.map_eq_some_iff.1 hrestart
  obtain ⟨hwf, hqueue, htimed⟩ := Evtd.mem_restart h.wf hd
  exact h.dispatcher hwf hqueue fun x hx => .inr (htimed x hx)

/-- Sockets that bring in live handlers only. -/
theorem Sound.sockets (h : Sound w) {v : Sockets Work}
    (hv : ∀ x ∈ v.handlers, x.Live w.world.globals ∨ x ∈ w.sockets.handlers) :
    Sound { w with sockets := v } := by
  refine h.frame rfl (Nat.le_refl _) rfl (.inl rfl) h.wf fun x hx => ?_
  rcases System.mem_pending.1 hx with hx | hx | hx
  · exact .inl (System.mem_pending.2 (.inl hx))
  · exact .inl (System.mem_pending.2 (.inr (.inl hx)))
  · rcases hv x hx with hx | hx
    · exact .inr hx
    · exact .inl (System.mem_pending.2 (.inr (.inr hx)))

theorem Sound.setData (h : Sound w) (x : Ptr) (d : ContextData) : Sound (w.setData x d) :=
  h.frame rfl (Nat.le_refl _) rfl (.inl rfl) h.wf fun _ hwork => .inl hwork

/-- The heap may change, as long as no address is used again. -/
theorem Sound.heap (h : Sound w) {heap : Heap} (hnext : w.world.heap.next ≤ heap.next) :
    Sound { w with world := { w.world with heap := heap } } :=
  h.frame rfl hnext rfl (.inl rfl) h.wf fun _ hwork => .inl hwork

/-! ## Steps -/

theorem Work.Live.of_denotes {g : Globals} {x : Ptr} {k : Int} {handler : Handler}
    (h : Denotes g k x) (hhandler : ∀ task j s, handler = .timedTask task j s → j = k) :
    Work.Live g ⟨some x, handler⟩ :=
  ⟨x, h.mem, rfl, fun task j s heq => (hhandler task j s heq) ▸ h⟩

/-- A handler is run: it waited, so that its context is there. -/
theorem Sound.start (h : Sound w) (hwork : work.Live w.world.globals) : Sound (w.start work) where
  wf := h.wf
  nodup := h.nodup
  fresh := h.fresh
  count := h.count
  bound := h.bound
  pending := h.pending
  running := fun x hx => (Option.some.inj hx) ▸ hwork
  gone := fun x hx => h.gone x (by simpa [System.start] using hx)
  silent := by
    refine List.pairwise_append.2 ⟨h.silent, List.pairwise_singleton _ _, ?_⟩
    rintro a ha b hb x y rfl heq
    obtain rfl : y = work := by simpa [heq] using hb
    exact hwork.ne (h.gone x ha).2

theorem Sound.createContext (h : Sound w) {answers : List Bool}
    (hclean : w.world.globals.globalsRefCount < 255)
    (hcreate : w.createContext c answers = some w') : Sound w' := by
  obtain ⟨⟨r, world⟩, hworld, hw'⟩ := Option.map_eq_some_iff.1 hcreate
  have hnil : (w.world.globals.globalsRefCount + 1) % 256 = 1 → w.world.globals.registered = [] := by
    intro hone
    have hcount := h.count
    exact List.eq_nil_of_length_eq_zero (by omega)
  obtain ⟨hgrown, hcount⟩ := createContext_grown (w := w.world.answering answers) hnil hworld
  have hcount' : world.globals.globalsRefCount = w.world.globals.globalsRefCount + 1 := by
    simp only [World.answering] at hcount
    omega
  have hsub : ∀ x ∈ w.world.globals.registered, x ∈ world.globals.registered := fun x hx => by
    rcases hgrown.registered with hsame | ⟨p, -, -, hperm⟩
    · rw [hsame]
      exact hx
    · exact hperm.mem_iff.2 (List.mem_cons_of_mem _ hx)
  have hlive : ∀ {work : Work}, work.Live w.world.globals → work.Live world.globals := by
    rintro work ⟨x, hx, heq, htask⟩
    exact ⟨x, hsub x hx, heq, fun t k s hs => hgrown.denoted k x (htask t k s hs)⟩
  have hnext : w.world.heap.next ≤ world.heap.next := hgrown.next
  -- what holds whether or not the dispatcher is new
  have hsound : Sound { w with world := world } := by
    refine ⟨h.wf, ?_, fun x hx => ?_, ?_, ?_, fun work hwork => hlive (h.pending work hwork),
      fun work hwork => hlive (h.running work hwork), fun x hx => ?_, h.silent⟩
    · rcases hgrown.registered with hsame | ⟨p, hp, -, hperm⟩
      · rw [hsame]
        exact h.nodup
      · exact hperm.nodup_iff.2 (List.nodup_cons.2
          ⟨fun hmem => Nat.not_lt.2 hp (h.fresh p hmem), h.nodup⟩)
    · rcases hgrown.registered with hsame | ⟨p, -, hlt, hperm⟩
      · rw [hsame] at hx
        exact Nat.lt_of_lt_of_le (h.fresh x hx) hnext
      · rcases List.mem_cons.1 (hperm.mem_iff.1 hx) with rfl | hx
        · exact hlt
        · exact Nat.lt_of_lt_of_le (h.fresh x hx) hnext
    · have hle := h.count
      simp only [hcount']
      rcases hgrown.registered with hsame | ⟨p, -, -, hperm⟩
      · rw [hsame]
        exact Nat.le_succ_of_le hle
      · rw [hperm.length_eq]
        exact Nat.succ_le_succ hle
    · simp only [hcount']
      omega
    · obtain ⟨hlt, hnot⟩ := h.gone x hx
      refine ⟨Nat.lt_of_lt_of_le hlt hnext, fun hmem => ?_⟩
      rcases hgrown.registered with hsame | ⟨p, hp, -, hperm⟩
      · exact hnot (hsame ▸ hmem)
      · rcases List.mem_cons.1 (hperm.mem_iff.1 hmem) with rfl | hmem
        · exact Nat.not_lt.2 hp hlt
        · exact hnot hmem
  simp only at hw'
  split at hw' <;> subst hw'
  · refine hsound.frame rfl (Nat.le_refl _) rfl (.inl rfl) sound_initial.wf fun x hx => ?_
    simp [System.pending, newDispatcher, Evtd.create, Evtd.timedHandlers, Evtd.queuedHandlers,
      TimeEvents.array, Sockets.handlers, IotcVector.create] at hx
  · exact hsound

/-- What a deletion finds and leaves. -/
theorem System.deleteContext_cases {k : Int} (hdelete : w.deleteContext k = some w') :
    ∃ x, Denotes w.world.globals k x ∧ (∃ state, Context.deleteContext w.world k =
        some (state, w'.world)) ∧ w'.log = w.log ++ [.deleted x] ∧ w'.running = w.running ∧
      (w'.world.globals.globalsRefCount = 0 ∧ w'.dispatcher = newDispatcher ∧ w'.sockets = .create ∨
        w'.world.globals.globalsRefCount ≠ 0 ∧ w'.dispatcher = w.dispatcher ∧
          w'.sockets = w.sockets) := by
  obtain ⟨x, hx, hdelete⟩ := Option.bind_eq_some_iff.1 hdelete
  obtain ⟨⟨state, world⟩, hworld, hw'⟩ := Option.map_eq_some_iff.1 hdelete
  refine ⟨x, System.contextFor_join_iff.1 hx, ?_⟩
  simp only at hw'
  split at hw'
  · next hzero =>
    subst hw'
    exact ⟨⟨state, hworld⟩, rfl, rfl, .inl ⟨hzero, rfl, rfl⟩⟩
  · next hzero =>
    subst hw'
    exact ⟨⟨state, hworld⟩, rfl, rfl, .inr ⟨hzero, rfl, rfl⟩⟩

theorem Denotes.unique {g : Globals} {k : Int} {x y : Ptr} (hx : Denotes g k x) (hy : Denotes g k y) :
    x = y := by
  obtain ⟨t, ht, hx⟩ := hx
  obtain ⟨u, hu, hy⟩ := hy
  obtain rfl : t = u := Option.some.inj (Option.mem_def.1 ht ▸ Option.mem_def.1 hu)
  exact Option.some.inj (hx.symm.trans hy)

/-- With one reference there is one context. -/
theorem Sound.last (h : Sound w) {x y : Ptr} (hone : w.world.globals.globalsRefCount = 1)
    (hx : x ∈ w.world.globals.registered) (hy : y ∈ w.world.globals.registered) : x = y := by
  have hcount := h.count
  rw [hone] at hcount
  match hlist : w.world.globals.registered with
  | [] => simp [hlist] at hx
  | [z] =>
    rw [hlist] at hx hy
    rw [List.mem_singleton.1 hx, List.mem_singleton.1 hy]
  | _ :: _ :: _ => simp [hlist] at hcount

theorem Sound.deleteContext (h : Sound w) {k : Int}
    (hclean : ∀ x, Denotes w.world.globals k x → w.Settled x)
    (hdelete : w.deleteContext k = some w') : Sound w' := by
  obtain ⟨x, hx, ⟨state, hworld⟩, hlog, hrunning, hdispatcher⟩ :=
    System.deleteContext_cases hdelete
  obtain ⟨y, hy, hnext, hcount, hglobals⟩ := deleteContext_cases hworld
  obtain rfl := hx.unique hy
  obtain ⟨hidle, hquiet⟩ := hclean x hx
  have hmem := hx.mem
  have hle := h.count
  have hbound := h.bound
  have hpos : 0 < w.world.globals.globalsRefCount :=
    Nat.lt_of_lt_of_le (List.length_pos_of_mem hmem) hle
  have hsub : w'.world.globals.registered.Sublist w.world.globals.registered ∨
      w.world.globals.registered.Perm (x :: w'.world.globals.registered) :=
    hglobals.imp (fun ⟨_, hnil⟩ => hnil ▸ List.nil_sublist _) fun ⟨_, hperm, _⟩ => hperm
  have hin : ∀ z ∈ w'.world.globals.registered, z ∈ w.world.globals.registered := fun z hz =>
    hsub.elim (fun hs => hs.subset hz) fun hp => hp.mem_iff.2 (List.mem_cons_of_mem _ hz)
  have hnot : x ∉ w'.world.globals.registered := by
    rcases hglobals with ⟨-, hnil⟩ | ⟨-, hperm, -⟩
    · simp [hnil]
    · exact (List.nodup_cons.1 (hperm.nodup_iff.1 h.nodup)).1
  have hsilent : w'.log.Pairwise fun a b => ∀ z work, a = .deleted z → b = .executed work →
      work.context ≠ some z := by
    rw [hlog]
    refine List.pairwise_append.2 ⟨h.silent, List.pairwise_singleton _ _, ?_⟩
    rintro a - b hb z work - rfl
    simp at hb
  have hgone : ∀ z, .deleted z ∈ w'.log →
      z < w'.world.heap.next ∧ z ∉ w'.world.globals.registered := by
    intro z hz
    rw [hnext]
    rw [hlog] at hz
    rcases List.mem_append.1 hz with hz | hz
    · obtain ⟨hlt, hz⟩ := h.gone z hz
      exact ⟨hlt, fun hmem => hz (hin z hmem)⟩
    · obtain rfl : z = x := by simpa using hz
      exact ⟨h.fresh z hmem, hnot⟩
  -- live work of another context stays live while there are references
  have hlive : ∀ work : Work, work.context ≠ some x → work.Live w.world.globals →
      w'.world.globals.globalsRefCount ≠ 0 → work.Live w'.world.globals := by
    rintro work hne ⟨z, hz, heq, htask⟩ hzero
    obtain ⟨-, hperm, hdenoted⟩ := hglobals.resolve_left fun hnil => hzero hnil.1
    have hzx : z ≠ x := fun hzx => hne (hzx ▸ heq)
    exact ⟨z, (List.mem_cons.1 (hperm.mem_iff.1 hz)).resolve_left hzx, heq,
      fun t j s hs => hdenoted j z hzx (htask t j s hs)⟩
  have hstopped : w'.world.globals.globalsRefCount = 0 → w.running = none := by
    intro hzero
    cases hrun : w.running with
    | none => rfl
    | some work =>
      obtain ⟨z, hz, heq, -⟩ := h.running work hrun
      exact absurd (h.last (by omega) hz hmem ▸ heq) (hidle work hrun)
  refine ⟨?_, ?_, fun z hz => ?_, ?_, ?_, fun work hwork => ?_, fun work hwork => ?_, hgone, hsilent⟩
  · rcases hdispatcher with ⟨-, hd, -⟩ | ⟨-, hd, -⟩ <;> rw [hd]
    · exact sound_initial.wf
    · exact h.wf
  · rcases hsub with hs | hp
    · exact h.nodup.sublist hs
    · exact (List.nodup_cons.1 (hp.nodup_iff.1 h.nodup)).2
  · rw [hnext]
    exact h.fresh z (hin z hz)
  · rcases hglobals with ⟨-, hnil⟩ | ⟨-, hperm, -⟩
    · simp [hnil]
    · have hlength := hperm.length_eq
      simp only [List.length_cons] at hlength
      omega
  · omega
  · rcases hdispatcher with ⟨hzero, hd, hs⟩ | ⟨hzero, hd, hs⟩
    · rw [System.pending, hd, hs] at hwork
      simp [newDispatcher, Evtd.create, Evtd.timedHandlers, Evtd.queuedHandlers,
        TimeEvents.array, Sockets.handlers, IotcVector.create] at hwork
    · rw [System.pending, hd, hs] at hwork
      have hquiet' := hquiet.resolve_left (by omega)
      exact hlive work (hquiet' work hwork) (h.pending work hwork) hzero
  · rw [hrunning] at hwork
    by_cases hzero : w'.world.globals.globalsRefCount = 0
    · rw [hstopped hzero] at hwork
      cases hwork
    · exact hlive work (hidle work hwork) (h.running work hwork) hzero

theorem Sound.connectTo (h : Sound w) {k newBackoff : Int} {data mem grow : Bool}
    (hconnect : w.connectTo k data newBackoff mem grow = some w') : Sound w' := by
  unfold System.connectTo at hconnect
  split at hconnect
  · exact Option.some.inj hconnect ▸ h
  · obtain ⟨iotc, hiotc, hconnect⟩ := Option.bind_eq_some_iff.1 hconnect
    split at hconnect
    · exact Option.some.inj hconnect ▸ h
    · next x =>
      have hx := System.contextFor_join_iff.1 (Option.join_eq_some_iff.2 hiotc)
      split at hconnect
      · exact Option.some.inj hconnect ▸ h
      · split at hconnect
        · obtain ⟨⟨w₁, ok⟩, hexecute, rfl⟩ := Option.map_eq_some_iff.1 hconnect
          exact ((h.setData x _).executeIn (.of_denotes hx fun _ _ _ hn => by cases hn) hexecute).1
        · exact Option.some.inj hconnect ▸ h

theorem Sound.push (h : Sound w) {k : Int} {x : Ptr} (hx : Denotes w.world.globals k x) (mem : Bool) :
    Sound (w.execute ⟨some x, .push⟩ mem) :=
  h.execute (.of_denotes hx fun _ _ _ hn => by cases hn) mem

theorem Sound.shutdownConnection (h : Sound w) {k : Int} {task mem : Bool}
    (hshutdown : w.shutdownConnection k task mem = some w') : Sound w' := by
  obtain ⟨x, hx, hshutdown⟩ := Option.bind_eq_some_iff.1 hshutdown
  replace hx := System.contextFor_join_iff.1 hx
  split at hshutdown
  · exact h.cancel hshutdown
  · split at hshutdown
    · exact Option.some.inj hshutdown ▸ h
    · split at hshutdown
      · exact Option.some.inj hshutdown ▸ h
      · obtain rfl := Option.some.inj hshutdown
        split
        · exact (h.setData x _).push hx mem
        · exact h.setData x _

theorem Sound.publish (h : Sound w) {k : Int} {admitted mem : Bool}
    (hpublish : w.publish k admitted mem = some w') : Sound w' := by
  obtain ⟨x, hx, rfl⟩ := Option.map_eq_some_iff.1 hpublish
  split
  · exact h.push (System.contextFor_join_iff.1 hx) mem
  · exact h

theorem Sound.subscribe (h : Sound w) {k : Int} {admitted mem : Bool}
    (hsubscribe : w.subscribe k admitted mem = some w') : Sound w' := by
  unfold System.subscribe at hsubscribe
  split at hsubscribe
  · exact Option.some.inj hsubscribe ▸ h
  · obtain ⟨iotc, hiotc, rfl⟩ := Option.map_eq_some_iff.1 hsubscribe
    split
    · exact h
    · split
      · exact h.push (System.contextFor_join_iff.1 (Option.join_eq_some_iff.2 hiotc)) mem
      · exact h

theorem Sound.scheduleTimedTask (h : Sound w) {k secondsFromNow : Int}
    {repeatsForever task mem grow : Bool} (hclean : ∃ x, Denotes w.world.globals k x)
    (hschedule : w.scheduleTimedTask k secondsFromNow repeatsForever task mem grow = some w') :
    Sound w' := by
  unfold System.scheduleTimedTask at hschedule
  split at hschedule
  · cases hschedule
  · split at hschedule
    · next m hm =>
      obtain rfl := Option.some.inj hschedule
      exact h.heap (Heap.next_alloc hm).1
    · next t m hm =>
      obtain ⟨⟨w₁, ok⟩, hexecute, rfl⟩ := Option.map_eq_some_iff.1 hschedule
      have hheap : w.world.heap.next ≤ m.next := (Heap.next_alloc hm).1
      obtain ⟨x, hx⟩ := hclean
      rw [System.contextFor_join_iff.2 hx] at hexecute
      have hlive : Work.Live w.world.globals
          ⟨some x, .timedTask t k (if repeatsForever then secondsFromNow else 0)⟩ :=
        .of_denotes hx fun _ _ _ hn => by cases hn; rfl
      obtain ⟨h₁, hworld, -⟩ := (h.heap hheap).executeIn hlive hexecute
      simp only
      split
      · exact h₁
      · refine h₁.heap (Nat.le_of_eq ?_)
        rw [hworld]
        rfl

theorem Sound.cancelTimedTask (h : Sound w) {task : Ptr}
    (hcancel : w.cancelTimedTask task = some w') : Sound w' := by
  unfold System.cancelTimedTask at hcancel
  split at hcancel
  · obtain rfl := Option.some.inj hcancel
    exact h.frame rfl (Nat.le_refl _) rfl (.inl rfl) h.wf fun _ hx => .inl hx
  · split at hcancel
    · obtain ⟨w₁, h₁, rfl⟩ := Option.map_eq_some_iff.1 hcancel
      exact (h.cancel h₁).heap (Nat.le_refl _)
    · exact Option.some.inj hcancel ▸ h

theorem Sound.layerCall (h : Sound w) {x : Ptr} {call : LayerCall}
    (hx : x ∈ w.world.globals.registered) (hcall : w.layerCall x call = some w') : Sound w' := by
  have hlive : ∀ id, Work.Live w.world.globals ⟨some x, .layer id⟩ := fun id =>
    ⟨x, hx, rfl, fun _ _ _ hn => by cases hn⟩
  cases call with
  | execute id mem => exact Option.some.inj hcall ▸ h.execute (hlive id) mem
  | executeIn id i timeDiff mem grow =>
    obtain ⟨⟨w₁, ok⟩, hexecute, rfl⟩ := Option.map_eq_some_iff.1 hcall
    exact (h.executeIn (hlive id) hexecute).1
  | cancel i => exact h.cancel hcall
  | restart i newTime => exact h.restart hcall
  | registerSocket fd id mem grow =>
    obtain ⟨v, hv, rfl⟩ := Option.map_eq_some_iff.1 hcall
    exact h.sockets fun y hy => (Sockets.mem_register hv hy).imp
      (fun (heq : y = ⟨some x, .layer id⟩) => heq ▸ hlive id) fun hy => hy
  | continueWhenEvtOnSocket eventType id fd =>
    obtain rfl := Option.some.inj hcall
    refine h.sockets fun y hy => ?_
    cases hv : w.sockets.continueWhenEvtOnSocket eventType ⟨some x, .layer id⟩ fd with
    | none =>
      rw [hv] at hy
      exact .inr hy
    | some v =>
      rw [hv] at hy
      exact (Sockets.mem_continueWhen hv hy).imp
        (fun (heq : y = ⟨some x, .layer id⟩) => heq ▸ hlive id) fun hy => hy
  | unregisterSocket fd =>
    obtain rfl := Option.some.inj hcall
    exact h.sockets fun y hy => .inr (Sockets.mem_unregister hy)
  | setConnectionState s => exact Option.some.inj hcall ▸ h.setData x _

theorem Sound.takeDue (h : Sound w) (htake : w.takeDue = some w') : Sound w' := by
  obtain ⟨e, he, htake⟩ := Option.bind_eq_some_iff.1 htake
  split at htake
  · cases htake
  · obtain ⟨⟨timeEvents, r⟩, htop, rfl⟩ := Option.map_eq_some_iff.1 htake
    obtain ⟨hmem, hwf, htimed⟩ := Evtd.mem_getTop h.wf he htop
    have hlive := h.pending _ (System.mem_pending.2 (.inl hmem))
    exact Sound.start (h.dispatcher hwf rfl fun x hx => .inr (htimed x hx)) hlive

theorem Sound.takeCall (h : Sound w) (htake : w.takeCall = some w') : Sound w' := by
  unfold System.takeCall at htake
  split at htake
  · cases htake
  · next queue hqueue =>
    obtain rfl := Option.some.inj htake
    have hmem : ∀ call ∈ queue, call.2 ∈ w.dispatcher.queuedHandlers := fun call hcall => by
      rw [Evtd.queuedHandlers, hqueue]
      exact List.mem_map.2 ⟨call, List.mem_cons_of_mem _ hcall, rfl⟩
    refine Sound.start (h.frame rfl (Nat.le_refl _) rfl (.inl rfl) ⟨h.wf.valid, h.wf.bounded⟩
      fun x hx => .inl ?_) (h.pending _ (System.mem_pending.2 (.inr (.inl ?_))))
    · rcases System.mem_pending.1 hx with hx | hx | hx
      · exact System.mem_pending.2 (.inl hx)
      · obtain ⟨call, hcall, rfl⟩ := List.mem_map.1 hx
        exact System.mem_pending.2 (.inr (.inl (hmem call hcall)))
      · exact System.mem_pending.2 (.inr (.inr hx))
    · rw [Evtd.queuedHandlers, hqueue]
      exact List.mem_cons_self

theorem Sound.socketReady (h : Sound w) {fd : Fd} {mem : Bool}
    (hready : w.socketReady fd mem = some w') : Sound w' := by
  obtain ⟨⟨work, sockets⟩, hupdate, rfl⟩ := Option.map_eq_some_iff.1 hready
  obtain ⟨hmem, hsockets⟩ := Sockets.mem_updateEvent hupdate
  have hlive := h.pending work (System.mem_pending.2 (.inr (.inr hmem)))
  exact (h.sockets fun x hx => .inr (hsockets x hx)).execute hlive mem

/-- No handler is run. -/
theorem Sound.idle (h : Sound w) : Sound { w with running := none } :=
  h.frame rfl (Nat.le_refl _) rfl (.inr rfl) h.wf fun _ hx => .inl hx

theorem Sound.returns (h : Sound w) {mem grow : Bool} (hwork : work.Live w.world.globals)
    (hreturns : w.returns work mem grow = some w') : Sound w' := by
  unfold System.returns at hreturns
  split at hreturns
  · split at hreturns
    · obtain rfl := Option.some.inj hreturns
      exact h.idle.heap (Nat.le_refl _)
    · obtain ⟨⟨w₁, ok⟩, hexecute, hok⟩ := Option.bind_eq_some_iff.1 hreturns
      simp only at hok
      split at hok
      · exact Option.some.inj hok ▸ (h.idle.executeIn hwork hexecute).1
      · cases hok
  · exact Option.some.inj hreturns ▸ h.idle

/-- **A step that is clean keeps all that waits live.** -/
theorem Sound.step (h : Sound w) {s : Step} (hclean : w.Clean s) (hstep : w.step c s = some w') :
    Sound w' := by
  cases s with
  | createContext answers => exact h.createContext hclean hstep
  | deleteContext k => exact h.deleteContext hclean hstep
  | connectTo k data newBackoff mem grow => exact h.connectTo hstep
  | shutdownConnection k task mem => exact h.shutdownConnection hstep
  | publish k admitted mem => exact h.publish hstep
  | subscribe k admitted mem => exact h.subscribe hstep
  | scheduleTimedTask k secondsFromNow repeatsForever task mem grow =>
    exact h.scheduleTimedTask hclean hstep
  | cancelTimedTask task => exact h.cancelTimedTask hstep
  | layerCall call =>
    obtain ⟨x, hx, hcall⟩ := Option.bind_eq_some_iff.1 hstep
    obtain ⟨work, hwork, hx⟩ := Option.bind_eq_some_iff.1 hx
    obtain ⟨y, hy, heq, -⟩ := h.running work hwork
    obtain rfl : y = x := Option.some.inj (heq.symm.trans hx)
    exact h.layerCall hy hcall
  | tick newStep =>
    simp only [System.step] at hstep
    split at hstep
    · cases hstep
    · obtain rfl := Option.some.inj hstep
      exact h.dispatcher ⟨h.wf.valid, h.wf.bounded⟩ rfl fun x hx => .inr hx
  | takeDue =>
    simp only [System.step] at hstep
    split at hstep
    · cases hstep
    · exact h.takeDue hstep
  | takeCall =>
    simp only [System.step] at hstep
    split at hstep
    · cases hstep
    · exact h.takeCall hstep
  | socketReady fd mem =>
    simp only [System.step] at hstep
    split at hstep
    · cases hstep
    · exact h.socketReady hstep
  | returns mem grow =>
    obtain ⟨work, hwork, hreturns⟩ := Option.bind_eq_some_iff.1 hstep
    exact h.returns (h.running work hwork) hreturns

/-- A clean deletion keeps what waits for the others: the dispatcher stays, or nothing else is
there. -/
theorem Sound.othersKept (h : Sound w) (s : Step) : w.OthersKept s := by
  cases s with
  | deleteContext k =>
    intro x w' hx hdelete
    obtain ⟨y, hy, ⟨state, hworld⟩, -, -, hdispatcher⟩ := System.deleteContext_cases hdelete
    obtain rfl := hx.unique hy
    rcases hdispatcher with ⟨hzero, -, -⟩ | ⟨-, hd, hs⟩
    · obtain ⟨z, hz, -, hcount, -⟩ := deleteContext_cases hworld
      have hle := h.count
      have hbound := h.bound
      have hpos := List.length_pos_of_mem hx.mem
      -- the context is the only one, so that all work is its own
      have hown : ∀ work ∈ w.pending, work.context = some x := by
        intro work hwork
        obtain ⟨u, hu, heq, -⟩ := h.pending work hwork
        rw [heq, h.last (by omega) hu hx.mem]
      refine ⟨fun e he hne => absurd (hown _ ?_) hne, fun call hcall hne => absurd (hown _ ?_) hne,
        fun t ht hne => absurd (hown _ ?_) hne⟩
      · exact System.mem_pending.2 (.inl (List.mem_map.2 ⟨e, he, rfl⟩))
      · exact System.mem_pending.2 (.inr (.inl (List.mem_map.2 ⟨call, hcall, rfl⟩)))
      · exact System.mem_pending.2 (.inr (.inr (Sockets.mem_handlers.2 ⟨t, ht, .inl rfl⟩)))
    · rw [hd, hs]
      exact ⟨fun e he _ => ⟨he, rfl⟩, fun call hcall _ => hcall, fun t ht _ => ht⟩
  | _ => trivial

/-! ## Runs -/

/-- A connect is scheduled and taken back, and its context is deleted, while a timed task waits for
another one; this one is deleted after the task was run. -/
def settledRun : List Step :=
  [.createContext [], .createContext [], .connectTo 0 true 0 true true,
    .scheduleTimedTask 1 2 false true true true, .shutdownConnection 0 true true, .deleteContext 0,
    .tick 2, .takeDue, .returns true true, .deleteContext 1]

/-- A context is deleted while its connect is scheduled, and another context is there. -/
def unsettledRun : List Step :=
  [.createContext [], .createContext [], .connectTo 0 true 1 true true, .deleteContext 0, .tick 1,
    .takeDue]

end IotDeviceSdk.Context
