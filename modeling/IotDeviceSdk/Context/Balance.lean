import IotDeviceSdk.Context.Globals
import IotDeviceSdk.Infra.Run

/-!
# The reference count of the globals

`globals_ref_count` is raised before anything can fail and no error exit lowers it again, so that it
counts the contexts only as long as every create is successful. `contexts_counted` is about the
sequences in which each create gets the memory it asks for and a slot of the handle table.
-/

namespace IotDeviceSdk.Context

open Datastructures Infra

variable {c : Config} {m : Heap} {k : Nat}

/-! ## Requests that are met -/

theorem vectorCreate_spec (h : m.Granted (k + 2)) :
    ∃ v m', vectorCreate m = (some v, m') ∧ m'.blocks.Perm (v.blocks ++ m.blocks) ∧
      m'.Granted k ∧ v.array.isSome := by
  obtain ⟨m₁, h₁, hb₁, hg₁⟩ := Heap.Granted.alloc h
  obtain ⟨m₂, h₂, hb₂, hg₂⟩ := hg₁.alloc
  refine ⟨⟨m.next, some m₁.next⟩, m₂, by simp only [vectorCreate, h₁, h₂], ?_, hg₂, rfl⟩
  rw [hb₂, hb₁]
  exact .refl _

theorem vectorCreateFrom_spec (h : m.Granted (k + 1)) :
    ∃ v m', vectorCreateFrom m = (some v, m') ∧ m'.blocks.Perm (v.blocks ++ m.blocks) ∧
      m'.Granted k := by
  obtain ⟨m₁, h₁, hb₁, hg₁⟩ := h.alloc
  refine ⟨⟨m.next, none⟩, m₁, by simp only [vectorCreateFrom, h₁], ?_, hg₁⟩
  rw [hb₁]
  exact .refl _

theorem evtdCreateInstance_spec (h : m.Granted (k + 7)) :
    ∃ e m', evtdCreateInstance m = (some e, m') ∧ m'.blocks.Perm (e.blocks ++ m.blocks) ∧
      m'.Granted k := by
  obtain ⟨m₁, h₁, hb₁, hg₁⟩ := Heap.Granted.alloc h
  obtain ⟨v₂, m₂, h₂, hb₂, hg₂, -⟩ := vectorCreate_spec hg₁
  obtain ⟨v₃, m₃, h₃, hb₃, hg₃, -⟩ := vectorCreate_spec hg₂
  obtain ⟨v₄, m₄, h₄, hb₄, hg₄, -⟩ := vectorCreate_spec hg₃
  refine ⟨⟨m.next, v₂, v₃, v₄⟩, m₄, by simp only [evtdCreateInstance, h₁, h₂, h₃, h₄], ?_, hg₄⟩
  refine hb₄.trans ?_
  rw [EvtdInstance.blocks]
  simp only [List.append_assoc]
  refine .append_left _ (hb₃.trans (.append_left _ (hb₂.trans (.append_left _ ?_))))
  rw [hb₁]
  exact .refl _

theorem backoffConfigureUsingData_spec (h : m.Granted (k + 2)) :
    ∃ l d m', backoffConfigureUsingData ⟨none, none⟩ m = (.ok, ⟨some l, some d⟩, m') ∧
      m'.blocks.Perm ((⟨some l, some d⟩ : BackoffStatus).blocks ++ m.blocks) ∧ m'.Granted k := by
  obtain ⟨l, m₁, h₁, hb₁, hg₁⟩ := vectorCreateFrom_spec h
  obtain ⟨d, m₂, h₂, hb₂, hg₂⟩ := vectorCreateFrom_spec hg₁
  refine ⟨l, d, m₂, ?_, ?_, hg₂⟩
  · simp only [backoffConfigureUsingData, backoffReleaseLuts, BackoffStatus.blocks, Option.map_none,
      Option.getD_none, List.append_nil, Heap.freeAll_nil, h₁, h₂]
  · refine (hb₂.trans (.append_left _ hb₁)).trans ?_
    simp only [BackoffStatus.blocks, Option.map_some, Option.getD_some]
    rw [← List.append_assoc]
    exact .append_right _ List.perm_append_comm

theorem makeTimedTaskContainer_spec (h : m.Granted (k + 3)) :
    ∃ p v m', makeTimedTaskContainer m = (some ⟨p, some v⟩, m') ∧
      m'.blocks.Perm (v.blocks ++ [p] ++ m.blocks) ∧ m'.Granted k := by
  obtain ⟨m₁, h₁, hb₁, hg₁⟩ := Heap.Granted.alloc h
  obtain ⟨v, m₂, h₂, hb₂, hg₂, -⟩ := vectorCreate_spec hg₁
  refine ⟨m.next, v, m₂, by simp only [makeTimedTaskContainer, h₁, h₂], ?_, hg₂⟩
  rw [List.append_assoc, List.singleton_append, ← hb₁]
  exact hb₂

theorem layersCreate_spec {n : Nat} (h : m.Granted (k + n)) :
    ∃ ps m', layersCreate n m = (ps.map some, m') ∧ m'.blocks.Perm (ps ++ m.blocks) ∧
      m'.Granted k := by
  induction n generalizing m with
  | zero => exact ⟨[], m, rfl, .refl _, h⟩
  | succ n ih =>
    obtain ⟨m₁, h₁, hb₁, hg₁⟩ := Heap.Granted.alloc (k := k + n) h
    obtain ⟨ps, m₂, h₂, hb₂, hg₂⟩ := ih hg₁
    refine ⟨m.next :: ps, m₂, by simp only [layersCreate, h₁, h₂, List.map_cons], ?_, hg₂⟩
    refine hb₂.trans ?_
    rw [hb₁]
    exact List.perm_middle

theorem layerChainCreate_spec {n : Nat} (h : m.Granted (k + n)) :
    ∃ ps m', layerChainCreate n m = some (ps, m') ∧ m'.blocks.Perm (ps ++ m.blocks) ∧
      m'.Granted k := by
  obtain ⟨ps, m', hps, hb, hg⟩ := layersCreate_spec h
  refine ⟨ps, m', ?_, hb, hg⟩
  rw [layerChainCreate, hps]
  simp

/-! ## The globals -/

/-- All parts of the globals are there. -/
def Initialised (g : Globals) : Prop :=
  ∃ n e l d t p v, g = ⟨n, some e, ⟨some l, some d⟩, some t, some ⟨p, some v⟩⟩ ∧
    t.blocks.array.isSome ∧ t.slots.Sized

/-- The requests that a create makes for the globals, and for the handle table. -/
def globalsRequests (g : Globals) : Nat := if g.globalsRefCount = 0 then 14 else 0

def tableRequests (c : Config) (g : Globals) : Nat :=
  if ∃ t ∈ g.contextHandlesVector, t.mustGrow c.maxNumContexts then 1 else 0

/-- The requests that a create makes. -/
def requests (c : Config) (g : Globals) : Nat :=
  tableRequests c g + c.layerChainSize + 3 + globalsRequests g

/-- There is a slot in the handle table. -/
def Room (c : Config) (g : Globals) : Prop :=
  match g.contextHandlesVector with
  | none => 0 < c.maxNumContexts
  | some t => t.slots.Room c.maxNumContexts

theorem createGlobals_spec {n : Nat} (h : m.Granted (k + 14)) :
    ∃ e l d b p v m', createGlobals ⟨n, none, ⟨none, none⟩, none, none⟩ m =
        (none, ⟨n, some e, ⟨some l, some d⟩, some ⟨b, .create⟩, some ⟨p, some v⟩⟩, m') ∧
      b.array.isSome ∧
      m'.blocks.Perm ((⟨n, some e, ⟨some l, some d⟩, some ⟨b, .create⟩, some ⟨p, some v⟩⟩ :
        Globals).blocks ++ m.blocks) ∧ m'.Granted k := by
  obtain ⟨e, m₁, h₁, hb₁, hg₁⟩ := evtdCreateInstance_spec h
  obtain ⟨l, d, m₂, h₂, hb₂, hg₂⟩ := backoffConfigureUsingData_spec hg₁
  obtain ⟨b, m₃, h₃, hb₃, hg₃, harray⟩ := vectorCreate_spec hg₂
  obtain ⟨p, v, m₄, h₄, hb₄, hg₄⟩ := makeTimedTaskContainer_spec hg₃
  refine ⟨e, l, d, b, p, v, m₄, ?_, harray, ?_, hg₄⟩
  · simp only [createGlobals, h₁, h₂, h₃, h₄, Option.isNone_some,
      Bool.false_eq_true, if_false, Option.map_some]
  · have hown := hb₄.trans (.append_left _ (hb₃.trans (.append_left _ (hb₂.trans
      (.append_left _ hb₁)))))
    refine hown.trans (List.perm_iff_count.2 fun x => ?_)
    simp only [Globals.blocks, Option.map_some, Option.getD_some, List.count_append]
    omega

theorem HandleTable.register_spec {t : HandleTable} {p : Ptr} (ht : t.slots.Sized)
    (hroom : t.slots.Room c.maxNumContexts)
    (hg : m.Granted (k + if t.mustGrow c.maxNumContexts then 1 else 0)) :
    ∃ t' m', t.register c.maxNumContexts p m = (some t', m') ∧ t'.slots.Sized ∧
      (t.blocks.array.isSome → t'.blocks.array.isSome) ∧
      t'.slots.objects.Perm (p :: t.slots.objects) ∧ m'.Granted k ∧
      ∀ rest, m.blocks.Perm (t.blocks.blocks ++ rest) →
        m'.blocks.Perm (t'.blocks.blocks ++ rest) := by
  by_cases hmust : t.mustGrow c.maxNumContexts
  · rw [if_pos hmust] at hg
    obtain ⟨m₁, h₁, hb₁, hg₁⟩ := hg.alloc
    obtain ⟨v, hv, hobjects, hsized⟩ :=
      @Handles.registerHandleForObject_spec _ _ _ _ true p ht hroom fun _ _ => rfl
    refine ⟨⟨⟨t.blocks.vector, some m.next⟩, v⟩, m₁.freeAll t.blocks.array.toList, ?_, hsized,
      fun _ => rfl, hobjects, hg₁.freeAll, fun rest hrest => Heap.perm_freeAll ?_⟩
    · rw [HandleTable.register, if_pos hmust, h₁]
      simp only [hv, Option.map_some]
    · rw [hb₁]
      refine (hrest.cons _).trans (List.perm_iff_count.2 fun x => ?_)
      simp only [VectorBlocks.blocks, List.count_append, List.count_cons, Option.toList_some,
        List.count_nil]
      omega
  · rw [if_neg hmust, Nat.add_zero] at hg
    obtain ⟨v, hv, hobjects, hsized⟩ :=
      @Handles.registerHandleForObject_spec _ _ _ _ false p ht hroom fun hfull hgrows =>
        absurd ⟨hfull, Int.ofNat_lt.1 (hroom.resolve_left hfull).1, hgrows⟩ hmust
    refine ⟨⟨t.blocks, v⟩, m, ?_, hsized, id, hobjects, hg, fun _ h => h⟩
    rw [HandleTable.register, if_neg hmust, hv, Option.map_some]

/-! ## A world in balance -/

/-- The globals are those of the beginning and there is no context, or all parts are there and there
is one; the reference count and the handle table count the contexts, which own the heap with the
globals. -/
structure Balanced (w : World) : Prop where
  globals : w.globals = .initial ∧ w.contexts = [] ∨ Initialised w.globals ∧ w.contexts ≠ []
  refCount : w.globals.globalsRefCount = w.contexts.length
  registered : w.globals.registered.Perm (w.contexts.map IotcContext.context)
  memory : w.heap.blocks.Perm (w.globals.blocks ++ w.contexts.flatMap IotcContext.blocks)

theorem balanced_initial : Balanced .initial := ⟨.inl ⟨rfl, rfl⟩, rfl, .refl _, .refl _⟩

/-- The globals are there, and a new context gets its slot. -/
theorem newContext_spec {w : World} {eventDispatcher : Option Ptr} (hg : Initialised w.globals)
    (hcount : w.globals.globalsRefCount = w.contexts.length + 1)
    (hregistered : w.globals.registered.Perm (w.contexts.map IotcContext.context))
    (hmemory : w.heap.blocks.Perm (w.globals.blocks ++ w.contexts.flatMap IotcContext.blocks))
    (hgranted : w.heap.Granted (tableRequests c w.globals + c.layerChainSize + 3))
    (hroom : Room c w.globals) :
    ∃ p w', newContext c eventDispatcher w = some ((.ok, some p), w') ∧ Balanced w' ∧
      p ∈ w'.globals.registered := by
  obtain ⟨g, xs, m⟩ := w
  obtain ⟨n, e, l, d, t, q, v, rfl, harray, hsized⟩ := hg
  simp only at hcount hregistered hmemory hgranted
  obtain ⟨m₁, h₁, hb₁, hg₁⟩ := hgranted.alloc
  obtain ⟨i, m₂, h₂, hb₂, hg₂, -⟩ := vectorCreate_spec hg₁
  obtain ⟨ps, m₃, h₃, hb₃, hg₃⟩ := layerChainCreate_spec hg₂
  have hrequests : m₃.Granted (0 + if t.mustGrow c.maxNumContexts then 1 else 0) := by
    simpa [tableRequests] using hg₃
  obtain ⟨t', m₄, h₄, hsized', harray', hobjects, -, hown⟩ :=
    HandleTable.register_spec (p := m.next) hsized hroom hrequests
  have hcreated : newContext c eventDispatcher
      ⟨⟨n, some e, ⟨some l, some d⟩, some t, some ⟨q, some v⟩⟩, xs, m⟩ =
      some ((.ok, some m.next), ⟨⟨n, some e, ⟨some l, some d⟩, some t', some ⟨q, some v⟩⟩,
        ⟨m.next, i, eventDispatcher.or (some e.evtd), ps⟩ :: xs, m₄⟩) := by
    simp only [newContext, h₁, h₂, h₃, Option.bind_some, h₄, Option.map_some]
  refine ⟨m.next, _, hcreated, ⟨.inr ⟨⟨n, e, l, d, t', q, v, rfl, harray' harray, hsized'⟩,
    List.cons_ne_nil _ _⟩, hcount, hobjects.trans (hregistered.cons _), ?_⟩,
    hobjects.mem_iff.2 List.mem_cons_self⟩
  -- what the table does not own stays as it is
  let rest := e.blocks ++ (⟨some l, some d⟩ : BackoffStatus).blocks ++ (v.blocks ++ [q]) ++
    ((ps ++ (i.blocks ++ [m.next])) ++ xs.flatMap IotcContext.blocks)
  refine (hown rest (List.perm_iff_count.2 fun x => ?_)).trans (List.perm_iff_count.2 fun x => ?_)
  · have hcounts := (hb₃.trans (.append_left _ hb₂)).count_eq x
    have hbefore := hmemory.count_eq x
    rw [hb₁] at hcounts
    simp only [rest, Globals.blocks, Option.map_some, Option.getD_some, List.count_append,
      List.count_cons, List.count_nil] at hcounts hbefore ⊢
    omega
  · simp only [rest, Globals.blocks, IotcContext.blocks, Option.map_some, Option.getD_some,
      List.flatMap_cons, List.count_append]
    omega

/-- The contexts have slots of their own, so that an index counts them. -/
theorem Balanced.lt {w : World} (h : Balanced w) : w.globals.globalsRefCount ≤ 127 := by
  rcases h.globals with ⟨hg, -⟩ | ⟨⟨n, e, l, d, t, q, v, hg, -, hsized⟩, -⟩
  · simp [hg, Globals.initial]
  · have hlength := h.registered.length_eq
    have hobjects : w.globals.registered.length ≤ t.slots.elemNo := by
      rw [hg]
      exact List.length_filterMap_le _ _
    have hle := hsized.elemNo_le
    have hcapacity := hsized.capacity_le
    rw [List.length_map, ← h.refCount] at hlength
    omega

/-- **With memory and a slot a create keeps the balance.** -/
theorem createContextWithCustomLayersAndEvtd_spec {w : World} (eventDispatcher : Option Ptr)
    (h : Balanced w) (hgranted : w.heap.Granted (requests c w.globals)) (hroom : Room c w.globals) :
    ∃ p w', createContextWithCustomLayersAndEvtd c eventDispatcher w = some ((.ok, some p), w') ∧
      Balanced w' ∧ p ∈ w'.globals.registered := by
  rcases h.globals with ⟨hg, hxs⟩ | ⟨hg, hxs⟩
  · obtain ⟨g, xs, m⟩ := w
    obtain rfl : g = .initial := hg
    obtain rfl : xs = [] := hxs
    obtain ⟨e, l, d, b, q, v, m', hglobals, harray, hown, hgranted'⟩ :=
      createGlobals_spec (n := 1) hgranted
    have hfirst : createContextWithCustomLayersAndEvtd c eventDispatcher ⟨.initial, [], m⟩ =
        newContext c eventDispatcher ⟨⟨1, some e, ⟨some l, some d⟩, some ⟨b, .create⟩,
          some ⟨q, some v⟩⟩, [], m'⟩ := by
      simp only [createContextWithCustomLayersAndEvtd, Globals.initial, Nat.zero_add, Nat.one_mod,
        if_true, hglobals]
    rw [hfirst]
    refine newContext_spec ⟨1, e, l, d, ⟨b, .create⟩, q, v, rfl, harray, Handles.sized_create⟩
      rfl (.refl _) (hown.trans (.append_left _ h.memory)) (hgranted'.mono ?_) ?_
    · have hfits : (Handles.grows (.create : Handles Ptr)) = false := rfl
      simp [tableRequests, HandleTable.mustGrow, hfits]
    · exact .inr ⟨Int.ofNat_lt.2 hroom, .inl (by decide : (0 : Int) + 1 ≤ 2)⟩
  · have hzero : w.globals.globalsRefCount ≠ 0 := by
      rw [h.refCount]
      exact fun hnil => hxs (List.length_eq_zero_iff.1 hnil)
    have hlater : globalsRequests w.globals = 0 := if_neg hzero
    rw [requests, hlater, Nat.add_zero] at hgranted
    have hlt := h.lt
    have hcount := h.refCount
    have hsucc : (w.globals.globalsRefCount + 1) % 256 = w.globals.globalsRefCount + 1 := by omega
    unfold createContextWithCustomLayersAndEvtd
    simp only [hsucc]
    rw [if_neg (by omega)]
    obtain ⟨n, e, l, d, t, q, v, hglobals, harray, hsized⟩ := hg
    refine newContext_spec ⟨n + 1, e, l, d, t, q, v, ?_, harray, hsized⟩ (by simp only; omega)
      h.registered h.memory hgranted hroom
    rw [hglobals]

theorem createContext_spec {w : World} (h : Balanced w)
    (hgranted : w.heap.Granted (requests c w.globals)) (hroom : Room c w.globals) :
    ∃ r w', createContext c w = some (r, w') ∧ Balanced w' ∧ 0 ≤ r := by
  obtain ⟨p, w', hcreated, hbalanced, hmem⟩ :=
    createContextWithCustomLayersAndEvtd_spec none h hgranted hroom
  cases htable : w'.globals.contextHandlesVector with
  | none => simp [Globals.registered, htable] at hmem
  | some t =>
    have hslot : p ∈ t.slots.objects := by simpa [Globals.registered, htable] using hmem
    cases hfind : t.slots.find (some p) with
    | none => exact absurd (Handles.mem_objects.1 hslot) (Handles.find_eq_none.1 hfind)
    | some i =>
      refine ⟨i, w', ?_, hbalanced, Int.natCast_nonneg i⟩
      simp [createContext, hcreated, htable, hfind]

/-! ## Deletion -/

theorem releaseGlobals_spec {n : Nat} {e : EvtdInstance} {l d v : VectorBlocks} {t : HandleTable}
    {q : Ptr} {rest : List Ptr} (h : m.blocks.Perm ((⟨n, some e, ⟨some l, some d⟩, some t,
      some ⟨q, some v⟩⟩ : Globals).blocks ++ rest)) :
    ∃ m', releaseGlobals ⟨n, some e, ⟨some l, some d⟩, some t, some ⟨q, some v⟩⟩ m =
      some (⟨n, none, ⟨none, none⟩, none, none⟩, m') ∧ m'.blocks.Perm rest := by
  have hown : m.blocks.Perm ((⟨some l, some d⟩ : BackoffStatus).blocks ++ (e.blocks ++
      (t.blocks.blocks ++ (v.blocks ++ q :: rest)))) := ?_
  · exact ⟨_, rfl, Heap.perm_free (Heap.perm_freeAll (Heap.perm_freeAll (Heap.perm_freeAll
      (Heap.perm_freeAll hown))))⟩
  refine h.trans (List.perm_iff_count.2 fun x => ?_)
  simp only [Globals.blocks, Option.map_some, Option.getD_some, List.count_append, List.count_cons,
    List.count_nil]
  omega

/-- **A context that has a handle is deleted, and the last one takes the globals with it.** -/
theorem deleteContextWithCustomLayers_spec {w : World} {p : Ptr} (h : Balanced w)
    (hp : p ∈ w.globals.registered) :
    ∃ w', deleteContextWithCustomLayers w (some p) = some (.ok, w') ∧ Balanced w' := by
  have hlt := h.lt
  obtain ⟨g, xs, m⟩ := w
  rcases h.globals with ⟨hg, -⟩ | ⟨⟨n, e, l, d, t, q, v, hg, harray, hsized⟩, -⟩
  · obtain rfl : g = .initial := hg
    cases hp
  · obtain rfl : g = ⟨n, some e, ⟨some l, some d⟩, some t, some ⟨q, some v⟩⟩ := hg
    obtain ⟨slots, hslots, hobjects⟩ := Handles.deleteHandleForObject_spec hp
    obtain ⟨y, hy, hself⟩ := List.mem_map.1 (h.registered.mem_iff.1 hp)
    cases hfind : xs.find? fun x => x.context = p with
    | none => simpa [hself] using List.find?_eq_none.1 hfind y hy
    | some x =>
      have hx := List.mem_of_find?_eq_some hfind
      obtain rfl : x.context = p := by simpa using List.find?_some hfind
      have herase := List.perm_cons_erase hx
      have hlength : n = xs.length := h.refCount
      have hpos := List.length_pos_of_mem hx
      have hpred : (n + 255) % 256 = n - 1 := by
        simp only at hlt
        omega
      -- the blocks of the context, before those of the globals and of the other contexts
      have hmemory : m.blocks.Perm (x.layerChain ++ (x.ioTimeouts.blocks ++ (x.context ::
          ((⟨n - 1, some e, ⟨some l, some d⟩, some ⟨t.blocks, slots⟩, some ⟨q, some v⟩⟩ :
            Globals).blocks ++ (xs.erase x).flatMap IotcContext.blocks)))) := by
        refine (h.memory.trans (.append_left _ (herase.flatMap_right _))).trans
          (List.perm_iff_count.2 fun a => ?_)
        simp only [Globals.blocks, IotcContext.blocks, Option.map_some, Option.getD_some,
          List.flatMap_cons, List.count_append, List.count_cons, List.count_nil]
        omega
      have hfreed := Heap.perm_free (Heap.perm_freeAll (Heap.perm_freeAll hmemory))
      have hregistered : slots.objects.Perm ((xs.erase x).map IotcContext.context) :=
        (hobjects.symm.trans (h.registered.trans (herase.map _))).cons_inv
      simp only [deleteContextWithCustomLayers, Option.bind_some, hslots, hfind, hpred]
      by_cases hlast : n - 1 = 0
      · obtain ⟨m', hm', hown⟩ := releaseGlobals_spec (t := ⟨t.blocks, slots⟩) hfreed
        have hnil : xs.erase x = [] := by
          rw [← List.length_eq_zero_iff, List.length_erase_of_mem hx]
          omega
        rw [if_pos hlast, hm', hnil]
        rw [hnil] at hown
        refine ⟨_, rfl, .inl ⟨?_, rfl⟩, hlast, .refl _, hown⟩
        rw [hlast]
        rfl
      · rw [if_neg hlast]
        refine ⟨_, rfl, .inr ⟨⟨n - 1, e, l, d, ⟨t.blocks, slots⟩, q, v, rfl, harray,
          hsized.deleteHandleForObject hslots⟩, ?_⟩, ?_, hregistered, hfreed⟩
        · intro hnil
          have hnone : (xs.erase x).length = 0 := List.length_eq_zero_iff.2 hnil
          rw [List.length_erase_of_mem hx] at hnone
          omega
        · simp only [List.length_erase_of_mem hx]
          omega

/-! ## Sequences of calls -/

/-- The reference count is the number of contexts that have a handle; the dispatcher and the data of
the back-off are there exactly while it is positive, and at zero nothing is left of them. -/
structure Counted (w : World) : Prop where
  refCount : w.globals.globalsRefCount = w.globals.registered.length
  evtd : w.globals.evtdInstance.isSome ↔ 0 < w.globals.globalsRefCount
  backoffLut : w.globals.backoffStatus.backoffLut.isSome ↔ 0 < w.globals.globalsRefCount
  decayLut : w.globals.backoffStatus.decayLut.isSome ↔ 0 < w.globals.globalsRefCount
  released : w.globals.globalsRefCount = 0 → w.heap.blocks = []

/-- Reference count, handle table and heap are as they were. -/
def Unchanged (w w' : World) : Prop :=
  w'.globals.globalsRefCount = w.globals.globalsRefCount ∧
    w'.globals.contextHandlesVector = w.globals.contextHandlesVector ∧
    w'.heap.blocks.Perm w.heap.blocks

/-- A create that reports a failure leaves no trace. -/
def FailureUndone (c : Config) (w : World) : Call → Prop
  | .createContext answers =>
    ∀ r w', createContext c (w.answering answers) = some (r, w') → r < 0 → Unchanged w w'
  | .createContextWithCustomLayersAndEvtd eventDispatcher answers =>
    ∀ state w', createContextWithCustomLayersAndEvtd c eventDispatcher (w.answering answers) =
      some ((state, none), w') → Unchanged w w'
  | _ => True

/-- A create gets the memory it asks for and a slot of the handle table. A handle to delete is that
of a context, and a context is deleted while there is a handle table. -/
def Served (c : Config) (w : World) : Call → Prop
  | .createContext answers | .createContextWithCustomLayersAndEvtd _ answers =>
    (w.answering answers).heap.Granted (requests c w.globals) ∧ Room c w.globals
  | .deleteContext contextHandle =>
    ∃ t ∈ w.globals.contextHandlesVector, (t.slots.objectForHandle contextHandle).isSome
  | .deleteContextWithCustomLayers context =>
    context.isSome → w.globals.contextHandlesVector.isSome

theorem Balanced.counted {w : World} (h : Balanced w) : Counted w := by
  have hlength := h.registered.length_eq
  rw [List.length_map, ← h.refCount] at hlength
  rcases h.globals with ⟨hg, hxs⟩ | ⟨⟨n, e, l, d, t, q, v, hg, -, -⟩, hxs⟩
  · have hmemory := h.memory
    rw [hg, hxs] at hmemory
    refine ⟨hlength.symm, ?_, ?_, ?_, fun _ => hmemory.eq_nil⟩ <;> rw [hg] <;> decide
  · have hpos : 0 < w.globals.globalsRefCount := by
      rw [h.refCount]
      exact List.length_pos_iff.2 hxs
    refine ⟨hlength.symm, ?_, ?_, ?_, fun hzero => absurd hzero (Nat.ne_of_gt hpos)⟩ <;>
      simp only [hpos, iff_true] <;> rw [hg] <;> rfl

theorem Balanced.answering {w : World} (h : Balanced w) (answers : List Bool) :
    Balanced (w.answering answers) := ⟨h.globals, h.refCount, h.registered, h.memory⟩

/-- One call: it is carried out, a create is successful, and the balance stays. -/
theorem step_balanced {w : World} {call : Call} (h : Balanced w) (hs : Served c w call) :
    FailureUndone c w call ∧ ∃ w', step c w call = some w' ∧ Balanced w' := by
  cases call with
  | createContext answers =>
    obtain ⟨r, w', hcreated, hbalanced, hr⟩ := createContext_spec (h.answering answers) hs.1 hs.2
    refine ⟨fun r' w'' h'' hneg => ?_, w', by rw [step, hcreated, Option.map_some], hbalanced⟩
    rw [hcreated] at h''
    cases h''
    omega
  | createContextWithCustomLayersAndEvtd eventDispatcher answers =>
    obtain ⟨p, w', hcreated, hbalanced, -⟩ := createContextWithCustomLayersAndEvtd_spec
      eventDispatcher (h.answering answers) hs.1 hs.2
    refine ⟨fun state w'' h'' => ?_, w', by rw [step, hcreated, Option.map_some], hbalanced⟩
    rw [hcreated] at h''
    cases h''
  | deleteContext contextHandle =>
    obtain ⟨t, ht, hobject⟩ := hs
    obtain ⟨p, hp⟩ := Option.isSome_iff_exists.1 hobject
    have hmem : p ∈ w.globals.registered := by
      rw [Globals.registered, Option.mem_def.1 ht]
      exact Handles.mem_objects.2 (Handles.objectForHandle_mem hp)
    obtain ⟨w', hdeleted, hbalanced⟩ := deleteContextWithCustomLayers_spec h hmem
    refine ⟨trivial, w', ?_, hbalanced⟩
    simp [step, deleteContext, Option.mem_def.1 ht, hp, hdeleted]
  | deleteContextWithCustomLayers context =>
    refine ⟨trivial, ?_⟩
    cases context with
    | none => exact ⟨w, rfl, h⟩
    | some p =>
      by_cases hp : p ∈ w.globals.registered
      · obtain ⟨w', hdeleted, hbalanced⟩ := deleteContextWithCustomLayers_spec h hp
        exact ⟨w', by rw [step, hdeleted, Option.map_some], hbalanced⟩
      · obtain ⟨t, ht⟩ := Option.isSome_iff_exists.1 (hs rfl)
        have hnone : t.slots.deleteHandleForObject p = none :=
          Handles.deleteHandleForObject_eq_none (by simpa [Globals.registered, ht] using hp)
        exact ⟨w, by simp [step, deleteContextWithCustomLayers, ht, hnone], h⟩

/-- **As long as every create gets the memory it asks for and a slot, the calls are all carried out,
the reference count is that of the contexts with a handle, and the globals are there exactly while it
is positive.** -/
theorem contexts_counted (c : Config) (calls : List Call)
    (hserved : AllSteps (step c) (Served c) .initial calls) :
    AllSteps (step c) (FailureUndone c) .initial calls ∧
      ∃ w, run (step c) .initial calls = some w ∧ Counted w := by
  suffices h : ∀ {calls : List Call} {w : World}, Balanced w →
      AllSteps (step c) (Served c) w calls → AllSteps (step c) (FailureUndone c) w calls ∧
        ∃ w', run (step c) w calls = some w' ∧ Balanced w' by
    obtain ⟨hundone, w, hrun, hbalanced⟩ := h balanced_initial hserved
    exact ⟨hundone, w, hrun, hbalanced.counted⟩
  intro calls
  induction calls with
  | nil => exact fun {w} h _ => ⟨trivial, w, rfl, h⟩
  | cons call calls ih =>
    intro w h hall
    obtain ⟨hundone, w₁, hstep, h₁⟩ := step_balanced h hall.1
    obtain ⟨hundones, w', hrun, h'⟩ := ih h₁ (hall.2 w₁ hstep)
    exact ⟨.cons hundone hstep hundones, w', by rw [run_cons, hstep, Option.bind_some, hrun], h'⟩

/-- The chain with the TLS layer, and room for two contexts. -/
def defaultConfig : Config := ⟨5, 2, by decide⟩

/-- Two contexts, one that is deleted, and a third one in its slot. -/
theorem contexts_counted_reused :
    AllSteps (step defaultConfig) (FailureUndone defaultConfig) .initial
        [.createContext [true], .createContextWithCustomLayersAndEvtd none [], .deleteContext 0,
          .createContext [], .deleteContext 1, .deleteContext 0] ∧
      ∃ w, run (step defaultConfig) .initial
        [.createContext [true], .createContextWithCustomLayersAndEvtd none [], .deleteContext 0,
          .createContext [], .deleteContext 1, .deleteContext 0] = some w ∧ Counted w :=
  contexts_counted defaultConfig _
    (.cons ⟨by decide, Nat.zero_lt_two⟩ rfl (.cons ⟨by decide, .inr (by decide)⟩ rfl
      (.cons ⟨_, rfl, rfl⟩ rfl (.cons ⟨by decide, .inl (by decide)⟩ rfl
        (.cons ⟨_, rfl, rfl⟩ rfl (.cons ⟨_, rfl, rfl⟩ rfl trivial))))))

/-- With two contexts a third create finds no slot: it fails, and the reference count is three. When
both contexts are deleted the dispatcher is still there. -/
theorem contexts_counted_fails :
    ∃ w₂ w₃ w, run (step defaultConfig) .initial [.createContext [], .createContext []] = some w₂ ∧
      createContext defaultConfig (w₂.answering []) = some (-55, w₃) ∧
      ¬ FailureUndone defaultConfig w₂ (.createContext []) ∧ ¬ Counted w₃ ∧
      run (step defaultConfig) w₃ [.deleteContext 0, .deleteContext 1] = some w ∧
      w.globals.registered = [] ∧ w.globals.evtdInstance.isSome ∧ ¬ Counted w := by
  refine ⟨_, _, _, rfl, rfl, ?_, ?_, rfl, rfl, rfl, ?_⟩
  · intro h
    have hcount := (h _ _ rfl (by decide)).1
    exact absurd hcount (by decide)
  · intro h
    exact absurd h.refCount (by decide)
  · intro h
    exact absurd h.refCount (by decide)

end IotDeviceSdk.Context
