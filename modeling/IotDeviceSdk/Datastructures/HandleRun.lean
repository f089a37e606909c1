import IotDeviceSdk.Datastructures.Handle
import IotDeviceSdk.Infra.Run

/-!
# Runs of a handle table

Registrations, deletions and lookups in one table. Two of them do not tell the truth:

* a registration that finds no place for the object reports success;
* a lookup converts the handle to an index of a vector, so that a handle that was never given out
  denotes what is at the index.
-/

namespace IotDeviceSdk.Datastructures

open Infra

namespace Handles

variable {α : Type} [DecidableEq α]

/-- An operation on a handle table. -/
inductive Op (α : Type) where
  | register (maxObjectCnt : Int) (object : α) (mem : Bool)
  | delete (object : α)
  | lookup (handle : Int)
  deriving DecidableEq

/-- What an operation does to the table. -/
def apply (v : Handles α) : Op α → Handles α
  | .register maxObjectCnt object mem =>
    (v.registerHandleForObject maxObjectCnt object mem).getD v
  | .delete object => (v.deleteHandleForObject object).getD v
  | .lookup _ => v

/-- The operation reports a failure. -/
def fails (v : Handles α) : Op α → Bool
  | .register maxObjectCnt object mem =>
    (v.registerHandleForObject maxObjectCnt object mem).isNone
  | .delete object => (v.deleteHandleForObject object).isNone
  | .lookup _ => false

/-- One step. -/
def step (v : Handles α) (op : Op α) : Option (Handles α) := some (v.apply op)

/-- An object that is registered is not registered again. -/
def Once (v : Handles α) : Op α → Prop
  | .register _ object _ => object ∉ v.objects
  | _ => True

/-- What an operation says and does is true of the table. -/
structure Truthful (v : Handles α) (op : Op α) : Prop where
  /-- an object whose registration is reported is found, and its handle is mapped back to it -/
  registered : ∀ maxObjectCnt object mem, op = .register maxObjectCnt object mem → v.fails op = false →
    ∃ handle : Nat, (v.apply op).findHandleForObject object = some handle ∧
      (v.apply op).objectForHandle handle = some object
  /-- two objects do not have the same handle -/
  distinct : ∀ (object other : α) handle, (v.apply op).findHandleForObject object = some handle →
    (v.apply op).findHandleForObject other = some handle → object = other
  /-- an object that is not deleted keeps its handle, and the handle still denotes it -/
  kept : ∀ (object : α) handle, v.findHandleForObject object = some handle → op ≠ .delete object →
    (v.apply op).findHandleForObject object = some handle ∧
      (v.apply op).objectForHandle handle = some object
  /-- a handle that denotes an object is the handle of the object -/
  own : ∀ handle object, op = .lookup handle → v.objectForHandle handle = some object →
    ∃ i : Nat, v.findHandleForObject object = some i ∧ (i : Int) = handle
  /-- a deletion removes the slot of the object, and only this one -/
  deleted : ∀ (object : α) (handle : Nat), op = .delete object →
    v.findHandleForObject object = some handle →
      v.fails op = false ∧ ∀ k, (v.apply op).get k = if k = handle then none else v.get k
  /-- an operation that reports a failure leaves the table unchanged -/
  failed : v.fails op = true → v.apply op = v

/-- There is an object at the index. -/
def Live (v : Handles α) (index : Int) : Prop :=
  0 ≤ index ∧ v.array[index.toNat]?.join.isSome

/-- A registration finds a place or reports that there is none; a handle that is looked up is in the
range of the indices, or is converted to an index at which there is no object. -/
def Served (v : Handles α) : Op α → Prop
  | .register maxObjectCnt _ mem =>
    none ∈ v.array ∨ maxObjectCnt ≤ v.elemNo ∨ IotcVector.HasPlace v mem
  | .delete _ => True
  | .lookup handle => (-128 ≤ handle ∧ handle ≤ 127) ∨ ¬ v.Live (IotcVector.toIndexType handle)

instance (v : Handles α) (index : Int) : Decidable (v.Live index) :=
  inferInstanceAs (Decidable (_ ∧ _))

instance (v : Handles α) : (op : Op α) → Decidable (v.Once op)
  | .register _ object _ => inferInstanceAs (Decidable (object ∉ v.objects))
  | .delete _ | .lookup _ => .isTrue trivial

instance (v : Handles α) : (op : Op α) → Decidable (v.Served op)
  | .register _ _ _ => inferInstanceAs (Decidable (_ ∨ _ ∨ _))
  | .delete _ => .isTrue trivial
  | .lookup _ => inferInstanceAs (Decidable (_ ∨ _))

/-- An object has one slot. -/
def Unique (v : Handles α) : Prop :=
  ∀ h k object, v.get h = some object → v.get k = some object → k = h

/-! ## Slots and handles -/

omit [DecidableEq α] in
theorem get_eq_some {v : Handles α} {index : Int} {object : α} :
    v.get index = some object ↔ 0 ≤ index ∧ v.array[index.toNat]? = some (some object) := by
  unfold get
  split
  · next h => exact iff_of_false (by simp) fun h' => Int.not_lt.2 h'.1 h
  · next h => rw [Option.join_eq_some_iff, and_iff_right (Int.not_lt.1 h)]

omit [DecidableEq α] in
theorem mem_objects_iff {v : Handles α} {object : α} :
    object ∈ v.objects ↔ ∃ handle, v.get handle = some object := by
  rw [mem_objects]
  constructor
  · intro h
    obtain ⟨i, hi, hget⟩ := List.getElem_of_mem h
    exact ⟨i, by simp [get, List.getElem?_eq_getElem hi, hget]⟩
  · rintro ⟨handle, h⟩
    exact get_mem h

theorem find_of_get {v : Handles α} (hv : v.Unique) {handle : Int} {object : α}
    (h : v.get handle = some object) :
    ∃ i : Nat, v.findHandleForObject object = some i ∧ (i : Int) = handle :=
  find_eq_handle h fun k => hv handle k object h

theorem find_eq_some_iff {v : Handles α} (hv : v.Unique) {i : Nat} {object : α} :
    v.findHandleForObject object = some i ↔ v.get i = some object := by
  constructor
  · exact get_find
  · intro h
    obtain ⟨j, hj, heq⟩ := find_of_get hv h
    rwa [Int.ofNat_inj.1 heq] at hj

theorem toIndexType_eq_self {n : Int} : IotcVector.toIndexType n = n ↔ -128 ≤ n ∧ n ≤ 127 := by
  unfold IotcVector.toIndexType
  rw [Int.bmod_def]
  split <;> omega

/-! ## What the operations do to the slots -/

/-- One slot is filled, which was free. -/
structure Filled (v v' : Handles α) (object : α) (handle : Int) : Prop where
  free : v.get handle = none
  slots : ∀ k, v'.get k = if k = handle then some object else v.get k

omit [DecidableEq α] in
theorem Filled.unique {v v' : Handles α} {object : α} {handle : Int} (h : Filled v v' object handle)
    (hv : v.Unique) (hnew : object ∉ v.objects) : v'.Unique := by
  have hother : ∀ k, v.get k ≠ some object := fun k hk => hnew (mem_objects_iff.2 ⟨k, hk⟩)
  intro a b x ha hb
  rw [h.slots] at ha hb
  split at ha
  · next hah =>
    obtain rfl := Option.some.inj ha
    split at hb
    · next hbh => rw [hah, hbh]
    · exact absurd hb (hother b)
  · split at hb
    · obtain rfl := Option.some.inj hb
      exact absurd ha (hother a)
    · exact hv a b x ha hb

/-- A registration that is served reports that the table is full, or fills a slot; and one that is
not served reports success and does nothing. -/
theorem registerHandleForObject_served {v : Handles α} (hv : v.Sized) (maxObjectCnt : Int)
    (object : α) (mem : Bool) :
    (v.Served (.register maxObjectCnt object mem) ∧
      (v.registerHandleForObject maxObjectCnt object mem = none ∨
        ∃ v' handle, v.registerHandleForObject maxObjectCnt object mem = some v' ∧ v'.Sized ∧
          Filled v v' object handle)) ∨
      (¬ v.Served (.register maxObjectCnt object mem) ∧
        v.registerHandleForObject maxObjectCnt object mem = some v) := by
  by_cases hfree : none ∈ v.array
  · have hroom : v.Room maxObjectCnt := .inl hfree
    have hmem : none ∉ v.array → v.grows → mem = true := fun hfull => absurd hfree hfull
    obtain ⟨v', handle, h, hv', hnone, hslots⟩ :=
      registerHandleForObject_handle object hv hroom hmem
    exact .inl ⟨.inl hfree, .inr ⟨v', handle, h, hv', hnone, hslots⟩⟩
  · have hfind : v.find none = none := find_eq_none.2 hfree
    by_cases hmax : maxObjectCnt ≤ v.elemNo
    · refine .inl ⟨.inr (.inl hmax), .inl ?_⟩
      simp [registerHandleForObject, hfind, hmax]
    · by_cases hplace : IotcVector.HasPlace v mem
      · have hroom : v.Room maxObjectCnt :=
          .inr ⟨Int.not_le.1 hmax, hplace.imp_right fun h => h.2.1⟩
        have hmem : none ∉ v.array → v.grows → mem = true := by
          intro _ hgrows
          simp only [grows, Bool.and_eq_true, decide_eq_true_eq] at hgrows
          exact (hplace.resolve_left (by omega)).2.2
        obtain ⟨v', handle, h, hv', hnone, hslots⟩ :=
          registerHandleForObject_handle object hv hroom hmem
        exact .inl ⟨.inr (.inr hplace), .inr ⟨v', handle, h, hv', hnone, hslots⟩⟩
      · refine .inr ⟨?_, ?_⟩
        · rintro (h | h | h)
          · exact hfree h
          · exact hmax h
          · exact hplace h
        · simp [registerHandleForObject, hfind, hmax, IotcVector.push_eq_none hplace]

/-- The deletion of an object empties its slot. -/
theorem deleteHandleForObject_slots {v : Handles α} (hv : v.Unique) {object : α} {handle : Nat}
    (h : v.findHandleForObject object = some handle) :
    ∃ v', v.deleteHandleForObject object = some v' ∧
      ∀ k, v'.get k = if k = handle then none else v.get k := by
  have hget := get_find h
  exact deleteHandleForObject_handle hget fun k hk => hv handle k object hget hk

omit [DecidableEq α] in
/-- Some slots less. -/
theorem Unique.shrink {v v' : Handles α} (hv : v.Unique)
    (h : ∀ k object, v'.get k = some object → v.get k = some object) : v'.Unique :=
  fun a b x ha hb => hv a b x (h a x ha) (h b x hb)

/-! ## Steps -/

/-- What the runs keep. -/
structure Sound (v : Handles α) : Prop where
  sized : v.Sized
  unique : v.Unique

omit [DecidableEq α] in
theorem sound_create : Sound (.create : Handles α) where
  sized := sized_create
  unique := fun h k object hh => by simp [get, IotcVector.create] at hh

variable {v : Handles α}

theorem Sound.apply (hv : v.Sound) {op : Op α} (honce : v.Once op) : (v.apply op).Sound := by
  cases op with
  | register maxObjectCnt object mem =>
    simp only [Handles.apply]
    rcases registerHandleForObject_served hv.sized maxObjectCnt object mem with
      ⟨-, h | ⟨v', handle, h, hv', hfilled⟩⟩ | ⟨-, h⟩
    · rwa [h]
    · rw [h]
      exact ⟨hv', hfilled.unique hv.unique honce⟩
    · rwa [h]
  | delete object =>
    simp only [Handles.apply]
    cases hfind : v.findHandleForObject object with
    | none =>
      have hnone : v.deleteHandleForObject object = none := by
        rw [deleteHandleForObject, ← findHandleForObject, hfind, Option.map_none]
      rwa [hnone]
    | some handle =>
      obtain ⟨v', h, hslots⟩ := deleteHandleForObject_slots hv.unique hfind
      rw [h]
      refine ⟨hv.sized.deleteHandleForObject h, hv.unique.shrink fun k x hk => ?_⟩
      rw [Option.getD_some, hslots] at hk
      split at hk
      · cases hk
      · exact hk
  | lookup handle => exact hv

/-- A lookup tells the truth exactly when it is served. -/
theorem lookup_iff (hv : v.Sound) (handle : Int) :
    (∀ object, v.objectForHandle handle = some object →
      ∃ i : Nat, v.findHandleForObject object = some i ∧ (i : Int) = handle) ↔
      v.Served (.lookup handle) := by
  constructor
  · intro h
    refine Classical.or_iff_not_imp_left.2 fun hrange => ?_
    rintro ⟨hpos, hlive⟩
    obtain ⟨object, hget⟩ := Option.isSome_iff_exists.1 hlive
    have hobject : v.objectForHandle handle = some object :=
      get_eq_some.2 ⟨hpos, Option.join_eq_some_iff.1 hget⟩
    obtain ⟨i, hfind, rfl⟩ := h object hobject
    exact hrange (toIndexType_eq_self.1 (hv.unique _ _ _ (get_find hfind) hobject))
  · rintro (hrange | hdead) object hobject
    · rw [objectForHandle, toIndexType_eq_self.2 hrange] at hobject
      exact find_of_get hv.unique hobject
    · obtain ⟨hpos, hget⟩ := get_eq_some.1 hobject
      refine absurd ⟨hpos, ?_⟩ hdead
      rw [Option.join_eq_some_iff.2 hget, Option.isSome_some]

/-- What the table says of objects that are in the same slot before and after. -/
theorem Sound.find_kept (hv : v.Sound) {v' : Handles α} (hv' : v'.Sound) {object : α} {handle : Nat}
    (hslot : v.get handle = some object → v'.get handle = some object)
    (hfind : v.findHandleForObject object = some handle) :
    v'.findHandleForObject object = some handle ∧ v'.objectForHandle handle = some object := by
  have hget := hslot ((find_eq_some_iff hv.unique).1 hfind)
  exact ⟨(find_eq_some_iff hv'.unique).2 hget, objectForHandle_of_get hv'.sized hget⟩

theorem distinct (v : Handles α) (object other : α) (handle : Nat)
    (h : v.findHandleForObject object = some handle)
    (h' : v.findHandleForObject other = some handle) : object = other :=
  Option.some.inj ((get_find h).symm.trans (get_find h'))

theorem lookup_truthful (hv : v.Sound) {handle : Int} :
    v.Truthful (.lookup handle) ↔ v.Served (.lookup handle) := by
  rw [← lookup_iff hv handle]
  constructor
  · intro h object hobject
    exact h.own handle object rfl hobject
  · intro h
    refine ⟨?_, distinct _, ?_, ?_, ?_, fun _ => rfl⟩
    · rintro _ _ _ ⟨⟩
    · intro object i hfind _
      exact hv.find_kept hv id hfind
    · rintro _ object ⟨⟩ hobject
      exact h object hobject
    · rintro _ _ ⟨⟩

theorem delete_truthful (hv : v.Sound) (object : α) : v.Truthful (.delete object) := by
  have hv' : (v.apply (.delete object)).Sound := hv.apply trivial
  refine ⟨?_, distinct _, ?_, ?_, ?_, ?_⟩
  · rintro _ _ _ ⟨⟩
  · intro other i hfind hne
    refine hv.find_kept hv' (fun hget => ?_) hfind
    cases hown : v.findHandleForObject object with
    | none =>
      have hnone : v.deleteHandleForObject object = none := by
        rw [deleteHandleForObject, ← findHandleForObject, hown, Option.map_none]
      simpa [Handles.apply, hnone] using hget
    | some handle =>
      obtain ⟨w, h, hslots⟩ := deleteHandleForObject_slots hv.unique hown
      have hslot : (i : Int) ≠ handle := by
        intro heq
        rw [heq, get_find hown] at hget
        exact hne (congrArg Op.delete (Option.some.inj hget))
      simp only [Handles.apply, h, Option.getD_some]
      rw [hslots, if_neg hslot, hget]
  · rintro _ _ ⟨⟩
  · rintro _ handle ⟨⟩ hfind
    obtain ⟨w, h, hslots⟩ := deleteHandleForObject_slots hv.unique hfind
    simp only [fails, Handles.apply, h]
    exact ⟨rfl, hslots⟩
  · intro hfails
    simp only [fails, Option.isNone_iff_eq_none] at hfails
    simp [Handles.apply, hfails]

theorem register_truthful (hv : v.Sound) {maxObjectCnt : Int} {object : α} {mem : Bool}
    (hnew : object ∉ v.objects) :
    v.Truthful (.register maxObjectCnt object mem) ↔
      v.Served (.register maxObjectCnt object mem) := by
  have hv' : (v.apply (.register maxObjectCnt object mem)).Sound := hv.apply hnew
  rcases registerHandleForObject_served hv.sized maxObjectCnt object mem with
    ⟨hserved, hplaced⟩ | ⟨hnot, h⟩
  · refine iff_of_true ⟨?_, distinct _, ?_, ?_, ?_, ?_⟩ hserved
    · rintro _ _ _ ⟨⟩ hok
      rcases hplaced with h | ⟨w, handle, h, hw, hfilled⟩
      · simp [fails, h] at hok
      · have hslot : w.get handle = some object := by rw [hfilled.slots, if_pos rfl]
        have happly : v.apply (.register maxObjectCnt object mem) = w := by simp [Handles.apply, h]
        rw [happly] at hv' ⊢
        obtain ⟨i, hfind, rfl⟩ := find_of_get hv'.unique hslot
        exact ⟨i, hfind, objectForHandle_of_get hw hslot⟩
    · intro other i hfind _
      refine hv.find_kept hv' (fun hget => ?_) hfind
      rcases hplaced with h | ⟨w, handle, h, hw, hfilled⟩
      · simpa [Handles.apply, h] using hget
      · have hother : (i : Int) ≠ handle := by
          intro heq
          rw [heq, hfilled.free] at hget
          cases hget
        simp only [Handles.apply, h, Option.getD_some]
        rw [hfilled.slots, if_neg hother, hget]
    · rintro _ _ ⟨⟩
    · rintro _ _ ⟨⟩
    · intro hfails
      simp only [fails, Option.isNone_iff_eq_none] at hfails
      simp [Handles.apply, hfails]
  · refine iff_of_false (fun htruthful => ?_) hnot
    obtain ⟨i, hfind, -⟩ := htruthful.registered _ _ _ rfl (by simp [fails, h])
    simp only [Handles.apply, h, Option.getD_some] at hfind
    exact hnew (mem_objects_iff.2 ⟨i, get_find hfind⟩)

/-- **A step tells the truth exactly when it is served.** -/
theorem truthful_iff (hv : v.Sound) {op : Op α} (honce : v.Once op) :
    v.Truthful op ↔ v.Served op := by
  cases op with
  | register maxObjectCnt object mem => exact register_truthful hv honce
  | delete object => exact iff_of_true (delete_truthful hv object) trivial
  | lookup handle => exact lookup_truthful hv

/-- **In a run in which no object is registered twice, every operation tells the truth exactly when
every operation is served.** -/
theorem truthful_throughout_iff (ops : List (Op α)) (honce : AllSteps step Once .create ops) :
    AllSteps step Truthful (.create : Handles α) ops ↔ AllSteps step Served .create ops := by
  refine allSteps_congr (I := Sound) ?_ (fun _ _ hv hop => truthful_iff hv hop) sound_create honce
  intro v op v' hv hop h
  obtain rfl := Option.some.inj h
  exact hv.apply hop

/-- Three objects, for which the table grows, and the slot of the first is used again. -/
theorem truthful_throughout_reuse :
    AllSteps step Truthful (.create : Handles Nat)
      [.register 8 1 true, .register 8 2 true, .register 8 3 true, .lookup 2, .lookup 3, .delete 1,
        .register 8 4 false, .lookup 0, .lookup (-1), .lookup 259] :=
  (truthful_throughout_iff _ (by decide)).2 (by decide)

/-- Without memory for the third object its registration is reported, and it has no handle; and
the handle 256, which nobody was given, denotes the object that has the handle 0. -/
theorem truthful_throughout_fails :
    (AllSteps step Once (.create : Handles Nat)
        [.register 8 1 true, .register 8 2 true, .register 8 3 false] ∧
      ¬ AllSteps step Truthful (.create : Handles Nat)
        [.register 8 1 true, .register 8 2 true, .register 8 3 false]) ∧
      AllSteps step Once (.create : Handles Nat) [.register 8 1 true, .lookup 256] ∧
        ¬ AllSteps step Truthful (.create : Handles Nat) [.register 8 1 true, .lookup 256] := by
  refine ⟨⟨by decide, ?_⟩, by decide, ?_⟩
  · rintro ⟨-, h⟩
    obtain ⟨i, hfind, -⟩ := ((h _ rfl).2 _ rfl).1.registered 8 3 false rfl (by decide)
    have hnone : (((Handles.apply .create (.register 8 1 true)).apply (.register 8 2 true)).apply
      (.register 8 3 false)).findHandleForObject 3 = none := by decide
    rw [hnone] at hfind
    cases hfind
  · rintro ⟨-, h⟩
    obtain ⟨i, hfind, hhandle⟩ := (h _ rfl).1.own 256 1 rfl (by decide)
    have hzero : (Handles.apply .create (.register 8 1 true)).findHandleForObject 1 = some 0 := by
      decide
    rw [hzero, Option.some.injEq] at hfind
    omega

end Handles

end IotDeviceSdk.Datastructures
