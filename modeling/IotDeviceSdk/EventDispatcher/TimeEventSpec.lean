import Mathlib.Data.Option.Basic
import Mathlib.Algebra.Order.Group.Int
import Mathlib.Data.List.Nodup
import Mathlib.Tactic.Tauto
import IotDeviceSdk.Infra.StableOrder
import IotDeviceSdk.EventDispatcher.TimeEvent

/-!
# What the time event operations do to the container

The moves of `iotc_time_event.c` swap one pair of neighbours after another. Here they are told
in one step: `arrange` gives the container a new order and every event its place in it, and each
move is an `arrange` of the same events.

* `Valid` is the invariant: places, order, and the correspondence of handles and events.
* `add_spec`, `getTop_spec`, `restart_spec` and `cancel_spec` say what each operation does to a
  valid container; each leaves a valid one.
-/

namespace IotDeviceSdk.EventDispatcher.TimeEvents

open Datastructures Infra

variable {H : Type} {c c' : TimeEvents H}

/-! ## Places -/

/-- Every event of the container stores its own index. -/
def Placed (c : TimeEvents H) : Prop := ∀ (i : Nat) (e : EventPtr),
  c.array[i]? = some e → (c.event e).position = i

theorem Placed.position_split (hp : c.Placed) {L R : List EventPtr} {e : EventPtr}
    (h : c.array = L ++ e :: R) : (c.event e).position = L.length :=
  hp L.length e (by simp [h])

theorem Placed.nodup (hp : c.Placed) : c.array.Nodup := by
  rw [List.nodup_iff_getElem?_ne_getElem?]
  intro i j hij hj heq
  obtain ⟨e, he⟩ : ∃ e, c.array[j]? = some e := ⟨_, List.getElem?_eq_getElem hj⟩
  have h1 := hp i e (heq.trans he)
  have h2 := hp j e he
  omega

theorem Placed.nodup_swap (hp : c.Placed) {L R : List EventPtr} {a b : EventPtr}
    (h : c.array = L ++ a :: b :: R) : (L ++ b :: a :: R).Nodup := by
  have hnd := hp.nodup
  rw [h] at hnd
  exact hnd.perm (List.Perm.append_left L (List.Perm.swap b a R))

theorem Placed.position_eq_idxOf (hp : c.Placed) {e : EventPtr} (he : e ∈ c.array) :
    (c.event e).position = c.array.idxOf e := by
  have hlt := List.idxOf_lt_length_of_mem he
  exact hp _ e (by rw [List.getElem?_eq_getElem hlt, List.getElem_idxOf])

theorem idxOf_swap {L R : List EventPtr} {a b x : EventPtr} (ha : x ≠ a) (hb : x ≠ b) :
    (L ++ b :: a :: R).idxOf x = (L ++ a :: b :: R).idxOf x := by
  simp only [List.idxOf_append, List.idxOf_cons_ne _ ha.symm, List.idxOf_cons_ne _ hb.symm]

/-! ## arrange -/

/-- The container in the order `xs`, with every event of `xs` at its place. -/
def arrange (c : TimeEvents H) (xs : List EventPtr) : TimeEvents H :=
  { c with
    container := { c.container with array := xs }
    event := fun e =>
      if e ∈ xs then { c.event e with position := xs.idxOf e } else c.event e }

@[simp] theorem arrange_array (xs : List EventPtr) : (c.arrange xs).array = xs := rfl

@[simp] theorem arrange_container (xs : List EventPtr) :
    (c.arrange xs).container = { c.container with array := xs } := rfl

@[simp] theorem arrange_ptrToPosition (xs : List EventPtr) :
    (c.arrange xs).ptrToPosition = c.ptrToPosition := rfl

@[simp] theorem arrange_time (xs : List EventPtr) : (c.arrange xs).time = c.time := by
  funext e
  simp only [time, arrange]
  split <;> rfl

theorem placed_arrange {xs : List EventPtr} (h : xs.Nodup) : (c.arrange xs).Placed := by
  intro i e he
  rw [arrange_array] at he
  obtain ⟨hi, rfl⟩ := List.getElem?_eq_some_iff.mp he
  simp [arrange, h.idxOf_getElem]

theorem Placed.arrange_self (hp : c.Placed) : c.arrange c.array = c := by
  have hev : (c.arrange c.array).event = c.event := by
    funext e
    simp only [arrange]
    split
    · next he => rw [← hp.position_eq_idxOf he]
    · rfl
  cases c
  simp only [arrange, array, TimeEvents.mk.injEq] at hev ⊢
  exact ⟨trivial, hev, trivial⟩

theorem arrange_arrange {xs ys : List EventPtr} (h : xs.Perm ys) :
    (c.arrange xs).arrange ys = c.arrange ys := by
  have hev : ((c.arrange xs).arrange ys).event = (c.arrange ys).event := by
    funext e
    by_cases he : e ∈ ys <;> simp [arrange, h.mem_iff, he]
  simp only [arrange, TimeEvents.mk.injEq] at hev ⊢
  exact ⟨trivial, hev, trivial⟩

/-! ## Moves -/

theorem at?_natCast (n : Nat) : c.at? (n : Int) = c.array[n]? := by
  simp [at?]

/-- After a swap of neighbours both have their new places. -/
theorem arrange_swap (hp : c.Placed) {L R : List EventPtr} {a b : EventPtr}
    (h : c.array = L ++ a :: b :: R) :
    (((TimeEvents.mk { c.container with array := L ++ b :: a :: R } c.event c.ptrToPosition
      : TimeEvents H).setPosition a (L.length + 1 : Nat)).setPosition b (L.length : Nat))
      = c.arrange (L ++ b :: a :: R) := by
  have hnd := hp.nodup
  rw [h] at hnd
  have hab : a ≠ b := by
    rintro rfl
    simp [List.nodup_append] at hnd
  have haL : a ∉ L := fun hm => List.disjoint_of_nodup_append hnd hm (by simp)
  have hbL : b ∉ L := fun hm => List.disjoint_of_nodup_append hnd hm (by simp)
  simp only [setPosition, arrange, TimeEvents.mk.injEq, true_and, and_true]
  funext x
  by_cases hxb : x = b
  · subst hxb
    simp [List.idxOf_append, hbL, hab.symm]
  · by_cases hxa : x = a
    · subst hxa
      simp [List.idxOf_append, haL, hab.symm, hab, List.idxOf_cons_ne, Int.add_comm]
    · rw [Function.update_of_ne hxb, Function.update_of_ne hxa]
      split
      · next hx =>
        have hmem : x ∈ c.array := by rw [h]; simp at hx ⊢; tauto
        have hpos := hp.position_eq_idxOf hmem
        rw [h, ← idxOf_swap hxa hxb] at hpos
        rw [← hpos]
      · rfl

theorem swapTimeEvents_up (hp : c.Placed) {L R : List EventPtr} {a b : EventPtr}
    (h : c.array = L ++ a :: b :: R) :
    c.swapTimeEvents (L.length : Nat) (L.length + 1 : Nat)
      = some (c.arrange (L ++ b :: a :: R)) := by
  have ha : c.array[L.length]? = some a := by simp [h]
  have hb : c.array[L.length + 1]? = some b := by simp [h]
  simp only [swapTimeEvents, at?_natCast, ha, hb, Int.toNat_natCast, Option.bind_eq_bind,
    Option.bind_some, Option.pure_def, IotcVector.swapElems_adjacent h]
  rw [← arrange_swap hp h]

theorem swapTimeEvents_down (hp : c.Placed) {L R : List EventPtr} {a b : EventPtr}
    (h : c.array = L ++ a :: b :: R) :
    c.swapTimeEvents (L.length + 1 : Nat) (L.length : Nat)
      = some (c.arrange (L ++ b :: a :: R)) := by
  have ha : c.array[L.length]? = some a := by simp [h]
  have hb : c.array[L.length + 1]? = some b := by simp [h]
  have hnd := hp.nodup
  rw [h] at hnd
  have hab : a ≠ b := by
    rintro rfl
    simp [List.nodup_append] at hnd
  simp only [swapTimeEvents, at?_natCast, ha, hb, Int.toNat_natCast, Option.bind_eq_bind,
    Option.bind_some, Option.pure_def, IotcVector.swapElems_adjacent' h]
  rw [← arrange_swap hp h]
  congr 1
  simp only [setPosition, TimeEvents.mk.injEq, true_and, and_true]
  rw [Function.update_of_ne hab, Function.update_of_ne hab.symm, Function.update_comm hab]

/-- What the bubbling down of `e` passes: the events just below it that come strictly later. -/
theorem bubbleLoop_down {e : EventPtr} : ∀ (L R : List EventPtr) (c : TimeEvents H), c.Placed →
    c.array = L ++ e :: R →
    bubbleLoop .down L.length c L.length =
      some (c.arrange (L.rdropWhile (fun x => c.time e < c.time x) ++ e ::
          (L.rtakeWhile (fun x => c.time e < c.time x) ++ R)),
        (L.rdropWhile (fun x => c.time e < c.time x)).length) := by
  intro L
  induction L using List.reverseRecOn with
  | nil =>
    intro R c hp h
    simp only [List.nil_append] at h
    simp [bubbleLoop, List.rdropWhile, List.rtakeWhile, ← h, hp.arrange_self]
  | append_singleton L a ih =>
    intro R c hp h
    have h' : c.array = L ++ a :: e :: R := by simpa using h
    have ha : c.array[L.length]? = some a := by simp [h']
    have he : c.array[L.length + 1]? = some e := by simp [h']
    have hpa : (c.event a).position = (L.length : Nat) := hp.position_split h'
    have hpe : (c.event e).position = (L.length + 1 : Nat) := by
      have := hp.position_split h
      simpa using this
    simp only [List.length_append, List.length_singleton, bubbleLoop, Dir.next,
      Nat.add_sub_cancel, ha, he, Option.bind_eq_bind, Option.bind_some]
    by_cases hlt : c.time e < c.time a
    · rw [if_pos (by simpa [Dir.misplaced] using hlt), hpa, hpe, swapTimeEvents_up hp h', Option.bind_some]
      rw [ih (a :: R) _ (placed_arrange (hp.nodup_swap h')) rfl]
      simp only [arrange_time]
      rw [List.rdropWhile_concat_pos _ _ _ (by simpa using hlt),
        List.rtakeWhile_concat_pos _ _ _ (by simpa using hlt), List.append_assoc,
        List.singleton_append, arrange_arrange (sink_perm _).symm]
    · rw [if_neg (by simpa [Dir.misplaced] using hlt), List.rdropWhile_concat_neg _ _ _ (by simpa using hlt),
        List.rtakeWhile_concat_neg _ _ _ (by simpa using hlt), List.nil_append, ← h,
        hp.arrange_self]
      simp

/-- What the bubbling up of `e` passes: the events just above it that come strictly earlier. -/
theorem bubbleLoop_up {e : EventPtr} : ∀ (R L : List EventPtr) (c : TimeEvents H), c.Placed →
    c.array = L ++ e :: R →
    bubbleLoop .up R.length c L.length =
      some (c.arrange (L ++ R.takeWhile (fun x => c.time x < c.time e) ++ e ::
          R.dropWhile (fun x => c.time x < c.time e)),
        (L ++ R.takeWhile (fun x => c.time x < c.time e)).length)
  | [], L, c, hp, h => by
    simp [bubbleLoop, ← h, hp.arrange_self]
  | a :: R, L, c, hp, h => by
    have h' : c.array = (L ++ [e]) ++ a :: R := by simpa using h
    have he : c.array[L.length]? = some e := by simp [h]
    have ha : c.array[L.length + 1]? = some a := by simp [h]
    have hpe : (c.event e).position = (L.length : Nat) := hp.position_split h
    have hpa : (c.event a).position = (L.length + 1 : Nat) := by
      have := hp.position_split h'
      simpa using this
    simp only [List.length_cons, bubbleLoop, Dir.next, ha, he, Option.bind_eq_bind,
      Option.bind_some]
    by_cases hlt : c.time a < c.time e
    · rw [if_pos (by simpa [Dir.misplaced] using hlt), hpa, hpe, swapTimeEvents_down hp h, Option.bind_some]
      have ih := bubbleLoop_up (e := e) R (L ++ [a]) _ (placed_arrange (c := c) (hp.nodup_swap h))
        (by simp)
      simp only [List.length_append, List.length_singleton, arrange_time] at ih
      rw [ih, List.takeWhile_cons_of_pos (by simpa using hlt),
        List.dropWhile_cons_of_pos (by simpa using hlt), arrange_arrange]
      · simp [Nat.add_assoc, Nat.add_comm]
      · refine List.Perm.trans ?_ (rise_perm _).symm
        rw [List.append_assoc, List.singleton_append]
    · rw [if_neg (by simpa [Dir.misplaced] using hlt), List.takeWhile_cons_of_neg (by simpa using hlt),
        List.dropWhile_cons_of_neg (by simpa using hlt), List.append_nil, ← h,
        hp.arrange_self]
      simp

theorem moveLoop_eq {e : EventPtr} : ∀ (R L : List EventPtr) (c : TimeEvents H), c.Placed →
    c.array = L ++ e :: R → moveLoop R.length c L.length = some (c.arrange (L ++ R ++ [e]))
  | [], L, c, hp, h => by simp [moveLoop, ← h, hp.arrange_self]
  | a :: R, L, c, hp, h => by
    have ih := moveLoop_eq (e := e) R (L ++ [a]) _ (placed_arrange (c := c) (hp.nodup_swap h)) (by simp)
    simp only [List.length_append, List.length_singleton] at ih
    simp only [List.length_cons, moveLoop, swapTimeEvents_up hp h, Option.bind_eq_bind,
      Option.bind_some, ih]
    rw [arrange_arrange]
    · simp
    · rw [List.append_assoc, List.append_assoc, List.singleton_append]
      refine List.Perm.append_left L (List.Perm.cons a ?_)
      exact (List.perm_append_singleton e R).symm

/-- The event that was bubbled is where the loop stopped. -/
theorem position_arrange {P S : List EventPtr} {e : EventPtr} (h : (P ++ e :: S).Nodup) :
    ((c.arrange (P ++ e :: S)).event e).position = P.length :=
  (placed_arrange h).position_split rfl

theorem bubbleAndSortDown_eq (hp : c.Placed) {L R : List EventPtr} {e : EventPtr}
    (h : c.array = L ++ e :: R) :
    c.bubbleAndSortDown L.length =
      some (c.arrange (L.rdropWhile (fun x => c.time e < c.time x) ++ e ::
          (L.rtakeWhile (fun x => c.time e < c.time x) ++ R)),
        ((L.rdropWhile (fun x => c.time e < c.time x)).length : Int)) := by
  have hnd := hp.nodup
  rw [h, ← (sink_perm (R := R) fun x => decide (c.time e < c.time x)).nodup_iff] at hnd
  simp only [bubbleAndSortDown, bubbleCore, Dir.distance, bubbleLoop_down L R c hp h,
    Option.bind_eq_bind, Option.bind_some, arrange_array]
  rw [List.getElem?_append_right (le_refl _), Nat.sub_self]
  simp only [List.getElem?_cons_zero, Option.bind_some, position_arrange hnd, Option.pure_def]

theorem bubbleAndSortUp_eq (hp : c.Placed) {L R : List EventPtr} {e : EventPtr}
    (h : c.array = L ++ e :: R) :
    c.bubbleAndSortUp L.length =
      some (c.arrange (L ++ R.takeWhile (fun x => c.time x < c.time e) ++ e ::
          R.dropWhile (fun x => c.time x < c.time e)),
        ((L ++ R.takeWhile (fun x => c.time x < c.time e)).length : Int)) := by
  have hnd := hp.nodup
  rw [h, ← (rise_perm (L := L) fun x => decide (c.time x < c.time e)).nodup_iff] at hnd
  have hdist : c.container.elemNo - 1 - L.length = R.length := by
    show c.array.length - 1 - L.length = R.length
    rw [h]
    simp
  simp only [bubbleAndSortUp, bubbleCore, Dir.distance, hdist, bubbleLoop_up R L c hp h,
    Option.bind_eq_bind, Option.bind_some, arrange_array]
  rw [List.getElem?_append_right (le_refl _), Nat.sub_self]
  simp only [List.getElem?_cons_zero, Option.bind_some, position_arrange hnd, Option.pure_def]

theorem moveToTheEnd_eq (hp : c.Placed) {L R : List EventPtr} {e : EventPtr}
    (h : c.array = L ++ e :: R) :
    c.moveToTheEnd L.length = some (c.arrange (L ++ R ++ [e])) := by
  have hdist : c.container.elemNo - 1 - L.length = R.length := by
    show c.array.length - 1 - L.length = R.length
    rw [h]
    simp
  rw [moveToTheEnd, hdist, moveLoop_eq R L c hp h]

/-! ## The invariant -/

/-- The invariant of the container. -/
structure Valid (c : TimeEvents H) : Prop where
  placed : c.Placed
  sorted : c.array.Pairwise fun a b => c.time a ≤ c.time b
  event_of_handle : ∀ h e, c.ptrToPosition h = some e →
    e ∈ c.array ∧ (c.event e).timeEventHandle = some h
  handle_of_event : ∀ e ∈ c.array, ∀ h, (c.event e).timeEventHandle = some h →
    c.ptrToPosition h = some e

/-- The two directions of the correspondence as one. -/
theorem Valid.handle_iff (hv : c.Valid) {e : EventPtr} {k : HandlePtr} (he : e ∈ c.array) :
    (c.event e).timeEventHandle = some k ↔ c.ptrToPosition k = some e :=
  ⟨hv.handle_of_event e he k, fun h => (hv.event_of_handle k e h).2⟩

/-- `c'` has the events of `c` unchanged, except for their positions. -/
structure SameEvents (c c' : TimeEvents H) : Prop where
  eventHandle : ∀ e, (c'.event e).eventHandle = (c.event e).eventHandle
  time : c'.time = c.time
  timeEventHandle : ∀ e, (c'.event e).timeEventHandle = (c.event e).timeEventHandle

theorem sameEvents_arrange (xs : List EventPtr) : SameEvents c (c.arrange xs) where
  eventHandle e := by
    simp only [arrange]
    split <;> rfl
  time := arrange_time xs
  timeEventHandle e := by
    simp only [arrange]
    split <;> rfl

/-- An empty container is valid when no handle is in use. -/
theorem valid_empty (h : c.array = []) (hp : ∀ h, c.ptrToPosition h = none) : c.Valid where
  placed i e he := by simp [h] at he
  sorted := by simp [h]
  event_of_handle h e he := by simp [hp] at he
  handle_of_event e he := by simp [h] at he

/-! ## get_top and cancel -/

/-- What `get_top` and `cancel` share: the event at `e` goes, the others keep their order. -/
theorem delLast_moveToTheEnd (hp : c.Placed) {L R : List EventPtr} {e : EventPtr}
    (h : c.array = L ++ e :: R) :
    ((c.arrange (L ++ R ++ [e])).delLast).array = L ++ R ∧
      ((c.arrange (L ++ R ++ [e])).delLast).Placed ∧
      SameEvents c (c.arrange (L ++ R ++ [e])).delLast := by
  have hdel : (c.arrange (L ++ R ++ [e])).delLast =
      { c.arrange (L ++ R ++ [e]) with
        container := { c.container with array := L ++ R } } := by
    rw [delLast, IotcVector.del_last]
    simp
  rw [hdel]
  have hnd : (L ++ R ++ [e]).Nodup := by
    have := hp.nodup
    rw [h] at this
    refine this.perm (List.perm_middle.trans ?_)
    exact (List.perm_append_singleton e (L ++ R)).symm
  have hs := sameEvents_arrange (c := c) (L ++ R ++ [e])
  refine ⟨rfl, ?_, hs.eventHandle, hs.time, hs.timeEventHandle⟩
  intro i x hx
  have hx' : (L ++ R)[i]? = some x := hx
  refine placed_arrange (c := c) hnd i x ?_
  rw [arrange_array, List.getElem?_append_left]
  · exact hx'
  · exact (List.getElem?_eq_some_iff.mp hx').1

/-- Clearing the handle of the event that goes keeps the rest of the invariant. -/
theorem Valid.dispose (hv : c.Valid) {L R : List EventPtr} {e : EventPtr}
    (h : c.array = L ++ e :: R) (ha : c'.array = L ++ R) (hp : c'.Placed)
    (hs : SameEvents c c') (hptr : c'.ptrToPosition = c.ptrToPosition) :
    (c'.disposeTimeEvent e).Valid ∧ (c'.disposeTimeEvent e).array = L ++ R ∧
      SameEvents c (c'.disposeTimeEvent e) ∧
      ∀ h, (c'.disposeTimeEvent e).ptrToPosition h =
        if c.ptrToPosition h = some e then none else c.ptrToPosition h := by
  have hev : (c'.disposeTimeEvent e).event = c'.event := by
    unfold disposeTimeEvent
    split <;> rfl
  have harr : (c'.disposeTimeEvent e).array = L ++ R := by
    rw [← ha]
    unfold disposeTimeEvent
    split <;> rfl
  have hptr' : ∀ h, (c'.disposeTimeEvent e).ptrToPosition h =
      if c.ptrToPosition h = some e then none else c.ptrToPosition h := by
    intro j
    have hiff := hv.handle_iff (k := j) (show e ∈ c.array by rw [h]; simp)
    simp only [← hiff]
    unfold disposeTimeEvent
    rw [hs.timeEventHandle]
    cases (c.event e).timeEventHandle with
    | none => simp [hptr]
    | some k =>
      simp only [Function.update_apply, hptr, Option.some.injEq, @eq_comm _ j k]
  have hnd := hv.placed.nodup
  rw [h] at hnd
  have heLR : e ∉ L ++ R := (List.nodup_cons.mp (List.perm_middle.nodup_iff.mp hnd)).1
  refine ⟨⟨?_, ?_, ?_, ?_⟩, harr, ⟨?_, ?_, ?_⟩, hptr'⟩
  · intro i x hx
    rw [hev]
    exact hp i x (by rw [harr] at hx; rw [ha]; exact hx)
  · rw [harr]
    have hsub : (L ++ R).Sublist c.array := by
      rw [h]
      exact List.Sublist.append_left (List.sublist_cons_self e R) L
    refine (hv.sorted.sublist hsub).imp ?_
    intro a b hab
    rw [← hs.time] at hab
    simpa only [TimeEvents.time, hev] using hab
  · intro k x hx
    rw [hptr'] at hx
    split at hx
    · simp at hx
    · next hne =>
      obtain ⟨hm, hk⟩ := hv.event_of_handle k x hx
      have hxe : x ≠ e := fun heq => hne (heq ▸ hx)
      rw [harr, hev, hs.timeEventHandle]
      refine ⟨?_, hk⟩
      rw [h] at hm
      simp only [List.mem_append, List.mem_cons] at hm ⊢
      rcases hm with hm | hm | hm
      · exact Or.inl hm
      · exact absurd hm hxe
      · exact Or.inr hm
  · intro x hx k hk
    rw [harr] at hx
    rw [hev, hs.timeEventHandle] at hk
    have hm : x ∈ c.array := by
      rw [h]
      simp only [List.mem_append, List.mem_cons] at hx ⊢
      rcases hx with hx | hx
      · exact Or.inl hx
      · exact Or.inr (Or.inr hx)
    have hptrx := hv.handle_of_event x hm k hk
    rw [hptr', if_neg, hptrx]
    intro hek
    rw [hptrx, Option.some.injEq] at hek
    exact heLR (hek ▸ hx)
  · intro x
    rw [hev, hs.eventHandle]
  · rw [← hs.time]
    funext x
    simp [TimeEvents.time, hev]
  · intro x
    rw [hev, hs.timeEventHandle]

/-- **`get_top`**: the first event goes, the others stay as they are. -/
theorem getTop_spec (hv : c.Valid) {e : EventPtr} {R : List EventPtr} (h : c.array = e :: R) :
    ∃ c', c.getTop = some (c', some e) ∧ c'.Valid ∧ c'.array = R ∧ SameEvents c c' ∧
      ∀ h, c'.ptrToPosition h =
        if c.ptrToPosition h = some e then none else c.ptrToPosition h := by
  have h' : c.array = [] ++ e :: R := h
  obtain ⟨ha, hp, hs⟩ := delLast_moveToTheEnd hv.placed h'
  obtain ⟨hv', ha', hs', hptr⟩ := hv.dispose h' ha hp hs rfl
  refine ⟨_, ?_, hv', ha', hs', hptr⟩
  have hmove : (if c.container.elemNo > 1 then c.moveToTheEnd 0 else some c) =
      some (c.arrange ([] ++ R ++ [e])) := by
    split
    · exact moveToTheEnd_eq hv.placed h'
    · next hle =>
      have hR : R = [] := by
        have hlen : c.container.elemNo = R.length + 1 := by
          show c.array.length = _
          simp [h]
        exact List.length_eq_zero_iff.mp (by omega)
      rw [hR, List.append_nil, List.nil_append, show [e] = c.array by rw [h, hR],
        hv.placed.arrange_self]
  simp only [getTop, h, hmove, Option.bind_eq_bind, Option.bind_some, Option.pure_def]

theorem getTop_empty (h : c.array = []) : c.getTop = some (c, none) := by
  simp [getTop, h]

/-- An event whose handle is set is found at its position. -/
theorem Valid.exists_split (hv : c.Valid) {k : HandlePtr} {e : EventPtr}
    (hk : c.ptrToPosition k = some e) :
    ∃ L R, c.array = L ++ e :: R ∧ (c.event e).position = (L.length : Nat) := by
  obtain ⟨L, R, h⟩ := List.append_of_mem (hv.event_of_handle k e hk).1
  exact ⟨L, R, h, hv.placed.position_split h⟩

/-- **`cancel`**: the event of the handle goes, the others stay as they are. -/
theorem cancel_spec (hv : c.Valid) {k : HandlePtr} {e : EventPtr}
    (hk : c.ptrToPosition k = some e) :
    ∃ c' L R, c.array = L ++ e :: R ∧ c.cancel k = some (c', some e, .ok) ∧ c'.Valid ∧
      c'.array = L ++ R ∧ SameEvents c c' ∧
      ∀ h, c'.ptrToPosition h =
        if c.ptrToPosition h = some e then none else c.ptrToPosition h := by
  obtain ⟨L, R, h, hpos⟩ := hv.exists_split hk
  obtain ⟨ha, hp, hs⟩ := delLast_moveToTheEnd hv.placed h
  obtain ⟨hv', ha', hs', hptr⟩ := hv.dispose h ha hp hs rfl
  have hlen : c.container.elemNo = L.length + R.length + 1 := by
    show c.array.length = _
    simp [h, Nat.add_assoc]
  have hmove : (if (L.length : Int) < (c.container.elemNo : Int) - 1
      then c.moveToTheEnd L.length else some c) = some (c.arrange (L ++ R ++ [e])) := by
    split
    · exact moveToTheEnd_eq hv.placed h
    · next hle =>
      have hR : R = [] := List.length_eq_zero_iff.mp (by omega)
      rw [hR, List.append_nil, show L ++ [e] = c.array by rw [h, hR], hv.placed.arrange_self]
  refine ⟨_, L, R, h, ?_, hv', ha', hs', hptr⟩
  · have hin : ¬ ((L.length : Int) ≥ c.container.elemNo ∨ (L.length : Int) < 0) := by omega
    simp only [cancel, hk, Option.bind_eq_bind, Option.bind_some, hpos]
    rw [if_neg hin, Int.toNat_natCast, hmove]
    simp

/-! ## add and restart -/

/-- A new event in memory, outside of the container. -/
theorem newEvent_valid (hv : c.Valid) {e : EventPtr} (he : e ∉ c.array)
    (eventHandle : H) (t : Int) :
    (c.newEvent e eventHandle t).Valid ∧
      (∀ x ∈ c.array, (c.newEvent e eventHandle t).event x = c.event x) := by
  have hx : ∀ x ∈ c.array, (c.newEvent e eventHandle t).event x = c.event x := fun x hx => by
    have hne : x ≠ e := fun heq => he (heq ▸ hx)
    simp [TimeEvents.newEvent, hne]
  refine ⟨⟨?_, ?_, ?_, ?_⟩, hx⟩
  · intro i x hi
    rw [hx x (List.mem_of_getElem? hi)]
    exact hv.placed i x hi
  · refine hv.sorted.imp_of_mem fun ha hb hab => ?_
    simpa only [TimeEvents.time, hx _ ha, hx _ hb] using hab
  · intro h x hp
    obtain ⟨hm, hk⟩ := hv.event_of_handle h x hp
    exact ⟨hm, by rw [hx x hm]; exact hk⟩
  · intro x hm h hk
    rw [hx x hm] at hk
    exact hv.handle_of_event x hm h hk

theorem setHandle_array (handle : Option HandlePtr) (e : EventPtr) :
    (c.setHandle handle e).array = c.array := by
  cases handle <;> rfl

theorem setHandle_event (handle : Option HandlePtr) (e x : EventPtr) :
    (c.setHandle handle e).event x =
      { c.event x with
        timeEventHandle :=
          if x = e ∧ handle.isSome then handle else (c.event x).timeEventHandle } := by
  cases handle with
  | none => simp [setHandle]
  | some h =>
    by_cases hx : x = e
    · subst hx
      simp [setHandle]
    · simp [setHandle, hx]

theorem setHandle_ptrToPosition (handle : Option HandlePtr) (e : EventPtr) (h : HandlePtr) :
    (c.setHandle handle e).ptrToPosition h =
      if handle = some h then some e else c.ptrToPosition h := by
  cases handle with
  | none => simp [setHandle]
  | some k => simp [setHandle, Function.update_apply, @eq_comm _ h k]

/-- **`add`**: a container that cannot grow stays as it is; otherwise the event goes behind every
event that is not later. -/
theorem add_spec (hv : c.Valid) {e : EventPtr} (he : e ∉ c.array)
    (hnull : (c.event e).timeEventHandle = none) {handle : Option HandlePtr}
    (hfree : ∀ h ∈ handle, c.ptrToPosition h = none) (mem : Bool) :
    c.add e handle mem = some (c, .outOfMemory) ∨
    ∃ c' P S, c.add e handle mem = some (c', .ok) ∧ c'.Valid ∧ c.array = P ++ S ∧
      c'.array = P ++ e :: S ∧ (∀ x ∈ P, c.time x ≤ c.time e) ∧ (∀ x ∈ S, c.time e < c.time x) ∧
      c'.time = c.time ∧ (∀ x, (c'.event x).eventHandle = (c.event x).eventHandle) ∧
      (∀ x, (c'.event x).timeEventHandle = if x = e then handle else (c.event x).timeEventHandle) ∧
      ∀ h, c'.ptrToPosition h = if handle = some h then some e else c.ptrToPosition h := by
  have hguard : (handle.all fun h => (c.ptrToPosition h).isNone) = true := by
    cases handle with
    | none => rfl
    | some h => simpa using hfree h rfl
  cases hpush : c.container.push e mem with
  | none =>
    left
    simp only [add, insertTimeEvent, hguard, hpush]
    rfl
  | some pushed =>
    right
    have harr := (IotcVector.push_eq_some hpush).1
    -- the container after the push, with the place of the new event
    let c₁ : TimeEvents H := TimeEvents.setPosition { c with container := pushed } e
      (c.array.length : Nat)
    have h₁ : c₁.array = c.array ++ e :: [] := harr
    have ht : c₁.time = c.time := by
      funext x
      by_cases hx : x = e
      · simp [c₁, TimeEvents.time, setPosition, hx]
      · simp [c₁, TimeEvents.time, setPosition, hx]
    have hpos : ∀ x, (c₁.event x).position = if x = e then (c.array.length : Int)
        else (c.event x).position := by
      intro x
      by_cases hx : x = e
      · simp [c₁, setPosition, hx]
      · simp [c₁, setPosition, hx]
    have hp₁ : c₁.Placed := by
      intro i x hx
      rw [h₁] at hx
      rw [hpos]
      by_cases hi : i < c.array.length
      · rw [List.getElem?_append_left hi] at hx
        have hxe : x ≠ e := fun heq => he (heq ▸ List.mem_of_getElem? hx)
        rw [if_neg hxe]
        exact hv.placed i x hx
      · rw [List.getElem?_append_right (by omega)] at hx
        obtain ⟨hlt, rfl⟩ := List.getElem?_eq_some_iff.mp hx
        simp only [List.length_singleton] at hlt
        have hi' : i = c.array.length := by omega
        simp [hi']
    have hlen : pushed.elemNo - 1 = c.array.length := by
      show pushed.array.length - 1 = _
      rw [harr]
      show (c.array ++ [e]).length - 1 = _
      simp
    have hbub := bubbleAndSortDown_eq hp₁ h₁
    rw [ht, List.append_nil] at hbub
    have hsplit : c.array = c.array.rdropWhile (fun x => c.time e < c.time x) ++
        c.array.rtakeWhile (fun x => c.time e < c.time x) :=
      (List.rdropWhile_append_rtakeWhile).symm
    generalize hP : c.array.rdropWhile (fun x => decide (c.time e < c.time x)) = P at *
    generalize hS : c.array.rtakeWhile (fun x => decide (c.time e < c.time x)) = S at *
    have hPle : ∀ x ∈ P, c.time x ≤ c.time e := fun x hx =>
      le_of_mem_rdropWhile hv.sorted (hP ▸ hx)
    have hSlt : ∀ x ∈ S, c.time e < c.time x := fun x hx => lt_of_mem_rtakeWhile (hS ▸ hx)
    have hadd : c.add e handle mem =
        some ((c₁.arrange (P ++ e :: S)).setHandle handle e, .ok) := by
      have hat : (c₁.arrange (P ++ e :: S)).at? P.length = some e := by simp [at?_natCast]
      simp only [add, insertTimeEvent, hguard, hpush, hlen]
      simp only [c₁] at hbub hat
      simp [guard, hbub, hat, c₁]
    have hs := sameEvents_arrange (c := c₁) (P ++ e :: S)
    have htime : ((c₁.arrange (P ++ e :: S)).setHandle handle e).time = c.time := by
      funext x
      rw [← ht, ← hs.time]
      simp only [TimeEvents.time, setHandle_event]
    have hhandle : ∀ x, (((c₁.arrange (P ++ e :: S)).setHandle handle e).event x).timeEventHandle =
        if x = e then handle else (c.event x).timeEventHandle := by
      intro x
      have hx₁ : (c₁.event x).timeEventHandle = (c.event x).timeEventHandle := by
        by_cases hx : x = e
        · simp [c₁, setPosition, hx]
        · simp [c₁, setPosition, hx]
      rw [setHandle_event, hs.timeEventHandle, hx₁]
      by_cases hx : x = e
      · subst hx
        cases handle with
        | none => simpa using hnull
        | some h => simp
      · simp [hx]
    have hevent : ∀ x, (((c₁.arrange (P ++ e :: S)).setHandle handle e).event x).eventHandle =
        (c.event x).eventHandle := by
      intro x
      rw [setHandle_event, hs.eventHandle]
      by_cases hx : x = e
      · simp [c₁, setPosition, hx]
      · simp [c₁, setPosition, hx]
    have hptr : ∀ h, ((c₁.arrange (P ++ e :: S)).setHandle handle e).ptrToPosition h =
        if handle = some h then some e else c.ptrToPosition h := fun h =>
      setHandle_ptrToPosition handle e h
    have harray : ((c₁.arrange (P ++ e :: S)).setHandle handle e).array = P ++ e :: S :=
      setHandle_array handle e
    have hnd : (P ++ e :: S).Nodup := by
      refine (List.perm_middle.nodup_iff).mpr (List.nodup_cons.mpr ⟨?_, ?_⟩)
      · rw [← hsplit]
        exact he
      · rw [← hsplit]
        exact hv.placed.nodup
    have hmem : ∀ x, x ∈ P ++ e :: S ↔ x = e ∨ x ∈ c.array := by
      intro x
      rw [List.perm_middle.mem_iff, List.mem_cons, ← hsplit]
    refine ⟨_, P, S, hadd, ⟨?_, ?_, ?_, ?_⟩, hsplit, harray, hPle, hSlt, htime, hevent, hhandle, hptr⟩
    · intro i x hx
      rw [harray] at hx
      rw [setHandle_event]
      exact placed_arrange hnd i x hx
    · rw [harray, htime]
      have hsorted := hv.sorted
      rw [hsplit] at hsorted
      exact sorted_insert hsorted hPle fun x hx => (hSlt x hx).le
    · intro h x hx
      rw [hptr] at hx
      rw [harray, hhandle, hmem]
      split at hx
      · next hh =>
        rw [← Option.some.inj hx, if_pos rfl]
        exact ⟨Or.inl rfl, hh⟩
      · obtain ⟨hm, hk⟩ := hv.event_of_handle h x hx
        rw [if_neg fun heq : x = e => he (heq ▸ hm)]
        exact ⟨Or.inr hm, hk⟩
    · intro x hx h hh
      rw [harray, hmem] at hx
      rw [hhandle] at hh
      rw [hptr]
      rcases hx with rfl | hx
      · rw [if_pos rfl] at hh
        rw [if_pos hh]
      · rw [if_neg fun heq : x = e => he (heq ▸ hx)] at hh
        have hk := hv.handle_of_event x hx h hh
        rw [if_neg, hk]
        intro heq
        rw [hfree h heq] at hk
        simp at hk

theorem setTime_time (e : EventPtr) (newTime : Int) :
    (c.setTime e newTime).time = Function.update c.time e newTime := by
  funext x
  by_cases hx : x = e
  · subst hx
    simp [setTime, TimeEvents.time]
  · simp [setTime, TimeEvents.time, hx]

theorem setTime_event (e : EventPtr) (newTime : Int) (x : EventPtr) :
    ((c.setTime e newTime).event x).position = (c.event x).position ∧
      ((c.setTime e newTime).event x).eventHandle = (c.event x).eventHandle ∧
      ((c.setTime e newTime).event x).timeEventHandle = (c.event x).timeEventHandle := by
  by_cases hx : x = e
  · simp [setTime, hx]
  · simp [setTime, hx]

/-- A new order of the same events, sorted by what the times are now, is valid. -/
theorem Valid.reordered (hv : c.Valid) {xs : List EventPtr} (hperm : xs.Perm c.array)
    {c₁ : TimeEvents H} (hhandle : ∀ x, (c₁.event x).timeEventHandle = (c.event x).timeEventHandle)
    (hptr : c₁.ptrToPosition = c.ptrToPosition)
    (hsorted : xs.Pairwise fun a b => c₁.time a ≤ c₁.time b) : (c₁.arrange xs).Valid where
  placed := placed_arrange (hperm.nodup_iff.mpr hv.placed.nodup)
  sorted := by
    rw [arrange_array, arrange_time]
    exact hsorted
  event_of_handle h x hx := by
    rw [arrange_ptrToPosition, hptr] at hx
    rw [arrange_array, hperm.mem_iff, (sameEvents_arrange xs).timeEventHandle, hhandle]
    exact hv.event_of_handle h x hx
  handle_of_event x hx h hh := by
    rw [arrange_array, hperm.mem_iff] at hx
    rw [(sameEvents_arrange xs).timeEventHandle, hhandle] at hh
    rw [arrange_ptrToPosition, hptr]
    exact hv.handle_of_event x hx h hh

/-- **`restart`**: the event of the handle has the new time and moves past the events that it now
comes before or after, the others keep their order. -/
theorem restart_spec (hv : c.Valid) {k : HandlePtr} {e : EventPtr}
    (hk : c.ptrToPosition k = some e) (newTime : Int) :
    ∃ c' L R P S, c.array = L ++ e :: R ∧ c.restart k newTime = some (c', .ok) ∧ c'.Valid ∧
      c'.array = P ++ e :: S ∧ P ++ S = L ++ R ∧ c'.time = Function.update c.time e newTime ∧
      (∀ x, (c'.event x).eventHandle = (c.event x).eventHandle) ∧
      (∀ x, (c'.event x).timeEventHandle = (c.event x).timeEventHandle) ∧
      c'.ptrToPosition = c.ptrToPosition := by
  obtain ⟨L, R, h, hpos⟩ := hv.exists_split hk
  have hlen : c.container.elemNo = L.length + R.length + 1 := by
    show c.array.length = _
    simp [h, Nat.add_assoc]
  have hnd := hv.placed.nodup
  rw [h] at hnd
  have heLR : e ∉ L ++ R := (List.nodup_cons.mp (List.perm_middle.nodup_iff.mp hnd)).1
  -- the container with the new time, before the event moves
  let c₁ := c.setTime e newTime
  have ht : c₁.time = Function.update c.time e newTime := setTime_time e newTime
  have hte : c₁.time e = newTime := by simp [ht]
  have htx : ∀ x ∈ L ++ R, c₁.time x = c.time x := by
    intro x hx
    rw [ht, Function.update_of_ne fun heq : x = e => heLR (heq ▸ hx)]
  have hsame : ∀ x, (c₁.event x).position = (c.event x).position ∧
      (c₁.event x).eventHandle = (c.event x).eventHandle ∧
      (c₁.event x).timeEventHandle = (c.event x).timeEventHandle := setTime_event e newTime
  have hp₁ : c₁.Placed := fun i x hx => by
    rw [(hsame x).1]
    exact hv.placed i x hx
  have hLR : (L ++ R).Pairwise fun a b => c₁.time a ≤ c₁.time b := by
    have hsub : (L ++ R).Sublist c.array := by
      rw [h]
      exact List.Sublist.append_left (List.sublist_cons_self e R) L
    refine (hv.sorted.sublist hsub).imp_of_mem fun ha hb hab => ?_
    rw [htx _ ha, htx _ hb]
    exact hab
  have hold : (∀ x ∈ L, c.time x ≤ c.time e) ∧ ∀ x ∈ R, c.time e ≤ c.time x := by
    have hs := hv.sorted
    rw [h, List.pairwise_append, List.pairwise_cons] at hs
    exact ⟨fun x hx => hs.2.2 x hx e (by simp), hs.2.1.1⟩
  have hrun : c.restart k newTime =
      ((if newTime < c.time e then c₁.bubbleAndSortDown L.length
        else c₁.bubbleAndSortUp L.length).map fun r => (r.1, .ok)) := by
    have hin : ¬ ((L.length : Int) ≥ c.container.elemNo ∨ (L.length : Int) < 0) := by omega
    have hat : c.at? (L.length : Nat) = some e := by simp [at?_natCast, h]
    simp only [restart, hk, Option.bind_eq_bind, Option.bind_some, hpos]
    rw [if_neg hin, hat]
    simp only [Option.bind_some, (hv.event_of_handle k e hk).2, guard, if_pos, Option.pure_def,
      Int.toNat_natCast]
    split <;> exact Option.map_eq_bind.symm
  have hlast : ∀ P S : List EventPtr, (P ++ e :: S).Perm c.array →
      ((c₁.arrange (P ++ e :: S)).time = Function.update c.time e newTime ∧
      (∀ x, ((c₁.arrange (P ++ e :: S)).event x).eventHandle = (c.event x).eventHandle) ∧
      (∀ x, ((c₁.arrange (P ++ e :: S)).event x).timeEventHandle =
        (c.event x).timeEventHandle) ∧
      (c₁.arrange (P ++ e :: S)).ptrToPosition = c.ptrToPosition) := fun P S _ =>
    ⟨by rw [arrange_time, ht],
      fun x => by rw [(sameEvents_arrange _).eventHandle, (hsame x).2.1],
      fun x => by rw [(sameEvents_arrange _).timeEventHandle, (hsame x).2.2], rfl⟩
  by_cases hlt : newTime < c.time e
  · have hperm := h ▸ sink_perm (L := L) (R := R) (e := e) fun x => decide (c₁.time e < c₁.time x)
    have hPS : L.rdropWhile (fun x => decide (c₁.time e < c₁.time x)) ++
        (L.rtakeWhile (fun x => decide (c₁.time e < c₁.time x)) ++ R) = L ++ R := by
      rw [← List.append_assoc, List.rdropWhile_append_rtakeWhile]
    refine ⟨_, L, R, _, _, h, ?_, ?_, arrange_array _, hPS, hlast _ _ hperm⟩
    · rw [hrun, if_pos hlt, bubbleAndSortDown_eq hp₁ h]
      rfl
    · refine hv.reordered hperm (fun x => (hsame x).2.2) rfl ?_
      refine sorted_insert (by rw [hPS]; exact hLR) ?_ ?_
      · exact fun x hx => le_of_mem_rdropWhile (List.pairwise_append.mp hLR).1 hx
      · intro x hx
        rcases List.mem_append.mp hx with hx | hx
        · exact (lt_of_mem_rtakeWhile hx).le
        · rw [hte, htx x (by simp [hx])]
          exact hlt.le.trans (hold.2 x hx)
  · have hperm := h ▸ rise_perm (L := L) (R := R) (e := e) fun x => decide (c₁.time x < c₁.time e)
    have hPS : L ++ R.takeWhile (fun x => decide (c₁.time x < c₁.time e)) ++
        R.dropWhile (fun x => decide (c₁.time x < c₁.time e)) = L ++ R := by
      rw [List.append_assoc, List.takeWhile_append_dropWhile]
    refine ⟨_, L, R, _, _, h, ?_, ?_, arrange_array _, hPS, hlast _ _ hperm⟩
    · rw [hrun, if_neg hlt, bubbleAndSortUp_eq hp₁ h]
      rfl
    · refine hv.reordered hperm (fun x => (hsame x).2.2) rfl ?_
      refine sorted_insert (by rw [hPS]; exact hLR) ?_ ?_
      · intro x hx
        rcases List.mem_append.mp hx with hx | hx
        · rw [hte, htx x (by simp [hx])]
          exact (hold.1 x hx).trans (not_lt.mp hlt)
        · exact (lt_of_mem_takeWhile hx).le
      · exact fun x hx => le_of_mem_dropWhile (List.pairwise_append.mp hLR).2.1 hx

end IotDeviceSdk.EventDispatcher.TimeEvents
