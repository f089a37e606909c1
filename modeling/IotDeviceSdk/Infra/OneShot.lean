import Mathlib.Data.List.Basic

/-!
# Slots for one-shot continuations

A slot holds what is to be run at the next event: a default, or what was set since the last event.
The history of a slot is a list of entries, and `Honest` says that what was fired is what the slot
held: what was set last, once, and the default after that.
-/

namespace IotDeviceSdk.Infra

/-- What happens to a slot. -/
inductive SlotEntry (H : Type*) where
  | opened (default : H)
  | closed
  | set (h : H)
  | fired (h : H)
  deriving DecidableEq, Repr

namespace SlotEntry

variable {H : Type*}

/-- The default and the content of a slot after one entry; `none` is a slot that is not there. -/
def apply : Option (H × H) → SlotEntry H → Option (H × H)
  | _, .opened d => some (d, d)
  | _, .closed => none
  | s, .set h => s.map fun x => (x.1, h)
  | s, .fired _ => s.map fun x => (x.1, x.1)

/-- The slot after a history. -/
def slot (log : List (SlotEntry H)) : Option (H × H) := log.foldl apply none

/-- What the events of a history fired. -/
def fires (log : List (SlotEntry H)) : List H :=
  log.filterMap fun
    | .fired h => some h
    | _ => none

/-- The entry is no event. -/
def Quiet : SlotEntry H → Prop
  | .fired _ => False
  | _ => True

/-- Every event fired the content of the slot. -/
def Honest (log : List (SlotEntry H)) : Prop :=
  ∀ before h after, log = before ++ .fired h :: after → ∃ d, slot before = some (d, h)

theorem slot_append (log more : List (SlotEntry H)) :
    slot (log ++ more) = more.foldl apply (slot log) := List.foldl_append

theorem slot_concat (log : List (SlotEntry H)) (e : SlotEntry H) :
    slot (log ++ [e]) = apply (slot log) e := slot_append log [e]

/-- Of several handlers that are set, the last one counts. -/
theorem foldl_set (hs : List H) (d c : H) :
    (hs.map set).foldl apply (some (d, c)) = some (d, hs.getLastD c) := by
  induction hs generalizing c with
  | nil => rfl
  | cons h hs ih =>
    rw [List.map_cons, List.foldl_cons, List.getLastD_cons]
    exact ih h

theorem honest_nil : Honest ([] : List (SlotEntry H)) := by
  intro before h after heq
  simp at heq

/-- One more entry: an event fires the content of the slot. -/
theorem Honest.concat {log : List (SlotEntry H)} {e : SlotEntry H} (hlog : Honest log)
    (he : ∀ h, e = .fired h → ∃ d, slot log = some (d, h)) : Honest (log ++ [e]) := by
  intro before h after heq
  rcases List.eq_nil_or_concat after with rfl | ⟨after, x, rfl⟩
  · obtain ⟨rfl, hfired⟩ := List.append_inj' heq rfl
    exact he h (List.cons.inj hfired).1
  · rw [List.concat_eq_append, ← List.cons_append, ← List.append_assoc] at heq
    exact hlog before h after (List.append_inj' heq rfl).1

/-- Entries that are no events. -/
theorem Honest.append {log more : List (SlotEntry H)} (hlog : Honest log)
    (hmore : ∀ e ∈ more, e.Quiet) : Honest (log ++ more) := by
  induction more generalizing log with
  | nil => rwa [List.append_nil]
  | cons e more ih =>
    rw [← List.singleton_append, ← List.append_assoc]
    refine ih (hlog.concat ?_) fun x hx => hmore x (List.mem_cons_of_mem _ hx)
    rintro h rfl
    exact (hmore (.fired h) List.mem_cons_self).elim

/-- **What is set is what the next event fires.** -/
theorem Honest.next {before after : List (SlotEntry H)} {h x : H}
    (hlog : Honest (before ++ .set h :: .fired x :: after)) : x = h := by
  obtain ⟨d, hslot⟩ := hlog (before ++ [.set h]) x after (by simp)
  rw [slot_concat] at hslot
  obtain ⟨_, -, hpair⟩ := Option.map_eq_some_iff.1 hslot
  exact (Prod.mk.inj hpair).2.symm

/-- **And the event after that fires the default again.** -/
theorem Honest.again {before after : List (SlotEntry H)} {h x d c : H}
    (hlog : Honest (before ++ .fired h :: .fired x :: after)) (hslot : slot before = some (d, c)) :
    x = d := by
  obtain ⟨d', hslot'⟩ := hlog (before ++ [.fired h]) x after (by simp)
  rw [slot_concat, hslot] at hslot'
  obtain ⟨rfl, rfl⟩ := Prod.mk.inj (Option.some.inj hslot')
  rfl

end SlotEntry

end IotDeviceSdk.Infra
