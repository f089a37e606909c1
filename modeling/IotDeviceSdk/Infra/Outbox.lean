import Mathlib.Data.List.Basic
import Mathlib.Data.List.Infix

/-!
# Outboxes

What a component that sends things one after the other is for: things are handed over, and each is
settled once, the first of those that wait first.
-/

namespace IotDeviceSdk.Infra

universe u v

variable {α : Type u} {σ : Type v}

/-- The things that are settled, with how they are, and those that wait. -/
structure Outbox (α : Type u) (σ : Type v) where
  settled : List (α × σ)
  waiting : List α

namespace Outbox

/-- All that has been handed over, in that order. -/
def handedOver (o : Outbox α σ) : List α := o.settled.map Prod.fst ++ o.waiting

def submit (o : Outbox α σ) (a : α) : Outbox α σ := { o with waiting := o.waiting ++ [a] }

/-- The first thing that waits is settled. -/
def settle (o : Outbox α σ) (s : σ) : Outbox α σ :=
  match o.waiting with
  | [] => o
  | a :: waiting => ⟨o.settled ++ [(a, s)], waiting⟩

@[simp] theorem submit_settled (o : Outbox α σ) (a : α) : (o.submit a).settled = o.settled := rfl

@[simp] theorem submit_waiting (o : Outbox α σ) (a : α) :
    (o.submit a).waiting = o.waiting ++ [a] := rfl

theorem settle_cons {o : Outbox α σ} {a : α} {waiting : List α} (h : o.waiting = a :: waiting)
    (s : σ) : o.settle s = ⟨o.settled ++ [(a, s)], waiting⟩ := by
  simp only [settle, h]

/-- What is submitted comes last. -/
theorem handedOver_submit (o : Outbox α σ) (a : α) :
    (o.submit a).handedOver = o.handedOver ++ [a] := by
  simp only [handedOver, submit, List.append_assoc]

/-- Settling loses nothing, adds nothing and keeps the order. -/
theorem handedOver_settle (o : Outbox α σ) (s : σ) : (o.settle s).handedOver = o.handedOver := by
  unfold settle
  cases h : o.waiting with
  | nil => rfl
  | cons a waiting => simp [handedOver, h]

end Outbox

end IotDeviceSdk.Infra
