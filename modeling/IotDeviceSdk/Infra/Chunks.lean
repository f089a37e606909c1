import Mathlib.Data.List.Basic

/-!
# A queue of chunks

A read of a queue of chunks takes from the first chunk only, at most as much as is asked for. What the
reads return, and what is left after them, is what was in the queue.
-/

namespace IotDeviceSdk.Infra.Chunks

universe u

variable {α : Type u} {c : List α} {cs : List (List α)} {n : Nat}

/-- A read of at most `n`. -/
def read : List (List α) → Nat → List α × List (List α)
  | [], _ => ([], [])
  | c :: cs, n => (c.take n, if c.length ≤ n then cs else c.drop n :: cs)

/-- Reads, one after the other. -/
def reads : List (List α) → List Nat → List α × List (List α)
  | cs, [] => ([], cs)
  | cs, n :: ns => ((read cs n).1 ++ (reads (read cs n).2 ns).1, (reads (read cs n).2 ns).2)

@[simp] theorem reads_nil (cs : List (List α)) : reads cs [] = ([], cs) := rfl

theorem reads_cons (cs : List (List α)) (n : Nat) (ns : List Nat) :
    reads cs (n :: ns) =
      ((read cs n).1 ++ (reads (read cs n).2 ns).1, (reads (read cs n).2 ns).2) := rfl

/-- The first chunk is read up. -/
theorem read_cons_le (h : c.length ≤ n) : read (c :: cs) n = (c, cs) := by
  simp only [read, if_pos h, List.take_of_length_le h]

/-- The first chunk is read in part. -/
theorem read_cons_gt (h : n < c.length) : read (c :: cs) n = (c.take n, c.drop n :: cs) := by
  simp only [read, if_neg (Nat.not_le_of_lt h)]

/-- **Nothing is lost, repeated or reordered.** -/
theorem read_flatten (cs : List (List α)) (n : Nat) :
    (read cs n).1 ++ (read cs n).2.flatten = cs.flatten := by
  cases cs with
  | nil => rfl
  | cons c cs =>
    by_cases hle : c.length ≤ n
    · rw [read_cons_le hle, List.flatten_cons]
    · rw [read_cons_gt (Nat.lt_of_not_le hle), List.flatten_cons, List.flatten_cons,
        ← List.append_assoc, List.take_append_drop]

end IotDeviceSdk.Infra.Chunks
