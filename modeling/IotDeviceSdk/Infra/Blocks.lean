import IotDeviceSdk.Infra.Heap
import Mathlib.Logic.Function.Basic

/-!
# Blocks with their contents

A memory of blocks of cells. A load, a store and a release have a result only inside of a block that
is allocated, so that an access outside of all blocks shows as `none`.

`written` lists the blocks that have been stored to, with at least one cell.
-/

namespace IotDeviceSdk.Infra

universe u

/-- `block` has the contents of each block that is allocated, and `next` is the next address. -/
structure Blocks (α : Type u) where
  block : Ptr → Option (List α)
  next : Ptr
  fresh : ∀ p, next ≤ p → block p = none
  written : List Ptr

namespace Blocks

variable {α : Type u} {m m' : Blocks α} {p q : Ptr} {off n : Nat} {xs ys : List α}

/-! ## Operations -/

/-- No block is allocated. -/
def empty : Blocks α where
  block _ := none
  next := 0
  fresh _ _ := rfl
  written := []

/-- A block with these contents. -/
def alloc (m : Blocks α) (xs : List α) : Ptr × Blocks α :=
  (m.next,
    { block := Function.update m.block m.next (some xs)
      next := m.next + 1
      fresh := fun p hp => by
        rw [Function.update_of_ne (Nat.ne_of_gt hp)]
        exact m.fresh p (Nat.le_of_succ_le hp)
      written := m.written })

theorem lt_next (h : m.block p = some xs) : p < m.next := by
  by_contra hlt
  have hnone := m.fresh p (Nat.not_lt.mp hlt)
  rw [h] at hnone
  cases hnone

/-- The block has these contents now. -/
def set (m : Blocks α) (p : Ptr) (xs : Option (List α)) (hp : p < m.next) : Blocks α where
  block := Function.update m.block p xs
  next := m.next
  fresh q hq := by
    rw [Function.update_of_ne (Nat.ne_of_gt (Nat.lt_of_lt_of_le hp hq))]
    exact m.fresh q hq
  written := m.written

/-- The `n` cells from the offset on. -/
def load (m : Blocks α) (p : Ptr) (off n : Nat) : Option (List α) :=
  (m.block p).bind fun xs => if off + n ≤ xs.length then some ((xs.drop off).take n) else none

/-- The cells from the offset on become `ys`. -/
def store (m : Blocks α) (p : Ptr) (off : Nat) (ys : List α) : Option (Blocks α) :=
  match h : m.block p with
  | none => none
  | some xs =>
    if off + ys.length ≤ xs.length then
      some { m.set p (some (xs.take off ++ (ys ++ xs.drop (off + ys.length)))) (lt_next h) with
        written := if ys.isEmpty then m.written else m.written ++ [p] }
    else none

/-- The release of a block. -/
def free (m : Blocks α) (p : Ptr) : Option (Blocks α) :=
  match h : m.block p with
  | none => none
  | some _ => some (m.set p none (lt_next h))

/-- The copy of `n` cells. -/
def copy (m : Blocks α) (dst src : Ptr) (n : Nat) : Option (Blocks α) :=
  (m.load src 0 n).bind (m.store dst 0)

/-! ## Where they succeed -/

@[simp] theorem alloc_fst (m : Blocks α) (xs : List α) : (m.alloc xs).1 = m.next := rfl

@[simp] theorem alloc_block_self (m : Blocks α) (xs : List α) :
    (m.alloc xs).2.block m.next = some xs := Function.update_self ..

theorem alloc_block_ne (m : Blocks α) (xs : List α) (h : p ≠ m.next) :
    (m.alloc xs).2.block p = m.block p := Function.update_of_ne h ..

@[simp] theorem alloc_written (m : Blocks α) (xs : List α) : (m.alloc xs).2.written = m.written := rfl

theorem load_eq (h : m.block p = some xs) (hn : off + n ≤ xs.length) :
    m.load p off n = some ((xs.drop off).take n) := by
  rw [load, h, Option.bind_some, if_pos hn]

theorem load_eq_none (h : m.block p = some xs) (hn : xs.length < off + n) : m.load p off n = none := by
  rw [load, h, Option.bind_some, if_neg (Nat.not_le.mpr hn)]

/-- **A store inside of a block** changes its cells, and no other block. -/
theorem exists_store (h : m.block p = some xs) (hn : off + ys.length ≤ xs.length) :
    ∃ m', m.store p off ys = some m' ∧
      m'.block p = some (xs.take off ++ (ys ++ xs.drop (off + ys.length))) ∧
      (∀ q, q ≠ p → m'.block q = m.block q) ∧
      m'.written = if ys.isEmpty then m.written else m.written ++ [p] := by
  refine ⟨{ m.set p (some (xs.take off ++ (ys ++ xs.drop (off + ys.length)))) (lt_next h) with
    written := if ys.isEmpty then m.written else m.written ++ [p] }, ?_, ?_, fun q hq => ?_, rfl⟩
  · unfold store
    split
    · next hnone =>
      rw [h] at hnone
      cases hnone
    · next xs' h' =>
      obtain rfl := Option.some.inj (h.symm.trans h')
      rw [if_pos hn]
  · exact Function.update_self ..
  · exact Function.update_of_ne hq ..

theorem store_eq_none (h : m.block p = some xs) (hn : xs.length < off + ys.length) :
    m.store p off ys = none := by
  unfold store
  split
  · rfl
  · next xs' h' =>
    obtain rfl := Option.some.inj (h.symm.trans h')
    rw [if_neg (Nat.not_le.mpr hn)]

/-- The release of a block that is allocated. -/
theorem exists_free (h : m.block p = some xs) :
    ∃ m', m.free p = some m' ∧ m'.block p = none ∧ (∀ q, q ≠ p → m'.block q = m.block q) ∧
      m'.written = m.written := by
  refine ⟨m.set p none (lt_next h), ?_, ?_, fun q hq => ?_, rfl⟩
  · unfold free
    split
    · next hnone =>
      rw [h] at hnone
      cases hnone
    · rfl
  · exact Function.update_self ..
  · exact Function.update_of_ne hq ..

/-- **A copy to the start of another block** that is large enough. -/
theorem exists_copy (hq : m.block q = some xs) (hp : m.block p = some ys) (hn : n ≤ xs.length)
    (hn' : n ≤ ys.length) :
    ∃ m', m.copy p q n = some m' ∧ m'.block p = some (xs.take n ++ ys.drop n) ∧
      (∀ r, r ≠ p → m'.block r = m.block r) ∧
      m'.written = if n = 0 then m.written else m.written ++ [p] := by
  have hlen : (xs.take n).length = n := by
    rw [List.length_take]
    exact Nat.min_eq_left hn
  have hload : m.load q 0 n = some (xs.take n) := by
    rw [load_eq hq (by omega), List.drop_zero]
  have hroom : 0 + (xs.take n).length ≤ ys.length := by omega
  obtain ⟨m', hstore, hblock, hother, hwritten⟩ := exists_store hp hroom
  refine ⟨m', by rw [copy, hload]; exact hstore, ?_, hother, ?_⟩
  · rw [hblock, hlen, List.take_zero, List.nil_append, Nat.zero_add]
  · have hempty : (xs.take n).isEmpty = true ↔ n = 0 := by
      rw [List.isEmpty_iff, ← List.length_eq_zero_iff, hlen]
    simp only [hwritten, hempty]

theorem copy_eq_none (hq : m.block q = some xs) (hp : m.block p = some ys) (hn : n ≤ xs.length)
    (hn' : ys.length < n) : m.copy p q n = none := by
  have hload : m.load q 0 n = some (xs.take n) := by
    rw [load_eq hq (by omega), List.drop_zero]
  rw [copy, hload]
  refine store_eq_none hp ?_
  rw [List.length_take, Nat.min_eq_left hn]
  omega

end Blocks

end IotDeviceSdk.Infra
