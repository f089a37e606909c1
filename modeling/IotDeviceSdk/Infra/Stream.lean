import Mathlib.Data.List.Basic
import Mathlib.Data.List.Forall2
import Mathlib.Data.List.Infix

/-!
# Streams of delimited items

Items have codes, and a stream is the concatenation of the codes. `complete` are the items whose
code lies within a beginning of the stream.
-/

namespace IotDeviceSdk.Infra

universe u v

variable {α : Type u} {β : Type v} {code : α → List β}

/-- The items of the stream whose code is whole within the first `n` elements. -/
def complete (code : α → List β) : List α → Nat → List α
  | [], _ => []
  | x :: xs, n =>
    if (code x).length ≤ n then x :: complete code xs (n - (code x).length) else []

theorem complete_append (xs ys : List α) (n : Nat) :
    complete code (xs ++ ys) ((xs.flatMap code).length + n) = xs ++ complete code ys n := by
  induction xs with
  | nil => simp
  | cons x xs ih =>
    have hle : (code x).length ≤ ((x :: xs).flatMap code).length + n := by
      simp only [List.flatMap_cons, List.length_append]
      omega
    have hsub : ((x :: xs).flatMap code).length + n - (code x).length =
        (xs.flatMap code).length + n := by
      simp only [List.flatMap_cons, List.length_append]
      omega
    rw [List.cons_append, complete, if_pos hle, hsub, ih, List.cons_append]

theorem complete_zero (h : ∀ x, code x ≠ []) (xs : List α) : complete code xs 0 = [] := by
  cases xs with
  | nil => rfl
  | cons x xs =>
    have := List.length_pos_iff.mpr (h x)
    rw [complete, if_neg (by omega)]

/-- At the end of the code of an item, the items up to it are complete. -/
theorem complete_boundary (h : ∀ x, code x ≠ []) (xs ys : List α) :
    complete code (xs ++ ys) (xs.flatMap code).length = xs := by
  have happ : complete code (xs ++ ys) ((xs.flatMap code).length + 0) = xs ++ complete code ys 0 :=
    complete_append xs ys 0
  rwa [Nat.add_zero, complete_zero h, List.append_nil] at happ

theorem complete_all (h : ∀ x, code x ≠ []) (xs : List α) :
    complete code xs (xs.flatMap code).length = xs := by
  have happ := complete_boundary h xs []
  rwa [List.append_nil] at happ

/-- **A beginning of the stream** consists of the codes of the complete items and a part of the code
of the next one. -/
theorem prefix_eq_complete : ∀ {xs : List α} {pre : List β}, pre <+: xs.flatMap code →
    ∃ ys rest, xs = complete code xs pre.length ++ ys ∧
      pre = (complete code xs pre.length).flatMap code ++ rest ∧
      (rest = [] ∨ ∃ y zs more, ys = y :: zs ∧ code y = rest ++ more ∧ more ≠ [])
  | [], pre, h => by
    rw [List.flatMap_nil, List.prefix_nil] at h
    exact ⟨[], [], rfl, by rw [h]; rfl, Or.inl rfl⟩
  | x :: xs, pre, h => by
    rw [List.flatMap_cons] at h
    by_cases hle : (code x).length ≤ pre.length
    · -- the first item is complete
      obtain ⟨pre', rfl⟩ : code x <+: pre :=
        List.prefix_of_prefix_length_le (List.prefix_append _ _) h hle
      rw [List.prefix_append_right_inj] at h
      obtain ⟨ys, rest, hxs, hpre, hrest⟩ := prefix_eq_complete h
      have hc : complete code (x :: xs) (code x ++ pre').length =
          x :: complete code xs pre'.length := by
        rw [complete, if_pos hle, List.length_append, Nat.add_sub_cancel_left]
      refine ⟨ys, rest, ?_, ?_, hrest⟩
      · rw [hc, List.cons_append, ← hxs]
      · rw [hc, List.flatMap_cons, List.append_assoc, ← hpre]
    · obtain ⟨more, hmore⟩ : pre <+: code x :=
        List.prefix_of_prefix_length_le h (List.prefix_append _ _) (by omega)
      have hc : complete code (x :: xs) pre.length = [] := by rw [complete, if_neg hle]
      refine ⟨x :: xs, pre, by rw [hc]; rfl, by rw [hc]; rfl, Or.inr ⟨x, xs, more, rfl, hmore.symm, ?_⟩⟩
      rintro rfl
      rw [← hmore, List.append_nil] at hle
      exact hle (le_refl _)

/-- The first element that does not satisfy a predicate. -/
theorem exists_first {P : α → Prop} : ∀ {xs : List α}, ¬ (∀ x ∈ xs, P x) →
    ∃ xs₁ x xs₂, xs = xs₁ ++ x :: xs₂ ∧ (∀ y ∈ xs₁, P y) ∧ ¬ P x
  | [], h => absurd (fun x hx => by simp at hx) h
  | x :: xs, h => by
    by_cases hx : P x
    · have hxs : ¬ ∀ y ∈ xs, P y := fun hall => h (by simpa [hx] using hall)
      obtain ⟨xs₁, y, xs₂, rfl, h₁, h₂⟩ := exists_first hxs
      exact ⟨x :: xs₁, y, xs₂, rfl, by simpa [hx] using h₁, h₂⟩
    · exact ⟨[], x, xs, rfl, by simp, hx⟩

/-! ## A last item that is held back -/

/-- All items but the last, if that one is held back. -/
def released (held : α → Bool) (xs : List α) : List α :=
  if xs.getLast?.any held then xs.dropLast else xs

theorem released_concat (held : α → Bool) (xs : List α) (x : α) :
    released held (xs ++ [x]) = if held x then xs else xs ++ [x] := by
  simp [released]

theorem released_initial (held : α → Bool) (xs : List α) : released held xs <+: xs := by
  unfold released
  split
  · exact List.dropLast_prefix xs
  · exact List.prefix_rfl

theorem exists_of_mem {R : α → β → Prop} : ∀ {xs : List α} {ys : List β},
    List.Forall₂ R xs ys → ∀ {x : α}, x ∈ xs → ∃ y ∈ ys, R x y
  | _ :: _, y :: _, .cons hxy h, x, hx => by
    rcases List.mem_cons.mp hx with rfl | hx
    · exact ⟨y, List.mem_cons_self, hxy⟩
    · obtain ⟨z, hz, hxz⟩ := exists_of_mem h hx
      exact ⟨z, List.mem_cons_of_mem y hz, hxz⟩

theorem released_forall₂ {R : α → β → Prop} {held : α → Bool} {held' : β → Bool}
    (hR : ∀ x y, R x y → held x = held' y) {xs : List α} {ys : List β} (h : List.Forall₂ R xs ys) :
    List.Forall₂ R (released held xs) (released held' ys) := by
  rcases List.eq_nil_or_concat xs with rfl | ⟨xs, x, rfl⟩
  · cases h
    exact .nil
  · rcases List.eq_nil_or_concat ys with rfl | ⟨ys, y, rfl⟩
    · simp at h
    rw [List.concat_eq_append, List.concat_eq_append] at h ⊢
    rw [← List.forall₂_reverse_iff, List.reverse_concat, List.reverse_concat, List.forall₂_cons,
      List.forall₂_reverse_iff] at h
    rw [released_concat, released_concat, hR _ _ h.1]
    split
    · exact h.2
    · exact List.rel_append h.2 (.cons h.1 .nil)

end IotDeviceSdk.Infra
