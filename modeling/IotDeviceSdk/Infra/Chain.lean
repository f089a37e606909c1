import Mathlib.Data.List.Basic
import Mathlib.Data.List.Nodup
import Mathlib.Logic.Function.Basic

/-!
# Singly linked lists in memory

The memory is the link of every address; `none` is the null pointer.

* `Chain next p l q` says that the links lead from `p` through the addresses `l` to `q`.
* `walk` is the loop that looks for the first address that meets a test, and remembers the one before.
* A list that ends in the null pointer visits no address twice (`Chain.nodup`).
-/

namespace IotDeviceSdk.Infra

universe u

variable {α : Type u}

/-- The links lead from `p` through `l` to `q`. -/
def Chain (next : α → Option α) : Option α → List α → Option α → Prop
  | p, [], q => p = q
  | p, a :: l, q => p = some a ∧ Chain next (next a) l q

section Chain

variable {next next' : α → Option α} {p q r : Option α} {l l' : List α} {a b : α}

@[simp] theorem chain_nil : Chain next p [] q ↔ p = q := .rfl

@[simp] theorem chain_cons : Chain next p (a :: l) q ↔ p = some a ∧ Chain next (next a) l q := .rfl

/-- The links of a concatenation: both parts, and the address between them. -/
theorem chain_append : Chain next p (l ++ l') q ↔ ∃ r, Chain next p l r ∧ Chain next r l' q := by
  induction l generalizing p with
  | nil => simp
  | cons a l ih => simp [ih, and_assoc]

theorem chain_concat : Chain next p (l ++ [a]) q ↔ Chain next p l (some a) ∧ next a = q := by
  rw [chain_append]
  constructor
  · rintro ⟨r, hl, rfl, ha⟩
    exact ⟨hl, ha⟩
  · rintro ⟨hl, ha⟩
    exact ⟨some a, hl, rfl, ha⟩

/-- Only the links of the addresses on the way count. -/
theorem Chain.congr (h : Chain next p l q) (hsame : ∀ a ∈ l, next' a = next a) :
    Chain next' p l q := by
  induction l generalizing p with
  | nil => exact h
  | cons a l ih =>
    obtain ⟨rfl, h⟩ := h
    refine ⟨rfl, ?_⟩
    rw [hsame a List.mem_cons_self]
    exact ih h fun b hb => hsame b (List.mem_cons_of_mem _ hb)

/-- Where the way goes to is where it starts, or the link of its last address. -/
theorem Chain.head_eq (h : Chain next p l none) : p = l.head? := by
  cases l with
  | nil => exact h
  | cons a l => exact h.1

/-- The way to the null pointer is determined by where it starts. -/
theorem Chain.unique (h : Chain next p l none) (h' : Chain next p l' none) : l = l' := by
  induction l generalizing p l' with
  | nil =>
    obtain rfl := h
    cases l' with
    | nil => rfl
    | cons b l' => exact absurd h'.1 (by simp)
  | cons a l ih =>
    obtain ⟨rfl, h⟩ := h
    cases l' with
    | nil => exact absurd h' (by simp)
    | cons b l' =>
      obtain ⟨hb, h'⟩ := h'
      obtain rfl := Option.some.inj hb
      rw [ih h h']

/-- **A list that ends visits no address twice**: behind an address there is only one way to the end. -/
theorem Chain.nodup (h : Chain next p l none) : l.Nodup := by
  induction l generalizing p with
  | nil => exact List.nodup_nil
  | cons a l ih =>
    obtain ⟨-, h⟩ := h
    refine List.nodup_cons.2 ⟨fun hmem => ?_, ih h⟩
    obtain ⟨s, t, rfl⟩ := List.append_of_mem hmem
    obtain ⟨r, -, rfl, ht⟩ := chain_append.1 h
    -- both what follows the second visit and what follows the first one lead to the end
    have hlength := congrArg List.length (ht.unique h)
    simp only [List.length_append, List.length_cons] at hlength
    omega

/-- The last address of a list is not one of those before it. -/
theorem notMem_of_nodup_concat (h : (l ++ [a]).Nodup) : a ∉ l :=
  fun hmem => (List.nodup_append'.1 h).2.2 hmem List.mem_cons_self

/-- Where every link of a set of addresses stays in the set, no list ends. -/
theorem not_chain_of_closed {P : α → Prop} (hclosed : ∀ a, P a → ∃ b, next a = some b ∧ P b)
    (ha : P a) : ¬Chain next (some a) l none := by
  induction l generalizing a with
  | nil => exact fun h => absurd h (by simp)
  | cons c l ih =>
    rintro ⟨hc, h⟩
    obtain rfl := Option.some.inj hc
    obtain ⟨b, hb, hPb⟩ := hclosed a ha
    rw [hb] at h
    exact ih hPb h

variable [DecidableEq α]

/-- A link that is written outside of the list. -/
theorem Chain.update (h : Chain next p l q) (ha : a ∉ l) (r : Option α) :
    Chain (Function.update next a r) p l q := by
  refine h.congr fun b hb => ?_
  have hne : b ≠ a := fun hba => ha (hba ▸ hb)
  exact Function.update_of_ne hne r next

/-- The last link is written. -/
theorem Chain.update_last (h : Chain next p (l ++ [a]) q) (ha : a ∉ l) (r : Option α) :
    Chain (Function.update next a r) p (l ++ [a]) r := by
  rw [chain_concat] at h ⊢
  exact ⟨h.1.update ha r, Function.update_self a r next⟩

end Chain

/-! ## Walking along a list -/

/-- `while (NULL != curr && !stop(curr)) { prev = curr; curr = curr->next; }`, with at most `fuel`
tests of `curr`. The result is `prev` and `curr`. -/
def walk (next : α → Option α) (stop : α → Bool) :
    Nat → Option α → Option α → Option (Option α × Option α)
  | 0, _, _ => none
  | _ + 1, prev, none => some (prev, none)
  | fuel + 1, prev, some curr =>
    if stop curr then some (prev, some curr) else walk next stop fuel (some curr) (next curr)

variable {next : α → Option α} {stop : α → Bool} {l r : List α}

/-- **The walk ends at the first address that meets the test**, with the address before it. -/
theorem walk_eq {p : Option α} (h : Chain next p (l ++ r) none) (hl : ∀ a ∈ l, stop a = false)
    (hr : ∀ a ∈ r.head?, stop a = true) {fuel : Nat} (hfuel : l.length < fuel) (prev : Option α) :
    walk next stop fuel prev p = some (l.getLast?.or prev, r.head?) := by
  induction l generalizing p fuel prev with
  | nil =>
    obtain ⟨fuel, rfl⟩ := Nat.exists_eq_add_of_lt hfuel
    cases r with
    | nil =>
      obtain rfl := h
      rw [List.length_nil, Nat.zero_add, walk]
      rfl
    | cons a r =>
      obtain ⟨rfl, -⟩ := h
      rw [List.length_nil, Nat.zero_add, walk, if_pos (hr a rfl)]
      rfl
  | cons a l ih =>
    obtain ⟨rfl, h⟩ := h
    obtain ⟨fuel, rfl⟩ : ∃ n, fuel = n + 1 := ⟨fuel - 1, by omega⟩
    have hstop : ¬stop a = true := by simp [hl a List.mem_cons_self]
    rw [walk, if_neg hstop, ih h (fun b hb => hl b (List.mem_cons_of_mem _ hb)) (by simpa using hfuel)]
    cases l with
    | nil => rfl
    | cons b l => rw [List.getLast?_cons_cons, List.getLast?_cons, Option.some_or, Option.some_or]

/-- No address meets the test. -/
theorem walk_end {p : Option α} (h : Chain next p l none) (hl : ∀ a ∈ l, stop a = false) {fuel : Nat}
    (hfuel : l.length < fuel) (prev : Option α) :
    walk next stop fuel prev p = some (l.getLast?.or prev, none) := by
  rw [← List.append_nil l] at h
  exact walk_eq h hl (by simp) hfuel prev

end IotDeviceSdk.Infra
