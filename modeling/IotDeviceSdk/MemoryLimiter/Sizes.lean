import IotDeviceSdk.MemoryLimiter.Accounts

/-!
# The sizes of blocks

The `size` of an entry is the number of bytes that the platform was asked for, the entry included.
What is behind the entry is enough for the request unless the sum or the product is too large for a
`size_t`: then the limiter and the platform see a small number, and may well have a block of this
size.
-/

namespace IotDeviceSdk.MemoryLimiter

open Infra

/-- The bytes that the caller of an allocation wants. -/
def Call.requested : Call → Option Nat
  | .alloc _ n _ => some n
  | .calloc _ k n _ => some (k * n)
  | .realloc _ _ n _ => some n
  | .free _ | .setLimit _ => none

/-- A call that does what its caller can expect of the size of a block. -/
structure Adequate (c : Config) (w : Limiter) (e : Call) : Prop where
  /-- behind the entry of a block that is returned there are as many bytes as were requested -/
  enough : ∀ n p w', e.requested = some n → call c w e = some (some p, w') →
    ∃ d, w'.entries.read (Limiter.getEntryFromPtr c p) = some d ∧ n + c.entrySize ≤ d.value
  /-- a request that is too large together with the entry returns `NULL` -/
  refused : ∀ n, e.requested = some n → 2 ^ 64 ≤ n + c.entrySize →
    ∃ w', call c w e = some (none, w')

/-- The request and the entry together are a `size_t`. -/
def Represented (c : Config) (e : Call) : Prop := ∀ n ∈ e.requested, n + c.entrySize < 2 ^ 64

/-- What the code computes for the request does not fit into the limit, or the platform has no block
for it. -/
def Refuses (c : Config) (w : Limiter) : Call → Prop
  | .alloc t n answer =>
    w.willAllocationFit t (toSize (n + c.entrySize)) ≠ .ok ∨ answer = none
  | .calloc t k n answer =>
    w.willAllocationFit t (toSize (toSize (k * n) + c.entrySize)) ≠ .ok ∨ answer = none
  | .realloc _ none _ _ => True
  | .realloc t (some ptr) n answer =>
    ∃ d, w.entries.read (Limiter.getEntryFromPtr c ptr) = some d ∧
      (w.willAllocationFit t (toSize (max (Limiter.realDiff c d n) 0)) ≠ .ok ∨
        answer = none ∧ (Limiter.unlinkEntry c w.entries d).isSome)
  | .free _ | .setLimit _ => True

variable {c : Config} {w w' : Limiter}

/-! ## Calls that return `NULL` -/

theorem alloc_null_iff {t : AllocationType} {n : Nat} {answer : Option Ptr} :
    (∃ w', w.alloc c t n answer = some (none, w')) ↔
      w.willAllocationFit t (toSize (n + c.entrySize)) ≠ .ok ∨ answer = none := by
  unfold Limiter.alloc
  simp only
  split
  · next hfit => exact iff_of_true ⟨w, rfl⟩ (.inl hfit)
  · next hfit =>
    cases answer with
    | none => exact iff_of_true ⟨w, rfl⟩ (.inr rfl)
    | some a =>
      refine iff_of_false ?_ (by simpa using hfit)
      rintro ⟨w', h⟩
      simp only at h
      split at h
      · cases h
      · obtain ⟨m, -, h⟩ := Option.map_eq_some_iff.1 h
        cases h

theorem realloc_null_iff {t : AllocationType} {ptr : Ptr} {n : Nat} {answer : Option Ptr} :
    (∃ w', w.realloc c t (some ptr) n answer = some (none, w')) ↔
      Refuses c w (.realloc t (some ptr) n answer) := by
  unfold Limiter.realloc
  simp only [Refuses]
  cases hread : w.entries.read (Limiter.getEntryFromPtr c ptr) with
  | none => simp
  | some d =>
    simp only [Option.bind_some, Option.some.injEq, exists_eq_left']
    split
    · next hfit => exact iff_of_true ⟨w, rfl⟩ (.inl hfit)
    · next hfit =>
      cases hunlink : Limiter.unlinkEntry c w.entries d with
      | none => simpa using hfit
      | some m =>
        cases answer with
        | none => exact iff_of_true ⟨_, rfl⟩ (.inr ⟨rfl, rfl⟩)
        | some a =>
          refine iff_of_false ?_ (by simpa using hfit)
          rintro ⟨w', h⟩
          simp only [Option.bind_some] at h
          split at h
          · cases h
          · obtain ⟨m', -, h⟩ := Option.bind_eq_some_iff.1 h
            obtain ⟨m'', -, h⟩ := Option.map_eq_some_iff.1 h
            cases h

/-- The calls that return `NULL` are those that the limiter or the platform refuses. -/
theorem null_iff {e : Call} {n : Nat} (he : e.requested = some n) :
    (∃ w', call c w e = some (none, w')) ↔ Refuses c w e := by
  cases e with
  | alloc t n answer => exact alloc_null_iff
  | calloc t k n answer => exact alloc_null_iff
  | realloc t ptr n answer =>
    cases ptr with
    | none => exact iff_of_true ⟨w, rfl⟩ trivial
    | some ptr => exact realloc_null_iff
  | free ptr => cases he
  | setLimit newMemoryLimit => cases he

/-! ## Calls that return a block -/

/-- The entry of the new block has its size. -/
theorem setEntry_read {m m' : Infra.Memory Ptr Nat} {entry : Ptr} {size : Nat}
    (h : Limiter.setEntry c m entry size = some m') :
    ∃ d, m'.read entry = some d ∧ d.value = size := by
  obtain ⟨m₁, -, h⟩ := Option.bind_eq_some_iff.1 h
  obtain ⟨d, -, hd⟩ :=
    read_of_write (f := fun e : Cell Ptr Nat => { e with value := size }) (fun _ => rfl) h
  exact ⟨_, hd, rfl⟩

theorem alloc_block {t : AllocationType} {n : Nat} {answer : Option Ptr} {p : Ptr}
    (h : w.alloc c t n answer = some (some p, w')) :
    ∃ d, w'.entries.read (Limiter.getEntryFromPtr c p) = some d ∧
      d.value = toSize (n + c.entrySize) := by
  obtain ⟨a, -, rfl, hm⟩ := Limiter.alloc_eq_some h
  rw [getEntryFromPtr_getPtrFromEntry]
  exact setEntry_read hm

theorem realloc_block {t : AllocationType} {ptr : Option Ptr} {n : Nat} {answer : Option Ptr}
    {p : Ptr} (h : w.realloc c t ptr n answer = some (some p, w')) :
    ∃ d, w'.entries.read (Limiter.getEntryFromPtr c p) = some d ∧
      d.value = toSize (n + c.entrySize) := by
  cases ptr with
  | none => cases h
  | some ptr =>
    obtain ⟨_, _, _, a, -, -, -, -, rfl, -, hm⟩ := Limiter.realloc_eq_some h
    rw [getEntryFromPtr_getPtrFromEntry]
    exact setEntry_read hm

/-- A block for a request that is represented has the size of the request and of the entry. -/
theorem block_enough {e : Call} {n : Nat} {p : Ptr} (he : e.requested = some n)
    (hsize : n + c.entrySize < 2 ^ 64) (h : call c w e = some (some p, w')) :
    ∃ d, w'.entries.read (Limiter.getEntryFromPtr c p) = some d ∧ n + c.entrySize ≤ d.value := by
  cases e with
  | alloc t n answer =>
    obtain rfl := Option.some.inj he
    obtain ⟨d, hd, hvalue⟩ := alloc_block h
    exact ⟨d, hd, by rw [hvalue, toSize_add hsize]⟩
  | calloc t k n answer =>
    obtain rfl := Option.some.inj he
    obtain ⟨d, hd, hvalue⟩ := alloc_block h
    have hproduct : toSize (k * n) = k * n := toSize_of_lt (n := k * n) (by omega)
    exact ⟨d, hd, by rw [hvalue, hproduct, toSize_add hsize]⟩
  | realloc t ptr n answer =>
    obtain rfl := Option.some.inj he
    obtain ⟨d, hd, hvalue⟩ := realloc_block h
    exact ⟨d, hd, by rw [hvalue, toSize_add hsize]⟩
  | free ptr => cases he
  | setLimit newMemoryLimit => cases he

/-- **In every state, a call is adequate exactly when its request is represented, or is refused for
the number that the code computes.** -/
theorem adequate_iff (c : Config) (w : Limiter) (e : Call) :
    Adequate c w e ↔ Represented c e ∨ Refuses c w e := by
  constructor
  · intro h
    refine Classical.or_iff_not_imp_left.2 fun hnot => ?_
    obtain ⟨n, hn, hlarge⟩ : ∃ n, e.requested = some n ∧ 2 ^ 64 ≤ n + c.entrySize := by
      simpa [Represented] using hnot
    exact (null_iff hn).1 (h.refused n hn hlarge)
  · rintro (hrepresented | hrefuses)
    · refine ⟨fun n p w' hn h => block_enough hn (hrepresented n hn) h, fun n hn hlarge => ?_⟩
      have := hrepresented n hn
      omega
    · refine ⟨fun n p w' hn h => ?_, fun n hn _ => (null_iff hn).2 hrefuses⟩
      obtain ⟨w'', hnull⟩ := (null_iff hn).2 hrefuses
      rw [hnull] at h
      cases h

/-- A product of `2 ^ 64` bytes is 0, and the limiter returns an entry with nothing behind it; a
request of `2 ^ 64 - 1` bytes gets less than its entry needs, which then is written behind the end
of the block. -/
theorem adequate_fails :
    ¬ Adequate (build false) (Limiter.init (build false))
        (.calloc .application (2 ^ 63) 2 (some 4096)) ∧
      ¬ Adequate (build false) (Limiter.init (build false))
        (.alloc .application (2 ^ 64 - 1) (some 4096)) := by
  constructor
  · intro h
    obtain ⟨w', hnull⟩ := h.refused (2 ^ 64) rfl (by decide)
    have hblock : (call (build false) (Limiter.init (build false))
        (.calloc .application (2 ^ 63) 2 (some 4096))).map Prod.fst = some (some 4104) := by
      decide +kernel
    rw [hnull] at hblock
    cases hblock
  · intro h
    obtain ⟨w', hnull⟩ := h.refused (2 ^ 64 - 1) rfl (by decide)
    have hundefined : call (build false) (Limiter.init (build false))
        (.alloc .application (2 ^ 64 - 1) (some 4096)) = none := by decide +kernel
    rw [hundefined] at hnull
    cases hnull

end IotDeviceSdk.MemoryLimiter
