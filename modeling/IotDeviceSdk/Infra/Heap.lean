import Mathlib.Data.List.Perm.Basic

/-!
# A heap of blocks

The blocks that are allocated, without their contents, and the answers that the allocator gives to
the next requests. Who owns which block is a list too, and `free` takes an owned block out of both.
-/

namespace IotDeviceSdk.Infra

/-- The address of a block. -/
abbrev Ptr := Nat

/-- `answers` says whether the next requests are met; those after its end are. -/
structure Heap where
  blocks : List Ptr
  next : Ptr
  answers : List Bool
  deriving DecidableEq, Repr

namespace Heap

variable {m : Heap} {k : Nat} {p : Ptr} {ps qs : List Ptr}

/-- A request for a block. -/
def alloc (m : Heap) : Option Ptr × Heap :=
  if m.answers.headD true then (some m.next, ⟨m.next :: m.blocks, m.next + 1, m.answers.tail⟩)
  else (none, { m with answers := m.answers.tail })

/-- The release of a block. -/
def free (m : Heap) (p : Ptr) : Heap := { m with blocks := m.blocks.erase p }

/-- The release of a block that has to be allocated. -/
def release (m : Heap) (p : Ptr) : Option Heap := if p ∈ m.blocks then some (m.free p) else none

/-- The release of several blocks. -/
def freeAll (m : Heap) (ps : List Ptr) : Heap := ps.foldl free m

/-- The next `k` requests are met. -/
def Granted (k : Nat) (m : Heap) : Prop := ∀ b ∈ m.answers.take k, b = true

instance (k : Nat) (m : Heap) : Decidable (Granted k m) := inferInstanceAs (Decidable (∀ b ∈ _, _))

theorem Granted.mono {j : Nat} (h : Granted k m) (hj : j ≤ k) : Granted j m :=
  fun b hb => h b ((List.take_sublist_take_left hj).subset hb)

theorem Granted.alloc (h : Granted (k + 1) m) :
    ∃ m', m.alloc = (some m.next, m') ∧ m'.blocks = m.next :: m.blocks ∧ Granted k m' := by
  have hhead : m.answers.headD true = true := by
    cases hanswers : m.answers with
    | nil => rfl
    | cons b bs => exact h b (by simp [hanswers])
  refine ⟨_, if_pos hhead, rfl, fun b hb => h b ?_⟩
  cases hanswers : m.answers with
  | nil => simp [hanswers] at hb
  | cons c bs =>
    rw [hanswers, List.tail_cons] at hb
    rw [List.take_succ_cons]
    exact List.mem_cons_of_mem _ hb

/-- A request is met, and the rest are as many as before but one; or it is not. -/
theorem alloc_cases (m : Heap) :
    (∃ m', m.alloc = (some m.next, m') ∧ m'.blocks = m.next :: m.blocks ∧
        ∀ k, Granted (k + 1) m ↔ Granted k m') ∨
      ∃ m', m.alloc = (none, m') ∧ m'.blocks = m.blocks ∧ ∀ k, ¬Granted (k + 1) m := by
  cases hhead : m.answers.headD true with
  | true =>
    refine .inl ⟨_, if_pos hhead, rfl, fun k => ⟨fun h => ?_, fun h b hb => ?_⟩⟩
    · obtain ⟨m', halloc, -, hm'⟩ := h.alloc
      have heq : m' = ⟨m.next :: m.blocks, m.next + 1, m.answers.tail⟩ :=
        (congrArg Prod.snd (halloc.symm.trans (if_pos hhead)) :)
      exact heq ▸ hm'
    · cases hanswers : m.answers with
      | nil => simp [hanswers] at hb
      | cons c bs =>
        rw [hanswers, List.take_succ_cons, List.mem_cons] at hb
        rcases hb with rfl | hb
        · simpa [hanswers] using hhead
        · exact h b (by simpa [hanswers] using hb)
  | false =>
    refine .inr ⟨_, if_neg fun ht => Bool.noConfusion (hhead.symm.trans ht), rfl, fun k h => ?_⟩
    cases hanswers : m.answers with
    | nil => simp [hanswers] at hhead
    | cons c bs =>
      have hc : c = true := h c (by simp [hanswers])
      simp [hanswers, hc] at hhead

/-- The block on top is released. -/
theorem release_head (h : m.blocks = p :: qs) : ∃ m', m.release p = some m' ∧ m'.blocks = qs := by
  refine ⟨m.free p, if_pos (by simp [h]), ?_⟩
  unfold free
  rw [h, List.erase_cons_head]

@[simp] theorem freeAll_nil : m.freeAll [] = m := rfl

@[simp] theorem freeAll_cons : m.freeAll (p :: ps) = (m.free p).freeAll ps := rfl

theorem Granted.freeAll (h : Granted k m) : Granted k (m.freeAll ps) := by
  induction ps generalizing m with
  | nil => exact h
  | cons p ps ih => exact ih (m := m.free p) h

@[simp] theorem next_free : (m.free p).next = m.next := rfl

@[simp] theorem next_freeAll : (m.freeAll ps).next = m.next := by
  induction ps generalizing m with
  | nil => rfl
  | cons p ps ih => exact ih

/-- Addresses are not used again. -/
theorem next_alloc {m' : Heap} {r : Option Ptr} (h : m.alloc = (r, m')) :
    m.next ≤ m'.next ∧ ∀ p ∈ r, p = m.next ∧ m.next < m'.next := by
  unfold alloc at h
  split at h <;> obtain ⟨rfl, rfl⟩ := Prod.mk.inj h
  · exact ⟨Nat.le_succ _, fun p hp => ⟨(Option.some.inj hp).symm, Nat.lt_succ_self _⟩⟩
  · exact ⟨Nat.le_refl _, fun p hp => by cases hp⟩

theorem perm_free (h : m.blocks.Perm (p :: qs)) : (m.free p).blocks.Perm qs := by
  have := h.erase p
  rwa [List.erase_cons_head] at this

theorem perm_freeAll (h : m.blocks.Perm (ps ++ qs)) : (m.freeAll ps).blocks.Perm qs := by
  induction ps generalizing m with
  | nil => exact h
  | cons p ps ih => exact ih (perm_free h)

/-- The blocks are at different addresses, and below those that are still to be given out. -/
structure Distinct (m : Heap) : Prop where
  nodup : m.blocks.Nodup
  below : ∀ p ∈ m.blocks, p < m.next

theorem Distinct.alloc {m' : Heap} (h : m.Distinct) (halloc : m.alloc = (some p, m')) :
    m'.blocks = p :: m.blocks ∧ p ∉ m.blocks ∧ m'.Distinct := by
  unfold Heap.alloc at halloc
  split at halloc
  · obtain ⟨hp, rfl⟩ := Prod.mk.inj halloc
    obtain rfl := Option.some.inj hp
    have hnew : m.next ∉ m.blocks := fun hmem => Nat.lt_irrefl _ (h.below _ hmem)
    refine ⟨rfl, hnew, List.nodup_cons.2 ⟨hnew, h.nodup⟩, fun q hq => ?_⟩
    rcases List.mem_cons.1 hq with rfl | hq
    · exact Nat.lt_succ_self _
    · exact Nat.lt_succ_of_lt (h.below q hq)
  · cases halloc

/-- A block is released. -/
theorem release_perm (h : m.blocks.Perm (p :: qs)) :
    ∃ m', m.release p = some m' ∧ m'.blocks.Perm qs ∧ m'.next = m.next :=
  ⟨m.free p, if_pos (h.symm.subset List.mem_cons_self), perm_free h, rfl⟩

/-- The release of several blocks, each of which has to be allocated. -/
def releaseAll (m : Heap) (ps : List Ptr) : Option Heap := ps.foldlM release m

@[simp] theorem releaseAll_nil : m.releaseAll [] = some m := rfl

@[simp] theorem releaseAll_cons :
    m.releaseAll (p :: ps) = (m.release p).bind fun m => m.releaseAll ps := rfl

theorem releaseAll_perm (h : m.blocks.Perm (ps ++ qs)) :
    ∃ m', m.releaseAll ps = some m' ∧ m'.blocks.Perm qs ∧ m'.next = m.next := by
  induction ps generalizing m with
  | nil => exact ⟨m, rfl, h, rfl⟩
  | cons p ps ih =>
    obtain ⟨m₁, hp, hperm, hnext⟩ := release_perm h
    obtain ⟨m', hps, hperm', hnext'⟩ := ih hperm
    exact ⟨m', by rw [releaseAll_cons, hp, Option.bind_some, hps], hperm', hnext'.trans hnext⟩

/-- What is left of the blocks stays distinct. -/
theorem Distinct.of_perm {m' : Heap} (h : m.Distinct) (hperm : m.blocks.Perm (ps ++ m'.blocks))
    (hnext : m'.next = m.next) : m'.Distinct := by
  refine ⟨(List.nodup_append.1 (hperm.nodup_iff.1 h.nodup)).2.1, fun p hp => ?_⟩
  rw [hnext]
  exact h.below p (hperm.symm.subset (List.mem_append_right _ hp))

end Heap

end IotDeviceSdk.Infra
