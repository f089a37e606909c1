import Mathlib.Data.List.Infix

/-!
# Names of levels

A name is a sequence of symbols in which a separator ends a level. A filter is a name whose last level
may be a wildcard, which stands for its parent and for all that is below it.

* `Matches` compares a filter with a name level by level.
* `matches_iff_eq`, `matches_wildcard` and `matches_below` say what that means for the symbols.
-/

namespace IotDeviceSdk.Infra

universe u

variable {α : Type u} {sep wild : α}

/-! ## Lists of levels -/

/-- **A filter matches level by level.** The wildcard as the last level stands for the levels that are
left, also for none. -/
def LevelsMatch (wild : α) : List (List α) → List (List α) → Prop
  | [], ts => ts = []
  | f :: fs, ts => f = [wild] ∧ fs = [] ∨ ∃ us, ts = f :: us ∧ LevelsMatch wild fs us

theorem levelsMatch_append_wild {fs : List (List α)} : ∀ {ts : List (List α)},
    LevelsMatch wild (fs ++ [[wild]]) ts ↔ fs <+: ts := by
  induction fs with
  | nil => exact fun {ts} => ⟨fun _ => List.nil_prefix, fun _ => .inl ⟨rfl, rfl⟩⟩
  | cons f fs ih =>
    intro ts
    constructor
    · rintro (⟨-, hnil⟩ | ⟨us, rfl, h⟩)
      · cases fs <;> cases hnil
      · exact (List.prefix_cons_inj f).mpr (ih.mp h)
    · rintro ⟨us, rfl⟩
      exact .inr ⟨fs ++ us, rfl, ih.mpr (List.prefix_append _ _)⟩

theorem levelsMatch_of_plain {fs : List (List α)} (hfs : ∀ f ∈ fs, f ≠ [wild]) :
    ∀ {ts : List (List α)}, LevelsMatch wild fs ts ↔ fs = ts := by
  induction fs with
  | nil => exact fun {ts} => eq_comm
  | cons f fs ih =>
    intro ts
    have hrest : ∀ f ∈ fs, f ≠ [wild] := fun f hf => hfs f (List.mem_cons_of_mem _ hf)
    constructor
    · rintro (⟨hwild, -⟩ | ⟨us, rfl, h⟩)
      · exact absurd hwild (hfs f List.mem_cons_self)
      · rw [(ih hrest).mp h]
    · rintro rfl
      exact .inr ⟨fs, rfl, (ih hrest).mpr rfl⟩

/-! ## The levels of a name -/

variable [DecidableEq α]

/-- The levels of a name. -/
def levels (sep : α) (s : List α) : List (List α) := s.splitOn sep

theorem levels_injective {s t : List α} (h : levels sep s = levels sep t) : s = t := by
  have hjoin := congrArg [sep].intercalate h
  unfold levels at hjoin
  rwa [List.intercalate_splitOn, List.intercalate_splitOn] at hjoin

theorem levels_append (s t : List α) :
    levels sep (s ++ sep :: t) = levels sep s ++ levels sep t :=
  List.splitOn_append_cons_self s t

/-- The symbols of a level are those of the name, without the separator. -/
theorem of_mem_levels {s l : List α} (hl : l ∈ levels sep s) : ∀ a ∈ l, a ∈ s ∧ a ≠ sep := by
  induction s generalizing l with
  | nil =>
    obtain rfl := List.mem_singleton.mp hl
    simp
  | cons b s ih =>
    unfold levels at hl ih
    rw [List.splitOn_cons_eq_if_modifyHead] at hl
    split at hl
    · rcases List.mem_cons.mp hl with rfl | hl
      · simp
      · exact fun a ha => ⟨List.mem_cons_of_mem _ (ih hl a ha).1, (ih hl a ha).2⟩
    · next hb =>
      obtain ⟨r, rs, hr⟩ := List.exists_cons_of_ne_nil (List.splitOn_ne_nil sep s)
      rw [hr, List.modifyHead_cons] at hl
      rw [hr] at ih
      intro a ha
      rcases List.mem_cons.mp hl with rfl | hl
      · rcases List.mem_cons.mp ha with rfl | ha
        · exact ⟨List.mem_cons_self, by simpa using hb⟩
        · have := ih List.mem_cons_self a ha
          exact ⟨List.mem_cons_of_mem _ this.1, this.2⟩
      · have := ih (List.mem_cons_of_mem _ hl) a ha
        exact ⟨List.mem_cons_of_mem _ this.1, this.2⟩

/-- The levels of `p` come first in those of a name when it is `p`, or `p` with levels below it. -/
theorem levels_prefix_iff {p t : List α} :
    levels sep p <+: levels sep t ↔ t = p ∨ (p ++ [sep]) <+: t := by
  constructor
  · rintro ⟨ls, hls⟩
    by_cases hnil : ls = []
    · rw [hnil, List.append_nil] at hls
      exact .inl (levels_injective hls.symm)
    · have hfree : ∀ l ∈ ls, sep ∉ l := fun l hl hm =>
        (of_mem_levels (s := t) (hls ▸ List.mem_append_right _ hl) sep hm).2 rfl
      refine .inr ⟨[sep].intercalate ls, ?_⟩
      refine levels_injective (?_ : levels sep _ = levels sep _)
      rw [List.append_assoc, List.singleton_append, levels_append, ← hls]
      exact congrArg _ (List.splitOn_intercalate sep hfree hnil)
  · rintro (rfl | ⟨s, rfl⟩)
    · exact List.prefix_refl _
    · rw [List.append_assoc, List.singleton_append, levels_append]
      exact List.prefix_append _ _

/-! ## Filters -/

/-- The filter `f` matches the name `t`. -/
def Matches (sep wild : α) (f t : List α) : Prop := LevelsMatch wild (levels sep f) (levels sep t)

/-- Without a wildcard a filter matches itself. -/
theorem matches_iff_eq {f t : List α} (hf : wild ∉ f) : Matches sep wild f t ↔ t = f := by
  unfold Matches
  rw [levelsMatch_of_plain fun l hl hwild => hf ?_]
  · exact ⟨fun h => (levels_injective h).symm, fun h => congrArg _ h.symm⟩
  · exact (of_mem_levels hl wild (hwild ▸ List.mem_singleton_self _)).1

/-- The wildcard matches every name. -/
theorem matches_wildcard (hne : wild ≠ sep) (t : List α) : Matches sep wild [wild] t := by
  have hlevels : levels sep [wild] = [[wild]] := List.splitOn_eq_singleton (by simpa using hne.symm)
  unfold Matches
  rw [hlevels]
  exact .inl ⟨rfl, rfl⟩

/-- The wildcard below `p` matches `p`, and all that is below it. -/
theorem matches_below (hne : wild ≠ sep) {p t : List α} :
    Matches sep wild (p ++ [sep, wild]) t ↔ t = p ∨ (p ++ [sep]) <+: t := by
  have hlevels : levels sep [wild] = [[wild]] := List.splitOn_eq_singleton (by simpa using hne.symm)
  unfold Matches
  rw [levels_append, hlevels, levelsMatch_append_wild, levels_prefix_iff]

end IotDeviceSdk.Infra
