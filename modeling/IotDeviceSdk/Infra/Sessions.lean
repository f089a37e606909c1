import Mathlib.Data.List.Basic

/-!
# Traces of sessions

A trace of what is said, with the places where a session starts. Something may be the last word of a
session: a trace is `Silent` if no session goes on after it.

* `SilentFrom` is the same read from the left, with whether the last word has been said.
* `Calmer` compares two traces: what can follow the one can follow the other. What forwards a
  trace, loses words and says a word twice that is not a last one makes a calmer trace.
-/

namespace IotDeviceSdk.Infra

universe u

variable {α : Type u}

/-- A session starts, or something is said. -/
inductive Entry (α : Type u) where
  | start
  | said (a : α)
  deriving DecidableEq

variable {last : α → Bool} {l l' : List (Entry α)} {a : α} {d : Bool}

/-- **After a last word nothing is said** until a session starts. -/
def Silent (last : α → Bool) (l : List (Entry α)) : Prop :=
  ∀ pre mid post a b, l = pre ++ .said a :: (mid ++ .said b :: post) → last a = true → .start ∈ mid

/-- The last word of the session has been said, when `d` says so of what is before the trace. -/
def ended (last : α → Bool) : Bool → List (Entry α) → Bool
  | d, [] => d
  | _, .start :: l => ended last false l
  | d, .said a :: l => ended last (d || last a) l

/-- The trace can follow, when `d` says that the last word has been said. -/
def SilentFrom (last : α → Bool) : Bool → List (Entry α) → Prop
  | _, [] => True
  | _, .start :: l => SilentFrom last false l
  | d, .said a :: l => d = false ∧ SilentFrom last (last a) l

/-! ## What can follow -/

theorem ended_append : ∀ (l : List (Entry α)) (d : Bool),
    ended last d (l ++ l') = ended last (ended last d l) l'
  | [], _ => rfl
  | .start :: l, _ => ended_append l false
  | .said a :: l, d => ended_append l (d || last a)

theorem silentFrom_append : ∀ (l : List (Entry α)) (d : Bool),
    SilentFrom last d (l ++ l') ↔ SilentFrom last d l ∧ SilentFrom last (ended last d l) l'
  | [], _ => by simp only [List.nil_append, SilentFrom, ended, true_and]
  | .start :: l, _ => silentFrom_append l false
  | .said a :: l, d => by
    simp only [List.cons_append, SilentFrom, ended, silentFrom_append l (last a), and_assoc]
    refine and_congr_right fun hd => ?_
    rw [hd, Bool.false_or]

/-- What can follow a last word can always follow. -/
theorem SilentFrom.anytime (h : SilentFrom last d l) : SilentFrom last false l := by
  cases l with
  | nil => trivial
  | cons e l =>
    cases e with
    | start => exact h
    | said a => exact ⟨rfl, h.2⟩

/-- A session that starts or goes on and is not ended by any of these words. -/
theorem silentFrom_of_forall : ∀ {l : List (Entry α)}, (∀ a, .said a ∈ l → last a = false) →
    SilentFrom last false l
  | [], _ => trivial
  | .start :: l, h => silentFrom_of_forall (l := l) fun a ha => h a (List.mem_cons_of_mem _ ha)
  | .said a :: _, h => by
    refine ⟨rfl, ?_⟩
    rw [h a List.mem_cons_self]
    exact silentFrom_of_forall fun b hb => h b (List.mem_cons_of_mem _ hb)

/-- After a last word only a start can come before the next word. -/
theorem SilentFrom.start_mem : ∀ {mid post : List (Entry α)} {b : α},
    SilentFrom last true (mid ++ .said b :: post) → .start ∈ mid
  | [], _, _, h => absurd h.1 Bool.noConfusion
  | .start :: _, _, _, _ => List.mem_cons_self
  | .said _ :: _, _, _, h => absurd h.1 Bool.noConfusion

theorem silentFrom_true : ∀ {l : List (Entry α)}, SilentFrom last false l →
    (∀ mid post b, l = mid ++ .said b :: post → .start ∈ mid) → SilentFrom last true l
  | [], _, _ => trivial
  | .start :: _, h, _ => h
  | .said b :: l, _, hstart => absurd (hstart [] l b rfl) List.not_mem_nil

/-- **A silent trace is one that can follow from the start on.** -/
theorem silent_iff : Silent last l ↔ SilentFrom last false l := by
  constructor
  · intro h
    induction l with
    | nil => trivial
    | cons e l ih =>
      have hl : Silent last l := fun pre mid post a b hl => h (e :: pre) mid post a b (by rw [hl]; rfl)
      cases e with
      | start => exact ih hl
      | said a =>
        refine ⟨rfl, ?_⟩
        cases ha : last a with
        | false => exact ih hl
        | true =>
          exact silentFrom_true (ih hl) fun mid post b hmid => h [] mid post a b (by rw [hmid]; rfl) ha
  · rintro h pre mid post a b rfl ha
    have hsaid := ((silentFrom_append pre false).mp h).2.2
    rw [ha] at hsaid
    exact hsaid.start_mem

instance SilentFrom.decidable : ∀ (d : Bool) (l : List (Entry α)), Decidable (SilentFrom last d l)
  | _, [] => .isTrue trivial
  | _, .start :: l => SilentFrom.decidable false l
  | d, .said a :: l =>
    have := SilentFrom.decidable (last a) l
    inferInstanceAs (Decidable (d = false ∧ SilentFrom last (last a) l))

instance Silent.decidable : Decidable (Silent last l) := decidable_of_iff _ silent_iff.symm

/-! ## Calmer traces -/

/-- Whatever can follow the trace `l` with silence where it has to be, can follow the trace `l'`. -/
def Calmer (last : α → Bool) (l l' : List (Entry α)) : Prop :=
  ∀ d k, SilentFrom last d (l ++ k) → SilentFrom last d (l' ++ k)

namespace Calmer

variable {l'' : List (Entry α)}

theorem refl (l : List (Entry α)) : Calmer last l l := fun _ _ => id

theorem trans (h : Calmer last l l') (h' : Calmer last l' l'') : Calmer last l l'' :=
  fun d k hl => h' d k (h d k hl)

theorem append_right (h : Calmer last l l') (k : List (Entry α)) : Calmer last (l ++ k) (l' ++ k) := by
  intro d m hl
  rw [List.append_assoc] at hl ⊢
  exact h d (k ++ m) hl

theorem append_left (k : List (Entry α)) (h : Calmer last l l') : Calmer last (k ++ l) (k ++ l') := by
  intro d m hl
  rw [List.append_assoc, silentFrom_append] at hl ⊢
  exact ⟨hl.1, h _ m hl.2⟩

/-- A word that is lost. -/
theorem lose (a : α) (l : List (Entry α)) : Calmer last (.said a :: l) l := by
  rintro d k ⟨rfl, h⟩
  exact h.anytime

/-- All words of a trace without a start are lost. -/
theorem lose_map : ∀ (as : List α) (l : List (Entry α)), Calmer last (as.map .said ++ l) l
  | [], l => refl l
  | a :: as, l => (lose a _).trans (lose_map as l)

/-- A word that is said twice, and is not a last one. -/
theorem repeat_said (ha : last a = false) : Calmer last [.said a] [.said a, .said a] := by
  rintro d k ⟨hd, h⟩
  exact ⟨hd, ha, h⟩

theorem silent (h : Calmer last l l') (hl : Silent last l) : Silent last l' := by
  rw [silent_iff] at hl ⊢
  have := h false [] (by rwa [List.append_nil])
  rwa [List.append_nil] at this

/-- What a calmer trace begins with is silent. -/
theorem silent_left {k : List (Entry α)} (h : Calmer last l (l' ++ k)) (hl : Silent last l) :
    Silent last l' := by
  have := h.silent hl
  rw [silent_iff, silentFrom_append] at this
  exact silent_iff.mpr this.1

end Calmer

end IotDeviceSdk.Infra
