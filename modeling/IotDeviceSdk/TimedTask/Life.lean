import IotDeviceSdk.TimedTask.Container

/-!
# The life of a timed task

What the log says of one task, from its acceptance on: `Life` has one constructor for each thing that
can happen to a task, with the state of the task, or none when it is removed. The statements about
the log follow by induction on it.
-/

namespace IotDeviceSdk.TimedTask

/-- The task of an entry. -/
def Entry.task : Entry → TaskPtr
  | .scheduled t _ _ _ | .ran t | .rescheduled t | .cancelled t _ => t

/-- What happened to the task `t` that was accepted with this handle, for this time, to repeat or
not. -/
inductive Life (t : TaskPtr) (handle due : Int) (repeatsForever : Bool) :
    Option TaskState → List Entry → Prop where
  | accepted : Life t handle due repeatsForever (some .scheduled)
      [.scheduled t handle due repeatsForever]
  | runs {story : List Entry} : Life t handle due repeatsForever (some .scheduled) story →
      Life t handle due repeatsForever (some .running) (story ++ [.ran t])
  | rescheduled {story : List Entry} : repeatsForever = true →
      Life t handle due repeatsForever (some .running) story →
      Life t handle due repeatsForever (some .scheduled) (story ++ [.rescheduled t])
  | cancelled {story : List Entry} : Life t handle due repeatsForever (some .scheduled) story →
      Life t handle due repeatsForever none (story ++ [.cancelled t false])
  | cancelledInside {s : TaskState} {story : List Entry} : s ≠ .scheduled →
      Life t handle due repeatsForever (some s) story →
      Life t handle due repeatsForever (some .deletable) (story ++ [.cancelled t true])
  | finished {story : List Entry} : repeatsForever = false →
      Life t handle due repeatsForever (some .running) story →
      Life t handle due repeatsForever none story
  | deleted {story : List Entry} : Life t handle due repeatsForever (some .deletable) story →
      Life t handle due repeatsForever none story

namespace Life

variable {t : TaskPtr} {handle due : Int} {repeatsForever : Bool} {s : Option TaskState}
  {story : List Entry}

/-- The callback is run, and the run has not ended in a reschedule. -/
def owed : Option TaskState → Nat
  | some .scheduled => 0
  | _ => 1

theorem task_eq (h : Life t handle due repeatsForever s story) : ∀ x ∈ story, x.task = t := by
  induction h with
  | accepted => simp [Entry.task]
  | runs _ ih | rescheduled _ _ ih | cancelled _ ih | cancelledInside _ _ ih =>
    intro x hx
    rcases List.mem_append.1 hx with hx | hx
    · exact ih x hx
    · rw [List.mem_singleton.1 hx]
      rfl
  | finished _ _ ih | deleted _ ih => exact ih

/-- A task is accepted once. -/
theorem scheduled_mem (h : Life t handle due repeatsForever s story) {handle' due' : Int} {r : Bool}
    (hmem : .scheduled t handle' due' r ∈ story) :
    handle' = handle ∧ due' = due ∧ r = repeatsForever := by
  induction h with
  | accepted => simpa using hmem
  | runs _ ih | rescheduled _ _ ih | cancelled _ ih | cancelledInside _ _ ih => exact ih (by simpa using hmem)
  | finished _ _ ih | deleted _ ih => exact ih hmem

/-- While a task is there, no cancel came from outside, and one from inside marks it. -/
theorem not_cancelled (h : Life t handle due repeatsForever s story) (hs : s.isSome) :
    .cancelled t false ∉ story ∧ (s ≠ some .deletable → .cancelled t true ∉ story) := by
  induction h with
  | accepted => simp
  | runs _ ih | rescheduled _ _ ih =>
    obtain ⟨ho, hi⟩ := ih rfl
    simp [ho, hi]
  | cancelledInside _ _ ih => simp [(ih rfl).1]
  | cancelled | finished | deleted => cases hs

/-- A task that does not repeat is not rescheduled. -/
theorem not_rescheduled (h : Life t handle due repeatsForever s story)
    (hr : repeatsForever = false) : .rescheduled t ∉ story := by
  induction h with
  | accepted => simp
  | rescheduled htrue => exact absurd (hr.symm.trans htrue) (by decide)
  | runs _ ih | cancelled _ ih | cancelledInside _ _ ih => simp [ih]
  | finished _ _ ih | deleted _ ih => exact ih

/-- **Each run but the one that is going on was followed by a reschedule.** -/
theorem runs_eq (h : Life t handle due repeatsForever s story) (hs : s.isSome) :
    story.count (.ran t) = story.count (.rescheduled t) + owed s := by
  induction h with
  | accepted => rfl
  | runs _ ih | rescheduled _ _ ih =>
    have := ih rfl
    simp_all [owed]
  | @cancelledInside u _ hu _ ih =>
    have := ih rfl
    cases u <;> simp_all [owed]
  | cancelled | finished | deleted => cases hs

/-- **A task that is gone was cancelled, or ran to its end once.** -/
theorem gone (h : Life t handle due repeatsForever none story) :
    story.count (.ran t) ≤ story.count (.rescheduled t) + 1 ∧
      (.cancelled t false ∈ story ∨
        story.count (.ran t) = story.count (.rescheduled t) + 1 ∧
          (repeatsForever = false ∨ .cancelled t true ∈ story)) := by
  cases h with
  | cancelled h =>
    have hruns := h.runs_eq rfl
    simp only [owed] at hruns
    exact ⟨by simp; omega, .inl (by simp)⟩
  | finished hr h =>
    have hruns := h.runs_eq rfl
    exact ⟨Nat.le_of_eq hruns, .inr ⟨hruns, .inl hr⟩⟩
  | deleted h =>
    have hruns := h.runs_eq rfl
    cases h with
    | cancelledInside => exact ⟨Nat.le_of_eq hruns, .inr ⟨hruns, .inr (by simp)⟩⟩

/-- **After a cancel from outside a task does not run.** -/
theorem silent (h : Life t handle due repeatsForever s story) :
    story.Pairwise fun a b => a = .cancelled t false → b ≠ .ran t := by
  induction h with
  | accepted => simp
  | runs h ih | rescheduled _ h ih | cancelled h ih | cancelledInside _ h ih =>
    refine List.pairwise_append.2 ⟨ih, List.pairwise_singleton _ _, fun a ha b _ hc => ?_⟩
    exact absurd (hc ▸ ha) (h.not_cancelled rfl).1
  | finished _ _ ih | deleted _ ih => exact ih

end Life

end IotDeviceSdk.TimedTask
