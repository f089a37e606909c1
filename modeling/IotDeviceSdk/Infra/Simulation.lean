import IotDeviceSdk.Infra.Run

/-!
# Simulation between two components

A component is seen as another one, through a function on its states. If each of its steps is a run of
the other one, so is each of its runs: `run_simulated`. What the events of the other one have to do with
the step is a relation `T`, which must say the same of runs that follow each other.
-/

namespace IotDeviceSdk.Infra

universe u v

variable {σ ε : Type u} {α ν : Type v} {step : σ → ε → Option σ} {astep : α → ν → Option α}

/-- A relation between the events of the other component and the two states. -/
structure Traced (T : σ → List ν → σ → Prop) : Prop where
  refl : ∀ s, T s [] s
  trans : ∀ {s t u xs ys}, T s xs t → T t ys u → T s (xs ++ ys) u

/-- The step from `s` to `s'` is a run of the other component. -/
def Simulated (astep : α → ν → Option α) (view : σ → α) (T : σ → List ν → σ → Prop) (s s' : σ) : Prop :=
  ∃ xs, run astep (view s) xs = some (view s') ∧ T s xs s'

variable {view : σ → α} {T : σ → List ν → σ → Prop} {s t u : σ}

theorem Simulated.refl (hT : Traced T) (s : σ) : Simulated astep view T s s :=
  ⟨[], run_nil _ _, hT.refl s⟩

theorem Simulated.trans (hT : Traced T) (h : Simulated astep view T s t)
    (h' : Simulated astep view T t u) : Simulated astep view T s u := by
  obtain ⟨xs, hrun, hxs⟩ := h
  obtain ⟨ys, hrun', hys⟩ := h'
  refine ⟨xs ++ ys, ?_, hT.trans hxs hys⟩
  rw [run_append, hrun]
  exact hrun'

/-- **A run is a run of the other component** if each of its steps is, where an invariant holds that the
steps keep. -/
theorem run_simulated (hT : Traced T) {C : σ → ε → Prop} {I : σ → Prop}
    (hstep : ∀ s e s', I s → C s e → step s e = some s' → I s' ∧ Simulated astep view T s s') :
    ∀ {es : List ε} {s t : σ}, I s → AllSteps step C s es → run step s es = some t →
      I t ∧ Simulated astep view T s t
  | [], s, t, hI, _, h => by
    obtain rfl := Option.some.inj h
    exact ⟨hI, .refl hT s⟩
  | e :: es, s, t, hI, hC, h => by
    rw [run_cons, Option.bind_eq_some_iff] at h
    obtain ⟨s₁, h₁, h⟩ := h
    obtain ⟨hI₁, hsim₁⟩ := hstep s e s₁ hI hC.1 h₁
    obtain ⟨hIt, hsim⟩ := run_simulated hT hstep hI₁ (hC.2 s₁ h₁) h
    exact ⟨hIt, hsim₁.trans hT hsim⟩

end IotDeviceSdk.Infra
