import Mathlib.Data.List.Basic
import Mathlib.Logic.Relation

/-!
# Runs of a partial step function

A component is a state type, an event type and a step `σ → ε → Option σ`, where `none` says
that the step cannot be taken. A run is `List.foldlM` of the step over the events.

* `run_invariant` carries what one step preserves to whole runs.
* `run_invariant_of` does the same when only the steps that satisfy a side condition preserve it.
* `observed` runs an abstract state beside the component.
* `SplitFree` is the property of a consumer of chunks that does not see where the chunks end.
-/

namespace IotDeviceSdk.Infra

universe u v

variable {σ : Type u} {ε : Type u}

/-! ## Runs -/

/-- The state after the events `es`, if every step can be taken. -/
def run (step : σ → ε → Option σ) (s : σ) (es : List ε) : Option σ := es.foldlM step s

@[simp] theorem run_nil (step : σ → ε → Option σ) (s : σ) : run step s [] = some s := rfl

@[simp] theorem run_cons (step : σ → ε → Option σ) (s : σ) (e : ε) (es : List ε) :
    run step s (e :: es) = (step s e).bind fun s' => run step s' es := rfl

theorem run_append (step : σ → ε → Option σ) (s : σ) (es fs : List ε) :
    run step s (es ++ fs) = (run step s es).bind fun s' => run step s' fs := by
  simp [run, List.foldlM_append]

theorem run_concat (step : σ → ε → Option σ) (s : σ) (es : List ε) (e : ε) :
    run step s (es ++ [e]) = (run step s es).bind fun s' => step s' e := by
  rw [run_append]
  cases run step s es with
  | none => rfl
  | some s' => simp

/-- What every step preserves holds after every run. -/
theorem run_invariant {step : σ → ε → Option σ} {P : σ → Prop}
    (hstep : ∀ s e s', P s → step s e = some s' → P s') :
    ∀ {es : List ε} {s s' : σ}, P s → run step s es = some s' → P s'
  | [], s, s', hs, h => by
    rw [run_nil, Option.some.injEq] at h
    exact h ▸ hs
  | e :: es, s, s', hs, h => by
    rw [run_cons, Option.bind_eq_some_iff] at h
    obtain ⟨s₁, h₁, h₂⟩ := h
    exact run_invariant hstep (hstep s e s₁ hs h₁) h₂

/-! ## Runs whose steps meet a condition -/

/-- Every step of the run is taken in a state that meets the condition `C`. -/
def AllSteps (step : σ → ε → Option σ) (C : σ → ε → Prop) : σ → List ε → Prop
  | _, [] => True
  | s, e :: es => C s e ∧ ∀ s', step s e = some s' → AllSteps step C s' es

theorem allSteps_nil (step : σ → ε → Option σ) (C : σ → ε → Prop) (s : σ) :
    AllSteps step C s [] := trivial

/-- A step that is taken from here, and the steps after it. -/
theorem AllSteps.cons {step : σ → ε → Option σ} {C : σ → ε → Prop} {s s' : σ} {e : ε} {es : List ε}
    (hC : C s e) (h : step s e = some s') (hes : AllSteps step C s' es) :
    AllSteps step C s (e :: es) := by
  refine ⟨hC, fun s₁ h₁ => ?_⟩
  obtain rfl := Option.some.inj (h.symm.trans h₁)
  exact hes

/-- A run, and the steps after it. -/
theorem AllSteps.append {step : σ → ε → Option σ} {C : σ → ε → Prop} {fs : List ε} :
    ∀ {es : List ε} {s s' : σ}, AllSteps step C s es → run step s es = some s' →
      AllSteps step C s' fs → AllSteps step C s (es ++ fs)
  | [], s, s', _, h, hfs => by
    obtain rfl := Option.some.inj h
    exact hfs
  | e :: es, s, s', hes, h, hfs => by
    rw [run_cons, Option.bind_eq_some_iff] at h
    obtain ⟨s₁, h₁, h₂⟩ := h
    exact .cons hes.1 h₁ ((hes.2 s₁ h₁).append h₂ hfs)

theorem AllSteps.and {step : σ → ε → Option σ} {C D : σ → ε → Prop} : ∀ {es : List ε} {s : σ},
    AllSteps step C s es → AllSteps step D s es → AllSteps step (fun s e => C s e ∧ D s e) s es
  | [], _, _, _ => trivial
  | _ :: _, _, hC, hD => ⟨⟨hC.1, hD.1⟩, fun s' h => (hC.2 s' h).and (hD.2 s' h)⟩

/-- A condition for every `x`. -/
theorem allSteps_forall {ι : Sort*} {step : σ → ε → Option σ} {C : ι → σ → ε → Prop} :
    ∀ {es : List ε} {s : σ},
      AllSteps step (fun s e => ∀ x, C x s e) s es ↔ ∀ x, AllSteps step (C x) s es
  | [], _ => ⟨fun _ _ => trivial, fun _ => trivial⟩
  | e :: es, s => by
    constructor
    · rintro ⟨hC, hes⟩ x
      exact ⟨hC x, fun s' h => allSteps_forall.1 (hes s' h) x⟩
    · intro h
      exact ⟨fun x => (h x).1, fun s' h' => allSteps_forall.2 fun x => (h x).2 s' h'⟩

/-- Two conditions that are the same where an invariant holds. -/
theorem allSteps_congr {step : σ → ε → Option σ} {C D E : σ → ε → Prop} {I : σ → Prop}
    (hstep : ∀ s e s', I s → C s e → step s e = some s' → I s')
    (hiff : ∀ s e, I s → C s e → (D s e ↔ E s e)) :
    ∀ {es : List ε} {s : σ}, I s → AllSteps step C s es →
      (AllSteps step D s es ↔ AllSteps step E s es)
  | [], _, _, _ => .rfl
  | e :: es, s, hI, hC => by
    refine and_congr (hiff s e hI hC.1) (forall_congr' fun s' => ?_)
    refine forall_congr' fun h => ?_
    exact allSteps_congr hstep hiff (hstep s e s' hI hC.1 h) (hC.2 s' h)

/-- Two conditions that are the same where an invariant holds, which the steps keep that meet them. -/
theorem allSteps_iff {step : σ → ε → Option σ} {D E : σ → ε → Prop} {I : σ → Prop}
    (hstep : ∀ s e s', I s → E s e → step s e = some s' → I s') (hiff : ∀ s e, I s → (D s e ↔ E s e)) :
    ∀ {es : List ε} {s : σ}, I s → (AllSteps step D s es ↔ AllSteps step E s es)
  | [], _, _ => .rfl
  | e :: es, s, hI => by
    refine (and_congr_left' (hiff s e hI)).trans (and_congr_right fun hE => ?_)
    refine forall_congr' fun s' => forall_congr' fun h => ?_
    exact allSteps_iff hstep hiff (hstep s e s' hI hE h)

instance AllSteps.decidable {step : σ → ε → Option σ} {C : σ → ε → Prop} [∀ s e, Decidable (C s e)] :
    ∀ (es : List ε) (s : σ), Decidable (AllSteps step C s es)
  | [], _ => .isTrue trivial
  | e :: es, s =>
    have : ∀ s', Decidable (AllSteps step C s' es) := AllSteps.decidable es
    have : Decidable (∀ s' ∈ step s e, AllSteps step C s' es) := inferInstance
    inferInstanceAs (Decidable (_ ∧ _))

/-- A condition on the events only. -/
theorem AllSteps.of_forall {step : σ → ε → Option σ} {C : σ → ε → Prop} : ∀ {es : List ε} {s : σ},
    (∀ s, ∀ e ∈ es, C s e) → AllSteps step C s es
  | [], _, _ => trivial
  | e :: es, s, h =>
    ⟨h s e (by simp), fun _ _ => AllSteps.of_forall fun s e he => h s e (by simp [he])⟩

/-- A step that can always be taken. -/
theorem allSteps_cons_some {f : σ → ε → σ} {C : σ → ε → Prop} {s : σ} {e : ε} {es : List ε} :
    AllSteps (fun s e => some (f s e)) C s (e :: es) ↔
      C s e ∧ AllSteps (fun s e => some (f s e)) C (f s e) es := by
  constructor
  · rintro ⟨hC, h⟩
    exact ⟨hC, h _ rfl⟩
  · rintro ⟨hC, h⟩
    refine ⟨hC, fun s' hs' => ?_⟩
    rw [Option.some.injEq] at hs'
    exact hs' ▸ h

/-- A run can be taken if each of its steps can be. -/
theorem run_isSome_iff {step : σ → ε → Option σ} : ∀ {es : List ε} {s : σ},
    (run step s es).isSome = true ↔ AllSteps step (fun s e => (step s e).isSome = true) s es
  | [], _ => iff_of_true rfl trivial
  | e :: es, s => by
    rw [run_cons]
    unfold AllSteps
    cases h : step s e with
    | none => simp
    | some s₁ => simp [run_isSome_iff]

/-- The steps of a run that is taken can be taken. -/
theorem allSteps_isSome {step : σ → ε → Option σ} {es : List ε} {s t : σ}
    (h : run step s es = some t) : AllSteps step (fun s e => (step s e).isSome) s es :=
  run_isSome_iff.mp (Option.isSome_iff_exists.mpr ⟨t, h⟩)

/-- What the steps that meet `C` preserve holds after every run of such steps. -/
theorem run_invariant_of {step : σ → ε → Option σ} {C : σ → ε → Prop} {P : σ → Prop}
    (hstep : ∀ s e s', P s → C s e → step s e = some s' → P s') :
    ∀ {es : List ε} {s s' : σ}, P s → AllSteps step C s es → run step s es = some s' → P s'
  | [], s, s', hs, _, h => by
    rw [run_nil, Option.some.injEq] at h
    exact h ▸ hs
  | e :: es, s, s', hs, hC, h => by
    rw [run_cons, Option.bind_eq_some_iff] at h
    obtain ⟨s₁, h₁, h₂⟩ := h
    exact run_invariant_of hstep (hstep s e s₁ hs hC.1 h₁) (hC.2 s₁ h₁) h₂

/-- A property that an invariant makes one of the steps: it holds after every part of a run exactly
when every step meets the condition. -/
theorem forall_prefix_iff_of_run {step : σ → ε → Option σ} {C : σ → ε → Prop} {I P : σ → Prop}
    (hstep : ∀ s e s', I s → P s → step s e = some s' → I s' ∧ (P s' ↔ C s e)) :
    ∀ {es : List ε} {s t : σ}, run step s es = some t → I s → P s →
      ((∀ fs, fs <+: es → ∀ s', run step s fs = some s' → P s') ↔ AllSteps step C s es)
  | [], s, _, _, _, hP => by
    refine ⟨fun _ => trivial, fun _ fs hfs s' h => ?_⟩
    obtain rfl := List.prefix_nil.1 hfs
    obtain rfl := Option.some.inj h
    exact hP
  | e :: es, s, t, hrun, hI, hP => by
    rw [run_cons, Option.bind_eq_some_iff] at hrun
    obtain ⟨s₁, h₁, hrun⟩ := hrun
    obtain ⟨hI₁, hP₁⟩ := hstep s e s₁ hI hP h₁
    constructor
    · intro h
      have hP' : P s₁ := h [e] (List.prefix_append [e] es) s₁ (by rw [run_cons, h₁]; rfl)
      refine .cons (hP₁.1 hP') h₁ ((forall_prefix_iff_of_run hstep hrun hI₁ hP').1 ?_)
      intro fs hfs s' hs'
      exact h (e :: fs) (List.cons_prefix_cons.2 ⟨rfl, hfs⟩) s' (by rw [run_cons, h₁]; exact hs')
    · intro h fs hfs s' hs'
      cases fs with
      | nil =>
        obtain rfl := Option.some.inj hs'
        exact hP
      | cons f fs =>
        obtain ⟨rfl, hrest⟩ := List.cons_prefix_cons.1 hfs
        rw [run_cons, h₁] at hs'
        exact (forall_prefix_iff_of_run hstep hrun hI₁ (hP₁.2 h.1)).2 (h.2 s₁ h₁) fs hrest s' hs'

/-- Where every step can be taken, every run can. -/
theorem exists_run {step : σ → ε → Option σ} (hsome : ∀ s e, ∃ s', step s e = some s') :
    ∀ (es : List ε) (s : σ), ∃ s', run step s es = some s'
  | [], s => ⟨s, rfl⟩
  | e :: es, s => by
    obtain ⟨s₁, h₁⟩ := hsome s e
    obtain ⟨s', h⟩ := exists_run hsome es s₁
    exact ⟨s', by rw [run_cons, h₁]; exact h⟩

/-- The same when every step can be taken. -/
theorem forall_prefix_iff {step : σ → ε → Option σ} {C : σ → ε → Prop} {I P : σ → Prop}
    (hstep : ∀ s e s', I s → P s → step s e = some s' → I s' ∧ (P s' ↔ C s e))
    (hsome : ∀ s e, ∃ s', step s e = some s') {es : List ε} {s : σ} (hI : I s) (hP : P s) :
    (∀ fs, fs <+: es → ∀ s', run step s fs = some s' → P s') ↔ AllSteps step C s es := by
  obtain ⟨t, hrun⟩ := exists_run hsome es s
  exact forall_prefix_iff_of_run hstep hrun hI hP

/-! ## Runs with an observer -/

/-- A step of a component beside an abstract state that follows what it does. -/
def observed {τ : Type v} (step : σ → ε → Option σ) (observe : σ → ε → σ → τ → τ) (s : σ × τ)
    (e : ε) : Option (σ × τ) :=
  (step s.1 e).map fun s' => (s', observe s.1 e s' s.2)

theorem observed_eq_some {τ : Type v} {step : σ → ε → Option σ} {observe : σ → ε → σ → τ → τ}
    {s s' : σ × τ} {e : ε} (h : observed step observe s e = some s') :
    step s.1 e = some s'.1 ∧ s'.2 = observe s.1 e s'.1 s.2 := by
  obtain ⟨s₁, h₁, rfl⟩ := Option.map_eq_some_iff.mp h
  exact ⟨h₁, rfl⟩

/-- A condition that does not look at the observer. -/
theorem allSteps_observed {τ : Type u} {step : σ → ε → Option σ} {observe : σ → ε → σ → τ → τ}
    {C : σ → ε → Prop} : ∀ {es : List ε} {s : σ × τ},
      AllSteps (observed step observe) (fun s e => C s.1 e) s es ↔ AllSteps step C s.1 es
  | [], _ => .rfl
  | e :: es, s => by
    refine and_congr_right fun _ => ⟨fun h s₁ h₁ => ?_, fun h s' h' => ?_⟩
    · exact allSteps_observed.1 (h (s₁, observe s.1 e s₁ s.2) (by rw [observed, h₁]; rfl))
    · exact allSteps_observed.2 (h s'.1 (observed_eq_some h').1)

/-! ## Consumers of chunks -/

variable {α : Type v}

/-- A consumer of chunks that may be fed one chunk in two pieces, as long as neither is empty. -/
def SplitFree (feed : σ → List α → σ) : Prop :=
  ∀ s xs ys, xs ≠ [] → ys ≠ [] → feed s (xs ++ ys) = feed (feed s xs) ys

/-- A chunk does what its elements do one by one. -/
theorem SplitFree.feed_eq_foldl {feed : σ → List α → σ} (h : SplitFree feed) :
    ∀ (xs : List α) (s : σ), xs ≠ [] → feed s xs = xs.foldl (fun s x => feed s [x]) s
  | [], _, hne => absurd rfl hne
  | [_], _, _ => rfl
  | x :: y :: ys, s, _ => by
    rw [← List.singleton_append, h s [x] (y :: ys) (by simp) (by simp), List.singleton_append,
      List.foldl_cons]
    exact h.feed_eq_foldl (y :: ys) (feed s [x]) (by simp)

/-- **The state after a stream does not depend on how the stream is cut into chunks.** -/
theorem SplitFree.foldl_eq {feed : σ → List α → σ} (h : SplitFree feed) :
    ∀ (chunks : List (List α)) (s : σ), (∀ c ∈ chunks, c ≠ []) →
      chunks.foldl feed s = chunks.flatten.foldl (fun s x => feed s [x]) s
  | [], _, _ => rfl
  | c :: cs, s, hne => by
    rw [List.foldl_cons, List.flatten_cons, List.foldl_append,
      ← h.feed_eq_foldl c s (hne c (by simp))]
    exact h.foldl_eq cs (feed s c) fun d hd => hne d (by simp [hd])

/-- The chunks of a stream do what the stream does in one. -/
theorem SplitFree.foldl_eq_feed {feed : σ → List α → σ} (h : SplitFree feed)
    (chunks : List (List α)) (s : σ) (hc : chunks ≠ []) (hne : ∀ c ∈ chunks, c ≠ []) :
    chunks.foldl feed s = feed s chunks.flatten := by
  have hflat : chunks.flatten ≠ [] := by
    obtain ⟨c, cs, rfl⟩ := List.exists_cons_of_ne_nil hc
    simp [hne c (by simp)]
  rw [h.foldl_eq chunks s hne, h.feed_eq_foldl chunks.flatten s hflat]

end IotDeviceSdk.Infra
