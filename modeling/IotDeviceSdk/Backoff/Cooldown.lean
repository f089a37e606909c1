import IotDeviceSdk.Backoff.Status
import IotDeviceSdk.Infra.Run

/-!
# The index and the cooldown event (`iotc_update_backoff_penalty`, `iotc_apply_cooldown`)

`Admits` says for which lengths of the tables the index stays inside of them. The number of elements is an
`int8_t`: it is the length up to 127, and for longer tables what is left of it, which may be 0 or
negative, so that the first connection that fails takes the index below 0.

`Status.Kept` is the invariant of a run: the index is below `limit`, and a positive index has a
cooldown event that is pending.
-/

namespace IotDeviceSdk.Backoff

open EventDispatcher

/-! ## The index -/

/-- `elem_no` of a table of this length. -/
def elemNo (len : Nat) : Int := (Int8.ofInt len).toInt

/-- The index stays inside of tables of this length. For 128 elements `elem_no - 1` is -129, which is
127 in an `int8_t`. -/
def Admits (len : Nat) : Prop := 0 < elemNo len ∨ len % 256 = 128

instance (len : Nat) : Decidable (Admits len) := inferInstanceAs (Decidable (_ ∨ _))

/-- All indices are less. -/
def limit (len : Nat) : Int := if 0 < elemNo len then elemNo len else 128

theorem limit_pos (len : Nat) : 0 < limit len := by
  unfold limit
  split
  · next h => exact h
  · decide

theorem elemNo_eq (len : Nat) : elemNo len = Int.bmod len 256 := Int8.toInt_ofInt

theorem Admits.limit_le {len : Nat} (h : Admits len) : limit len ≤ len := by
  have heq := elemNo_eq len
  unfold limit
  split
  · rw [heq, Int.bmod_def]
    split <;> omega
  · next hno =>
    have hmod := h.resolve_left hno
    omega

/-- **The index that `iotc_inc_backoff_penalty` computes** is not less, and below the limit. -/
theorem Admits.incIndex {len : Nat} (h : Admits len) {i : Int8} (hi : i.toInt < limit len) :
    i.toInt ≤ (Int8.ofInt (min (i.toInt + 1) (elemNo len - 1))).toInt ∧
      (Int8.ofInt (min (i.toInt + 1) (elemNo len - 1))).toInt < limit len := by
  have hlow := Int8.le_toInt i
  have hhigh := Int8.toInt_lt i
  have hlt := Int8.toInt_lt (Int8.ofInt len)
  have heq := elemNo_eq len
  have helem : elemNo len = (Int8.ofInt len).toInt := rfl
  unfold limit at hi ⊢
  by_cases hpos : 0 < elemNo len
  · rw [if_pos hpos] at hi ⊢
    rw [Int8.toInt_ofInt_of_le (by omega) (by omega)]
    omega
  · rw [if_neg hpos] at hi ⊢
    -- `elem_no` is -128
    have hmod := h.resolve_left hpos
    have hmin : elemNo len = -128 := by
      rw [heq, Int.bmod_def]
      split <;> omega
    have hwrap : min (i.toInt + 1) (elemNo len - 1) = -129 := by omega
    have hlast : (Int8.ofInt (-129)).toInt = 127 := by decide
    rw [hwrap, hlast]
    omega

/-- Without that, the first index is negative. -/
theorem incIndex_neg {len : Nat} (h : ¬Admits len) :
    (Int8.ofInt (min ((0 : Int8).toInt + 1) (elemNo len - 1))).toInt < 0 := by
  obtain ⟨hpos, hmod⟩ := not_or.mp h
  have hlow : -2 ^ 7 ≤ elemNo len := Int8.le_toInt _
  have heq := elemNo_eq len
  have hne : elemNo len ≠ -128 := fun hmin => by
    rw [heq, Int.bmod_def] at hmin
    split at hmin <;> omega
  have hzero : (0 : Int8).toInt = 0 := rfl
  rw [hzero, Int8.toInt_ofInt_of_le (by omega) (by omega)]
  omega

/-- An index that is not negative goes down by one, or stays 0. -/
theorem decIndex {i : Int8} (h0 : 0 ≤ i.toInt) :
    (Int8.ofInt (max (i.toInt - 1) 0)).toInt = max (i.toInt - 1) 0 := by
  have := Int8.toInt_lt i
  exact Int8.toInt_ofInt_of_le (by omega) (by omega)

/-! ## What is claimed -/

/-- The cooldown event is scheduled if a step asks for it. -/
def Schedules (w : Status) (e : Event) : Prop := ∀ r ∈ stepWith w e, r.2 = true

/-- **What is claimed of a state**: the index is inside of the tables, and if it is positive a cooldown
event is pending. -/
structure Status.Holds (w : Status) : Prop where
  inBounds : 0 ≤ w.backoffLutI.toInt ∧ w.backoffLutI.toInt.toNat < w.backoffLut.array.length ∧
    w.backoffLutI.toInt.toNat < w.decayLut.array.length
  pending : 0 < w.backoffLutI.toInt → w.pending = true

/-- The first time event is the cooldown event. -/
def Status.CooldownFirst (w : Status) : Prop :=
  ∃ x, w.evtd.timeEvents.peekTop = some x ∧ w.evtd.timeEvents.ptrToPosition nextUpdate = some x

/-- **What is claimed of a step**: the index goes down only by the cooldown event, after a connection that
did not fail. -/
def Status.CoolsDown (w : Status) (e : Event) (w' : Status) : Prop :=
  w'.backoffLutI < w.backoffLutI →
    (∃ mem grow, e = .runDue mem grow) ∧ w.CooldownFirst ∧ w.backoffClass = .none

/-! ## The invariant -/

/-- The index is below the limit of the tables `bs` and `ds`. -/
structure Status.Indexed (bs ds : List UInt32) (w : Status) : Prop where
  backoffLut : w.backoffLut = .createFrom bs
  decayLut : w.decayLut = .createFrom ds
  wf : w.evtd.WF
  matched : w.evtd.Matched
  nonneg : 0 ≤ w.backoffLutI.toInt
  lt : w.backoffLutI.toInt < limit bs.length

/-- **The invariant of a run**: if the index is positive the cooldown event is pending. -/
structure Status.Kept (bs ds : List UInt32) (w : Status) : Prop extends w.Indexed bs ds where
  pending : 0 < w.backoffLutI.toInt → w.pending = true

namespace Status

variable {bs ds : List UInt32} {w w' : Status} {mem grow : Bool}

/-- **`iotc_restart_update_time`** reads inside of the table, and keeps the index. -/
theorem Indexed.restartUpdateTime (h : w.Indexed bs ds) (hlimit : limit bs.length ≤ ds.length)
    (mem grow : Bool) :
    ∃ r, w.restartUpdateTime mem grow = some r ∧ r.1.Indexed bs ds ∧
      r.1.backoffLutI = w.backoffLutI ∧ (r.2 = true → r.1.pending = true) := by
  have hlt := h.lt
  obtain ⟨v, hv⟩ : ∃ v, entry w.decayLut.array w.backoffLutI.toInt = some v := by
    have hin : w.backoffLutI.toInt.toNat < ds.length := by
      have := h.nonneg
      omega
    refine ⟨ds[w.backoffLutI.toInt.toNat], ?_⟩
    rw [entry, if_pos h.nonneg, h.decayLut]
    exact List.getElem?_eq_getElem hin
  unfold Status.restartUpdateTime
  rw [hv]
  simp only [Option.bind_eq_bind, Option.bind_some]
  by_cases hp : w.pending = true
  · rw [if_pos hp]
    obtain ⟨x, hx⟩ := Option.isSome_iff_exists.mp hp
    obtain ⟨s', hrestart, hwf, hmatched, -, hptr⟩ := Evtd.restart_handles h.wf h.matched hx v.toNat
    rw [hrestart, Option.bind_some]
    refine ⟨_, rfl, ⟨h.backoffLut, h.decayLut, hwf, hmatched, h.nonneg, h.lt⟩, rfl, fun _ => ?_⟩
    exact (congrArg (fun f => (f nextUpdate).isSome) hptr).trans hp
  · rw [if_neg hp]
    have hfree : ∀ j ∈ some nextUpdate, w.evtd.timeEvents.ptrToPosition j = none := by
      rintro j ⟨⟩
      exact Option.not_isSome_iff_eq_none.mp hp
    rcases Evtd.executeIn_handles h.wf h.matched hfree v.toNat mem grow with
      ⟨s', hexecute, harmed⟩ | ⟨s', hexecute, hunarmed, -⟩
    · rw [hexecute, Option.bind_some]
      refine ⟨_, rfl, ⟨h.backoffLut, h.decayLut, harmed.wf, harmed.matched, h.nonneg, h.lt⟩, rfl,
        fun _ => ?_⟩
      have hself := harmed.handles nextUpdate
      rw [if_pos rfl] at hself
      exact congrArg Option.isSome hself
    · rw [hexecute, Option.bind_some]
      exact ⟨_, rfl, ⟨h.backoffLut, h.decayLut, hunarmed.wf, hunarmed.matched, h.nonneg, h.lt⟩, rfl,
        fun hr => Bool.noConfusion hr⟩

/-- **`iotc_inc_backoff_penalty`** does not take the index down. -/
theorem Indexed.incBackoffPenalty (h : w.Indexed bs ds) (ha : Admits bs.length)
    (hlimit : limit bs.length ≤ ds.length) (mem grow : Bool) :
    ∃ r, w.incBackoffPenalty mem grow = some r ∧ r.1.Indexed bs ds ∧
      w.backoffLutI ≤ r.1.backoffLutI ∧ (r.2 = true → r.1.pending = true) := by
  have hinc : w.incIndex = Int8.ofInt (min (w.backoffLutI.toInt + 1) (elemNo bs.length - 1)) := by
    rw [incIndex, h.backoffLut]
    rfl
  obtain ⟨hle, hlt⟩ := ha.incIndex h.lt
  rw [← hinc] at hle hlt
  have hindexed : { w with backoffLutI := w.incIndex : Status }.Indexed bs ds :=
    ⟨h.backoffLut, h.decayLut, h.wf, h.matched, Int.le_trans h.nonneg hle, hlt⟩
  obtain ⟨r, hr, hindexed', hindex, hpending⟩ := hindexed.restartUpdateTime hlimit mem grow
  refine ⟨r, hr, hindexed', ?_, hpending⟩
  rw [hindex, Int8.le_iff_toInt_le]
  exact hle

/-- **`iotc_apply_cooldown`** takes the index down if the last connection did not fail. -/
theorem Indexed.applyCooldown (h : w.Indexed bs ds) (hp : w.pending = false)
    (hlimit : limit bs.length ≤ ds.length) (mem grow : Bool) :
    ∃ r, w.applyCooldown mem grow = some r ∧ r.1.Indexed bs ds ∧
      (r.2 = true → 0 < r.1.backoffLutI.toInt → r.1.pending = true) ∧
      (r.1.backoffLutI < w.backoffLutI → w.backoffClass = .none) := by
  obtain ⟨w₁, hw₁, hindexed, hdown⟩ : ∃ w₁,
      (if w.backoffClass = .none then w.decBackoffPenalty else w) = w₁ ∧ w₁.Indexed bs ds ∧
        (w₁.backoffLutI < w.backoffLutI → w.backoffClass = .none) := by
    refine ⟨_, rfl, ?_, fun hlt => ?_⟩
    · split
      · have hdec := decIndex h.nonneg
        have hlt := h.lt
        refine ⟨h.backoffLut, h.decayLut, h.wf, h.matched, ?_, ?_⟩
        · exact hdec ▸ Int.le_max_right _ _
        · have hpos := limit_pos bs.length
          change (Int8.ofInt _).toInt < _
          omega
      · exact h
    · by_contra hclass
      rw [if_neg hclass] at hlt
      exact Int8.lt_irrefl hlt
  unfold Status.applyCooldown
  rw [if_neg (by rw [hp]; exact Bool.false_ne_true)]
  simp only [hw₁]
  split
  · obtain ⟨r, hr, hindexed', hindex, hpending⟩ := hindexed.restartUpdateTime hlimit mem grow
    exact ⟨r, hr, hindexed', fun ht _ => hpending ht, fun hlt => hdown (hindex ▸ hlt)⟩
  · next hno =>
    refine ⟨_, rfl, hindexed, fun _ hpos => ?_, hdown⟩
    have hpos : (0 : Int8).toInt < w₁.backoffLutI.toInt := hpos
    exact absurd (Int8.lt_iff_toInt_lt.mpr hpos) hno

/-! ## Steps -/

/-- What a step does, if it schedules the cooldown event where that is asked for. -/
structure Steps (bs ds : List UInt32) (w : Status) (e : Event) (w' : Status) : Prop where
  kept : w'.Kept bs ds
  coolsDown : w.CoolsDown e w'

theorem Kept.update (h : w.Kept bs ds) (ha : Admits bs.length) (hlimit : limit bs.length ≤ ds.length)
    (state : IotcState) (mem grow : Bool) :
    ∃ r, w.updateBackoffPenalty state mem grow = some r ∧
      (r.2 = true → w.Steps bs ds (.update state mem grow) r.1) := by
  have hindexed : { w with backoffClass := classifyState state : Status }.Indexed bs ds :=
    ⟨h.backoffLut, h.decayLut, h.wf, h.matched, h.nonneg, h.lt⟩
  have hfails : ∃ r, { w with backoffClass := classifyState state : Status }.incBackoffPenalty mem grow =
      some r ∧ (r.2 = true → w.Steps bs ds (.update state mem grow) r.1) := by
    obtain ⟨r, hr, hindexed', hle, hpending⟩ := hindexed.incBackoffPenalty ha hlimit mem grow
    exact ⟨r, hr, fun ht => ⟨⟨hindexed', fun _ => hpending ht⟩,
      fun hlt => absurd hlt (Int8.not_lt.mpr hle)⟩⟩
  unfold updateBackoffPenalty
  dsimp only
  split
  · exact hfails
  · exact hfails
  · exact ⟨_, rfl, fun _ => ⟨⟨hindexed, h.pending⟩, fun hlt => absurd hlt Int8.lt_irrefl⟩⟩

/-- A step that leaves the index and the handle of the cooldown event as they are. -/
theorem Kept.same (h : w.Kept bs ds) {e : Event} {evtd : Evtd (Option HandlePtr)} (hwf : evtd.WF)
    (hm : evtd.Matched)
    (hptr : evtd.timeEvents.ptrToPosition nextUpdate = w.evtd.timeEvents.ptrToPosition nextUpdate) :
    w.Steps bs ds e { w with evtd } :=
  ⟨⟨⟨h.backoffLut, h.decayLut, hwf, hm, h.nonneg, h.lt⟩, fun hpos =>
    (congrArg Option.isSome hptr).trans (h.pending hpos)⟩, fun hlt => absurd hlt Int8.lt_irrefl⟩

theorem Kept.runDue (h : w.Kept bs ds) (hlimit : limit bs.length ≤ ds.length) (mem grow : Bool) :
    ∃ r, w.runDue mem grow = some r ∧ (r.2 = true → w.Steps bs ds (.runDue mem grow) r.1) := by
  unfold Status.runDue
  cases htop : w.evtd.timeEvents.peekTop with
  | none => exact ⟨_, rfl, fun _ => h.same h.wf h.matched rfl⟩
  | some x =>
    dsimp only
    split
    · exact ⟨_, rfl, fun _ => h.same h.wf h.matched rfl⟩
    · obtain ⟨c, hget, hdisarmed⟩ := Evtd.getTop_handles h.wf h.matched htop
      have hself := hdisarmed.handles nextUpdate
      simp only [hget, Option.bind_eq_bind, Option.bind_some]
      split
      · next hhandler =>
        rw [if_pos hhandler] at hself
        have hindexed : { w with evtd := { w.evtd with timeEvents := c } : Status }.Indexed bs ds :=
          ⟨h.backoffLut, h.decayLut, hdisarmed.wf, hdisarmed.matched, h.nonneg, h.lt⟩
        obtain ⟨r, hr, hindexed', hpending, hdown⟩ :=
          hindexed.applyCooldown (congrArg Option.isSome hself) hlimit mem grow
        refine ⟨r, hr, fun ht => ⟨⟨hindexed', hpending ht⟩, fun hlt => ⟨⟨mem, grow, rfl⟩, ?_, hdown hlt⟩⟩⟩
        have hmem : x ∈ w.evtd.timeEvents.array := List.mem_of_mem_head? htop
        exact ⟨x, htop, (Evtd.pending_iff h.wf h.matched).mp ⟨hmem, hhandler⟩⟩
      · next hother =>
        rw [if_neg hother] at hself
        exact ⟨_, rfl, fun _ => h.same hdisarmed.wf hdisarmed.matched hself⟩

theorem Kept.other (h : w.Kept bs ds) (timeDiff : Int) (mem grow : Bool) :
    ∃ r, stepWith w (.other timeDiff mem grow) = some r ∧
      w.Steps bs ds (.other timeDiff mem grow) r.1 := by
  have hfree : ∀ j ∈ (none : Option HandlePtr), w.evtd.timeEvents.ptrToPosition j = none := nofun
  rcases Evtd.executeIn_handles h.wf h.matched hfree timeDiff mem grow with
    ⟨s', hexecute, harmed⟩ | ⟨s', hexecute, hunarmed, -⟩
  · refine ⟨({ w with evtd := s' }, true), by simp [stepWith, hexecute], ?_⟩
    exact h.same harmed.wf harmed.matched (harmed.handles nextUpdate)
  · refine ⟨({ w with evtd := s' }, true), by simp [stepWith, hexecute], ?_⟩
    exact h.same hunarmed.wf hunarmed.matched (congrFun hunarmed.handles nextUpdate)

/-- **Every step is inside of the tables**, and keeps the invariant. -/
theorem Kept.step (h : w.Kept bs ds) (ha : Admits bs.length) (hlimit : limit bs.length ≤ ds.length)
    (e : Event) : ∃ r, stepWith w e = some r ∧ (r.2 = true → w.Steps bs ds e r.1) := by
  cases e with
  | update state mem grow => exact h.update ha hlimit state mem grow
  | tick newStep =>
    refine ⟨_, rfl, fun _ => ?_⟩
    have hwf : Evtd.WF { w.evtd with currentStep := newStep } := ⟨h.wf.valid, h.wf.bounded⟩
    exact h.same hwf h.matched rfl
  | runDue mem grow => exact h.runDue hlimit mem grow
  | other timeDiff mem grow =>
    obtain ⟨r, hr, hsteps⟩ := h.other timeDiff mem grow
    exact ⟨r, hr, fun _ => hsteps⟩

theorem configured_kept (bs ds : List UInt32) (memory : EventPtr → TimeEvent (Option HandlePtr)) :
    (configured bs ds memory).Kept bs ds where
  backoffLut := rfl
  decayLut := rfl
  wf := ⟨TimeEvents.valid_empty rfl fun _ => rfl, fun e he => by cases he⟩
  matched e he := by cases he
  nonneg := (by decide : (0 : Int) ≤ (0 : Int8).toInt)
  lt := limit_pos _
  pending h := absurd h (by decide : ¬0 < (0 : Int8).toInt)

theorem Kept.holds (h : w.Kept bs ds) (hlen : ds.length = bs.length) (hlimit : limit bs.length ≤ bs.length) :
    w.Holds where
  inBounds := by
    have hlt := h.lt
    have h0 := h.nonneg
    rw [h.backoffLut, h.decayLut]
    refine ⟨h0, ?_, ?_⟩
    · change w.backoffLutI.toInt.toNat < bs.length
      omega
    · change w.backoffLutI.toInt.toNat < ds.length
      omega
  pending := h.pending

/-- A run on tables that are admitted. -/
theorem Kept.run (ha : Admits bs.length) (hlimit : limit bs.length ≤ ds.length) :
    ∀ {es : List Event} {w : Status}, w.Kept bs ds → Infra.AllSteps Backoff.step Schedules w es →
      ∃ w', Infra.run Backoff.step w es = some w' ∧ w'.Kept bs ds
  | [], w, h, _ => ⟨w, rfl, h⟩
  | e :: es, w, h, hes => by
    obtain ⟨r, hr, hsteps⟩ := h.step ha hlimit e
    have hstep : Backoff.step w e = some r.1 := by rw [Backoff.step, hr, Option.map_some]
    obtain ⟨w', hrun, hkept⟩ := Kept.run ha hlimit (hsteps (hes.1 r hr)).kept (hes.2 r.1 hstep)
    refine ⟨w', ?_, hkept⟩
    rw [Infra.run_cons, hstep]
    exact hrun

/-- A connection that fails takes the index below 0, if the tables are not admitted. -/
theorem update_eq_none (ds : List UInt32) (h : ¬Admits bs.length)
    (memory : EventPtr → TimeEvent (Option HandlePtr)) (mem grow : Bool) :
    stepWith (configured bs ds memory) (.update .outOfMemory mem grow) = none := by
  have hneg := incIndex_neg h
  have hentry : entry ds (Int8.ofInt (min ((0 : Int8).toInt + 1) (elemNo bs.length - 1))).toInt = none :=
    if_neg (Int.not_le.mpr hneg)
  change Status.restartUpdateTime _ mem grow = none
  unfold restartUpdateTime
  exact (congrArg (Option.bind · _) hentry).trans rfl

end Status

/-! ## The runs -/

/-- **The index stays inside of the tables, and goes down only by the cooldown event, if and only if
their length is admitted.** -/
theorem cooldown_contract_iff (bs ds : List UInt32) (memory : EventPtr → TimeEvent (Option HandlePtr))
    (hlen : ds.length = bs.length) :
    (∀ es, Infra.AllSteps step Schedules (configured bs ds memory) es →
      ∃ w, Infra.run step (configured bs ds memory) es = some w ∧ w.Holds ∧
        ∀ e, Schedules w e → ∃ w', step w e = some w' ∧ w.CoolsDown e w') ↔ Admits bs.length := by
  constructor
  · intro h
    by_contra ha
    have hnone := Status.update_eq_none ds ha memory true true
    have hschedules : Schedules (configured bs ds memory) (.update .outOfMemory true true) := by
      intro r hr
      rw [hnone] at hr
      cases hr
    obtain ⟨w, hrun, -, hstep⟩ := h [] trivial
    cases hrun
    obtain ⟨w', hw', -⟩ := hstep _ hschedules
    rw [step, hnone] at hw'
    cases hw'
  · intro ha es hes
    have hlimit : limit bs.length ≤ ds.length := hlen ▸ ha.limit_le
    obtain ⟨w, hrun, hkept⟩ := (Status.configured_kept bs ds memory).run ha hlimit hes
    refine ⟨w, hrun, hkept.holds hlen ha.limit_le, fun e he => ?_⟩
    obtain ⟨r, hr, hsteps⟩ := hkept.step ha hlimit e
    refine ⟨r.1, ?_, (hsteps (he r hr)).coolsDown⟩
    rw [step, hr, Option.map_some]

/-- Time events that have not been used. -/
def unused : EventPtr → TimeEvent (Option HandlePtr) := fun _ => ⟨none, 0, -1, none⟩

/-- Tables of two elements, and a connection that fails. -/
theorem cooldown_contract_iff_two :
    ∃ w, Infra.run step (configured [0, 2] [4, 4] unused) [.update .outOfMemory true true] = some w ∧
      w.Holds ∧ ∀ e, Schedules w e → ∃ w', step w e = some w' ∧ w.CoolsDown e w' := by
  refine (cooldown_contract_iff [0, 2] [4, 4] unused rfl).mpr (by decide) _ ⟨?_, fun _ _ => trivial⟩
  rintro r ⟨⟩
  rfl

/-- **Tables of 129 elements.** `elem_no` is -127, and the first connection that fails takes the index to
-128. -/
theorem cooldown_contract_iff_fails :
    (configured (.replicate 129 4) (.replicate 129 4) unused).incIndex = -128 ∧
      step (configured (.replicate 129 4) (.replicate 129 4) unused)
        (.update .outOfMemory true true) = none := by
  have hlen : (List.replicate 129 (4 : UInt32)).length = 129 := List.length_replicate ..
  have hno : ¬Admits (List.replicate 129 (4 : UInt32)).length := by
    rw [hlen]
    decide
  constructor
  · change Int8.ofInt (min ((0 : Int8).toInt + 1)
      (elemNo (List.replicate 129 (4 : UInt32)).length - 1)) = -128
    rw [hlen]
    decide
  · rw [step, Status.update_eq_none _ hno]
    rfl

end IotDeviceSdk.Backoff
