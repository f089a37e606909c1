import Mathlib.Logic.Function.Basic
import IotDeviceSdk.Mqtt.Codec.Pull

/-!
# Several contexts

Every context has a codec layer of its own, with a parser of its own, but they all call the one
`iotc_mqtt_parser_execute`, whose `local_state` is `static`. `READ_STRING` and `READ_DATA` look at it
when they are resumed.

* `isolation`: as long as no parser that is suspended in one of the two macros is resumed while
  `local_state` is `OK`, a context does not see the others.
* `isolation_fails`: a packet of another context sets it to `OK`, and the rest of the string is
  skipped.
-/

namespace IotDeviceSdk.Mqtt

/-- The coroutine is suspended in `READ_STRING` or `READ_DATA`. -/
def Cs.inRead : Cs → Bool
  | .body (.string _ _ :: _) => true
  | .body (.data :: _) => true
  | _ => false

/-! ## What local_state is read for -/

/-- Two calls of the parser that differ in `local_state` only, and not even in whether it is `OK`
where a macro will look at it. -/
structure Outcome.Agree (o o' : Outcome) : Prop where
  state : o.state = o'.state
  parser : o.parser = o'.parser
  message : o.message = o'.message
  src : o.src = o'.src
  inRead : o.state = .wantRead → o.parser.cs.inRead = true →
    o.localState ≠ .ok ∧ o'.localState ≠ .ok

theorem afterRead_agree {next : Parser → Message → Bytes → IotcState → Outcome}
    (hnext : ∀ p m src, (next p m src .ok).Agree (next p m src .ok)) (here : List Stmt)
    (m : Message) (r : ReadResult) :
    (afterRead next here m r).Agree (afterRead next here m r) := by
  unfold afterRead
  split
  · exact hnext _ _ _
  · exact ⟨rfl, rfl, rfl, rfl, fun _ _ => ⟨by simp, by simp⟩⟩

theorem exec_agree : ∀ (k : List Stmt) (p : Parser) (m : Message) (src : Bytes)
    (ls ls' : IotcState), (exec k p m src ls).Agree (exec k p m src ls')
  | [], p, m, src, ls, ls' => ⟨rfl, rfl, rfl, rfl, fun h => by cases h⟩
  | .yieldOn :: k, p, m, src, ls, ls' => by
    simp only [exec]
    split
    · exact ⟨rfl, rfl, rfl, rfl, fun _ h => by cases h⟩
    · exact exec_agree k p m src ls ls'
  | .byte guard store :: k, p, m, src, ls, ls' => by
    simp only [exec]
    split
    · cases src with
      | nil => exact ⟨rfl, rfl, rfl, rfl, fun _ h => by cases h⟩
      | cons b src => exact exec_agree k _ _ src ls ls'
    · exact exec_agree k p m src ls ls'
  | .string guard into :: k, p, m, src, ls, ls' => by
    simp only [exec]
    split
    · exact afterRead_agree (fun p m src => exec_agree k p m src .ok .ok) _ _ _
    · exact exec_agree k p m src ls ls'
  | .set f :: k, p, m, src, ls, ls' => exec_agree k p (f m) src ls ls'
  | .strLength :: k, p, m, src, ls, ls' => exec_agree k _ m src ls ls'
  | .data :: k, p, m, src, ls, ls' => by
    simp only [exec]
    split
    · exact afterRead_agree (fun p m src => exec_agree k p m src .ok .ok) _ _ _
    · exact exec_agree k p m src ls ls'
  | .status :: k, p, m, src, ls, ls' => by
    cases src with
    | nil => exact ⟨rfl, rfl, rfl, rfl, fun _ h => by cases h⟩
    | cons b src =>
      simp only [exec]
      split
      · exact exec_agree k _ _ src .ok .ok
      · exact ⟨rfl, rfl, rfl, rfl, fun h => by cases h⟩

theorem resume_agree {k : List Stmt} {ls ls' : IotcState} (p : Parser) (m : Message) (src : Bytes)
    (h : (Cs.body k).inRead = true → ls ≠ .ok ∧ ls' ≠ .ok) :
    (resume k p m src ls).Agree (resume k p m src ls') := by
  cases k with
  | nil => exact exec_agree [] p m src ls ls'
  | cons stmt k =>
    cases stmt with
    | yieldOn => exact exec_agree k p m src ls ls'
    | string guard into =>
      obtain ⟨hl, hl'⟩ := h rfl
      simp only [resume, hl, hl', ↓reduceIte]
      exact afterRead_agree (fun p m src => exec_agree k p m src .ok .ok) _ _ _
    | data =>
      obtain ⟨hl, hl'⟩ := h rfl
      simp only [resume, hl, hl', ↓reduceIte]
      exact afterRead_agree (fun p m src => exec_agree k p m src .ok .ok) _ _ _
    | byte guard store => exact exec_agree (.byte guard store :: k) p m src ls ls'
    | set f => exact exec_agree (.set f :: k) p m src ls ls'
    | strLength => exact exec_agree (.strLength :: k) p m src ls ls'
    | status => exact exec_agree (.status :: k) p m src ls ls'

theorem lengthLoop_agree : ∀ (src : Bytes) (p : Parser) (m : Message) (ls ls' : IotcState),
    (lengthLoop p m src ls).Agree (lengthLoop p m src ls')
  | [], _, _, _, _ => ⟨rfl, rfl, rfl, rfl, fun _ h => by cases h⟩
  | b :: src, p, m, ls, ls' => by
    simp only [lengthLoop]
    split
    · exact lengthLoop_agree src _ m ls ls'
    · split
      · exact ⟨rfl, rfl, rfl, rfl, fun h => by cases h⟩
      · simp only [afterLength]
        split
        · exact exec_agree _ _ _ src ls ls'
        · exact ⟨rfl, rfl, rfl, rfl, fun h => by cases h⟩

theorem firstByte_agree (p : Parser) (m : Message) (src : Bytes) (ls ls' : IotcState) :
    (firstByte p m src ls).Agree (firstByte p m src ls') := by
  cases src with
  | nil => exact ⟨rfl, rfl, rfl, rfl, fun _ h => by cases h⟩
  | cons b src => exact lengthLoop_agree src _ _ ls ls'

theorem execute_agree {p : Parser} {ls ls' : IotcState} (m : Message) (src : Bytes)
    (h : p.cs.inRead = true → ls ≠ .ok ∧ ls' ≠ .ok) :
    (execute p m src ls).Agree (execute p m src ls') := by
  unfold execute
  cases hcs : p.cs with
  | start => exact firstByte_agree p m src .ok .ok
  | commonValue => exact firstByte_agree p m src ls ls'
  | remainingLength => exact lengthLoop_agree src p m ls ls'
  | body k => exact resume_agree p m src (hcs ▸ h)
  | exit => exact firstByte_agree p m src .ok .ok

end IotDeviceSdk.Mqtt

namespace IotDeviceSdk.Mqtt.Codec

open Infra

/-- A packet is being read, and the parser is suspended in `READ_STRING` or `READ_DATA`. -/
def LayerData.inRead (d : LayerData) : Bool :=
  match d.pullCs with
  | .idle => false
  | .parsing _ => d.parser.cs.inRead

theorem parse_agree {d : LayerData} {ls ls' : IotcState} (buffer : Bytes)
    (h : d.inRead = true → ls ≠ .ok ∧ ls' ≠ .ok) :
    (parse d ls buffer).Agree (parse d ls' buffer) := by
  unfold parse
  cases hcs : d.pullCs with
  | idle => exact execute_agree _ _ fun h => by cases h
  | parsing msg =>
    refine execute_agree _ _ fun hp => h ?_
    simp only [LayerData.inRead, hcs, hp]

/-- Two calls of pull that differ in `local_state` only. -/
structure PullResult.Agree (r r' : PullResult) : Prop where
  layer : r.layer = r'.layer
  calls : r.calls = r'.calls
  inRead : r.layer.data.inRead = true → r.localState ≠ .ok ∧ r'.localState ≠ .ok

theorem pullErrHandling_agree (c : Layer) (ls ls' s : IotcState) :
    (pullErrHandling c ls s).Agree (pullErrHandling c ls' s) :=
  ⟨rfl, rfl, fun h => by cases h⟩

/-- Pull does not read `local_state`, unless the parser is suspended in a macro. -/
theorem pull_agree : ∀ (n : Nat) {c : Layer} {ls ls' : IotcState} (buffer : Bytes) (s : IotcState),
    (c.data.inRead = true → ls ≠ .ok ∧ ls' ≠ .ok) →
    (pullFuel n c ls buffer s).Agree (pullFuel n c ls' buffer s)
  | 0, c, ls, ls', buffer, s, h => ⟨rfl, rfl, h⟩
  | n + 1, c, ls, ls', buffer, s, h => by
    have ho := parse_agree buffer h
    simp only [pullFuel]
    split
    · exact ⟨rfl, rfl, h⟩
    · split
      · exact pullErrHandling_agree c ls ls' s
      · have hparsed : ∀ cs, c.parsed (parse c.data ls buffer) cs =
            c.parsed (parse c.data ls' buffer) cs := by
          intro cs
          simp only [Layer.parsed, ho.parser, ho.state]
        simp only [← ho.state, ← ho.message, ← ho.src, ← hparsed]
        cases hs : (parse c.data ls buffer).state with
        | wantRead => exact ⟨rfl, rfl, fun hp => ho.inRead hs hp⟩
        | ok =>
          simp only
          split
          · exact ⟨rfl, rfl, fun hp => by cases hp⟩
          · have ih : (pullFuel n (c.parsed (parse c.data ls buffer) .idle)
                (parse c.data ls buffer).localState (parse c.data ls buffer).src s).Agree
                (pullFuel n (c.parsed (parse c.data ls buffer) .idle)
                  (parse c.data ls' buffer).localState (parse c.data ls buffer).src s) :=
              pull_agree n (parse c.data ls buffer).src s fun hp => by cases hp
            exact ⟨ih.layer, by simp only [ih.calls], ih.inRead⟩
        | _ => exact pullErrHandling_agree _ _ _ s

/-! ## The contexts and the interleavings of their buffers -/

variable {ι : Type}

/-- The contexts with the one `local_state` and the calls that each has made. -/
structure Contexts (ι : Type) where
  layer : ι → Layer
  localState : IotcState
  calls : ι → List LayerCall

/-- The contexts when they have just been connected. -/
def Contexts.connected : Contexts ι := ⟨fun _ => connectedLayer, .ok, fun _ => []⟩

/-- No context is in the middle of a packet. -/
def Contexts.Idle (w : Contexts ι) : Prop := ∀ i, (w.layer i).data.pullCs = .idle

variable [DecidableEq ι]

/-- A buffer is delivered to one of the contexts. -/
def deliver (w : Contexts ι) (e : ι × Bytes) : Contexts ι :=
  let r := pull (w.layer e.1) w.localState e.2 .ok
  { layer := Function.update w.layer e.1 r.layer
    localState := r.localState
    calls := Function.update w.calls e.1 (w.calls e.1 ++ r.calls) }

/-- A delivery that does not resume `READ_STRING` or `READ_DATA` while `local_state` is `OK`. -/
def Undisturbed (w : Contexts ι) (e : ι × Bytes) : Prop :=
  (w.layer e.1).data.inRead = true → w.localState ≠ .ok

instance (w : Contexts ι) (e : ι × Bytes) : Decidable (Undisturbed w e) :=
  inferInstanceAs (Decidable (_ → _))

/-- Context `i` is the same in both, and in the second nothing disturbs it. -/
structure SameFor (i : ι) (w w' : Contexts ι) : Prop where
  layer : w.layer i = w'.layer i
  calls : w.calls i = w'.calls i
  undisturbed : (w'.layer i).data.inRead = true → w'.localState ≠ .ok

/-- A buffer of the context itself. -/
theorem SameFor.deliver_self {i : ι} {w w' : Contexts ι} (h : SameFor i w w') {buffer : Bytes}
    (hu : Undisturbed w (i, buffer)) :
    SameFor i (deliver w (i, buffer)) (deliver w' (i, buffer)) := by
  have hread : (w.layer i).data.inRead = true → w.localState ≠ .ok ∧ w'.localState ≠ .ok :=
    fun hr => ⟨hu hr, h.undisturbed (h.layer ▸ hr)⟩
  have hr := pull_agree (buffer.length + 2) buffer .ok hread
  constructor
  · simp only [deliver, Function.update_self, ← h.layer]
    exact hr.layer
  · simp only [deliver, Function.update_self, ← h.layer, ← h.calls]
    exact congrArg _ hr.calls
  · simp only [deliver, Function.update_self, ← h.layer]
    intro hin
    exact (hr.inRead (hr.layer ▸ hin)).2

/-- A buffer of another context. -/
theorem SameFor.deliver_other {i : ι} {w w' : Contexts ι} (h : SameFor i w w') {e : ι × Bytes}
    (he : e.1 ≠ i) : SameFor i (deliver w e) w' := by
  constructor
  · rw [← h.layer]
    exact Function.update_of_ne he.symm _ _
  · rw [← h.calls]
    exact Function.update_of_ne he.symm _ _
  · exact h.undisturbed

theorem SameFor.run {i : ι} : ∀ {events : List (ι × Bytes)} {w w' : Contexts ι}, SameFor i w w' →
    AllSteps (fun w e => some (deliver w e)) Undisturbed w events →
    SameFor i (events.foldl deliver w) ((events.filter (·.1 = i)).foldl deliver w')
  | [], _, _, h, _ => h
  | (j, buffer) :: events, w, w', h, hu => by
    rw [allSteps_cons_some] at hu
    by_cases hj : j = i
    · subst hj
      rw [List.filter_cons_of_pos (by simp)]
      exact SameFor.run (h.deliver_self hu.1) hu.2
    · rw [List.filter_cons_of_neg (by simp [hj])]
      exact SameFor.run (h.deliver_other hj) hu.2

/-- **A context passes up what it passes up when the others are silent**, in every interleaving
that does not resume one of the macros while `local_state` is `OK`. -/
theorem isolation (w : Contexts ι) (hw : w.Idle) (events : List (ι × Bytes))
    (hu : AllSteps (fun w e => some (deliver w e)) Undisturbed w events) (i : ι) :
    (events.foldl deliver w).calls i = ((events.filter (·.1 = i)).foldl deliver w).calls i := by
  have h : SameFor i w w := by
    refine ⟨rfl, rfl, fun hr => ?_⟩
    simp only [LayerData.inRead, hw i, Bool.false_eq_true] at hr
  exact (h.run hu).calls

/-- A PUBACK and a PUBLISH in pieces, and a PINGRESP in pieces between them. -/
theorem isolation_pieces :
    let events : List (Bool × Bytes) :=
      [(false, [0x40, 2]), (true, [0xD0]), (false, [0, 7, 0x30, 5, 0, 1, 0x61]), (true, [0]),
        (false, [0x78, 0x79])]
    ∀ i, (events.foldl deliver Contexts.connected).calls i =
      ((events.filter (·.1 = i)).foldl deliver Contexts.connected).calls i := by
  intro events i
  refine isolation Contexts.connected (fun _ => rfl) events ?_ i
  simp only [events, allSteps_cons_some, allSteps_nil]
  decide +kernel

/-- The topic `ab` of a PUBLISH comes in two buffers, and the other context gets a PINGRESP between
them: the topic that is passed up is `a`, and `b` is the first byte of the payload. -/
theorem isolation_fails :
    let events : List (Bool × Bytes) :=
      [(false, [0x30, 6, 0, 2, 0x61]), (true, [0xD0, 0]), (false, [0x62, 0x78, 0x79])]
    ((events.filter (·.1 = false)).foldl deliver Contexts.connected).calls false =
        [.pullNext
          { commonValue := 0x30, remainingLength := 6,
            topicName := some [0x61, 0x62], content := some [0x78, 0x79] } .ok] ∧
      (events.foldl deliver Contexts.connected).calls false =
        [.pullNext
          { commonValue := 0x30, remainingLength := 6,
            topicName := some [0x61], content := some [0x62, 0x78, 0x79] } .ok] := by
  decide +kernel

end IotDeviceSdk.Mqtt.Codec
