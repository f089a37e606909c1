import IotDeviceSdk.Infra.Sessions
import IotDeviceSdk.Mqtt.Codec.Push

/-!
# What the codec layer writes

A call of push writes a part of the first message of the queue. The layer loses messages when it is
out of memory, and writes a PUBLISH in two parts; apart from that it writes what it takes over, in
this order. So the trace of what it has written, with what is still in its queue, is calmer than the
trace of what it has taken over (`push_calmer`).
-/

namespace IotDeviceSdk.Mqtt.Codec

open Infra

/-- The messages of a queue. -/
def queued (ts : List CodecTask) : List (Entry Message) := (ts.filterMap CodecTask.msg).map .said

/-- A call has written a part of the first message of the queue, or nothing. -/
def PushResult.said (r : PushResult) : List (Entry Message) :=
  (r.calls.filterMap LayerCall.down?).filterMap fun _ =>
    (r.layer.data.taskQueue.head?.bind CodecTask.msg).map .said

/-- What is still to be written after `written`: the queue, without its first message if that is the
one that has been written last. -/
def Pends (written : List (Entry Message)) (ts : List CodecTask) (pend : List (Entry Message)) : Prop :=
  pend = queued ts ∨ ∃ ws t m ts', written = ws ++ [.said m] ∧ ts = t :: ts' ∧ t.msg = some m ∧
    pend = queued ts'

/-- Nothing waits while no message is being written. -/
def Rests (c : Layer) : Prop := c.data.pushCs = .idle → c.data.taskQueue = []

variable {last : Message → Bool} {c : Layer} {written pend : List (Entry Message)} {m : Message}
  {mem : List Bool}

/-! ## The outcomes of a call -/

theorem said_eq_nil {r : PushResult} (h : r.calls.filterMap LayerCall.down? = []) : r.said = [] := by
  rw [PushResult.said, h, List.filterMap_nil]

theorem said_eq_singleton {r : PushResult} {desc : Bytes} {t : CodecTask} {ts : List CodecTask}
    (h : r.calls.filterMap LayerCall.down? = [desc]) (hq : r.layer.data.taskQueue = t :: ts)
    (ht : t.msg = some m) : r.said = [.said m] := by
  simp [PushResult.said, h, hq, ht]

theorem clearTaskQueue_down : ∀ (ts : List CodecTask) (mem : List Bool),
    (clearTaskQueue ts mem).filterMap LayerCall.down? = []
  | [], _ => rfl
  | _ :: ts, mem => clearTaskQueue_down ts mem.tail

/-- The queue is lost, and nothing is written. -/
def Dropped (r : PushResult) : Prop :=
  r.calls.filterMap LayerCall.down? = [] ∧ r.layer.data.taskQueue = []

theorem pushErrHandling_dropped (c : Layer) (data : UpData) (mem : List Bool) :
    Dropped (pushErrHandling c data mem) := by
  refine ⟨?_, rfl⟩
  rw [pushErrHandling, List.filterMap_append, clearTaskQueue_down]
  rfl

/-- A message is begun to be written, or everything is lost. -/
theorem pushStart_cases (c : Layer) (m : Message) (mem : List Bool) :
    Dropped (pushStart c (some m) mem) ∨
      (∃ desc, (pushStart c (some m) mem).calls.filterMap LayerCall.down? = [desc]) ∧
        (pushStart c (some m) mem).layer.data.taskQueue = c.data.taskQueue ∧
        (pushStart c (some m) mem).layer.data.pushCs = .header := by
  unfold pushStart
  dsimp only
  split
  · exact .inl (pushErrHandling_dropped _ _ _)
  · split
    · split
      · exact .inl (pushErrHandling_dropped _ _ _)
      · exact .inr ⟨⟨_, rfl⟩, rfl, rfl⟩
    · exact .inl (pushErrHandling_dropped _ _ _)

/-! ## Calmer traces -/

theorem Pends.lose {ts : List CodecTask} (h : Pends written ts pend) (l : List (Entry Message)) :
    Calmer last (pend ++ l) l := by
  rcases h with rfl | ⟨_, _, _, ts', _, _, _, rfl⟩
  · exact .lose_map _ l
  · exact .lose_map _ l

/-- One message more waits. -/
theorem Pends.submit {ts : List CodecTask} (h : Pends written ts pend) (m : Message) :
    Pends written (ts ++ [makeTask m]) (pend ++ [.said m]) := by
  have hqueued (ts : List CodecTask) : queued (ts ++ [makeTask m]) = queued ts ++ [.said m] := by
    simp [queued, makeTask]
  rcases h with rfl | ⟨ws, t, m', ts', rfl, rfl, ht, rfl⟩
  · exact .inl (hqueued ts).symm
  · exact .inr ⟨ws, t, m', ts' ++ [makeTask m], rfl, rfl, ht, (hqueued ts').symm⟩

/-- After a call the layer rests if it writes nothing, and the trace is calmer. -/
structure Calms (last : Message → Bool) (written l : List (Entry Message)) (r : PushResult) : Prop where
  rests : Rests r.layer
  calmer : ∃ pend, Pends (written ++ r.said) r.layer.data.taskQueue pend ∧
    Calmer last (written ++ l) (written ++ r.said ++ pend)

/-- Everything is lost. -/
theorem Calms.of_dropped {r : PushResult} (h : Dropped r) {l : List (Entry Message)}
    (hl : Calmer last l []) : Calms last written l r where
  rests _ := h.2
  calmer := by
    refine ⟨[], .inl (by rw [h.2]; rfl), ?_⟩
    rw [said_eq_nil h.1, List.append_nil]
    exact hl.append_left written

/-- Nothing is written, and what is still to be written is as before. -/
theorem Calms.of_quiet {c : Layer} {freed : List Message} {l : List (Entry Message)} (hc : Rests c)
    (hp : Pends written c.data.taskQueue pend) (hl : Calmer last l pend) :
    Calms last written l ⟨c, [], freed⟩ where
  rests := hc
  calmer := by
    have hsaid : written ++ PushResult.said ⟨c, [], freed⟩ = written := List.append_nil _
    rw [hsaid]
    exact ⟨pend, hp, hl.append_left written⟩

/-- The first message of the queue is begun to be written. -/
theorem pushStart_calms {t : CodecTask} {ts : List CodecTask} (hq : c.data.taskQueue = t :: ts)
    (ht : t.msg = some m) {l : List (Entry Message)} (hl : Calmer last l (.said m :: queued ts)) :
    Calms last written l (pushStart c (some m) mem) := by
  rcases pushStart_cases c m mem with h | ⟨⟨desc, hdown⟩, hqueue, hcs⟩
  · refine .of_dropped h (hl.trans ?_)
    have hlose : Calmer last (queued (t :: ts) ++ []) [] := .lose_map _ []
    rw [List.append_nil, queued, List.filterMap_cons_some ht] at hlose
    exact hlose
  · have hsaid := said_eq_singleton hdown (hqueue.trans hq) ht
    refine ⟨fun hidle => ?_, queued ts, ?_, ?_⟩
    · rw [hcs] at hidle
      cases hidle
    · exact .inr ⟨written, t, m, ts, by rw [hsaid], hqueue.trans hq, ht, rfl⟩
    · rw [hsaid, List.append_assoc]
      exact hl.append_left written

/-- Calls that write nothing come first. -/
theorem Calms.prepend {r : PushResult} {l : List (Entry Message)} (h : Calms last written l r)
    {calls : List LayerCall} (hcalls : calls.filterMap LayerCall.down? = []) (freed : List Message) :
    Calms last written l ⟨r.layer, calls ++ r.calls, freed⟩ := by
  have hsaid : PushResult.said ⟨r.layer, calls ++ r.calls, freed⟩ = r.said := by
    simp only [PushResult.said, List.filterMap_append, hcalls, List.nil_append]
  refine ⟨h.rests, ?_⟩
  rw [hsaid]
  exact h.calmer

/-- What waits behind the first message. -/
theorem Pends.behind {t : CodecTask} {ts : List CodecTask} (h : Pends written (t :: ts) pend)
    (ht : t.msg = some m) : pend = .said m :: queued ts ∨
      pend = queued ts ∧ ∃ ws, written = ws ++ [.said m] := by
  rcases h with rfl | ⟨ws, t', m', ts', rfl, hts, ht', rfl⟩
  · refine .inl ?_
    simp [queued, ht]
  · obtain ⟨rfl, rfl⟩ := List.cons.inj hts
    obtain rfl := Option.some.inj (ht.symm.trans ht')
    exact .inr ⟨rfl, ws, rfl⟩

/-- The next message is begun to be written. -/
theorem pushFinalise_calms {s : IotcState} {r : PushResult}
    (hp : Pends written c.data.taskQueue pend) (h : pushFinalise c s mem = some r) :
    Calms last written pend r := by
  have hlose : Calmer last pend [] := by
    have : Calmer last (pend ++ []) [] := hp.lose []
    rwa [List.append_nil] at this
  unfold pushFinalise at h
  split at h
  · next msg msgId msgType tasks hq =>
    split at h
    · split at h
      · dsimp only at h
        split at h
        · obtain rfl := Option.some.inj h
          exact .of_dropped ⟨rfl, rfl⟩ hlose
        · next m' _ _ rest =>
          obtain rfl := Option.some.inj h
          refine (pushStart_calms rfl rfl ?_).prepend rfl _
          rw [hq] at hp
          rcases hp.behind rfl with rfl | ⟨rfl, -⟩
          · exact .lose msg _
          · exact .refl _
        · cases h
      · obtain rfl := Option.some.inj h
        have hdropped := pushErrHandling_dropped { c with data := { c.data with
          taskQueue := ⟨none, msgId, msgType⟩ :: tasks } } .null mem.tail
        refine .of_dropped ?_ hlose
        exact ⟨hdropped.1, hdropped.2⟩
    · cases h
  · cases h

/-- The payload of a PUBLISH is written next, or the next message. -/
theorem pushHeaderWritten_calms {s : IotcState} {r : PushResult}
    (hlast : ∀ m, m.type = .publish → last m = false)
    (hp : Pends written c.data.taskQueue pend) (h : pushHeaderWritten c s mem = some r) :
    Calms last written pend r := by
  have hlose : Calmer last pend [] := by
    have : Calmer last (pend ++ []) [] := hp.lose []
    rwa [List.append_nil] at this
  unfold pushHeaderWritten at h
  split at h
  · next msg _ _ tasks hq =>
    split at h
    · next hpayload =>
      split at h
      · obtain rfl := Option.some.inj h
        have hsaid := said_eq_singleton (r := ⟨{ c with data := { c.data with pushCs := .payload } },
          [.pushPrev (msg.content.getD []) .ok], []⟩) rfl hq rfl
        refine ⟨fun hidle => PushCs.noConfusion hidle, queued tasks, ?_, ?_⟩
        · exact .inr ⟨written, _, msg, tasks, by rw [hsaid], hq, rfl, rfl⟩
        · rw [hsaid]
          rw [hq] at hp
          rcases hp.behind rfl with rfl | ⟨rfl, ws, rfl⟩
          · rw [List.append_assoc]
            exact .refl _
          · -- the message has been written last
            rw [List.append_assoc ws, List.append_assoc]
            have := (Calmer.repeat_said (hlast msg hpayload.2.1)).append_right (queued tasks)
            rw [List.append_assoc]
            exact this.append_left ws
      · obtain rfl := Option.some.inj h
        exact .of_dropped (pushErrHandling_dropped _ _ _) hlose
    · exact pushFinalise_calms hp h
  · cases h

/-- **What is taken over is written in this order**, as far as it is not lost. -/
theorem push_calms {r : PushResult} (hc : Rests c) (hp : Pends written c.data.taskQueue pend)
    (h : push c (some m) .ok mem = some r) :
    Calms last written (pend ++ [.said m]) r := by
  have hlose : Calmer last (pend ++ [.said m]) [] := (hp.lose _).trans (.lose m [])
  unfold push at h
  split at h
  · obtain rfl := Option.some.inj h
    refine .of_quiet hc hp ?_
    have hlast : Calmer last (pend ++ [.said m]) (pend ++ []) := (Calmer.lose m []).append_left pend
    rwa [List.append_nil] at hlast
  · dsimp only at h
    split at h
    · split at h
      · next hidle =>
        obtain rfl := Option.some.inj h
        have hempty := hc hidle
        have hq : c.data.taskQueue ++ [makeTask m] = makeTask m :: [] := by rw [hempty]; rfl
        refine pushStart_calms hq rfl ?_
        rw [hempty] at hp
        rcases hp with rfl | ⟨_, _, _, _, _, hts, _⟩
        · exact .refl _
        · cases hts
      · next hcs =>
        obtain rfl := Option.some.inj h
        exact .of_quiet (fun hidle => absurd hidle hcs) (hp.submit m) (.refl _)
    · obtain rfl := Option.some.inj h
      exact .of_dropped (pushErrHandling_dropped _ _ _) hlose

/-- An answer goes on with the message that is being written. -/
theorem push_answer_calms {r : PushResult} {b : Bool}
    (hlast : ∀ m, m.type = .publish → last m = false) (hc : Rests c)
    (hp : Pends written c.data.taskQueue pend) (h : push c none (answerState b) mem = some r) :
    Calms last written pend r := by
  unfold push at h
  split at h
  · obtain rfl := Option.some.inj h
    exact .of_quiet hc hp (.refl _)
  · split at h
    · next hnone => cases hnone
    · split at h
      · obtain rfl := Option.some.inj h
        have : Calmer last (pend ++ []) [] := hp.lose []
        rw [List.append_nil] at this
        exact .of_dropped (pushErrHandling_dropped _ _ _) this
      · exact pushHeaderWritten_calms hlast hp h
      · exact pushFinalise_calms hp h

end IotDeviceSdk.Mqtt.Codec
