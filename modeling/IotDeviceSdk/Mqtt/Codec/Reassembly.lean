import Mathlib.Tactic.IntervalCases
import IotDeviceSdk.Infra.Stream
import IotDeviceSdk.Mqtt.ParserPacket
import IotDeviceSdk.Mqtt.Codec.Pull

/-!
# Packets in pieces

A stream of packets is cut into buffers, and pull is called with each of them.

* `feed_packets`: packets with something behind them are passed up, one after the other.
* `reassembles_iff`: every packet is passed up with its last byte, unless the parser has no branch
  for it or it ends, at the end of a buffer, with an empty field.
-/

namespace IotDeviceSdk.Mqtt.Codec

open Infra

/-! ## One packet -/

/-- The layer is connected and no packet is being read. -/
structure Layer.BetweenPackets (c : Layer) : Prop where
  connected : c.layerState = .connected
  idle : c.data.pullCs = .idle

/-- The call that passes a packet up. -/
def passUp (p : Packet) : LayerCall := .pullNext p.message .ok

theorem parse_idle {d : LayerData} (h : d.pullCs = .idle) (ls : IotcState) (buffer : Bytes) :
    parse d ls buffer = execute parserInit {} buffer ls := by
  simp only [parse, h]

theorem Layer.BetweenPackets.notOperational {c : Layer} (h : c.BetweenPackets) :
    c.layerState.notOperational = false := by
  rw [h.connected]
  rfl

theorem Layer.BetweenPackets.parsed {c : Layer} (h : c.BetweenPackets) (o : Outcome) :
    (c.parsed o .idle).BetweenPackets := ⟨h.connected, rfl⟩

/-- A message is passed up, and pull goes on with the rest of the buffer. -/
theorem pull_makes {c : Layer} (hc : c.BetweenPackets) {ls : IotcState} {buffer src : Bytes}
    {m : Message} (hb : buffer ≠ []) (hsrc : src ≠ [])
    (h : (execute parserInit {} buffer ls).Makes (some (m, src))) :
    ∃ c' ls', c'.BetweenPackets ∧ c'.data.taskQueue = c.data.taskQueue ∧
      pull c ls buffer .ok = { pull c' ls' src .ok with
        calls := .pullNext m .ok :: (pull c' ls' src .ok).calls } := by
  obtain ⟨hs, hm, hr⟩ := h
  refine ⟨c.parsed (execute parserInit {} buffer ls) .idle,
    (execute parserInit {} buffer ls).localState, hc.parsed _, rfl, ?_⟩
  rw [pull_eq c ls .ok hb]
  simp only [hc.notOperational, Bool.false_eq_true, ↓reduceIte, ne_eq, not_true_eq_false,
    parse_idle hc.idle, hs, hm, hr, hsrc]

/-- A message is passed up, and the buffer ends with it. -/
theorem pull_makes_last {c : Layer} (hc : c.BetweenPackets) {ls : IotcState} {buffer : Bytes}
    {m : Message} (hb : buffer ≠ []) (h : (execute parserInit {} buffer ls).Makes (some (m, []))) :
    ∃ c' ls', c'.BetweenPackets ∧ c'.data.taskQueue = c.data.taskQueue ∧
      pull c ls buffer .ok = ⟨c', ls', [.pullNext m .ok], 1⟩ := by
  obtain ⟨hs, hm, hr⟩ := h
  refine ⟨c.parsed (execute parserInit {} buffer ls) .idle,
    (execute parserInit {} buffer ls).localState, hc.parsed _, rfl, ?_⟩
  rw [pull_eq c ls .ok hb]
  simp only [hc.notOperational, Bool.false_eq_true, ↓reduceIte, ne_eq, not_true_eq_false,
    parse_idle hc.idle, hs, hm, hr]

/-- The parser waits for more. -/
theorem pull_waits {c : Layer} (hc : c.BetweenPackets) {ls : IotcState} {buffer : Bytes}
    (hb : buffer ≠ []) (h : (execute parserInit {} buffer ls).state = .wantRead) :
    (pull c ls buffer .ok).calls = [] ∧ (pull c ls buffer .ok).layer.layerState = .connected := by
  rw [pull_eq c ls .ok hb]
  simp only [hc.notOperational, Bool.false_eq_true, ↓reduceIte, ne_eq, not_true_eq_false,
    parse_idle hc.idle, h]
  exact ⟨trivial, hc.connected⟩

/-- The parser reports an error. -/
theorem pull_rejects {c : Layer} (hc : c.BetweenPackets) {ls : IotcState} {buffer : Bytes}
    (hb : buffer ≠ []) (h : (execute parserInit {} buffer ls).state = .mqttParserError) :
    (pull c ls buffer .ok).calls =
        clearTaskQueue c.data.taskQueue [] ++ [.closePrev .mqttParserError] ∧
      (pull c ls buffer .ok).layer.layerState = .closing := by
  rw [pull_eq c ls .ok hb]
  simp only [hc.notOperational, Bool.false_eq_true, ↓reduceIte, ne_eq, not_true_eq_false,
    parse_idle hc.idle, h]
  refine ⟨?_, ?_⟩
  · simp only [pullErrHandling, Layer.parsed, h]
    rfl
  · simp only [pullErrHandling, Layer.parsed, hc.connected]
    rfl

/-! ## Streams -/

/-- The bytes of packets. -/
abbrev stream (ps : List Packet) : Bytes := ps.flatMap fun p => p.bytes

/-- **Packets with something behind them** are passed up, one after the other. -/
theorem feed_packets : ∀ (ps : List Packet), (∀ p ∈ ps, p.parsed = true) → ∀ (f : Fed),
    f.layer.BetweenPackets → ∀ {src : Bytes}, src ≠ [] →
    ∃ f' : Fed, f'.layer.BetweenPackets ∧ f'.layer.data.taskQueue = f.layer.data.taskQueue ∧
      f'.calls = f.calls ++ ps.map passUp ∧ feed f (stream ps ++ src) = feed f' src
  | [], _, f, hf, src, _ => ⟨f, hf, rfl, by simp, by simp⟩
  | p :: ps, hps, f, hf, src, hsrc => by
    have hrest : stream ps ++ src ≠ [] := by simp [hsrc]
    have hall : p.bytes ++ (stream ps ++ src) ≠ [] := by simp [hsrc]
    have hmakes := execute_packet (hps p (by simp)) (stream ps ++ src) f.localState (Or.inl hrest)
    obtain ⟨c', ls', hc', hq, hpull⟩ := pull_makes hf hall hrest hmakes
    obtain ⟨f', hf', hq', hcalls, hfeed⟩ := feed_packets ps (fun q hq => hps q (by simp [hq]))
      ⟨c', Or.inl hc'.connected, ls', f.calls ++ [passUp p]⟩ hc' hsrc
    refine ⟨f', hf', by rw [hq', hq], ?_, ?_⟩
    · rw [hcalls, List.map_cons, List.append_assoc, List.singleton_append]
    · rw [← hfeed]
      simp only [stream, List.flatMap_cons, List.append_assoc] at hpull ⊢
      simp only [feed, hpull, passUp, List.append_assoc, List.singleton_append]

theorem feed_calls (f : Fed) (buffer : Bytes) :
    (feed f buffer).calls = f.calls ++ (pull f.layer f.localState buffer .ok).calls := rfl

/-- A packet that does not end with an empty field is passed up with its last byte. -/
theorem feed_stream {ps : List Packet} (hps : ∀ p ∈ ps, p.parsed = true) {p : Packet}
    (hp : p.parsed = true) (he : p.content.endsEmpty = false) {f : Fed}
    (hf : f.layer.BetweenPackets) :
    (feed f (stream (ps ++ [p]))).calls = f.calls ++ (ps ++ [p]).map passUp := by
  obtain ⟨f', hf', -, hcalls, hfeed⟩ := feed_packets ps hps f hf p.bytes_ne_nil
  have hmakes := execute_packet hp [] f'.localState (Or.inr he)
  rw [List.append_nil] at hmakes
  obtain ⟨c', ls', -, -, hpull⟩ := pull_makes_last hf' p.bytes_ne_nil hmakes
  have hstream : stream (ps ++ [p]) = stream ps ++ p.bytes := by simp [stream]
  rw [hstream, hfeed, feed_calls, hpull, hcalls, List.map_append, List.append_assoc]
  rfl

/-- What does not lead to the end of a packet passes nothing up. -/
theorem feed_waits {ps : List Packet} (hps : ∀ p ∈ ps, p.parsed = true) {buffer : Bytes} {f : Fed}
    (hf : f.layer.BetweenPackets) (hb : buffer ≠ [])
    (h : ∀ ls, (execute parserInit {} buffer ls).state = .wantRead) :
    (feed f (stream ps ++ buffer)).calls = f.calls ++ ps.map passUp ∧
      (feed f (stream ps ++ buffer)).layer.layerState = .connected := by
  obtain ⟨f', hf', -, hcalls, hfeed⟩ := feed_packets ps hps f hf hb
  obtain ⟨hnone, hstate⟩ := pull_waits hf' hb (h f'.localState)
  refine ⟨?_, ?_⟩
  · rw [hfeed, feed_calls, hnone, hcalls, List.append_nil]
  · rw [hfeed]
    exact hstate

/-- A packet that the parser has no branch for, or one that it stops reading after the first topic
or return code, is not passed up. -/
theorem pull_not_parsed {c : Layer} (hc : c.BetweenPackets) {p : Packet} (hp : p.parsed = false)
    (src : Bytes) (ls : IotcState) :
    (pull c ls (p.bytes ++ src) .ok).calls.head? ≠ some (passUp p) := by
  have hne : p.bytes ++ src ≠ [] := List.append_ne_nil_of_left_ne_nil p.bytes_ne_nil src
  by_cases hbranch : p.header.type = .unsubscribe ∨ p.header.type = .unsuback
  · have hstmts : stmts p.header.type = none := by
      rcases hbranch with h | h
      · rw [h]
        rfl
      · rw [h]
        rfl
    have herr := execute_noBranch hstmts (p.body ++ src) ls
    rw [← Frame.bytes_append] at herr
    rw [(pull_rejects hc hne herr).1]
    cases c.data.taskQueue with
    | nil => simp [clearTaskQueue, passUp]
    | cons t ts => simp [clearTaskQueue, passUp]
  · rw [not_or] at hbranch
    have hsingle : p.content.single = false := by
      simpa [Packet.parsed, hbranch.1, hbranch.2] using hp
    obtain ⟨hend, hfurther, hmessage⟩ := Content.not_single hsingle
    have hmakes := execute_firstOnly p src ls hbranch.1 hbranch.2 (Or.inr hend)
    obtain ⟨c', ls', -, -, hpull⟩ := pull_makes hc hne (by simp [hfurther]) hmakes
    rw [hpull]
    simp only [List.head?_cons, passUp, ne_eq, Option.some.injEq, LayerCall.pullNext.injEq, and_true]
    exact hmessage p.header

/-! ## Streams in pieces -/

/-- The layer after the first `k` buffers. -/
def Fed.after (f : Fed) (buffers : List Bytes) (k : Nat) : Fed := (buffers.take k).foldl feed f

/-- What is expected of the layer when a stream of packets is cut into buffers: that it passes up
the same messages however it is cut, frees every buffer once, and has passed up, after each buffer,
the packets that are complete. -/
structure Reassembles (f : Fed) (ps : List Packet) (buffers : List Bytes) : Prop where
  anyCut : ∀ buffers' : List Bytes, (∀ b ∈ buffers', b ≠ []) → buffers'.flatten = buffers.flatten →
    (buffers'.foldl feed f).calls = (buffers.foldl feed f).calls
  freed : ∀ k (h : k < buffers.length),
    (pull (f.after buffers k).layer (f.after buffers k).localState buffers[k] .ok).freed = 1
  passedUp : ∀ k ≤ buffers.length, (f.after buffers k).calls =
    f.calls ++ (complete (fun p : Packet => p.bytes) ps (buffers.take k).flatten.length).map passUp

/-- No packet that ends with an empty field ends where a buffer ends. -/
def NoEmptyEnd (ps : List Packet) (buffers : List Bytes) : Prop :=
  ∀ k ≤ buffers.length, ∀ ps₁ p ps₂, ps = ps₁ ++ p :: ps₂ →
    (buffers.take k).flatten = stream (ps₁ ++ [p]) → p.content.endsEmpty = false

theorem foldl_feed_flatten {buffers buffers' : List Bytes} (f : Fed)
    (hne : ∀ b ∈ buffers, b ≠ []) (hne' : ∀ b ∈ buffers', b ≠ [])
    (h : buffers'.flatten = buffers.flatten) : buffers'.foldl feed f = buffers.foldl feed f := by
  rw [splitFree_feed.foldl_eq buffers f hne, splitFree_feed.foldl_eq buffers' f hne', h]

/-- After the first buffers the layer is as after what they hold in one. -/
theorem after_eq_feed {buffers : List Bytes} (f : Fed) (hne : ∀ b ∈ buffers, b ≠ []) {k : Nat}
    (h : (buffers.take k).flatten ≠ []) : f.after buffers k = feed f (buffers.take k).flatten := by
  refine feedAll_eq f ?_ fun b hb => hne b (List.mem_of_mem_take hb)
  rintro hnil
  rw [hnil] at h
  exact h rfl

/-- **What the layer has passed up after some buffers** are the packets that are complete, unless
the last of them ends, with an empty field, at the end of the buffer. -/
theorem after_calls {f : Fed} (hf : f.layer.BetweenPackets) {ps : List Packet}
    {buffers : List Bytes} (hne : ∀ b ∈ buffers, b ≠ []) (hflat : buffers.flatten = stream ps)
    (hps : ∀ p ∈ ps, p.parsed = true) (hend : NoEmptyEnd ps buffers) {k : Nat}
    (hk : k ≤ buffers.length) : (f.after buffers k).calls =
      f.calls ++ (complete (fun p : Packet => p.bytes) ps (buffers.take k).flatten.length).map
        passUp := by
  have hpre : (buffers.take k).flatten <+: ps.flatMap fun p => p.bytes := by
    refine ⟨(buffers.drop k).flatten, ?_⟩
    rw [← List.flatten_append, List.take_append_drop, hflat]
  obtain ⟨ys, rest, hxs, hstream, hrest⟩ := prefix_eq_complete hpre
  generalize complete (fun p : Packet => p.bytes) ps (buffers.take k).flatten.length = done
    at hxs hstream ⊢
  have hdone : ∀ p ∈ done, p.parsed = true := fun p hp => hps p (by rw [hxs]; simp [hp])
  by_cases hr : rest = []
  · -- the buffers end with a packet
    rw [hr, List.append_nil] at hstream
    rcases List.eq_nil_or_concat done with rfl | ⟨ps₁, p, rfl⟩
    · have hnil : buffers.take k = [] := by
        rw [List.flatMap_nil, List.flatten_eq_nil_iff] at hstream
        refine List.eq_nil_iff_forall_not_mem.mpr fun b hb => ?_
        exact hne b (List.mem_of_mem_take hb) (hstream b hb)
      rw [Fed.after, hnil, List.foldl_nil, List.map_nil, List.append_nil]
    · rw [List.concat_eq_append] at hxs hstream hdone ⊢
      have hempty := hend k hk ps₁ p ys (by rw [hxs]; simp) hstream
      rw [after_eq_feed f hne (by rw [hstream]; simp [p.bytes_ne_nil]), hstream]
      exact feed_stream (fun q hq => hdone q (by simp [hq])) (hdone p (by simp)) hempty hf
  · -- the buffers end within a packet
    obtain ⟨p, zs, more, hys, hbytes, hmore⟩ := hrest.resolve_left hr
    have hp : p.parsed = true := hps p (by rw [hxs, hys]; simp)
    rw [after_eq_feed f hne (by rw [hstream]; simp [hr]), hstream]
    exact (feed_waits hdone hf hr fun ls => execute_prefix hp ls hbytes hmore).1

/-- **Packets in pieces are put together again** exactly when the parser has a branch for each of
them, and none that ends with an empty field ends where a buffer ends. -/
theorem reassembles_iff {f : Fed} (hf : f.layer.BetweenPackets) {ps : List Packet}
    {buffers : List Bytes} (hne : ∀ b ∈ buffers, b ≠ []) (hflat : buffers.flatten = stream ps) :
    Reassembles f ps buffers ↔ (∀ p ∈ ps, p.parsed = true) ∧ NoEmptyEnd ps buffers := by
  constructor
  · intro h
    have hcode : ∀ p : Packet, p.bytes ≠ [] := fun p => p.bytes_ne_nil
    have hall : ∀ p ∈ ps, p.parsed = true := by
      by_contra hnot
      obtain ⟨ps₁, p, ps₂, rfl, hps₁, hp⟩ := exists_first hnot
      have hsrc : p.bytes ++ stream ps₂ ≠ [] :=
        List.append_ne_nil_of_left_ne_nil p.bytes_ne_nil _
      obtain ⟨f', hf', -, hcalls, hfeed⟩ := feed_packets ps₁ hps₁ f hf hsrc
      have hlast := h.passedUp buffers.length (le_refl _)
      rw [List.take_length, hflat, complete_all hcode,
        after_eq_feed f hne (by rw [List.take_length, hflat]; simp [p.bytes_ne_nil]),
        List.take_length, hflat] at hlast
      have hstream : stream (ps₁ ++ p :: ps₂) = stream ps₁ ++ (p.bytes ++ stream ps₂) := by
        simp [stream]
      rw [hstream, hfeed, feed_calls, hcalls, List.map_append, List.append_assoc,
        List.append_cancel_left_eq, List.append_cancel_left_eq] at hlast
      refine pull_not_parsed hf' (by simpa using hp) (stream ps₂) f'.localState ?_
      rw [hlast]
      rfl
    refine ⟨hall, ?_⟩
    rintro k hk ps₁ p ps₂ rfl hpre
    by_contra hempty
    rw [Bool.not_eq_false] at hempty
    have hboundary := h.passedUp k hk
    have hne' : (buffers.take k).flatten ≠ [] := by
      rw [hpre]
      simp [p.bytes_ne_nil]
    have hsplit : ps₁ ++ p :: ps₂ = (ps₁ ++ [p]) ++ ps₂ := by simp
    have hstream : stream (ps₁ ++ [p]) = stream ps₁ ++ p.bytes := by simp [stream]
    rw [after_eq_feed f hne hne', hpre, hsplit, complete_boundary hcode, hstream,
      (feed_waits (fun q hq => hall q (by simp [hq])) hf p.bytes_ne_nil
        fun ls => execute_held p ls hempty).1] at hboundary
    have hlen := congrArg List.length hboundary
    simp only [List.length_append, List.length_map, List.length_singleton] at hlen
    omega
  · rintro ⟨hps, hend⟩
    refine ⟨fun buffers' hne' h => by rw [foldl_feed_flatten f hne hne' h], fun k hk => ?_,
      fun k hk => after_calls hf hne hflat hps hend hk⟩
    exact pull_freed _ _ _ _ _ (hne _ (List.getElem_mem hk)) (bound_le _ _)

/-- A PUBLISH to `a` with the payload `xy`. -/
def publishPacket : Packet where
  first := 0x30
  lengthBytes := [5]
  body := [0, 1, 0x61, 0x78, 0x79]
  valid := by decide
  content := .publish ⟨⟨0, 1⟩, [0x61], by decide⟩ none [0x78, 0x79]
  body_eq := rfl
  fits := ⟨by decide, by decide⟩

/-- A PUBLISH to `a` without a payload. -/
def emptyPublishPacket : Packet where
  first := 0x30
  lengthBytes := [3]
  body := [0, 1, 0x61]
  valid := by decide
  content := .publish ⟨⟨0, 1⟩, [0x61], by decide⟩ none []
  body_eq := rfl
  fits := ⟨by decide, by decide⟩

/-- Two packets in four pieces. -/
theorem reassembles_pieces :
    Reassembles Fed.connected [emptyPublishPacket, publishPacket]
      [[0x30], [3, 0, 1], [0x61, 0x30, 5, 0, 1], [0x61, 0x78, 0x79]] := by
  have hbuffers : ∀ b ∈ ([[0x30], [3, 0, 1], [0x61, 0x30, 5, 0, 1], [0x61, 0x78, 0x79]] :
      List Bytes), b ≠ [] := by decide
  have hflat : ([[0x30], [3, 0, 1], [0x61, 0x30, 5, 0, 1], [0x61, 0x78, 0x79]] :
      List Bytes).flatten = stream [emptyPublishPacket, publishPacket] := rfl
  refine (reassembles_iff (f := Fed.connected) ⟨rfl, rfl⟩ hbuffers hflat).mpr ⟨by decide, ?_⟩
  intro k hk ps₁ p ps₂ hps hpre
  rcases ps₁ with _ | ⟨q, _ | ⟨q', ps₁⟩⟩
  · -- no buffer ends with the first packet
    simp only [List.nil_append, List.cons.injEq] at hps
    rw [← hps.1] at hpre
    simp only [List.length_cons, List.length_nil] at hk
    interval_cases k <;> exact absurd hpre (by decide)
  · simp only [List.cons_append, List.nil_append, List.cons.injEq] at hps
    rw [← hps.2.1]
    rfl
  · simp at hps

/-- The PUBLISH without a payload comes in one buffer, and nothing is passed up. -/
theorem reassembles_fails :
    ¬ Reassembles Fed.connected [emptyPublishPacket] [[0x30, 3, 0, 1, 0x61]] := by
  intro h
  have hpassed := h.passedUp 1 (by decide)
  revert hpassed
  decide +kernel

end IotDeviceSdk.Mqtt.Codec
