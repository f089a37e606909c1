import IotDeviceSdk.Mqtt.Codec.Reassembly

/-!
# Frames

The remaining length of a packet is used for the payload of a PUBLISH and nowhere else: a packet of
another type ends where its fields end.

* `framing_sound`: as long as the fields of every packet fill its remaining length, a message is made
  of the bytes of its frame, and the first frame that the parser rejects closes the layer.
* `framing_fails`: what is left of a PUBACK is read as the next packet.
-/

namespace IotDeviceSdk.Mqtt.Codec

open Infra

/-- The beginnings of a stream that the parser rejects. -/
inductive Rejected : Bytes → Prop
  /-- a remaining length of more than four bytes -/
  | length (b : UInt8) {b₁ b₂ b₃ b₄ : UInt8} (h₁ : b₁ ≥ 0x80) (h₂ : b₂ ≥ 0x80) (h₃ : b₃ ≥ 0x80)
      (h₄ : b₄ ≥ 0x80) : Rejected [b, b₁, b₂, b₃, b₄]
  /-- a type that it has no branch for -/
  | type (f : Frame) (h : f.header.type ∈
      [MqttType.none, MqttType.unsubscribe, MqttType.unsuback, MqttType.reserved]) :
      Rejected f.bytes
  /-- a SUBACK whose first return code is not one -/
  | subackCode (f : Frame) (id : Word) (code : UInt8) (more : Bytes)
      (ht : f.header.type = .suback) (hbody : f.body = id.hi :: id.lo :: code :: more)
      (hc : code ∉ Content.subackCodes) : Rejected f.bytes

theorem Rejected.ne_nil {bad : Bytes} (h : Rejected bad) : bad ≠ [] := by
  cases h with
  | length b h₁ h₂ h₃ h₄ => exact List.cons_ne_nil _ _
  | type f h => exact f.bytes_ne_nil
  | subackCode f id code more ht hbody hc => exact f.bytes_ne_nil

theorem execute_rejected {bad : Bytes} (h : Rejected bad) (src : Bytes) (ls : IotcState) :
    (execute parserInit {} (bad ++ src) ls).state = .mqttParserError := by
  cases h with
  | length b h₁ h₂ h₃ h₄ => exact execute_length h₁ h₂ h₃ h₄ src ls
  | type f h =>
    rw [f.bytes_append]
    refine execute_noBranch ?_ _ ls
    simp only [List.mem_cons, List.not_mem_nil, or_false] at h
    rcases h with h | h | h | h
    · rw [h]
      rfl
    · rw [h]
      rfl
    · rw [h]
      rfl
    · rw [h]
      rfl
  | subackCode f id code more ht hbody hc => exact execute_subackCode ht hbody hc src ls

/-- A part of what is rejected is rejected, too, or waits for the rest. -/
theorem execute_rejected_part {part more : Bytes} (h : Rejected (part ++ more)) (hm : more ≠ [])
    (ls : IotcState) : (execute parserInit {} part ls).state = .wantRead ∨
      (execute parserInit {} part ls).state = .mqttParserError := by
  have hall := execute_rejected h [] ls
  rw [List.append_nil, execute_append parserInit {} part ls hm, Outcome.andThen] at hall
  by_cases hw : (execute parserInit {} part ls).state = .wantRead
  · exact Or.inl hw
  · rw [if_neg hw] at hall
    exact Or.inr hall

/-- The streams whose packets have fields that fill their remaining length, up to the first one
that is rejected. -/
structure FramedStream where
  packets : List Packet
  parsed : ∀ p ∈ packets, p.parsed = true
  rest : Bytes
  rest_eq : rest = [] ∨ ∃ bad more, Rejected bad ∧ rest = bad ++ more

namespace FramedStream

/-- The bytes of the stream. -/
def bytes (s : FramedStream) : Bytes := stream s.packets ++ s.rest

/-- What is expected of the layer when these bytes of the stream have been received: what it has
passed up are the first packets, of which each takes the bytes of its frame and no others, and it is
closing, and has reported so, when a frame that is rejected has come, and not before the packets
ahead of that have been passed up. -/
structure Sound (s : FramedStream) (f f' : Fed) (received : Bytes) : Prop where
  passedUp : ∃ n ≤ s.packets.length, stream (s.packets.take n) <+: received ∧
    (f'.calls = f.calls ++ (s.packets.take n).map passUp ∧ f'.layer.layerState = .connected ∨
      n = s.packets.length ∧ (stream s.packets).length < received.length ∧
        f'.calls = f.calls ++ s.packets.map passUp ++
          (clearTaskQueue f.layer.data.taskQueue [] ++ [.closePrev .mqttParserError]) ∧
        f'.layer.layerState = .closing)
  reported : ∀ bad, Rejected bad → stream s.packets ++ bad <+: received →
    f'.layer.layerState = .closing
  consumed : ∀ p ∈ s.packets, ∀ (d : LayerData) (ls : IotcState) (src : Bytes),
    d.pullCs = .idle → src ≠ [] → (parse d ls (p.bytes ++ src)).Makes (some (p.message, src))

theorem consumed (s : FramedStream) : ∀ p ∈ s.packets, ∀ (d : LayerData) (ls : IotcState)
    (src : Bytes), d.pullCs = .idle → src ≠ [] →
    (parse d ls (p.bytes ++ src)).Makes (some (p.message, src)) := by
  intro p hp d ls src hd hsrc
  rw [parse_idle hd]
  exact execute_packet (s.parsed p hp) src ls (Or.inl hsrc)

/-- Within the packets. -/
theorem passedUp_packets (s : FramedStream) {f : Fed} (hf : f.layer.BetweenPackets)
    {received : Bytes} (hne : received ≠ []) (h : received <+: stream s.packets) :
    ∃ n ≤ s.packets.length, stream (s.packets.take n) <+: received ∧
      (feed f received).calls = f.calls ++ (s.packets.take n).map passUp ∧
      (feed f received).layer.layerState = .connected := by
  obtain ⟨ys, rest, hxs, hstream, hrest⟩ := prefix_eq_complete h
  generalize complete (fun p : Packet => p.bytes) s.packets received.length = done at hxs hstream
  have hdone : ∀ p ∈ done, p.parsed = true := fun p hp => s.parsed p (by rw [hxs]; simp [hp])
  have htake : s.packets.take done.length = done := by rw [hxs, List.take_left]
  by_cases hr : rest = []
  · -- the last packet is whole, and may be held back
    rw [hr, List.append_nil] at hstream
    rcases List.eq_nil_or_concat done with rfl | ⟨ps, p, rfl⟩
    · exact absurd hstream hne
    · rw [List.concat_eq_append] at hxs hstream hdone htake
      have hps : ∀ q ∈ ps, q.parsed = true := fun q hq => hdone q (by simp [hq])
      have hsplit : stream (ps ++ [p]) = stream ps ++ p.bytes := by simp [stream]
      cases he : p.content.endsEmpty with
      | false =>
        have hcalls := feed_stream hps (hdone p (by simp)) he hf
        refine ⟨(ps ++ [p]).length, by rw [hxs]; simp, ?_, ?_, ?_⟩
        · rw [htake, hstream]
        · rw [htake, hstream]
          exact hcalls
        · obtain ⟨f', hf', -, -, hfeed⟩ := feed_packets ps hps f hf p.bytes_ne_nil
          have hmakes := execute_packet (hdone p (by simp)) [] f'.localState (Or.inr he)
          rw [List.append_nil] at hmakes
          obtain ⟨c', ls', hc', -, hpull⟩ := pull_makes_last hf' p.bytes_ne_nil hmakes
          rw [hstream]
          show (feed f (stream (ps ++ [p]))).layer.layerState = _
          rw [hsplit, hfeed]
          simp only [feed, hpull]
          exact hc'.connected
      | true =>
        have htake' : s.packets.take ps.length = ps := by
          rw [hxs, List.append_assoc, List.take_left]
        have hwaits := feed_waits hps hf p.bytes_ne_nil fun ls => execute_held p ls he
        refine ⟨ps.length, by rw [hxs]; simp, ?_, ?_, ?_⟩
        · rw [htake', hstream]
          exact ⟨p.bytes, hsplit.symm⟩
        · rw [htake', hstream]
          show (feed f (stream (ps ++ [p]))).calls = _
          rw [hsplit]
          exact hwaits.1
        · rw [hstream]
          show (feed f (stream (ps ++ [p]))).layer.layerState = _
          rw [hsplit]
          exact hwaits.2
  · obtain ⟨p, zs, more, hys, hbytes, hmore⟩ := hrest.resolve_left hr
    have hp : p.parsed = true := s.parsed p (by rw [hxs, hys]; simp)
    have hwaits := feed_waits hdone hf hr fun ls => execute_prefix hp ls hbytes hmore
    refine ⟨done.length, by rw [hxs]; simp, ?_, ?_, ?_⟩
    · rw [htake]
      exact ⟨rest, hstream.symm⟩
    · rw [htake]
      conv_lhs => rw [hstream]
      exact hwaits.1
    · rw [hstream]
      exact hwaits.2

/-- A frame that is rejected. -/
theorem feed_rejects (s : FramedStream) {f : Fed} (hf : f.layer.BetweenPackets) {rest : Bytes}
    (hne : rest ≠ []) (h : ∀ ls, (execute parserInit {} rest ls).state = .mqttParserError) :
    (feed f (stream s.packets ++ rest)).calls = f.calls ++ s.packets.map passUp ++
        (clearTaskQueue f.layer.data.taskQueue [] ++ [.closePrev .mqttParserError]) ∧
      (feed f (stream s.packets ++ rest)).layer.layerState = .closing := by
  obtain ⟨f', hf', hq, hcalls, hfeed⟩ := feed_packets s.packets s.parsed f hf hne
  obtain ⟨hpull, hstate⟩ := pull_rejects hf' hne (h f'.localState)
  refine ⟨?_, ?_⟩
  · rw [hfeed, feed_calls, hpull, hcalls, hq]
  · rw [hfeed]
    exact hstate

/-- When a frame that is rejected has come, the layer is closing. -/
theorem reported (s : FramedStream) {f : Fed} (hf : f.layer.BetweenPackets) {received bad : Bytes}
    (hbad : Rejected bad) (h : stream s.packets ++ bad <+: received) :
    (feed f received).layer.layerState = .closing := by
  obtain ⟨z, rfl⟩ := h
  rw [List.append_assoc]
  exact (s.feed_rejects hf (List.append_ne_nil_of_left_ne_nil hbad.ne_nil z)
    (execute_rejected hbad z)).2

/-- Behind the packets. -/
theorem passedUp_rest (s : FramedStream) {f : Fed} (hf : f.layer.BetweenPackets) {z : Bytes}
    (hz : z ≠ []) (h : z <+: s.rest) :
    (feed f (stream s.packets ++ z)).calls = f.calls ++ s.packets.map passUp ∧
        (feed f (stream s.packets ++ z)).layer.layerState = .connected ∨
      (feed f (stream s.packets ++ z)).calls = f.calls ++ s.packets.map passUp ++
          (clearTaskQueue f.layer.data.taskQueue [] ++ [.closePrev .mqttParserError]) ∧
        (feed f (stream s.packets ++ z)).layer.layerState = .closing := by
  have hls : ∀ ls, execute parserInit {} z ls = execute parserInit {} z .ok := fun _ => rfl
  have hstate : (execute parserInit {} z .ok).state = .wantRead ∨
      (execute parserInit {} z .ok).state = .mqttParserError := by
    rcases s.rest_eq with hnil | ⟨bad, more, hbad, hrest⟩
    · rw [hnil, List.prefix_nil] at h
      exact absurd h hz
    · rw [hrest] at h
      rcases List.prefix_or_prefix_of_prefix h (List.prefix_append bad more) with hp | hp
      · obtain ⟨y, rfl⟩ := hp
        rcases eq_or_ne y [] with rfl | hy
        · have hrej := execute_rejected hbad [] .ok
          rw [List.append_nil, List.append_nil] at hrej
          exact Or.inr hrej
        · exact execute_rejected_part hbad hy .ok
      · obtain ⟨y, rfl⟩ := hp
        exact Or.inr (execute_rejected hbad y .ok)
  rcases hstate with hw | he
  · exact Or.inl (feed_waits s.parsed hf hz fun ls => hls ls ▸ hw)
  · exact Or.inr (s.feed_rejects hf hz fun ls => hls ls ▸ he)

/-- **Framing is sound**, in every state that a run reaches whose packets have fields that fill their
remaining length up to the first one that is rejected. -/
theorem framing_sound (s : FramedStream) {f : Fed} (hf : f.layer.BetweenPackets)
    {buffers : List Bytes} (hne : ∀ b ∈ buffers, b ≠ []) (h : buffers.flatten <+: s.bytes) :
    s.Sound f (buffers.foldl feed f) buffers.flatten := by
  cases buffers with
  | nil =>
    refine ⟨⟨0, Nat.zero_le _, by simp, Or.inl ⟨by simp, hf.connected⟩⟩, ?_, s.consumed⟩
    intro bad hbad hpre
    exact absurd (List.append_eq_nil_iff.mp (List.prefix_nil.mp hpre)).2 hbad.ne_nil
  | cons b buffers =>
    have hflat : (b :: buffers).flatten ≠ [] := by simp [hne b (by simp)]
    rw [feedAll_eq f (List.cons_ne_nil b buffers) hne]
    generalize (b :: buffers).flatten = received at h hflat ⊢
    refine ⟨?_, fun bad hbad hpre => s.reported hf hbad hpre, s.consumed⟩
    rcases List.prefix_or_prefix_of_prefix h (List.prefix_append _ s.rest) with hp | hp
    · obtain ⟨n, hn, hpre, hcalls, hstate⟩ := s.passedUp_packets hf hflat hp
      exact ⟨n, hn, hpre, Or.inl ⟨hcalls, hstate⟩⟩
    · obtain ⟨z, rfl⟩ := hp
      rcases eq_or_ne z [] with rfl | hz
      · rw [List.append_nil] at hflat ⊢
        obtain ⟨n, hn, hpre, hcalls, hstate⟩ := s.passedUp_packets hf hflat (List.prefix_refl _)
        exact ⟨n, hn, hpre, Or.inl ⟨hcalls, hstate⟩⟩
      · have hrest : z <+: s.rest := by
          rwa [bytes, List.prefix_append_right_inj] at h
        refine ⟨s.packets.length, le_refl _, ?_, ?_⟩
        · rw [List.take_length]
          exact List.prefix_append _ _
        · rw [List.take_length]
          rcases s.passedUp_rest hf hz hrest with hopen | hclosing
          · exact Or.inl hopen
          · refine Or.inr ⟨rfl, ?_, hclosing⟩
            have := List.length_pos_iff.mpr hz
            rw [List.length_append]
            omega

end FramedStream

/-- A PUBLISH, and a SUBACK that reports the return code 3. -/
def subackStream : FramedStream where
  packets := [publishPacket]
  parsed := by decide
  rest := [0x90, 3, 0, 1, 3, 0xD0]
  rest_eq := Or.inr ⟨[0x90, 3, 0, 1, 3], [0xD0],
    .subackCode ⟨0x90, [3], [0, 1, 3], by decide⟩ ⟨0, 1⟩ 3 [] (by decide) rfl (by decide), rfl⟩

/-- The PUBLISH is passed up, and the layer is closing. -/
theorem framing_sound_suback :
    subackStream.Sound Fed.connected
      ([[0x30, 5, 0, 1], [0x61, 0x78, 0x79, 0x90, 3], [0, 1, 3, 0xD0]].foldl feed Fed.connected)
      [0x30, 5, 0, 1, 0x61, 0x78, 0x79, 0x90, 3, 0, 1, 3, 0xD0] :=
  subackStream.framing_sound (f := Fed.connected) ⟨rfl, rfl⟩ (by decide) ⟨[], rfl⟩

/-- A PUBACK whose remaining length is four. -/
def longPubackFrame : Frame where
  first := 0x40
  lengthBytes := [4]
  body := [0, 1, 0xC0, 0]
  valid := by decide

/-- Its fields do not fill the frame: it is no packet. It is passed up, the layer does not close, and
what is left of the frame is passed up as a PINGREQ. -/
theorem framing_fails :
    (∀ p : Packet, p.toFrame ≠ longPubackFrame) ∧
      (feed Fed.connected longPubackFrame.bytes).calls =
        [.pullNext { commonValue := 0x40, remainingLength := 4, messageId := 1 } .ok,
          .pullNext { commonValue := 0xC0 } .ok] ∧
      (feed Fed.connected longPubackFrame.bytes).layer.layerState = .connected := by
  refine ⟨?_, by decide +kernel, by decide +kernel⟩
  rintro ⟨f, content, hbody, hfits⟩ rfl
  have ht : longPubackFrame.header.type = .puback := by decide
  cases content with
  | ack id => simp [longPubackFrame, Content.bytes, Word.bytes] at hbody
  | connack unused returnCode => simp [longPubackFrame, Content.bytes] at hbody
  | empty => simp [longPubackFrame, Content.bytes] at hbody
  | connect => exact absurd (ht.symm.trans hfits.1) (by decide)
  | publish => exact absurd (ht.symm.trans hfits.1) (by decide)
  | subscribe => exact absurd (ht.symm.trans hfits) (by decide)
  | suback => exact absurd (ht.symm.trans hfits.1) (by decide)
  | unsubscribe => exact absurd (ht.symm.trans hfits) (by decide)

end IotDeviceSdk.Mqtt.Codec
