import Mathlib.Tactic.Ring
import IotDeviceSdk.Mqtt.Packet
import IotDeviceSdk.Mqtt.ParserSplit

/-!
# The parser reads packets

`execute_packet`: from its start, the parser takes exactly the bytes of a packet off the buffer and
makes the message of the packet. When nothing follows in the buffer, it needs the packet to end with
a field that is not empty (`execute_held`).
-/

namespace IotDeviceSdk.Mqtt

/-! ## The fixed header -/

/-- Valid length bytes lead behind the loop. -/
theorem lengthLoop_bytes : ∀ (k : Nat) (bs : Bytes) (n : Nat) (p : Parser) (m : Message),
    p.digitBytes + k = 4 → decodeLength (k + 1) bs = some n →
    ∃ p', p'.readCs = p.readCs ∧ p'.dataLength = p.dataLength ∧
      p'.remainingLength = p.remainingLength + n * p.multiplier ∧
      ∀ src ls, lengthLoop p m (bs ++ src) ls = afterLength p' m src ls
  | _, [], _, _, _, _, h => by simp [decodeLength] at h
  | k, b :: bs, n, p, m, hk, h => by
    by_cases hb : b ≥ 0x80
    · cases k with
      | zero => simp [decodeLength, hb] at h
      | succ k =>
        rw [decodeLength, if_pos hb, Option.map_eq_some_iff] at h
        obtain ⟨n', hn', rfl⟩ := h
        have hlt : p.digitBytes < 4 := by omega
        obtain ⟨p', hcs, hdata, hrem, heq⟩ := lengthLoop_bytes k bs n'
          { p with
            remainingLength := p.remainingLength + b.toNat % 128 * p.multiplier
            multiplier := p.multiplier * 128
            digitBytes := p.digitBytes + 1 } m (by simp only; omega) hn'
        refine ⟨p', hcs, hdata, ?_, fun src ls => ?_⟩
        · rw [hrem]
          ring
        · rw [List.cons_append, lengthLoop, if_pos ⟨hb, hlt⟩]
          exact heq src ls
    · rw [decodeLength, if_neg hb] at h
      split at h
      · next hbs =>
        rw [Option.some.injEq] at h
        subst hbs h
        have hlt : b.toNat < 128 := by
          simp only [ge_iff_le, UInt8.le_iff_toNat_le, not_le] at hb
          exact hb
        refine ⟨{ p with
          remainingLength := p.remainingLength + b.toNat % 128 * p.multiplier
          multiplier := p.multiplier * 128 }, rfl, rfl, ?_, fun src ls => ?_⟩
        · simp only [Nat.mod_eq_of_lt hlt]
        · simp only [List.singleton_append, lengthLoop, hb, false_and, ↓reduceIte]
      · cases h

theorem decodeLength_lt : ∀ (n : Nat) (bs : Bytes) (v : Nat), decodeLength n bs = some v → v < 128 ^ n
  | 0, _, _, h => by simp [decodeLength] at h
  | _ + 1, [], _, h => by simp [decodeLength] at h
  | n + 1, b :: bs, v, h => by
    by_cases hb : b ≥ 0x80
    · rw [decodeLength, if_pos hb, Option.map_eq_some_iff] at h
      obtain ⟨v', hv', rfl⟩ := h
      have := decodeLength_lt n bs v' hv'
      have := Nat.mod_lt b.toNat (show 0 < 128 by decide)
      rw [Nat.pow_succ]
      omega
    · rw [decodeLength, if_neg hb] at h
      split at h
      · rw [Option.some.injEq] at h
        simp only [ge_iff_le, UInt8.le_iff_toNat_le, not_le] at hb
        have hlt : b.toNat < 128 := hb
        have := Nat.pow_pos (n := n) (show 0 < 128 by decide)
        rw [Nat.pow_succ]
        omega
      · cases h

/-- The parser between two fields of a packet. -/
structure Parser.Between (p : Parser) (dataLength remainingLength : Nat) : Prop where
  readCs : p.readCs = .start
  dataLength : p.dataLength = dataLength
  remainingLength : p.remainingLength = remainingLength

theorem execute_header (f : Frame) :
    ∃ p : Parser, p.Between 2 f.body.length ∧
      ∀ src ls, execute parserInit {} (f.first :: (f.lengthBytes ++ src)) ls =
        match stmts f.header.type with
        | some k => exec k p f.header src .ok
        | none =>
          ⟨.mqttParserError, { p with error := .parserInvalidMessageId, readCs := .reset, cs := .exit },
            f.header, src, .ok⟩ := by
  obtain ⟨p, hcs, hdata, hrem, heq⟩ := lengthLoop_bytes 3 f.lengthBytes f.body.length
    { parserInit with digitBytes := 1, multiplier := 1, remainingLength := 0, dataLength := 1 }
    { commonValue := f.first } rfl f.valid
  simp only [zero_add, mul_one] at hrem
  refine ⟨{ p with dataLength := p.dataLength + 1 }, ⟨hcs, by rw [hdata], hrem⟩, fun src ls => ?_⟩
  have hexec : execute parserInit {} (f.first :: (f.lengthBytes ++ src)) ls =
      afterLength p { commonValue := f.first } src .ok := heq src .ok
  rw [hexec, afterLength, hrem]
  rfl

/-! ## Strings and data -/

theorem sizeSub_of_le {a b : Nat} (hb : b ≤ a) (ha : a < 2 ^ 64) : sizeSub a b = a - b := by
  unfold sizeSub
  omega

theorem Word.toNat_lt (w : Word) : w.toNat < 65536 := by
  have := w.hi.toNat_lt
  have := w.lo.toNat_lt
  unfold Word.toNat
  omega

/-- All that is to be read is in the buffer. -/
theorem readLoop_done {p : Parser} {text : Bytes} (label : ReadCs) (counts : Bool) (src : Bytes)
    (hp : p.strLength = text.length) (h : text.length < 2 ^ 64) :
    readLoop label counts p [] (text ++ src) =
      ⟨true, { p with
          readCs := .start
          dataLength := if counts then p.dataLength + text.length else p.dataLength }, text, src⟩ := by
  have hsub : sizeSub p.strLength ([] : Bytes).length = text.length := by
    rw [hp, List.length_nil, sizeSub_of_le (Nat.zero_le _) h, Nat.sub_zero]
  have hmin : min text.length (text ++ src).length = text.length :=
    min_eq_left (by rw [List.length_append]; omega)
  simp only [readLoop, hsub, hmin, Nat.sub_self, gt_iff_lt, lt_irrefl, ↓reduceIte, List.nil_append,
    List.take_left, List.drop_left]

theorem readString_str {p : Parser} (s : Str) {src : Bytes} (hp : p.readCs = .start)
    (h : s.text ≠ [] ∨ src ≠ []) :
    readString p none (s.bytes ++ src) =
      ⟨true, { p with
          readCs := .start
          strLength := s.length.toNat
          dataLength := p.dataLength + s.bytes.length }, s.text, src⟩ := by
  have hne : s.text ++ src ≠ [] := by
    rw [ne_eq, List.append_eq_nil_iff, not_and_or]
    exact h
  have hlt : s.text.length < 2 ^ 64 := by
    have := s.length.toNat_lt
    rw [s.valid]
    omega
  have hloop := readLoop_done
    (p := { p with
      readCs := .start
      strLength := s.length.toNat
      dataLength := p.dataLength + 1 + 1 })
    .stringLoop true src s.valid.symm hlt
  obtain ⟨b, rest, hb⟩ := List.exists_cons_of_ne_nil hne
  simp only [Str.bytes, List.cons_append, readString, hp, readStringFirst, readStringSecond,
    Option.getD_none]
  rw [hb] at hloop ⊢
  simp only [readStringBody]
  rw [show s.length.hi.toNat * 256 + s.length.lo.toNat = s.length.toNat from rfl, hloop]
  simp only [↓reduceIte, List.length_cons, ReadResult.mk.injEq, Parser.mk.injEq, true_and, and_true]
  omega

theorem readData_done {p : Parser} {payload : Bytes} (src : Bytes) (hp : p.readCs = .start)
    (hlen : p.strLength = payload.length) (hlt : payload.length < 2 ^ 64) (hne : payload ≠ []) :
    readData p none (payload ++ src) = ⟨true, { p with readCs := .start }, payload, src⟩ := by
  have hloop := readLoop_done .dataLoop false src hlen hlt
  obtain ⟨b, payload, rfl⟩ := List.exists_cons_of_ne_nil hne
  simp only [List.cons_append, Bool.false_eq_true, ↓reduceIte] at hloop ⊢
  simp only [readData, hp, readDataBody, Option.getD_none, hloop]

/-- An empty string at the end of the buffer. -/
theorem readString_str_held {p : Parser} {s : Str} (hp : p.readCs = .start) (h : s.text = []) :
    (readString p none s.bytes).done = false := by
  simp only [Str.bytes, h, readString, hp, readStringFirst, readStringSecond, readStringBody]

/-! ## One statement

What the statements that follow make of what a statement leaves, that is what they make together. -/

/-- The parser is done with a message, and a rest of the buffer is left, or it wants to read. -/
def Outcome.Makes (o : Outcome) : Option (Message × Bytes) → Prop
  | some (m, src) => o.state = .ok ∧ o.message = m ∧ o.src = src
  | none => o.state = .wantRead

variable {r : Option (Message × Bytes)} {k : List Stmt} {p : Parser} {m : Message} {src : Bytes}
  {ls : IotcState} {d n : Nat}

theorem exec_yieldOn (hsrc : src ≠ []) (h : (exec k p m src ls).Makes r) :
    (exec (.yieldOn :: k) p m src ls).Makes r := by
  simpa only [exec, hsrc, ↓reduceIte] using h

theorem exec_byte {guard : Message → Bool} {store : UInt8 → Message → Message} {b : UInt8}
    (hp : p.Between d n) (hg : guard m = true)
    (h : ∀ p' : Parser, p'.Between (d + 1) n → (exec k p' (store b m) src ls).Makes r) :
    (exec (.byte guard store :: k) p m (b :: src) ls).Makes r := by
  simp only [exec, hg, ↓reduceIte]
  exact h _ ⟨hp.readCs, by rw [hp.dataLength], hp.remainingLength⟩

theorem exec_byte_skip {guard : Message → Bool} {store : UInt8 → Message → Message}
    (hg : guard m = false) (h : (exec k p m src ls).Makes r) :
    (exec (.byte guard store :: k) p m src ls).Makes r := by
  simpa only [exec, hg, Bool.false_eq_true, ↓reduceIte] using h

theorem exec_allocTopics
    (h : (exec k p { m with topics := [{ name := none, payload := 0 }] } src ls).Makes r) :
    (exec (allocTopics :: k) p m src ls).Makes r := h

theorem exec_status {b : UInt8} (hb : parseSubackResponse b = true)
    (h : ∀ p' : Parser,
      (exec k p' { m with topics := m.topics.modifyHead ({ · with payload := b }) } src .ok).Makes
        r) :
    (exec (.status :: k) p m (b :: src) ls).Makes r := by
  simp only [exec, hb, ↓reduceIte]
  exact h _

theorem exec_string {guard : Message → Bool} {into : StringField} {s : Str}
    (hp : p.Between d n) (hg : guard m = true) (hm : m.field into = none)
    (hs : s.text ≠ [] ∨ src ≠ [])
    (h : ∀ p' : Parser, p'.Between (d + s.bytes.length) n →
      (exec k p' (m.setField s.text into) src .ok).Makes r) :
    (exec (.string guard into :: k) p m (s.bytes ++ src) ls).Makes r := by
  simp only [exec, hg, ↓reduceIte, hm, readString_str s hp.readCs hs, afterRead]
  exact h _ ⟨rfl, by rw [hp.dataLength], hp.remainingLength⟩

theorem exec_string_held {guard : Message → Bool} {into : StringField} {s : Str}
    (hp : p.Between d n) (hg : guard m = true) (hm : m.field into = none) (hs : s.text = []) :
    (exec (.string guard into :: k) p m s.bytes ls).Makes none := by
  simp only [exec, hg, ↓reduceIte, hm, afterRead, readString_str_held hp.readCs hs,
    Bool.false_eq_true, Outcome.Makes]

/-- A string that may be left out. -/
theorem exec_optString {guard : Message → Bool} {into : StringField} {o : Option Str}
    (hp : p.Between d n) (hg : guard m = o.isSome) (hm : m.field into = none)
    (hs : ∀ s, o = some s → s.text ≠ [] ∨ src ≠ [])
    (h : ∀ (p' : Parser) (d' : Nat) (ls' : IotcState), p'.Between d' n →
      (exec k p' (o.elim m fun s => m.setField s.text into) src ls').Makes r) :
    (exec (.string guard into :: k) p m (optBytes o ++ src) ls).Makes r := by
  cases o with
  | none =>
    simp only [exec, show guard m = false from hg, Bool.false_eq_true, ↓reduceIte]
    exact h p d ls hp
  | some s => exact exec_string hp hg hm (hs s rfl) fun p' hp' => h p' _ .ok hp'

/-- The two strings of a will. -/
theorem exec_will {will : Option (Str × Str)} (hp : p.Between d n) (hg : m.will = will.isSome)
    (ht : m.willTopic = none) (hm : m.willMessage = none)
    (hs : ∀ w, will = some w → w.2.text ≠ [] ∨ src ≠ [])
    (h : ∀ (p' : Parser) (d' : Nat) (ls' : IotcState), p'.Between d' n →
      (exec k p' { m with
        willTopic := will.map fun w => w.1.text
        willMessage := will.map fun w => w.2.text } src ls').Makes r) :
    (exec (.string Message.will .willTopic :: .string Message.will .willMessage :: k) p m
      (willBytes will ++ src) ls).Makes r := by
  cases will with
  | none =>
    have hnone : ({ m with willTopic := none, willMessage := none } : Message) = m := by
      cases m
      cases ht
      cases hm
      rfl
    have hq := h p d ls hp
    rw [Option.map_none, Option.map_none, hnone] at hq
    simpa only [exec, willBytes, List.nil_append, show m.will = false from hg, Bool.false_eq_true, ↓reduceIte] using hq
  | some w =>
    rw [willBytes, List.append_assoc]
    refine exec_string hp hg ht (Or.inr (by simp [Str.bytes])) fun p' hp' => ?_
    exact exec_string hp' hg hm (hs w rfl) fun p'' hp'' => h p'' _ .ok hp''

theorem elim_username (hm : m.username = none) (o : Option Str) :
    (o.elim m fun s => m.setField s.text .username) = { m with username := o.map Str.text } := by
  cases o with
  | none => rw [Option.map_none, ← hm, Option.elim_none]
  | some s => rfl

theorem elim_password (hm : m.password = none) (o : Option Str) :
    (o.elim m fun s => m.setField s.text .password) = { m with password := o.map Str.text } := by
  cases o with
  | none => rw [Option.map_none, ← hm, Option.elim_none]
  | some s => rfl

/-- The payload of a PUBLISH. -/
theorem exec_payload {payload : Bytes} (hp : p.Between d n) (hn : n + 2 = d + payload.length)
    (hlt : n + 2 < 2 ^ 64) (hm : m.content = none)
    (h : ∀ (p' : Parser) (ls' : IotcState),
      (exec k p' { m with content := if payload = [] then none else some payload } src ls').Makes
        r) :
    (exec (.strLength :: .data :: k) p m (payload ++ src) ls).Makes r := by
  have hsub : sizeSub (p.remainingLength + 2) p.dataLength = payload.length := by
    rw [hp.remainingLength, hp.dataLength, sizeSub_of_le (by omega) hlt]
    omega
  simp only [exec, hsub]
  by_cases hne : payload = []
  · have hnone : ({ m with content := none } : Message) = m := by rw [← hm]
    have hq := h { p with strLength := 0 } ls
    rw [if_pos hne, hnone] at hq
    subst hne
    simpa only [List.length_nil, gt_iff_lt, lt_irrefl, ↓reduceIte, List.nil_append] using hq
  · have hpos : payload.length > 0 := List.length_pos_iff.mpr hne
    have hdata := readData_done (p := { p with strLength := payload.length }) src hp.readCs rfl
      (by omega) hne
    rw [if_neg hne] at h
    simp only [hpos, ↓reduceIte, hm, hdata, afterRead]
    exact h _ _

/-! ## The branches -/

theorem makes_exit (p : Parser) (m : Message) (src : Bytes) (ls : IotcState) :
    (exec [] p m src ls).Makes (some (m, src)) := ⟨rfl, rfl, rfl⟩

theorem Str.bytes_append_ne_nil (s : Str) (src : Bytes) : s.bytes ++ src ≠ [] := by
  simp [Str.bytes]

theorem exec_connect {f : Frame} {protocolName clientId : Str} {version flags : UInt8}
    {keepalive : Word} {will : Option (Str × Str)} {username password : Option Str}
    (hf : (Content.connect protocolName version flags keepalive clientId will username
      password).Fits f.header) (hp : p.Between d n)
    (h : src ≠ [] ∨ (Content.lastString clientId will username password).text ≠ []) :
    (exec connectStmts p f.header ((Content.connect protocolName version flags keepalive clientId
      will username password).bytes ++ src) ls).Makes
      (some ((Content.connect protocolName version flags keepalive clientId will username
        password).message f.header, src)) := by
  obtain ⟨-, hw, hu, hpw⟩ := hf
  simp only [Content.lastString] at h
  -- each string but the last is followed by the bytes of another
  have hpassword : ∀ s, password = some s → s.text ≠ [] ∨ src ≠ [] := by
    rintro s rfl
    exact h.symm
  have husername : ∀ s, username = some s → s.text ≠ [] ∨ optBytes password ++ src ≠ [] := by
    rintro s rfl
    cases password with
    | none => exact h.symm
    | some t => exact Or.inr (t.bytes_append_ne_nil src)
  have hwill : ∀ w, will = some w →
      w.2.text ≠ [] ∨ optBytes username ++ (optBytes password ++ src) ≠ [] := by
    rintro w rfl
    cases username with
    | none =>
      cases password with
      | none => exact h.symm
      | some t => exact Or.inr (t.bytes_append_ne_nil src)
    | some s => exact Or.inr (s.bytes_append_ne_nil _)
  have hclient : clientId.text ≠ [] ∨
      willBytes will ++ (optBytes username ++ (optBytes password ++ src)) ≠ [] := by
    cases will with
    | none =>
      cases username with
      | none =>
        cases password with
        | none => exact h.symm
        | some t => exact Or.inr (t.bytes_append_ne_nil src)
      | some s => exact Or.inr (s.bytes_append_ne_nil _)
    | some w =>
      right
      rw [willBytes, List.append_assoc]
      exact w.1.bytes_append_ne_nil _
  simp only [Content.bytes, List.append_assoc, List.cons_append, connectStmts]
  refine exec_string hp rfl rfl (Or.inr (by simp)) fun _ hp => ?_
  refine exec_byte hp rfl fun _ hp => exec_byte hp rfl fun _ hp => ?_
  refine exec_byte hp rfl fun _ hp => exec_byte hp rfl fun _ hp => ?_
  refine exec_string hp rfl rfl hclient fun _ hp => ?_
  refine exec_will hp hw.symm rfl rfl hwill fun _ _ _ hp => ?_
  refine exec_optString hp hu.symm rfl husername fun _ _ _ hp => ?_
  rw [elim_username rfl]
  refine exec_optString hp hpw.symm rfl hpassword fun _ _ _ _ => ?_
  rw [elim_password rfl]
  exact makes_exit _ _ _ _

theorem exec_connack {f : Frame} {unused returnCode : UInt8} (hp : p.Between d n) :
    (exec connackStmts p f.header ((Content.connack unused returnCode).bytes ++ src) ls).Makes
      (some ((Content.connack unused returnCode).message f.header, src)) := by
  refine exec_byte hp rfl fun _ hp => exec_byte hp rfl fun _ _ => ?_
  exact makes_exit _ _ _ _

theorem exec_publish {f : Frame} {topic : Str} {id : Option Word} {payload : Bytes}
    (hf : (Content.publish topic id payload).Fits f.header)
    (hn : n = (Content.publish topic id payload).bytes.length) (hlt : n + 2 < 2 ^ 64)
    (hp : p.Between 2 n) (h : src ≠ [] ∨ (Content.publish topic id payload).endsEmpty = false) :
    (exec publishStmts p f.header ((Content.publish topic id payload).bytes ++ src) ls).Makes
      (some ((Content.publish topic id payload).message f.header, src)) := by
  obtain ⟨-, hid⟩ := hf
  have hrest : id.elim [] Word.bytes ++ (payload ++ src) ≠ [] := by
    cases id with
    | none =>
      rcases h with h | h
      · simp [h]
      · simp only [Content.endsEmpty, Bool.and_eq_false_imp, decide_eq_true_eq,
          decide_eq_false_iff_not, true_imp_iff] at h
        simp [h]
    | some w => simp [Word.bytes]
  simp only [Content.bytes, List.append_assoc, publishStmts, List.length_append] at hn ⊢
  refine exec_yieldOn (topic.bytes_append_ne_nil _) ?_
  refine exec_string hp rfl rfl (Or.inr hrest) fun _ hp => ?_
  refine exec_yieldOn hrest ?_
  cases id with
  | none =>
    refine exec_byte_skip hid.symm (exec_byte_skip hid.symm ?_)
    simp only [Option.elim_none, List.nil_append, List.length_nil] at hn ⊢
    refine exec_payload hp (by omega) hlt rfl fun _ _ => ?_
    exact makes_exit _ _ _ _
  | some w =>
    simp only [Option.elim_some, Word.bytes, List.cons_append, List.nil_append, List.length_cons,
      List.length_nil] at hn ⊢
    refine exec_byte hp hid.symm fun _ hp => exec_byte hp hid.symm fun _ hp => ?_
    refine exec_payload hp (by omega) hlt rfl fun _ _ => ?_
    exact makes_exit _ _ _ _

theorem exec_ack {f : Frame} {id : Word} (hp : p.Between d n) :
    (exec [messageIdHi, messageIdLo] p f.header ((Content.ack id).bytes ++ src) ls).Makes
      (some ((Content.ack id).message f.header, src)) := by
  refine exec_byte hp rfl fun _ hp => exec_byte hp rfl fun _ _ => ?_
  exact makes_exit _ _ _ _

/-- Of the topics of a SUBSCRIBE the first is read. -/
theorem exec_subscribe {f : Frame} {id : Word} {topic : Str × UInt8} (hp : p.Between d n) :
    (exec subscribeStmts p f.header
      ((Content.subscribe id topic []).bytes ++ src) ls).Makes
      (some ((Content.subscribe id topic []).message f.header, src)) := by
  simp only [Content.bytes, Word.bytes, List.flatMap_cons, List.flatMap_nil, List.append_nil,
    List.cons_append, List.nil_append, List.append_assoc, subscribeStmts]
  refine exec_byte hp rfl fun _ hp => exec_byte hp rfl fun _ hp => ?_
  refine exec_yieldOn (topic.1.bytes_append_ne_nil _) (exec_allocTopics ?_)
  refine exec_string hp rfl rfl (Or.inr (by simp)) fun _ hp => ?_
  refine exec_byte hp rfl fun _ _ => ?_
  exact makes_exit _ _ _ _

/-- Of the return codes of a SUBACK the first is read. -/
theorem exec_suback {f : Frame} {id : Word} {code : UInt8} (hc : code ∈ Content.subackCodes)
    (hp : p.Between d n) :
    (exec subackStmts p f.header ((Content.suback id code []).bytes ++ src) ls).Makes
      (some ((Content.suback id code []).message f.header, src)) := by
  have hcode : parseSubackResponse code = true := by
    simpa [Content.subackCodes, parseSubackResponse, or_assoc] using hc
  refine exec_byte hp rfl fun _ hp => exec_byte hp rfl fun _ hp => ?_
  refine exec_yieldOn (List.cons_ne_nil code src) (exec_allocTopics ?_)
  refine exec_status hcode fun _ => ?_
  exact makes_exit _ _ _ _

/-! ## An empty field at the end of the buffer -/

theorem exec_connect_held {f : Frame} {protocolName clientId : Str} {version flags : UInt8}
    {keepalive : Word} {will : Option (Str × Str)} {username password : Option Str}
    (hf : (Content.connect protocolName version flags keepalive clientId will username
      password).Fits f.header) (hp : p.Between d n)
    (h : (Content.lastString clientId will username password).text = []) :
    (exec connectStmts p f.header (Content.connect protocolName version flags keepalive clientId
      will username password).bytes ls).Makes none := by
  obtain ⟨-, hw, hu, hpw⟩ := hf
  simp only [Content.bytes, connectStmts]
  refine exec_string hp rfl rfl (Or.inr (by simp)) fun _ hp => ?_
  refine exec_byte hp rfl fun _ hp => exec_byte hp rfl fun _ hp => ?_
  refine exec_byte hp rfl fun _ hp => exec_byte hp rfl fun _ hp => ?_
  cases password with
  | some s =>
    have hs : s.text = [] := h
    have hclient : clientId.text ≠ [] ∨
        willBytes will ++ (optBytes username ++ optBytes (some s)) ≠ [] := by
      simp [optBytes, Str.bytes]
    refine exec_string hp rfl rfl hclient fun _ hp => ?_
    refine exec_will hp hw.symm rfl rfl (fun _ _ => Or.inr (by simp [optBytes, Str.bytes]))
      fun _ _ _ hp => ?_
    refine exec_optString hp hu.symm rfl (fun _ _ => Or.inr (by simp [optBytes, Str.bytes]))
      fun _ _ _ hp => ?_
    rw [elim_username rfl]
    exact exec_string_held hp hpw.symm rfl hs
  | none =>
    cases username with
    | some s =>
      have hs : s.text = [] := h
      have hclient : clientId.text ≠ [] ∨ willBytes will ++ s.bytes ≠ [] := by simp [Str.bytes]
      simp only [optBytes, List.append_nil]
      refine exec_string hp rfl rfl hclient fun _ hp => ?_
      refine exec_will hp hw.symm rfl rfl (fun _ _ => Or.inr (by simp [Str.bytes]))
        fun _ _ _ hp => ?_
      exact exec_string_held hp hu.symm rfl hs
    | none =>
      simp only [optBytes, List.append_nil]
      cases will with
      | some w =>
        have hs : w.2.text = [] := h
        simp only [willBytes]
        refine exec_string hp rfl rfl (Or.inr (by simp [Str.bytes])) fun _ hp => ?_
        refine exec_string hp hw.symm rfl (Or.inr (by simp [Str.bytes])) fun _ hp => ?_
        exact exec_string_held hp hw.symm rfl hs
      | none =>
        simp only [willBytes, List.append_nil]
        exact exec_string_held hp rfl rfl h

theorem exec_publish_held {f : Frame} {topic : Str} (hp : p.Between d n) :
    (exec publishStmts p f.header (Content.publish topic none []).bytes ls).Makes none := by
  simp only [Content.bytes, Option.elim_none, List.append_nil, publishStmts]
  refine exec_yieldOn (by simp [Str.bytes]) ?_
  by_cases ht : topic.text = []
  · exact exec_string_held hp rfl rfl ht
  · rw [← List.append_nil topic.bytes]
    exact exec_string hp rfl rfl (Or.inl ht) fun _ _ => rfl

/-! ## Packets -/

theorem Frame.bytes_append (f : Frame) (src : Bytes) :
    f.bytes ++ src = f.first :: (f.lengthBytes ++ (f.body ++ src)) := by
  simp only [Frame.bytes, List.cons_append, List.append_assoc]

theorem Frame.bytes_ne_nil (f : Frame) : f.bytes ≠ [] := List.cons_ne_nil _ _

theorem Frame.length_lt (f : Frame) : f.body.length + 2 < 2 ^ 64 := by
  have := decodeLength_lt 4 f.lengthBytes f.body.length f.valid
  omega

/-- Of a packet the parser reads the first topic or return code. -/
theorem execute_firstOnly (p : Packet) (src : Bytes) (ls : IotcState)
    (hu : p.header.type ≠ .unsubscribe) (ha : p.header.type ≠ .unsuback)
    (h : src ≠ [] ∨ p.content.endsEmpty = false) :
    (execute parserInit {} (p.bytes ++ src) ls).Makes
      (some (p.content.firstOnly.message p.header, p.content.furtherBytes ++ src)) := by
  obtain ⟨f, content, hbody, hfits⟩ := p
  obtain ⟨q, hq, heq⟩ := execute_header f
  have hlt := f.length_lt
  rw [f.bytes_append, heq]
  simp only at hu ha h ⊢
  cases content with
  | connect name version flags keepalive clientId will username password =>
    rw [hfits.1, hbody]
    refine exec_connect hfits hq ?_
    simpa only [Content.endsEmpty, decide_eq_false_iff_not] using h
  | connack unused returnCode =>
    rw [show f.header.type = _ from hfits, hbody]
    exact exec_connack hq
  | publish topic id payload =>
    rw [hfits.1]
    simp only [hbody] at hq hlt ⊢
    exact exec_publish hfits rfl hlt hq h
  | ack id =>
    rw [hbody]
    rcases hfits with ht | ht | ht | ht | ht
    · rw [ht]
      exact exec_ack hq
    · rw [ht]
      exact exec_ack hq
    · rw [ht]
      exact exec_ack hq
    · rw [ht]
      exact exec_ack hq
    · exact absurd ht ha
  | subscribe id topic more =>
    rw [show f.header.type = _ from hfits, hbody]
    have hbytes : (Content.subscribe id topic more).bytes ++ src =
        (Content.subscribe id topic []).bytes ++
          ((Content.subscribe id topic more).furtherBytes ++ src) := by
      simp only [Content.bytes, Content.furtherBytes, List.flatMap_cons, List.flatMap_nil,
        List.append_nil, List.append_assoc]
    rw [hbytes]
    exact exec_subscribe hq
  | suback id code more =>
    rw [hfits.1, hbody]
    have hbytes : (Content.suback id code more).bytes ++ src =
        (Content.suback id code []).bytes ++
          ((Content.suback id code more).furtherBytes ++ src) := by
      simp only [Content.bytes, Content.furtherBytes, List.append_assoc, List.cons_append,
        List.nil_append]
    rw [hbytes]
    exact exec_suback (hfits.2 code (by simp)) hq
  | unsubscribe id topic more => exact absurd hfits hu
  | empty =>
    rw [hbody]
    rcases hfits with ht | ht | ht
    · rw [ht]
      exact makes_exit _ _ _ _
    · rw [ht]
      exact makes_exit _ _ _ _
    · rw [ht]
      exact makes_exit _ _ _ _

theorem Content.firstOnly_of_single {c : Content} (h : c.single = true) :
    c.firstOnly = c ∧ c.furtherBytes = [] := by
  cases c with
  | subscribe id topic more =>
    have hm : more = [] := by simpa [Content.single] using h
    exact ⟨by rw [hm]; rfl, by rw [hm]; rfl⟩
  | suback id code more =>
    have hm : more = [] := by simpa [Content.single] using h
    exact ⟨by rw [hm]; rfl, by rw [hm]; rfl⟩
  | _ => exact ⟨rfl, rfl⟩

/-- With more than one topic or return code there are further bytes, and the message is another. -/
theorem Content.not_single {c : Content} (h : c.single = false) :
    c.endsEmpty = false ∧ c.furtherBytes ≠ [] ∧ ∀ m, c.firstOnly.message m ≠ c.message m := by
  cases c with
  | subscribe id topic more =>
    obtain ⟨t, more, rfl⟩ := List.exists_cons_of_ne_nil (l := more) (by simpa [Content.single] using h)
    refine ⟨rfl, by simp [Content.furtherBytes], fun m hm => ?_⟩
    have := congrArg (fun m => m.topics.length) hm
    simp [Content.firstOnly, Content.message] at this
  | suback id code more =>
    obtain ⟨t, more, rfl⟩ := List.exists_cons_of_ne_nil (l := more) (by simpa [Content.single] using h)
    refine ⟨rfl, by simp [Content.furtherBytes], fun m hm => ?_⟩
    have := congrArg (fun m => m.topics.length) hm
    simp [Content.firstOnly, Content.message] at this
  | _ => cases h

/-- **The parser takes exactly the bytes of a packet off the buffer, and makes its message.** -/
theorem execute_packet {p : Packet} (hp : p.parsed = true) (src : Bytes) (ls : IotcState)
    (h : src ≠ [] ∨ p.content.endsEmpty = false) :
    (execute parserInit {} (p.bytes ++ src) ls).Makes (some (p.message, src)) := by
  simp only [Packet.parsed, Bool.and_eq_true, decide_eq_true_eq] at hp
  obtain ⟨⟨hs, hu⟩, ha⟩ := hp
  obtain ⟨hfirst, hfurther⟩ := Content.firstOnly_of_single hs
  have hexec := execute_firstOnly p src ls hu ha h
  rw [hfirst, hfurther] at hexec
  exact hexec

/-- A packet that ends with an empty field is not done at the end of the buffer. -/
theorem execute_held (p : Packet) (ls : IotcState) (h : p.content.endsEmpty = true) :
    (execute parserInit {} p.bytes ls).Makes none := by
  obtain ⟨f, content, hbody, hfits⟩ := p
  obtain ⟨q, hq, heq⟩ := execute_header f
  simp only at h ⊢
  rw [Frame.bytes, heq, hbody]
  cases content with
  | connect name version flags keepalive clientId will username password =>
    rw [hfits.1]
    refine exec_connect_held hfits hq ?_
    simpa only [Content.endsEmpty, decide_eq_true_eq] using h
  | publish topic id payload =>
    rw [hfits.1]
    simp only [Content.endsEmpty, Bool.and_eq_true, decide_eq_true_eq] at h
    obtain ⟨rfl, rfl⟩ := h
    exact exec_publish_held hq
  | _ => cases h

/-- Without its last bytes a packet is not done. -/
theorem execute_prefix {p : Packet} (hp : p.parsed = true) {xs ys : Bytes} (ls : IotcState)
    (h : p.bytes = xs ++ ys) (hy : ys ≠ []) : (execute parserInit {} xs ls).state = .wantRead := by
  have hall := execute_packet hp [0] ls (Or.inl (by simp))
  rw [h, List.append_assoc, execute_append parserInit {} xs ls (by simp), Outcome.andThen] at hall
  by_contra hne
  rw [if_neg hne] at hall
  have hlen := congrArg List.length hall.2.2
  have hpos := List.length_pos_iff.mpr hy
  simp only [List.length_append, List.length_singleton] at hlen
  omega

/-! ## What the parser rejects -/

/-- The parser has no branch for the type. -/
theorem execute_noBranch {f : Frame} (h : stmts f.header.type = none) (src : Bytes)
    (ls : IotcState) :
    (execute parserInit {} (f.first :: (f.lengthBytes ++ src)) ls).state = .mqttParserError := by
  obtain ⟨q, -, heq⟩ := execute_header f
  rw [heq, h]

/-- The first return code of a SUBACK is not one. -/
theorem execute_subackCode {f : Frame} {id : Word} {code : UInt8} {more : Bytes}
    (ht : f.header.type = .suback) (hbody : f.body = id.hi :: id.lo :: code :: more)
    (hc : code ∉ Content.subackCodes) (src : Bytes) (ls : IotcState) :
    (execute parserInit {} (f.bytes ++ src) ls).state = .mqttParserError := by
  obtain ⟨q, hq, heq⟩ := execute_header f
  have hcode : parseSubackResponse code = false := by
    simpa [Content.subackCodes, parseSubackResponse, and_assoc] using hc
  rw [f.bytes_append, heq, ht, hbody]
  simp only [stmts, subackStmts, messageIdHi, messageIdLo, allocTopics, exec, List.cons_append,
    ↓reduceIte, reduceCtorEq, hcode, Bool.false_eq_true]

/-- Four bytes of the remaining length all say that another follows. -/
theorem execute_length {b b₁ b₂ b₃ b₄ : UInt8} (h₁ : b₁ ≥ 0x80) (h₂ : b₂ ≥ 0x80) (h₃ : b₃ ≥ 0x80)
    (h₄ : b₄ ≥ 0x80) (src : Bytes) (ls : IotcState) :
    (execute parserInit {} (b :: b₁ :: b₂ :: b₃ :: b₄ :: src) ls).state = .mqttParserError := by
  simp [execute, parserInit, firstByte, lengthLoop, h₁, h₂, h₃, h₄]

end IotDeviceSdk.Mqtt
