import IotDeviceSdk.Mqtt.ParserSplit
import IotDeviceSdk.Mqtt.Codec.Layer
import IotDeviceSdk.Infra.Run

/-!
# Pull, call by call

`pull_eq` is the code of `iotc_mqtt_codec_layer_pull` without the bound on its recursion, and
`pull_append` says that a buffer may come in two pieces. From it, `feedAll_eq`: what a stream does
to the layer does not depend on how it is cut into buffers.
-/

namespace IotDeviceSdk.Mqtt

/-! ## The parser does not add to its buffer -/

theorem readLoop_src_le (label : ReadCs) (counts : Bool) (p : Parser) (dst src : Bytes) :
    (readLoop label counts p dst src).src.length ≤ src.length := by
  simp only [readLoop]
  split <;> simp

theorem readStringBody_src_le (p : Parser) (dst src : Bytes) :
    (readStringBody p dst src).src.length ≤ src.length := by
  cases src with
  | nil => exact le_refl _
  | cons b src => exact readLoop_src_le _ _ _ _ _

theorem readStringSecond_src_le (p : Parser) (dst src : Bytes) :
    (readStringSecond p dst src).src.length ≤ src.length := by
  cases src with
  | nil => exact le_refl _
  | cons b src => exact (readStringBody_src_le _ _ src).trans (Nat.le_succ _)

theorem readString_src_le (p : Parser) (dst : Option Bytes) (src : Bytes) :
    (readString p dst src).src.length ≤ src.length := by
  have hfirst : (readStringFirst p (dst.getD []) src).src.length ≤ src.length := by
    cases src with
    | nil => exact le_refl _
    | cons b src => exact (readStringSecond_src_le _ _ src).trans (Nat.le_succ _)
  unfold readString
  cases p.readCs with
  | stringSecond => exact readStringSecond_src_le _ _ _
  | stringBody => exact readLoop_src_le _ _ _ _ _
  | stringLoop => exact readLoop_src_le _ _ _ _ _
  | _ => exact hfirst

theorem readData_src_le (p : Parser) (dst : Option Bytes) (src : Bytes) :
    (readData p dst src).src.length ≤ src.length := by
  have hbody : (readDataBody p (dst.getD []) src).src.length ≤ src.length := by
    cases src with
    | nil => exact le_refl _
    | cons b src => exact readLoop_src_le _ _ _ _ _
  unfold readData
  cases p.readCs with
  | dataBody => exact readLoop_src_le _ _ _ _ _
  | dataLoop => exact readLoop_src_le _ _ _ _ _
  | _ => exact hbody

theorem afterRead_src_le {next : Parser → Message → Bytes → IotcState → Outcome}
    {here : List Stmt} {m : Message} {r : ReadResult} {n : Nat}
    (hnext : ∀ p m src ls, (next p m src ls).src.length ≤ src.length) (hr : r.src.length ≤ n) :
    (afterRead next here m r).src.length ≤ n := by
  unfold afterRead
  split
  · exact (hnext _ _ _ _).trans hr
  · exact hr

theorem exec_src_le : ∀ (k : List Stmt) (p : Parser) (m : Message) (src : Bytes) (ls : IotcState),
    (exec k p m src ls).src.length ≤ src.length
  | [], _, _, _, _ => le_refl _
  | .yieldOn :: k, p, m, src, ls => by
    simp only [exec]
    split
    · exact le_refl _
    · exact exec_src_le k p m src ls
  | .byte guard store :: k, p, m, src, ls => by
    simp only [exec]
    split
    · cases src with
      | nil => exact le_refl _
      | cons b src => exact (exec_src_le k _ _ src ls).trans (Nat.le_succ _)
    · exact exec_src_le k p m src ls
  | .string guard into :: k, p, m, src, ls => by
    simp only [exec]
    split
    · exact afterRead_src_le (exec_src_le k) (readString_src_le _ _ _)
    · exact exec_src_le k p m src ls
  | .set f :: k, p, m, src, ls => exec_src_le k p (f m) src ls
  | .strLength :: k, p, m, src, ls => exec_src_le k _ m src ls
  | .data :: k, p, m, src, ls => by
    simp only [exec]
    split
    · exact afterRead_src_le (exec_src_le k) (readData_src_le _ _ _)
    · exact exec_src_le k p m src ls
  | .status :: k, p, m, src, ls => by
    cases src with
    | nil => exact le_refl _
    | cons b src =>
      simp only [exec]
      split
      · exact (exec_src_le k _ _ src _).trans (Nat.le_succ _)
      · exact le_refl _

theorem resume_src_le (k : List Stmt) (p : Parser) (m : Message) (src : Bytes) (ls : IotcState) :
    (resume k p m src ls).src.length ≤ src.length := by
  cases k with
  | nil => exact exec_src_le [] p m src ls
  | cons stmt k =>
    cases stmt with
    | yieldOn => exact exec_src_le k p m src ls
    | string guard into =>
      simp only [resume]
      split
      · exact exec_src_le k p m src ls
      · exact afterRead_src_le (exec_src_le k) (readString_src_le _ _ _)
    | data =>
      simp only [resume]
      split
      · exact exec_src_le k p m src ls
      · exact afterRead_src_le (exec_src_le k) (readData_src_le _ _ _)
    | byte guard store => exact exec_src_le (.byte guard store :: k) p m src ls
    | set f => exact exec_src_le (.set f :: k) p m src ls
    | strLength => exact exec_src_le (.strLength :: k) p m src ls
    | status => exact exec_src_le (.status :: k) p m src ls

theorem afterLength_src_le (p : Parser) (m : Message) (src : Bytes) (ls : IotcState) :
    (afterLength p m src ls).src.length ≤ src.length := by
  simp only [afterLength]
  split
  · exact exec_src_le _ _ _ _ _
  · exact le_refl _

theorem lengthLoop_src_le : ∀ (src : Bytes) (p : Parser) (m : Message) (ls : IotcState),
    (lengthLoop p m src ls).src.length ≤ src.length
  | [], _, _, _ => le_refl _
  | b :: src, p, m, ls => by
    simp only [lengthLoop]
    split
    · exact (lengthLoop_src_le src _ m ls).trans (Nat.le_succ _)
    · split
      · exact le_refl _
      · exact (afterLength_src_le _ _ src ls).trans (Nat.le_succ _)

theorem firstByte_src_lt (p : Parser) (m : Message) {src : Bytes} (ls : IotcState)
    (h : src ≠ []) : (firstByte p m src ls).src.length < src.length := by
  obtain ⟨b, src, rfl⟩ := List.exists_cons_of_ne_nil h
  exact Nat.lt_succ_of_le (lengthLoop_src_le src _ _ ls)

theorem execute_src_le (p : Parser) (m : Message) (src : Bytes) (ls : IotcState) :
    (execute p m src ls).src.length ≤ src.length := by
  have hfirst : ∀ ls, (firstByte p m src ls).src.length ≤ src.length := by
    intro ls
    cases src with
    | nil => exact le_refl _
    | cons b src => exact (firstByte_src_lt p m ls (List.cons_ne_nil b src)).le
  unfold execute
  cases p.cs with
  | start => exact hfirst _
  | commonValue => exact hfirst _
  | remainingLength => exact lengthLoop_src_le src p m ls
  | body k => exact resume_src_le k p m src ls
  | exit => exact hfirst _

end IotDeviceSdk.Mqtt

namespace IotDeviceSdk.Mqtt.Codec

open Infra

/-! ## The bound is no bound -/

/-- How often pull may call itself. -/
def bound (c : Layer) (buffer : Bytes) : Nat :=
  match c.data.pullCs with
  | .idle => buffer.length + 1
  | .parsing _ => buffer.length + 2

theorem bound_le (c : Layer) (buffer : Bytes) : bound c buffer ≤ buffer.length + 2 := by
  unfold bound
  split <;> omega

/-- What is left of a buffer after a packet needs less. -/
theorem bound_parsed_lt (c : Layer) (ls : IotcState) {buffer : Bytes} (h : buffer ≠ []) :
    bound (c.parsed (parse c.data ls buffer) .idle) (parse c.data ls buffer).src <
      bound c buffer := by
  have hidle : bound (c.parsed (parse c.data ls buffer) .idle) (parse c.data ls buffer).src =
      (parse c.data ls buffer).src.length + 1 := rfl
  rw [hidle]
  unfold bound parse
  cases hcs : c.data.pullCs with
  | idle =>
    have := firstByte_src_lt parserInit {} .ok h
    have he : execute parserInit {} buffer ls = firstByte parserInit {} buffer .ok := rfl
    simp only [he]
    omega
  | parsing msg =>
    have := execute_src_le c.data.parser msg buffer ls
    simp only
    omega

theorem pullFuel_eq : ∀ (n m : Nat) (c : Layer) (ls : IotcState) (buffer : Bytes)
    (inOutState : IotcState), buffer ≠ [] → bound c buffer ≤ n → bound c buffer ≤ m →
    pullFuel n c ls buffer inOutState = pullFuel m c ls buffer inOutState
  | 0, m, c, ls, buffer, s, _, hn, _ => by
    exfalso
    unfold bound at hn
    split at hn <;> omega
  | n + 1, 0, c, ls, buffer, s, _, _, hm => by
    exfalso
    unfold bound at hm
    split at hm <;> omega
  | n + 1, m + 1, c, ls, buffer, s, hb, hn, hm => by
    have hlt := bound_parsed_lt c ls hb
    simp only [pullFuel]
    split
    · rfl
    · split
      · rfl
      · split
        · rfl
        · split
          · rfl
          · next hsrc =>
            rw [pullFuel_eq n m _ _ _ s hsrc (Nat.le_of_lt_succ (hlt.trans_le hn))
              (Nat.le_of_lt_succ (hlt.trans_le hm))]
        · rfl

/-- `iotc_mqtt_codec_layer_pull` as the source has it. -/
theorem pull_eq (c : Layer) (ls : IotcState) {buffer : Bytes} (inOutState : IotcState)
    (hb : buffer ≠ []) :
    pull c ls buffer inOutState =
      if c.layerState.notOperational then ⟨c, ls, [], 1⟩
      else if inOutState ≠ .ok then pullErrHandling c ls inOutState
      else
        let o := parse c.data ls buffer
        match o.state with
        | .wantRead => ⟨c.parsed o (.parsing o.message), o.localState, [], 1⟩
        | .ok =>
          if o.src = [] then ⟨c.parsed o .idle, o.localState, [.pullNext o.message .ok], 1⟩
          else
            let r := pull (c.parsed o .idle) o.localState o.src inOutState
            { r with calls := .pullNext o.message .ok :: r.calls }
        | _ => pullErrHandling (c.parsed o .idle) o.localState inOutState := by
  have hlt := bound_parsed_lt c ls hb
  unfold pull
  rw [pullFuel]
  split
  · rfl
  · split
    · rfl
    · simp only
      cases (parse c.data ls buffer).state with
      | ok =>
        simp only
        split
        · rfl
        · next hsrc =>
          rw [pullFuel_eq _ _ _ _ _ inOutState hsrc
            (Nat.le_of_lt_succ (hlt.trans_le (bound_le c buffer))) (bound_le _ _)]
      | _ => rfl

/-! ## Two pieces -/

theorem parse_append (d : LayerData) (ls : IotcState) (xs : Bytes) {ys : Bytes} (hy : ys ≠ []) :
    parse d ls (xs ++ ys) = (parse d ls xs).andThen ys := by
  unfold parse
  split
  · exact execute_append _ _ xs ls hy
  · exact execute_append _ _ xs ls hy

/-- A layer that is connected or is no longer operational: after an error it takes nothing more. -/
def Settled (c : Layer) : Prop := c.layerState = .connected ∨ c.layerState.notOperational = true

theorem pull_notOperational {c : Layer} (h : c.layerState.notOperational = true) (ls : IotcState)
    (buffer : Bytes) (s : IotcState) : pull c ls buffer s = ⟨c, ls, [], 1⟩ := by
  simp [pull, pullFuel, h]

theorem pull_settled {c : Layer} (hc : Settled c) : ∀ (n : Nat) (ls : IotcState) (buffer : Bytes)
    (s : IotcState), Settled (pullFuel n c ls buffer s).layer := by
  intro n
  induction n generalizing c with
  | zero => exact fun _ _ _ => hc
  | succ n ih =>
    intro ls buffer s
    have herr : ∀ c' : Layer, c'.layerState = c.layerState → ∀ ls,
        Settled (pullErrHandling c' ls s).layer := by
      intro c' hc' ls
      right
      rcases hc with h | h
      · simp [pullErrHandling, hc', h, LayerState.afterClose, LayerState.notOperational]
      · have : c.layerState.afterClose = c.layerState := by
          cases hl : c.layerState <;> simp_all [LayerState.afterClose, LayerState.notOperational]
        simpa [pullErrHandling, hc', this] using h
    simp only [pullFuel]
    split
    · exact hc
    · split
      · exact herr c rfl ls
      · split
        · exact hc
        · split
          · exact hc
          · exact ih (c := c.parsed _ .idle) hc _ _ _
        · exact herr (c.parsed _ .idle) rfl (parse c.data ls buffer).localState

/-- An error closes a settled layer for good. -/
theorem feed_pullErrHandling {c : Layer} (hc : Settled c) (ls s : IotcState) (ys : Bytes) :
    pull (pullErrHandling c ls s).layer (pullErrHandling c ls s).localState ys .ok =
      ⟨(pullErrHandling c ls s).layer, (pullErrHandling c ls s).localState, [], 1⟩ := by
  refine pull_notOperational ?_ _ ys .ok
  rcases hc with h | h
  · simp [pullErrHandling, h, LayerState.afterClose, LayerState.notOperational]
  · have : c.layerState.afterClose = c.layerState := by
      cases hl : c.layerState <;> simp_all [LayerState.afterClose, LayerState.notOperational]
    simpa [pullErrHandling, this] using h

/-- What a call of pull and one with more bytes make together. -/
def PullResult.andThen (r : PullResult) (ys : Bytes) : PullResult :=
  let r' := pull r.layer r.localState ys .ok
  { r' with calls := r.calls ++ r'.calls }

/-- **A buffer may come in two pieces.** -/
theorem pull_append : ∀ (n : Nat) (c : Layer) (ls : IotcState) (xs ys : Bytes), Settled c →
    xs ≠ [] → ys ≠ [] → bound c xs ≤ n → pull c ls (xs ++ ys) .ok = (pull c ls xs .ok).andThen ys
  | 0, c, ls, xs, ys, _, _, _, hn => by
    exfalso
    unfold bound at hn
    split at hn <;> omega
  | n + 1, c, ls, xs, ys, hc, hx, hy, hn => by
    cases hop : c.layerState.notOperational with
    | true =>
      simp only [pull_notOperational hop, PullResult.andThen, List.append_nil]
    | false =>
      have hxy : xs ++ ys ≠ [] := by simp [hx]
      have hlt := bound_parsed_lt c ls hx
      rw [pull_eq c ls .ok hx, pull_eq c ls .ok hxy, parse_append c.data ls xs hy]
      simp only [hop, Bool.false_eq_true, ↓reduceIte, ne_eq, not_true_eq_false]
      cases hs : (parse c.data ls xs).state with
      | wantRead =>
        -- the packet goes on in the second piece
        simp only [Outcome.andThen, hs, ↓reduceIte, PullResult.andThen]
        have hop' : (c.parsed (parse c.data ls xs)
            (.parsing (parse c.data ls xs).message)).layerState.notOperational = false := hop
        rw [pull_eq _ _ .ok hy]
        simp only [hop', Bool.false_eq_true, ↓reduceIte, ne_eq, not_true_eq_false, List.nil_append]
        rfl
      | ok =>
        simp only [Outcome.andThen, hs, reduceCtorEq, ↓reduceIte]
        have hsrc : (parse c.data ls xs).src ++ ys ≠ [] := by simp [hy]
        simp only [hsrc, ↓reduceIte]
        split
        · next hnil =>
          -- the packet ends with the first piece
          simp only [hnil, List.nil_append, PullResult.andThen, Layer.parsed, hs,
            List.singleton_append]
        · next hne =>
          have ih := pull_append n (c.parsed (parse c.data ls xs) .idle)
            (parse c.data ls xs).localState (parse c.data ls xs).src ys hc hne hy
            (Nat.le_of_lt_succ (hlt.trans_le hn))
          simp only [PullResult.andThen, Layer.parsed, hs] at ih ⊢
          rw [ih]
          simp only [List.cons_append]
      | _ =>
        simp only [Outcome.andThen, hs, reduceCtorEq, ↓reduceIte]
        have herr := feed_pullErrHandling (c := c.parsed (parse c.data ls xs) .idle) hc
          (parse c.data ls xs).localState .ok ys
        simp only [PullResult.andThen, herr, List.append_nil]
        simp only [pullErrHandling, Layer.parsed, hs]

/-! ## Streams -/

/-- A settled layer with the static state and the calls that it has made. -/
structure Fed where
  layer : Layer
  settled : Settled layer
  localState : IotcState
  calls : List LayerCall

/-- The layer when it has just been connected. -/
def Fed.connected : Fed := ⟨connectedLayer, Or.inl rfl, .ok, []⟩

/-- Pull on one more buffer. -/
def feed (f : Fed) (buffer : Bytes) : Fed where
  layer := (pull f.layer f.localState buffer .ok).layer
  settled := pull_settled f.settled _ _ _ _
  localState := (pull f.layer f.localState buffer .ok).localState
  calls := f.calls ++ (pull f.layer f.localState buffer .ok).calls

theorem splitFree_feed : SplitFree feed := by
  intro f xs ys hx hy
  have h := pull_append _ f.layer f.localState xs ys f.settled hx hy (le_refl _)
  simp only [PullResult.andThen] at h
  simp only [feed, h, List.append_assoc]

/-- **What a stream does to the layer does not depend on how it is cut into buffers.** -/
theorem feedAll_eq {buffers : List Bytes} (f : Fed) (h : buffers ≠ [])
    (hne : ∀ b ∈ buffers, b ≠ []) : buffers.foldl feed f = feed f buffers.flatten :=
  splitFree_feed.foldl_eq_feed buffers f h hne

/-- Every buffer is freed once. -/
theorem pull_freed : ∀ (n : Nat) (c : Layer) (ls : IotcState) (buffer : Bytes) (s : IotcState),
    buffer ≠ [] → bound c buffer ≤ n → (pullFuel n c ls buffer s).freed = 1
  | 0, c, ls, buffer, s, _, hn => by
    exfalso
    unfold bound at hn
    split at hn <;> omega
  | n + 1, c, ls, buffer, s, hb, hn => by
    have hlt := bound_parsed_lt c ls hb
    simp only [pullFuel]
    split
    · rfl
    · split
      · rfl
      · split
        · rfl
        · split
          · rfl
          · next hsrc => exact pull_freed n _ _ _ s hsrc (Nat.le_of_lt_succ (hlt.trans_le hn))
        · rfl

end IotDeviceSdk.Mqtt.Codec
