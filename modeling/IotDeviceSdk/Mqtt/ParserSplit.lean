import Mathlib.Tactic.Linarith
import IotDeviceSdk.Mqtt.Parser

/-!
# The parser does not see where a buffer ends

`execute_append`: to parse a buffer in two pieces is to parse it in one. Each statement has its
lemma: what it does with the first piece, when that is enough, it does with the whole; when it is
not, it yields and does the rest with the second piece.
-/

namespace IotDeviceSdk.Mqtt

/-! ## read_string and read_data -/

theorem sizeSub_add {a b k : Nat} (h : k ≤ sizeSub a b) : sizeSub a (b + k) = sizeSub a b - k := by
  unfold sizeSub at *
  omega

@[simp] theorem field_setField (m : Message) (f : StringField) (bytes : Bytes) :
    (m.setField bytes f).field f = some bytes := by
  cases f <;> rfl

@[simp] theorem setField_setField (m : Message) (f : StringField) (bytes bytes' : Bytes) :
    (m.setField bytes f).setField bytes' f = m.setField bytes' f := by
  cases f <;> rfl

/-- What a call with more bytes makes of a call that ended with its buffer. -/
def ReadResult.andThen (r : ReadResult) (read : Parser → Bytes → Bytes → ReadResult) (ys : Bytes) :
    ReadResult :=
  if r.done then { r with src := r.src ++ ys } else read r.parser r.dst ys

theorem readLoop_append (label : ReadCs) (counts : Bool) (p : Parser) (dst xs ys : Bytes) :
    readLoop label counts p dst (xs ++ ys) =
      (readLoop label counts p dst xs).andThen (readLoop label counts) ys := by
  unfold ReadResult.andThen
  by_cases h : sizeSub p.strLength dst.length ≤ xs.length
  · have hx : min (sizeSub p.strLength dst.length) xs.length = sizeSub p.strLength dst.length :=
      min_eq_left h
    have hxy : min (sizeSub p.strLength dst.length) (xs ++ ys).length =
        sizeSub p.strLength dst.length :=
      min_eq_left (by rw [List.length_append]; omega)
    simp only [readLoop, hx, hxy, Nat.sub_self, gt_iff_lt, lt_irrefl, ↓reduceIte,
      List.take_append_of_le_length h, List.drop_append_of_le_length h]
  · have hx : min (sizeSub p.strLength dst.length) xs.length = xs.length := by omega
    have hpos : sizeSub p.strLength dst.length - xs.length > 0 := by omega
    have hsub : sizeSub p.strLength (dst ++ xs).length =
        sizeSub p.strLength dst.length - xs.length := by
      rw [List.length_append]
      exact sizeSub_add (by omega)
    have hmin : min (sizeSub p.strLength dst.length) (xs ++ ys).length =
        xs.length + min (sizeSub p.strLength dst.length - xs.length) ys.length := by
      rw [List.length_append]
      omega
    simp only [readLoop, hx, hpos, ↓reduceIte, List.take_length, List.drop_length, hsub, hmin,
      Nat.sub_sub, List.take_append, List.drop_append, Nat.add_sub_cancel_left,
      List.take_of_length_le (Nat.le_add_right _ _), List.drop_eq_nil_of_le (Nat.le_add_right _ _),
      List.nil_append, List.append_assoc, Bool.false_eq_true]
    cases counts <;> simp [Nat.add_assoc]

/-- A loop that is not done yielded at its label. -/
theorem readLoop_readCs {label : ReadCs} {counts : Bool} {p : Parser} {dst src : Bytes}
    (h : ¬ (readLoop label counts p dst src).done = true) :
    (readLoop label counts p dst src).parser.readCs = label := by
  by_cases hc : sizeSub p.strLength dst.length -
      min (sizeSub p.strLength dst.length) src.length > 0
  · simp only [readLoop, hc, ↓reduceIte]
  · simp only [readLoop, hc, ↓reduceIte, not_true_eq_false] at h

theorem readStringBody_append (p : Parser) (dst xs : Bytes) {ys : Bytes} (hy : ys ≠ []) :
    readStringBody p dst (xs ++ ys) =
      (readStringBody p dst xs).andThen (fun p dst ys => readString p (some dst) ys) ys := by
  cases xs with
  | nil =>
    obtain ⟨b, src, rfl⟩ := List.exists_cons_of_ne_nil hy
    rfl
  | cons b xs =>
    show readLoop .stringLoop true p dst ((b :: xs) ++ ys) = _
    rw [readLoop_append]
    show _ = (readLoop .stringLoop true p dst (b :: xs)).andThen _ ys
    unfold ReadResult.andThen
    split
    · rfl
    · next hd =>
      simp only [readString, readLoop_readCs hd, Option.getD_some]

theorem readStringSecond_append (p : Parser) (dst xs : Bytes) {ys : Bytes} (hy : ys ≠ []) :
    readStringSecond p dst (xs ++ ys) =
      (readStringSecond p dst xs).andThen (fun p dst ys => readString p (some dst) ys) ys := by
  cases xs with
  | nil =>
    obtain ⟨b, src, rfl⟩ := List.exists_cons_of_ne_nil hy
    cases src <;> rfl
  | cons b xs => exact readStringBody_append _ dst xs hy

theorem readStringFirst_append (p : Parser) (dst xs : Bytes) {ys : Bytes} (hy : ys ≠ []) :
    readStringFirst p dst (xs ++ ys) =
      (readStringFirst p dst xs).andThen (fun p dst ys => readString p (some dst) ys) ys := by
  cases xs with
  | nil =>
    obtain ⟨b, src, rfl⟩ := List.exists_cons_of_ne_nil hy
    rcases src with _ | ⟨c, _ | ⟨d, src⟩⟩ <;> rfl
  | cons b xs => exact readStringSecond_append _ dst xs hy

theorem readString_append (p : Parser) (dst : Option Bytes) (xs : Bytes) {ys : Bytes}
    (hy : ys ≠ []) :
    readString p dst (xs ++ ys) =
      (readString p dst xs).andThen (fun p dst ys => readString p (some dst) ys) ys := by
  have hloop : readLoop .stringLoop true p (dst.getD []) (xs ++ ys) =
      (readLoop .stringLoop true p (dst.getD []) xs).andThen
        (fun p dst ys => readString p (some dst) ys) ys := by
    rw [readLoop_append]
    unfold ReadResult.andThen
    split
    · rfl
    · next hd =>
      simp only [readString, readLoop_readCs hd, Option.getD_some]
  unfold readString
  cases p.readCs with
  | stringSecond => exact readStringSecond_append p _ xs hy
  | stringBody => exact hloop
  | stringLoop => exact hloop
  | _ => exact readStringFirst_append p _ xs hy

theorem readData_append (p : Parser) (dst : Option Bytes) (xs : Bytes) {ys : Bytes}
    (hy : ys ≠ []) :
    readData p dst (xs ++ ys) =
      (readData p dst xs).andThen (fun p dst ys => readData p (some dst) ys) ys := by
  have hloop : ∀ zs, readLoop .dataLoop false p (dst.getD []) (zs ++ ys) =
      (readLoop .dataLoop false p (dst.getD []) zs).andThen
        (fun p dst ys => readData p (some dst) ys) ys := by
    intro zs
    rw [readLoop_append]
    unfold ReadResult.andThen
    split
    · rfl
    · next hd =>
      simp only [readData, readLoop_readCs hd, Option.getD_some]
  have hbody : readDataBody p (dst.getD []) (xs ++ ys) =
      (readDataBody p (dst.getD []) xs).andThen
        (fun p dst ys => readData p (some dst) ys) ys := by
    cases xs with
    | nil =>
      obtain ⟨b, src, rfl⟩ := List.exists_cons_of_ne_nil hy
      rfl
    | cons b xs => exact hloop (b :: xs)
  unfold readData
  cases p.readCs with
  | dataBody => exact hloop xs
  | dataLoop => exact hloop xs
  | _ => exact hbody

/-! ## What does not depend on cs -/

/-- A result with another `cs`. -/
def ReadResult.withCs (r : ReadResult) (c : Cs) : ReadResult :=
  { r with parser := { r.parser with cs := c } }

theorem readLoop_cs (label : ReadCs) (counts : Bool) (p : Parser) (c : Cs) (dst src : Bytes) :
    readLoop label counts { p with cs := c } dst src =
      (readLoop label counts p dst src).withCs c := by
  by_cases hc : sizeSub p.strLength dst.length -
      min (sizeSub p.strLength dst.length) src.length > 0
  · simp only [readLoop, hc, ↓reduceIte, ReadResult.withCs]
  · simp only [readLoop, hc, ↓reduceIte, ReadResult.withCs]

theorem readStringBody_cs (p : Parser) (c : Cs) (dst src : Bytes) :
    readStringBody { p with cs := c } dst src = (readStringBody p dst src).withCs c := by
  cases src with
  | nil => rfl
  | cons b src => exact readLoop_cs _ _ p c dst (b :: src)

theorem readStringSecond_cs (p : Parser) (c : Cs) (dst src : Bytes) :
    readStringSecond { p with cs := c } dst src = (readStringSecond p dst src).withCs c := by
  cases src with
  | nil => rfl
  | cons b src =>
    exact readStringBody_cs
      { p with strLength := p.strLength + b.toNat, dataLength := p.dataLength + 1 } c dst src

theorem readStringFirst_cs (p : Parser) (c : Cs) (dst src : Bytes) :
    readStringFirst { p with cs := c } dst src = (readStringFirst p dst src).withCs c := by
  cases src with
  | nil => rfl
  | cons b src =>
    exact readStringSecond_cs
      { p with strLength := b.toNat * 256, dataLength := p.dataLength + 1 } c dst src

theorem readString_cs (p : Parser) (c : Cs) (dst : Option Bytes) (src : Bytes) :
    readString { p with cs := c } dst src = (readString p dst src).withCs c := by
  unfold readString
  cases p.readCs with
  | stringSecond => exact readStringSecond_cs p c _ src
  | stringBody => exact readLoop_cs _ _ p c _ src
  | stringLoop => exact readLoop_cs _ _ p c _ src
  | _ => exact readStringFirst_cs p c _ src

theorem readData_cs (p : Parser) (c : Cs) (dst : Option Bytes) (src : Bytes) :
    readData { p with cs := c } dst src = (readData p dst src).withCs c := by
  have hbody : readDataBody { p with cs := c } (dst.getD []) src =
      (readDataBody p (dst.getD []) src).withCs c := by
    cases src with
    | nil => rfl
    | cons b src => exact readLoop_cs _ _ p c _ (b :: src)
  unfold readData
  cases p.readCs with
  | dataBody => exact readLoop_cs _ _ p c _ src
  | dataLoop => exact readLoop_cs _ _ p c _ src
  | _ => exact hbody

theorem afterRead_cs {next : Parser → Message → Bytes → IotcState → Outcome}
    (hnext : ∀ p c m src ls, next { p with cs := c } m src ls = next p m src ls)
    (here : List Stmt) (m : Message) (r : ReadResult) (c : Cs) :
    afterRead next here m (r.withCs c) = afterRead next here m r := by
  unfold afterRead
  cases hd : r.done with
  | true => simp only [ReadResult.withCs, hd, ↓reduceIte, hnext]
  | false => simp only [ReadResult.withCs, hd, Bool.false_eq_true, ↓reduceIte]

/-- Where the parser was is of no matter for what it does next. -/
theorem exec_cs : ∀ (k : List Stmt) (p : Parser) (c : Cs) (m : Message) (src : Bytes)
    (ls : IotcState), exec k { p with cs := c } m src ls = exec k p m src ls
  | [], p, c, m, src, ls => rfl
  | .yieldOn :: k, p, c, m, src, ls => by
    simp only [exec, exec_cs k p c m src ls]
  | .byte guard store :: k, p, c, m, src, ls => by
    cases src with
    | nil => simp only [exec, exec_cs k p c]
    | cons b src =>
      simp only [exec, exec_cs k p c]
      rw [show ({ p with cs := c, dataLength := p.dataLength + 1 } : Parser) =
        { { p with dataLength := p.dataLength + 1 } with cs := c } from rfl, exec_cs k]
  | .string guard into :: k, p, c, m, src, ls => by
    simp only [exec, exec_cs k p c, readString_cs]
    rw [show ((readString p (m.field into) src).withCs c).dst =
      (readString p (m.field into) src).dst from rfl, afterRead_cs (fun p c => exec_cs k p c)]
  | .set f :: k, p, c, m, src, ls => exec_cs k p c (f m) src ls
  | .strLength :: k, p, c, m, src, ls => by
    simp only [exec]
    exact exec_cs k { p with strLength := sizeSub (p.remainingLength + 2) p.dataLength } c m src ls
  | .data :: k, p, c, m, src, ls => by
    simp only [exec, exec_cs k p c, readData_cs]
    rw [show ((readData p m.content src).withCs c).dst =
      (readData p m.content src).dst from rfl, afterRead_cs (fun p c => exec_cs k p c)]
  | .status :: k, p, c, m, src, ls => by
    cases src with
    | nil => rfl
    | cons b src =>
      simp only [exec]
      rw [show ({ p with cs := c, dataLength := p.dataLength + 1 } : Parser) =
        { { p with dataLength := p.dataLength + 1 } with cs := c } from rfl, exec_cs k]

theorem lengthLoop_cs : ∀ (src : Bytes) (p : Parser) (c : Cs) (m : Message) (ls : IotcState),
    lengthLoop { p with cs := c } m src ls = lengthLoop p m src ls
  | [], p, c, m, ls => rfl
  | b :: src, p, c, m, ls => by
    simp only [lengthLoop]
    split
    · exact lengthLoop_cs src { p with
        remainingLength := p.remainingLength + b.toNat % 128 * p.multiplier
        multiplier := p.multiplier * 128
        digitBytes := p.digitBytes + 1 } c m ls
    · split
      · rfl
      · simp only [afterLength]
        split
        · exact exec_cs _ { p with
            remainingLength := p.remainingLength + b.toNat % 128 * p.multiplier
            multiplier := p.multiplier * 128
            dataLength := p.dataLength + 1 } c _ src ls
        · rfl

/-! ## The coroutine -/

/-- What a call with more bytes makes of a call that ended with its buffer. -/
def Outcome.andThen (o : Outcome) (ys : Bytes) : Outcome :=
  if o.state = .wantRead then execute o.parser o.message ys o.localState
  else { o with src := o.src ++ ys }

/-- `READ_STRING` and `READ_DATA` go on behind the macro or are resumed in it. -/
theorem afterRead_append {next : Parser → Message → Bytes → IotcState → Outcome}
    {here : List Stmt} {m m' : Message} {r r' : ReadResult} {ys : Bytes}
    (hdone : r.done = true → m' = m ∧ r' = { r with src := r.src ++ ys } ∧
      next r.parser m (r.src ++ ys) .ok = (next r.parser m r.src .ok).andThen ys)
    (hwant : r.done = false → afterRead next here m' r' =
      execute { r.parser with cs := .body here } m ys .wantRead) :
    afterRead next here m' r' = (afterRead next here m r).andThen ys := by
  cases hd : r.done with
  | true =>
    obtain ⟨rfl, rfl, h⟩ := hdone hd
    simp only [afterRead, hd, ↓reduceIte, h]
  | false =>
    rw [hwant hd]
    simp only [afterRead, hd, Bool.false_eq_true, ↓reduceIte, Outcome.andThen]

theorem readStringStmt_append {k : List Stmt} {guard : Message → Bool} {into : StringField}
    {p : Parser} {m : Message} {xs ys : Bytes}
    (hk : ∀ p m xs ls, exec k p m (xs ++ ys) ls = (exec k p m xs ls).andThen ys) (hy : ys ≠ []) :
    afterRead (exec k) (.string guard into :: k)
        (m.setField (readString p (m.field into) (xs ++ ys)).dst into)
        (readString p (m.field into) (xs ++ ys)) =
      (afterRead (exec k) (.string guard into :: k)
        (m.setField (readString p (m.field into) xs).dst into)
        (readString p (m.field into) xs)).andThen ys := by
  have happ := readString_append p (m.field into) xs hy
  refine afterRead_append (fun hd => ?_) (fun hd => ?_)
  · have hr : readString p (m.field into) (xs ++ ys) =
        { readString p (m.field into) xs with
          src := (readString p (m.field into) xs).src ++ ys } := by
      rw [happ, ReadResult.andThen, if_pos hd]
    exact ⟨by rw [hr], hr, hk _ _ _ _⟩
  · have hr : readString p (m.field into) (xs ++ ys) =
        readString (readString p (m.field into) xs).parser
          (some (readString p (m.field into) xs).dst) ys := by
      rw [happ, ReadResult.andThen, if_neg (by rw [hd]; exact Bool.false_ne_true)]
    simp only [execute, resume, reduceCtorEq, ↓reduceIte, field_setField, setField_setField,
      readString_cs]
    rw [hr]
    exact (afterRead_cs (fun p c => exec_cs k p c) _ _ _ _).symm

theorem readDataStmt_append {k : List Stmt} {p : Parser} {m : Message} {xs ys : Bytes}
    (hk : ∀ p m xs ls, exec k p m (xs ++ ys) ls = (exec k p m xs ls).andThen ys) (hy : ys ≠ []) :
    afterRead (exec k) (.data :: k) { m with content := some (readData p m.content (xs ++ ys)).dst }
        (readData p m.content (xs ++ ys)) =
      (afterRead (exec k) (.data :: k) { m with content := some (readData p m.content xs).dst }
        (readData p m.content xs)).andThen ys := by
  have happ := readData_append p m.content xs hy
  refine afterRead_append (fun hd => ?_) (fun hd => ?_)
  · have hr : readData p m.content (xs ++ ys) =
        { readData p m.content xs with src := (readData p m.content xs).src ++ ys } := by
      rw [happ, ReadResult.andThen, if_pos hd]
    exact ⟨by rw [hr], hr, hk _ _ _ _⟩
  · have hr : readData p m.content (xs ++ ys) =
        readData (readData p m.content xs).parser (some (readData p m.content xs).dst) ys := by
      rw [happ, ReadResult.andThen, if_neg (by rw [hd]; exact Bool.false_ne_true)]
    simp only [execute, resume, reduceCtorEq, ↓reduceIte, readData_cs]
    rw [hr]
    exact (afterRead_cs (fun p c => exec_cs k p c) _ _ _ _).symm

theorem exec_append : ∀ (k : List Stmt) (p : Parser) (m : Message) (xs : Bytes) {ys : Bytes}
    (ls : IotcState), ys ≠ [] →
    exec k p m (xs ++ ys) ls = (exec k p m xs ls).andThen ys
  | [], p, m, xs, ys, ls, _ => rfl
  | .yieldOn :: k, p, m, xs, ys, ls, hy => by
    cases xs with
    | nil =>
      simp only [List.nil_append, exec, hy, ↓reduceIte, Outcome.andThen, execute, resume, exec_cs]
    | cons x xs =>
      simp only [exec, List.cons_append, reduceCtorEq, ↓reduceIte]
      exact exec_append k p m (x :: xs) ls hy
  | .byte guard store :: k, p, m, xs, ys, ls, hy => by
    cases hg : guard m with
    | false =>
      simp only [exec, hg, Bool.false_eq_true, ↓reduceIte]
      exact exec_append k p m xs ls hy
    | true =>
      cases xs with
      | nil =>
        have hcs := exec_cs (.byte guard store :: k) p (.body (.byte guard store :: k)) m ys ls
        simp only [List.nil_append, Outcome.andThen, execute, resume]
        rw [← hcs]
        simp only [exec, hg, ↓reduceIte]
      | cons x xs =>
        simp only [exec, hg, List.cons_append, ↓reduceIte]
        exact exec_append k _ _ xs ls hy
  | .string guard into :: k, p, m, xs, ys, ls, hy => by
    cases hg : guard m with
    | false =>
      simp only [exec, hg, Bool.false_eq_true, ↓reduceIte]
      exact exec_append k p m xs ls hy
    | true =>
      simp only [exec, hg, ↓reduceIte]
      exact readStringStmt_append (fun p m xs ls => exec_append k p m xs ls hy) hy
  | .set f :: k, p, m, xs, ys, ls, hy => exec_append k p (f m) xs ls hy
  | .strLength :: k, p, m, xs, ys, ls, hy => exec_append k _ m xs ls hy
  | .data :: k, p, m, xs, ys, ls, hy => by
    by_cases hg : p.strLength > 0
    · simp only [exec, hg, ↓reduceIte]
      exact readDataStmt_append (fun p m xs ls => exec_append k p m xs ls hy) hy
    · simp only [exec, hg, ↓reduceIte]
      exact exec_append k p m xs ls hy
  | .status :: k, p, m, xs, ys, ls, hy => by
    cases xs with
    | nil =>
      have hcs := exec_cs (.status :: k) p (.body (.status :: k)) m ys ls
      simp only [List.nil_append, Outcome.andThen, execute, resume]
      rw [← hcs]
      simp only [exec, ↓reduceIte]
    | cons x xs =>
      cases hx : parseSubackResponse x with
      | true =>
        simp only [exec, hx, List.cons_append, ↓reduceIte]
        exact exec_append k _ _ xs _ hy
      | false =>
        simp only [exec, hx, List.cons_append, Bool.false_eq_true, ↓reduceIte, Outcome.andThen,
          reduceCtorEq]

theorem afterLength_append (p : Parser) (m : Message) (xs : Bytes) {ys : Bytes} (ls : IotcState)
    (hy : ys ≠ []) :
    afterLength p m (xs ++ ys) ls = (afterLength p m xs ls).andThen ys := by
  simp only [afterLength]
  split
  · exact exec_append _ _ _ xs ls hy
  · rfl

theorem lengthLoop_append : ∀ (xs : Bytes) (p : Parser) (m : Message) {ys : Bytes} (ls : IotcState),
    ys ≠ [] → lengthLoop p m (xs ++ ys) ls = (lengthLoop p m xs ls).andThen ys
  | [], p, m, ys, ls, _ => (lengthLoop_cs ys p .remainingLength m ls).symm
  | b :: xs, p, m, ys, ls, hy => by
    simp only [lengthLoop, List.cons_append]
    split
    · exact lengthLoop_append xs _ m ls hy
    · split
      · rfl
      · exact afterLength_append _ m xs ls hy

theorem firstByte_append (p : Parser) (m : Message) (xs : Bytes) {ys : Bytes} (ls : IotcState)
    (hy : ys ≠ []) :
    firstByte p m (xs ++ ys) ls = (firstByte p m xs ls).andThen ys := by
  cases xs with
  | nil =>
    obtain ⟨b, src, rfl⟩ := List.exists_cons_of_ne_nil hy
    exact (lengthLoop_cs src { p with
      digitBytes := 1, multiplier := 1, remainingLength := 0, dataLength := 1 } .commonValue
      { m with commonValue := b } ls).symm
  | cons b xs => exact lengthLoop_append xs _ _ ls hy

theorem resume_append (k : List Stmt) (p : Parser) (m : Message) (xs : Bytes) {ys : Bytes}
    (ls : IotcState) (hy : ys ≠ []) :
    resume k p m (xs ++ ys) ls = (resume k p m xs ls).andThen ys := by
  cases k with
  | nil => exact exec_append [] p m xs ls hy
  | cons stmt k =>
    cases stmt with
    | yieldOn => exact exec_append k p m xs ls hy
    | string guard into =>
      by_cases hls : ls = .ok
      · simp only [resume, hls, ↓reduceIte]
        exact exec_append k p m xs .ok hy
      · simp only [resume, hls, ↓reduceIte]
        exact readStringStmt_append (fun p m xs ls => exec_append k p m xs ls hy) hy
    | data =>
      by_cases hls : ls = .ok
      · simp only [resume, hls, ↓reduceIte]
        exact exec_append k p m xs .ok hy
      · simp only [resume, hls, ↓reduceIte]
        exact readDataStmt_append (fun p m xs ls => exec_append k p m xs ls hy) hy
    | byte guard store => exact exec_append (.byte guard store :: k) p m xs ls hy
    | set f => exact exec_append (.set f :: k) p m xs ls hy
    | strLength => exact exec_append (.strLength :: k) p m xs ls hy
    | status => exact exec_append (.status :: k) p m xs ls hy

/-- **To parse a buffer in two pieces is to parse it in one**, wherever the parser is. -/
theorem execute_append (p : Parser) (m : Message) (xs : Bytes) {ys : Bytes} (ls : IotcState)
    (hy : ys ≠ []) :
    execute p m (xs ++ ys) ls = (execute p m xs ls).andThen ys := by
  unfold execute
  cases p.cs with
  | start => exact firstByte_append p m xs .ok hy
  | commonValue => exact firstByte_append p m xs ls hy
  | remainingLength => exact lengthLoop_append xs p m ls hy
  | body k => exact resume_append k p m xs ls hy
  | exit => exact firstByte_append p m xs .ok hy

end IotDeviceSdk.Mqtt
