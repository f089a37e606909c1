import IotDeviceSdk.Base
import Mathlib.Data.Nat.Digits.Lemmas
import Mathlib.Tactic.IntervalCases

/-!
# JSON texts

A text is a list of bytes, which are UTF-8. `Json.parse` reads one value, with white space around it.
The parser of values has fuel: a value that is nested in another is shorter.

* `readString` reads a string up to its closing quote. A text that is `Plain` is read as it stands, and
  `readString_raw` says that no other text is.
* `decimal` is how an integer is written, and `readNumber_decimal` that it is read so.
-/

namespace IotDeviceSdk.Infra

/-- A value. Numbers are as they are written. -/
inductive Json where
  | null
  | bool (b : Bool)
  | number (text : Bytes)
  | string (text : Bytes)
  | array (elements : List Json)
  | object (members : List (Bytes × Json))

namespace Json

/-! ## UTF-8 -/

/-- What is expected next in a sequence of bytes: the first byte of a character, so many more of them, or a
second byte in a range of its own. -/
inductive Utf8 where
  | start
  | tail1
  | tail2
  | tail3
  | afterE0
  | afterED
  | afterF0
  | afterF4
  deriving DecidableEq, Repr

/-- The first byte of a character. -/
def Utf8.first (b : UInt8) : Option Utf8 :=
  if b < 0x80 then some .start
  else if 0xC2 ≤ b ∧ b ≤ 0xDF then some .tail1
  else if b = 0xE0 then some .afterE0
  else if b = 0xED then some .afterED
  else if 0xE1 ≤ b ∧ b ≤ 0xEF then some .tail2
  else if b = 0xF0 then some .afterF0
  else if 0xF1 ≤ b ∧ b ≤ 0xF3 then some .tail3
  else if b = 0xF4 then some .afterF4
  else none

/-- A byte in a range, and what comes after it. -/
def Utf8.within (lo hi b : UInt8) (u : Utf8) : Option Utf8 := if lo ≤ b ∧ b ≤ hi then some u else none

def Utf8.next (u : Utf8) (b : UInt8) : Option Utf8 :=
  match u with
  | .start => Utf8.first b
  | .tail1 => Utf8.within 0x80 0xBF b .start
  | .tail2 => Utf8.within 0x80 0xBF b .tail1
  | .tail3 => Utf8.within 0x80 0xBF b .tail2
  | .afterE0 => Utf8.within 0xA0 0xBF b .tail1
  | .afterED => Utf8.within 0x80 0x9F b .tail1
  | .afterF0 => Utf8.within 0x90 0xBF b .tail2
  | .afterF4 => Utf8.within 0x80 0x8F b .tail2

/-! ## Strings -/

/-- `"` -/
abbrev quote : UInt8 := 34

/-- `\` -/
abbrev backslash : UInt8 := 92

/-- A byte of a string that stands for itself. -/
def plainByte (u : Utf8) (b : UInt8) : Option Utf8 :=
  if u = .start ∧ (b = quote ∨ b = backslash ∨ b < 0x20) then none else u.next b

/-- A text that a string contains as it stands: UTF-8 without quotes, backslashes and control
characters. -/
def plainFrom (u : Utf8) : Bytes → Bool
  | [] => u = .start
  | b :: s => (plainByte u b).elim false fun u => plainFrom u s

/-- **The text of a string that needs no escapes.** -/
def Plain (s : Bytes) : Prop := plainFrom .start s = true

instance (s : Bytes) : Decidable (Plain s) := inferInstanceAs (Decidable (_ = true))

def hexDigit (b : UInt8) : Option Nat :=
  if 48 ≤ b ∧ b ≤ 57 then some (b.toNat - 48)
  else if 65 ≤ b ∧ b ≤ 70 then some (b.toNat - 55)
  else if 97 ≤ b ∧ b ≤ 102 then some (b.toNat - 87)
  else none

def hex4 (a b c d : UInt8) : Option Nat :=
  (hexDigit a).bind fun a => (hexDigit b).bind fun b => (hexDigit c).bind fun c => (hexDigit d).map fun d =>
    ((a * 16 + b) * 16 + c) * 16 + d

/-- The bytes of a code point. A surrogate that stands alone is the replacement character. -/
def codePoint (n : Nat) : Bytes :=
  if n.isValidChar then String.utf8EncodeChar (Char.ofNat n) else [0xEF, 0xBF, 0xBD]

/-- The character of an escape that is one letter. -/
def escapeLetter (b : UInt8) : Option UInt8 :=
  if b = quote ∨ b = backslash ∨ b = 47 then some b
  else if b = 98 then some 8
  else if b = 102 then some 12
  else if b = 110 then some 10
  else if b = 114 then some 13
  else if b = 116 then some 9
  else none

/-- `\uXXXX`, from the digits on. A pair of surrogates is one character. -/
def escapeUnicode : Bytes → Option (Bytes × Bytes)
  | a :: b :: c :: d :: s => (hex4 a b c d).bind fun high =>
    match s with
    | 92 :: 117 :: e :: f :: g :: h :: rest =>
      if 0xD800 ≤ high ∧ high < 0xDC00 then (hex4 e f g h).map fun low =>
        if 0xDC00 ≤ low ∧ low < 0xE000 then
          (codePoint (0x10000 + (high - 0xD800) * 0x400 + (low - 0xDC00)), rest)
        else (codePoint high, s)
      else some (codePoint high, s)
    | _ => some (codePoint high, s)
  | _ => none

/-- What follows a backslash: the bytes that it stands for, and the rest. -/
def escape : Bytes → Option (Bytes × Bytes)
  | [] => none
  | b :: s => if b = 117 then escapeUnicode s else (escapeLetter b).map fun c => ([c], s)

/-- A string, from its opening quote on: its text, and what follows the closing quote. -/
def readString : Nat → Utf8 → Bytes → Option (Bytes × Bytes)
  | 0, _, _ => none
  | _ + 1, _, [] => none
  | n + 1, u, b :: s =>
    if u = .start ∧ b = quote then some ([], s)
    else if u = .start ∧ b = backslash then
      (escape s).bind fun e => (readString n .start e.2).map fun r => (e.1 ++ r.1, r.2)
    else (plainByte u b).bind fun u => (readString n u s).map fun r => (b :: r.1, r.2)

/-! ## Numbers -/

def isDigit (b : UInt8) : Bool := 48 ≤ b ∧ b ≤ 57

/-- One digit or more. -/
def digits (s : Bytes) : Option Bytes :=
  if s.takeWhile isDigit = [] then none else some (s.dropWhile isDigit)

def minus : Bytes → Bytes
  | 45 :: s => s
  | s => s

/-- The digits before the point, without a leading zero. -/
def integer : Bytes → Option Bytes
  | 48 :: s => some s
  | s => digits s

def fraction : Bytes → Option Bytes
  | 46 :: s => digits s
  | s => some s

def sign : Bytes → Bytes
  | 43 :: s => s
  | 45 :: s => s
  | s => s

def exponent : Bytes → Option Bytes
  | 101 :: s => digits (sign s)
  | 69 :: s => digits (sign s)
  | s => some s

/-- A number, and what follows it. -/
def readNumber (s : Bytes) : Option (Bytes × Bytes) :=
  (((integer (minus s)).bind fraction).bind exponent).map fun r => (s.take (s.length - r.length), r)

/-! ## Values -/

/-- White space is left out. -/
def skip (s : Bytes) : Bytes := s.dropWhile fun b => b = 32 ∨ b = 9 ∨ b = 10 ∨ b = 13

/-- A literal name. -/
def literal (name : Bytes) (v : Json) (s : Bytes) : Option (Json × Bytes) :=
  if name.isPrefixOf s then some (v, s.drop name.length) else none

mutual

/-- A value, and what follows it. -/
def readValue : Nat → Bytes → Option (Json × Bytes)
  | 0, _ => none
  | n + 1, s =>
    match skip s with
    | 34 :: s => (readString (s.length + 1) .start s).map fun r => (.string r.1, r.2)
    | 123 :: s =>
      match skip s with
      | 125 :: s => some (.object [], s)
      | s => (readMembers n s).map fun r => (.object r.1, r.2)
    | 91 :: s =>
      match skip s with
      | 93 :: s => some (.array [], s)
      | s => (readElements n s).map fun r => (.array r.1, r.2)
    | 116 :: s => literal [114, 117, 101] (.bool true) s
    | 102 :: s => literal [97, 108, 115, 101] (.bool false) s
    | 110 :: s => literal [117, 108, 108] .null s
    | s => (readNumber s).map fun r => (.number r.1, r.2)

/-- The members of an object, from the first name on. -/
def readMembers : Nat → Bytes → Option (List (Bytes × Json) × Bytes)
  | 0, _ => none
  | n + 1, s =>
    match skip s with
    | 34 :: s => (readString (s.length + 1) .start s).bind fun name =>
      match skip name.2 with
      | 58 :: s => (readValue n s).bind fun v =>
        match skip v.2 with
        | 44 :: s => (readMembers n s).map fun r => ((name.1, v.1) :: r.1, r.2)
        | 125 :: s => some ([(name.1, v.1)], s)
        | _ => none
      | _ => none
    | _ => none

/-- The elements of an array. -/
def readElements : Nat → Bytes → Option (List Json × Bytes)
  | 0, _ => none
  | n + 1, s => (readValue n s).bind fun v =>
    match skip v.2 with
    | 44 :: s => (readElements n s).map fun r => (v.1 :: r.1, r.2)
    | 93 :: s => some ([v.1], s)
    | _ => none

end

/-- **The value of a text.** -/
def parse (s : Bytes) : Option Json :=
  (readValue (s.length + 1) s).bind fun r => if skip r.2 = [] then some r.1 else none

/-! ## Strings that are read -/

variable {n : Nat} {u : Utf8} {s t r : Bytes} {b : UInt8}

theorem plainFrom_cons :
    plainFrom u (b :: s) = true ↔ ∃ v, plainByte u b = some v ∧ plainFrom v s = true := by
  rw [plainFrom]
  cases plainByte u b <;> simp

theorem plainByte_eq_some {v : Utf8} (h : plainByte u b = some v) :
    ¬(u = .start ∧ b = quote) ∧ ¬(u = .start ∧ b = backslash) := by
  unfold plainByte at h
  split at h
  · cases h
  next hnot =>
    constructor
    · rintro ⟨hu, hb⟩
      exact hnot ⟨hu, .inl hb⟩
    · rintro ⟨hu, hb⟩
      exact hnot ⟨hu, .inr (.inl hb)⟩

/-- A text that needs no escapes is read as it stands. -/
theorem readString_plain (h : plainFrom u t = true) (hn : t.length < n) :
    readString n u (t ++ quote :: s) = some (t, s) := by
  induction t generalizing n u with
  | nil =>
    obtain ⟨n, rfl⟩ := Nat.exists_eq_succ_of_ne_zero (Nat.ne_of_gt hn)
    have hu : u = .start := by simpa [plainFrom] using h
    rw [List.nil_append, readString, if_pos ⟨hu, rfl⟩]
  | cons b t ih =>
    obtain ⟨n, rfl⟩ := Nat.exists_eq_succ_of_ne_zero (Nat.ne_zero_of_lt hn)
    obtain ⟨v, hv, ht⟩ := plainFrom_cons.1 h
    obtain ⟨hquote, hbackslash⟩ := plainByte_eq_some hv
    rw [List.cons_append, readString, if_neg hquote, if_neg hbackslash, hv, Option.bind_some,
      ih ht (Nat.lt_of_succ_lt_succ hn), Option.map_some]

theorem length_codePoint_le (n : Nat) : (codePoint n).length ≤ 4 := by
  unfold codePoint
  split
  · rw [String.length_utf8EncodeChar]
    exact Char.utf8Size_le_four _
  · decide

/-- An escape is longer than what it stands for. -/
theorem escapeUnicode_raw (h : escapeUnicode s = some (t, r)) :
    ∃ raw, s = raw ++ r ∧ t.length ≤ raw.length := by
  unfold escapeUnicode at h
  split at h
  next a b c d s =>
    replace h := Option.bind_eq_some_iff.mp h
    obtain ⟨high, -, h⟩ := h
    split at h
    next e f g i rest =>
      split at h
      · obtain ⟨low, -, h⟩ := Option.map_eq_some_iff.mp h
        split at h
        · obtain ⟨rfl, rfl⟩ := Prod.mk.inj h
          exact ⟨[a, b, c, d, 92, 117, e, f, g, i], rfl,
            Nat.le_trans (length_codePoint_le _) (by simp)⟩
        · obtain ⟨rfl, rfl⟩ := Prod.mk.inj h
          exact ⟨[a, b, c, d], rfl, length_codePoint_le _⟩
      · cases h
        exact ⟨[a, b, c, d], rfl, length_codePoint_le _⟩
    · cases h
      exact ⟨[a, b, c, d], rfl, length_codePoint_le _⟩
  · cases h

theorem escape_raw (h : escape s = some (t, r)) : ∃ raw, s = raw ++ r ∧ t.length ≤ raw.length := by
  unfold escape at h
  split at h
  · cases h
  next b s =>
    split at h
    · obtain ⟨raw, rfl, hlen⟩ := escapeUnicode_raw h
      exact ⟨b :: raw, rfl, Nat.le_succ_of_le hlen⟩
    · obtain ⟨c, -, h⟩ := Option.map_eq_some_iff.mp h
      cases h
      exact ⟨[b], rfl, Nat.le_refl 1⟩

/-- **What is read**: a text as it stands, or with escapes and then shorter than it is written. -/
theorem readString_raw (h : readString n u s = some (t, r)) :
    ∃ raw, s = raw ++ quote :: r ∧ (t.length < raw.length ∨ t = raw ∧ plainFrom u raw = true) := by
  induction n generalizing u s t with
  | zero => cases h
  | succ n ih =>
    cases s with
    | nil => cases h
    | cons b s =>
      rw [readString] at h
      split at h
      next hquote =>
        cases h
        exact ⟨[], by rw [hquote.2]; rfl, .inr ⟨rfl, by simp [plainFrom, hquote.1]⟩⟩
      next =>
        split at h
        next hbackslash =>
          obtain ⟨⟨out, rest⟩, hescape, h⟩ := Option.bind_eq_some_iff.mp h
          obtain ⟨⟨t', r'⟩, hstring, h⟩ := Option.map_eq_some_iff.mp h
          cases h
          obtain ⟨raw, rfl, hout⟩ := escape_raw hescape
          obtain ⟨raw', rfl, hlen⟩ := ih hstring
          refine ⟨b :: raw ++ raw', by simp, .inl ?_⟩
          have ht' : t'.length ≤ raw'.length := by
            rcases hlen with hlt | ⟨rfl, -⟩
            · exact Nat.le_of_lt hlt
            · exact Nat.le_refl _
          simp only [List.length_append, List.length_cons]
          omega
        next =>
          obtain ⟨v, hv, h⟩ := Option.bind_eq_some_iff.mp h
          obtain ⟨⟨t', r'⟩, hstring, h⟩ := Option.map_eq_some_iff.mp h
          cases h
          obtain ⟨raw, rfl, hlen⟩ := ih hstring
          refine ⟨b :: raw, rfl, ?_⟩
          rcases hlen with hlt | ⟨rfl, hplain⟩
          · exact .inl (Nat.succ_lt_succ hlt)
          · exact .inr ⟨rfl, plainFrom_cons.2 ⟨v, hv, hplain⟩⟩

/-- A string that is read to its end is shorter than the text, or as it stands in it. -/
theorem readString_eq_self {x rest : Bytes} (h : readString n .start x = some (t, r)) (hr : r ≠ [])
    (hx : x <+: t ++ quote :: rest) (hrest : rest.length = 1) : x = t ++ quote :: rest ∧ Plain t := by
  obtain ⟨raw, rfl, hlen⟩ := readString_raw h
  have hle := hx.length_le
  have hpos := List.length_pos_iff.mpr hr
  simp only [List.length_append, List.length_cons] at hle
  rcases hlen with hlt | ⟨rfl, hplain⟩
  · omega
  · refine ⟨hx.eq_of_length ?_, hplain⟩
    simp only [List.length_append, List.length_cons]
    omega

/-! ## Integers -/

/-- The digits of a number. -/
def natDigits (n : Nat) : Bytes :=
  if n = 0 then [48] else (Nat.digits 10 n).reverse.map fun d => UInt8.ofNat (48 + d)

/-- **How an integer is written.** -/
def decimal : Int → Bytes
  | .ofNat n => natDigits n
  | .negSucc n => 45 :: natDigits (n + 1)

theorem isDigit_ofNat {d : Nat} (h : d < 10) : isDigit (UInt8.ofNat (48 + d)) = true := by
  interval_cases d <;> rfl

theorem natDigits_isDigit (n : Nat) : ∀ b ∈ natDigits n, isDigit b = true := by
  intro b hb
  unfold natDigits at hb
  split at hb
  · obtain rfl := List.mem_singleton.mp hb
    rfl
  · obtain ⟨d, hd, rfl⟩ := List.mem_map.mp hb
    exact isDigit_ofNat (Nat.digits_lt_base (by decide) (List.mem_reverse.mp hd))

/-- The first digit is not a zero, unless it is the only one. -/
theorem natDigits_cases (n : Nat) : natDigits n = [48] ∨
    ∃ b ds, natDigits n = b :: ds ∧ b ≠ 48 ∧ isDigit b = true := by
  by_cases hn : n = 0
  · exact .inl (if_pos hn)
  · have hne : Nat.digits 10 n ≠ [] := Nat.digits_ne_nil_iff_ne_zero.2 hn
    refine .inr ⟨UInt8.ofNat (48 + (Nat.digits 10 n).getLast hne),
      ((Nat.digits 10 n).dropLast.reverse.map fun d => UInt8.ofNat (48 + d)), ?_, ?_, ?_⟩
    · unfold natDigits
      rw [if_neg hn]
      conv => lhs; rw [← List.dropLast_append_getLast hne]
      simp
    · have hlast := Nat.getLast_digit_ne_zero 10 hn
      have hlt := Nat.digits_lt_base (by decide) (List.getLast_mem hne)
      generalize (Nat.digits 10 n).getLast hne = d at hlast hlt
      interval_cases d <;> simp_all
    · exact isDigit_ofNat (Nat.digits_lt_base (by decide) (List.getLast_mem hne))

/-- Digits are read to their end. -/
theorem digits_append {ds : Bytes} (hne : ds ≠ []) (hds : ∀ b ∈ ds, isDigit b = true)
    (hb : isDigit b = false) : digits (ds ++ b :: s) = some (b :: s) := by
  have htake : (ds ++ b :: s).takeWhile isDigit = ds := by
    rw [List.takeWhile_append_of_pos hds, List.takeWhile_cons_of_neg (by simp [hb]), List.append_nil]
  have hdrop : (ds ++ b :: s).dropWhile isDigit = b :: s := by
    rw [List.dropWhile_append_of_pos hds, List.dropWhile_cons_of_neg (by simp [hb])]
  rw [digits, htake, if_neg hne, hdrop]

theorem natDigits_ne_nil (n : Nat) : natDigits n ≠ [] := by
  rcases natDigits_cases n with h | ⟨b, ds, h, -⟩ <;> simp [h]

theorem integer_natDigits (n : Nat) (hb : isDigit b = false) :
    integer (natDigits n ++ b :: s) = some (b :: s) := by
  rcases natDigits_cases n with h | ⟨c, ds, h, hc, -⟩
  · rw [h]
    rfl
  · rw [← digits_append (natDigits_ne_nil n) (natDigits_isDigit n) hb, h, List.cons_append]
    unfold integer
    split
    next heq => exact absurd (List.cons.inj heq).1 hc
    · rfl

theorem minus_decimal (z : Int) : ∃ n, minus (decimal z ++ s) = natDigits n ++ s ∧
    (decimal z = natDigits n ∨ decimal z = 45 :: natDigits n) := by
  cases z with
  | ofNat n =>
    refine ⟨n, ?_, .inl rfl⟩
    rw [decimal]
    unfold minus
    split
    next rest heq =>
      rcases natDigits_cases n with h | ⟨c, ds, h, -, hc⟩
      · rw [h] at heq
        cases heq
      · rw [h, List.cons_append] at heq
        rw [(List.cons.inj heq).1] at hc
        cases hc
    · rfl
  | negSucc n => exact ⟨n + 1, rfl, .inr rfl⟩

/-- An integer is read to the comma that follows it. -/
theorem readNumber_decimal (z : Int) : readNumber (decimal z ++ 44 :: s) = some (decimal z, 44 :: s) := by
  obtain ⟨n, hminus, -⟩ := minus_decimal (s := 44 :: s) z
  rw [readNumber, hminus, integer_natDigits n rfl]
  simp [fraction, exponent]

theorem decimal_cases (z : Int) : ∃ b ds, decimal z = b :: ds ∧ (b = 45 ∨ isDigit b = true) := by
  cases z with
  | ofNat n =>
    rcases natDigits_cases n with h | ⟨b, ds, h, -, hb⟩
    · exact ⟨48, [], h, .inr rfl⟩
    · exact ⟨b, ds, h, .inr hb⟩
  | negSucc n => exact ⟨45, _, rfl, .inl rfl⟩

theorem skip_decimal (z : Int) : skip (decimal z ++ s) = decimal z ++ s := by
  obtain ⟨b, ds, h, hb⟩ := decimal_cases z
  rw [h, List.cons_append]
  refine List.dropWhile_cons_of_neg ?_
  rcases hb with rfl | hb
  · decide
  · intro hws
    simp only [decide_eq_true_eq] at hws
    rcases hws with rfl | rfl | rfl | rfl <;> cases hb

/-- A member whose value is an integer. -/
theorem readValue_decimal (z : Int) :
    readValue (n + 1) (decimal z ++ 44 :: s) = some (.number (decimal z), 44 :: s) := by
  have hnumber := readNumber_decimal (s := s) z
  obtain ⟨b, ds, h, hb⟩ := decimal_cases z
  have hskip := skip_decimal (s := 44 :: s) z
  rw [h, List.cons_append] at hskip
  rw [h, List.cons_append] at hnumber
  rw [readValue, h, List.cons_append, hskip]
  have hother : b ≠ 34 ∧ b ≠ 123 ∧ b ≠ 91 ∧ b ≠ 116 ∧ b ≠ 102 ∧ b ≠ 110 := by
    rcases hb with rfl | hb
    · decide
    · refine ⟨?_, ?_, ?_, ?_, ?_, ?_⟩ <;> rintro rfl <;> cases hb
  obtain ⟨h34, h123, h91, h116, h102, h110⟩ := hother
  split
  next heq => exact absurd (List.cons.inj heq).1 h34
  next heq => exact absurd (List.cons.inj heq).1 h123
  next heq => exact absurd (List.cons.inj heq).1 h91
  next heq => exact absurd (List.cons.inj heq).1 h116
  next heq => exact absurd (List.cons.inj heq).1 h102
  next heq => exact absurd (List.cons.inj heq).1 h110
  · rw [hnumber]
    rfl

/-- The number that digits stand for. -/
def ofNatDigits (s : Bytes) : Nat := Nat.ofDigits 10 (s.reverse.map fun b => b.toNat - 48)

theorem ofNatDigits_natDigits (n : Nat) : ofNatDigits (natDigits n) = n := by
  unfold ofNatDigits natDigits
  split
  next h =>
    rw [h]
    rfl
  · have hmap : (((Nat.digits 10 n).reverse.map fun d => UInt8.ofNat (48 + d)).reverse.map
        fun b => b.toNat - 48) = Nat.digits 10 n := by
      rw [← List.map_reverse, List.reverse_reverse, List.map_map]
      refine (List.map_congr_left fun d hd => ?_).trans (List.map_id _)
      have hlt := Nat.digits_lt_base (b := 10) (by decide) hd
      interval_cases d <;> rfl
    rw [hmap, Nat.ofDigits_digits]

theorem natDigits_injective {n m : Nat} (h : natDigits n = natDigits m) : n = m := by
  rw [← ofNatDigits_natDigits n, h, ofNatDigits_natDigits]

theorem natDigits_ne_minus (n : Nat) (ds : Bytes) : natDigits n ≠ 45 :: ds := by
  intro h
  have hdigit := natDigits_isDigit n 45 (by simp [h])
  cases hdigit

/-- **Integers that are written in the same way are the same.** -/
theorem decimal_injective {z w : Int} (h : decimal z = decimal w) : z = w := by
  cases z with
  | ofNat n =>
    cases w with
    | ofNat m => exact congrArg Int.ofNat (natDigits_injective h)
    | negSucc m => exact absurd h (natDigits_ne_minus n _)
  | negSucc n =>
    cases w with
    | ofNat m => exact absurd h.symm (natDigits_ne_minus m _)
    | negSucc m =>
      exact congrArg Int.negSucc (Nat.succ.inj (natDigits_injective (List.cons.inj h).2))

theorem length_natDigits_le {n k : Nat} (hk : 0 < k) (h : n < 10 ^ k) : (natDigits n).length ≤ k := by
  unfold natDigits
  split
  · exact hk
  · rw [List.length_map, List.length_reverse]
    exact (Nat.digits_length_le_iff (by decide) n).2 h

theorem length_decimal_le {z : Int} {k : Nat} (hk : 0 < k) (h : z.natAbs < 10 ^ k) :
    (decimal z).length ≤ k + 1 := by
  cases z with
  | ofNat n => exact Nat.le_succ_of_le (length_natDigits_le hk h)
  | negSucc n => exact Nat.succ_le_succ (length_natDigits_le hk h)

/-! ## Members -/

theorem readString_quoted {a x : Bytes} (h : Plain a) :
    readString ((a ++ quote :: x).length + 1) .start (a ++ quote :: x) = some (a, x) := by
  refine readString_plain h ?_
  simp only [List.length_append, List.length_cons]
  omega

/-- A member that is followed by another. -/
theorem readMembers_cons {name : Bytes} {v : Json} {x : Bytes} (hname : Plain name)
    (hvalue : readValue n s = some (v, 44 :: x)) :
    readMembers (n + 1) (quote :: (name ++ quote :: 58 :: s)) =
      (readMembers n x).map fun r => ((name, v) :: r.1, r.2) := by
  have hquote : skip (quote :: (name ++ quote :: 58 :: s)) = 34 :: (name ++ quote :: 58 :: s) := rfl
  have hcolon : skip (58 :: s) = 58 :: s := rfl
  have hcomma : skip (44 :: x) = 44 :: x := rfl
  simp only [readMembers, hquote, readString_quoted hname, Option.bind_some, hcolon, hvalue, hcomma]

/-- An object that is not empty. -/
theorem readValue_object (n : Nat) (s : Bytes) :
    readValue (n + 1) (123 :: quote :: s) =
      (readMembers n (quote :: s)).map fun r => (.object r.1, r.2) := by
  rw [readValue]
  rfl

/-- A member whose value is a string. -/
theorem readMembers_string {name x : Bytes} {ms : List (Bytes × Json)} (hname : Plain name)
    (h : readMembers (n + 2) (quote :: (name ++ quote :: 58 :: quote :: x)) = some (ms, s)) :
    ∃ t r, readString (x.length + 1) .start x = some (t, r) ∧ r ≠ [] ∧ (name, .string t) ∈ ms := by
  have hquote : ∀ x, skip (quote :: x) = 34 :: x := fun _ => rfl
  have hcolon : skip (58 :: quote :: x) = 58 :: quote :: x := rfl
  simp only [readMembers, hquote, readString_quoted hname, Option.bind_some, hcolon, readValue] at h
  obtain ⟨v, hv, h⟩ := Option.bind_eq_some_iff.mp h
  obtain ⟨⟨t, r⟩, hread, rfl⟩ := Option.map_eq_some_iff.mp hv
  refine ⟨t, r, hread, ?_, ?_⟩
  · rintro rfl
    simp [skip] at h
  · split at h
    · obtain ⟨w, -, h⟩ := Option.map_eq_some_iff.mp h
      cases h
      exact List.mem_cons_self ..
    · cases h
      exact List.mem_cons_self ..
    · cases h

/-- The last member, with a string that needs no escapes. -/
theorem readMembers_last {name : Bytes} (hname : Plain name) (ht : Plain t) :
    readMembers (n + 2) (quote :: (name ++ quote :: 58 :: quote :: (t ++ [quote, 125]))) =
      some ([(name, .string t)], []) := by
  have hquote : ∀ x, skip (quote :: x) = 34 :: x := fun _ => rfl
  have hcolon : ∀ x, skip (58 :: x) = 58 :: x := fun _ => rfl
  have hbrace : skip [125] = [125] := rfl
  simp only [readMembers, hquote, readString_quoted hname, Option.bind_some, hcolon, readValue,
    readString_quoted ht, Option.map_some, hbrace]

end Json

end IotDeviceSdk.Infra
