import IotDeviceSdk.Infra.Levels
import IotDeviceSdk.Mqtt.Logic.DataHelpers

/-!
# Which PUBLISH is for which subscription

`match_topics` keeps both lengths in an `uint8_t`. It so compares what is left of the two names when
their lengths are taken modulo 256 (`matchTopics_eq`), and is right when that does not change the
answer.

* `matchTopics_correct`: the matcher is right exactly for these filters and topics. It reads no byte
  past their ends.
* `matchTopics_fails`: `#` does not match a topic of 256 bytes.
-/

namespace IotDeviceSdk.Mqtt.Logic

open Infra

/-! ## Filters and topics -/

/-- The filter matches the topic by levels, with `/` between the levels and `#` as the wildcard. -/
def TopicMatches (filter topic : Bytes) : Prop := Matches 0x2F 0x23 filter topic

/-- No `#` and no `+`. -/
def Plain (s : Bytes) : Prop := ∀ c ∈ s, c ≠ 0x23 ∧ c ≠ 0x2B

/-- **A filter without `+`**, and with `#` only as its last level. -/
structure IsFilter (f : Bytes) : Prop where
  ne_nil : f ≠ []
  length_le : f.length ≤ 65535
  wildcard : Plain f ∨ f = [0x23] ∨ ∃ p, Plain p ∧ f = p ++ [0x2F, 0x23]

theorem Plain.notMem {s : Bytes} (h : Plain s) : (0x23 : UInt8) ∉ s := fun hm => (h _ hm).1 rfl

theorem Plain.take {s : Bytes} (h : Plain s) (n : Nat) : Plain (s.take n) :=
  fun c hc => h c (List.mem_of_mem_take hc)

/-- What an `uint8_t` for the length leaves of a name. -/
def shortened (s : Bytes) : Bytes := s.take (s.length % 256)

theorem shortened_length (s : Bytes) : (shortened s).length = s.length % 256 := by
  have := Nat.mod_le s.length 256
  simp [shortened, this]

theorem shortened_length_lt (s : Bytes) : (shortened s).length < 256 :=
  shortened_length s ▸ Nat.mod_lt _ (by decide)

theorem shortened_of_length_lt {s : Bytes} (h : s.length < 256) : shortened s = s := by
  rw [shortened, Nat.mod_eq_of_lt h, List.take_length]

/-! ## What is read -/

/-- `memcmp` of `n` bytes gives 0; `none` reads past the end of one of them. -/
def memcmpEq (a b : Bytes) (n : Nat) : Option Bool :=
  if n ≤ a.length ∧ n ≤ b.length then some (a.take n = b.take n) else none

/-- `match_topics`, with each read checked. -/
def readTopics (subscription published : Bytes) : Option Bool :=
  let subscriptionLength := subscription.length % 256
  let publishedLength := published.length % 256
  if subscriptionLength = 0 ∨ publishedLength = 0 then some false
  else
    match subscription[subscriptionLength - 1]? with
    | none => none
    | some lastSubToken =>
      if lastSubToken ≠ 0x23 then
        if publishedLength ≠ subscriptionLength then some false
        else memcmpEq subscription published publishedLength
      else if subscriptionLength = 1 then some true
      else if subscriptionLength - 1 ≤ publishedLength then
        memcmpEq subscription published (subscriptionLength - 1)
      else if subscriptionLength - 2 = publishedLength then
        memcmpEq subscription published (subscriptionLength - 2)
      else some false

theorem memcmpEq_of_le {a b : Bytes} {n : Nat} (ha : n ≤ a.length) (hb : n ≤ b.length) :
    memcmpEq a b n = some (decide (a.take n = b.take n)) := if_pos ⟨ha, hb⟩

/-- **`match_topics` reads no byte past the end** of a name. -/
theorem readTopics_eq (subscription published : Bytes) :
    readTopics subscription published = some (matchTopics subscription published) := by
  have hs := Nat.mod_le subscription.length 256
  have hp := Nat.mod_le published.length 256
  unfold readTopics matchTopics
  dsimp only
  generalize subscription.length % 256 = n at hs ⊢
  generalize published.length % 256 = m at hp ⊢
  by_cases hzero : n = 0 ∨ m = 0
  · rw [if_pos hzero, if_pos hzero]
  · obtain ⟨x, hlast⟩ : ∃ x, subscription[n - 1]? = some x := ⟨_, List.getElem?_eq_getElem (by omega)⟩
    rw [if_neg hzero, if_neg hzero, hlast]
    dsimp only
    by_cases hx : x = 0x23
    · have hlast : ¬some x ≠ some 0x23 := not_not.mpr (congrArg some hx)
      rw [if_neg (not_not.mpr hx), if_neg hlast]
      by_cases hone : n = 1
      · rw [if_pos hone, if_pos hone]
      · rw [if_neg hone, if_neg hone]
        by_cases hle : n - 1 ≤ m
        · rw [if_pos hle, if_pos hle, memcmpEq_of_le (by omega) (by omega)]
        · rw [if_neg hle, if_neg hle]
          by_cases hparent : n - 2 = m
          · rw [if_pos hparent, if_pos hparent, memcmpEq_of_le (by omega) (by omega)]
          · rw [if_neg hparent, if_neg hparent]
    · have hlast : some x ≠ some 0x23 := fun h => hx (Option.some.inj h)
      rw [if_pos hx, if_pos hlast]
      by_cases heq : m = n
      · rw [if_neg (not_not.mpr heq), memcmpEq_of_le (by omega) hp]
        simp [heq]
      · rw [if_pos heq]
        simp [heq]

/-! ## The matcher on short names -/

/-- A filter without wildcard. -/
theorem matchTopics_plain {f t : Bytes} (hf : f.length < 256) (ht : t.length < 256)
    (hplain : Plain f) : matchTopics f t = true ↔ f ≠ [] ∧ t ≠ [] ∧ TopicMatches f t := by
  unfold TopicMatches matchTopics
  rw [matches_iff_eq hplain.notMem, Nat.mod_eq_of_lt hf, Nat.mod_eq_of_lt ht]
  dsimp only
  by_cases hzero : f.length = 0 ∨ t.length = 0
  · rw [if_pos hzero]
    simp only [List.length_eq_zero_iff] at hzero
    grind
  · have hlast : f[f.length - 1]? ≠ some 0x23 := fun h => hplain.notMem (List.mem_of_getElem? h)
    rw [if_neg hzero, if_pos hlast, decide_eq_true_iff, List.take_length]
    simp only [List.length_eq_zero_iff, not_or] at hzero
    constructor
    · rintro ⟨hlen, htake⟩
      rw [hlen, List.take_length] at htake
      exact ⟨hzero.1, hzero.2, htake.symm⟩
    · rintro ⟨-, -, rfl⟩
      exact ⟨rfl, List.take_length⟩

/-- The wildcard alone. -/
theorem matchTopics_wildcard {t : Bytes} (ht : t.length < 256) :
    matchTopics [0x23] t = true ↔ t ≠ [] := by
  unfold matchTopics
  rw [Nat.mod_eq_of_lt ht]
  by_cases hzero : t.length = 0
  · simp [List.length_eq_zero_iff.mp hzero]
  · simp [List.length_eq_zero_iff.not.mp hzero]

/-- A filter with a wildcard below `p`. -/
theorem matchTopics_below {p t : Bytes} (hf : (p ++ [0x2F, 0x23]).length < 256) (ht : t.length < 256) :
    matchTopics (p ++ [0x2F, 0x23]) t = true ↔ t ≠ [] ∧ TopicMatches (p ++ [0x2F, 0x23]) t := by
  unfold TopicMatches matchTopics
  rw [matches_below (by decide), Nat.mod_eq_of_lt hf, Nat.mod_eq_of_lt ht]
  dsimp only
  have hlen : (p ++ [0x2F, 0x23] : Bytes).length = p.length + 2 := by simp
  have hone : (p ++ [0x2F, 0x23] : Bytes).take (p.length + 2 - 1) = p ++ [0x2F] := by
    rw [List.append_cons]
    exact List.take_left' (by simp)
  have htwo : (p ++ [0x2F, 0x23] : Bytes).take (p.length + 2 - 2) = p := List.take_left' (by simp)
  rw [hlen, hone, htwo]
  by_cases hzero : t.length = 0
  · rw [if_pos (.inr hzero)]
    simp [List.length_eq_zero_iff.mp hzero]
  · rw [if_neg (by omega), if_neg (by simp), if_neg (by omega)]
    have hne : t ≠ [] := List.length_eq_zero_iff.not.mp hzero
    rw [and_iff_right hne]
    have hbelow : (p ++ [0x2F]) <+: t ↔ p ++ [0x2F] = t.take (p.length + 1) := by
      rw [List.prefix_iff_eq_take]
      simp
    rw [hbelow]
    by_cases hlong : p.length + 2 - 1 ≤ t.length
    · -- there is something in the place of the wildcard
      rw [if_pos hlong, decide_eq_true_iff]
      constructor
      · exact .inr
      · rintro (rfl | h)
        · omega
        · exact h
    · have hnot : ¬p ++ [0x2F] = t.take (p.length + 1) := fun h => by
        have := congrArg List.length h
        rw [List.length_append, List.length_take, List.length_singleton] at this
        omega
      rw [if_neg hlong, or_iff_left hnot]
      by_cases hparent : p.length + 2 - 2 = t.length
      · rw [if_pos hparent, decide_eq_true_iff, hparent, List.take_length]
        exact eq_comm
      · rw [if_neg hparent]
        constructor
        · intro h
          cases h
        · rintro rfl
          omega

/-- **On short names the matcher is right.** -/
theorem matchTopics_short {f t : Bytes} (hf : f.length < 256) (ht : t.length < 256)
    (h : Plain f ∨ IsFilter f) : matchTopics f t = true ↔ f ≠ [] ∧ t ≠ [] ∧ TopicMatches f t := by
  rcases h with hplain | ⟨hne, -, hplain | rfl | ⟨p, -, rfl⟩⟩
  · exact matchTopics_plain hf ht hplain
  · exact matchTopics_plain hf ht hplain
  · rw [matchTopics_wildcard ht]
    exact ⟨fun h => ⟨hne, h, matches_wildcard (by decide) t⟩, fun h => h.2.1⟩
  · rw [matchTopics_below hf ht]
    exact ⟨fun h => ⟨hne, h⟩, fun h => h.2⟩

/-! ## The matcher on all names -/

/-- The matcher sees no more of a name than its length modulo 256 says. -/
theorem matchTopics_shortened (f t : Bytes) :
    matchTopics f t = matchTopics (shortened f) (shortened t) := by
  have htake (s : Bytes) {n i : Nat} (hi : i ≤ n) : (s.take n).take i = s.take i := by
    rw [List.take_take, Nat.min_eq_left hi]
  unfold matchTopics
  rw [shortened_length, shortened_length, Nat.mod_mod, Nat.mod_mod]
  unfold shortened
  dsimp only
  generalize f.length % 256 = n
  generalize t.length % 256 = m
  by_cases hzero : n = 0 ∨ m = 0
  · rw [if_pos hzero, if_pos hzero]
  · have hlast : (f.take n)[n - 1]? = f[n - 1]? := List.getElem?_take_of_lt (by omega)
    rw [if_neg hzero, if_neg hzero, hlast, htake f (Nat.sub_le n 1), htake f (Nat.sub_le n 2),
      htake t (Nat.le_refl m)]
    by_cases hwild : f[n - 1]? ≠ some 0x23
    · rw [if_pos hwild, if_pos hwild]
      by_cases heq : m = n
      · rw [htake f (Nat.le_of_eq heq)]
      · simp [heq]
    · rw [if_neg hwild, if_neg hwild]
      by_cases hle : n - 1 ≤ m
      · rw [if_pos hle, if_pos hle, htake t hle]
      · rw [if_neg hle, if_neg hle]
        by_cases hparent : n - 2 = m
        · rw [htake t (Nat.le_of_eq hparent)]
        · rw [if_neg hparent, if_neg hparent]

/-- What is left of a long filter has no wildcard. -/
theorem IsFilter.shortened {f : Bytes} (h : IsFilter f) :
    Plain (shortened f) ∨ IsFilter (shortened f) := by
  by_cases hlt : f.length < 256
  · rw [shortened_of_length_lt hlt]
    exact .inr h
  · refine .inl ?_
    have hmod : f.length % 256 + 2 ≤ f.length := by omega
    obtain ⟨-, -, hplain | rfl | ⟨p, hp, rfl⟩⟩ := h
    · exact hplain.take _
    · exact absurd (by simp) hlt
    · unfold Logic.shortened
      rw [List.length_append] at hmod ⊢
      rw [List.take_append_of_le_length (by simpa using hmod)]
      exact hp.take _

/-- **What the matcher computes.** -/
theorem matchTopics_eq {f : Bytes} (hf : IsFilter f) (t : Bytes) : matchTopics f t = true ↔
    shortened f ≠ [] ∧ shortened t ≠ [] ∧ TopicMatches (shortened f) (shortened t) := by
  rw [matchTopics_shortened]
  exact matchTopics_short (shortened_length_lt f) (shortened_length_lt t) hf.shortened

/-! ## The claim about all filters and topics -/

/-- **The lengths do no harm**: taking them modulo 256 leaves two names, neither of them empty, that
match if and only if the filter matches the topic. -/
def LengthsFit (f t : Bytes) : Prop := TopicMatches f t ↔
  shortened f ≠ [] ∧ shortened t ≠ [] ∧ TopicMatches (shortened f) (shortened t)

/-- Names of at most 255 bytes. -/
theorem lengthsFit_of_short {f t : Bytes} (hf : f ≠ []) (ht : t ≠ []) (hf' : f.length < 256)
    (ht' : t.length < 256) : LengthsFit f t := by
  unfold LengthsFit
  rw [shortened_of_length_lt hf', shortened_of_length_lt ht']
  exact ⟨fun h => ⟨hf, ht, h⟩, fun h => h.2.2⟩

/-- **The matcher reports a match exactly when the filter matches the topic if and only if the lengths
do no harm**; it reads no byte past the ends of the names. -/
theorem matchTopics_correct (f t : Bytes) (hf : IsFilter f) :
    (∃ b, readTopics f t = some b ∧ (b = true ↔ TopicMatches f t)) ↔ LengthsFit f t := by
  constructor
  · rintro ⟨b, hb, hmatch⟩
    obtain rfl := Option.some.inj ((readTopics_eq f t).symm.trans hb)
    exact hmatch.symm.trans (matchTopics_eq hf t)
  · exact fun h => ⟨_, readTopics_eq f t, (matchTopics_eq hf t).trans h.symm⟩

/-- `a/#` and the topic `a/b`. -/
theorem matchTopics_correct_below : ∃ b,
    readTopics [0x61, 0x2F, 0x23] [0x61, 0x2F, 0x62] = some b ∧
      (b = true ↔ TopicMatches [0x61, 0x2F, 0x23] [0x61, 0x2F, 0x62]) := by
  have hplain : Plain [0x61] := fun c hc => by
    obtain rfl := List.mem_singleton.mp hc
    decide
  exact (matchTopics_correct _ _ ⟨by decide, by decide, .inr (.inr ⟨_, hplain, rfl⟩)⟩).mpr
    (lengthsFit_of_short (by decide) (by decide) (by decide) (by decide))

/-- A topic whose length is a multiple of 256 matches no filter. -/
theorem readTopics_of_length {f t : Bytes} (h : t.length % 256 = 0) : readTopics f t = some false :=
  if_pos (.inr h)

/-- **The wildcard does not match a topic of 256 bytes**, whose length is 0 in an `uint8_t`. -/
theorem matchTopics_fails : IsFilter [0x23] ∧
    readTopics [0x23] (List.replicate 256 0x61) = some false ∧
      TopicMatches [0x23] (List.replicate 256 0x61) :=
  ⟨⟨by decide, by decide, .inr (.inl rfl)⟩,
    readTopics_of_length (congrArg (· % 256) List.length_replicate), matches_wildcard (by decide) _⟩

end IotDeviceSdk.Mqtt.Logic
