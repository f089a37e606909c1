import IotDeviceSdk.Jwt.Create
import Mathlib.Tactic.NormNum

/-!
# The payload of a token (`iotc_jwt.c`)

The payload is formatted into a buffer of `IOTC_JWT_PAYLOAD_BUF_SIZE` bytes, and the project id is put
into it as it stands. `claims_iff` says when the text is the JSON object that is meant.
-/

namespace IotDeviceSdk.Jwt

open Infra Infra.Json

/-- `iat` -/
def iat : Bytes := [105, 97, 116]

/-- `exp` -/
def exp : Bytes := [101, 120, 112]

/-- `aud` -/
def aud : Bytes := [97, 117, 100]

variable {now : Int64} {period : UInt32} {projectId : Bytes}

/-- **What is claimed of the payload**: it is a JSON object, and whoever looks for `iat`, `exp` or `aud`
finds the current time, the time at which the token expires and the project id. -/
def Claims (now : Int64) (period : UInt32) (projectId : Bytes) (s : Bytes) : Prop :=
  ∃ ms, parse s = some (.object ms) ∧
    (∀ v, (iat, v) ∈ ms ↔ v = .number (decimal now.toInt)) ∧
    (∀ v, (exp, v) ∈ ms ↔ v = .number (decimal (now.toInt + period.toNat))) ∧
    ∀ v, (aud, v) ∈ ms ↔ v = .string projectId

/-- **When the payload is what it should be**: it fits, the sum of the times does, and the project id
needs no escapes. -/
structure Presentable (now : Int64) (period : UInt32) (projectId : Bytes) : Prop where
  fits : (payloadText now period projectId).length < jwtPayloadBufSize
  time : now.toInt + period.toNat < 2 ^ 63
  plain : Plain projectId

/-! ## The text -/

/-- The payload up to the project id. -/
def payloadHead (now : Int64) (period : UInt32) : Bytes :=
  [123, 34, 105, 97, 116, 34, 58] ++ decimal now.toInt ++
    ([44, 34, 101, 120, 112, 34, 58] ++ decimal (expirationTime now period).toInt ++
      [44, 34, 97, 117, 100, 34, 58, 34])

theorem payloadText_eq (now : Int64) (period : UInt32) (projectId : Bytes) :
    payloadText now period projectId = payloadHead now period ++ (projectId ++ [34, 125]) := by
  simp only [payloadText, payloadHead, List.append_assoc]

theorem length_decimal_int64 (z : Int64) : (decimal z.toInt).length ≤ 20 := by
  refine length_decimal_le (by decide) (k := 19) ?_
  have hlo := z.le_toInt
  have hhi := z.toInt_lt
  norm_num at hlo hhi ⊢
  omega

theorem length_payloadHead (now : Int64) (period : UInt32) : (payloadHead now period).length ≤ 62 := by
  have hnow := length_decimal_int64 now
  have hexp := length_decimal_int64 (expirationTime now period)
  simp only [payloadHead, List.length_append, List.length_cons, List.length_nil]
  omega

/-- What the buffer holds of it. -/
theorem payload_eq (now : Int64) (period : UInt32) (projectId : Bytes) :
    payload now period projectId =
      payloadHead now period ++ (projectId ++ [34, 125]).take (255 - (payloadHead now period).length) := by
  have hlen := length_payloadHead now period
  rw [payload, snprintf, payloadText_eq, jwtPayloadBufSize, List.take_append, List.take_of_length_le]
  omega

/-- The two times are read, whatever follows. -/
theorem parse_payloadHead (now : Int64) (period : UInt32) (x : Bytes) :
    ∃ n, parse (payloadHead now period ++ x) =
      (readMembers (n + 2) (quote :: (aud ++ quote :: 58 :: quote :: x))).bind fun r =>
        if skip r.2 = [] then
          some (.object ((iat, .number (decimal now.toInt)) ::
            (exp, .number (decimal (expirationTime now period).toInt)) :: r.1))
        else none := by
  have htext : payloadHead now period ++ x = 123 :: quote :: (iat ++ quote :: 58 ::
      (decimal now.toInt ++ 44 :: quote :: (exp ++ quote :: 58 ::
        (decimal (expirationTime now period).toInt ++
          44 :: quote :: (aud ++ quote :: 58 :: quote :: x))))) := by
    simp [payloadHead, iat, exp, aud]
  obtain ⟨n, hn⟩ : ∃ n, (payloadHead now period ++ x).length = n + 4 := by
    refine ⟨(payloadHead now period ++ x).length - 4, (Nat.sub_add_cancel ?_).symm⟩
    simp only [payloadHead, List.length_append, List.length_cons]
    omega
  refine ⟨n, ?_⟩
  rw [parse, hn, htext, readValue_object,
    readMembers_cons (n := n + 3) (by decide) (readValue_decimal now.toInt),
    readMembers_cons (n := n + 2) (by decide) (readValue_decimal (expirationTime now period).toInt)]
  simp only [Option.map_map, Option.bind_map, Function.comp_def]

theorem expirationTime_toInt_iff (now : Int64) (period : UInt32) :
    (expirationTime now period).toInt = now.toInt + period.toNat ↔ now.toInt + period.toNat < 2 ^ 63 := by
  have hlo := now.le_toInt
  have hhi := now.toInt_lt
  have hperiod := period.toNat_lt
  have hof : (Int64.ofNat period.toNat).toInt = period.toNat :=
    Int64.toInt_ofNat_of_lt (Nat.lt_trans hperiod (by norm_num))
  rw [expirationTime, Int64.toInt_add, hof, Int.bmod_def]
  norm_num at hlo hhi hperiod ⊢
  split <;> omega

/-- **When the payload is the object that is meant.** -/
theorem claims_iff :
    Claims now period projectId (payload now period projectId) ↔ Presentable now period projectId := by
  have hhead := length_payloadHead now period
  obtain ⟨n, hparse⟩ := parse_payloadHead now period
    ((projectId ++ [34, 125]).take (255 - (payloadHead now period).length))
  rw [← payload_eq] at hparse
  constructor
  · rintro ⟨ms, hms, hiat, hexp, haud⟩
    rw [hparse] at hms
    obtain ⟨⟨rest, s⟩, hread, hms⟩ := Option.bind_eq_some_iff.mp hms
    split at hms
    · obtain rfl := Json.object.inj (Option.some.inj hms)
      obtain ⟨t, r, hstring, hr, hmem⟩ := readMembers_string (by decide) hread
      obtain rfl : t = projectId := by
        have := (haud _).1 (List.mem_cons_of_mem _ (List.mem_cons_of_mem _ hmem))
        exact Json.string.inj this
      obtain ⟨hwhole, hplain⟩ := readString_eq_self hstring hr (List.take_prefix ..) rfl
      refine ⟨?_, ?_, hplain⟩
      · have hlength := congrArg List.length hwhole
        rw [payloadText_eq, jwtPayloadBufSize]
        simp only [List.length_take, List.length_append, List.length_cons, List.length_nil] at hlength ⊢
        omega
      · refine (expirationTime_toInt_iff now period).1 (decimal_injective ?_)
        have := (hexp _).1 (List.mem_cons_of_mem _ (List.mem_cons_self ..))
        exact Json.number.inj this
    · cases hms
  · rintro ⟨hfits, htime, hplain⟩
    have hwhole : (projectId ++ [34, 125]).take (255 - (payloadHead now period).length) =
        projectId ++ [34, 125] := by
      refine List.take_of_length_le ?_
      rw [payloadText_eq, List.length_append, jwtPayloadBufSize] at hfits
      omega
    rw [hwhole, readMembers_last (by decide) hplain, (expirationTime_toInt_iff now period).2 htime]
      at hparse
    refine ⟨_, hparse, ?_, ?_, ?_⟩ <;> intro v <;> simp [iat, exp, aud]

end IotDeviceSdk.Jwt
