import IotDeviceSdk.Jwt.Payload

/-!
# The token in the buffer (`iotc_create_iotcore_jwt`)

Each part of the token goes to the end of those before it. The first dot is written after a look at the
size of the buffer, the second one is not.

* `Documented` is what `iotc_bsp_crypto.h` says of the functions that are called, `Works` says that they
  fail only where the buffer is too small.
* `Overruns` is where the second dot is written outside of the buffer, `Signed` where all calls succeed.
-/

namespace IotDeviceSdk.Jwt

open Infra

/-- **The functions of the BSP, as they are documented**: they write at most as many bytes as they are
told, and say how many; base64 has four bytes for three. -/
structure Documented (bsp : Bsp) (enc : Bytes → Bytes) : Prop where
  encode_within : ∀ n src, (bsp.base64EncodeUrlsafe n src).stored.length ≤ n
  encode_written : ∀ n src, (bsp.base64EncodeUrlsafe n src).state = .ok →
    (bsp.base64EncodeUrlsafe n src).bytesWritten ≤ (bsp.base64EncodeUrlsafe n src).stored.length ∧
      (bsp.base64EncodeUrlsafe n src).stored.take (bsp.base64EncodeUrlsafe n src).bytesWritten = enc src
  encode_tooSmall : ∀ n src, n < (enc src).length →
    (bsp.base64EncodeUrlsafe n src).state = .bufferTooSmallError
  length_enc : ∀ src, (enc src).length ≤ (src.length + 2) / 3 * 4
  ecc_within : ∀ key n src, (bsp.ecc key n src).stored.length ≤ n
  ecc_written : ∀ key n src, (bsp.ecc key n src).state = .ok →
    (bsp.ecc key n src).bytesWritten ≤ (bsp.ecc key n src).stored.length

/-- Nothing fails, but for a buffer that is too small. -/
structure Works (bsp : Bsp) : Prop where
  encode : ∀ n src, (bsp.base64EncodeUrlsafe n src).state = .ok ∨
    (bsp.base64EncodeUrlsafe n src).state = .bufferTooSmallError
  sha256 : ∀ src, (bsp.sha256 src).1 = .ok
  ecc : ∀ key n src, (bsp.ecc key n src).state = .ok

/-- What is signed with what: the arguments, none of which is null. -/
structure Request where
  projectId : Bytes
  expirationPeriodSec : UInt32
  privateKeyData : CryptoKeyData
  dstJwtBuf : Bytes
  bytesWritten : Nat

namespace Request

def args (q : Request) : Args :=
  ⟨some q.projectId, q.expirationPeriodSec, some q.privateKeyData, some q.dstJwtBuf, some q.bytesWritten⟩

/-- A key that the function goes on with. -/
def Usable (q : Request) : Prop :=
  q.privateKeyData.cryptoKeySignatureAlgorithm = .es256 ∧
    q.privateKeyData.cryptoKeyUnion ≠ .pem none ∧
    ∀ type, q.privateKeyData.cryptoKeyUnion ≠ .other type

def payload (q : Request) (bsp : Bsp) : Bytes :=
  Jwt.payload bsp.timeGetcurrenttimeSeconds q.expirationPeriodSec q.projectId

/-- The first two parts. -/
def parts (q : Request) (bsp : Bsp) (enc : Bytes → Bytes) : Bytes :=
  enc (header es256) ++ dot :: enc (q.payload bsp)

/-- The call of `iotc_bsp_ecc`. -/
def ecc (q : Request) (bsp : Bsp) (enc : Bytes → Bytes) : BspWritten :=
  bsp.ecc q.privateKeyData jwtMaxSignatureSize (bsp.sha256 (q.parts bsp enc)).2

/-- The signature over the first two parts. -/
def signature (q : Request) (bsp : Bsp) (enc : Bytes → Bytes) : Bytes :=
  (q.ecc bsp enc).stored.take (q.ecc bsp enc).bytesWritten

/-- **The token.** -/
def token (q : Request) (bsp : Bsp) (enc : Bytes → Bytes) : Bytes :=
  q.parts bsp enc ++ dot :: enc (q.signature bsp enc)

/-! ## What is claimed -/

/-- The token is in the buffer, and its payload is the object that is meant. -/
structure Created (q : Request) (bsp : Bsp) (enc : Bytes → Bytes) (r : Result) : Prop where
  token : ∃ buffer, r.dstJwtBuf = some buffer ∧ buffer.length = q.dstJwtBuf.length ∧
    (q.token bsp enc).length ≤ buffer.length ∧ buffer.take (q.token bsp enc).length = q.token bsp enc
  bytesWritten : r.bytesWritten = some (q.token bsp enc).length
  claims : Claims bsp.timeGetcurrenttimeSeconds q.expirationPeriodSec q.projectId (q.payload bsp)

/-- **What is claimed of a call**: it writes to its buffer only; where it succeeds, the token is there;
and where nothing fails but the buffer is too small, it says so. -/
def Meets (q : Request) (bsp : Bsp) (enc : Bytes → Bytes) : Prop :=
  ∃ r, createIotcoreJwt bsp q.args = some r ∧ (r.state = .ok → Created q bsp enc r) ∧
    (Works bsp → q.dstJwtBuf.length < (q.token bsp enc).length → r.state = bufferTooSmallError)

/-! ## The condition -/

/-- The first two parts are written and hashed. -/
structure Hashed (q : Request) (bsp : Bsp) (enc : Bytes → Bytes) : Prop where
  header : (bsp.base64EncodeUrlsafe q.dstJwtBuf.length (header es256)).state = .ok
  room : (enc (Jwt.header es256)).length < q.dstJwtBuf.length
  payload : (bsp.base64EncodeUrlsafe (q.dstJwtBuf.length - ((enc (Jwt.header es256)).length + 1))
    (q.payload bsp)).state = .ok
  sha256 : (bsp.sha256 (q.parts bsp enc)).1 = .ok

/-- The first two parts fill the buffer. -/
structure Overruns (q : Request) (bsp : Bsp) (enc : Bytes → Bytes) : Prop where
  hashed : q.Hashed bsp enc
  full : q.dstJwtBuf.length = (q.parts bsp enc).length

/-- All calls succeed. -/
structure Signed (q : Request) (bsp : Bsp) (enc : Bytes → Bytes) : Prop where
  hashed : q.Hashed bsp enc
  room : (q.parts bsp enc).length < q.dstJwtBuf.length
  ecc : (q.ecc bsp enc).state = .ok
  signature : (bsp.base64EncodeUrlsafe (q.dstJwtBuf.length - ((q.parts bsp enc).length + 1))
    (q.signature bsp enc)).state = .ok

end Request

/-! ## One write after the other -/

variable {bsp : Bsp} {enc : Bytes → Bytes} {q : Request} {b t s : Bytes} {n : Nat}

/-- A write behind what has been written. -/
theorem storeAt_append (htext : b.take t.length = t)
    (hfits : t.length + s.length ≤ b.length) :
    ∃ b', storeAt b t.length s = some b' ∧ b'.length = b.length ∧
      ∀ n ≤ s.length, b'.take (t.length + n) = t ++ s.take n := by
  refine ⟨_, if_pos hfits, ?_, fun n hn => ?_⟩
  · simp only [List.length_append, List.length_take, List.length_drop]
    omega
  · rw [htext, List.append_assoc, List.take_append, List.take_of_length_le (Nat.le_add_right ..),
      Nat.add_sub_cancel_left, List.take_append_of_le_length hn]

theorem storeAt_eq_none (h : b.length < n + s.length) : storeAt b n s = none :=
  if_neg (Nat.not_le.mpr h)

/-- A text that is encoded behind what has been written. -/
theorem Documented.encode_append (h : Documented bsp enc) (htext : b.take t.length = t)
    (src : Bytes) : ∃ b',
      storeAt b t.length
        (bsp.base64EncodeUrlsafe (b.length - t.length) src).stored = some b' ∧
      b'.length = b.length ∧
      ((bsp.base64EncodeUrlsafe (b.length - t.length) src).state = .ok →
        (bsp.base64EncodeUrlsafe (b.length - t.length) src).bytesWritten = (enc src).length ∧
          t.length + (enc src).length ≤ b.length ∧
          b'.take (t ++ enc src).length = t ++ enc src) := by
  have hle : t.length ≤ b.length := by
    rw [← htext, List.length_take]
    exact Nat.min_le_right ..
  have hwithin := h.encode_within (b.length - t.length) src
  obtain ⟨b', hstore, hlength, htake⟩ := storeAt_append htext
    (s := (bsp.base64EncodeUrlsafe (b.length - t.length) src).stored) (by omega)
  refine ⟨b', hstore, hlength, fun hok => ?_⟩
  obtain ⟨hwritten, henc⟩ := h.encode_written _ src hok
  have hcount : (enc src).length =
      (bsp.base64EncodeUrlsafe (b.length - t.length) src).bytesWritten := by
    rw [← henc, List.length_take, Nat.min_eq_left hwritten]
  refine ⟨hcount.symm, by omega, ?_⟩
  rw [List.length_append, hcount, htake _ hwritten, henc]

/-- A dot behind what has been written, if there is room. -/
theorem storeAt_dot (htext : b.take t.length = t) (hroom : t.length < b.length) :
    ∃ b', storeAt b t.length [dot] = some b' ∧ b'.length = b.length ∧
      b'.take (t ++ [dot]).length = t ++ [dot] := by
  obtain ⟨b', hstore, hlength, htake⟩ := storeAt_append htext (s := [dot]) hroom
  exact ⟨b', hstore, hlength, by rw [List.length_append]; exact htake 1 (Nat.le_refl 1)⟩

/-! ## The first two parts -/

/-- What the first two parts leave. -/
structure Prepared (q : Request) (bsp : Bsp) (enc : Bytes → Bytes) (r : Parts) : Prop where
  length : r.buffer.length = q.dstJwtBuf.length
  ok_iff : r.state = .ok ↔ (bsp.base64EncodeUrlsafe q.dstJwtBuf.length (header es256)).state = .ok ∧
    (enc (header es256)).length < q.dstJwtBuf.length ∧
    (bsp.base64EncodeUrlsafe (q.dstJwtBuf.length - ((enc (header es256)).length + 1))
      (q.payload bsp)).state = .ok
  written : r.state = .ok → r.bytesWritten = (q.parts bsp enc).length ∧
    (q.parts bsp enc).length ≤ r.buffer.length ∧
    r.buffer.take (q.parts bsp enc).length = q.parts bsp enc
  fails : Works bsp → r.state = .ok ∨ r.state = .bufferTooSmallError

theorem createIotcoreJwtB64hB64p_spec (h : Documented bsp enc) (q : Request) :
    ∃ r, createIotcoreJwtB64hB64p bsp q.dstJwtBuf q.projectId q.expirationPeriodSec es256 = some r ∧
      Prepared q bsp enc r := by
  obtain ⟨b₁, hstore₁, hlen₁, hok₁⟩ := h.encode_append (t := []) (b := q.dstJwtBuf)
    (List.take_zero ..) (header es256)
  simp only [List.length_nil, Nat.sub_zero, Nat.zero_add, List.nil_append] at hstore₁ hok₁
  unfold createIotcoreJwtB64hB64p
  simp only [hstore₁, Option.bind_some]
  by_cases hheader : (bsp.base64EncodeUrlsafe q.dstJwtBuf.length (header es256)).state = .ok
  · obtain ⟨hwritten₁, -, htake₁⟩ := hok₁ hheader
    rw [if_neg (not_not.mpr hheader), hwritten₁, hlen₁]
    by_cases hroom : q.dstJwtBuf.length ≤ (enc (header es256)).length
    · rw [if_pos hroom]
      refine ⟨_, rfl, hlen₁, ?_, ?_, fun _ => .inr rfl⟩
      · exact iff_of_false BspCryptoState.noConfusion fun hall => absurd hall.2.1 (Nat.not_lt.mpr hroom)
      · exact fun hok => BspCryptoState.noConfusion hok
    · rw [if_neg hroom]
      have hlt : (enc (header es256)).length < b₁.length := by omega
      obtain ⟨b₂, hstore₂, hlen₂, htake₂⟩ := storeAt_dot htake₁ hlt
      obtain ⟨b₃, hstore₃, hlen₃, hok₃⟩ := h.encode_append htake₂ (q.payload bsp)
      have hparts : (enc (header es256) ++ [dot]) ++ enc (q.payload bsp) = q.parts bsp enc := by
        rw [List.append_assoc]
        rfl
      rw [hparts] at hok₃
      rw [List.length_append, List.length_singleton] at hstore₃ hok₃
      have hlen : b₂.length = q.dstJwtBuf.length := hlen₂.trans hlen₁
      rw [hlen] at hstore₃ hok₃
      simp only [hstore₂, Option.bind_some, hlen]
      refine ⟨_, Option.map_eq_some_iff.mpr ⟨b₃, hstore₃, rfl⟩, hlen₃.trans hlen, ?_, fun hok => ?_,
        fun hworks => hworks.encode _ _⟩
      · simp only [hheader, Nat.lt_of_not_le hroom, true_and]
        rfl
      · obtain ⟨hwritten₃, hle₃, htake₃⟩ := hok₃ hok
        have hcount : (enc (header es256)).length + 1 + (enc (q.payload bsp)).length =
            (q.parts bsp enc).length := by
          rw [← hparts, List.length_append, List.length_append, List.length_singleton]
        refine ⟨?_, ?_, htake₃⟩
        · rw [← hcount]
          exact congrArg _ hwritten₃
        · rw [← hcount]
          exact Nat.le_trans hle₃ (Nat.le_of_eq (hlen₃.trans hlen).symm)
  · rw [if_pos hheader]
    refine ⟨_, rfl, hlen₁, ?_, fun hok => absurd hok hheader, fun hworks => hworks.encode _ _⟩
    exact iff_of_false hheader fun hall => hheader hall.1

/-! ## The signature -/

/-- The first two parts are short. -/
theorem Documented.length_parts (h : Documented bsp enc) (q : Request) :
    (q.parts bsp enc).length < 2 ^ 32 := by
  have hheader := h.length_enc (header es256)
  have hpayload := h.length_enc (q.payload bsp)
  have hheaderLen : (header es256).length ≤ 39 := List.length_take_le ..
  have hpayloadLen : (q.payload bsp).length ≤ 255 := List.length_take_le ..
  rw [Request.parts, List.length_append, List.length_cons]
  omega

/-- What the signature leaves. -/
structure Appended (q : Request) (bsp : Bsp) (enc : Bytes → Bytes) (r : Parts) : Prop where
  ok_iff : r.state = .ok ↔ (bsp.sha256 (q.parts bsp enc)).1 = .ok ∧
    (q.parts bsp enc).length < q.dstJwtBuf.length ∧ (q.ecc bsp enc).state = .ok ∧
    (bsp.base64EncodeUrlsafe (q.dstJwtBuf.length - ((q.parts bsp enc).length + 1))
      (q.signature bsp enc)).state = .ok
  written : r.state = .ok → r.buffer.length = q.dstJwtBuf.length ∧
    r.bytesWritten = (q.token bsp enc).length ∧ (q.token bsp enc).length ≤ r.buffer.length ∧
    r.buffer.take (q.token bsp enc).length = q.token bsp enc
  fails : Works bsp → r.state = .ok ∨ r.state = .bufferTooSmallError

theorem Prepared.take_parts (h : Documented bsp enc) {r : Parts} (hr : Prepared q bsp enc r)
    (hok : r.state = .ok) : r.buffer.take (r.bytesWritten % 2 ^ 32) = q.parts bsp enc := by
  obtain ⟨hwritten, -, htake⟩ := hr.written hok
  rw [hwritten, Nat.mod_eq_of_lt (h.length_parts q), htake]

/-- The second dot is written outside of a buffer that is full. -/
theorem appendSignature_full (h : Documented bsp enc) {r : Parts} (hr : Prepared q bsp enc r)
    (hok : r.state = .ok) (hsha : (bsp.sha256 (q.parts bsp enc)).1 = .ok)
    (hfull : q.dstJwtBuf.length = (q.parts bsp enc).length) :
    appendSignature bsp q.privateKeyData r = none := by
  have hnone : storeAt r.buffer r.bytesWritten [dot] = none := by
    refine storeAt_eq_none ?_
    rw [hr.length, (hr.written hok).1, hfull]
    exact Nat.lt_succ_self _
  unfold appendSignature
  rw [hr.take_parts h hok]
  simp [hsha, hnone]

/-- The signature is written to the array of `iotc_create_iotcore_jwt`. -/
theorem Documented.signature_stored (h : Documented bsp enc) (q : Request) :
    ∃ b, storeAt (List.replicate jwtMaxSignatureSize 0) 0 (q.ecc bsp enc).stored = some b ∧
      ((q.ecc bsp enc).state = .ok →
        b.take (q.ecc bsp enc).bytesWritten = q.signature bsp enc) := by
  have hwithin : (q.ecc bsp enc).stored.length ≤ jwtMaxSignatureSize := h.ecc_within _ _ _
  obtain ⟨b, hstore, -, htake⟩ := storeAt_append (t := []) (s := (q.ecc bsp enc).stored)
    (b := List.replicate jwtMaxSignatureSize 0) (List.take_zero ..)
    (by rw [List.length_nil, Nat.zero_add, List.length_replicate]; exact hwithin)
  simp only [List.length_nil, Nat.zero_add, List.nil_append] at hstore htake
  exact ⟨b, hstore, fun hok => htake _ (h.ecc_written _ _ _ hok)⟩

theorem appendSignature_spec (h : Documented bsp enc) {r : Parts} (hr : Prepared q bsp enc r)
    (hok : r.state = .ok) (hroom : (bsp.sha256 (q.parts bsp enc)).1 = .ok →
      (q.parts bsp enc).length < q.dstJwtBuf.length) :
    ∃ r', appendSignature bsp q.privateKeyData r = some r' ∧ Appended q bsp enc r' := by
  obtain ⟨hwritten, -, htake⟩ := hr.written hok
  unfold appendSignature
  rw [hr.take_parts h hok]
  by_cases hsha : (bsp.sha256 (q.parts bsp enc)).1 = .ok
  · have hlt := hroom hsha
    obtain ⟨b₁, hstore₁, hlen₁, htake₁⟩ := storeAt_dot htake (by rw [hr.length]; exact hlt)
    obtain ⟨b₂, hstore₂, htake₂⟩ := h.signature_stored q
    have hlen : b₁.length = q.dstJwtBuf.length := hlen₁.trans hr.length
    have hcall : bsp.ecc q.privateKeyData jwtMaxSignatureSize (bsp.sha256 (q.parts bsp enc)).2 =
        q.ecc bsp enc := rfl
    simp only [ne_eq, hsha, not_true_eq_false, if_false, hwritten, hcall, hstore₁, Option.bind_some,
      hstore₂, hlen]
    by_cases hecc : (q.ecc bsp enc).state = .ok
    · obtain ⟨b₃, hstore₃, hlen₃, hok₃⟩ := h.encode_append htake₁ (q.signature bsp enc)
      have htoken : (q.parts bsp enc ++ [dot]) ++ enc (q.signature bsp enc) = q.token bsp enc := by
        rw [List.append_assoc]
        rfl
      rw [htoken] at hok₃
      rw [List.length_append, List.length_singleton, hlen] at hstore₃ hok₃
      rw [if_neg (not_not.mpr hecc), htake₂ hecc]
      refine ⟨_, Option.map_eq_some_iff.mpr ⟨b₃, hstore₃, rfl⟩, ?_, fun hs => ?_,
        fun hworks => hworks.encode _ _⟩
      · simp only [hsha, hlt, hecc, true_and]
      · obtain ⟨hwritten₃, hle₃, htake₃⟩ := hok₃ hs
        have hcount : (q.parts bsp enc).length + 1 + (enc (q.signature bsp enc)).length =
            (q.token bsp enc).length := by
          rw [← htoken, List.length_append, List.length_append, List.length_singleton]
        rw [hcount] at hle₃
        have hle : (q.token bsp enc).length ≤ b₃.length :=
          Nat.le_trans hle₃ (Nat.le_of_eq (hlen₃.trans hlen).symm)
        refine ⟨hlen₃.trans hlen, ?_, hle, htake₃⟩
        rw [← hcount]
        exact congrArg _ hwritten₃
    · rw [if_pos hecc]
      refine ⟨_, rfl, iff_of_false hecc fun hall => hecc hall.2.2.1, fun hs => absurd hs hecc,
        fun hworks => absurd (hworks.ecc _ _ _) hecc⟩
  · rw [if_pos hsha]
    refine ⟨_, rfl, iff_of_false hsha fun hall => hsha hall.1, fun hs => absurd hs hsha,
      fun hworks => absurd (hworks.sha256 _) hsha⟩

/-! ## The function -/

theorem createIotcoreJwt_eq (hkey : q.Usable) (hlen : q.projectId.length ≤ jwtProjectidMaxLen) :
    createIotcoreJwt bsp q.args =
      (createIotcoreJwtB64hB64p bsp q.dstJwtBuf q.projectId q.expirationPeriodSec es256).bind fun parts =>
        (if parts.state ≠ .ok then some parts
          else appendSignature bsp q.privateKeyData parts).map fun r =>
          ⟨stateOf r.state, some r.buffer, some r.bytesWritten⟩ := by
  obtain ⟨halg, hpem, hother⟩ := hkey
  simp only [createIotcoreJwt, Request.args, halg, ne_eq, not_true_eq_false, if_false,
    if_neg (Nat.not_lt.mpr hlen)]

theorem stateOf_eq_ok {s : BspCryptoState} : stateOf s = .ok ↔ s = .ok := by
  cases s <;> simp [stateOf, bufferTooSmallError, jwtFormattionError, IotcState.invalidParameter]

/-- What is left to claim where nothing is written outside of the buffer. -/
theorem meets_iff_of_written {r : Parts} (hsigned : r.state = .ok ↔ q.Signed bsp enc)
    (hwritten : r.state = .ok → r.buffer.length = q.dstJwtBuf.length ∧
      r.bytesWritten = (q.token bsp enc).length ∧ (q.token bsp enc).length ≤ r.buffer.length ∧
      r.buffer.take (q.token bsp enc).length = q.token bsp enc)
    (hfails : Works bsp → r.state = .ok ∨ r.state = .bufferTooSmallError) :
    (∃ r', some (⟨stateOf r.state, some r.buffer, some r.bytesWritten⟩ : Result) = some r' ∧
      (r'.state = .ok → q.Created bsp enc r') ∧
      (Works bsp → q.dstJwtBuf.length < (q.token bsp enc).length → r'.state = bufferTooSmallError)) ↔
      (q.Signed bsp enc →
        Presentable bsp.timeGetcurrenttimeSeconds q.expirationPeriodSec q.projectId) := by
  constructor
  · rintro ⟨r', heq, hcreated, -⟩ hs
    obtain rfl := Option.some.inj heq
    exact claims_iff.1 (hcreated (stateOf_eq_ok.2 (hsigned.2 hs))).claims
  · intro hpresentable
    refine ⟨_, rfl, fun hok => ?_, fun hworks hshort => ?_⟩
    · rw [stateOf_eq_ok] at hok
      obtain ⟨hlength, hcount, hle, htake⟩ := hwritten hok
      exact ⟨⟨_, rfl, hlength, hle, htake⟩, congrArg some hcount,
        claims_iff.2 (hpresentable (hsigned.1 hok))⟩
    · rcases hfails hworks with hok | hsmall
      · obtain ⟨hlength, -, hle, -⟩ := hwritten hok
        omega
      · show stateOf r.state = bufferTooSmallError
        rw [hsmall]
        rfl

/-- **When a token is created as it is claimed.** -/
theorem createIotcoreJwt_iff (h : Documented bsp enc) (hkey : q.Usable)
    (hlen : q.projectId.length ≤ jwtProjectidMaxLen) :
    q.Meets bsp enc ↔ ¬q.Overruns bsp enc ∧ (q.Signed bsp enc →
      Presentable bsp.timeGetcurrenttimeSeconds q.expirationPeriodSec q.projectId) := by
  obtain ⟨parts, hparts, hprepared⟩ := createIotcoreJwtB64hB64p_spec h q
  unfold Request.Meets
  rw [createIotcoreJwt_eq hkey hlen, hparts, Option.bind_some]
  by_cases hok : parts.state = .ok
  · have hhashed : (bsp.sha256 (q.parts bsp enc)).1 = .ok → q.Hashed bsp enc := by
      intro hsha
      obtain ⟨hheader, hroom, hpayload⟩ := hprepared.ok_iff.1 hok
      exact ⟨hheader, hroom, hpayload, hsha⟩
    rw [if_neg (not_not.mpr hok)]
    by_cases hover : q.Overruns bsp enc
    · rw [appendSignature_full h hprepared hok hover.hashed.sha256 hover.full]
      refine iff_of_false ?_ fun hall => hall.1 hover
      rintro ⟨_, hnone, -⟩
      cases hnone
    · have hroom : (bsp.sha256 (q.parts bsp enc)).1 = .ok →
          (q.parts bsp enc).length < q.dstJwtBuf.length := by
        intro hsha
        have hle := (hprepared.written hok).2.1
        rw [hprepared.length] at hle
        exact Nat.lt_of_le_of_ne hle fun heq => hover ⟨hhashed hsha, heq.symm⟩
      obtain ⟨r, hr, happended⟩ := appendSignature_spec h hprepared hok hroom
      have hsigned : r.state = .ok ↔ q.Signed bsp enc := by
        rw [happended.ok_iff]
        constructor
        · rintro ⟨hsha, hlt, hecc, hsignature⟩
          exact ⟨hhashed hsha, hlt, hecc, hsignature⟩
        · rintro ⟨hall, hlt, hecc, hsignature⟩
          exact ⟨hall.sha256, hlt, hecc, hsignature⟩
      rw [hr, Option.map_some, and_iff_right hover]
      exact meets_iff_of_written hsigned happended.written happended.fails
  · have hnot : ¬q.Hashed bsp enc := by
      rintro ⟨hheader, hroom, hpayload, -⟩
      exact hok (hprepared.ok_iff.2 ⟨hheader, hroom, hpayload⟩)
    have hsigned : parts.state = .ok ↔ q.Signed bsp enc :=
      iff_of_false hok fun hsigned => hnot hsigned.hashed
    rw [if_pos hok, Option.map_some, and_iff_right fun hover : q.Overruns bsp enc => hnot hover.hashed]
    exact meets_iff_of_written hsigned (fun h => absurd h hok) hprepared.fails

/-! ## A Board Support Package -/

/-- A character of URL-safe base64. -/
def base64Char (n : Nat) : UInt8 :=
  if n < 26 then UInt8.ofNat (65 + n)
  else if n < 52 then UInt8.ofNat (71 + n)
  else if n < 62 then UInt8.ofNat (n - 4)
  else if n = 62 then 45
  else 95

/-- URL-safe base64, with padding. -/
def base64 : Bytes → Bytes
  | [] => []
  | [a] => [base64Char (a.toNat / 4), base64Char (a.toNat % 4 * 16), 61, 61]
  | [a, b] =>
    [base64Char (a.toNat / 4), base64Char (a.toNat % 4 * 16 + b.toNat / 16),
      base64Char (b.toNat % 16 * 4), 61]
  | a :: b :: c :: s =>
    base64Char (a.toNat / 4) :: base64Char (a.toNat % 4 * 16 + b.toNat / 16) ::
      base64Char (b.toNat % 16 * 4 + c.toNat / 64) :: base64Char (c.toNat % 64) :: base64 s

example : base64 [102, 111, 111, 98] = [90, 109, 57, 118, 89, 103, 61, 61] := by decide

theorem length_base64 (s : Bytes) : (base64 s).length = (s.length + 2) / 3 * 4 := by
  induction s using base64.induct with
  | case1 => rfl
  | case2 => simp [base64]
  | case3 => simp [base64]
  | case4 a b c s ih =>
    simp only [base64, List.length_cons, ih]
    omega

/-- A package whose encoder writes no more than the text, and can fill its buffer. The digests and the
signatures are of the right sizes. -/
def exactBsp : Bsp where
  timeGetcurrenttimeSeconds := 1600000000
  base64EncodeUrlsafe n src :=
    if (base64 src).length ≤ n then ⟨.ok, base64 src, (base64 src).length⟩
    else ⟨.bufferTooSmallError, [], (base64 src).length⟩
  sha256 _ := (.ok, List.replicate 32 0)
  ecc _ n _ := ⟨.ok, List.replicate (min n 64) 0, min n 64⟩

theorem exactBsp_encode_le {n : Nat} {src : Bytes} (h : (base64 src).length ≤ n) :
    exactBsp.base64EncodeUrlsafe n src = ⟨.ok, base64 src, (base64 src).length⟩ :=
  if_pos h

theorem exactBsp_encode_gt {n : Nat} {src : Bytes} (h : n < (base64 src).length) :
    exactBsp.base64EncodeUrlsafe n src = ⟨.bufferTooSmallError, [], (base64 src).length⟩ :=
  if_neg (Nat.not_le.mpr h)

theorem exactBsp_documented : Documented exactBsp base64 where
  encode_within n src := by
    rcases Nat.lt_or_ge n (base64 src).length with h | h
    · rw [exactBsp_encode_gt h]
      exact Nat.zero_le n
    · rw [exactBsp_encode_le h]
      exact h
  encode_written n src := by
    rcases Nat.lt_or_ge n (base64 src).length with h | h
    · rw [exactBsp_encode_gt h]
      exact fun hok => BspCryptoState.noConfusion hok
    · rw [exactBsp_encode_le h]
      exact fun _ => ⟨Nat.le_refl _, List.take_length⟩
  encode_tooSmall n src h := by rw [exactBsp_encode_gt h]
  length_enc src := Nat.le_of_eq (length_base64 src)
  ecc_within key n src := by
    show (List.replicate (min n 64) (0 : UInt8)).length ≤ n
    rw [List.length_replicate]
    exact Nat.min_le_left ..
  ecc_written key n src _ := by
    show min n 64 ≤ (List.replicate (min n 64) (0 : UInt8)).length
    rw [List.length_replicate]

/-- The project id `a`, a key in a slot, and a buffer of this length. -/
def request (length : Nat) : Request where
  projectId := [97]
  expirationPeriodSec := 600
  privateKeyData := ⟨.slotId 0, .es256⟩
  dstJwtBuf := List.replicate length 0
  bytesWritten := 0

theorem request_usable (length : Nat) : (request length).Usable :=
  ⟨rfl, CryptoKeyUnion.noConfusion, fun _ => CryptoKeyUnion.noConfusion⟩

/-- A buffer of one byte is too small, and the function says so. -/
theorem createIotcoreJwt_one : (request 1).Meets exactBsp base64 :=
  (createIotcoreJwt_iff exactBsp_documented (request_usable 1) (by decide)).2
    ⟨fun h => absurd h.hashed.header (by decide), fun h => absurd h.hashed.header (by decide)⟩

/-- The first two parts have 97 bytes. In a buffer of 97 bytes the second dot is the 98th. -/
theorem createIotcoreJwt_overrun :
    ¬∀ (bsp : Bsp) (enc : Bytes → Bytes) (q : Request), Documented bsp enc → q.Usable →
      q.projectId.length ≤ jwtProjectidMaxLen → q.Meets bsp enc := by
  intro h
  obtain ⟨r, hr, -⟩ :=
    h exactBsp base64 (request 97) exactBsp_documented (request_usable 97) (by decide)
  have hnone : createIotcoreJwt exactBsp (request 97).args = none := by decide +kernel
  rw [hnone] at hr
  cases hr

end IotDeviceSdk.Jwt
