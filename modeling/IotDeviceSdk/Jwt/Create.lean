import IotDeviceSdk.Infra.Json

/-!
# Tokens (`iotc_jwt.c`)

`iotc_create_iotcore_jwt` writes a token into the buffer of its caller: the base64 text of the header, a
dot, that of the payload, a dot, and that of the signature.

* The functions of `iotc_bsp_crypto.h` and the clock are parameters. A function that writes to a buffer
  is given by what it stores from the start of the buffer on.
* A text is its bytes, up to the null byte. A null pointer is `none`.
* A write outside of a buffer is `none`. The sum of the times wraps around.
-/

namespace IotDeviceSdk.Jwt

open Infra

/-- `iotc_bsp_crypto_state_t` -/
inductive BspCryptoState where
  | ok
  | error
  | base64Error
  | sha256Error
  | eccError
  | bufferTooSmallError
  | keyParseError
  | serializeError
  | invalidInputParameterError
  deriving DecidableEq, Repr

/-- `iotc_crypto_key_signature_algorithm_t` -/
inductive SignatureAlgorithm where
  | invalid
  | es256
  deriving DecidableEq, Repr

/-- `iotc_crypto_key_union_t`, with its type. -/
inductive CryptoKeyUnion where
  | pem (key : Option Bytes)
  | slotId (slotId : UInt8)
  | custom (data : Option Bytes)
  | other (type : Nat)
  deriving DecidableEq, Repr

/-- `iotc_crypto_key_data_t` -/
structure CryptoKeyData where
  cryptoKeyUnion : CryptoKeyUnion
  cryptoKeySignatureAlgorithm : SignatureAlgorithm
  deriving DecidableEq, Repr

/-- What a function leaves that writes to a buffer: its state, the bytes that it stores, and
`bytes_written`. -/
structure BspWritten where
  state : BspCryptoState
  stored : Bytes
  bytesWritten : Nat
  deriving DecidableEq, Repr

/-- The Board Support Package. The functions that write to a buffer get its size. -/
structure Bsp where
  timeGetcurrenttimeSeconds : Int64
  base64EncodeUrlsafe : Nat → Bytes → BspWritten
  sha256 : Bytes → BspCryptoState × Bytes
  ecc : CryptoKeyData → Nat → Bytes → BspWritten

/-- `IOTC_NOT_IMPLEMENTED` -/
def notImplemented : IotcState := .other 46

/-- `IOTC_ALG_NOT_SUPPORTED_ERROR` -/
def algNotSupportedError : IotcState := .other 70

/-- `IOTC_JWT_FORMATTION_ERROR` -/
def jwtFormattionError : IotcState := .other 71

/-- `IOTC_JWT_PROJECTID_TOO_LONG_ERROR` -/
def jwtProjectidTooLongError : IotcState := .other 72

/-- `IOTC_BUFFER_TOO_SMALL_ERROR` -/
def bufferTooSmallError : IotcState := .other 74

/-- `IOTC_NULL_KEY_DATA_ERROR` -/
def nullKeyDataError : IotcState := .other 75

/-- `IOTC_JWT_HEADER_BUF_SIZE` -/
def jwtHeaderBufSize : Nat := 40

/-- `IOTC_JWT_PAYLOAD_BUF_SIZE` -/
def jwtPayloadBufSize : Nat := 256

/-- `IOTC_JWT_MAX_SIGNATURE_SIZE` -/
def jwtMaxSignatureSize : Nat := 132

/-- `IOTC_JWT_PROJECTID_MAX_LEN` -/
def jwtProjectidMaxLen : Nat := 200

/-! ## The texts -/

/-- `.` -/
def dot : UInt8 := 46

/-- `snprintf` to a buffer of this size. -/
def snprintf (size : Nat) (text : Bytes) : Bytes := text.take (size - 1)

/-- `{"alg":"%s","typ":"JWT"}` -/
def headerText (algo : Bytes) : Bytes :=
  [123, 34, 97, 108, 103, 34, 58, 34] ++ algo ++
    [34, 44, 34, 116, 121, 112, 34, 58, 34, 74, 87, 84, 34, 125]

def header (algo : Bytes) : Bytes := snprintf jwtHeaderBufSize (headerText algo)

/-- `current_time_in_sec + expiration_period_sec` -/
def expirationTime (currentTimeInSec : Int64) (expirationPeriodSec : UInt32) : Int64 :=
  currentTimeInSec + Int64.ofNat expirationPeriodSec.toNat

/-- `{"iat":%lld,"exp":%lld,"aud":"%s"}` -/
def payloadText (currentTimeInSec : Int64) (expirationPeriodSec : UInt32) (projectId : Bytes) : Bytes :=
  [123, 34, 105, 97, 116, 34, 58] ++ Json.decimal currentTimeInSec.toInt ++
    ([44, 34, 101, 120, 112, 34, 58] ++
      Json.decimal (expirationTime currentTimeInSec expirationPeriodSec).toInt ++
    ([44, 34, 97, 117, 100, 34, 58, 34] ++ (projectId ++ [34, 125])))

def payload (currentTimeInSec : Int64) (expirationPeriodSec : UInt32) (projectId : Bytes) : Bytes :=
  snprintf jwtPayloadBufSize (payloadText currentTimeInSec expirationPeriodSec projectId)

/-- `"ES256"` -/
def es256 : Bytes := [69, 83, 50, 53, 54]

/-! ## The token -/

/-- A write of these bytes to a buffer. -/
def storeAt (buffer : Bytes) (offset : Nat) (bytes : Bytes) : Option Bytes :=
  if offset + bytes.length ≤ buffer.length then
    some (buffer.take offset ++ bytes ++ buffer.drop (offset + bytes.length))
  else none

/-- What the parts of the function leave: the state, the buffer and `*bytes_written`. -/
structure Parts where
  state : BspCryptoState
  buffer : Bytes
  bytesWritten : Nat
  deriving DecidableEq, Repr

/-- `_iotc_create_iotcore_jwt_b64h_b64p` -/
def createIotcoreJwtB64hB64p (bsp : Bsp) (dstString projectId : Bytes) (expirationPeriodSec : UInt32)
    (algo : Bytes) : Option Parts :=
  let h := bsp.base64EncodeUrlsafe dstString.length (header algo)
  (storeAt dstString 0 h.stored).bind fun dstString =>
  if h.state ≠ .ok then some ⟨h.state, dstString, h.bytesWritten⟩
  else if h.bytesWritten ≥ dstString.length then
    some ⟨.bufferTooSmallError, dstString, h.bytesWritten⟩
  else
    (storeAt dstString h.bytesWritten [dot]).bind fun dstString =>
    let bytesWritten := h.bytesWritten + 1
    let p := bsp.base64EncodeUrlsafe (dstString.length - bytesWritten)
      (payload bsp.timeGetcurrenttimeSeconds expirationPeriodSec projectId)
    (storeAt dstString bytesWritten p.stored).map fun dstString =>
      ⟨p.state, dstString, bytesWritten + p.bytesWritten⟩

/-- The rest of the token: the second dot, which is written without a look at the size, and the
signature. -/
def appendSignature (bsp : Bsp) (privateKeyData : CryptoKeyData) (parts : Parts) : Option Parts :=
  -- `src_buf_size` of `iotc_bsp_sha256` has 32 bits
  let sha256 := bsp.sha256 (parts.buffer.take (parts.bytesWritten % 2 ^ 32))
  if sha256.1 ≠ .ok then some { parts with state := sha256.1 }
  else
    (storeAt parts.buffer parts.bytesWritten [dot]).bind fun dstJwtBuf =>
    let bytesWritten := parts.bytesWritten + 1
    let ecc := bsp.ecc privateKeyData jwtMaxSignatureSize sha256.2
    (storeAt (List.replicate jwtMaxSignatureSize 0) 0 ecc.stored).bind fun eccSignature =>
    if ecc.state ≠ .ok then some ⟨ecc.state, dstJwtBuf, bytesWritten⟩
    else
      let s := bsp.base64EncodeUrlsafe (dstJwtBuf.length - bytesWritten)
        (eccSignature.take ecc.bytesWritten)
      (storeAt dstJwtBuf bytesWritten s.stored).map fun dstJwtBuf =>
        ⟨s.state, dstJwtBuf, bytesWritten + s.bytesWritten⟩

/-- What becomes of a state of the BSP. -/
def stateOf : BspCryptoState → IotcState
  | .ok => .ok
  | .bufferTooSmallError => bufferTooSmallError
  | .invalidInputParameterError => .invalidParameter
  | _ => jwtFormattionError

/-- The arguments. `dstJwtBuf` is the buffer, whose length is `dst_jwt_buf_len`. -/
structure Args where
  projectId : Option Bytes
  expirationPeriodSec : UInt32
  privateKeyData : Option CryptoKeyData
  dstJwtBuf : Option Bytes
  bytesWritten : Option Nat
  deriving DecidableEq, Repr

/-- What the function leaves. -/
structure Result where
  state : IotcState
  dstJwtBuf : Option Bytes
  bytesWritten : Option Nat
  deriving DecidableEq, Repr

/-- `iotc_create_iotcore_jwt` -/
def createIotcoreJwt (bsp : Bsp) (a : Args) : Option Result :=
  match a.projectId, a.privateKeyData, a.dstJwtBuf, a.bytesWritten with
  | some projectId, some privateKeyData, some dstJwtBuf, some _ =>
    if privateKeyData.cryptoKeySignatureAlgorithm ≠ .es256 then
      some ⟨algNotSupportedError, a.dstJwtBuf, a.bytesWritten⟩
    else
      match privateKeyData.cryptoKeyUnion with
      | .pem none => some ⟨nullKeyDataError, a.dstJwtBuf, a.bytesWritten⟩
      | .other _ => some ⟨notImplemented, a.dstJwtBuf, a.bytesWritten⟩
      | _ =>
        if jwtProjectidMaxLen < projectId.length then
          some ⟨jwtProjectidTooLongError, a.dstJwtBuf, some jwtProjectidMaxLen⟩
        else
          (createIotcoreJwtB64hB64p bsp dstJwtBuf projectId a.expirationPeriodSec es256).bind fun parts =>
          (if parts.state ≠ .ok then some parts
            else appendSignature bsp privateKeyData parts).map fun r =>
            ⟨stateOf r.state, some r.buffer, some r.bytesWritten⟩
  | _, _, _, _ => some ⟨.invalidParameter, a.dstJwtBuf, a.bytesWritten⟩

end IotDeviceSdk.Jwt
