import CoStream.Foundation.Copy
import CoStream.StringEx

namespace CoStream
open Foundation

def rtmpOk : Int := 0
def rtmpNeedReadMore : Int := 1
def rtmpSimpleHandshake : Int := 2
def rtmpHandshakeVersion : UInt8 := 0x03

inductive HandshakeSchema where
  | init | schema0 | schema1
deriving DecidableEq,Repr

def genuineFlashPlayerKey : Bytes := [
  0x47,0x65,0x6E,0x75,0x69,0x6E,0x65,0x20,0x41,0x64,0x6F,0x62,0x65,0x20,0x46,0x6C,
  0x61,0x73,0x68,0x20,0x50,0x6C,0x61,0x79,0x65,0x72,0x20,0x30,0x30,0x31,
  0xF0,0xEE,0xC2,0x4A,0x80,0x68,0xBE,0xE8,0x2E,0x00,0xD0,0xD1,0x02,0x9E,0x7E,0x57,
  0x6E,0xEC,0x5D,0x2D,0x29,0x80,0x6F,0xAB,0x93,0xB8,0xE6,0x36,0xCF,0xEB,0x31,0xAE]

-- The places of the handshake that compute an HMAC.
inductive HmacUse where
  | schema1 | schema0 | s1Digest | s2Key | s2Digest | validKey | validDigest
deriving DecidableEq,Repr

-- HMAC_Init_ex, HMAC_Update and HMAC_Final return 1 on success and 0 on failure.
-- `left` is what the array holds that should get a digest, where it gets none.
structure HmacResults where
  init : Int := 1
  update : Int := 1
  final : Int := 1
  digestSize : Nat := 32
  left : List.Vector UInt8 32 := List.Vector.replicate 32 0
deriving DecidableEq

def HmacResults.Succeeded (results : HmacResults) : Prop := 0 < results.init ∧ 0 < results.update ∧ 0 < results.final
instance {results : HmacResults} : Decidable results.Succeeded := inferInstanceAs (Decidable (_ ∧ _))

-- OpenSSL, as the handshake meets it: what its HMAC calls return, the digest of
-- a key and a message, what DHGenKey::Init returns, and the shared key for the
-- peer's (`none` is a failure). `behindKey` is what follows the key array in
-- memory: two calls read 68 bytes of its 62.
structure Crypto where
  hmac : HmacUse → HmacResults
  digest : HmacUse → Bytes → Bytes → List.Vector UInt8 32
  dhInit : Int
  sharedKey : Bytes → Option Bytes
  behindKey : List.Vector UInt8 6

-- The digest array behind the three calls.
def hmacArray (crypto : Crypto) (use : HmacUse) (key data : Bytes) : List.Vector UInt8 32 :=
  if (crypto.hmac use).Succeeded then crypto.digest use key data else (crypto.hmac use).left

-- Only a negative result counts as a failure, which OpenSSL does not return.
def hmacSha256 (crypto : Crypto) (use : HmacUse) (key data : Bytes) : Option (List.Vector UInt8 32) :=
  let results := crypto.hmac use
  if results.init < 0 ∨ results.update < 0 ∨ results.final < 0 ∨ results.digestSize ≠ 32 then none
  else some (hmacArray crypto use key data)

def read4Bytes (data : Bytes) (start : Nat) : Except Fault Nat := do
  let bytes ← slice data start 4
  return bigEndian bytes
def write4Bytes (value : Nat) : Bytes := [byteAt value 24,byteAt value 16,byteAt value 8,byteAt value 0]

def toUint32 (x : Int) : Nat := (x % 2^32).toNat

-- The sum of the four bytes of an offset, brought below a bound.
def calcValidOffset (maxOffset offset : Nat) : Nat := ((write4Bytes offset).map UInt8.toNat).sum % maxOffset
def calcValidDigestOffset (offset : Nat) : Nat := calcValidOffset (764-32-4) offset
def calcValidKeyOffset (offset : Nat) : Nat := calcValidOffset (764-128-4) offset

-- The four random segments stand for a pointer and its size. Members that no
-- constructor sets hold what was in memory: they have no default here.
structure C1S1Handle where
  schema : HandshakeSchema := .init
  c1Data : List.Vector UInt8 1536
  c1Time : Nat
  c1Version : Nat
  keyRandom0 : Bytes := []
  keyRandom1 : Bytes := []
  c1KeyOffset : Nat
  c1KeyData : List.Vector UInt8 128
  c1DigestOffset : Nat
  digestRandom0 : Bytes := []
  digestRandom1 : Bytes := []
  digestData : List.Vector UInt8 32
  s1TimeSec : Nat
  s1Version : Nat
  s1KeyData : List.Vector UInt8 128
  s1DigestData : List.Vector UInt8 32
deriving DecidableEq

namespace C1S1Handle

-- key: random, 128 bytes of key, random, 4 bytes of offset.
def parseKey (h : C1S1Handle) (data : Bytes) : Except Fault C1S1Handle := do
  let c1KeyOffset ← read4Bytes data (764-4)
  let realOffset := calcValidKeyOffset c1KeyOffset
  assert (realOffset < 764-4)
  let keyRandom0 ← slice data 0 realOffset
  let c1KeyData ← sliceFixed data realOffset 128
  let keyRandom1Size := toUint32 (764-realOffset-128-4)
  assert (keyRandom1Size < 764-4)
  let keyRandom1 ← slice data (realOffset+128) keyRandom1Size
  assert (realOffset+128+keyRandom1Size+4 = 764)
  return {h with c1KeyOffset,keyRandom0,c1KeyData,keyRandom1}

-- digest: 4 bytes of offset, random, 32 bytes of digest, random.
def parseDigest (h : C1S1Handle) (data : Bytes) : Except Fault C1S1Handle := do
  let c1DigestOffset ← read4Bytes data 0
  let realOffset := calcValidDigestOffset c1DigestOffset
  assert (realOffset < 764-4)
  let digestRandom0 ← slice data 4 realOffset
  let digestData ← sliceFixed data (4+realOffset) 32
  let digestRandom1Size := toUint32 (764-4-realOffset-32)
  assert (digestRandom1Size < 764-4)
  let digestRandom1 ← slice data (4+realOffset+32) digestRandom1Size
  assert (4+realOffset+32+digestRandom1Size = 764)
  return {h with c1DigestOffset,digestRandom0,digestData,digestRandom1}

def trySchema0 (h : C1S1Handle) (data : Bytes) : Except Fault C1S1Handle := do
  let h ← h.parseKey data
  h.parseDigest (data.drop 764)

def trySchema1 (h : C1S1Handle) (data : Bytes) : Except Fault C1S1Handle := do
  let h ← h.parseDigest data
  h.parseKey (data.drop 764)

-- C1 without its 32 bytes of digest, which stand behind `front` bytes and the
-- first random segment.
def joinedC1 (h : C1S1Handle) (front : Nat) : Except Fault Bytes := do
  let firstPartLen := front+h.digestRandom0.length
  let secondPartLen := toSize (1536-firstPartLen-32)
  let first ← slice h.c1Data.toList 0 firstPartLen
  let second ← slice h.c1Data.toList (firstPartLen+32) secondPartLen
  assert (firstPartLen+secondPartLen = 1536-32)
  return first++second

-- Every code that is returned as a bool counts as true.
def compareDigest (crypto : Crypto) (h : C1S1Handle) (use : HmacUse) (front : Nat) : Except Fault Bool := do
  let inputData ← h.joinedC1 front
  let results := crypto.hmac use
  if results.update < 0 ∨ results.final < 0 then return true
  assert (results.digestSize = 32)
  return decide (h.digestData = hmacArray crypto use (genuineFlashPlayerKey.take 30) inputData)

def checkDigestValid (crypto : Crypto) (h : C1S1Handle) : HandshakeSchema → Except Fault Bool
  | .schema0 => if (crypto.hmac .schema0).init < 0 then .ok true else h.compareDigest crypto .schema0 (8+764+4)
  | .schema1 => if (crypto.hmac .schema1).init < 0 then .ok true else h.compareDigest crypto .schema1 (8+4)
  | .init => .ok true

-- TrySchema0 and TrySchema1 always return 0.
def parseC1 (crypto : Crypto) (h : C1S1Handle) (c1 : Bytes) : Except Fault (C1S1Handle × Int) := do
  let c1Data ← sliceFixed c1 0 1536
  let c1Time ← read4Bytes c1 0
  let c1Version ← read4Bytes c1 4
  let h ← C1S1Handle.trySchema1 {h with c1Data,c1Time,c1Version} (c1.drop 8)
  let isValid ← h.checkDigestValid crypto .schema1
  if isValid then return ({h with schema:=.schema1},0)
  let h ← h.trySchema0 (c1.drop 8)
  let isValid ← h.checkDigestValid crypto .schema0
  if isValid then return ({h with schema:=.schema0},0)
  return ({h with schema:=.schema0},rtmpSimpleHandshake)

theorem parseC1_ret {h : C1S1Handle} (parsed : h.parseC1 crypto c1 = .ok (next,ret)) : ret = rtmpOk ∨ ret = rtmpSimpleHandshake := by
  unfold parseC1 at parsed
  obtain ⟨_,-,parsed⟩ := bind_ok.mp parsed
  obtain ⟨_,-,parsed⟩ := bind_ok.mp parsed
  obtain ⟨_,-,parsed⟩ := bind_ok.mp parsed
  obtain ⟨_,-,parsed⟩ := bind_ok.mp parsed
  obtain ⟨isValid,-,parsed⟩ := bind_ok.mp parsed
  cases isValid with
  | true =>
    cases parsed
    exact .inl rfl
  | false =>
    obtain ⟨_,-,parsed⟩ := bind_ok.mp parsed
    obtain ⟨isValid,-,parsed⟩ := bind_ok.mp parsed
    cases isValid with
    | true =>
      cases parsed
      exact .inl rfl
    | false =>
      cases parsed
      exact .inr rfl

-- The 1504 bytes are a local array; fewer would leave some of it unwritten.
def joinedS1 (h : C1S1Handle) : Except Fault Bytes := do
  let joined := write4Bytes h.s1TimeSec++write4Bytes h.s1Version++h.keyRandom0++h.c1KeyData.toList++h.keyRandom1++
    write4Bytes h.c1KeyOffset++write4Bytes h.c1DigestOffset++h.digestRandom0++h.digestRandom1
  if joined.length = 1536-32 then return joined else .error .outOfBounds

def makeS1Digest (crypto : Crypto) (h : C1S1Handle) : Except Fault (Option (List.Vector UInt8 32)) := do
  let joinedBytes ← h.joinedS1
  return hmacSha256 crypto .s1Digest (genuineFlashPlayerKey.take 36) joinedBytes

def makeKey (h : C1S1Handle) : Bytes := h.keyRandom0++h.s1KeyData.toList++h.keyRandom1++write4Bytes h.c1KeyOffset
def makeDigest (h : C1S1Handle) : Bytes :=
  write4Bytes h.c1DigestOffset++h.digestRandom0++h.s1DigestData.toList++h.digestRandom1

variable {size : Nat}

def makeSchema0 (h : C1S1Handle) (body : List.Vector UInt8 size) (p : Nat) : Except Fault (List.Vector UInt8 size) := do
  let body ← overlay body p h.makeKey
  overlay body (p+764) h.makeDigest

def makeSchema1 (h : C1S1Handle) (body : List.Vector UInt8 size) (p : Nat) : Except Fault (List.Vector UInt8 size) := do
  let body ← overlay body p h.makeDigest
  overlay body (p+764) h.makeKey

-- The key exchange writes what it computed over the member before its length
-- is looked at. `none` is a code other than 0.
def makeSharedKey (crypto : Crypto) (h : C1S1Handle) : Except Fault (Option C1S1Handle) :=
  if crypto.dhInit ≠ 0 then .ok none
  else
    match crypto.sharedKey h.c1KeyData.toList with
    | none => .ok none
    | some key => do
      let s1KeyData ← overlay h.s1KeyData 0 key
      return some {h with s1KeyData}

def writeS1 (h : C1S1Handle) (s1Data : List.Vector UInt8 size) : Except Fault (List.Vector UInt8 size × Bool) := do
  let s1Data ← overlay s1Data 0 (write4Bytes h.s1TimeSec++write4Bytes h.s1Version)
  match h.schema with
  | .schema0 => do
    let s1Data ← h.makeSchema0 s1Data 8
    return (s1Data,true)
  | .schema1 => do
    let s1Data ← h.makeSchema1 s1Data 8
    return (s1Data,true)
  | .init => return (s1Data,false)

def makeS1 (crypto : Crypto) (h : C1S1Handle) (s1Data : List.Vector UInt8 size) :
    Except Fault (C1S1Handle × List.Vector UInt8 size × Bool) := do
  let h := {h with s1TimeSec:=h.c1Time,s1Version:=0x01000504}
  match ← h.makeSharedKey crypto with
  | none => return (h,s1Data,false)
  | some h =>
    match ← h.makeS1Digest crypto with
    | none => return (h,s1Data,false)
    | some s1DigestData =>
      let h := {h with s1DigestData}
      let written ← h.writeS1 s1Data
      return (h,written)

end C1S1Handle

structure C2S2Handle where
  random : List.Vector UInt8 1504
  digest : List.Vector UInt8 32
deriving DecidableEq

namespace C2S2Handle

-- The digest of the random part, under a key that is itself a digest.
def expectedDigest (crypto : Crypto) (c : C2S2Handle) (c1Digest : List.Vector UInt8 32) (keyUse digestUse : HmacUse) :
    Option (List.Vector UInt8 32) := do
  let tempKey ← hmacSha256 crypto keyUse (genuineFlashPlayerKey++crypto.behindKey.toList) c1Digest.toList
  hmacSha256 crypto digestUse tempKey.toList c.random.toList

def createByDigest (crypto : Crypto) (c : C2S2Handle) (c1Digest : List.Vector UInt8 32) : Option C2S2Handle :=
  (c.expectedDigest crypto c1Digest .s2Key .s2Digest).map fun digest => {c with digest}

def validateS2 (crypto : Crypto) (c : C2S2Handle) (c1Digest : List.Vector UInt8 32) : Bool :=
  match c.expectedDigest crypto c1Digest .validKey .validDigest with
  | none => true
  | some digest => decide (c.digest = digest)

def generate (c : C2S2Handle) : List.Vector UInt8 1536 := ⟨c.random.toList++c.digest.toList,by simp⟩

end C2S2Handle

structure RtmpServerHandshake where
  c0Version : UInt8 := 0
  c1s1 : C1S1Handle
  c2s2 : C2S2Handle
  s1Body : List.Vector UInt8 1536 := List.Vector.replicate 1536 0
  s2Body : List.Vector UInt8 1536 := List.Vector.replicate 1536 0
deriving DecidableEq

namespace RtmpServerHandshake

def parseC0C1 (crypto : Crypto) (hs : RtmpServerHandshake) (c0c1 : Bytes) : Except Fault (RtmpServerHandshake × Int) := do
  let c0 ← sliceFixed c0c1 0 1
  let (c1s1,ret) ← hs.c1s1.parseC1 crypto (c0c1.drop 1)
  return ({hs with c0Version:=c0.head,c1s1},ret)

def handleC0C1 (crypto : Crypto) (hs : RtmpServerHandshake) (recvBuffer : Bytes) :
    Except Fault (RtmpServerHandshake × Int) :=
  if recvBuffer.length < 1+1536 then .ok (hs,rtmpNeedReadMore) else hs.parseC0C1 crypto recvBuffer

def handleC2 (recvBuffer : Bytes) : Bytes × Int :=
  if recvBuffer.length < 1536 then (recvBuffer,rtmpNeedReadMore) else (recvBuffer.drop 1536,rtmpOk)

def makeS1Data (crypto : Crypto) (hs : RtmpServerHandshake) : Except Fault (RtmpServerHandshake × Bool) := do
  let (c1s1,s1Body,made) ← hs.c1s1.makeS1 crypto hs.s1Body
  return ({hs with c1s1,s1Body},made)

def makeS2Data (crypto : Crypto) (hs : RtmpServerHandshake) : RtmpServerHandshake × Bool :=
  match hs.c2s2.createByDigest crypto hs.c1s1.digestData with
  | none => (hs,false)
  | some c2s2 =>
    if c2s2.validateS2 crypto hs.c1s1.digestData then ({hs with c2s2,s2Body:=c2s2.generate},true)
    else ({hs with c2s2},false)

-- `none` is a negative code. The random bytes the answer starts from are all
-- written over.
def sendS0S1S2 (crypto : Crypto) (hs : RtmpServerHandshake) : Except Fault (RtmpServerHandshake × Option Bytes) := do
  let (hs,madeS1) ← hs.makeS1Data crypto
  if madeS1 then
    let (hs,madeS2) := hs.makeS2Data crypto
    if madeS2 then return (hs,some (rtmpHandshakeVersion::(hs.s1Body.toList++hs.s2Body.toList)))
    else return (hs,none)
  else return (hs,none)

theorem handleC0C1_waits (short : recvBuffer.length < 1537) :
    handleC0C1 crypto hs recvBuffer = .ok (hs,rtmpNeedReadMore) := if_pos short

theorem handleC0C1_parses (long : 1537 ≤ recvBuffer.length) (handled : handleC0C1 crypto hs recvBuffer = .ok (next,ret)) :
    ret = rtmpOk ∨ ret = rtmpSimpleHandshake := by
  unfold handleC0C1 at handled
  rw [if_neg (by omega)] at handled
  obtain ⟨c0,-,handled⟩ := bind_ok.mp handled
  obtain ⟨⟨c1s1,code⟩,parsed,handled⟩ := bind_ok.mp handled
  cases handled
  exact C1S1Handle.parseC1_ret parsed

end RtmpServerHandshake
end CoStream
