import CoStream.RtmpAnswer
import CoStream.RtmpClientHello
import CoStream.RtmpSplice

namespace CoStream
open Foundation

namespace C1S1Handle

-- The client's side. Only S0 and the head of S1 are looked at.
def parseS0S1S2 (h : C1S1Handle) (s0s1s2Data : Bytes) : Except Fault (C1S1Handle × Int) := do
  let s0 ← sliceFixed s0s1s2Data 0 1
  if s0.head ≠ rtmpHandshakeVersion then return (h,-1)
  let s1TimeSec ← read4Bytes s0s1s2Data 1
  let s1Version ← read4Bytes s0s1s2Data (1+4)
  return ({h with s1TimeSec,s1Version},0)

variable {size : Nat}

def makeC2 (nowMillisec : Int) (draws : Draws) (h : C1S1Handle) (c2Data : List.Vector UInt8 size) :
    Except Fault (List.Vector UInt8 size × Int) := do
  let c2Data ← overlay c2Data 0 (rtmpRandomGenerate draws 1536)
  let nowMs := toUint32 nowMillisec
  let c2Data ← overlay c2Data 0 (write4Bytes nowMs)
  let c2Data ← overlay c2Data 4 (write4Bytes h.s1TimeSec)
  return (c2Data,0)

end C1S1Handle

namespace C2S2Handle

def create (draws : Draws) : C2S2Handle where
  random := rtmpRandomFixed draws 1504
  digest := rtmpRandomFixed (draws.behind 1504) 32

def parse (body : Bytes) : Except Fault C2S2Handle := do
  let random ← sliceFixed body 0 1504
  let digest ← sliceFixed body 1504 32
  return {random,digest}

theorem parse_generate (c : C2S2Handle) (rest : Bytes) : parse (c.generate.toList++rest) = .ok c := by
  have shape : c.generate.toList++rest = c.random.toList++(c.digest.toList++rest) := List.append_assoc _ _ _
  have random : sliceFixed (c.generate.toList++rest) 0 1504 = .ok c.random := sliceFixed_part [] c.random _ shape rfl
  have digest : sliceFixed (c.generate.toList++rest) 1504 32 = .ok c.digest :=
    sliceFixed_part c.random.toList c.digest rest shape (c.random.toList_length).symm
  unfold parse
  rw [random,ok_bind,digest]
  rfl

-- The key of both digests is itself a digest, under a key that takes in what
-- stands behind the array in memory.
def chained (hmac : Bytes → Bytes → List.Vector UInt8 32) (behindKey : List.Vector UInt8 6) (c1Digest : List.Vector UInt8 32)
    (c : C2S2Handle) : List.Vector UInt8 32 :=
  hmac (hmac (genuineFlashPlayerKey++behindKey.toList) c1Digest.toList).toList c.random.toList

end C2S2Handle

namespace FixedHmac
variable {crypto : Crypto} {hmac : Bytes → Bytes → List.Vector UInt8 32}

theorem hmacSha256 (fixed : FixedHmac crypto hmac) (use : HmacUse) (key data : Bytes) :
    hmacSha256 crypto use key data = some (hmac key data) := by
  obtain ⟨⟨init,update,final⟩,size⟩ := fixed.succeeds use
  unfold CoStream.hmacSha256
  dsimp only
  rw [if_neg (by omega),fixed.array]

theorem expectedDigest (fixed : FixedHmac crypto hmac) (c : C2S2Handle) (c1Digest : List.Vector UInt8 32)
    (keyUse digestUse : HmacUse) :
    c.expectedDigest crypto c1Digest keyUse digestUse = some (c.chained hmac crypto.behindKey c1Digest) := by
  unfold C2S2Handle.expectedDigest
  rw [fixed.hmacSha256,Option.bind_eq_bind,Option.bind_some,fixed.hmacSha256]
  rfl

theorem validateS2 (fixed : FixedHmac crypto hmac) (c : C2S2Handle) (c1Digest : List.Vector UInt8 32) :
    c.validateS2 crypto c1Digest = decide (c.digest = c.chained hmac crypto.behindKey c1Digest) := by
  unfold C2S2Handle.validateS2
  rw [fixed.expectedDigest]

end FixedHmac

-- Init starts, and what the exchange computes fits the key's member.
structure WorkingDh (crypto : Crypto) : Prop where
  starts : crypto.dhInit = 0
  agrees : ∀ key, ∃ shared, crypto.sharedKey key = some shared ∧ shared.length ≤ 128

namespace C1S1Handle

-- ParseC1 looks at 1536 bytes, whatever stands behind them.
theorem read4Bytes_front {data : Bytes} (rest : Bytes) (inside : start+4 ≤ data.length) :
    read4Bytes (data++rest) start = read4Bytes data start := by
  unfold read4Bytes slice
  rw [if_pos (by rw [List.length_append]; omega),if_pos inside,List.drop_append_of_le_length (by omega),
    List.take_append_of_le_length (by rw [List.length_drop]; omega)]

theorem trySchema1_front (h : C1S1Handle) (c1 : List.Vector UInt8 1536) (rest : Bytes) :
    h.trySchema1 (c1.toList.drop 8++rest) = h.trySchema1 (c1.toList.drop 8) := by
  obtain ⟨⟨d,k,blocks⟩,-⟩ := c1_blocks c1
  rw [blocks,List.append_assoc,trySchema1,trySchema1,parseDigest_block h d _ rfl,parseDigest_block h d _ rfl,ok_bind,ok_bind,
    parseKey_block _ k rest (List.drop_left' d.length_bytes),
    parseKey_block _ k [] (by rw [List.drop_left' d.length_bytes,List.append_nil])]

theorem trySchema0_front (h : C1S1Handle) (c1 : List.Vector UInt8 1536) (rest : Bytes) :
    h.trySchema0 (c1.toList.drop 8++rest) = h.trySchema0 (c1.toList.drop 8) := by
  obtain ⟨-,k,d,blocks⟩ := c1_blocks c1
  rw [blocks,List.append_assoc,trySchema0,trySchema0,parseKey_block h k _ rfl,parseKey_block h k _ rfl,ok_bind,ok_bind,
    parseDigest_block _ d rest (List.drop_left' k.length_bytes),
    parseDigest_block _ d [] (by rw [List.drop_left' k.length_bytes,List.append_nil])]

theorem parseC1_front (h : C1S1Handle) (crypto : Crypto) (c1 : List.Vector UInt8 1536) (rest : Bytes) :
    h.parseC1 crypto (c1.toList++rest) = h.parseC1 crypto c1.toList := by
  have long := c1.toList_length
  have behind : (c1.toList++rest).drop 8 = c1.toList.drop 8++rest := List.drop_append_of_le_length (by omega)
  have copied : sliceFixed (c1.toList++rest) 0 1536 = .ok c1 := sliceFixed_part [] c1 rest rfl rfl
  have alone : sliceFixed c1.toList 0 1536 = .ok c1 := sliceFixed_part [] c1 [] (by simp) rfl
  unfold parseC1
  rw [copied,alone,read4Bytes_front rest (by omega),read4Bytes_front rest (by omega),behind]
  simp only [trySchema1_front,trySchema0_front]

-- An answer is made once the exchange and the hash work.
theorem makeS1_made {h : C1S1Handle} {crypto : Crypto} {hmac : Bytes → Bytes → List.Vector UInt8 32}
    (fixed : FixedHmac crypto hmac) (works : WorkingDh crypto) (cut : Cut h d k) (schema : h.schema = .schema1)
    (body : List.Vector UInt8 1536) : ∃ next s1 blocks, h.makeS1 crypto body = .ok (next,s1,true) ∧
    next.digestData = h.digestData ∧ s1.toList = write4Bytes h.c1Time++write4Bytes 0x01000504++blocks := by
  obtain ⟨shared,exchange,fits⟩ := works.agrees h.c1KeyData.toList
  obtain ⟨old,rest,shape,same⟩ := cut_front h.s1KeyData.toList shared.length (by rw [List.Vector.toList_length]; exact fits)
  obtain ⟨s1KeyData,wrote,-⟩ := overlay_part h.s1KeyData [] old rest shared 0 shape rfl same
  let keyed : C1S1Handle := {h with s1TimeSec:=h.c1Time,s1Version:=0x01000504,s1KeyData}
  have keyedCut : Cut keyed d k :=
    ⟨cut.digestOffset,cut.digestRandom0,cut.digestRandom1,cut.keyOffset,cut.keyRandom0,cut.keyRandom1,cut.keyData⟩
  let signed : C1S1Handle :=
    {keyed with s1DigestData:=hmac (genuineFlashPlayerKey.take 36) (keyed.s1Head++(k.bytes++d.bare))}
  have signedCut : Cut signed d k :=
    ⟨cut.digestOffset,cut.digestRandom0,cut.digestRandom1,cut.keyOffset,cut.keyRandom0,cut.keyRandom1,cut.keyData⟩
  obtain ⟨first,second,s1,wroteHead,wroteDigest,wroteKey,whole⟩ := written_blocks body signed.s1Head signed.makeDigest
    signed.makeKey rfl (by rw [makeDigest_cut signedCut,DigestBlock.length_bytes])
    (by rw [makeKey_cut signedCut,KeyBlock.length_bytes])
  refine ⟨signed,s1,signed.makeDigest++signed.makeKey,?_,rfl,whole⟩
  have exchanged : makeSharedKey crypto {h with s1TimeSec:=h.c1Time,s1Version:=0x01000504} = .ok (some keyed) := by
    unfold makeSharedKey
    rw [if_neg (by rw [works.starts]; decide)]
    simp only [exchange,wrote]
    rfl
  have hashed : makeS1Digest crypto keyed = .ok (some signed.s1DigestData) := by
    unfold makeS1Digest
    rw [joinedS1_cut keyedCut,ok_bind,fixed.hmacSha256]
    rfl
  have written : signed.writeS1 body = .ok (s1,true) := by
    unfold writeS1
    rw [show overlay body 0 (write4Bytes signed.s1TimeSec++write4Bytes signed.s1Version) = _ from wroteHead,ok_bind]
    simp only [show signed.schema = .schema1 from schema,makeSchema1,wroteDigest,ok_bind,wroteKey]
    rfl
  unfold makeS1
  simp only [exchanged,ok_bind,hashed]
  rw [show writeS1 _ body = _ from written]
  rfl

end C1S1Handle

namespace C2S2Handle

-- S2 for the digest of a C1.
def answering (hmac : Bytes → Bytes → List.Vector UInt8 32) (crypto : Crypto) (c1Digest : List.Vector UInt8 32)
    (c : C2S2Handle) : C2S2Handle :=
  {c with digest:=c.chained hmac crypto.behindKey c1Digest}

end C2S2Handle

namespace RtmpServerHandshake
variable {crypto : Crypto} {hmac : Bytes → Bytes → List.Vector UInt8 32} {hs : RtmpServerHandshake}

theorem makeS2Data_made (fixed : FixedHmac crypto hmac) : hs.makeS2Data crypto =
    ({hs with c2s2:=hs.c2s2.answering hmac crypto hs.c1s1.digestData
              s2Body:=(hs.c2s2.answering hmac crypto hs.c1s1.digestData).generate},true) := by
  have valid : (hs.c2s2.answering hmac crypto hs.c1s1.digestData).validateS2 crypto hs.c1s1.digestData = true := by
    rw [fixed.validateS2]
    exact decide_eq_true rfl
  have created : hs.c2s2.createByDigest crypto hs.c1s1.digestData =
      some (hs.c2s2.answering hmac crypto hs.c1s1.digestData) := by
    unfold C2S2Handle.createByDigest
    rw [fixed.expectedDigest]
    rfl
  unfold makeS2Data
  simp only [created,valid]
  rfl

theorem sendS0S1S2_made (hs : RtmpServerHandshake) (fixed : FixedHmac crypto hmac) (works : WorkingDh crypto) (cut : C1S1Handle.Cut hs.c1s1 d k)
    (schema : hs.c1s1.schema = .schema1) : ∃ next blocks, blocks.length = 1528 ∧
    hs.sendS0S1S2 crypto = .ok (next,some (rtmpHandshakeVersion::(write4Bytes hs.c1s1.c1Time++write4Bytes 0x01000504++blocks++
      (hs.c2s2.answering hmac crypto hs.c1s1.digestData).generate.toList))) := by
  obtain ⟨c1s1,s1,blocks,made,digest,shape⟩ := C1S1Handle.makeS1_made fixed works cut schema hs.s1Body
  have total := s1.toList_length
  rw [shape,List.length_append,List.length_append,length_write4Bytes,length_write4Bytes] at total
  have s1Made : hs.makeS1Data crypto = .ok ({hs with c1s1,s1Body:=s1},true) := by
    unfold makeS1Data
    rw [made]
    rfl
  refine ⟨(makeS2Data crypto {hs with c1s1,s1Body:=s1}).1,blocks,by omega,?_⟩
  unfold sendS0S1S2
  rw [s1Made,ok_bind]
  simp only [if_true,makeS2Data_made fixed,shape,digest]
  rfl

end RtmpServerHandshake

namespace C1S1Handle

theorem parseS0S1S2_head (h : C1S1Handle) (timeFits : time < 2^32) (versionFits : version < 2^32) (rest : Bytes) :
    h.parseS0S1S2 (rtmpHandshakeVersion::(write4Bytes time++write4Bytes version++rest)) =
      .ok ({h with s1TimeSec:=time,s1Version:=version},0) := by
  have s0 : sliceFixed (rtmpHandshakeVersion::(write4Bytes time++write4Bytes version++rest)) 0 1 =
      .ok (List.Vector.replicate 1 rtmpHandshakeVersion) := sliceFixed_part [] _ _ rfl rfl
  have readTime := read4Bytes_part [rtmpHandshakeVersion] (write4Bytes version++rest) timeFits
    (show rtmpHandshakeVersion::(write4Bytes time++write4Bytes version++rest) = _ by simp) (show 1 = _ from rfl)
  have readVersion := read4Bytes_part (rtmpHandshakeVersion::write4Bytes time) rest versionFits
    (show rtmpHandshakeVersion::(write4Bytes time++write4Bytes version++rest) = _ by simp) (show 1+4 = _ from rfl)
  unfold parseS0S1S2
  rw [s0,ok_bind,if_neg (by decide),readTime,ok_bind,readVersion]
  rfl

-- C2 gives the time of S1 back, behind the client's own.
theorem makeC2_exact (h : C1S1Handle) (nowMillisec : Int) (draws : Draws) (body : List.Vector UInt8 1536) : ∃ c2,
    h.makeC2 nowMillisec draws body = .ok (c2,0) ∧ c2.toList =
      write4Bytes (toUint32 nowMillisec)++(write4Bytes h.s1TimeSec++(rtmpRandomGenerate draws 1536).drop 8) := by
  have long := length_rtmpRandomGenerate draws 1536
  obtain ⟨filled,wrote,isFilled⟩ := overlay_part body [] body.toList [] (rtmpRandomGenerate draws 1536) 0 (by simp) rfl
    (by rw [long,body.toList_length])
  obtain ⟨one,more,cutOne,four⟩ := cut_front (rtmpRandomGenerate draws 1536) 4 (by omega)
  rw [cutOne,List.length_append] at long
  obtain ⟨two,rest,rfl,again⟩ := cut_front more 4 (by omega)
  obtain ⟨timed,c2,wroteNow,wroteTime,isC2⟩ := overlay_two filled [] one two rest (write4Bytes (toUint32 nowMillisec))
    (write4Bytes h.s1TimeSec) 0 (by simpa [cutOne] using isFilled) rfl four again
  have behind : (rtmpRandomGenerate draws 1536).drop 8 = rest := by
    rw [cutOne,← List.append_assoc]
    exact List.drop_left' (by rw [List.length_append,four,again])
  refine ⟨c2,?_,by rw [behind]; exact isC2⟩
  unfold makeC2
  rw [wrote,ok_bind]
  simp only [wroteNow,ok_bind]
  rw [show overlay timed 4 _ = _ from wroteTime]
  rfl

end C1S1Handle

namespace RtmpServerHandshake

-- A C0 and a genuine C1 at the front of what is held.
theorem handleC0C1_genuine (hs : RtmpServerHandshake) {crypto : Crypto} {hmac : Bytes → Bytes → List.Vector UInt8 32}
    (fixed : FixedHmac crypto hmac) (c0 : UInt8) (time version : Nat) (d : DigestBlock) (k : KeyBlock) (tail : Bytes)
    (timeFits : time < 2^32) (versionFits : version < 2^32)
    (genuine : d.digest = hmac (genuineFlashPlayerKey.take 30) (write4Bytes time++write4Bytes version++(d.bare++k.bytes)))
    (c1Data : List.Vector UInt8 1536) (shape : c1Data.toList = write4Bytes time++write4Bytes version++(d.bytes++k.bytes)) :
    ∃ c1s1, hs.handleC0C1 crypto (c0::(c1Data.toList++tail)) = .ok ({hs with c0Version:=c0,c1s1},rtmpOk) ∧
      C1S1Handle.Cut c1s1 d k ∧ c1s1.schema = .schema1 ∧ c1s1.c1Time = time ∧ c1s1.digestData = d.digest := by
  obtain ⟨c1s1,parsed,facts⟩ : ∃ c1s1, hs.c1s1.parseC1 crypto c1Data.toList = .ok (c1s1,0) ∧
      C1S1Handle.Cut c1s1 d k ∧ c1s1.schema = .schema1 ∧ c1s1.c1Time = time ∧ c1s1.digestData = d.digest :=
    ⟨_,hs.c1s1.parseC1_schema1 fixed time version d k timeFits versionFits genuine c1Data shape,
      ⟨rfl,rfl,rfl,rfl,rfl,rfl,rfl⟩,rfl,rfl,rfl⟩
  have first : sliceFixed (c0::(c1Data.toList++tail)) 0 1 = .ok (List.Vector.replicate 1 c0) := sliceFixed_part [] _ _ rfl rfl
  have long : ¬ (c0::(c1Data.toList++tail)).length < 1+1536 := by
    rw [List.length_cons,List.length_append,c1Data.toList_length]
    omega
  refine ⟨c1s1,?_,facts⟩
  unfold handleC0C1 parseC0C1
  rw [if_neg long,first,ok_bind,List.drop_one,List.tail_cons,C1S1Handle.parseC1_front,parsed]
  rfl

end RtmpServerHandshake

namespace CoRtmpSession

-- What the client makes of an answer to the C1 it signed with `digest`. S2 is
-- signed for it if the same bytes stand behind the key on either side.
structure Understood (hmac : Bytes → Bytes → List.Vector UInt8 32) (behindKey : List.Vector UInt8 6) (sent : C1S1Handle)
    (digest : List.Vector UInt8 32) (answer : Bytes) (got : C1S1Handle) : Prop where
  whole : answer.length = 3073
  parsed : sent.parseS0S1S2 answer = .ok (got,0)
  echoed : got.s1TimeSec = sent.c1Time
  version : got.s1Version = 0x01000504
  signed : ∃ s2, C2S2Handle.parse (answer.drop 1537) = .ok s2 ∧ ∀ peer, FixedHmac peer hmac →
    (s2.validateS2 peer digest = true ↔ s2.chained hmac behindKey digest = s2.chained hmac peer.behindKey digest)

theorem understood_answer {hmac : Bytes → Bytes → List.Vector UInt8 32} (crypto : Crypto) (sent : C1S1Handle)
    (digest : List.Vector UInt8 32) (c2s2 : C2S2Handle) (small : sent.c1Time < 2^32) (blocks : Bytes)
    (filled : blocks.length = 1528) :
    Understood hmac crypto.behindKey sent digest (rtmpHandshakeVersion::(write4Bytes sent.c1Time++write4Bytes 0x01000504++blocks++
      (c2s2.answering hmac crypto digest).generate.toList)) {sent with s1TimeSec:=sent.c1Time,s1Version:=0x01000504} where
  whole := by simp [length_write4Bytes,filled]
  parsed := by
    rw [List.append_assoc _ blocks]
    exact sent.parseS0S1S2_head small (by decide) _
  echoed := rfl
  version := rfl
  signed := by
    refine ⟨c2s2.answering hmac crypto digest,?_,?_⟩
    · rw [← List.cons_append,List.drop_left' (by simp [length_write4Bytes,filled])]
      have parsed := (c2s2.answering hmac crypto digest).parse_generate []
      rwa [List.append_nil] at parsed
    · intro peer fixed
      rw [fixed.validateS2,decide_eq_true_eq]
      rfl

variable {hs : RtmpServerHandshake} {crypto : Crypto} {hmac : Bytes → Bytes → List.Vector UInt8 32}
  {client sent : C1S1Handle} {c0c1 : List.Vector UInt8 1537}

theorem Chunk.toList_copyTo (segment : Chunk) (recvData : List.Vector UInt8 10240) :
    (segment.copyTo recvData).toList = segment.bytes++recvData.toList.drop segment.bytes.length :=
  rfl

theorem answered_step {recvData : List.Vector UInt8 10240} {segment : Chunk}
    (accepted : hs.handleC0C1 crypto (segment.copyTo recvData).toList = .ok (middle,rtmpOk))
    (answered : middle.sendS0S1S2 crypto = .ok (answering,some answer)) :
    step {hs,recvData} (.received segment crypto 0) = .ok ({hs:=answering,recvData:=segment.copyTo recvData,sending:=1},
      [.recvBuffer (.appendData (segment.copyTo recvData).toList),.handleC0C1 (segment.copyTo recvData).toList rtmpOk,
        .recvBuffer .reset,.coSend ((segment.copyTo recvData).toList.take 1537) answer]) := by
  generalize copied : segment.copyTo recvData = filled at accepted ⊢
  have appended : appendData [] filled.toList = .ok filled.toList := by
    refine if_pos ?_
    rw [filled.toList_length]
    decide
  have turned : onReceived {hs,recvData} segment crypto 0 = .ok ({hs:=answering,recvData:=filled,sending:=1},
      [.recvBuffer (.appendData filled.toList),.handleC0C1 filled.toList rtmpOk,.recvBuffer .reset,
        .coSend (filled.toList.take 1537) answer]) := by
    unfold onReceived handleRequest answerC0C1
    simp only [copied,appended,ok_bind,accepted,answered]
    rfl
  rw [step,if_pos rfl,turned]
  rfl

-- C0C1 at the front of one segment is answered, and all that came with it is
-- dropped.
theorem hello_step (hs : RtmpServerHandshake) (fixed : FixedHmac crypto hmac) (works : WorkingDh crypto) (nowMillisec : Int) (draws : Draws)
    (body : List.Vector UInt8 1537)
    (made : client.makeC0C1 (fun key data => some (hmac key data)) nowMillisec draws body = .ok (sent,c0c1,0))
    (segment : Chunk) (carries : segment.bytes = c0c1.toList++more) (recvData : List.Vector UInt8 10240) :
    ∃ answering answer digest got,
      client.makeC1Scheme1Digest (fun key data => some (hmac key data)) nowMillisec draws = .ok (sent,some digest) ∧
      Understood hmac crypto.behindKey sent digest answer got ∧
      step {hs,recvData} (.received segment crypto 0) = .ok ({hs:=answering,recvData:=segment.copyTo recvData,sending:=1},
        [.recvBuffer (.appendData (segment.copyTo recvData).toList),.handleC0C1 (segment.copyTo recvData).toList rtmpOk,
          .recvBuffer .reset,.coSend c0c1.toList answer]) := by
  obtain ⟨digest,hashed,rfl,wrote⟩ := C1S1Handle.makeC0C1_wrote client nowMillisec draws made
  rw [List.drop_eq_nil_of_le (Nat.le_of_eq body.toList_length),List.append_nil] at wrote
  let c1Data : List.Vector UInt8 1536 := ⟨client.helloC1 nowMillisec draws digest,C1S1Handle.length_helloC1 _ _ _ _⟩
  have timeFits : toUint32 nowMillisec < 2^32 := by unfold toUint32; omega
  have held : (segment.copyTo recvData).toList =
      rtmpHandshakeVersion::(c1Data.toList++(more++recvData.toList.drop segment.bytes.length)) := by
    rw [Chunk.toList_copyTo,← List.append_assoc c1Data.toList,← List.cons_append,← List.cons_append]
    congr 1
    rw [carries,wrote]
    rfl
  have front : (segment.copyTo recvData).toList.take 1537 = c0c1.toList := by
    rw [Chunk.toList_copyTo,carries,List.append_assoc]
    exact List.take_left' c0c1.toList_length
  obtain ⟨c1s1,accepted,cut,schema,time,signed⟩ := RtmpServerHandshake.handleC0C1_genuine hs fixed rtmpHandshakeVersion
    (toUint32 nowMillisec) 0x80000702 (client.helloDigest nowMillisec draws digest) (client.helloKey nowMillisec draws)
    (more++recvData.toList.drop segment.bytes.length) timeFits (by decide) (Option.some.inj hashed).symm c1Data rfl
  rw [← held] at accepted
  obtain ⟨answering,blocks,filled,answered⟩ := RtmpServerHandshake.sendS0S1S2_made
    {hs with c0Version:=rtmpHandshakeVersion,c1s1} fixed works cut schema
  rw [signed,time] at answered
  refine ⟨answering,_,digest,_,by rw [C1S1Handle.makeC1Scheme1Digest_exact,hashed],
    understood_answer crypto _ digest hs.c2s2 timeFits blocks filled,?_⟩
  rw [← front]
  exact answered_step accepted answered

variable {s next final : CoRtmpSession} {events : List Event} {emitted : List Output}

theorem c2_step {c2 : List.Vector UInt8 1536} (waiting : s.phase = .handshakeC2Phase) (nothing : s.recvBuffer = [])
    (receives : s.receiving = true) (opened : s.closed = false) (segment : Chunk) (carries : segment.bytes = c2.toList++rest)
    (crypto : Crypto) (uvWrite : Int) : ∃ left, left.length = 8704 ∧ step s (.received segment crypto uvWrite) = .ok (
      {s with recvData:=segment.copyTo s.recvData,recvBuffer:=left,phase:=.connectPhase},
      [.recvBuffer (.appendData (c2.toList++left)),.handleC2 (c2.toList++left) rtmpOk,.recvBuffer (.consumeData 1536)]) := by
  obtain ⟨recvData,recvBuffer,phase,closed,hs,receiving,sending⟩ := s
  cases waiting
  cases nothing
  cases receives
  cases opened
  have held : (segment.copyTo recvData).toList = c2.toList++(rest++recvData.toList.drop segment.bytes.length) := by
    rw [Chunk.toList_copyTo,carries,List.append_assoc]
  have total := (segment.copyTo recvData).toList_length
  rw [held,List.length_append,c2.toList_length] at total
  generalize rest++recvData.toList.drop segment.bytes.length = left at held total
  refine ⟨left,by omega,?_⟩
  have appended : appendData [] (c2.toList++left) = .ok (c2.toList++left) := by
    refine if_pos ?_
    rw [List.length_append,c2.toList_length]
    have : left.length = 8704 := by omega
    rw [this]
    decide
  have taken : RtmpServerHandshake.handleC2 (c2.toList++left) = (left,rtmpOk) := by
    rw [RtmpServerHandshake.handleC2,if_neg (by rw [List.length_append,c2.toList_length]; omega),
      List.drop_left' c2.toList_length]
  rw [step,if_pos rfl]
  unfold onReceived handleRequest
  simp only [held,appended,ok_bind,taken]
  rfl

-- Behind the handshake every segment adds the whole array, and nothing is
-- taken or answered.
structure Settled (s : CoRtmpSession) (events : List Event) (final : CoRtmpSession) (emitted : List Output) : Prop where
  phase : final.phase = .connectPhase
  held : final.recvBuffer = s.recvBuffer++appended emitted
  counted : (appended emitted).length = 10240*(chunks events).length
  silent : ∀ output ∈ emitted, ∃ data, output = .recvBuffer (.appendData data)

theorem connected_step (connected : s.phase = .connectPhase) (idle : s.sending = 0) (stepped : Stepped s event next emitted) :
    next.phase = .connectPhase ∧ next.sending = 0 ∧ Settled s [event] next emitted := by
  cases stepped with
  | received segment crypto uvWrite room handled =>
    cases handled with
    | waitsC0C1 initial => cases connected.symm.trans initial
    | refused initial => cases connected.symm.trans initial
    | answered initial => cases connected.symm.trans initial
    | waitsC2 waiting => cases connected.symm.trans waiting
    | tookC2 waiting => cases connected.symm.trans waiting
    | idle =>
      refine ⟨connected,idle,connected,?_,?_,?_⟩
      · rw [appended_cons]
        simp [added,appended,operations]
      · rw [appended_cons]
        simp [added,appended,operations,chunks]
      · intro output member
        exact ⟨_,List.mem_singleton.mp member⟩
  | failed => exact ⟨connected,idle,connected,by simp [appended,operations],by simp [appended,operations,chunks],by simp⟩
  | sent counted => omega

theorem connected_run (connected : s.phase = .connectPhase) (idle : s.sending = 0)
    (ran : (machine hs).runFrom s events = .ok (final,emitted)) : Settled s events final emitted := by
  induction events generalizing s emitted with
  | nil =>
    cases ran
    exact ⟨connected,by simp [appended,operations],by simp [appended,operations,chunks],by simp⟩
  | cons event rest ih =>
    obtain ⟨middle,first,later,stepped,back,rfl⟩ := (machine hs).runFrom_cons.mp ran
    obtain ⟨phase,none,once⟩ := connected_step connected idle (step_exact stepped)
    have tail := ih phase none back
    refine ⟨tail.phase,?_,?_,?_⟩
    · rw [appended_append,tail.held,once.held,List.append_assoc]
    · have split : chunks (event::rest) = chunks [event]++chunks rest := by
        rw [← chunks_append]
        rfl
      rw [appended_append,List.length_append,once.counted,tail.counted,split,List.length_append]
      omega
    · intro output member
      rcases List.mem_append.mp member with early | late
      · exact once.silent output early
      · exact tail.silent output late

theorem run_single (stepped : step s event = .ok (next,emitted)) :
    (machine hs).runFrom s [event] = .ok (next,emitted) :=
  (machine hs).runFrom_cons.mpr ⟨next,emitted,[],stepped,rfl,(List.append_nil _).symm⟩

theorem run_pair (one : step {hs} first = .ok (s,outputs)) (two : step s second = .ok (next,emitted)) :
    (machine hs).run [first,second] = .ok (next,outputs++emitted) :=
  (machine hs).runFrom_cons.mpr ⟨s,outputs,emitted,one,run_single two,rfl⟩

-- A client that sends C0C1 in one segment and C2 in another is answered, and
-- the session takes exactly its C2. What the session counts as the next data
-- of the client is then the rest of the array.
theorem exchange_completes (fixed : FixedHmac crypto hmac) (works : WorkingDh crypto) (hs : RtmpServerHandshake)
    (nowMillisec : Int) (draws : Draws) (body : List.Vector UInt8 1537)
    (made : client.makeC0C1 (fun key data => some (hmac key data)) nowMillisec draws body = .ok (sent,c0c1,0))
    (first : Chunk) (more : Bytes) (carries : first.bytes = c0c1.toList++more) : ∃ answer digest got s outputs,
    client.makeC1Scheme1Digest (fun key data => some (hmac key data)) nowMillisec draws = .ok (sent,some digest) ∧
    (machine hs).run [.received first crypto 0,.sent 0] = .ok (s,outputs) ∧
    outputs.getLast? = some (.coSend c0c1.toList answer) ∧ Understood hmac crypto.behindKey sent digest answer got ∧
    ∀ later c2Draws (c2Body : List.Vector UInt8 1536), ∃ c2, got.makeC2 later c2Draws c2Body = .ok (c2,0) ∧
      (c2.toList.drop 4).take 4 = write4Bytes sent.c1Time ∧
      ∀ (second : Chunk) rest, second.bytes = c2.toList++rest → ∀ crypto uvWrite, ∃ last left, left.length = 8704 ∧
        (machine hs).runFrom s [.received second crypto uvWrite] = .ok (last,
          [.recvBuffer (.appendData (c2.toList++left)),.handleC2 (c2.toList++left) rtmpOk,.recvBuffer (.consumeData 1536)]) ∧
        last.recvBuffer = left ∧ last.phase = .connectPhase ∧
        ∀ events final emitted, (machine hs).runFrom last events = .ok (final,emitted) → Settled last events final emitted := by
  obtain ⟨answering,answer,digest,got,signed,understood,stepped⟩ :=
    hello_step hs fixed works nowMillisec draws body made first carries (List.Vector.replicate 10240 0)
  have completed : step {hs:=answering,recvData:=first.copyTo (List.Vector.replicate 10240 0),sending:=1} (.sent 0) =
      .ok ({hs:=answering,recvData:=first.copyTo (List.Vector.replicate 10240 0),phase:=.handshakeC2Phase},[]) := rfl
  refine ⟨answer,digest,got,_,_,signed,run_pair stepped completed,rfl,understood,?_⟩
  intro later c2Draws c2Body
  obtain ⟨c2,wrote,shape⟩ := got.makeC2_exact later c2Draws c2Body
  refine ⟨c2,wrote,?_,?_⟩
  · rw [shape,List.drop_left' (length_write4Bytes _),List.take_left' (length_write4Bytes _),understood.echoed]
  · intro second rest brings crypto uvWrite
    obtain ⟨left,long,took⟩ := c2_step (s:=⟨first.copyTo (List.Vector.replicate 10240 0),[],.handshakeC2Phase,false,answering,true,0⟩)
      rfl rfl rfl rfl second brings crypto uvWrite
    exact ⟨_,left,long,run_single took,rfl,rfl,fun events final emitted ran => connected_run rfl rfl ran⟩

-- The HMACs of a conversation whose random bytes are all 20; the lengths of the
-- keys tell them apart.
def fivesHmac (key _data : Bytes) : List.Vector UInt8 32 :=
  if key.length = 30 then C1S1Handle.fivesDigest
  else if key.length = 36 then ⟨[51,25,214,50,241,110,143,120,178,188,17,197,176,140,14,116,17,143,222,43,86,72,129,177,39,79,
    178,201,3,17,101,162],rfl⟩
  else if key.length = 68 then ⟨[184,150,26,51,13,232,102,133,225,66,170,77,24,197,221,17,97,199,23,238,108,121,131,166,247,
    11,255,222,177,124,186,136],rfl⟩
  else ⟨[163,87,232,90,48,235,168,63,194,153,108,212,169,56,57,248,110,203,79,35,54,239,121,82,54,194,114,248,70,214,61,
    169],rfl⟩

def agreedCrypto : Crypto :=
  {C1S1Handle.fivesCrypto with digest:=fun _ => fivesHmac,sharedKey:=fun _ => some (List.replicate 128 7)}

def fivesHandshake : RtmpServerHandshake := {freshHandshake with c2s2:=C2S2Handle.create C1S1Handle.fives}

theorem agreed_fixed : FixedHmac agreedCrypto fivesHmac :=
  ⟨fun _ => ⟨⟨Int.one_pos,Int.one_pos,Int.one_pos⟩,rfl⟩,fun _ => rfl⟩

theorem agreed_works : WorkingDh agreedCrypto :=
  ⟨rfl,fun _ => ⟨List.replicate 128 7,rfl,Nat.le_of_eq List.length_replicate⟩⟩

theorem fives_completes : ∃ first second s outputs answer last emitted,
    (machine fivesHandshake).run [.received first agreedCrypto 0,.sent 0] = .ok (s,outputs) ∧
    outputs.getLast? = some (.coSend first.bytes answer) ∧ answer.length = 3073 ∧
    (machine fivesHandshake).runFrom s [.received second agreedCrypto 0] = .ok (last,emitted) ∧
    last.phase = .connectPhase ∧ last.recvBuffer.length = 8704 ∧ second.bytes.length = 1536 := by
  obtain ⟨sent,c0c1,made⟩ := C1S1Handle.makeC0C1_made C1S1Handle.blank 1700000000000 C1S1Handle.fives fivesHmac
    (List.Vector.replicate 1537 0) (by decide)
  have hello := c0c1.toList_length
  obtain ⟨answer,digest,got,s,outputs,-,ran,sends,understood,replies⟩ := exchange_completes agreed_fixed agreed_works
    fivesHandshake 1700000000000 C1S1Handle.fives (List.Vector.replicate 1537 0) made
    ⟨c0c1.toList,List.ne_nil_of_length_pos (by omega),by omega⟩ [] (List.append_nil _).symm
  obtain ⟨c2,-,-,ends⟩ := replies 1700000000005 C1S1Handle.fives (List.Vector.replicate 1536 0)
  have reply := c2.toList_length
  obtain ⟨last,left,long,took,held,phase,-⟩ := ends ⟨c2.toList,List.ne_nil_of_length_pos (by omega),by omega⟩ []
    (List.append_nil _).symm agreedCrypto 0
  exact ⟨_,_,s,outputs,answer,last,_,ran,sends,understood.whole,took,phase,(congrArg List.length held).trans long,reply⟩

end CoRtmpSession
end CoStream
