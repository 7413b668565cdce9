import CoStream.RtmpBlocks

namespace CoStream
open Foundation

-- The values of random(), in the order they are drawn.
def Draws : Type := Nat → Nat

def Draws.behind (draws : Draws) (count : Nat) : Draws := fun i => draws (count+i)

-- Each byte lies from 0x0f to 0xf0.
def rtmpRandomGenerate (draws : Draws) (size : Nat) : Bytes :=
  (List.range size).map fun i => UInt8.ofNat (0x0f+draws i % (256-0x0f-0x0f))

theorem length_rtmpRandomGenerate (draws : Draws) (size : Nat) : (rtmpRandomGenerate draws size).length = size := by
  simp [rtmpRandomGenerate]

def rtmpRandomFixed (draws : Draws) (size : Nat) : List.Vector UInt8 size :=
  ⟨rtmpRandomGenerate draws size,length_rtmpRandomGenerate draws size⟩

namespace C1S1Handle

def prepareDigest (h : C1S1Handle) (draws : Draws) : C1S1Handle × Draws :=
  let c1DigestOffset := draws 0 % 2^32
  let realOffset := calcValidDigestOffset c1DigestOffset
  let draws := draws.behind 1
  let digestRandom0 := rtmpRandomGenerate draws realOffset
  let draws := draws.behind realOffset
  let digestData := rtmpRandomFixed draws 32
  let draws := draws.behind 32
  let digestRandom1Size := toUint32 (764-4-realOffset-32)
  let digestRandom1 := rtmpRandomGenerate draws digestRandom1Size
  ({h with c1DigestOffset,digestRandom0,digestData,digestRandom1},draws.behind digestRandom1Size)

def prepareKey (h : C1S1Handle) (draws : Draws) : C1S1Handle :=
  let c1KeyOffset := draws 0 % 2^32
  let realOffset := calcValidKeyOffset c1KeyOffset
  let draws := draws.behind 1
  let keyRandom0 := rtmpRandomGenerate draws realOffset
  let draws := draws.behind realOffset
  let c1KeyData := rtmpRandomFixed draws 128
  let draws := draws.behind 128
  let keyRandom1 := rtmpRandomGenerate draws (toUint32 (764-realOffset-128-4))
  {h with c1KeyOffset,keyRandom0,c1KeyData,keyRandom1}

def prepareC1 (h : C1S1Handle) (nowMillisec : Int) (draws : Draws) : C1S1Handle :=
  let (h,draws) := h.prepareDigest draws
  {h.prepareKey draws with c1Time:=toUint32 nowMillisec,c1Version:=0x80000702}

-- `hmac` is HmacSha256 with its key and message; `none` is a code other than 0.
-- The joined bytes are written into an array of 1504.
def makeC1Scheme1Digest (hmac : Bytes → Bytes → Option (List.Vector UInt8 32)) (nowMillisec : Int) (draws : Draws)
    (h : C1S1Handle) : Except Fault (C1S1Handle × Option (List.Vector UInt8 32)) := do
  let h := h.prepareC1 nowMillisec draws
  let joined := write4Bytes h.c1Time++write4Bytes h.c1Version++write4Bytes h.c1DigestOffset++h.digestRandom0++
    h.digestRandom1++h.keyRandom0++h.c1KeyData.toList++h.keyRandom1++write4Bytes h.c1KeyOffset
  if joined.length > 1536-32 then .error .outOfBounds
  assert (joined.length = 1536-32)
  return (h,hmac (genuineFlashPlayerKey.take 30) joined)

variable {size : Nat}

-- The parts are written one behind the other; a refused one ends the writing.
def makeC0C1 (hmac : Bytes → Bytes → Option (List.Vector UInt8 32)) (nowMillisec : Int) (draws : Draws)
    (h : C1S1Handle) (c0c1Data : List.Vector UInt8 size) : Except Fault (C1S1Handle × List.Vector UInt8 size × Int) := do
  let (h,made) ← h.makeC1Scheme1Digest hmac nowMillisec draws
  match made with
  | none => return (h,c0c1Data,-1)
  | some c1Digest =>
    let head := rtmpHandshakeVersion::(write4Bytes h.c1Time++write4Bytes h.c1Version++write4Bytes h.c1DigestOffset)
    if h.digestRandom0.length = 0 then
      let c0c1Data ← overlay c0c1Data 0 head
      return (h,c0c1Data,-1)
    let digest := head++h.digestRandom0++c1Digest.toList
    if h.digestRandom1.length = 0 then
      let c0c1Data ← overlay c0c1Data 0 digest
      return (h,c0c1Data,-1)
    let c0c1 := digest++h.digestRandom1++h.keyRandom0++h.c1KeyData.toList++h.keyRandom1++write4Bytes h.c1KeyOffset
    let c0c1Data ← overlay c0c1Data 0 c0c1
    assert (c0c1.length = 1+1536)
    return (h,c0c1Data,0)

variable (h : C1S1Handle) (nowMillisec : Int) (draws : Draws)

-- The blocks of the C1 that is made, and the four bytes twice before them.
def helloDigest (digest : List.Vector UInt8 32) : DigestBlock where
  offset := (h.prepareC1 nowMillisec draws).c1DigestOffset
  random0 := (h.prepareC1 nowMillisec draws).digestRandom0
  digest := digest
  random1 := (h.prepareC1 nowMillisec draws).digestRandom1
  small := Nat.mod_lt _ (by decide)
  begins := length_rtmpRandomGenerate _ _
  ends := by
    have below := calcValidDigestOffset_lt (draws 0 % 2^32)
    simp only [prepareC1,prepareDigest,prepareKey,length_rtmpRandomGenerate,toUint32]
    omega

def helloKey : KeyBlock where
  random0 := (h.prepareC1 nowMillisec draws).keyRandom0
  key := (h.prepareC1 nowMillisec draws).c1KeyData
  random1 := (h.prepareC1 nowMillisec draws).keyRandom1
  offset := (h.prepareC1 nowMillisec draws).c1KeyOffset
  small := Nat.mod_lt _ (by decide)
  begins := length_rtmpRandomGenerate _ _
  ends := by
    have below := calcValidKeyOffset_lt ((h.prepareDigest draws).2 0 % 2^32)
    simp only [prepareC1,prepareKey,length_rtmpRandomGenerate,toUint32]
    omega

def helloHead : Bytes := write4Bytes (toUint32 nowMillisec)++write4Bytes 0x80000702

-- What the sender hashes.
def helloMessage : Bytes :=
  helloHead nowMillisec++((helloDigest h nowMillisec draws (List.Vector.replicate 32 0)).bare++(helloKey h nowMillisec draws).bytes)

theorem length_helloHead : (helloHead nowMillisec).length = 8 := rfl

theorem makeC1Scheme1Digest_exact (hmac : Bytes → Bytes → Option (List.Vector UInt8 32)) :
    makeC1Scheme1Digest hmac nowMillisec draws h = .ok (h.prepareC1 nowMillisec draws,
      hmac (genuineFlashPlayerKey.take 30) (helloMessage h nowMillisec draws)) := by
  have long : (helloMessage h nowMillisec draws).length = 1536-32 := by
    simp [helloMessage,length_helloHead,DigestBlock.length_bare,KeyBlock.length_bytes]
  have joined : helloMessage h nowMillisec draws = write4Bytes (h.prepareC1 nowMillisec draws).c1Time++
      write4Bytes (h.prepareC1 nowMillisec draws).c1Version++write4Bytes (h.prepareC1 nowMillisec draws).c1DigestOffset++
      (h.prepareC1 nowMillisec draws).digestRandom0++(h.prepareC1 nowMillisec draws).digestRandom1++
      (h.prepareC1 nowMillisec draws).keyRandom0++(h.prepareC1 nowMillisec draws).c1KeyData.toList++
      (h.prepareC1 nowMillisec draws).keyRandom1++write4Bytes (h.prepareC1 nowMillisec draws).c1KeyOffset := by
    simp only [helloMessage,helloHead,DigestBlock.bare,helloDigest,KeyBlock.bytes,helloKey,List.append_assoc]
    rfl
  unfold makeC1Scheme1Digest
  simp only [← joined,long]
  rfl

def helloC1 (digest : List.Vector UInt8 32) : Bytes :=
  helloHead nowMillisec++((helloDigest h nowMillisec draws digest).bytes++(helloKey h nowMillisec draws).bytes)

theorem length_helloC1 (digest : List.Vector UInt8 32) : (helloC1 h nowMillisec draws digest).length = 1536 := by
  simp [helloC1,length_helloHead,DigestBlock.length_bytes,KeyBlock.length_bytes]

theorem c0c1_parts (digest : List.Vector UInt8 32) (made : prepared = h.prepareC1 nowMillisec draws) :
    (rtmpHandshakeVersion::(write4Bytes prepared.c1Time++write4Bytes prepared.c1Version++
      write4Bytes prepared.c1DigestOffset))++prepared.digestRandom0++digest.toList++prepared.digestRandom1++
      prepared.keyRandom0++prepared.c1KeyData.toList++prepared.keyRandom1++write4Bytes prepared.c1KeyOffset =
      rtmpHandshakeVersion::helloC1 h nowMillisec draws digest := by
  subst made
  simp only [helloC1,helloHead,DigestBlock.bytes,helloDigest,KeyBlock.bytes,helloKey,List.append_assoc,List.cons_append]
  rfl

theorem makeC0C1_wrote {hmac : Bytes → Bytes → Option (List.Vector UInt8 32)} {body c0c1 : List.Vector UInt8 size}
    (made : makeC0C1 hmac nowMillisec draws h body = .ok (sent,c0c1,0)) : ∃ digest,
    hmac (genuineFlashPlayerKey.take 30) (helloMessage h nowMillisec draws) = some digest ∧
      sent = h.prepareC1 nowMillisec draws ∧
      c0c1.toList = rtmpHandshakeVersion::(helloC1 h nowMillisec draws digest++body.toList.drop 1537) := by
  unfold makeC0C1 at made
  rw [makeC1Scheme1Digest_exact,ok_bind] at made
  cases hashed : hmac (genuineFlashPlayerKey.take 30) (helloMessage h nowMillisec draws) with
  | none =>
    rw [hashed] at made
    cases made
  | some digest =>
    simp only [hashed] at made
    split at made
    · obtain ⟨_,-,made⟩ := bind_ok.mp made
      cases made
    split at made
    · obtain ⟨_,-,made⟩ := bind_ok.mp made
      cases made
    obtain ⟨laid,wrote,made⟩ := bind_ok.mp made
    obtain ⟨_,-,made⟩ := bind_ok.mp made
    cases made
    have whole := overlay_front wrote
    rw [c0c1_parts h nowMillisec draws digest rfl,List.length_cons,length_helloC1] at whole
    exact ⟨digest,rfl,rfl,whole⟩

theorem length_digestRandom0 : (h.prepareC1 nowMillisec draws).digestRandom0.length =
    calcValidDigestOffset (draws 0 % 2^32) :=
  length_rtmpRandomGenerate _ _

theorem makeC0C1_room (hmac : Bytes → Bytes → List.Vector UInt8 32) (body : List.Vector UInt8 size) (long : 1537 ≤ size)
    (room : calcValidDigestOffset (draws 0 % 2^32) ≠ 0) : ∃ sent c0c1,
    makeC0C1 (fun key data => some (hmac key data)) nowMillisec draws h body = .ok (sent,c0c1,0) := by
  have first := length_digestRandom0 h nowMillisec draws
  have below := calcValidDigestOffset_lt (draws 0 % 2^32)
  have ends : 4+(h.prepareC1 nowMillisec draws).digestRandom0.length+32+
      (h.prepareC1 nowMillisec draws).digestRandom1.length = 764 :=
    (helloDigest h nowMillisec draws (List.Vector.replicate 32 0)).ends
  unfold makeC0C1
  rw [makeC1Scheme1Digest_exact,ok_bind]
  simp only [c0c1_parts h nowMillisec draws _ rfl]
  rw [if_neg (by omega),if_neg (by omega)]
  obtain ⟨laid,wrote,-⟩ := overlay_part body [] (body.toList.take 1537) (body.toList.drop 1537)
    (rtmpHandshakeVersion::helloC1 h nowMillisec draws
      (hmac (genuineFlashPlayerKey.take 30) (helloMessage h nowMillisec draws))) 0 (by simp) rfl
    (by rw [List.length_take,body.toList_length,List.length_cons,length_helloC1]; omega)
  rw [wrote,ok_bind,assert_ok _ (by rw [List.length_cons,length_helloC1])]
  exact ⟨_,_,rfl⟩

theorem makeC0C1_made (hmac : Bytes → Bytes → List.Vector UInt8 32) (body : List.Vector UInt8 1537)
    (room : calcValidDigestOffset (draws 0 % 2^32) ≠ 0) : ∃ sent c0c1,
    makeC0C1 (fun key data => some (hmac key data)) nowMillisec draws h body = .ok (sent,c0c1,0) :=
  makeC0C1_room h nowMillisec draws hmac body (Nat.le_refl 1537) room

-- The only way to fail with a digest: no random bytes stand before it.
theorem makeC0C1_refused (hmac : Bytes → Bytes → List.Vector UInt8 32) (body : List.Vector UInt8 size) (long : 1537 ≤ size)
    (none : calcValidDigestOffset (draws 0 % 2^32) = 0) : ∃ sent c0c1,
    makeC0C1 (fun key data => some (hmac key data)) nowMillisec draws h body = .ok (sent,c0c1,-1) := by
  obtain ⟨laid,wrote,-⟩ := overlay_part body [] (body.toList.take 13) (body.toList.drop 13)
    (rtmpHandshakeVersion::(write4Bytes (h.prepareC1 nowMillisec draws).c1Time++
      write4Bytes (h.prepareC1 nowMillisec draws).c1Version++write4Bytes (h.prepareC1 nowMillisec draws).c1DigestOffset))
    0 (by simp) rfl (by simp [length_write4Bytes]; omega)
  unfold makeC0C1
  rw [makeC1Scheme1Digest_exact,ok_bind]
  dsimp only
  rw [if_pos ((length_digestRandom0 h nowMillisec draws).trans none),wrote,ok_bind]
  exact ⟨_,_,rfl⟩

-- The hello is made, and it is the same 1537 bytes whatever they are written
-- over.
def HelloMade (hmac : Bytes → Bytes → List.Vector UInt8 32) : Prop :=
  ∃ hello : Bytes, hello.length = 1537 ∧ ∀ (behind : Nat) (body : List.Vector UInt8 (1537+behind)), ∃ sent c0c1,
    makeC0C1 (fun key data => some (hmac key data)) nowMillisec draws h body = .ok (sent,c0c1,0) ∧
      c0c1.toList = hello++body.toList.drop 1537

theorem helloMade_iff (hmac : Bytes → Bytes → List.Vector UInt8 32) :
    HelloMade h nowMillisec draws hmac ↔ calcValidDigestOffset (draws 0 % 2^32) ≠ 0 := by
  constructor
  · rintro ⟨hello,-,makes⟩ none
    obtain ⟨sent,c0c1,made,-⟩ := makes 0 (List.Vector.replicate 1537 0)
    obtain ⟨_,_,refused⟩ := makeC0C1_refused h nowMillisec draws hmac (List.Vector.replicate 1537 0) (Nat.le_refl 1537) none
    cases made.symm.trans refused
  · intro room
    refine ⟨rtmpHandshakeVersion::helloC1 h nowMillisec draws
      (hmac (genuineFlashPlayerKey.take 30) (helloMessage h nowMillisec draws)),?_,?_⟩
    · rw [List.length_cons,length_helloC1]
    · intro behind body
      obtain ⟨sent,c0c1,made⟩ := makeC0C1_room h nowMillisec draws hmac body (Nat.le_add_right 1537 behind) room
      obtain ⟨digest,hashed,-,wrote⟩ := makeC0C1_wrote h nowMillisec draws made
      cases hashed
      exact ⟨sent,c0c1,made,wrote⟩

-- random() gave 0 first: no bytes before the digest, and no hello.
def zeros : Draws := fun _ => 0

theorem zeros_refused : (∃ sent c0c1, blank.makeC0C1 (fun _ _ => some (List.Vector.replicate 32 0)) 1700000000000 zeros
      (List.Vector.replicate 1537 0) = .ok (sent,c0c1,-1)) ∧
    ¬ HelloMade blank 1700000000000 zeros (fun _ _ => List.Vector.replicate 32 0) := by
  obtain ⟨sent,c0c1,refused⟩ := makeC0C1_refused blank 1700000000000 zeros (fun _ _ => List.Vector.replicate 32 0)
    (List.Vector.replicate 1537 0) (Nat.le_refl 1537) (by decide)
  refine ⟨⟨sent,c0c1,refused⟩,?_⟩
  rintro ⟨hello,-,makes⟩
  obtain ⟨other,wrote,made,-⟩ := makes 0 (List.Vector.replicate 1537 0)
  cases made.symm.trans refused

end C1S1Handle

-- HMAC-SHA256 is one function of key and message, and its calls succeed.
structure FixedHmac (crypto : Crypto) (hmac : Bytes → Bytes → List.Vector UInt8 32) : Prop where
  succeeds : ∀ use, (crypto.hmac use).Succeeded ∧ (crypto.hmac use).digestSize = 32
  same : ∀ use, crypto.digest use = hmac

theorem FixedHmac.array (fixed : FixedHmac crypto hmac) (use : HmacUse) (key data : Bytes) :
    hmacArray crypto use key data = hmac key data := by
  rw [hmacArray,if_pos (fixed.succeeds use).1,fixed.same]

namespace C1S1Handle

theorem compareDigest_fixed (h : C1S1Handle) (fixed : FixedHmac crypto hmac) (use : HmacUse)
    (joined : h.joinedC1 front = .ok message) :
    h.compareDigest crypto use front = .ok (decide (h.digestData = hmac (genuineFlashPlayerKey.take 30) message)) := by
  obtain ⟨⟨-,update,final⟩,size⟩ := fixed.succeeds use
  unfold compareDigest
  rw [joined,ok_bind]
  dsimp only
  rw [if_neg (by omega),assert_ok _ size,fixed.array]
  rfl

-- A C1 that carries the digest of the rest of it, digest first.
theorem parseC1_schema1 (h : C1S1Handle) (fixed : FixedHmac crypto hmac) (time version : Nat) (d : DigestBlock) (k : KeyBlock)
    (timeFits : time < 2^32) (versionFits : version < 2^32)
    (genuine : d.digest = hmac (genuineFlashPlayerKey.take 30) (write4Bytes time++write4Bytes version++(d.bare++k.bytes)))
    (c1Data : List.Vector UInt8 1536) (shape : c1Data.toList = write4Bytes time++write4Bytes version++(d.bytes++k.bytes)) :
    h.parseC1 crypto c1Data.toList = .ok
      ({(C1S1Handle.withDigest {h with c1Data,c1Time:=time,c1Version:=version} d).withKey k with schema:=.schema1},0) := by
  have behind : c1Data.toList.drop 8 = d.bytes++k.bytes := by
    rw [shape]
    exact List.drop_left' rfl
  have copied : sliceFixed c1Data.toList 0 1536 = .ok c1Data := sliceFixed_part [] c1Data [] (by simp) rfl
  have readTime : read4Bytes c1Data.toList 0 = .ok time :=
    read4Bytes_part [] (write4Bytes version++(d.bytes++k.bytes)) timeFits (by simp [shape]) rfl
  have readVersion : read4Bytes c1Data.toList 4 = .ok version :=
    read4Bytes_part (write4Bytes time) (d.bytes++k.bytes) versionFits (by simp [shape]) rfl
  have message := joinedC1_schema1
    ((C1S1Handle.withDigest {h with c1Data,c1Time:=time,c1Version:=version} d).withKey k)
    (write4Bytes time++write4Bytes version) d k rfl shape rfl
  have checked : checkDigestValid crypto
      ((C1S1Handle.withDigest {h with c1Data,c1Time:=time,c1Version:=version} d).withKey k) .schema1 = .ok true := by
    rw [checkDigestValid,if_neg (by have := (fixed.succeeds .schema1).1.1; omega),compareDigest_fixed _ fixed _ message]
    exact congrArg Except.ok (decide_eq_true genuine)
  unfold parseC1
  rw [copied,ok_bind,readTime,ok_bind,readVersion,ok_bind,trySchema1,parseDigest_block _ d k.bytes behind,ok_bind,
    parseKey_block _ k [] (by rw [behind,List.drop_left' d.length_bytes,List.append_nil]),ok_bind,checked]
  rfl

-- The server recovers from C1 what the client put in, and takes it for schema 1.
theorem c1_accepted {size : Nat} (crypto : Crypto) (hmac : Bytes → Bytes → List.Vector UInt8 32) (fixed : FixedHmac crypto hmac)
    (sender receiver : C1S1Handle) (nowMillisec : Int) (draws : Draws) (body c0c1 : List.Vector UInt8 size) (sent : C1S1Handle)
    (made : sender.makeC0C1 (fun key data => some (hmac key data)) nowMillisec draws body = .ok (sent,c0c1,0)) :
    ∃ digest got, sender.makeC1Scheme1Digest (fun key data => some (hmac key data)) nowMillisec draws = .ok (sent,some digest) ∧
      receiver.parseC1 crypto ((c0c1.toList.drop 1).take 1536) = .ok (got,0) ∧ got.schema = .schema1 ∧
      got.c1Time = sent.c1Time ∧ got.c1Version = sent.c1Version ∧ got.c1DigestOffset = sent.c1DigestOffset ∧
      got.c1KeyOffset = sent.c1KeyOffset ∧ got.digestRandom0 = sent.digestRandom0 ∧ got.digestRandom1 = sent.digestRandom1 ∧
      got.keyRandom0 = sent.keyRandom0 ∧ got.keyRandom1 = sent.keyRandom1 ∧ got.c1KeyData = sent.c1KeyData ∧
      got.digestData = digest := by
  obtain ⟨digest,hashed,rfl,wrote⟩ := makeC0C1_wrote _ _ _ made
  have c1 : (c0c1.toList.drop 1).take 1536 = helloC1 sender nowMillisec draws digest := by
    rw [wrote]
    exact List.take_left' (length_helloC1 _ _ _ _)
  let c1Data : List.Vector UInt8 1536 := ⟨helloC1 sender nowMillisec draws digest,length_helloC1 _ _ _ _⟩
  have parsed := receiver.parseC1_schema1 fixed (toUint32 nowMillisec) 0x80000702 (helloDigest sender nowMillisec draws digest)
    (helloKey sender nowMillisec draws) (by unfold toUint32; omega) (by decide) (Option.some.inj hashed).symm c1Data rfl
  refine ⟨digest,_,?_,(congrArg (receiver.parseC1 crypto) c1).trans parsed,rfl,rfl,rfl,rfl,rfl,rfl,rfl,rfl,rfl,rfl,rfl⟩
  rw [makeC1Scheme1Digest_exact,hashed]

-- Every draw is 5: all random bytes are 20, and five of them stand before the
-- digest and before the key. The constant is the HMAC of that message.
def fivesDigest : List.Vector UInt8 32 := ⟨[7,147,4,213,230,162,98,35,151,34,212,62,255,255,116,180,49,101,251,144,201,90,60,114,59,191,59,101,
  172,125,199,12],rfl⟩

def fivesCrypto : Crypto where
  hmac := fun _ => {}
  digest := fun _ _ _ => fivesDigest
  dhInit := 0
  sharedKey := fun _ => none
  behindKey := List.Vector.replicate 6 0

def fives : Draws := fun _ => 5

theorem fives_accepted : ∃ sent c0c1 got,
    blank.makeC0C1 (fun _ _ => some fivesDigest) 1700000000000 fives (List.Vector.replicate 1537 0) = .ok (sent,c0c1,0) ∧
    blank.parseC1 fivesCrypto ((c0c1.toList.drop 1).take 1536) = .ok (got,0) ∧ got.schema = .schema1 ∧
    got.c1KeyData = sent.c1KeyData ∧ got.digestData = fivesDigest := by
  obtain ⟨sent,c0c1,made⟩ := makeC0C1_made blank 1700000000000 fives (fun _ _ => fivesDigest)
    (List.Vector.replicate 1537 0) (by decide)
  have fixed : FixedHmac fivesCrypto fun _ _ => fivesDigest :=
    ⟨fun _ => ⟨⟨Int.one_pos,Int.one_pos,Int.one_pos⟩,rfl⟩,fun _ => rfl⟩
  obtain ⟨digest,got,hashed,parsed,schema,-,-,-,-,-,-,-,-,key,same⟩ :=
    c1_accepted fivesCrypto (fun _ _ => fivesDigest) fixed blank blank 1700000000000 fives _ c0c1 sent made
  rw [makeC1Scheme1Digest_exact] at hashed
  obtain ⟨-,written⟩ := Prod.mk.inj (Except.ok.inj hashed)
  exact ⟨sent,c0c1,got,made,parsed,schema,key,same.trans (Option.some.inj written).symm⟩

end C1S1Handle
end CoStream
