import CoStream.RtmpBlocks
import CoStream.RtmpStream

namespace CoStream
open Foundation

namespace C1S1Handle

-- The handle holds the parts of these two blocks.
structure Cut (h : C1S1Handle) (d : DigestBlock) (k : KeyBlock) : Prop where
  digestOffset : h.c1DigestOffset = d.offset
  digestRandom0 : h.digestRandom0 = d.random0
  digestRandom1 : h.digestRandom1 = d.random1
  keyOffset : h.c1KeyOffset = k.offset
  keyRandom0 : h.keyRandom0 = k.random0
  keyRandom1 : h.keyRandom1 = k.random1
  keyData : h.c1KeyData = k.key

theorem parseC1_cut {h : C1S1Handle} (parsed : h.parseC1 crypto c1 = .ok (next,ret)) :
    (∃ d k, Cut next d k) ∧ (next.schema = .schema0 ∨ next.schema = .schema1) ∧ next.s1KeyData = h.s1KeyData := by
  unfold parseC1 at parsed
  obtain ⟨c1Data,copied,parsed⟩ := bind_ok.mp parsed
  obtain ⟨c1Time,-,parsed⟩ := bind_ok.mp parsed
  obtain ⟨c1Version,-,parsed⟩ := bind_ok.mp parsed
  have long : 1528 ≤ (c1.drop 8).length := by
    unfold sliceFixed at copied
    split at copied
    · rw [List.length_drop]
      omega
    · cases copied
  obtain ⟨⟨d,k,rest,digestFirst⟩,key,digest,left,keyFirst⟩ := exists_blocks (c1.drop 8) long
  rw [trySchema1,parseDigest_block _ d (k.bytes++rest) digestFirst,ok_bind,
    parseKey_block _ k rest (by rw [digestFirst,List.drop_left' d.length_bytes]),ok_bind] at parsed
  obtain ⟨isValid,-,parsed⟩ := bind_ok.mp parsed
  cases isValid with
  | true =>
    cases parsed
    exact ⟨⟨d,k,rfl,rfl,rfl,rfl,rfl,rfl,rfl⟩,.inr rfl,rfl⟩
  | false =>
    rw [if_neg (by decide),trySchema0,parseKey_block _ key (digest.bytes++left) keyFirst,ok_bind,
      parseDigest_block _ digest left (by rw [keyFirst,List.drop_left' key.length_bytes]),ok_bind] at parsed
    obtain ⟨isValid,-,parsed⟩ := bind_ok.mp parsed
    cases isValid with
    | true =>
      cases parsed
      exact ⟨⟨digest,key,rfl,rfl,rfl,rfl,rfl,rfl,rfl⟩,.inl rfl,rfl⟩
    | false =>
      cases parsed
      exact ⟨⟨digest,key,rfl,rfl,rfl,rfl,rfl,rfl,rfl⟩,.inl rfl,rfl⟩

def s1Head (h : C1S1Handle) : Bytes := write4Bytes h.s1TimeSec++write4Bytes h.s1Version

theorem joinedS1_cut {h : C1S1Handle} (cut : Cut h d k) : h.joinedS1 = .ok (h.s1Head++(k.bytes++d.bare)) := by
  have joined : write4Bytes h.s1TimeSec++write4Bytes h.s1Version++h.keyRandom0++h.c1KeyData.toList++h.keyRandom1++
      write4Bytes h.c1KeyOffset++write4Bytes h.c1DigestOffset++h.digestRandom0++h.digestRandom1 =
      h.s1Head++(k.bytes++d.bare) := by
    simp [s1Head,KeyBlock.bytes,DigestBlock.bare,cut.digestOffset,cut.digestRandom0,cut.digestRandom1,cut.keyOffset,
      cut.keyRandom0,cut.keyRandom1,cut.keyData]
  unfold joinedS1
  dsimp only
  rw [joined,if_pos (by simp [s1Head,length_write4Bytes,k.length_bytes,d.length_bare])]
  rfl

theorem makeKey_cut {h : C1S1Handle} (cut : Cut h d k) : h.makeKey = {k with key:=h.s1KeyData}.bytes := by
  simp [makeKey,KeyBlock.bytes,cut.keyOffset,cut.keyRandom0,cut.keyRandom1]

theorem makeDigest_cut {h : C1S1Handle} (cut : Cut h d k) : h.makeDigest = {d with digest:=h.s1DigestData}.bytes := by
  simp [makeDigest,DigestBlock.bytes,cut.digestOffset,cut.digestRandom0,cut.digestRandom1]

-- A head and two blocks written into the answer fill it.
theorem written_blocks (body : List.Vector UInt8 1536) (head one two : Bytes) (isHead : head.length = 8)
    (isOne : one.length = 764) (isTwo : two.length = 764) : ∃ first second s1, overlay body 0 head = .ok first ∧
    overlay first 8 one = .ok second ∧ overlay second (8+764) two = .ok s1 ∧ s1.toList = head++(one++two) := by
  obtain ⟨a,rest,shape,isA⟩ := cut_front body.toList 8 (by rw [body.toList_length]; decide)
  have total := body.toList_length
  rw [shape,List.length_append] at total
  obtain ⟨b,c,rfl,isB⟩ := cut_front rest 764 (by omega)
  rw [List.length_append] at total
  obtain ⟨first,wroteFirst,isFirst⟩ := overlay_part body [] a (b++c) head 0 shape rfl (by omega)
  obtain ⟨second,s1,wroteSecond,wroteLast,isLast⟩ := overlay_two first head b c [] one two 8 (by simpa using isFirst)
    isHead.symm (by omega) (by omega)
  rw [isOne] at wroteLast
  exact ⟨first,second,s1,wroteFirst,wroteSecond,wroteLast,by simpa using isLast⟩

theorem writeS1_cut {h : C1S1Handle} {body : List.Vector UInt8 1536} (cut : Cut h d k)
    (written : h.writeS1 body = .ok (s1,true)) :
    h.schema = .schema0 ∧ s1.toList = h.s1Head++({k with key:=h.s1KeyData}.bytes++{d with digest:=h.s1DigestData}.bytes) ∨
    h.schema = .schema1 ∧ s1.toList = h.s1Head++({d with digest:=h.s1DigestData}.bytes++{k with key:=h.s1KeyData}.bytes) := by
  have key := makeKey_cut cut
  have digest := makeDigest_cut cut
  unfold writeS1 at written
  cases schema : h.schema with
  | schema0 =>
    obtain ⟨first,second,last,wroteFirst,wroteSecond,wroteLast,whole⟩ := written_blocks body h.s1Head h.makeKey h.makeDigest rfl
      (by rw [key]; exact KeyBlock.length_bytes _) (by rw [digest]; exact DigestBlock.length_bytes _)
    rw [show overlay body 0 (write4Bytes h.s1TimeSec++write4Bytes h.s1Version) = _ from wroteFirst,ok_bind] at written
    simp only [schema,makeSchema0,wroteSecond,ok_bind,wroteLast] at written
    cases written
    exact .inl ⟨rfl,by rw [whole,key,digest]⟩
  | schema1 =>
    obtain ⟨first,second,last,wroteFirst,wroteSecond,wroteLast,whole⟩ := written_blocks body h.s1Head h.makeDigest h.makeKey rfl
      (by rw [digest]; exact DigestBlock.length_bytes _) (by rw [key]; exact KeyBlock.length_bytes _)
    rw [show overlay body 0 (write4Bytes h.s1TimeSec++write4Bytes h.s1Version) = _ from wroteFirst,ok_bind] at written
    simp only [schema,makeSchema1,wroteSecond,ok_bind,wroteLast] at written
    cases written
    exact .inr ⟨rfl,by rw [whole,key,digest]⟩
  | init =>
    obtain ⟨_,-,written⟩ := bind_ok.mp written
    rw [schema] at written
    cases written

-- What a peer hashes that checks S1 as CheckDigestValid checks C1.
def peerMessage (peer : C1S1Handle) (s1 : List.Vector UInt8 1536) : HandshakeSchema → Except Fault Bytes
  | .schema0 => do
    let peer ← C1S1Handle.trySchema0 {peer with c1Data:=s1} (s1.toList.drop 8)
    peer.joinedC1 (8+764+4)
  | .schema1 => do
    let peer ← C1S1Handle.trySchema1 {peer with c1Data:=s1} (s1.toList.drop 8)
    peer.joinedC1 (8+4)
  | .init => .ok []

theorem peerMessage_schema0 (peer : C1S1Handle) (k : KeyBlock) (d : DigestBlock) (s1 : List.Vector UInt8 1536)
    (eight : head.length = 8) (shape : s1.toList = head++(k.bytes++d.bytes)) :
    peerMessage peer s1 .schema0 = .ok (head++(k.bytes++d.bare)) := by
  have behind : s1.toList.drop 8 = k.bytes++d.bytes := by rw [shape,List.drop_left' eight]
  rw [peerMessage,trySchema0,parseKey_block _ k d.bytes behind,ok_bind,
    parseDigest_block _ d [] (by rw [behind,List.drop_left' k.length_bytes,List.append_nil]),ok_bind]
  exact joinedC1_schema0 _ head k d eight shape rfl

theorem peerMessage_schema1 (peer : C1S1Handle) (d : DigestBlock) (k : KeyBlock) (s1 : List.Vector UInt8 1536)
    (eight : head.length = 8) (shape : s1.toList = head++(d.bytes++k.bytes)) :
    peerMessage peer s1 .schema1 = .ok (head++(d.bare++k.bytes)) := by
  have behind : s1.toList.drop 8 = d.bytes++k.bytes := by rw [shape,List.drop_left' eight]
  rw [peerMessage,trySchema1,parseDigest_block _ d k.bytes behind,ok_bind,
    parseKey_block _ k [] (by rw [behind,List.drop_left' d.length_bytes,List.append_nil]),ok_bind]
  exact joinedC1_schema1 _ head d k eight shape rfl

-- MakeS1Digest hashed what the peer will hash.
def HashesItself (h peer : C1S1Handle) (s1 : List.Vector UInt8 1536) : Prop :=
  ∃ message, h.joinedS1 = .ok message ∧ peerMessage peer s1 h.schema = .ok message

-- The key S1 carries: what the key exchange wrote over the member.
def exchangedKey (crypto : Crypto) (h : C1S1Handle) : Bytes :=
  match crypto.sharedKey h.c1KeyData.toList with
  | none => h.s1KeyData.toList
  | some key => key++h.s1KeyData.toList.drop key.length

def keyPart (h : C1S1Handle) (key : Bytes) : Bytes := h.keyRandom0++(key++(h.keyRandom1++write4Bytes h.c1KeyOffset))
def digestPart (h : C1S1Handle) : Bytes := write4Bytes h.c1DigestOffset++(h.digestRandom0++h.digestRandom1)

-- With the key first the exchange must give the client its own key back. With
-- the digest first the two parts must also look the same in either order.
def KeyReturns (crypto : Crypto) (h : C1S1Handle) : Prop :=
  match h.schema with
  | .schema0 => h.exchangedKey crypto = h.c1KeyData.toList
  | .schema1 => ∃ overlap, h.keyPart h.c1KeyData.toList = h.digestPart++overlap ∧
      h.keyPart (h.exchangedKey crypto) = overlap++h.digestPart
  | .init => False

theorem makeS1_exact {h : C1S1Handle} {body : List.Vector UInt8 1536} (made : h.makeS1 crypto body = .ok (next,s1,true)) :
    next.s1KeyData.toList = h.exchangedKey crypto ∧ next.writeS1 body = .ok (s1,true) ∧ next.schema = h.schema ∧
      ∀ d k, Cut h d k → Cut next d k := by
  unfold makeS1 makeSharedKey at made
  obtain ⟨shared,exchange,made⟩ := bind_ok.mp made
  split at exchange
  · cases exchange
    cases made
  unfold exchangedKey
  cases key : crypto.sharedKey h.c1KeyData.toList with
  | none =>
    simp only [key] at exchange
    cases exchange
    cases made
  | some key =>
    simp only [key] at exchange
    obtain ⟨s1KeyData,wrote,exchange⟩ := bind_ok.mp exchange
    cases exchange
    obtain ⟨digest,-,made⟩ := bind_ok.mp made
    cases digest with
    | none => cases made
    | some digest =>
      obtain ⟨written,wroteS1,made⟩ := bind_ok.mp made
      cases made
      exact ⟨overlay_front wrote,wroteS1,rfl,fun d k cut =>
        ⟨cut.digestOffset,cut.digestRandom0,cut.digestRandom1,cut.keyOffset,cut.keyRandom0,cut.keyRandom1,cut.keyData⟩⟩

theorem hashesItself_schema0 {h : C1S1Handle} (cut : Cut h d k) (schema : h.schema = .schema0) (peer : C1S1Handle)
    (shape : s1.toList = h.s1Head++({k with key:=h.s1KeyData}.bytes++{d with digest:=h.s1DigestData}.bytes)) :
    HashesItself h peer s1 ↔ h.s1KeyData.toList = h.c1KeyData.toList := by
  unfold HashesItself
  rw [joinedS1_cut cut,schema,peerMessage_schema0 peer {k with key:=h.s1KeyData} {d with digest:=h.s1DigestData} s1 rfl shape]
  constructor
  · rintro ⟨message,hashed,same⟩
    have blocks := List.append_cancel_right (List.append_cancel_left (Except.ok.inj (same.trans hashed.symm)))
    have keys := List.append_cancel_right (List.append_cancel_left blocks)
    rw [cut.keyData]
    exact keys
  · intro same
    have again : {k with key:=h.s1KeyData} = k := by
      rw [List.Vector.toList_injective same,cut.keyData]
    exact ⟨_,rfl,by rw [again]; rfl⟩

theorem hashesItself_schema1 {h : C1S1Handle} (cut : Cut h d k) (schema : h.schema = .schema1) (peer : C1S1Handle)
    (shape : s1.toList = h.s1Head++({d with digest:=h.s1DigestData}.bytes++{k with key:=h.s1KeyData}.bytes)) :
    HashesItself h peer s1 ↔ ∃ overlap, k.bytes = d.bare++overlap ∧ {k with key:=h.s1KeyData}.bytes = overlap++d.bare := by
  unfold HashesItself
  rw [joinedS1_cut cut,schema,peerMessage_schema1 peer {d with digest:=h.s1DigestData} {k with key:=h.s1KeyData} s1 rfl shape]
  have unsigned : DigestBlock.bare {d with digest:=h.s1DigestData} = d.bare := rfl
  rw [unsigned]
  constructor
  · rintro ⟨message,hashed,same⟩
    have blocks := List.append_cancel_left (Except.ok.inj (hashed.trans same.symm))
    rcases List.append_eq_append_iff.mp blocks with ⟨more,longer,-⟩ | overlapping
    · have sizes := congrArg List.length longer
      rw [List.length_append,d.length_bare,k.length_bytes] at sizes
      omega
    · exact overlapping
  · rintro ⟨overlap,begins,ends⟩
    exact ⟨_,rfl,by rw [begins,ends,List.append_assoc]⟩

theorem s1_hashes_itself_exactly (fresh peer : C1S1Handle) (body : List.Vector UInt8 1536)
    (parsed : fresh.parseC1 crypto c1 = .ok (h,ret)) (made : h.makeS1 crypto body = .ok (next,s1,true)) :
    HashesItself next peer s1 ↔ h.KeyReturns crypto := by
  obtain ⟨⟨d,k,cut⟩,-,-⟩ := parseC1_cut parsed
  obtain ⟨key,written,schema,kept⟩ := makeS1_exact made
  have nextCut := kept d k cut
  unfold KeyReturns
  rcases writeS1_cut nextCut written with ⟨schema0,shape⟩ | ⟨schema1,shape⟩
  · rw [hashesItself_schema0 nextCut schema0 peer shape,← schema,schema0,key,nextCut.keyData,cut.keyData]
  · rw [hashesItself_schema1 nextCut schema1 peer shape,← schema,schema1]
    simp only [keyPart,digestPart,← key,cut.keyData,cut.digestOffset,cut.digestRandom0,cut.digestRandom1,cut.keyOffset,
      cut.keyRandom0,cut.keyRandom1]
    rfl

-- A C1 of fours, with its digests and a key exchange for its key.
def fours : Bytes := List.replicate 1536 4

def foursDigest : HmacUse → List.Vector UInt8 32
  | .s1Digest => ⟨[239,48,73,151,189,180,159,108,87,65,175,48,82,55,39,134,196,102,207,213,230,3,150,67,94,173,
    254,170,215,139,18,168],rfl⟩
  | .schema0 | .schema1 => ⟨[51,3,248,242,93,48,210,194,160,181,101,188,78,232,34,10,145,76,192,245,186,52,203,249,199,197,
    195,140,140,80,17,40],rfl⟩
  | use => CoRtmpSession.helloDigest use

def foursCrypto : Crypto := {CoRtmpSession.helloCrypto with digest:=fun use _ _ => foursDigest use}

theorem fours_answered : (do
    let (h,_) ← blank.parseC1 foursCrypto fours
    let (_,_,made) ← h.makeS1 foursCrypto (List.Vector.replicate 1536 0)
    return (h.schema,made,decide (h.exchangedKey foursCrypto = h.c1KeyData.toList))) =
    (.ok (.schema0,true,false) : Except Fault (HandshakeSchema × Bool × Bool)) := by
  decide +kernel

theorem fours_made : ∃ h ret next s1, blank.parseC1 foursCrypto fours = .ok (h,ret) ∧
    h.makeS1 foursCrypto (List.Vector.replicate 1536 0) = .ok (next,s1,true) ∧ h.schema = .schema0 ∧
    h.exchangedKey foursCrypto ≠ h.c1KeyData.toList := by
  obtain ⟨⟨h,ret⟩,parsed,answered⟩ := bind_ok.mp fours_answered
  obtain ⟨⟨next,s1,made⟩,madeS1,answered⟩ := bind_ok.mp answered
  obtain ⟨schema,flags⟩ := Prod.mk.inj (Except.ok.inj answered)
  obtain ⟨rfl,other⟩ := Prod.mk.inj flags
  exact ⟨h,ret,next,s1,parsed,madeS1,schema,of_decide_eq_false other⟩

theorem fours_hashes_exactly : ∃ h ret next s1, blank.parseC1 foursCrypto fours = .ok (h,ret) ∧
    h.makeS1 foursCrypto (List.Vector.replicate 1536 0) = .ok (next,s1,true) ∧
    (HashesItself next blank s1 ↔ h.KeyReturns foursCrypto) := by
  obtain ⟨h,ret,next,s1,parsed,made,-,-⟩ := fours_made
  exact ⟨h,ret,next,s1,parsed,made,s1_hashes_itself_exactly blank blank _ parsed made⟩

theorem s1_hashes_another : ¬ ∀ (crypto : Crypto) (fresh peer h next : C1S1Handle) (c1 : Bytes) (ret : Int)
    (body s1 : List.Vector UInt8 1536), fresh.parseC1 crypto c1 = .ok (h,ret) → h.makeS1 crypto body = .ok (next,s1,true) →
    HashesItself next peer s1 := by
  intro always
  obtain ⟨h,ret,next,s1,parsed,made,schema,other⟩ := fours_made
  have hashes := always foursCrypto blank blank h next fours ret _ s1 parsed made
  obtain ⟨⟨d,k,cut⟩,-,-⟩ := parseC1_cut parsed
  obtain ⟨key,written,same,kept⟩ := makeS1_exact made
  have nextCut := kept d k cut
  rcases writeS1_cut nextCut written with ⟨schema0,shape⟩ | ⟨schema1,-⟩
  · have returned := (hashesItself_schema0 nextCut schema0 blank shape).mp hashes
    rw [key,nextCut.keyData,← cut.keyData] at returned
    exact other returned
  · rw [same,schema] at schema1
    cases schema1

end C1S1Handle
end CoStream
