import CoStream.RtmpS1

namespace CoStream.C1S1Handle
open Foundation

variable {data : Bytes} {front behind : Nat}

-- Where a block of 764 bytes says that its 32 or 128 bytes stand: the digest's
-- offset comes first, the key's last.
def digestPosition (block : Bytes) : Nat := 4+calcValidDigestOffset (bigEndian (block.take 4))
def keyPosition (block : Bytes) : Nat := calcValidKeyOffset (bigEndian ((block.drop 760).take 4))

-- The 1528 bytes behind time and version with another key and digest in them.
def spliced0 (data : Bytes) (key : List.Vector UInt8 128) (digest : List.Vector UInt8 32) : Bytes :=
  replaced (replaced data (keyPosition data) key.toList) (764+digestPosition (data.drop 764)) digest.toList

def spliced1 (data : Bytes) (key : List.Vector UInt8 128) (digest : List.Vector UInt8 32) : Bytes :=
  replaced (replaced data (digestPosition data) digest.toList) (764+keyPosition (data.drop 764)) key.toList

theorem bigEndian_write4Bytes (small : offset < 2^32) : bigEndian (write4Bytes offset) = offset :=
  bigEndian_byteAt_four offset small

theorem digestPosition_block (d : DigestBlock) (rest : Bytes) :
    digestPosition (d.bytes++rest) = 4+d.random0.length := by
  unfold digestPosition
  rw [DigestBlock.bytes,List.append_assoc,List.take_left' (length_write4Bytes _),bigEndian_write4Bytes d.small,d.begins]

theorem keyPosition_block (k : KeyBlock) (rest : Bytes) : keyPosition (k.bytes++rest) = k.random0.length := by
  have ends := k.ends
  have shape : k.bytes++rest = (k.random0++(k.key.toList++k.random1))++(write4Bytes k.offset++rest) := by
    simp [KeyBlock.bytes]
  have long : (k.random0++(k.key.toList++k.random1)).length = 760 := by
    simp
    omega
  unfold keyPosition
  rw [shape,List.drop_left' long,List.take_left' (length_write4Bytes _),bigEndian_write4Bytes k.small,k.begins]

theorem replaced_digest (d : DigestBlock) (front rest : Bytes) (digest : List.Vector UInt8 32) :
    replaced (front++(d.bytes++rest)) (front.length+(4+d.random0.length)) digest.toList =
      front++({d with digest}.bytes++rest) := by
  rw [replaced_part (front++(write4Bytes d.offset++d.random0)) d.digest.toList (d.random1++rest) digest.toList]
  · simp [DigestBlock.bytes]
  · simp [DigestBlock.bytes]
  · simp [length_write4Bytes]
  · simp

theorem replaced_key (k : KeyBlock) (front rest : Bytes) (key : List.Vector UInt8 128) :
    replaced (front++(k.bytes++rest)) (front.length+k.random0.length) key.toList = front++({k with key}.bytes++rest) := by
  rw [replaced_part (front++k.random0) k.key.toList (k.random1++(write4Bytes k.offset++rest)) key.toList]
  · simp [KeyBlock.bytes]
  · simp [KeyBlock.bytes]
  · simp
  · simp

theorem spliced0_blocks (k : KeyBlock) (d : DigestBlock) (key : List.Vector UInt8 128) (digest : List.Vector UInt8 32) :
    spliced0 (k.bytes++d.bytes) key digest = {k with key}.bytes++{d with digest}.bytes := by
  have first := replaced_key k [] d.bytes key
  have second := replaced_digest d {k with key}.bytes [] digest
  have position := digestPosition_block d []
  rw [List.append_nil] at position
  simp only [List.nil_append,List.length_nil,Nat.zero_add] at first
  simp only [List.append_nil,KeyBlock.length_bytes] at second
  unfold spliced0
  rw [keyPosition_block,first,List.drop_left' k.length_bytes,position,second]

theorem spliced1_blocks (d : DigestBlock) (k : KeyBlock) (key : List.Vector UInt8 128) (digest : List.Vector UInt8 32) :
    spliced1 (d.bytes++k.bytes) key digest = {d with digest}.bytes++{k with key}.bytes := by
  have first := replaced_digest d [] k.bytes digest
  have second := replaced_key k {d with digest}.bytes [] key
  have position := keyPosition_block k []
  rw [List.append_nil] at position
  simp only [List.nil_append,List.length_nil,Nat.zero_add] at first
  simp only [List.append_nil,DigestBlock.length_bytes] at second
  unfold spliced1
  rw [digestPosition_block,first,List.drop_left' d.length_bytes,position,second]

-- Any target is cut at the three places the schemas write to.
theorem target_cut (body : List.Vector UInt8 (front+1528+behind)) : ∃ before one two after,
    body.toList = before++(one++(two++after)) ∧ before.length = front ∧ one.length = 764 ∧ two.length = 764 ∧
      body.toList.take front = before ∧ body.toList.drop (front+1528) = after := by
  have total := body.toList_length
  obtain ⟨before,rest,shape,isBefore⟩ := cut_front body.toList front (by omega)
  rw [shape,List.length_append] at total
  obtain ⟨one,rest,rfl,isOne⟩ := cut_front rest 764 (by omega)
  rw [List.length_append] at total
  obtain ⟨two,after,rfl,isTwo⟩ := cut_front rest 764 (by omega)
  refine ⟨before,one,two,after,shape,isBefore,isOne,isTwo,?_,?_⟩
  · rw [shape,List.take_left' isBefore]
  · have joined : body.toList = (before++(one++two))++after := by simp [shape]
    rw [joined,List.drop_left' (by simp [isBefore,isOne,isTwo])]

-- The bytes a schema was tried on, written back with the parts of the answer.
def Written (body : List.Vector UInt8 size) (front : Nat) (bytes : Bytes) (made : Except Fault (List.Vector UInt8 size)) :
    Prop :=
  bytes.length = 1528 ∧
    ∃ next, made = .ok next ∧ next.toList = body.toList.take front++(bytes++body.toList.drop (front+1528))

theorem makeSchema0_cut {h : C1S1Handle} (cut : Cut h d k) (body : List.Vector UInt8 (front+1528+behind)) :
    Written body front ({k with key:=h.s1KeyData}.bytes++{d with digest:=h.s1DigestData}.bytes)
      (h.makeSchema0 body front) := by
  obtain ⟨before,one,two,after,shape,isBefore,isOne,isTwo,taken,dropped⟩ := target_cut body
  obtain ⟨middle,next,laid,laidNext,isNext⟩ := overlay_two body before one two after h.makeKey h.makeDigest front shape
    isBefore.symm (by rw [makeKey_cut cut,KeyBlock.length_bytes,isOne])
    (by rw [makeDigest_cut cut,DigestBlock.length_bytes,isTwo])
  refine ⟨by simp [KeyBlock.length_bytes,DigestBlock.length_bytes],next,?_,?_⟩
  · rw [makeKey_cut cut,KeyBlock.length_bytes] at laidNext
    unfold makeSchema0
    rw [laid,ok_bind,laidNext]
  · rw [isNext,taken,dropped,makeKey_cut cut,makeDigest_cut cut,List.append_assoc]

theorem makeSchema1_cut {h : C1S1Handle} (cut : Cut h d k) (body : List.Vector UInt8 (front+1528+behind)) :
    Written body front ({d with digest:=h.s1DigestData}.bytes++{k with key:=h.s1KeyData}.bytes)
      (h.makeSchema1 body front) := by
  obtain ⟨before,one,two,after,shape,isBefore,isOne,isTwo,taken,dropped⟩ := target_cut body
  obtain ⟨middle,next,laid,laidNext,isNext⟩ := overlay_two body before one two after h.makeDigest h.makeKey front shape
    isBefore.symm (by rw [makeDigest_cut cut,DigestBlock.length_bytes,isOne])
    (by rw [makeKey_cut cut,KeyBlock.length_bytes,isTwo])
  refine ⟨by simp [KeyBlock.length_bytes,DigestBlock.length_bytes],next,?_,?_⟩
  · rw [makeDigest_cut cut,DigestBlock.length_bytes] at laidNext
    unfold makeSchema1
    rw [laid,ok_bind,laidNext]
  · rw [isNext,taken,dropped,makeKey_cut cut,makeDigest_cut cut,List.append_assoc]

theorem trySchema0_cut (h : C1S1Handle) (k : KeyBlock) (d : DigestBlock) :
    ∃ tried, h.trySchema0 (k.bytes++d.bytes) = .ok tried ∧ Cut tried d k ∧ tried.c1Data = h.c1Data ∧
      tried.digestData = d.digest := by
  refine ⟨(h.withKey k).withDigest d,?_,⟨rfl,rfl,rfl,rfl,rfl,rfl,rfl⟩,rfl,rfl⟩
  rw [trySchema0,parseKey_block h k d.bytes rfl,ok_bind]
  exact parseDigest_block _ d [] (by rw [List.drop_left' k.length_bytes,List.append_nil])

theorem trySchema1_cut (h : C1S1Handle) (d : DigestBlock) (k : KeyBlock) :
    ∃ tried, h.trySchema1 (d.bytes++k.bytes) = .ok tried ∧ Cut tried d k ∧ tried.c1Data = h.c1Data ∧
      tried.digestData = d.digest := by
  refine ⟨(h.withDigest d).withKey k,?_,⟨rfl,rfl,rfl,rfl,rfl,rfl,rfl⟩,rfl,rfl⟩
  rw [trySchema1,parseDigest_block h d k.bytes rfl,ok_bind]
  exact parseKey_block _ k [] (by rw [List.drop_left' d.length_bytes,List.append_nil])

theorem c1_blocks (c1 : List.Vector UInt8 1536) :
    (∃ (d : DigestBlock) (k : KeyBlock), c1.toList.drop 8 = d.bytes++k.bytes) ∧
      ∃ (k : KeyBlock) (d : DigestBlock), c1.toList.drop 8 = k.bytes++d.bytes := by
  have long : (c1.toList.drop 8).length = 1528 := by simp
  obtain ⟨⟨d,k,rest,digestFirst⟩,key,digest,left,keyFirst⟩ := exists_blocks (c1.toList.drop 8) (Nat.le_of_eq long.symm)
  constructor
  · rw [digestFirst] at long
    simp only [List.length_append,DigestBlock.length_bytes,KeyBlock.length_bytes] at long
    have nothing : rest = [] := List.eq_nil_of_length_eq_zero (by omega)
    exact ⟨d,k,by rw [digestFirst,nothing,List.append_nil]⟩
  · rw [keyFirst] at long
    simp only [List.length_append,DigestBlock.length_bytes,KeyBlock.length_bytes] at long
    have nothing : left = [] := List.eq_nil_of_length_eq_zero (by omega)
    exact ⟨key,digest,by rw [keyFirst,nothing,List.append_nil]⟩

-- An error of either schema would be a read outside the 1528 bytes or an assert.
theorem schemas_spliced (h : C1S1Handle) (c1 : List.Vector UInt8 1536) (key : List.Vector UInt8 128)
    (digest : List.Vector UInt8 32) (front behind : Nat) (body : List.Vector UInt8 (front+1528+behind)) :
    (∃ tried, h.trySchema0 (c1.toList.drop 8) = .ok tried ∧
      Written body front (spliced0 (c1.toList.drop 8) key digest)
        (makeSchema0 {tried with s1KeyData:=key,s1DigestData:=digest} body front)) ∧
    ∃ tried, h.trySchema1 (c1.toList.drop 8) = .ok tried ∧
      Written body front (spliced1 (c1.toList.drop 8) key digest)
        (makeSchema1 {tried with s1KeyData:=key,s1DigestData:=digest} body front) := by
  obtain ⟨⟨d,k,digestFirst⟩,key0,digest0,keyFirst⟩ := c1_blocks c1
  constructor
  · rw [keyFirst,spliced0_blocks]
    obtain ⟨tried,parsed,cut,-⟩ := trySchema0_cut h key0 digest0
    have again : Cut {tried with s1KeyData:=key,s1DigestData:=digest} digest0 key0 :=
      ⟨cut.digestOffset,cut.digestRandom0,cut.digestRandom1,cut.keyOffset,cut.keyRandom0,cut.keyRandom1,cut.keyData⟩
    exact ⟨tried,parsed,makeSchema0_cut again body⟩
  · rw [digestFirst,spliced1_blocks]
    obtain ⟨tried,parsed,cut,-⟩ := trySchema1_cut h d k
    have again : Cut {tried with s1KeyData:=key,s1DigestData:=digest} d k :=
      ⟨cut.digestOffset,cut.digestRandom0,cut.digestRandom1,cut.keyOffset,cut.keyRandom0,cut.keyRandom1,cut.keyData⟩
    exact ⟨tried,parsed,makeSchema1_cut again body⟩

end CoStream.C1S1Handle
