import CoStream.RtmpHandshake

namespace CoStream
open Foundation

theorem length_write4Bytes (value : Nat) : (write4Bytes value).length = 4 := rfl

theorem read4Bytes_part {data : Bytes} (front back : Bytes) (small : value < 2^32)
    (shape : data = front++(write4Bytes value++back)) (begins : start = front.length) :
    read4Bytes data start = .ok value := by
  unfold read4Bytes
  have four : slice data start 4 = .ok (write4Bytes value) := slice_part front _ back shape begins rfl
  rw [four,ok_bind,write4Bytes,bigEndian_byteAt_four value small]
  rfl

-- Four bytes are the number they stand for, written again.
theorem write4Bytes_bigEndian (a b c d : UInt8) : write4Bytes (bigEndian [a,b,c,d]) = [a,b,c,d] := by
  have value : bigEndian [a,b,c,d] = ((a.toNat*256+b.toNat)*256+c.toNat)*256+d.toNat := by simp [bigEndian]
  have bounds := And.intro (UInt8.toNat_lt a) (And.intro (UInt8.toNat_lt b) (And.intro (UInt8.toNat_lt c) (UInt8.toNat_lt d)))
  simp only [write4Bytes,List.cons.injEq,and_true]
  refine ⟨?_,?_,?_,?_⟩ <;> apply UInt8.toNat_inj.mp <;> rw [toNat_byteAt,value] <;> omega

theorem four_bytes (bytes : Bytes) (four : bytes.length = 4) : ∃ value < 2^32, bytes = write4Bytes value := by
  obtain ⟨a,b,c,d,rfl⟩ := List.length_eq_four.mp four
  have small : bigEndian [a,b,c,d] < 256^4 := bigEndian_lt [a,b,c,d]
  exact ⟨bigEndian [a,b,c,d],Nat.lt_of_lt_of_eq small (by decide),(write4Bytes_bigEndian a b c d).symm⟩

theorem calcValidDigestOffset_lt (offset : Nat) : calcValidDigestOffset offset < 728 := Nat.mod_lt _ (by decide)
theorem calcValidKeyOffset_lt (offset : Nat) : calcValidKeyOffset offset < 632 := Nat.mod_lt _ (by decide)

-- 764 bytes around a digest: the offset says how many random bytes stand
-- before it.
structure DigestBlock where
  offset : Nat
  random0 : Bytes
  digest : List.Vector UInt8 32
  random1 : Bytes
  small : offset < 2^32
  begins : random0.length = calcValidDigestOffset offset
  ends : 4+random0.length+32+random1.length = 764

structure KeyBlock where
  random0 : Bytes
  key : List.Vector UInt8 128
  random1 : Bytes
  offset : Nat
  small : offset < 2^32
  begins : random0.length = calcValidKeyOffset offset
  ends : random0.length+128+random1.length+4 = 764

namespace DigestBlock

def bytes (b : DigestBlock) : Bytes := write4Bytes b.offset++(b.random0++(b.digest.toList++b.random1))

-- The block as it is hashed.
def bare (b : DigestBlock) : Bytes := write4Bytes b.offset++(b.random0++b.random1)

theorem length_bytes (b : DigestBlock) : b.bytes.length = 764 := by
  have ends := b.ends
  simp [bytes,length_write4Bytes]
  omega

theorem length_bare (b : DigestBlock) : b.bare.length = 732 := by
  have ends := b.ends
  simp [bare,length_write4Bytes]
  omega

end DigestBlock

namespace KeyBlock

def bytes (b : KeyBlock) : Bytes := b.random0++(b.key.toList++(b.random1++write4Bytes b.offset))

theorem length_bytes (b : KeyBlock) : b.bytes.length = 764 := by
  have ends := b.ends
  simp [bytes,length_write4Bytes]
  omega

end KeyBlock

theorem cut_front (data : Bytes) (count : Nat) (long : count ≤ data.length) :
    ∃ front back, data = front++back ∧ front.length = count :=
  ⟨data.take count,data.drop count,(List.take_append_drop count data).symm,List.length_take_of_le long⟩

-- Any 764 bytes can be read as either block.
theorem exists_digestBlock (data : Bytes) (long : data.length = 764) : ∃ d : DigestBlock, data = d.bytes := by
  obtain ⟨four,rest,rfl,isFour⟩ := cut_front data 4 (by omega)
  obtain ⟨offset,small,rfl⟩ := four_bytes four isFour
  rw [List.length_append,length_write4Bytes] at long
  have below := calcValidDigestOffset_lt offset
  obtain ⟨random0,rest,rfl,begins⟩ := cut_front rest (calcValidDigestOffset offset) (by omega)
  rw [List.length_append] at long
  obtain ⟨digest,random1,rfl,isDigest⟩ := cut_front rest 32 (by omega)
  rw [List.length_append] at long
  exact ⟨⟨offset,random0,⟨digest,isDigest⟩,random1,small,begins,by omega⟩,rfl⟩

theorem exists_keyBlock (data : Bytes) (long : data.length = 764) : ∃ k : KeyBlock, data = k.bytes := by
  obtain ⟨front,four,rfl,isFront⟩ := cut_front data 760 (by omega)
  rw [List.length_append] at long
  obtain ⟨offset,small,rfl⟩ := four_bytes four (by omega)
  have below := calcValidKeyOffset_lt offset
  obtain ⟨random0,rest,rfl,begins⟩ := cut_front front (calcValidKeyOffset offset) (by omega)
  rw [List.length_append] at isFront
  obtain ⟨key,random1,rfl,isKey⟩ := cut_front rest 128 (by omega)
  rw [List.length_append] at isFront
  exact ⟨⟨random0,⟨key,isKey⟩,random1,offset,small,begins,by omega⟩,by simp [KeyBlock.bytes]⟩

theorem exists_blocks (data : Bytes) (long : 1528 ≤ data.length) :
    (∃ (d : DigestBlock) (k : KeyBlock) (rest : Bytes), data = d.bytes++(k.bytes++rest)) ∧
      ∃ (k : KeyBlock) (d : DigestBlock) (rest : Bytes), data = k.bytes++(d.bytes++rest) := by
  obtain ⟨one,behind,rfl,isOne⟩ := cut_front data 764 (by omega)
  rw [List.length_append] at long
  obtain ⟨two,rest,rfl,isTwo⟩ := cut_front behind 764 (by omega)
  obtain ⟨d,rfl⟩ := exists_digestBlock one isOne
  obtain ⟨k,rfl⟩ := exists_keyBlock two isTwo
  obtain ⟨other,first⟩ := exists_keyBlock d.bytes isOne
  obtain ⟨last,second⟩ := exists_digestBlock k.bytes isTwo
  exact ⟨⟨d,k,rest,rfl⟩,other,last,rest,by rw [← first,← second]⟩

namespace C1S1Handle

-- A handle in memory that was all zero.
def blank : C1S1Handle where
  c1Data := List.Vector.replicate 1536 0
  c1Time := 0
  c1Version := 0
  c1KeyOffset := 0
  c1KeyData := List.Vector.replicate 128 0
  c1DigestOffset := 0
  digestData := List.Vector.replicate 32 0
  s1TimeSec := 0
  s1Version := 0
  s1KeyData := List.Vector.replicate 128 0
  s1DigestData := List.Vector.replicate 32 0

def withDigest (h : C1S1Handle) (b : DigestBlock) : C1S1Handle :=
  {h with c1DigestOffset:=b.offset,digestRandom0:=b.random0,digestData:=b.digest,digestRandom1:=b.random1}

def withKey (h : C1S1Handle) (b : KeyBlock) : C1S1Handle :=
  {h with c1KeyOffset:=b.offset,keyRandom0:=b.random0,c1KeyData:=b.key,keyRandom1:=b.random1}

theorem parseDigest_block (h : C1S1Handle) (b : DigestBlock) (rest : Bytes) (shape : data = b.bytes++rest) :
    h.parseDigest data = .ok (h.withDigest b) := by
  obtain ⟨offset,random0,digest,random1,small,begins,ends⟩ := b
  have below := calcValidDigestOffset_lt offset
  have size : toUint32 (764-4-calcValidDigestOffset offset-32) = random1.length := by
    rw [← begins]
    unfold toUint32
    omega
  simp only [DigestBlock.bytes,List.append_assoc] at shape
  have readOffset : read4Bytes data 0 = .ok offset := read4Bytes_part [] _ small shape rfl
  have readFirst : slice data 4 (calcValidDigestOffset offset) = .ok random0 :=
    slice_part (write4Bytes offset) random0 _ shape rfl begins.symm
  have readDigest : sliceFixed data (4+calcValidDigestOffset offset) 32 = .ok digest :=
    sliceFixed_part (write4Bytes offset++random0) digest (random1++rest) (by simp [shape])
      (by simp [begins,length_write4Bytes])
  have readSecond : slice data (4+calcValidDigestOffset offset+32) random1.length = .ok random1 :=
    slice_part (write4Bytes offset++(random0++digest.toList)) random1 rest (by simp [shape])
      (by simp [begins,length_write4Bytes,Nat.add_assoc]) rfl
  unfold parseDigest
  rw [readOffset,ok_bind]
  dsimp only
  rw [assert_ok _ (by omega),ok_bind,readFirst,ok_bind,readDigest,ok_bind,size,assert_ok _ (by omega),ok_bind,readSecond,
    ok_bind,assert_ok _ (by omega)]
  rfl

theorem parseKey_block (h : C1S1Handle) (b : KeyBlock) (rest : Bytes) (shape : data = b.bytes++rest) :
    h.parseKey data = .ok (h.withKey b) := by
  obtain ⟨random0,key,random1,offset,small,begins,ends⟩ := b
  have below := calcValidKeyOffset_lt offset
  have size : toUint32 (764-calcValidKeyOffset offset-128-4) = random1.length := by
    rw [← begins]
    unfold toUint32
    omega
  simp only [KeyBlock.bytes,List.append_assoc] at shape
  have readOffset : read4Bytes data (764-4) = .ok offset :=
    read4Bytes_part (random0++(key.toList++random1)) rest small (by simp [shape]) (by simp; omega)
  have readFirst : slice data 0 (calcValidKeyOffset offset) = .ok random0 := slice_part [] random0 _ shape rfl begins.symm
  have readKey : sliceFixed data (calcValidKeyOffset offset) 128 = .ok key :=
    sliceFixed_part random0 key (random1++(write4Bytes offset++rest)) (by simp [shape]) begins.symm
  have readSecond : slice data (calcValidKeyOffset offset+128) random1.length = .ok random1 :=
    slice_part (random0++key.toList) random1 (write4Bytes offset++rest) (by simp [shape]) (by simp [begins]) rfl
  unfold parseKey
  rw [readOffset,ok_bind]
  dsimp only
  rw [assert_ok _ (by omega),ok_bind,readFirst,ok_bind,readKey,ok_bind,size,assert_ok _ (by omega),ok_bind,readSecond,
    ok_bind,assert_ok _ (by omega)]
  rfl

-- C1 without its digest, wherever the digest stands.
theorem joinedC1_part (h : C1S1Handle) (before after : Bytes) (digest : List.Vector UInt8 32)
    (shape : h.c1Data.toList = before++(digest.toList++after)) (stands : before.length = front+h.digestRandom0.length) :
    h.joinedC1 front = .ok (before++after) := by
  have total := h.c1Data.toList_length
  rw [shape,List.length_append,List.length_append,digest.toList_length] at total
  have size : toSize (1536-(front+h.digestRandom0.length : Nat)-32) = after.length := by
    unfold toSize
    omega
  have first : slice h.c1Data.toList 0 (front+h.digestRandom0.length) = .ok before :=
    slice_part [] before _ shape rfl stands.symm
  have second : slice h.c1Data.toList (front+h.digestRandom0.length+32) after.length = .ok after :=
    slice_part (before++digest.toList) after [] (by simp [shape]) (by simp [stands]) rfl
  unfold joinedC1
  simp only [size]
  rw [first,ok_bind,second,ok_bind,assert_ok _ (by omega)]
  rfl

theorem joinedC1_schema1 (h : C1S1Handle) (head : Bytes) (d : DigestBlock) (k : KeyBlock) (eight : head.length = 8)
    (shape : h.c1Data.toList = head++(d.bytes++k.bytes)) (parsed : h.digestRandom0 = d.random0) :
    h.joinedC1 (8+4) = .ok (head++(d.bare++k.bytes)) := by
  rw [joinedC1_part h (head++(write4Bytes d.offset++d.random0)) (d.random1++k.bytes) d.digest]
  · simp [DigestBlock.bare]
  · simp [shape,DigestBlock.bytes]
  · simp only [List.length_append,parsed,eight,length_write4Bytes]
    omega

theorem joinedC1_schema0 (h : C1S1Handle) (head : Bytes) (k : KeyBlock) (d : DigestBlock) (eight : head.length = 8)
    (shape : h.c1Data.toList = head++(k.bytes++d.bytes)) (parsed : h.digestRandom0 = d.random0) :
    h.joinedC1 (8+764+4) = .ok (head++(k.bytes++d.bare)) := by
  rw [joinedC1_part h (head++(k.bytes++(write4Bytes d.offset++d.random0))) d.random1 d.digest]
  · simp [DigestBlock.bare]
  · simp [shape,DigestBlock.bytes]
  · simp only [List.length_append,parsed,eight,k.length_bytes,length_write4Bytes]
    omega

end C1S1Handle
end CoStream
