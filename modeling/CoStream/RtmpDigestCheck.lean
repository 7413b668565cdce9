import CoStream.RtmpSplice

namespace CoStream
open Foundation

-- One of the calls to HMAC_Init_ex, HMAC_Update and HMAC_Final returned what the
-- code takes for a failure.
def Reports (crypto : Crypto) (use : HmacUse) : Prop :=
  (crypto.hmac use).init < 0 ∨ (crypto.hmac use).update < 0 ∨ (crypto.hmac use).final < 0
instance : Decidable (Reports crypto use) := inferInstanceAs (Decidable (_ ∨ _))

-- The digest was computed: all three succeeded, and its 32 bytes were written.
def Computed (crypto : Crypto) (use : HmacUse) : Prop := (crypto.hmac use).Succeeded ∧ (crypto.hmac use).digestSize = 32
instance : Decidable (Computed crypto use) := inferInstanceAs (Decidable (_ ∧ _))

theorem Computed.unreported (computed : Computed crypto use) : ¬ Reports crypto use := by
  obtain ⟨⟨init,update,final⟩,-⟩ := computed
  unfold Reports
  omega

theorem Computed.array (computed : Computed crypto use) (key data : Bytes) :
    hmacArray crypto use key data = crypto.digest use key data := if_pos computed.1

theorem hmacSha256_none (key data : Bytes) : hmacSha256 crypto use key data = none ↔
    Reports crypto use ∨ (crypto.hmac use).digestSize ≠ 32 := by
  unfold hmacSha256 Reports
  dsimp only
  split
  · rename_i failed
    rcases failed with init | update | final | size
    · exact ⟨fun _ => .inl (.inl init),fun _ => rfl⟩
    · exact ⟨fun _ => .inl (.inr (.inl update)),fun _ => rfl⟩
    · exact ⟨fun _ => .inl (.inr (.inr final)),fun _ => rfl⟩
    · exact ⟨fun _ => .inr size,fun _ => rfl⟩
  · rename_i succeeded
    constructor
    · intro never
      cases never
    · rintro ((init | update | final) | size)
      · exact absurd (.inl init) succeeded
      · exact absurd (.inr (.inl update)) succeeded
      · exact absurd (.inr (.inr (.inl final))) succeeded
      · exact absurd (.inr (.inr (.inr size))) succeeded

theorem hmacSha256_some (found : hmacSha256 crypto use key data = some digest) : digest = hmacArray crypto use key data := by
  unfold hmacSha256 at found
  dsimp only at found
  split at found
  · cases found
  · exact (Option.some.inj found).symm

namespace C1S1Handle

variable {crypto : Crypto} {h tried : C1S1Handle} {use : HmacUse} {schema : HandshakeSchema} {front place : Nat}

-- The digest of the rest of C1 was computed, and it is the one that stands in C1.
def Verified (crypto : Crypto) (h : C1S1Handle) (use : HmacUse) (front : Nat) : Prop :=
  Computed crypto use ∧ ∃ message, h.joinedC1 front = .ok message ∧
    h.digestData = crypto.digest use (genuineFlashPlayerKey.take 30) message

def VerifiedAs (crypto : Crypto) (h : C1S1Handle) : HandshakeSchema → Prop
  | .schema0 => Verified crypto h .schema0 (8+764+4)
  | .schema1 => Verified crypto h .schema1 (8+4)
  | .init => False

-- The handle as `parseC1` has it when it checks a schema.
def tries (h : C1S1Handle) (c1 : List.Vector UInt8 1536) : HandshakeSchema → Except Fault C1S1Handle
  | .schema0 => trySchema0 {h with c1Data:=c1} (c1.toList.drop 8)
  | .schema1 => trySchema1 {h with c1Data:=c1} (c1.toList.drop 8)
  | .init => .error .assertion

def CheckClosed (crypto : Crypto) (h : C1S1Handle) (c1 : List.Vector UInt8 1536) (schema : HandshakeSchema) : Prop :=
  ∀ tried, h.tries c1 schema = .ok tried → tried.checkDigestValid crypto schema = .ok true → VerifiedAs crypto tried schema

-- With code 0 a schema has been selected. The simple handshake, code 2, claims
-- no digest.
def ParseClosed (crypto : Crypto) (h : C1S1Handle) (c1 : List.Vector UInt8 1536) : Prop :=
  ∀ next, h.parseC1 crypto c1.toList = .ok (next,rtmpOk) → VerifiedAs crypto next next.schema

-- The 32 bytes of the digest block that begins at `place`.
def storedDigest (c1 : List.Vector UInt8 1536) (place : Nat) : Bytes :=
  let block := c1.toList.drop place
  (block.drop (4+calcValidDigestOffset (bigEndian (block.take 4)))).take 32

-- No call returns a negative code; and where the digest is not computed all the
-- same, the array that should have got it is not what C1 brings. An array of
-- another size stops the check at its assert.
def Trusts (crypto : Crypto) (use : HmacUse) (stored : Bytes) : Prop :=
  ¬ Reports crypto use ∧
    ((crypto.hmac use).Succeeded ∨ (crypto.hmac use).digestSize ≠ 32 ∨ stored ≠ (crypto.hmac use).left.toList)
instance : Decidable (Trusts crypto use stored) := inferInstanceAs (Decidable (_ ∧ _))

theorem compareDigest_runs (joined : h.joinedC1 front = .ok message)
    (unreported : ¬ ((crypto.hmac use).update < 0 ∨ (crypto.hmac use).final < 0)) (size : (crypto.hmac use).digestSize = 32) :
    h.compareDigest crypto use front =
      .ok (decide (h.digestData = hmacArray crypto use (genuineFlashPlayerKey.take 30) message)) := by
  unfold compareDigest
  rw [joined,ok_bind]
  dsimp only
  rw [if_neg unreported,assert_ok _ size]
  rfl

theorem compareDigest_verified (joined : h.joinedC1 front = .ok message) (starts : ¬ (crypto.hmac use).init < 0) :
    (h.compareDigest crypto use front = .ok true → Verified crypto h use front) ↔ Trusts crypto use h.digestData.toList := by
  by_cases late : (crypto.hmac use).update < 0 ∨ (crypto.hmac use).final < 0
  · have accepts : h.compareDigest crypto use front = .ok true := by
      unfold compareDigest
      rw [joined,ok_bind]
      dsimp only
      rw [if_pos late]
      rfl
    constructor
    · intro verified
      exact absurd (.inr late) (verified accepts).1.unreported
    · intro trusts
      exact absurd (.inr late) trusts.1
  · have unreported : ¬ Reports crypto use := by
      rintro (init | later)
      · exact starts init
      · exact late later
    by_cases size : (crypto.hmac use).digestSize = 32
    · rw [compareDigest_runs joined late size]
      by_cases succeeded : (crypto.hmac use).Succeeded
      · refine iff_of_true (fun compared => ⟨⟨succeeded,size⟩,message,joined,?_⟩) ⟨unreported,.inl succeeded⟩
        rw [← Computed.array ⟨succeeded,size⟩]
        exact of_decide_eq_true (Except.ok.inj compared)
      · rw [show hmacArray crypto use (genuineFlashPlayerKey.take 30) message = (crypto.hmac use).left from if_neg succeeded]
        constructor
        · intro verified
          refine ⟨unreported,.inr (.inr fun same => ?_)⟩
          exact succeeded (verified (by rw [decide_eq_true (List.Vector.toList_injective same)])).1.1
        · rintro ⟨-,computed | other | differs⟩ compared
          · exact absurd computed succeeded
          · exact absurd size other
          · exact absurd (congrArg List.Vector.toList (of_decide_eq_true (Except.ok.inj compared))) differs
    · refine iff_of_true (fun compared => ?_) ⟨unreported,.inr (.inl size)⟩
      unfold compareDigest at compared
      rw [joined,ok_bind] at compared
      dsimp only at compared
      rw [if_neg late] at compared
      obtain ⟨_,asserted,-⟩ := bind_ok.mp compared
      unfold assert at asserted
      rw [if_neg size] at asserted
      cases asserted

theorem storedDigest_block (c1 : List.Vector UInt8 1536) (d : DigestBlock) (rest : Bytes)
    (shape : c1.toList.drop place = d.bytes++rest) : storedDigest c1 place = d.digest.toList := by
  obtain ⟨offset,random0,digest,random1,small,begins,ends⟩ := d
  have four : (c1.toList.drop place).take 4 = write4Bytes offset := by
    rw [shape,DigestBlock.bytes,List.append_assoc]
    exact List.take_left' rfl
  unfold storedDigest
  dsimp only
  rw [four,write4Bytes,bigEndian_byteAt_four offset small,← begins,shape,DigestBlock.bytes]
  have front : (4+random0.length) = (write4Bytes offset++random0).length := by
    rw [List.length_append,length_write4Bytes]
  rw [front,show write4Bytes offset++(random0++(digest.toList++random1))++rest =
    (write4Bytes offset++random0)++(digest.toList++(random1++rest)) by simp,List.drop_left,
    List.take_left' digest.toList_length]

-- After either schema was tried the message is there to be hashed, and the
-- digest that stands in C1 was taken.
theorem tries_schema0 (h : C1S1Handle) (c1 : List.Vector UInt8 1536) :
    ∃ tried message, h.tries c1 .schema0 = .ok tried ∧ tried.joinedC1 (8+764+4) = .ok message ∧
      tried.digestData.toList = storedDigest c1 (8+764) := by
  obtain ⟨-,k,d,shape⟩ := c1_blocks c1
  obtain ⟨tried,parsed,cut,same,taken⟩ := trySchema0_cut {h with c1Data:=c1} k d
  have whole : tried.c1Data.toList = c1.toList.take 8++(k.bytes++d.bytes) := by
    rw [same,← shape,List.take_append_drop]
  refine ⟨tried,_,by rw [tries,shape,parsed],joinedC1_schema0 tried _ k d (by simp) whole cut.digestRandom0,?_⟩
  rw [taken,storedDigest_block c1 d []]
  rw [← List.drop_drop,shape,List.drop_left' k.length_bytes,List.append_nil]

theorem tries_schema1 (h : C1S1Handle) (c1 : List.Vector UInt8 1536) :
    ∃ tried message, h.tries c1 .schema1 = .ok tried ∧ tried.joinedC1 (8+4) = .ok message ∧
      tried.digestData.toList = storedDigest c1 8 := by
  obtain ⟨⟨d,k,shape⟩,-⟩ := c1_blocks c1
  obtain ⟨tried,parsed,cut,same,taken⟩ := trySchema1_cut {h with c1Data:=c1} d k
  have whole : tried.c1Data.toList = c1.toList.take 8++(d.bytes++k.bytes) := by
    rw [same,← shape,List.take_append_drop]
  refine ⟨tried,_,by rw [tries,shape,parsed],joinedC1_schema1 tried _ d k (by simp) whole cut.digestRandom0,?_⟩
  rw [taken,storedDigest_block c1 d k.bytes shape]

theorem checkClosed_iff (parsed : h.tries c1 schema = .ok tried) (joined : tried.joinedC1 front = .ok message)
    (stored : tried.digestData.toList = storedDigest c1 place)
    (checks : tried.checkDigestValid crypto schema =
      if (crypto.hmac use).init < 0 then .ok true else tried.compareDigest crypto use front)
    (verifies : VerifiedAs crypto tried schema ↔ Verified crypto tried use front) :
    CheckClosed crypto h c1 schema ↔ Trusts crypto use (storedDigest c1 place) := by
  unfold CheckClosed
  rw [parsed,← stored]
  by_cases starts : (crypto.hmac use).init < 0
  · constructor
    · intro closed
      have verified := verifies.mp (closed tried rfl (checks.trans (if_pos starts)))
      exact absurd (.inl starts) verified.1.unreported
    · intro trusts
      exact absurd (.inl starts) trusts.1
  · rw [if_neg starts] at checks
    rw [← compareDigest_verified joined starts]
    constructor
    · intro closed compared
      exact verifies.mp (closed tried rfl (checks.trans compared))
    · intro verified other same checked
      cases same
      exact verifies.mpr (verified (checks.symm.trans checked))

theorem checkClosed_schema0 : CheckClosed crypto h c1 .schema0 ↔ Trusts crypto .schema0 (storedDigest c1 (8+764)) := by
  obtain ⟨tried,message,parsed,joined,stored⟩ := tries_schema0 h c1
  exact checkClosed_iff parsed joined stored rfl Iff.rfl

theorem checkClosed_schema1 : CheckClosed crypto h c1 .schema1 ↔ Trusts crypto .schema1 (storedDigest c1 8) := by
  obtain ⟨tried,message,parsed,joined,stored⟩ := tries_schema1 h c1
  exact checkClosed_iff parsed joined stored rfl Iff.rfl

-- `parseC1` relies on the two checks and on nothing else.
theorem parseClosed_checks (first : ∀ h, CheckClosed crypto h c1 .schema1) (second : ∀ h, CheckClosed crypto h c1 .schema0) :
    ParseClosed crypto h c1 := by
  intro next parsed
  have copied : sliceFixed c1.toList 0 1536 = .ok c1 := sliceFixed_part [] c1 [] (by simp) rfl
  obtain ⟨⟨d,k,shape⟩,-⟩ := c1_blocks c1
  unfold parseC1 at parsed
  rw [copied,ok_bind] at parsed
  obtain ⟨c1Time,-,parsed⟩ := bind_ok.mp parsed
  obtain ⟨c1Version,-,parsed⟩ := bind_ok.mp parsed
  obtain ⟨tried,firstTried,parsed⟩ := bind_ok.mp parsed
  obtain ⟨isValid,firstChecked,parsed⟩ := bind_ok.mp parsed
  cases isValid with
  | true =>
    cases parsed
    exact first {h with c1Data:=c1,c1Time,c1Version} tried firstTried firstChecked
  | false =>
    obtain ⟨again,secondTried,parsed⟩ := bind_ok.mp parsed
    obtain ⟨isValid,secondChecked,parsed⟩ := bind_ok.mp parsed
    cases isValid with
    | true =>
      cases parsed
      obtain ⟨other,otherTried,-,kept,-⟩ := trySchema1_cut {h with c1Data:=c1,c1Time,c1Version} d k
      rw [← shape] at otherTried
      cases firstTried.symm.trans otherTried
      have same : {tried with c1Data:=c1} = tried := by
        rw [← show tried.c1Data = c1 from kept]
      exact second tried again (by rw [tries,same]; exact secondTried) secondChecked
    | false => cases parsed

end C1S1Handle

namespace C2S2Handle

variable {crypto : Crypto} {c : C2S2Handle} {c1Digest : List.Vector UInt8 32}

-- Both digests were computed, the second under the first, and it is the one that
-- stands in S2.
def Verified (crypto : Crypto) (c : C2S2Handle) (c1Digest : List.Vector UInt8 32) : Prop :=
  Computed crypto .validKey ∧ Computed crypto .validDigest ∧ c.digest = crypto.digest .validDigest
    (crypto.digest .validKey (genuineFlashPlayerKey++crypto.behindKey.toList) c1Digest.toList).toList c.random.toList

def S2Closed (crypto : Crypto) (c : C2S2Handle) (c1Digest : List.Vector UInt8 32) : Prop :=
  c.validateS2 crypto c1Digest = true → Verified crypto c c1Digest

-- HmacSha256 also returns -1 where 32 bytes were not written. A HMAC_Final that
-- fails writes none.
def ReturnsError (crypto : Crypto) (use : HmacUse) : Prop := Reports crypto use ∨ (crypto.hmac use).digestSize ≠ 32
instance : Decidable (ReturnsError crypto use) := inferInstanceAs (Decidable (_ ∨ _))

theorem returnsError_unless (silent : ¬ ReturnsError crypto use) : (crypto.hmac use).digestSize = 32 := by
  by_contra other
  exact silent (.inr other)

-- What the second array holds behind both calls.
def lastArray (crypto : Crypto) (c : C2S2Handle) (c1Digest : List.Vector UInt8 32) : List.Vector UInt8 32 :=
  let tempKey := hmacArray crypto .validKey (genuineFlashPlayerKey++crypto.behindKey.toList) c1Digest.toList
  hmacArray crypto .validDigest tempKey.toList c.random.toList

-- Neither call returns -1; and where OpenSSL failed all the same, S2 does not
-- bring what the second array holds.
def Trusts (crypto : Crypto) (c : C2S2Handle) (c1Digest : List.Vector UInt8 32) : Prop :=
  ¬ ReturnsError crypto .validKey ∧ ¬ ReturnsError crypto .validDigest ∧
    ((crypto.hmac .validKey).Succeeded ∧ (crypto.hmac .validDigest).Succeeded ∨ c.digest ≠ c.lastArray crypto c1Digest)

theorem expectedDigest_none : c.expectedDigest crypto c1Digest .validKey .validDigest = none ↔
    ReturnsError crypto .validKey ∨ ReturnsError crypto .validDigest := by
  unfold expectedDigest
  cases keyed : hmacSha256 crypto .validKey (genuineFlashPlayerKey++crypto.behindKey.toList) c1Digest.toList with
  | none => exact ⟨fun _ => .inl ((hmacSha256_none _ _).mp keyed),fun _ => rfl⟩
  | some tempKey =>
    have works : ¬ ReturnsError crypto .validKey := by
      intro fails
      rw [(hmacSha256_none _ _).mpr fails] at keyed
      cases keyed
    change hmacSha256 crypto .validDigest tempKey.toList c.random.toList = none ↔ _
    rw [hmacSha256_none]
    exact ⟨.inr,fun either => either.resolve_left works⟩

theorem expectedDigest_some (found : c.expectedDigest crypto c1Digest .validKey .validDigest = some hashed) :
    hashed = c.lastArray crypto c1Digest := by
  unfold expectedDigest at found
  obtain ⟨tempKey,keyed,second⟩ := Option.bind_eq_some_iff.mp found
  rw [hmacSha256_some keyed] at second
  exact hmacSha256_some second

theorem validateS2_reported (reported : ReturnsError crypto .validKey ∨ ReturnsError crypto .validDigest) :
    c.validateS2 crypto c1Digest = true := by
  unfold validateS2
  rw [expectedDigest_none.mpr reported]

theorem s2Closed_iff : S2Closed crypto c c1Digest ↔ Trusts crypto c c1Digest := by
  by_cases reported : ReturnsError crypto .validKey ∨ ReturnsError crypto .validDigest
  · constructor
    · intro closed
      obtain ⟨key,digest,-⟩ := closed (validateS2_reported reported)
      rcases reported with keyFails | digestFails
      · exact absurd (keyFails.resolve_left key.unreported) (not_not.mpr key.2)
      · exact absurd (digestFails.resolve_left digest.unreported) (not_not.mpr digest.2)
    · rintro ⟨key,digest,-⟩
      exact absurd reported (not_or.mpr ⟨key,digest⟩)
  · obtain ⟨keyWorks,digestWorks⟩ := not_or.mp reported
    unfold S2Closed validateS2
    cases expected : c.expectedDigest crypto c1Digest .validKey .validDigest with
    | none => exact absurd (expectedDigest_none.mp expected) reported
    | some digest =>
      rw [expectedDigest_some expected]
      dsimp only
      rw [decide_eq_true_eq]
      constructor
      · intro verifies
        refine ⟨keyWorks,digestWorks,?_⟩
        by_cases equal : c.digest = c.lastArray crypto c1Digest
        · obtain ⟨key,last,-⟩ := verifies equal
          exact .inl ⟨key.1,last.1⟩
        · exact .inr equal
      · rintro ⟨-,-,⟨key,last⟩ | differs⟩ equal
        · have keyComputed : Computed crypto .validKey := ⟨key,returnsError_unless keyWorks⟩
          have lastComputed : Computed crypto .validDigest := ⟨last,returnsError_unless digestWorks⟩
          refine ⟨keyComputed,lastComputed,?_⟩
          rw [equal,lastArray,keyComputed.array,lastComputed.array]
        · exact absurd equal differs

end C2S2Handle

-- A code that reports an error counts as true wherever a bool is returned, and a
-- failure that OpenSSL reports as 0 is not seen: the checks can be relied on
-- exactly where no call has a code of the first kind, and a failure of the second
-- kind leaves other bytes than the message brings.
theorem digest_checks_closed (crypto : Crypto) (h : C1S1Handle) (c1 : List.Vector UInt8 1536) (c : C2S2Handle)
    (c1Digest : List.Vector UInt8 32) :
    ((h.CheckClosed crypto c1 .schema0 ∧ h.CheckClosed crypto c1 .schema1) ∧ c.S2Closed crypto c1Digest ∧
      h.ParseClosed crypto c1) ↔
    (C1S1Handle.Trusts crypto .schema0 (C1S1Handle.storedDigest c1 (8+764)) ∧
      C1S1Handle.Trusts crypto .schema1 (C1S1Handle.storedDigest c1 8)) ∧ c.Trusts crypto c1Digest := by
  rw [C1S1Handle.checkClosed_schema0,C1S1Handle.checkClosed_schema1,C2S2Handle.s2Closed_iff]
  constructor
  · rintro ⟨trusts,hashed,-⟩
    exact ⟨trusts,hashed⟩
  · rintro ⟨⟨zero,one⟩,hashed⟩
    refine ⟨⟨zero,one⟩,hashed,?_⟩
    exact C1S1Handle.parseClosed_checks (fun _ => C1S1Handle.checkClosed_schema1.mpr one)
      fun _ => C1S1Handle.checkClosed_schema0.mpr zero

-- Where the check of schema 1 fails with 0, a C1 that brings what its array held
-- is taken for schema 1.
theorem parseC1_unchecked (h : C1S1Handle) (c1 : List.Vector UInt8 1536) (unreported : ¬ Reports crypto .schema1)
    (size : (crypto.hmac .schema1).digestSize = 32) (fails : ¬ (crypto.hmac .schema1).Succeeded)
    (brings : C1S1Handle.storedDigest c1 8 = (crypto.hmac .schema1).left.toList) :
    ∃ next, h.parseC1 crypto c1.toList = .ok (next,rtmpOk) ∧ next.schema = .schema1 := by
  have copied : sliceFixed c1.toList 0 1536 = .ok c1 := sliceFixed_part [] c1 [] (by simp) rfl
  have timeInside : slice c1.toList 0 4 = .ok ((c1.toList.drop 0).take 4) := if_pos (by simp)
  have versionInside : slice c1.toList 4 4 = .ok ((c1.toList.drop 4).take 4) := if_pos (by simp)
  obtain ⟨tried,message,parsed,joined,stored⟩ := C1S1Handle.tries_schema1
    {h with c1Time:=bigEndian ((c1.toList.drop 0).take 4),c1Version:=bigEndian ((c1.toList.drop 4).take 4)} c1
  have same : tried.digestData = hmacArray crypto .schema1 (genuineFlashPlayerKey.take 30) message := by
    rw [hmacArray,if_neg fails]
    exact List.Vector.toList_injective (stored.trans brings)
  have accepted : tried.checkDigestValid crypto .schema1 = .ok true := by
    rw [C1S1Handle.checkDigestValid,if_neg (fun early => unreported (.inl early)),
      C1S1Handle.compareDigest_runs joined (fun late => unreported (.inr late)) size]
    exact congrArg Except.ok (decide_eq_true same)
  unfold C1S1Handle.parseC1 read4Bytes
  rw [copied,ok_bind,timeInside,ok_bind,pure_ok,ok_bind,versionInside,ok_bind,pure_ok,ok_bind]
  rw [show C1S1Handle.trySchema1 _ _ = .ok tried from parsed,ok_bind,accepted]
  exact ⟨_,rfl,rfl⟩

-- OpenSSL without SHA-256: HMAC_Init_ex returns 0, and so do the calls behind it.
def sha256Missing : Crypto where
  hmac
    | .validKey | .validDigest => {init:=0,update:=0,final:=0,digestSize:=0}
    | _ => {init:=0,update:=0,final:=0}
  digest := fun _ _ _ => List.Vector.replicate 32 9
  dhInit := 0
  sharedKey := fun _ => none
  behindKey := List.Vector.replicate 6 0

def onesS2 : C2S2Handle := ⟨List.Vector.replicate 1504 1,List.Vector.replicate 32 1⟩

theorem missing_accepts : ((∃ next, C1S1Handle.blank.parseC1 sha256Missing (List.Vector.replicate 1536 0).toList =
        .ok (next,rtmpOk) ∧ next.schema = .schema1) ∧
      ¬ C1S1Handle.blank.ParseClosed sha256Missing (List.Vector.replicate 1536 0)) ∧
    onesS2.validateS2 sha256Missing (List.Vector.replicate 32 2) = true ∧
      ¬ onesS2.S2Closed sha256Missing (List.Vector.replicate 32 2) := by
  have brings : C1S1Handle.storedDigest (List.Vector.replicate 1536 0) 8 = (sha256Missing.hmac .schema1).left.toList := by
    decide +kernel
  obtain ⟨next,parsed,schema⟩ := parseC1_unchecked C1S1Handle.blank (List.Vector.replicate 1536 0)
    (show ¬ Reports sha256Missing .schema1 by decide) rfl (by decide) brings
  have accepts : onesS2.validateS2 sha256Missing (List.Vector.replicate 32 2) = true :=
    C2S2Handle.validateS2_reported (.inl (.inr (by decide)))
  refine ⟨⟨⟨next,parsed,schema⟩,fun closed => ?_⟩,accepts,fun closed => ?_⟩
  · have verified := closed next parsed
    rw [schema] at verified
    exact absurd verified.1 (by decide)
  · exact absurd (closed accepts).1 (by decide)

end CoStream
