import CoStream.Base64
import CoStream.Foundation.Undefined

namespace CoStream
open Foundation

def isAlnum (c : UInt8) : Bool := 48 ≤ c ∧ c ≤ 57 ∨ 65 ≤ c ∧ c ≤ 90 ∨ 97 ≤ c ∧ c ≤ 122
def isBase64 (c : UInt8) : Bool := isAlnum c ∨ c = 43 ∨ c = 47

-- What `find` says of a letter, cut down to a byte: npos becomes 0xff.
def base64Index (c : UInt8) : UInt8 :=
  match find? [c] base64Chars with
  | some pos => pos.toUInt8
  | none => 0xff

-- char_array_3, for the four bytes of char_array_4.
def base64Bytes (a b c d : UInt8) : Bytes := [
  (a <<< 2)+((b &&& 0x30) >>> 4),
  ((b &&& 0xf) <<< 4)+((c &&& 0x3c) >>> 2),
  ((c &&& 0x3) <<< 6)+d]

-- The loop, with what is left of the text, the two counters, the letters of
-- char_array_4 that have been written and the result. At the end of the text it
-- reads the NUL behind it, which is not of the alphabet.
def decodeLoop : Bytes → Int → Int → Bytes → Bytes → Except Fault (Bytes × Bytes)
  | [],inLen,_,group,ret => do
    let _ ← int (inLen-1)
    .ok (group,ret)
  | letter::rest,inLen,at_,group,ret => do
    let left ← int (inLen-1)
    if inLen = 0 ∨ letter = 61 ∨ ¬ isBase64 letter then .ok (group,ret)
    else do
      let next ← int (at_+1)
      match group with
      | [a,b,c] =>
        decodeLoop rest left next []
          (ret++base64Bytes (base64Index a) (base64Index b) (base64Index c) (base64Index letter))
      | _ => decodeLoop rest left next (group++[letter]) ret

-- The letters that are missing are NUL.
def decodeTail (group ret : Bytes) : Bytes :=
  if group = [] then ret
  else
    let letter j := base64Index (group.getD j 0)
    ret++(base64Bytes (letter 0) (letter 1) (letter 2) (letter 3)).take (group.length-1)

def base64Decode (encodedString : Bytes) : Except Fault Bytes := do
  let (group,ret) ← decodeLoop encodedString (toInt encodedString.length) 0 [] []
  .ok (decodeTail group ret)

-- A fact about the bytes below a bound is a fact about so many numbers.
theorem forall_below (n : Nat) (Holds : UInt8 → Prop) (all : ∀ i : Fin n, Holds (UInt8.ofNat i)) (byte : UInt8)
    (inside : byte.toNat < n) : Holds byte := by
  have held := all ⟨byte.toNat,inside⟩
  rwa [UInt8.ofNat_toNat] at held

theorem alphabet (index : UInt8) (inside : index < 64) :
    base64Index (base64Char index) = index ∧ base64Char index ∈ base64Chars ∧ isBase64 (base64Char index) = true ∧
      base64Char index ≠ 61 :=
  forall_below 64 (fun index => base64Index (base64Char index) = index ∧ base64Char index ∈ base64Chars ∧
    isBase64 (base64Char index) = true ∧ base64Char index ≠ 61) (by decide +kernel) index (UInt8.lt_iff_toNat_lt.mp inside)

theorem forall_two_below (m n : Nat) (Holds : UInt8 → UInt8 → Prop)
    (all : ∀ (i : Fin m) (j : Fin n), Holds (UInt8.ofNat i) (UInt8.ofNat j)) (one two : UInt8) (first : one.toNat < m)
    (second : two.toNat < n) : Holds one two :=
  forall_below n (Holds one) (fun j => forall_below m (fun one => Holds one (UInt8.ofNat j)) (fun i => all i j) one first)
    two second

-- Two numbers put next to each other in an index, and taken apart again.
theorem index_joined (high low : UInt8) (top : high < 16) (bottom : low < 16) :
    (high < 4 → (high <<< 4)+low < 64 ∧ (((high <<< 4)+low) &&& 0x30) >>> 4 = high ∧ ((high <<< 4)+low) &&& 0xf = low) ∧
    (low < 4 → (high <<< 2)+low < 64 ∧ (((high <<< 2)+low) &&& 0x3c) >>> 2 = high ∧ ((high <<< 2)+low) &&& 0x3 = low) :=
  forall_two_below 16 16 (fun high low =>
    (high < 4 → (high <<< 4)+low < 64 ∧ (((high <<< 4)+low) &&& 0x30) >>> 4 = high ∧ ((high <<< 4)+low) &&& 0xf = low) ∧
    (low < 4 → (high <<< 2)+low < 64 ∧ (((high <<< 2)+low) &&& 0x3c) >>> 2 = high ∧ ((high <<< 2)+low) &&& 0x3 = low))
    (by decide +kernel) high low (UInt8.lt_iff_toNat_lt.mp top) (UInt8.lt_iff_toNat_lt.mp bottom)

theorem index_middle (high low : UInt8) (top : high < 4) (bottom : low < 16) :
    (high <<< 4)+low < 64 ∧ (((high <<< 4)+low) &&& 0x30) >>> 4 = high ∧ ((high <<< 4)+low) &&& 0xf = low :=
  (index_joined high low (UInt8.lt_trans top (by decide)) bottom).1 top

theorem index_second (high low : UInt8) (top : high < 16) (bottom : low < 4) :
    (high <<< 2)+low < 64 ∧ (((high <<< 2)+low) &&& 0x3c) >>> 2 = high ∧ ((high <<< 2)+low) &&& 0x3 = low :=
  (index_joined high low top (UInt8.lt_trans bottom (by decide))).2 bottom

-- The three cuts of a byte between two indices.
def FirstCut (byte : UInt8) : Prop :=
  (byte &&& 0xfc) >>> 2 < 64 ∧ (byte &&& 0x03) < 4 ∧ ((byte &&& 0xfc) >>> 2 <<< 2)+(byte &&& 0x03) = byte
def SecondCut (byte : UInt8) : Prop :=
  (byte &&& 0xf0) >>> 4 < 16 ∧ (byte &&& 0x0f) < 16 ∧ ((byte &&& 0xf0) >>> 4 <<< 4)+(byte &&& 0x0f) = byte
def ThirdCut (byte : UInt8) : Prop :=
  (byte &&& 0xc0) >>> 6 < 4 ∧ (byte &&& 0x3f) < 64 ∧ ((byte &&& 0xc0) >>> 6 <<< 6)+(byte &&& 0x3f) = byte

instance : Decidable (FirstCut byte) := inferInstanceAs (Decidable (_ ∧ _))
instance : Decidable (SecondCut byte) := inferInstanceAs (Decidable (_ ∧ _))
instance : Decidable (ThirdCut byte) := inferInstanceAs (Decidable (_ ∧ _))

theorem byte_cuts (byte : UInt8) : FirstCut byte ∧ SecondCut byte ∧ ThirdCut byte :=
  forall_byte (fun byte => FirstCut byte ∧ SecondCut byte ∧ ThirdCut byte) (by decide +kernel) byte

theorem first_cut (byte : UInt8) : FirstCut byte := (byte_cuts byte).1
theorem second_cut (byte : UInt8) : SecondCut byte := (byte_cuts byte).2.1
theorem third_cut (byte : UInt8) : ThirdCut byte := (byte_cuts byte).2.2

-- The four indices of three bytes, and the bytes of these indices. The first
-- byte needs two of them, the second three.
theorem indices_inside (a b c : UInt8) : ∀ index ∈ base64Indices a b c, index < 64 := by
  simp only [base64Indices,List.mem_cons,List.not_mem_nil,or_false]
  rintro index (rfl | rfl | rfl | rfl)
  · exact (first_cut a).1
  · exact (index_middle _ _ (first_cut a).2.1 (second_cut b).1).1
  · exact (index_second _ _ (second_cut b).2.1 (third_cut c).1).1
  · exact (third_cut c).2.1

-- Each of the four characters is found at the index it was taken from.
theorem indices_found (a b c : UInt8) : ∀ index ∈ base64Indices a b c, base64Index (base64Char index) = index :=
  fun index member => (alphabet index (indices_inside a b c index member)).1

theorem bytes_first (a b : UInt8) :
    (((a &&& 0xfc) >>> 2) <<< 2)+(((((a &&& 0x03) <<< 4)+((b &&& 0xf0) >>> 4)) &&& 0x30) >>> 4) = a := by
  rw [(index_middle _ _ (first_cut a).2.1 (second_cut b).1).2.1]
  exact (first_cut a).2.2

theorem bytes_second (a b c : UInt8) :
    (((((a &&& 0x03) <<< 4)+((b &&& 0xf0) >>> 4)) &&& 0xf) <<< 4)+
      (((((b &&& 0x0f) <<< 2)+((c &&& 0xc0) >>> 6)) &&& 0x3c) >>> 2) = b := by
  rw [(index_middle _ _ (first_cut a).2.1 (second_cut b).1).2.2,(index_second _ _ (second_cut b).2.1 (third_cut c).1).2.1]
  exact (second_cut b).2.2

theorem bytes_third (b c : UInt8) :
    (((((b &&& 0x0f) <<< 2)+((c &&& 0xc0) >>> 6)) &&& 0x3) <<< 6)+(c &&& 0x3f) = c := by
  rw [(index_second _ _ (second_cut b).2.1 (third_cut c).1).2.2]
  exact (third_cut c).2.2

section loop
variable {letter a b c : UInt8} {rest group ret : Bytes} {m n k : Nat}

def Coded (letter : UInt8) : Prop := isBase64 letter = true ∧ letter ≠ 61

theorem coded_member (letter : UInt8) (member : letter ∈ base64Chars) : Coded letter := by
  obtain ⟨place,inside,here⟩ := List.getElem_of_mem member
  have short : place < 64 := inside
  have index : (UInt8.ofNat place).toNat = place := UInt8.toNat_ofNat_of_lt (Nat.lt_trans short (by decide))
  have found : base64Char (UInt8.ofNat place) = letter := by
    rw [base64Char,index,List.getD_eq_getElem?_getD,List.getElem?_eq_getElem inside]
    exact here
  rw [← found]
  exact (alphabet _ (UInt8.lt_iff_toNat_lt.mpr (by rw [index]; exact short))).2.2

theorem chars_member (a b c : UInt8) (count : Nat) :
    ∀ letter ∈ ((base64Indices a b c).take count).map base64Char, letter ∈ base64Chars := by
  intro letter member
  obtain ⟨index,present,rfl⟩ := List.mem_map.mp member
  exact (alphabet index (indices_inside a b c index (List.mem_of_mem_take present))).2.1

theorem chars_coded (a b c : UInt8) (count : Nat) :
    ∀ letter ∈ ((base64Indices a b c).take count).map base64Char, Coded letter :=
  fun letter member => coded_member letter (chars_member a b c count letter member)

theorem int_counted (small : n < 2^31) : int ((n+1 : Nat)-1 : Int) = .ok (n : Int) := by
  have same : ((n+1 : Nat)-1 : Int) = n := by omega
  rw [same]
  exact int_ok (by constructor <;> omega)

theorem int_next (small : k+1 < 2^31) : int ((k : Int)+1) = .ok ((k+1 : Nat) : Int) := by
  rw [Int.natCast_succ]
  exact int_ok (by constructor <;> omega)

theorem coded_continues (good : Coded letter) : ¬ (((n+1 : Nat) : Int) = 0 ∨ letter = 61 ∨ ¬ isBase64 letter = true) := by
  simp only [good.1,good.2,not_true_eq_false,or_false]
  omega

theorem decode_short (short : group.length < 3) (good : Coded letter) (left : n+1 < 2^31) (done : k+1 < 2^31) :
    decodeLoop (letter::rest) (n+1 : Nat) k group ret = decodeLoop rest n (k+1 : Nat) (group++[letter]) ret := by
  rw [decodeLoop.eq_def]
  dsimp only
  rw [int_counted (by omega),ok_bind,if_neg (coded_continues good),int_next done,ok_bind]
  split
  · exact absurd short (by simp)
  · rfl

theorem decode_fourth (good : Coded letter) (left : n+1 < 2^31) (done : k+1 < 2^31) :
    decodeLoop (letter::rest) (n+1 : Nat) k [a,b,c] ret = decodeLoop rest n (k+1 : Nat) []
      (ret++base64Bytes (base64Index a) (base64Index b) (base64Index c) (base64Index letter)) := by
  rw [decodeLoop.eq_def]
  dsimp only
  rw [int_counted (by omega),ok_bind,if_neg (coded_continues good),int_next done,ok_bind]

theorem decode_stop (left : n+1 < 2^31) : decodeLoop (61::rest) (n+1 : Nat) k group ret = .ok (group,ret) := by
  rw [decodeLoop.eq_def]
  dsimp only
  rw [int_counted (by omega),ok_bind,if_pos (.inr (.inl rfl))]

theorem decode_end : decodeLoop [] 0 k group ret = .ok (group,ret) := by
  rw [decodeLoop.eq_def]
  rfl

-- Up to three letters are collected one after the other.
theorem decode_letters (letters : Bytes) (good : ∀ letter ∈ letters, Coded letter) (size : letters.length = m)
    (short : group.length+m ≤ 3) (left : n+m < 2^31) (done : k+m < 2^31) :
    decodeLoop (letters++rest) (n+m : Nat) k group ret = decodeLoop rest n (k+m : Nat) (group++letters) ret := by
  induction letters generalizing k group m with
  | nil =>
    rw [← size,List.nil_append,List.append_nil]
    rfl
  | cons letter letters ih =>
    have first := good letter List.mem_cons_self
    have later : ∀ other ∈ letters, Coded other := fun other member => good other (List.mem_cons_of_mem _ member)
    obtain rfl : letters.length+1 = m := size
    have collected : (group++[letter]).length = group.length+1 := by simp
    rw [List.cons_append,← Nat.add_assoc,decode_short (by omega) first (by omega) (by omega),
      ih later rfl (by omega) (by omega) (by omega),List.append_assoc,Nat.add_assoc k,Nat.add_comm 1]
    rfl

theorem chars_length (a b c : UInt8) (few : m ≤ 4) : (((base64Indices a b c).take m).map base64Char).length = m := by
  rw [List.length_map,List.length_take]
  exact Nat.min_eq_left few

-- Four letters give the three bytes they were made from.
theorem decode_group (left : n+4 < 2^31) (done : k+4 < 2^31) :
    decodeLoop ((base64Indices a b c).map base64Char++rest) (n+4 : Nat) k [] ret =
      decodeLoop rest n (k+4 : Nat) [] (ret++[a,b,c]) := by
  have fourth : Coded (base64Char (c &&& 0x3f)) := chars_coded a b c 4 _ (by simp [base64Indices])
  have collected : decodeLoop ((base64Indices a b c).map base64Char++rest) (n+4 : Nat) k [] ret =
      decodeLoop (base64Char (c &&& 0x3f)::rest) (n+1 : Nat) (k+3 : Nat) (((base64Indices a b c).take 3).map base64Char) ret :=
    decode_letters (n := n+1) _ (chars_coded a b c 3) (chars_length a b c (by decide)) (by simp) left (by omega)
  have found := indices_found a b c
  rw [collected]
  unfold base64Indices at found ⊢
  simp only [List.mem_cons,List.not_mem_nil,or_false,forall_eq_or_imp,forall_eq] at found
  obtain ⟨one,two,three,four⟩ := found
  simp only [List.take_succ_cons,List.take_zero,List.map_cons,List.map_nil]
  rw [decode_fourth fourth (by omega) (by omega),one,two,three,four]
  unfold base64Bytes
  rw [bytes_first,bytes_second,bytes_third]

-- The letters of a group that '=' fills up are what the loop ends with.
theorem decode_last (a b c : UInt8) (few : m ≤ 3) (left : n+1+m < 2^31) (done : k+m < 2^31) :
    decodeLoop (((base64Indices a b c).take m).map base64Char++61::rest) (n+1+m : Nat) k [] ret =
      .ok (((base64Indices a b c).take m).map base64Char,ret) := by
  have collected : decodeLoop (((base64Indices a b c).take m).map base64Char++61::rest) (n+1+m : Nat) k [] ret =
      decodeLoop (61::rest) (n+1 : Nat) (k+m : Nat) ([]++((base64Indices a b c).take m).map base64Char) ret :=
    decode_letters _ (chars_coded a b c m) (chars_length a b c (Nat.le_succ_of_le few)) (by simpa using few) left done
  rw [collected,decode_stop (by omega),List.nil_append]

end loop

-- The bits that the missing letters stand for do not reach the bytes that are
-- kept: one byte of two letters, two of three.
theorem tail_kept (a b c : UInt8) (ret : Bytes) (count : Nat) (partly : count = 1 ∨ count = 2) :
    decodeTail (((base64Indices a b c).take (count+1)).map base64Char) ret = ret++[a,b,c].take count := by
  have found := indices_found a b c
  unfold base64Indices at found ⊢
  simp only [List.mem_cons,List.not_mem_nil,or_false,forall_eq_or_imp,forall_eq] at found
  obtain ⟨one,two,three,-⟩ := found
  unfold decodeTail base64Bytes
  rcases partly with rfl | rfl
  · simp only [List.take_succ_cons,List.take_zero,List.map_cons,List.map_nil]
    rw [if_neg (by simp)]
    simp only [List.getD_cons_zero,List.getD_cons_succ,List.length_cons,List.length_nil,List.take_succ_cons,List.take_zero,
      one,two,bytes_first]
  · simp only [List.take_succ_cons,List.take_zero,List.map_cons,List.map_nil]
    rw [if_neg (by simp)]
    simp only [List.getD_cons_zero,List.getD_cons_succ,List.length_cons,List.length_nil,List.take_succ_cons,List.take_zero,
      one,two,three,bytes_first,bytes_second]

theorem length_base64Encode (x : Bytes) : (base64Encode x).length = 4*((x.length+2)/3) := by
  induction x using base64Encode.induct with
  | case1 => rfl
  | case2 a => simp [base64Encode,base64Indices,ascii]
  | case3 a b => simp [base64Encode,base64Indices,ascii]
  | case4 a b c rest ih =>
    rw [base64Encode,List.length_append,ih]
    simp only [List.length_map,base64Indices,List.length_cons,List.length_nil]
    omega

-- By induction on the groups of three: the loop has got to where the encoder
-- stood, with its bytes in the result.
theorem decodeLoop_encoded (x ret : Bytes) (k : Nat) (fits : k+(base64Encode x).length < 2^31) :
    ∃ group kept, decodeLoop (base64Encode x) (base64Encode x).length k [] ret = .ok (group,kept) ∧
      decodeTail group kept = ret++x := by
  induction x using base64Encode.induct generalizing ret k with
  | case1 => exact ⟨[],ret,decode_end,by simp [decodeTail]⟩
  | case2 a =>
    refine ⟨((base64Indices a 0 0).take 2).map base64Char,ret,?_,tail_kept a 0 0 ret 1 (.inl rfl)⟩
    have small : k+4 < 2^31 := by simpa [base64Encode,base64Indices,ascii] using fits
    exact decode_last a 0 0 (m := 2) (n := 1) (by omega) (by omega) (by omega)
  | case3 a b =>
    refine ⟨((base64Indices a b 0).take 3).map base64Char,ret,?_,tail_kept a b 0 ret 2 (.inr rfl)⟩
    have small : k+4 < 2^31 := by simpa [base64Encode,base64Indices,ascii] using fits
    exact decode_last a b 0 (m := 3) (n := 0) (by omega) (by omega) (by omega)
  | case4 a b c rest ih =>
    rw [base64Encode] at fits ⊢
    have size : ((base64Indices a b c).map base64Char++base64Encode rest).length = (base64Encode rest).length+4 := by
      simp only [List.length_append,List.length_map,base64Indices,List.length_cons,List.length_nil]
      omega
    rw [size] at fits ⊢
    obtain ⟨group,kept,looped,whole⟩ := ih (ret++[a,b,c]) (k+4) (by omega)
    refine ⟨group,kept,(decode_group (by omega) (by omega)).trans looped,?_⟩
    rw [whole,List.append_assoc]
    rfl

-- From 2^31 letters on the counter starts below zero and is counted down past
-- the smallest int, unless the text ends first.
theorem decodeLoop_overflows (front rest group ret : Bytes) (at_ : Int) (good : ∀ letter ∈ front, Coded letter)
    (below : front.length < 2^31) :
    decodeLoop (front++rest) (-2^31+front.length) at_ group ret = .error .signedOverflow := by
  induction front generalizing at_ group ret with
  | nil =>
    have fault : int (-2^31+([] : Bytes).length-1) = .error .signedOverflow := int_fault (by decide)
    rw [List.nil_append,decodeLoop.eq_def]
    cases rest with
    | nil =>
      dsimp only
      rw [fault,error_bind]
    | cons letter rest =>
      dsimp only
      rw [fault,error_bind]
  | cons letter front ih =>
    have first := good letter List.mem_cons_self
    rw [List.length_cons] at below
    have left : int (-2^31+(letter::front).length-1) = .ok (-2^31+front.length) := by
      rw [List.length_cons]
      have same : -2^31+((front.length+1 : Nat) : Int)-1 = -2^31+front.length := by omega
      rw [same]
      exact int_ok (by constructor <;> omega)
    have goesOn : ¬ (-2^31+(letter::front).length = (0 : Int) ∨ letter = 61 ∨ ¬ isBase64 letter = true) := by
      simp only [first.1,first.2,not_true_eq_false,or_false,List.length_cons]
      omega
    rw [List.cons_append,decodeLoop.eq_def]
    dsimp only
    rw [left,ok_bind,if_neg goesOn]
    have later := fun at_ group ret => ih at_ group ret (fun other member => good other (List.mem_cons_of_mem _ member)) (by omega)
    by_cases fits : FitsInt (at_+1)
    · rw [int_ok fits,ok_bind]
      split
      · exact later _ _ _
      · exact later _ _ _
    · rw [int_fault fits,error_bind]

-- Letters of the alphabet, and '=' for what is missing from a last group.
def Padded (x text : Bytes) : Prop :=
  ∃ body, text = body++List.replicate ((3-x.length%3)%3) 61 ∧ ∀ letter ∈ body, letter ∈ base64Chars

theorem base64Encode_padded (x : Bytes) : Padded x (base64Encode x) := by
  induction x using base64Encode.induct with
  | case1 => exact ⟨[],rfl,by simp⟩
  | case2 a => exact ⟨_,rfl,chars_member a 0 0 2⟩
  | case3 a b => exact ⟨_,rfl,chars_member a b 0 3⟩
  | case4 a b c rest ih =>
    obtain ⟨body,shape,letters⟩ := ih
    refine ⟨(base64Indices a b c).map base64Char++body,?_,?_⟩
    · have same : (a::b::c::rest).length%3 = rest.length%3 := by
        simp only [List.length_cons]
        omega
      rw [base64Encode,shape,same,List.append_assoc]
    · intro letter member
      rcases List.mem_append.mp member with now | later
      · exact chars_member a b c 4 letter now
      · exact letters letter later

theorem base64Decode_encoded (x : Bytes) (fits : (base64Encode x).length < 2^31) : base64Decode (base64Encode x) = .ok x := by
  obtain ⟨group,kept,looped,whole⟩ := decodeLoop_encoded x [] 0 (by omega)
  have size : toInt (base64Encode x).length = (base64Encode x).length := toInt_fits (by constructor <;> omega)
  unfold base64Decode
  rw [size]
  have started : decodeLoop (base64Encode x) (base64Encode x).length 0 [] [] = .ok (group,kept) := looped
  rw [started,ok_bind]
  dsimp only
  rw [whole,List.nil_append]

theorem base64Decode_overflows (x : Bytes) (bounded : x.length < 2^31) (long : 2^31 ≤ (base64Encode x).length) :
    base64Decode (base64Encode x) = .error .signedOverflow := by
  have size := length_base64Encode x
  obtain ⟨body,shape,letters⟩ := base64Encode_padded x
  have padding : (3-x.length%3)%3 ≤ 2 := by omega
  have total := congrArg List.length shape
  rw [List.length_append,List.length_replicate] at total
  let start := (base64Encode x).length-2^31
  have counter : toInt (base64Encode x).length = -2^31+(body.take start).length := by
    rw [toInt_wrapped (by omega) (by omega),List.length_take]
    omega
  have front : base64Encode x = body.take start++(body.drop start++List.replicate ((3-x.length%3)%3) 61) := by
    rw [← List.append_assoc,List.take_append_drop]
    exact shape
  have failed := decodeLoop_overflows (body.take start) (body.drop start++List.replicate ((3-x.length%3)%3) 61) [] [] 0
    (fun letter member => coded_member letter (letters letter (List.mem_of_mem_take member)))
    (by rw [List.length_take]; omega)
  rw [← front,← counter] at failed
  unfold base64Decode
  rw [failed,error_bind]

-- Every text whose encoding has a length in int is read back.
theorem base64_roundTrip_iff (x : Bytes) (bounded : x.length < 2^31) :
    (base64Decode (base64Encode x) = .ok x ∧ (base64Encode x).length = 4*((x.length+2)/3) ∧ Padded x (base64Encode x)) ↔
      x.length ≤ 3*(2^29-1) := by
  have size := length_base64Encode x
  constructor
  · rintro ⟨decoded,-,-⟩
    by_cases fits : (base64Encode x).length < 2^31
    · omega
    · rw [base64Decode_overflows x bounded (by omega)] at decoded
      cases decoded
  · intro small
    exact ⟨base64Decode_encoded x (by omega),size,base64Encode_padded x⟩

theorem twoBytes_readBack : (ascii "Ma").length < 2^31 ∧ base64Decode (base64Encode (ascii "Ma")) = .ok (ascii "Ma") :=
  ⟨by decide,((base64_roundTrip_iff (ascii "Ma") (by decide)).mpr (by decide)).1⟩

theorem zeroes_overflow : base64Decode (base64Encode (List.replicate (3*2^29) 0)) = .error .signedOverflow ∧
    ¬ base64Decode (base64Encode (List.replicate (3*2^29) 0)) = .ok (List.replicate (3*2^29) 0) := by
  have size : (List.replicate (3*2^29) (0 : UInt8)).length = 3*2^29 := List.length_replicate
  have encoded := length_base64Encode (List.replicate (3*2^29) 0)
  rw [size] at encoded
  have failed := base64Decode_overflows (List.replicate (3*2^29) 0) (by omega) (by omega)
  refine ⟨failed,?_⟩
  rw [failed]
  exact fun never => by cases never

end CoStream
