import Mathlib.Logic.Function.Iterate

namespace Foundation.Crc

-- A shift register: the bit that leaves it and what moving on makes of the
-- others. Both respect exclusive or, which is all that a table needs.
structure Register (w : Nat) where
  out : BitVec w → Bool
  move : BitVec w → BitVec w
  out_xor : ∀ a b, out (a ^^^ b) = (out a ^^ out b)
  move_xor : ∀ a b, move (a ^^^ b) = move a ^^^ move b

namespace Register
variable {w : Nat} (r : Register w) (poly : BitVec w)

-- One bit of input: where it differs from the bit that leaves, the polynomial
-- is subtracted.
def feed (crc : BitVec w) (bit : Bool) : BitVec w := if r.out crc ^^ bit then r.move crc ^^^ poly else r.move crc

def run (crc : BitVec w) (bits : List Bool) : BitVec w := bits.foldl (r.feed poly) crc

-- The input, each bit with the one that a register alone would send out then.
def mix (crc : BitVec w) : List Bool → List Bool
  | [] => []
  | bit::bits => (r.out crc ^^ bit)::mix (r.move crc) bits

theorem out_zero : r.out 0#w = false := by
  have twice := r.out_xor 0#w 0#w
  rw [BitVec.xor_self,Bool.xor_self] at twice
  exact twice

theorem move_zero : r.move 0#w = 0#w := by
  have twice := r.move_xor 0#w 0#w
  rw [BitVec.xor_self,BitVec.xor_self] at twice
  exact twice

theorem moved_xor (n : Nat) (a b : BitVec w) : r.move^[n] (a ^^^ b) = r.move^[n] a ^^^ r.move^[n] b := by
  induction n generalizing a b with
  | zero => rfl
  | succ n ih => rw [Function.iterate_succ_apply,r.move_xor,ih]; rfl

theorem length_mix (crc : BitVec w) (bits : List Bool) : (r.mix crc bits).length = bits.length := by
  induction bits generalizing crc with
  | nil => rfl
  | cons bit bits ih => rw [mix,List.length_cons,ih,List.length_cons]

theorem mix_xor (a b : BitVec w) (bits : List Bool) : r.mix (a ^^^ b) bits = r.mix b (r.mix a bits) := by
  induction bits generalizing a b with
  | nil => rfl
  | cons bit bits ih =>
    rw [mix,mix,mix,r.move_xor,ih,r.out_xor]
    cases r.out a <;> cases r.out b <;> cases bit <;> rfl

theorem feed_split (crc : BitVec w) (bit : Bool) :
    r.feed poly crc bit = r.move crc ^^^ r.feed poly 0#w (r.out crc ^^ bit) := by
  unfold feed
  rw [out_zero,move_zero,Bool.false_xor]
  split
  · rw [BitVec.zero_xor]
  · rw [BitVec.xor_zero]

-- The register's own bits can be put into the input, and it then starts empty.
-- The induction is on the length of the input: its hypothesis is used for the
-- register behind the first bit, and for what the polynomial alone puts there.
theorem run_mixed (crc : BitVec w) (bits : List Bool) :
    r.run poly crc bits = r.run poly 0#w (r.mix crc bits) ^^^ r.move^[bits.length] crc := by
  induction size : bits.length generalizing crc bits with
  | zero =>
    obtain rfl := List.length_eq_zero_iff.mp size
    exact (BitVec.zero_xor).symm
  | succ count ih =>
    obtain ⟨bit,rest,rfl⟩ := List.exists_cons_of_length_eq_add_one size
    have short : rest.length = count := Nat.succ.inj size
    let moved := r.move crc
    let fed := r.feed poly 0#w (r.out crc ^^ bit)
    have behind : r.run poly crc (bit::rest) =
        r.run poly 0#w (r.mix fed (r.mix moved rest)) ^^^ (r.move^[count] moved ^^^ r.move^[count] fed) := by
      change r.run poly (r.feed poly crc bit) rest = _
      rw [feed_split,ih _ _ short,mix_xor,moved_xor]
    have alone : r.run poly 0#w (r.mix crc (bit::rest)) =
        r.run poly 0#w (r.mix fed (r.mix moved rest)) ^^^ r.move^[count] fed := by
      change r.run poly fed (r.mix moved rest) = _
      exact ih _ _ ((r.length_mix moved rest).trans short)
    have beyond : r.move^[count+1] crc = r.move^[count] moved := Function.iterate_succ_apply _ _ _
    rw [behind,alone,beyond,BitVec.xor_assoc,BitVec.xor_comm (r.move^[count] moved)]

theorem run_append (crc : BitVec w) (one two : List Bool) :
    r.run poly crc (one++two) = r.run poly (r.run poly crc one) two := List.foldl_append

end Register

section bytes
variable {w : Nat} (poly crc : BitVec w)

def lowFirst (w : Nat) : Register w where
  out crc := crc.getLsbD 0
  move crc := crc >>> 1
  out_xor _ _ := BitVec.getLsbD_xor
  move_xor a b := BitVec.ushiftRight_xor_distrib a b 1

def highFirst (w : Nat) : Register w where
  out := BitVec.msb
  move crc := crc <<< 1
  out_xor _ _ := BitVec.msb_xor
  move_xor a b := BitVec.shiftLeft_xor_distrib a b 1

def lowBits (byte : UInt8) : List Bool := (List.range 8).map byte.toBitVec.getLsbD
def highBits (byte : UInt8) : List Bool := (lowBits byte).reverse

-- The two CRCs of a text, bit by bit.
def reflected (data : List UInt8) : BitVec w := (lowFirst w).run poly crc (data.flatMap lowBits)
def highestFirst (data : List UInt8) : BitVec w := (highFirst w).run poly crc (data.flatMap highBits)

theorem reflected_append (one two : List UInt8) :
    reflected poly crc (one++two) = reflected poly (reflected poly crc one) two := by
  unfold reflected
  rw [List.flatMap_append,Register.run_append]

theorem highestFirst_append (one two : List UInt8) :
    highestFirst poly crc (one++two) = highestFirst poly (highestFirst poly crc one) two := by
  unfold highestFirst
  rw [List.flatMap_append,Register.run_append]

theorem lowFirst_moved (n : Nat) : (lowFirst w).move^[n] crc = crc >>> n := by
  induction n with
  | zero => exact (BitVec.ushiftRight_zero _).symm
  | succ n ih =>
    rw [Function.iterate_succ_apply',ih]
    exact (BitVec.shiftRight_add crc n 1).symm

theorem highFirst_moved (n : Nat) : (highFirst w).move^[n] crc = crc <<< n := by
  induction n with
  | zero => exact (BitVec.shiftLeft_zero _).symm
  | succ n ih =>
    rw [Function.iterate_succ_apply',ih]
    exact (BitVec.shiftLeft_add crc n 1).symm

def lowByte : UInt8 := .ofBitVec (crc.setWidth 8)
def topByte : UInt8 := .ofBitVec ((crc >>> (w-8)).setWidth 8)

theorem lowFirst_mix (byte : UInt8) : (lowFirst w).mix crc (lowBits byte) = lowBits (lowByte crc ^^^ byte) := by
  simp [lowBits,List.range_succ,Register.mix,lowFirst,lowByte,BitVec.getLsbD_ushiftRight]

theorem highFirst_mix (crc : BitVec (n+8)) (byte : UInt8) :
    (highFirst (n+8)).mix crc (highBits byte) = highBits (topByte crc ^^^ byte) := by
  simp [highBits,lowBits,List.range_succ,Register.mix,highFirst,topByte,BitVec.msb_eq_getLsbD_last]

-- One byte: the entry for what it makes of the byte that leaves the register,
-- added to the bytes that stay.
theorem reflected_byte (byte : UInt8) :
    reflected poly crc [byte] = reflected poly 0#w [lowByte crc ^^^ byte] ^^^ crc >>> 8 := by
  have mixed := (lowFirst w).run_mixed poly crc (lowBits byte)
  rw [lowFirst_mix,lowFirst_moved] at mixed
  simpa [reflected,lowBits] using mixed

theorem highestFirst_byte (poly crc : BitVec (n+8)) (byte : UInt8) :
    highestFirst poly crc [byte] = highestFirst poly 0#(n+8) [topByte crc ^^^ byte] ^^^ crc <<< 8 := by
  have mixed := (highFirst (n+8)).run_mixed poly crc (highBits byte)
  rw [highFirst_mix,highFirst_moved] at mixed
  simpa [highestFirst,highBits,lowBits] using mixed

-- A loop over bytes with a table of entries.
def tableDriven (table : UInt8 → BitVec w) (crc : BitVec w) (data : List UInt8) : BitVec w :=
  data.foldl (fun crc byte => table (lowByte crc ^^^ byte) ^^^ crc >>> 8) crc

theorem tableDriven_reflected {table : UInt8 → BitVec w} (exact : ∀ byte, table byte = reflected poly 0#w [byte])
    (data : List UInt8) : tableDriven table crc data = reflected poly crc data := by
  induction data generalizing crc with
  | nil => rfl
  | cons byte rest ih =>
    have first := reflected_byte poly crc byte
    rw [← exact] at first
    have whole := reflected_append poly crc [byte] rest
    rw [first] at whole
    exact (ih _).trans whole.symm

end bytes

section bswap
variable (poly crc : BitVec 32)

def bswap32 : BitVec 32 :=
  crc.extractLsb' 0 8++crc.extractLsb' 8 8++crc.extractLsb' 16 8++crc.extractLsb' 24 8

theorem bswap32_bit (i : Nat) (inside : i < 32) : (bswap32 crc).getLsbD i = crc.getLsbD (8*(3-i/8)+i%8) := by
  unfold bswap32
  simp only [BitVec.getLsbD_append,BitVec.getLsbD_extractLsb']
  repeat' split
  all_goals
    rw [decide_eq_true (by omega),Bool.true_and]
    congr 1
    omega

theorem bswap32_xor (a b : BitVec 32) : bswap32 (a ^^^ b) = bswap32 a ^^^ bswap32 b := by
  apply BitVec.eq_of_getLsbD_eq
  intro i inside
  rw [BitVec.getLsbD_xor,bswap32_bit _ i inside,bswap32_bit _ i inside,bswap32_bit _ i inside,BitVec.getLsbD_xor]

theorem bswap32_shift : bswap32 (crc <<< 8) = bswap32 crc >>> 8 := by
  apply BitVec.eq_of_getLsbD_eq
  intro i inside
  rw [BitVec.getLsbD_ushiftRight,bswap32_bit _ i inside,BitVec.getLsbD_shiftLeft]
  by_cases within : i < 24
  · rw [bswap32_bit _ (8+i) (by omega),decide_eq_true (by omega),decide_eq_false (by omega),Bool.not_false,Bool.true_and,
      Bool.true_and]
    congr 1
    omega
  · rw [BitVec.getLsbD_of_ge _ (8+i) (by omega),decide_eq_true (by omega : _ < 8),Bool.not_true,Bool.and_false,Bool.false_and]

theorem lowByte_bswap32 : lowByte (bswap32 crc) = topByte crc := by
  apply congrArg UInt8.ofBitVec
  apply BitVec.eq_of_getLsbD_eq
  intro i inside
  rw [BitVec.getLsbD_setWidth,BitVec.getLsbD_setWidth,bswap32_bit _ i (by omega),BitVec.getLsbD_ushiftRight]
  congr 2
  omega

-- A table of swapped entries carries the other CRC, swapped.
theorem tableDriven_highestFirst {table : UInt8 → BitVec 32}
    (exact : ∀ byte, table byte = bswap32 (highestFirst poly 0#32 [byte])) (data : List UInt8) :
    tableDriven table (bswap32 crc) data = bswap32 (highestFirst poly crc data) := by
  induction data generalizing crc with
  | nil => rfl
  | cons byte rest ih =>
    have first : table (lowByte (bswap32 crc) ^^^ byte) ^^^ bswap32 crc >>> 8 = bswap32 (highestFirst poly crc [byte]) := by
      rw [highestFirst_byte (n := 24),bswap32_xor,bswap32_shift,← exact,lowByte_bswap32]
    have whole := highestFirst_append poly crc [byte] rest
    have start := ih (highestFirst poly crc [byte])
    rw [← first,← whole] at start
    exact start

end bswap
end Foundation.Crc
