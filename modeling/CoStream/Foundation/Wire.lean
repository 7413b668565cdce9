import Mathlib.Algebra.Ring.Nat
import Mathlib.Algebra.Ring.Int.Defs
import Mathlib.Data.List.Basic

namespace Foundation

def bigEndian (bytes : List UInt8) : Nat := bytes.foldl (fun value byte => value*256+byte.toNat) 0

-- The byte of a number that starts at bit `shift`.
def byteAt (value shift : Nat) : UInt8 := ((value >>> shift) &&& 0xff).toUInt8

theorem toNat_byteAt (value shift : Nat) : (byteAt value shift).toNat = value/2^shift%256 := by
  have low : (value >>> shift) &&& 0xff = value/2^shift%256 := by
    rw [Nat.shiftRight_eq_div_pow]
    exact Nat.and_two_pow_sub_one_eq_mod _ 8
  have small : value/2^shift%256 < 256 := Nat.mod_lt _ (by decide)
  rw [byteAt,low]
  simp

-- A fact about every byte is a fact about 256 numbers.
theorem forall_byte (Holds : UInt8 → Prop) (all : ∀ n : Fin 256, Holds (.ofFin n)) (byte : UInt8) : Holds byte := by
  simpa using all byte.toFin

theorem or_shift (value byte shift : Nat) (small : byte < 256) :
    value <<< (8+shift) ||| byte <<< shift = (value*256+byte) <<< shift := by
  rw [Nat.shiftLeft_add,← Nat.shiftLeft_or_distrib,← Nat.shiftLeft_add_eq_or_of_lt (i := 8) small,Nat.shiftLeft_eq value 8]

theorem bigEndian_two (a b : UInt8) : a.toNat <<< 8 ||| b.toNat = bigEndian [a,b] := by
  have joined := or_shift a.toNat b.toNat 0 b.toNat_lt
  simpa [bigEndian] using joined

theorem bigEndian_eight (a b c d e f g h : UInt8) :
    a.toNat <<< 56 ||| b.toNat <<< 48 ||| c.toNat <<< 40 ||| d.toNat <<< 32 ||| e.toNat <<< 24 ||| f.toNat <<< 16 |||
      g.toNat <<< 8 ||| h.toNat = bigEndian [a,b,c,d,e,f,g,h] := by
  rw [or_shift _ _ 48 b.toNat_lt,or_shift _ _ 40 c.toNat_lt,or_shift _ _ 32 d.toNat_lt,or_shift _ _ 24 e.toNat_lt,
    or_shift _ _ 16 f.toNat_lt,or_shift _ _ 8 g.toNat_lt]
  have joined := or_shift ((((((a.toNat*256+b.toNat)*256+c.toNat)*256+d.toNat)*256+e.toNat)*256+f.toNat)*256+g.toNat)
    h.toNat 0 h.toNat_lt
  simpa [bigEndian] using joined

theorem bigEndian_lt (bytes : List UInt8) : bigEndian bytes < 256^bytes.length := by
  suffices general : ∀ value bound, value < bound →
      bytes.foldl (fun value byte => value*256+byte.toNat) value < bound*256^bytes.length by
    simpa [bigEndian] using general 0 1 (by decide)
  induction bytes with
  | nil => simp
  | cons byte bytes ih =>
    intro value bound below
    have small := byte.toNat_lt
    have next := ih (value*256+byte.toNat) (bound*256) (by omega)
    rw [List.foldl_cons,List.length_cons,Nat.pow_succ']
    simpa [Nat.mul_assoc] using next

theorem byteAt_below (value shift : Nat) : value/2^(shift+8)*256+(byteAt value shift).toNat = value/2^shift := by
  rw [toNat_byteAt,Nat.pow_add,← Nat.div_div_eq_div_mul]
  exact Nat.div_add_mod' _ 256

theorem byteAt_top (value shift : Nat) (small : value < 2^(shift+8)) : 0*256+(byteAt value shift).toNat = value/2^shift := by
  rw [← byteAt_below,Nat.div_eq_of_lt small]

theorem bigEndian_byteAt_two (value : Nat) (small : value < 2^16) :
    bigEndian [byteAt value 8,byteAt value 0] = value := by
  simp only [bigEndian,List.foldl]
  rw [byteAt_top value 8 small]
  exact (byteAt_below value 0).trans (Nat.div_one value)

theorem bigEndian_byteAt_four (value : Nat) (small : value < 2^32) :
    bigEndian [byteAt value 24,byteAt value 16,byteAt value 8,byteAt value 0] = value := by
  simp only [bigEndian,List.foldl]
  rw [byteAt_top value 24 small,byteAt_below value 16,byteAt_below value 8]
  exact (byteAt_below value 0).trans (Nat.div_one value)

theorem bigEndian_byteAt_eight (value : Nat) (small : value < 2^64) :
    bigEndian [byteAt value 56,byteAt value 48,byteAt value 40,byteAt value 32,byteAt value 24,byteAt value 16,
      byteAt value 8,byteAt value 0] = value := by
  simp only [bigEndian,List.foldl]
  rw [byteAt_top value 56 small,byteAt_below value 48,byteAt_below value 40,byteAt_below value 32,byteAt_below value 24,
    byteAt_below value 16,byteAt_below value 8]
  exact (byteAt_below value 0).trans (Nat.div_one value)

def xorStream (stream : Nat → UInt8) (bytes : List UInt8) : List UInt8 := bytes.mapIdx fun i byte => byte ^^^ stream i

variable {stream : Nat → UInt8}

@[simp] theorem length_xorStream (bytes : List UInt8) : (xorStream stream bytes).length = bytes.length := by
  simp [xorStream]
@[simp] theorem xorStream_nil : xorStream stream [] = [] := rfl

theorem xorStream_cons (byte : UInt8) (bytes : List UInt8) :
    xorStream stream (byte::bytes) = (byte ^^^ stream 0)::xorStream (fun i => stream (i+1)) bytes := by
  simp [xorStream,List.mapIdx_cons]

theorem xorStream_append (first second : List UInt8) : xorStream stream (first++second) =
    xorStream stream first++xorStream (fun i => stream (i+first.length)) second := by
  simp [xorStream,List.mapIdx_append]

@[simp] theorem xorStream_twice (bytes : List UInt8) : xorStream stream (xorStream stream bytes) = bytes := by
  apply List.ext_getElem (by simp)
  intro i short long
  simp only [xorStream,List.getElem_mapIdx,UInt8.xor_assoc,UInt8.xor_self,UInt8.xor_zero]

end Foundation
