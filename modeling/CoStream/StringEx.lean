import Mathlib.Data.List.TakeWhile
import CoStream.Foundation.Text
import CoStream.Foundation.Undefined
import CoStream.Foundation.Wire

namespace CoStream
open Foundation

-- A std::string, byte by byte, and the std::map between two of them. Keys are
-- ordered as unsigned bytes.
abbrev Bytes := List UInt8
abbrev Headers := Std.ExtTreeMap Bytes Bytes

def ascii (text : String) : Bytes := text.toList.map fun letter => letter.toNat.toUInt8

-- What std::exception handlers can catch: an out_of_range of the standard
-- library, or the text of a CSM_THROW_ERROR.
inductive Exn where
  | outOfRange
  | streamer (message : String)
deriving DecidableEq,Repr

def substr (text : Bytes) (pos : Nat) : Except Exn Bytes :=
  if pos > text.length then .error .outOfRange else .ok (text.drop pos)

def crlf : Bytes := [13,10]
def blankLine : Bytes := crlf++crlf

-- StringSplit, with every substr it performs. The loop shortens its text, so
-- the length of the input is enough steps for it.
def stringSplitLoop (splitStr : Bytes) : Nat → Bytes → Except Exn (List Bytes)
  | 0,tempString => .ok [tempString]
  | fuel+1,tempString =>
    match find? splitStr tempString with
    | none => .ok [tempString]
    | some pos => do
      let rest ← substr tempString (pos+splitStr.length)
      if rest.length > 0 then do
        let segments ← stringSplitLoop splitStr fuel rest
        .ok (tempString.take pos::segments)
      else .ok [tempString.take pos]

def stringSplit (inputStr splitStr : Bytes) : Except Exn (List Bytes) :=
  if inputStr.length = 0 then .ok [] else stringSplitLoop splitStr inputStr.length inputStr

theorem substr_ok (inside : pos ≤ text.length) : substr text pos = .ok (text.drop pos) := if_neg (by omega)

theorem stringSplitLoop_exact (splitStr : Bytes) (fuel : Nat) (tempString : Bytes) :
    stringSplitLoop splitStr fuel tempString = .ok (splitLoop splitStr fuel tempString) := by
  induction fuel generalizing tempString with
  | zero => rfl
  | succ fuel ih =>
    unfold stringSplitLoop splitLoop
    cases found : find? splitStr tempString with
    | none => rfl
    | some pos =>
      dsimp only
      rw [substr_ok (find?_inside found).1,ok_bind,ih,ok_bind]
      cases tempString.drop (pos+splitStr.length) <;> rfl

-- Its cuts are where a delimiter was found, so it never throws.
theorem stringSplit_exact (inputStr splitStr : Bytes) : stringSplit inputStr splitStr = .ok (split splitStr inputStr) := by
  unfold stringSplit split
  cases inputStr with
  | nil => rfl
  | cons letter rest => exact stringSplitLoop_exact _ _ _

def tolower (letter : UInt8) : UInt8 := if 65 ≤ letter ∧ letter ≤ 90 then letter+32 else letter
def string2Lower (data : Bytes) : Bytes := data.map tolower

def isSpace (letter : UInt8) : Bool := letter = 32 ∨ 9 ≤ letter ∧ letter ≤ 13
def isDigit (letter : UInt8) : Bool := 48 ≤ letter ∧ letter ≤ 57

-- The digits at the front of a text, as strtol reads them.
def readDigits (text : Bytes) : Nat := (text.takeWhile isDigit).foldl (fun value digit => 10*value+(digit.toNat-48)) 0

-- atoi, as glibc has it: strtol, saturating at `long`, then cut down to `int`.
-- The text ends at its first NUL.
def atoi (text : Bytes) : Int :=
  let number := (text.takeWhile (· ≠ 0)).dropWhile isSpace
  match number with
  | 45::digits => toInt (max (-2^63) (-(readDigits digits : Int)))
  | 43::digits => toInt (min (2^63-1) (readDigits digits))
  | digits => toInt (min (2^63-1) (readDigits digits))

def decimal (n : Nat) : Bytes := (Nat.toDigits 10 n).map fun digit => digit.toNat.toUInt8

theorem digit_bounds (member : digit ∈ Nat.toDigits 10 n) : 48 ≤ digit.toNat ∧ digit.toNat ≤ 57 := by
  have isDigit := Nat.isDigit_of_mem_toDigits (by decide) (by decide) member
  simp only [Char.isDigit,Bool.and_eq_true,decide_eq_true_eq] at isDigit
  exact isDigit

theorem decimal_digits (n : Nat) : ∀ letter ∈ decimal n, isDigit letter = true := by
  intro letter member
  obtain ⟨digit,present,rfl⟩ := List.mem_map.mp member
  obtain ⟨low,high⟩ := digit_bounds present
  have same : digit.toNat.toUInt8.toNat = digit.toNat := by simp; omega
  simp only [isDigit,decide_eq_true_eq,UInt8.le_iff_toNat_le,same]
  exact ⟨low,high⟩

theorem takeWhile_digits (text : Bytes) (digits : ∀ letter ∈ text, isDigit letter = true) :
    text.takeWhile isDigit = text := by
  rw [List.takeWhile_eq_self_iff]
  exact digits

theorem readDigits_decimal (n : Nat) : readDigits (decimal n) = n := by
  have value : ∀ (letters : List Char) (start : Nat), (∀ letter ∈ letters, letter.toNat ≤ 57) →
      (letters.map fun digit => digit.toNat.toUInt8).foldl (fun value digit => 10*value+(digit.toNat-48)) start =
        Nat.ofDigitChars 10 letters start := by
    intro letters
    induction letters with
    | nil => simp
    | cons letter letters ih =>
      intro start small
      have same : letter.toNat.toUInt8.toNat = letter.toNat := by
        have bound := small letter List.mem_cons_self
        simp
        omega
      rw [List.map_cons,List.foldl_cons,Nat.ofDigitChars_cons,same,
        ih _ fun other member => small other (List.mem_cons_of_mem _ member)]
      rfl
  rw [readDigits,takeWhile_digits _ (decimal_digits n),decimal,value _ _ fun letter member => (digit_bounds member).2]
  exact Nat.ofDigitChars_toDigits (by decide) (by decide)

-- A text that is a decimal number; zeros may lead.
structure Numeral (text : Bytes) (n : Nat) : Prop where
  filled : text ≠ []
  digits : ∀ letter ∈ text, isDigit letter = true
  value : text.foldl (fun value digit => 10*value+(digit.toNat-48)) 0 = n

theorem decimal_filled (n : Nat) : decimal n ≠ [] := by simp [decimal,Nat.toDigits_ne_nil]

theorem decimal_numeral (n : Nat) : Numeral (decimal n) n := by
  have value := readDigits_decimal n
  rw [readDigits,takeWhile_digits _ (decimal_digits n)] at value
  exact ⟨decimal_filled n,decimal_digits n,value⟩

-- White space may stand before a number, and anything but a digit behind it.
theorem atoi_surrounded (space behind : Bytes) (numeral : Numeral digits n) (small : n < 2^31)
    (front : ∀ letter ∈ space, isSpace letter = true) (back : ∀ letter, behind.head? = some letter → isDigit letter = false) :
    atoi (space++digits++behind) = n := by
  have plain : ∀ letter, isDigit letter = true → letter ≠ 0 ∧ isSpace letter = false ∧ letter ≠ 45 ∧ letter ≠ 43 :=
    forall_byte (fun letter => isDigit letter = true →
      letter ≠ 0 ∧ isSpace letter = false ∧ letter ≠ 45 ∧ letter ≠ 43) (by decide +kernel)
  have dark : ∀ letter, isSpace letter = true → letter ≠ 0 :=
    forall_byte (fun letter => isSpace letter = true → letter ≠ 0) (by decide +kernel)
  have whole : (space++digits++behind).takeWhile (· ≠ 0) = space++digits++behind.takeWhile (· ≠ 0) := by
    apply List.takeWhile_append_of_pos
    intro letter member
    rw [decide_eq_true_eq]
    rcases List.mem_append.mp member with before | within
    · exact dark letter (front letter before)
    · exact (plain letter (numeral.digits letter within)).1
  have ends : (behind.takeWhile (· ≠ 0)).takeWhile isDigit = [] := by
    cases behind with
    | nil => rfl
    | cons letter rest =>
      have other := back letter rfl
      rw [List.takeWhile_cons]
      split
      · rw [List.takeWhile_cons_of_neg (by simp [other])]
      · rfl
  have value : readDigits (digits++behind.takeWhile (· ≠ 0)) = n := by
    rw [readDigits,List.takeWhile_append_of_pos numeral.digits,ends,List.append_nil]
    exact numeral.value
  have fits : toInt (min (2^63-1) (n : Int)) = n := by
    rw [Int.min_eq_right (by omega)]
    exact toInt_fits (by constructor <;> omega)
  unfold atoi
  rw [whole,List.append_assoc,List.dropWhile_append_of_pos front]
  obtain ⟨letter,rest,rfl⟩ := List.exists_cons_of_ne_nil numeral.filled
  obtain ⟨-,bright,positive,unsigned⟩ := plain letter (numeral.digits letter List.mem_cons_self)
  rw [List.cons_append] at value ⊢
  rw [List.dropWhile_cons_of_neg (by simp [bright])]
  dsimp only
  split
  · rename_i shape
    exact absurd (List.cons.inj shape).1 positive
  · rename_i shape
    exact absurd (List.cons.inj shape).1 unsigned
  · rw [value,fits]

theorem atoi_numeral (numeral : Numeral text n) (small : n < 2^31) : atoi text = n := by
  have alone := atoi_surrounded [] [] numeral small (by simp) (by simp)
  rwa [List.nil_append,List.append_nil] at alone

theorem atoi_decimal (n : Nat) (small : n < 2^31) : atoi (decimal n) = n := atoi_numeral (decimal_numeral n) small

end CoStream
