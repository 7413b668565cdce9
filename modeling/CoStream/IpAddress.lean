import CoStream.StringEx

namespace CoStream.IpAddress
open Foundation

-- What can end IsIPv4 other than its return: the exceptions of std::stoi, and
-- the dot counter's overflow.
inductive Stop where
  | invalidArgument
  | outOfRange
  | signedOverflow
deriving DecidableEq,Repr

def unsigned : Bytes → Bytes
  | 45::digits => digits
  | 43::digits => digits
  | digits => digits

-- std::stoi: strtol on the text up to its first NUL, and its two exceptions.
def stoi (text : Bytes) : Except Stop Int :=
  let number := (text.takeWhile (· ≠ 0)).dropWhile isSpace
  let digits := unsigned number
  let value : Int := if number.head? = some 45 then -(readDigits digits : Int) else readDigits digits
  if digits.takeWhile isDigit = [] then .error .invalidArgument
  else if FitsInt value then .ok value
  else .error .outOfRange

-- std::to_string
def toString (value : Int) : Bytes := if value < 0 then 45::decimal value.natAbs else decimal value.natAbs

def countDots : Bytes → Int → Except Stop Int
  | [],dotcnt => .ok dotcnt
  | letter::rest,dotcnt =>
    if letter = 46 then
      if FitsInt (dotcnt+1) then countDots rest (dotcnt+1) else .error .signedOverflow
    else countDots rest dotcnt

-- The checks of one segment, and the scan that cuts them out: a segment ends at
-- a dot and at the last letter.
def checkSegment (temp : Bytes) : Except Stop Bool :=
  if temp.length = 0 ∨ temp.length > 3 then .ok false
  else if temp.all isDigit then do
    let tempInt ← stoi temp
    if tempInt > 255 ∨ tempInt < 0 then .ok false
    else .ok (toString tempInt = temp)
  else .ok false

def scanSegments : Bytes → Bytes → Except Stop Bool
  | [],_ => .ok true
  | letter::rest,temp =>
    let grown := if letter = 46 then temp else temp++[letter]
    if letter = 46 ∨ rest = [] then do
      let good ← checkSegment grown
      if good then scanSegments rest [] else .ok false
    else scanSegments rest grown

def isIPv4 (ip : Bytes) : Except Stop Bool := do
  let dotcnt ← countDots ip 0
  if dotcnt ≠ 3 then .ok false
  else do
    let good ← scanSegments ip []
    if good then .ok (ip.getLast? ≠ some 46) else .ok false

-- A decimal number up to 255, and four of them with dots between.
def Octet (text : Bytes) : Prop := ∃ n, n ≤ 255 ∧ text = decimal n
def Dotted (a b c d : Bytes) : Bytes := a++46::(b++46::(c++46::d))
def DottedQuad (text : Bytes) : Prop :=
  ∃ a b c d, (a ≤ 255 ∧ b ≤ 255 ∧ c ≤ 255 ∧ d ≤ 255) ∧ text = Dotted (decimal a) (decimal b) (decimal c) (decimal d)

theorem readDigits_lt (text : Bytes) (digits : ∀ letter ∈ text, isDigit letter = true) : readDigits text < 10^text.length := by
  suffices general : ∀ value bound, value < bound →
      text.foldl (fun value digit => 10*value+(digit.toNat-48)) value < bound*10^text.length by
    have whole := general 0 1 (by decide)
    rw [readDigits,takeWhile_digits _ digits]
    simpa using whole
  induction text with
  | nil => simp
  | cons letter rest ih =>
    intro value bound below
    have small : letter.toNat-48 ≤ 9 := by
      have digit := digits letter List.mem_cons_self
      simp only [isDigit,decide_eq_true_eq,UInt8.le_iff_toNat_le] at digit
      have high := digit.2
      have nine : (57 : UInt8).toNat = 57 := rfl
      omega
    have next := ih (fun other member => digits other (List.mem_cons_of_mem _ member)) (10*value+(letter.toNat-48)) (bound*10)
      (by omega)
    rw [List.foldl_cons,List.length_cons,Nat.pow_succ']
    simpa [Nat.mul_assoc] using next

theorem unsigned_digit (positive : letter ≠ 45) (plain : letter ≠ 43) : unsigned (letter::rest) = letter::rest := by
  unfold unsigned
  split
  · rename_i shape
    exact absurd (List.cons.inj shape).1 positive
  · rename_i shape
    exact absurd (List.cons.inj shape).1 plain
  · rfl

theorem stoi_digits (filled : text ≠ []) (digits : ∀ letter ∈ text, isDigit letter = true) (short : text.length ≤ 3) :
    stoi text = .ok (readDigits text) := by
  have plain : ∀ letter, isDigit letter = true → letter ≠ 0 ∧ isSpace letter = false ∧ letter ≠ 45 ∧ letter ≠ 43 :=
    forall_byte (fun letter => isDigit letter = true →
      letter ≠ 0 ∧ isSpace letter = false ∧ letter ≠ 45 ∧ letter ≠ 43) (by decide +kernel)
  have small : readDigits text < 1000 :=
    Nat.lt_of_lt_of_le (readDigits_lt text digits) (Nat.pow_le_pow_right (by decide) short)
  have whole : text.takeWhile (· ≠ 0) = text := by
    rw [List.takeWhile_eq_self_iff]
    intro letter member
    exact decide_eq_true (plain letter (digits letter member)).1
  have all := takeWhile_digits text digits
  obtain ⟨letter,rest,rfl⟩ := List.exists_cons_of_ne_nil filled
  obtain ⟨-,bright,positive,noPlus⟩ := plain letter (digits letter List.mem_cons_self)
  have number : (letter::rest).dropWhile isSpace = letter::rest := List.dropWhile_cons_of_neg (by simp [bright])
  unfold stoi
  rw [whole,number]
  dsimp only
  have noMinus : (letter::rest).head? ≠ some 45 := by simpa using positive
  have fits : FitsInt (readDigits (letter::rest) : Int) := by constructor <;> omega
  rw [unsigned_digit positive noPlus,all,if_neg filled,if_neg noMinus,if_pos fits]

theorem toString_natural (n : Nat) : toString (n : Int) = decimal n := if_neg (by omega)

theorem octet_bounds (octet : Octet text) : text ≠ [] ∧ text.length ≤ 3 ∧ ∀ letter ∈ text, isDigit letter = true := by
  obtain ⟨n,small,rfl⟩ := octet
  have short : ∀ n : Fin 256, (decimal n).length ≤ 3 := by decide +kernel
  exact ⟨decimal_filled n,short ⟨n,by omega⟩,decimal_digits n⟩

theorem octet_iff (filled : text ≠ []) (digits : ∀ letter ∈ text, isDigit letter = true) :
    Octet text ↔ readDigits text ≤ 255 ∧ decimal (readDigits text) = text := by
  constructor
  · rintro ⟨n,small,rfl⟩
    rw [readDigits_decimal]
    exact ⟨small,rfl⟩
  · rintro ⟨small,same⟩
    exact ⟨readDigits text,small,same.symm⟩

-- The checks of a segment let through exactly the octets, and never throw: what
-- reaches stoi is one to three digits.
theorem checkSegment_exact (temp : Bytes) : ∃ good, checkSegment temp = .ok good ∧ (good = true ↔ Octet temp) := by
  unfold checkSegment
  by_cases size : temp.length = 0 ∨ temp.length > 3
  · rw [if_pos size]
    refine ⟨false,rfl,by simp,fun octet => ?_⟩
    obtain ⟨filled,short,-⟩ := octet_bounds octet
    have long := List.length_pos_iff.mpr filled
    omega
  · rw [if_neg size]
    have filled : temp ≠ [] := List.length_pos_iff.mp (by omega)
    by_cases all : temp.all isDigit = true
    · rw [if_pos all]
      have digits : ∀ letter ∈ temp, isDigit letter = true := List.all_eq_true.mp all
      rw [stoi_digits filled digits (by omega),ok_bind,octet_iff filled digits,toString_natural]
      by_cases small : readDigits temp ≤ 255
      · have inside : ¬ ((readDigits temp : Int) > 255 ∨ (readDigits temp : Int) < 0) := by omega
        rw [if_neg inside]
        refine ⟨_,rfl,?_⟩
        rw [decide_eq_true_eq]
        exact ⟨fun same => ⟨small,same⟩,And.right⟩
      · have outside : (readDigits temp : Int) > 255 ∨ (readDigits temp : Int) < 0 := by omega
        rw [if_pos outside]
        exact ⟨false,rfl,by simp,fun both => absurd both.1 small⟩
    · rw [if_neg all]
      refine ⟨false,rfl,by simp,fun octet => ?_⟩
      exact absurd (List.all_eq_true.mpr (octet_bounds octet).2.2) all

-- The counter is right as long as it fits, and overflows otherwise.
theorem countDots_fits (text : Bytes) (dotcnt : Nat) (fits : dotcnt+text.count 46 < 2^31) :
    countDots text dotcnt = .ok ((dotcnt+text.count 46 : Nat) : Int) := by
  induction text generalizing dotcnt with
  | nil => rfl
  | cons letter rest ih =>
    unfold countDots
    by_cases dot : letter = 46
    · rw [dot,List.count_cons_self] at fits
      have inside : FitsInt ((dotcnt : Int)+1) := by constructor <;> omega
      have next := ih (dotcnt+1) (by omega)
      rw [Int.natCast_succ] at next
      rw [if_pos dot,if_pos inside,next,dot,List.count_cons_self]
      congr 2
      omega
    · rw [List.count_cons_of_ne dot] at fits
      rw [if_neg dot,ih dotcnt fits,List.count_cons_of_ne dot]

theorem countDots_overflows (text : Bytes) (dotcnt : Nat) (below : dotcnt < 2^31) (many : 2^31 ≤ dotcnt+text.count 46) :
    countDots text dotcnt = .error .signedOverflow := by
  induction text generalizing dotcnt with
  | nil =>
    rw [List.count_nil] at many
    omega
  | cons letter rest ih =>
    unfold countDots
    by_cases dot : letter = 46
    · rw [dot,List.count_cons_self] at many
      rw [if_pos dot]
      by_cases inside : FitsInt ((dotcnt : Int)+1)
      · have next := ih (dotcnt+1) (by have high := inside.2; omega) (by omega)
        rw [Int.natCast_succ] at next
        rw [if_pos inside,next]
      · rw [if_neg inside]
    · rw [List.count_cons_of_ne dot] at many
      rw [if_neg dot,ih dotcnt below many]

section segments
variable {segment : Bytes}

-- The scan takes a text segment by segment.
theorem scan_segment (absent : 46 ∉ segment) (rest temp : Bytes) : scanSegments (segment++46::rest) temp = (do
    let good ← checkSegment (temp++segment)
    if good then scanSegments rest [] else .ok false) := by
  induction segment generalizing temp with
  | nil =>
    rw [List.nil_append,List.append_nil,scanSegments]
    rw [if_pos rfl,if_pos (.inl rfl)]
  | cons letter segment ih =>
    have other : letter ≠ 46 := fun same => absent (same ▸ List.mem_cons_self)
    have more : ¬ (letter = 46 ∨ segment++46::rest = []) := by simp [other]
    rw [List.cons_append,scanSegments]
    rw [if_neg other,if_neg more,ih fun member => absent (List.mem_cons_of_mem _ member),List.append_assoc]
    rfl

theorem scan_last (absent : 46 ∉ segment) (filled : segment ≠ []) (temp : Bytes) : scanSegments segment temp = (do
    let good ← checkSegment (temp++segment)
    if good then .ok true else .ok false) := by
  induction segment generalizing temp with
  | nil => exact absurd rfl filled
  | cons letter segment ih =>
    have other : letter ≠ 46 := fun same => absent (same ▸ List.mem_cons_self)
    rw [scanSegments,if_neg other]
    by_cases last : segment = []
    · rw [if_pos (.inr last),last]
      rfl
    · have more : ¬ (letter = 46 ∨ segment = []) := by simp [other,last]
      rw [if_neg more,ih (fun member => absent (List.mem_cons_of_mem _ member)) last,List.append_assoc]
      rfl

theorem scan_octet (absent : 46 ∉ segment) (rest : Bytes) : ∃ good, (good = true ↔ Octet segment) ∧
    scanSegments (segment++46::rest) [] = if good then scanSegments rest [] else .ok false := by
  obtain ⟨good,checked,exactly⟩ := checkSegment_exact segment
  refine ⟨good,exactly,?_⟩
  rw [scan_segment absent,List.nil_append,checked,ok_bind]

theorem scan_end (absent : 46 ∉ segment) : ∃ good, (good = true ↔ segment = [] ∨ Octet segment) ∧
    scanSegments segment [] = .ok good := by
  by_cases filled : segment = []
  · rw [filled]
    exact ⟨true,by simp,rfl⟩
  · obtain ⟨good,checked,exactly⟩ := checkSegment_exact segment
    refine ⟨good,by simp [filled,exactly],?_⟩
    rw [scan_last absent filled,List.nil_append,checked,ok_bind]
    cases good <;> rfl

end segments

theorem cut_dot {text : Bytes} (dots : text.count 46 = n+1) :
    ∃ segment rest, text = segment++46::rest ∧ 46 ∉ segment ∧ rest.count 46 = n := by
  have present : 46 ∈ text := List.count_pos_iff.mp (by omega)
  obtain ⟨segment,rest,rfl,absent⟩ := List.eq_append_cons_of_mem present
  refine ⟨segment,rest,rfl,absent,?_⟩
  rw [List.count_append,List.count_eq_zero.mpr absent,List.count_cons_self] at dots
  omega

-- A text with three dots is four segments without one.
theorem three_dots {text : Bytes} (dots : text.count 46 = 3) :
    ∃ a b c d, text = Dotted a b c d ∧ 46 ∉ a ∧ 46 ∉ b ∧ 46 ∉ c ∧ 46 ∉ d := by
  obtain ⟨a,behindA,rfl,clearA,dots⟩ := cut_dot dots
  obtain ⟨b,behindB,rfl,clearB,dots⟩ := cut_dot dots
  obtain ⟨c,d,rfl,clearC,dots⟩ := cut_dot dots
  exact ⟨a,b,c,d,rfl,clearA,clearB,clearC,List.count_eq_zero.mp dots⟩

section quad
variable {a b c d : Bytes}

theorem dotted_count (clearA : 46 ∉ a) (clearB : 46 ∉ b) (clearC : 46 ∉ c) (clearD : 46 ∉ d) : (Dotted a b c d).count 46 = 3 := by
  simp [Dotted,List.count_append,List.count_eq_zero.mpr clearA,List.count_eq_zero.mpr clearB,
    List.count_eq_zero.mpr clearC,List.count_eq_zero.mpr clearD]

theorem dotted_last (clearD : 46 ∉ d) : (Dotted a b c d).getLast? ≠ some 46 ↔ d ≠ [] := by
  have behind : (Dotted a b c d).getLast? = (46::d).getLast? := by
    have shape : Dotted a b c d = (a++46::(b++46::c))++46::d := by simp [Dotted]
    rw [shape,List.getLast?_append_of_ne_nil _ (by simp)]
  rw [behind]
  cases d with
  | nil => simp
  | cons letter rest =>
    rw [List.getLast?_cons_cons]
    refine iff_of_true (fun last => ?_) (by simp)
    exact clearD (List.mem_of_getLast? last)

-- The scan goes on as long as the segments are octets. It would let an empty
-- one through at the very end; the last check does not.
theorem isIPv4_dotted (clearA : 46 ∉ a) (clearB : 46 ∉ b) (clearC : 46 ∉ c) (clearD : 46 ∉ d) :
    ∃ good, isIPv4 (Dotted a b c d) = .ok good ∧ (good = true ↔ Octet a ∧ Octet b ∧ Octet c ∧ Octet d) := by
  obtain ⟨goodA,exactA,scanA⟩ := scan_octet clearA (b++46::(c++46::d))
  obtain ⟨goodB,exactB,scanB⟩ := scan_octet clearB (c++46::d)
  obtain ⟨goodC,exactC,scanC⟩ := scan_octet clearC d
  obtain ⟨goodD,exactD,scanD⟩ := scan_end clearD
  have three := dotted_count clearA clearB clearC clearD
  have counted : countDots (Dotted a b c d) 0 = .ok 3 := by
    have fits := countDots_fits (Dotted a b c d) 0
    rw [three] at fits
    exact fits (by decide)
  have scanned : scanSegments (Dotted a b c d) [] = .ok (goodA && goodB && goodC && goodD) := by
    unfold Dotted
    rw [scanA,scanB,scanC,scanD]
    cases goodA <;> cases goodB <;> cases goodC <;> rfl
  have octetFilled : Octet d → d ≠ [] := fun octet => (octet_bounds octet).1
  have last := dotted_last (a := a) (b := b) (c := c) clearD
  unfold isIPv4
  rw [counted,ok_bind,if_neg (by decide),scanned,ok_bind]
  rw [← exactA,← exactB,← exactC]
  cases good : goodA && goodB && goodC && goodD with
  | false =>
    refine ⟨false,rfl,by simp,?_⟩
    rintro ⟨rfl,rfl,rfl,octet⟩
    rw [exactD.mpr (.inr octet)] at good
    cases good
  | true =>
    refine ⟨_,rfl,?_⟩
    rw [decide_eq_true_eq,last]
    simp only [Bool.and_eq_true] at good
    obtain ⟨⟨⟨allA,allB⟩,allC⟩,allD⟩ := good
    rcases exactD.mp allD with empty | octet
    · exact iff_of_false (fun filled => filled empty) fun all => octetFilled all.2.2.2 empty
    · exact iff_of_true (octetFilled octet) ⟨allA,allB,allC,octet⟩

end quad

theorem octet_clear (octet : Octet text) : 46 ∉ text := by
  intro member
  exact absurd ((octet_bounds octet).2.2 46 member) (by decide)

theorem quad_iff {text : Bytes} : DottedQuad text ↔
    ∃ a b c d, text = Dotted a b c d ∧ Octet a ∧ Octet b ∧ Octet c ∧ Octet d := by
  constructor
  · rintro ⟨a,b,c,d,⟨smallA,smallB,smallC,smallD⟩,rfl⟩
    exact ⟨_,_,_,_,rfl,⟨a,smallA,rfl⟩,⟨b,smallB,rfl⟩,⟨c,smallC,rfl⟩,⟨d,smallD,rfl⟩⟩
  · rintro ⟨_,_,_,_,rfl,⟨a,smallA,rfl⟩,⟨b,smallB,rfl⟩,⟨c,smallC,rfl⟩,⟨d,smallD,rfl⟩⟩
    exact ⟨a,b,c,d,⟨smallA,smallB,smallC,smallD⟩,rfl⟩

theorem isIPv4_quad (quad : DottedQuad text) : isIPv4 text = .ok true := by
  obtain ⟨a,b,c,d,rfl,octetA,octetB,octetC,octetD⟩ := quad_iff.mp quad
  obtain ⟨good,ran,exactly⟩ := isIPv4_dotted (octet_clear octetA) (octet_clear octetB) (octet_clear octetC) (octet_clear octetD)
  rw [ran,exactly.mpr ⟨octetA,octetB,octetC,octetD⟩]

theorem isIPv4_exact (text : Bytes) (few : text.count 46 < 2^31) :
    ∃ good, isIPv4 text = .ok good ∧ (good = true ↔ DottedQuad text) := by
  by_cases dots : text.count 46 = 3
  · obtain ⟨a,b,c,d,rfl,clearA,clearB,clearC,clearD⟩ := three_dots dots
    obtain ⟨good,ran,exactly⟩ := isIPv4_dotted clearA clearB clearC clearD
    refine ⟨good,ran,fun accepted => ?_,fun quad => ?_⟩
    · exact quad_iff.mpr ⟨a,b,c,d,rfl,exactly.mp accepted⟩
    · have accepted := isIPv4_quad quad
      rw [ran] at accepted
      exact Except.ok.inj accepted
  · have counted : countDots text 0 = .ok ((0+text.count 46 : Nat) : Int) := countDots_fits text 0 (by omega)
    refine ⟨false,?_,by simp,fun quad => ?_⟩
    · unfold isIPv4
      rw [counted,ok_bind,if_pos]
      omega
    · obtain ⟨a,b,c,d,rfl,octetA,octetB,octetC,octetD⟩ := quad_iff.mp quad
      exact absurd (dotted_count (octet_clear octetA) (octet_clear octetB) (octet_clear octetC) (octet_clear octetD)) dots

theorem isIPv4_overflows (text : Bytes) (many : 2^31 ≤ text.count 46) : isIPv4 text = .error .signedOverflow := by
  have counted : countDots text 0 = .error .signedOverflow := countDots_overflows text 0 (by decide) (by omega)
  unfold isIPv4
  rw [counted,error_bind]

-- Every text with fewer than 2^31 dots gets its answer.
theorem isIPv4_iff (s : Bytes) :
    (∃ answer, isIPv4 s = .ok answer ∧ (answer = true ↔ DottedQuad s)) ↔ s.count 46 < 2^31 := by
  constructor
  · rintro ⟨answer,ran,-⟩
    by_cases few : s.count 46 < 2^31
    · exact few
    · rw [isIPv4_overflows s (by omega)] at ran
      cases ran
  · exact isIPv4_exact s

theorem twoGiB_dots : ¬ ∃ answer, isIPv4 (List.replicate (2^31) 46) = .ok answer ∧
    (answer = true ↔ DottedQuad (List.replicate (2^31) 46)) := by
  rintro ⟨answer,ran,-⟩
  have many : 2^31 ≤ (List.replicate (2^31) (46 : UInt8)).count 46 := by rw [List.count_replicate_self]
  rw [isIPv4_overflows _ many] at ran
  cases ran

end CoStream.IpAddress
