import CoStream.StringEx
import CoStream.Foundation.Scan

namespace CoStream
open Foundation

-- One turn of the loop of StringSplit: what is left to be cut, if the loop goes
-- on, and the output so far.
def splitTurn (splitStr tempString : Bytes) (outputVec : List Bytes) : Except Exn (Option Bytes × List Bytes) :=
  match find? splitStr tempString with
  | none => .ok (none,outputVec++[tempString])
  | some pos => do
    let rest ← substr tempString (pos+splitStr.length)
    .ok (if rest.length > 0 then some rest else none,outputVec++[tempString.take pos])

-- `none` is a loop that is still going on behind so many turns.
def splitTurns (splitStr : Bytes) : Nat → Bytes → List Bytes → Except Exn (Option (List Bytes))
  | 0,_,_ => .ok none
  | turns+1,tempString,outputVec => do
    let (left,outputVec) ← splitTurn splitStr tempString outputVec
    match left with
    | none => .ok (some outputVec)
    | some rest => splitTurns splitStr turns rest outputVec

-- StringSplit with the vector it adds to and the count it returns.
def stringSplitInto (turns : Nat) (inputStr splitStr : Bytes) (outputVec : List Bytes) :
    Except Exn (Option (Int × List Bytes)) :=
  if inputStr.length = 0 then .ok (some (0,outputVec))
  else do
    let result ← splitTurns splitStr turns inputStr outputVec
    .ok (result.map fun filled => (toInt filled.length,filled))

section terminates
variable {s d : Bytes}

-- Every turn that goes on has taken at least a delimiter off.
theorem splitTurns_ends (filled : d ≠ []) (turns : Nat) (present : s ≠ []) (enough : s.length ≤ turns) (outputVec : List Bytes) :
    splitTurns d turns s outputVec = .ok (some (outputVec++split d s)) := by
  have long := List.length_pos_iff.mpr filled
  induction turns generalizing s outputVec with
  | zero => exact absurd (List.length_eq_zero_iff.mp (by omega)) present
  | succ turns ih =>
    unfold splitTurns splitTurn
    cases here : find? d s with
    | none =>
      dsimp only
      rw [ok_bind,split_none present here]
    | some pos =>
      have inside := (find?_inside here).1
      dsimp only
      rw [substr_ok inside,ok_bind,ok_bind,split_some filled here]
      by_cases more : (s.drop (pos+d.length)).length > 0
      · rw [if_pos more]
        dsimp only
        rw [ih (List.length_pos_iff.mp more) (by rw [List.length_drop]; omega),List.append_assoc]
        rfl
      · have nothing : s.drop (pos+d.length) = [] := List.length_eq_zero_iff.mp (by omega)
        rw [if_neg more,nothing]
        rfl

theorem stringSplitInto_ends (filled : d ≠ []) (enough : s.length ≤ turns) :
    stringSplitInto turns s d [] = .ok (some (toInt (split d s).length,split d s)) := by
  unfold stringSplitInto
  by_cases empty : s = []
  · have nothing : split d s = [] := by
      rw [empty]
      rfl
    have zero : toInt (0 : Nat) = 0 := toInt_fits (by decide)
    rw [if_pos (List.length_eq_zero_iff.mpr empty),nothing,List.length_nil,zero]
  · rw [if_neg (fun none => empty (List.length_eq_zero_iff.mp none)),splitTurns_ends filled turns empty enough,ok_bind]
    rfl

end terminates

-- What StringSplit is for: pieces without the delimiter that give the text when
-- they are joined, short of a delimiter at its end, and their number.
def Faithful (s d : Bytes) : Prop :=
  ∃ (count : Int) (segments : List Bytes),
    (∀ turns, s.length ≤ turns → stringSplitInto turns s d [] = .ok (some (count,segments))) ∧
    (∀ segment ∈ segments, ¬ d <:+: segment) ∧
    (d.intercalate segments = s ↔ ¬ EndsDelimited d s) ∧ (d.intercalate segments++d = s ↔ EndsDelimited d s) ∧
    count = segments.length ∧ (count = 0 → s = [])

theorem split_joins (filled : d ≠ []) (s : Bytes) :
    (d.intercalate (split d s) = s ↔ ¬ EndsDelimited d s) ∧ (d.intercalate (split d s)++d = s ↔ EndsDelimited d s) := by
  have joined := (split_joined filled s).1
  by_cases ends : EndsDelimited d s
  · rw [if_pos ends] at joined
    refine ⟨iff_of_false (fun same => ?_) (fun open_ => open_ ends),iff_of_true joined ends⟩
    rw [same] at joined
    exact filled (List.append_right_eq_self.mp joined)
  · rw [if_neg ends,List.append_nil] at joined
    refine ⟨iff_of_true joined ends,iff_of_false (fun same => ?_) ends⟩
    rw [joined] at same
    exact filled (List.append_right_eq_self.mp same)

theorem faithful_exactly (filled : d ≠ []) (s : Bytes) : Faithful s d ↔ (split d s).length < 2^31 := by
  constructor
  · rintro ⟨count,segments,ran,-,-,-,counted,-⟩
    have same := (stringSplitInto_ends filled (Nat.le_refl s.length)).symm.trans (ran s.length (Nat.le_refl _))
    obtain ⟨rfl,rfl⟩ := Prod.mk.inj (Option.some.inj (Except.ok.inj same))
    have high := (toInt_range (split d s).length).2
    omega
  · intro few
    have fits : toInt (split d s).length = (split d s).length := toInt_fits (by constructor <;> omega)
    refine ⟨(split d s).length,split d s,?_,split_clear filled s,(split_joins filled s).1,(split_joins filled s).2,rfl,?_⟩
    · intro turns enough
      rw [stringSplitInto_ends filled enough,fits]
    · intro none
      by_contra present
      have pieced : split d s ≠ [] := split_filled present
      exact pieced (List.length_eq_zero_iff.mp (by omega))

theorem stringSplit_faithful_iff (s d : Bytes) (filled : d ≠ []) :
    Faithful s d ↔ (delimiters d s).length+(if EndsDelimited d s ∨ s = [] then 0 else 1) < 2^31 := by
  rw [faithful_exactly filled,(split_joined filled s).2]

theorem overlap_faithful : crlf ≠ [] ∧ Faithful (ascii "a\r\r\nb\r\n") crlf :=
  ⟨by decide,(stringSplit_faithful_iff (ascii "a\r\r\nb\r\n") crlf (by decide)).mpr (by decide)⟩

theorem split_replicate (c : UInt8) (n : Nat) : split [c] (List.replicate n c) = List.replicate n [] := by
  induction n with
  | zero => rfl
  | succ n ih =>
    have first : find? [c] (List.replicate (n+1) c) = some 0 := find?_front [c] (List.replicate n c)
    rw [split_some (by simp) first,List.replicate_succ,List.replicate_succ]
    exact congrArg _ ih

-- 2^31 commas are as many empty pieces, and counted as -2^31.
theorem twoGiB_commas : ¬ Faithful (List.replicate (2^31) 44) [44] := by
  intro faithful
  have few := (faithful_exactly (by simp) _).mp faithful
  rw [split_replicate,List.length_replicate] at few
  exact absurd few (by omega)

end CoStream
