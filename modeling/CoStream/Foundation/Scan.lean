import Mathlib.Data.List.Infix
import CoStream.Foundation.Text

namespace Foundation
variable {α : Type} [BEq α] {d text : List α}

-- Reading a text from left to right: the places where a delimiter starts. Behind
-- one the reading goes on, so that no two of them share a letter.
def scan (d : List α) : Nat → Nat → List α → List Nat
  | _,_,[] => []
  | at_,skip+1,_::text => scan d (at_+1) skip text
  | at_,0,a::text => if d.isPrefixOf (a::text) then at_::scan d (at_+1) (d.length-1) text else scan d (at_+1) 0 text

def delimiters (d text : List α) : List Nat := scan d 0 0 text

-- The text ends with a delimiter that the reading finds.
def EndsDelimited (d text : List α) : Prop := ∃ at_ ∈ delimiters d text, at_+d.length = text.length
instance (d text : List α) : Decidable (EndsDelimited d text) :=
  inferInstanceAs (Decidable (∃ at_ ∈ delimiters d text, at_+d.length = text.length))

theorem scan_skip (d : List α) (at_ skip : Nat) (text : List α) : scan d at_ skip text = scan d (at_+skip) 0 (text.drop skip) := by
  induction skip generalizing at_ text with
  | zero => rfl
  | succ skip ih =>
    cases text with
    | nil => rfl
    | cons a text =>
      rw [scan,ih,List.drop_succ_cons]
      congr 1
      omega

theorem scan_shift (d : List α) (far at_ skip : Nat) (text : List α) :
    scan d (far+at_) skip text = (scan d at_ skip text).map (far+·) := by
  induction text generalizing at_ skip with
  | nil => cases skip <;> rfl
  | cons a text ih =>
    cases skip with
    | succ skip => exact ih (at_+1) skip
    | zero =>
      rw [scan,scan]
      split
      · rw [List.map_cons]
        exact congrArg _ (ih (at_+1) _)
      · exact ih (at_+1) 0

theorem scan_none (at_ : Nat) (missing : find? d text = none) : scan d at_ 0 text = ([] : List Nat) := by
  induction text generalizing at_ with
  | nil => rfl
  | cons a text ih =>
    rw [find?] at missing
    rw [scan]
    split at missing
    · cases missing
    · rename_i other
      rw [if_neg other]
      exact ih _ (Option.map_eq_none_iff.mp missing)

theorem scan_some (filled : d ≠ []) (at_ : Nat) (here : find? d text = some n) :
    scan d at_ 0 text = (at_+n)::scan d (at_+n+d.length) 0 (text.drop (n+d.length)) := by
  have long := List.length_pos_iff.mpr filled
  induction text generalizing at_ n with
  | nil =>
    rw [find?,if_neg (by simpa using filled)] at here
    cases here
  | cons a text ih =>
    rw [find?] at here
    rw [scan]
    split at here
    · rename_i front
      cases here
      rw [if_pos front,scan_skip]
      have behind : at_+1+(d.length-1) = at_+0+d.length := by omega
      have rest : (a::text).drop (0+d.length) = text.drop (d.length-1) := by
        rw [Nat.zero_add]
        cases d with
        | nil => exact absurd rfl filled
        | cons b d => rfl
      rw [behind,rest]
      rfl
    · rename_i other
      obtain ⟨m,later,rfl⟩ := Option.map_eq_some_iff.mp here
      rw [if_neg other,ih (at_+1) later]
      have place : at_+1+m = at_+(m+1) := by omega
      have rest : (a::text).drop (m+1+d.length) = text.drop (m+d.length) := by
        rw [Nat.add_right_comm,List.drop_succ_cons]
      rw [place,rest]

theorem delimiters_none (missing : find? d text = none) : delimiters d text = [] := scan_none 0 missing

theorem delimiters_some (filled : d ≠ []) (here : find? d text = some n) :
    delimiters d text = n::(delimiters d (text.drop (n+d.length))).map (n+d.length+·) := by
  unfold delimiters
  rw [scan_some filled 0 here,← scan_shift]
  simp only [Nat.zero_add,Nat.add_zero]

theorem endsDelimited_none (missing : find? d text = none) : ¬ EndsDelimited d text := by
  rintro ⟨at_,member,-⟩
  rw [delimiters_none missing] at member
  cases member

variable [LawfulBEq α]

theorem find?_none_iff : find? d text = none ↔ ¬ d <:+: text := by
  induction text with
  | nil =>
    rw [find?,List.infix_nil]
    cases d <;> simp
  | cons a text ih =>
    rw [find?,List.infix_cons_iff]
    by_cases front : d.isPrefixOf (a::text) = true
    · rw [if_pos front]
      exact iff_of_false (by simp) fun none => none (.inl (List.isPrefixOf_iff_prefix.mp front))
    · rw [if_neg front,Option.map_eq_none_iff,ih]
      have apart : ¬ d <+: a::text := fun pre => front (List.isPrefixOf_iff_prefix.mpr pre)
      simp [apart]

-- What is cut off in front of the first delimiter has none.
theorem find?_take (filled : d ≠ []) (here : find? d text = some n) : find? d (text.take n) = none := by
  have long := List.length_pos_iff.mpr filled
  cases earlier : find? d (text.take n) with
  | none => rfl
  | some m =>
    have same := find?_append earlier (text.drop n)
    rw [List.take_append_drop,here] at same
    cases same
    have inside := (find?_inside earlier).1
    rw [List.length_take] at inside
    omega

theorem split_clear (filled : d ≠ []) (text : List α) : ∀ segment ∈ split d text, ¬ d <:+: segment := by
  induction size : text.length using Nat.strong_induction_on generalizing text with
  | _ count ih =>
    by_cases empty : text = []
    · rw [empty]
      intro segment member
      cases member
    · cases here : find? d text with
      | none =>
        rw [split_none empty here]
        intro segment member
        rw [List.mem_singleton.mp member]
        exact find?_none_iff.mp here
      | some n =>
        have long := List.length_pos_iff.mpr filled
        have inside := (find?_inside here).1
        rw [split_some filled here]
        intro segment member
        rcases List.mem_cons.mp member with rfl | later
        · exact find?_none_iff.mp (find?_take filled here)
        · exact ih _ (by rw [List.length_drop]; omega) _ rfl segment later

theorem endsDelimited_some (filled : d ≠ []) (here : find? d text = some n) :
    EndsDelimited d text ↔ text.drop (n+d.length) = [] ∨ EndsDelimited d (text.drop (n+d.length)) := by
  have inside := (find?_inside here).1
  have size : (text.drop (n+d.length)).length = text.length-(n+d.length) := List.length_drop
  unfold EndsDelimited
  rw [delimiters_some filled here,← List.length_eq_zero_iff,size]
  constructor
  · rintro ⟨at_,member,last⟩
    rcases List.mem_cons.mp member with rfl | later
    · exact .inl (by omega)
    · obtain ⟨further,present,rfl⟩ := List.mem_map.mp later
      exact .inr ⟨further,present,by omega⟩
  · rintro (nothing | ⟨further,present,last⟩)
    · exact ⟨n,List.mem_cons_self,by omega⟩
    · exact ⟨_,List.mem_cons_of_mem _ (List.mem_map_of_mem present),by omega⟩

-- Joined again, the pieces are the text, but for a delimiter at its end.
theorem split_joined (filled : d ≠ []) (text : List α) :
    (d.intercalate (split d text) ++ if EndsDelimited d text then d else []) = text ∧
      (split d text).length = (delimiters d text).length + if EndsDelimited d text ∨ text = [] then 0 else 1 := by
  induction size : text.length using Nat.strong_induction_on generalizing text with
  | _ count ih =>
    by_cases empty : text = []
    · subst empty
      have open_ : ¬ EndsDelimited d ([] : List α) := by
        rintro ⟨at_,member,-⟩
        cases member
      simp [split,delimiters,scan,open_]
    · cases here : find? d text with
      | none =>
        have open_ := endsDelimited_none here
        rw [split_none empty here,delimiters_none here]
        simp [open_,empty]
      | some n =>
        have long := List.length_pos_iff.mpr filled
        obtain ⟨inside,shape⟩ := find?_inside here
        obtain ⟨joined,pieces⟩ := ih _ (by rw [List.length_drop]; omega) (text.drop (n+d.length)) rfl
        have ends := endsDelimited_some filled here
        rw [split_some filled here,delimiters_some filled here]
        generalize behind : text.drop (n+d.length) = rest at *
        by_cases nothing : rest = []
        · subst nothing
          have closed : EndsDelimited d text := ends.mpr (.inl rfl)
          rw [if_pos closed,if_pos (.inl closed)]
          refine ⟨?_,rfl⟩
          rw [split,if_pos List.isEmpty_nil,List.intercalate_singleton]
          conv_rhs => rw [shape,List.append_nil]
        · have same : EndsDelimited d text ↔ EndsDelimited d rest := ends.trans (or_iff_right nothing)
          have pieced : split d rest ≠ [] := split_filled nothing
          obtain ⟨next,more,cut⟩ := List.exists_cons_of_ne_nil pieced
          simp only [same,empty,nothing,or_false,List.length_cons,List.length_map] at pieces ⊢
          refine ⟨?_,by omega⟩
          rw [cut] at joined ⊢
          rw [List.intercalate_cons_cons,List.append_assoc,joined]
          exact shape.symm

end Foundation
