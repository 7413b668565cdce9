import Mathlib.Algebra.Ring.Nat
import Mathlib.Algebra.Ring.Int.Defs
import Mathlib.Data.List.Basic

namespace Foundation

-- The first place where a pattern occurs.
def find? [BEq α] (pattern : List α) : List α → Option Nat
  | [] => if pattern.isEmpty then some 0 else none
  | a::text => if pattern.isPrefixOf (a::text) then some 0 else (find? pattern text).map (·+1)

-- Cutting a text at every occurrence of a delimiter. Nothing is left over when
-- the text ends in one. The fuel is the length of the text.
def splitLoop [BEq α] (delimiter : List α) : Nat → List α → List (List α)
  | 0,text => [text]
  | fuel+1,text =>
    match find? delimiter text with
    | none => [text]
    | some at_ =>
      let rest := text.drop (at_+delimiter.length)
      text.take at_::if rest.isEmpty then [] else splitLoop delimiter fuel rest

def split [BEq α] (delimiter text : List α) : List (List α) :=
  if text.isEmpty then [] else splitLoop delimiter text.length text

theorem flatten_filled {α : Type} {chunks : List (List α)} (filled : ∀ chunk ∈ chunks, chunk ≠ []) (nothing : chunks.flatten = []) :
    chunks = [] := by
  cases chunks with
  | nil => rfl
  | cons next rest => exact absurd (List.append_eq_nil_iff.mp nothing).1 (filled next List.mem_cons_self)

variable {α : Type} [BEq α] {text pattern tail : List α} {c : α}

theorem splitLoop_none (fuel : Nat) (missing : find? pattern text = none) : splitLoop pattern fuel text = [text] := by
  cases fuel with
  | zero => rfl
  | succ fuel => simp [splitLoop,missing]

theorem split_none (filled : text ≠ []) (missing : find? pattern text = none) : split pattern text = [text] := by
  rw [split,if_neg (by simpa using filled),splitLoop_none _ missing]

theorem split_filled (filled : text ≠ []) : split pattern text ≠ [] := by
  obtain ⟨a,text,rfl⟩ := List.exists_cons_of_ne_nil filled
  unfold split
  rw [if_neg (by simp),List.length_cons,splitLoop]
  split <;> simp

variable [LawfulBEq α]

theorem isFront_iff : pattern.isPrefixOf text = true ↔ ∃ post, pattern++post = text := List.isPrefixOf_iff_prefix

theorem isFront_head (front : (c::tail).isPrefixOf (a::text) = true) : c = a := by
  obtain ⟨post,shape⟩ := isFront_iff.mp front
  exact (List.cons.inj shape).1

theorem find?_inside (found : find? pattern text = some n) :
    n+pattern.length ≤ text.length ∧ text = text.take n++pattern++text.drop (n+pattern.length) := by
  induction text generalizing n with
  | nil =>
    simp only [find?] at found
    split at found
    · cases found
      simp_all
    · cases found
  | cons a text ih =>
    simp only [find?] at found
    split at found
    · cases found
      rename_i front
      obtain ⟨post,shape⟩ := isFront_iff.mp front
      rw [← shape]
      simp
    · obtain ⟨m,later,rfl⟩ := Option.map_eq_some_iff.mp found
      obtain ⟨fits,shape⟩ := ih later
      refine ⟨by simp only [List.length_cons]; omega,?_⟩
      rw [List.take_succ_cons,Nat.add_right_comm,List.drop_succ_cons,List.cons_append,List.cons_append,← shape]

theorem find?_append (found : find? pattern text = some n) (more : List α) :
    find? pattern (text++more) = some n := by
  induction text generalizing n with
  | nil =>
    simp only [find?] at found
    split at found
    · cases found
      have empty : pattern = [] := by simp_all
      cases more <;> simp [find?,empty]
    · cases found
  | cons a text ih =>
    have inside := (find?_inside found).1
    simp only [find?,List.cons_append] at found ⊢
    split at found
    · rename_i front
      cases found
      obtain ⟨post,shape⟩ := isFront_iff.mp front
      have still : pattern.isPrefixOf (a::(text++more)) = true :=
        isFront_iff.mpr ⟨post++more,by rw [← List.cons_append,← shape,List.append_assoc]⟩
      rw [if_pos still]
    · rename_i front
      obtain ⟨m,later,rfl⟩ := Option.map_eq_some_iff.mp found
      have still : ¬ pattern.isPrefixOf (a::(text++more)) = true := by
        intro longer
        obtain ⟨post,shape⟩ := isFront_iff.mp longer
        refine front (isFront_iff.mpr ⟨(a::text).drop pattern.length,?_⟩)
        have same := congrArg (List.take pattern.length) shape
        rw [List.take_left' rfl,← List.cons_append,List.take_append_of_le_length (by omega)] at same
        conv_lhs => rw [same,List.length_take,Nat.min_eq_left (by omega)]
        exact List.take_append_drop _ _
      rw [if_neg still,ih later]
      rfl

-- In a text that comes in chunks, one chunk completes the first occurrence.
theorem find?_completed (chunks : List (List α)) (missing : find? pattern text = none)
    (found : find? pattern (text++chunks.flatten) = some n) :
    ∃ front chunk rest, chunks = front++chunk::rest ∧ find? pattern (text++front.flatten) = none ∧
      find? pattern (text++front.flatten++chunk) = some n := by
  induction chunks generalizing text with
  | nil =>
    rw [List.flatten_nil,List.append_nil,missing] at found
    cases found
  | cons chunk rest ih =>
    rw [List.flatten_cons,← List.append_assoc] at found
    cases now : find? pattern (text++chunk) with
    | none =>
      obtain ⟨front,last,behind,rfl,absent,complete⟩ := ih now found
      refine ⟨chunk::front,last,behind,rfl,?_,?_⟩
      · simpa using absent
      · simpa using complete
    | some m =>
      have same := find?_append now rest.flatten
      rw [found] at same
      cases same
      exact ⟨[],chunk,rest,rfl,by simpa using missing,by simpa using now⟩

theorem find?_none_of_append (missing : find? pattern (text++more) = none) : find? pattern text = none := by
  cases now : find? pattern text with
  | none => rfl
  | some n =>
    rw [find?_append now] at missing
    cases missing

-- A block ends where the pattern first occurs. However the text is cut, one
-- chunk completes the pattern; what it has beyond it comes before the chunks
-- behind it.
theorem find?_cut (chunks : List (List α)) (filled : pattern ≠ []) (ends : find? pattern (block++pattern) = some block.length)
    (cut : chunks.flatten = block++pattern++behind) :
    ∃ front chunk rest, chunks = front++chunk::rest ∧ find? pattern front.flatten = none ∧
      find? pattern (front.flatten++chunk) = some block.length ∧ (front.flatten++chunk).take block.length = block ∧
      (front.flatten++chunk).drop (block.length+pattern.length)++rest.flatten = behind := by
  have empty : find? pattern ([] : List α) = none := by simp [find?,filled]
  obtain ⟨front,chunk,rest,rfl,absent,complete⟩ := find?_completed chunks empty
    (by rw [List.nil_append,cut]; exact find?_append ends behind)
  rw [List.nil_append] at absent complete
  have inside := (find?_inside complete).1
  have whole : front.flatten++chunk++rest.flatten = block++pattern++behind := by
    rw [← cut]
    simp
  refine ⟨front,chunk,rest,rfl,absent,complete,?_,?_⟩
  · have taken := congrArg (List.take block.length) whole
    rw [List.take_append_of_le_length (by omega),List.append_assoc block,List.take_left' rfl] at taken
    exact taken
  · have beyond : (block++pattern++behind).drop (block.length+pattern.length) = behind := List.drop_left' (by simp)
    rw [← whole,List.drop_append_of_le_length inside] at beyond
    exact beyond

-- A pattern is not found where its first letter does not occur, and is found
-- right behind such a text.
theorem find?_absent (absent : c ∉ text) : find? (c::tail) text = none := by
  induction text with
  | nil => rfl
  | cons a text ih =>
    have other : ¬ (c::tail).isPrefixOf (a::text) = true :=
      fun front => absent (isFront_head front ▸ List.mem_cons_self)
    rw [find?,if_neg other,ih fun member => absent (List.mem_cons_of_mem _ member)]
    rfl

theorem find?_behind (absent : c ∉ text) (found : find? (c::tail) rest = some n) :
    find? (c::tail) (text++rest) = some (text.length+n) := by
  induction text with
  | nil => simpa using found
  | cons a text ih =>
    have other : ¬ (c::tail).isPrefixOf (a::(text++rest)) = true :=
      fun front => absent (isFront_head front ▸ List.mem_cons_self)
    rw [List.cons_append,find?,if_neg other,ih fun member => absent (List.mem_cons_of_mem _ member)]
    simp only [Option.map_some,List.length_cons,Option.some.injEq]
    omega

theorem find?_front (pattern rest : List α) : find? pattern (pattern++rest) = some 0 := by
  have front : pattern.isPrefixOf (pattern++rest) = true := isFront_iff.mpr ⟨rest,rfl⟩
  cases pattern with
  | nil => cases rest <;> simp [find?]
  | cons a pattern =>
    rw [List.cons_append] at front ⊢
    rw [find?,if_pos front]

theorem find?_first (absent : c ∉ text) (rest : List α) :
    find? (c::tail) (text++c::tail++rest) = some text.length := by
  rw [List.append_assoc,find?_behind absent (find?_front (c::tail) rest),Nat.add_zero]

theorem find?_single (present : c ∈ text) : ∃ n, find? [c] text = some n := by
  obtain ⟨before,after,rfl,absent⟩ := List.eq_append_cons_of_mem present
  have first : find? [c] (before++[c]++after) = some before.length := find?_first absent after
  rw [List.append_assoc] at first
  exact ⟨before.length,first⟩

theorem splitLoop_enough (delimiter : pattern ≠ []) (one two : Nat) (text : List α) (filled : text ≠ [])
    (first : text.length ≤ one) (second : text.length ≤ two) :
    splitLoop pattern one text = splitLoop pattern two text := by
  induction one generalizing two text with
  | zero => exact absurd (List.length_eq_zero_iff.mp (by omega)) filled
  | succ one ih =>
    cases two with
    | zero => exact absurd (List.length_eq_zero_iff.mp (by omega)) filled
    | succ two =>
      simp only [splitLoop]
      cases found : find? pattern text with
      | none => rfl
      | some n =>
        have long := List.length_pos_iff.mpr delimiter
        have inside := (find?_inside found).1
        dsimp only
        split
        · rfl
        · rename_i more
          rw [ih two _ (by simpa using more) (by rw [List.length_drop]; omega) (by rw [List.length_drop]; omega)]

theorem split_some (delimiter : pattern ≠ []) (found : find? pattern text = some n) :
    split pattern text = text.take n::split pattern (text.drop (n+pattern.length)) := by
  have long := List.length_pos_iff.mpr delimiter
  have inside := (find?_inside found).1
  cases count : text.length with
  | zero => omega
  | succ fuel =>
    have filled : text ≠ [] := by
      rintro rfl
      simp at count
    rw [split,if_neg (by simpa using filled),count,splitLoop,found]
    dsimp only
    rw [split]
    split
    · rfl
    · rename_i more
      rw [splitLoop_enough delimiter fuel _ _ (by simpa using more) (by rw [List.length_drop]; omega) (Nat.le_refl _)]

theorem split_first (absent : c ∉ text) (rest : List α) :
    split (c::tail) (text++c::tail++rest) = text::split (c::tail) rest := by
  rw [split_some (by simp) (find?_first absent rest)]
  rw [List.append_assoc,List.take_left' rfl,← List.append_assoc,List.drop_left' (by simp)]

-- Put together again, the pieces lack the delimiters.
theorem split_flatten (text : List α) : (split [c] text).flatten = text.filter (· != c) := by
  have clear : ∀ piece : List α, c ∉ piece → piece.filter (· != c) = piece := by
    intro piece absent
    rw [List.filter_eq_self]
    intro a member
    rw [bne_iff_ne]
    exact fun same => absent (same ▸ member)
  induction size : text.length using Nat.strong_induction_on generalizing text with
  | _ count ih =>
    by_cases present : c ∈ text
    · obtain ⟨before,after,rfl,absent⟩ := List.eq_append_cons_of_mem present
      have shorter : after.length < count := by
        rw [← size,List.length_append,List.length_cons]
        omega
      have cut : split [c] (before++c::after) = before::split [c] after := by
        have first : split [c] (before++[c]++after) = before::split [c] after := split_first absent after
        rw [List.append_assoc] at first
        exact first
      rw [cut,List.flatten_cons,ih _ shorter after rfl,List.filter_append,clear before absent]
      simp
    · rw [clear text present]
      by_cases filled : text = []
      · rw [filled]
        rfl
      · rw [split_none filled (find?_absent present),List.flatten_singleton]

-- Joining and cutting. The segments keep clear of the delimiter's first letter,
-- and the last one is not empty.
theorem split_intercalate (segments : List (List α)) (clear : ∀ segment ∈ segments, c ∉ segment)
    (ends : ∀ last, segments.getLast? = some last → last ≠ []) :
    split (c::tail) ((c::tail).intercalate segments) = segments := by
  induction segments with
  | nil => rfl
  | cons segment rest ih =>
    have absent := clear segment List.mem_cons_self
    cases rest with
    | nil =>
      rw [List.intercalate_singleton,split_none (ends segment rfl) (find?_absent absent)]
    | cons next rest =>
      rw [List.intercalate_cons_cons,split_first absent]
      rw [ih (fun other member => clear other (List.mem_cons_of_mem _ member)) fun last => by
        simpa using ends last]

-- A delimiter of two letters occurs twice in a row first behind the last line,
-- when the lines are not empty and keep clear of its first letter.
theorem find?_blank_line {e : α} (apart : e ≠ c) (lines : List (List α)) (present : lines ≠ [])
    (clear : ∀ line ∈ lines, c ∉ line ∧ line ≠ []) (body : List α) :
    find? [c,e,c,e] ([c,e].intercalate lines++[c,e,c,e]++body) = some ([c,e].intercalate lines).length := by
  induction lines with
  | nil => exact absurd rfl present
  | cons line rest ih =>
    obtain ⟨absent,filled⟩ := clear line List.mem_cons_self
    cases rest with
    | nil =>
      rw [List.intercalate_singleton]
      exact find?_first absent body
    | cons next rest =>
      obtain ⟨nextAbsent,nextFilled⟩ := clear next (by simp)
      have later := ih (by simp) fun other member => clear other (List.mem_cons_of_mem _ member)
      obtain ⟨x,next,rfl⟩ := List.exists_cons_of_ne_nil nextFilled
      obtain ⟨y,shape⟩ : ∃ y, [c,e].intercalate ((x::next)::rest)++[c,e,c,e]++body = x::y := by
        cases rest with
        | nil => exact ⟨_,by rw [List.intercalate_singleton]; rfl⟩
        | cons other rest => exact ⟨_,by rw [List.intercalate_cons_cons]; rfl⟩
      have first : c ≠ x := fun same => nextAbsent (same ▸ List.mem_cons_self)
      have here : find? [c,e,c,e] (c::e::x::y) = some (([c,e].intercalate ((x::next)::rest)).length+2) := by
        have notHere : ¬ [c,e,c,e].isPrefixOf (c::e::x::y) = true := by
          simp [List.isPrefixOf_cons_cons,first]
        have notNext : ¬ [c,e,c,e].isPrefixOf (e::x::y) = true := fun front => apart (isFront_head front).symm
        rw [find?,if_neg notHere,find?,if_neg notNext,← shape,later]
        rfl
      have whole : [c,e].intercalate (line::(x::next)::rest)++[c,e,c,e]++body = line++(c::e::x::y) := by
        rw [List.intercalate_cons_cons,← shape]
        simp
      rw [whole,find?_behind absent here,List.intercalate_cons_cons]
      simp only [List.length_append,List.length_cons,List.length_nil,Option.some.injEq]
      omega

end Foundation
