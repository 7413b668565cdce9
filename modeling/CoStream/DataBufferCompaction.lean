import CoStream.DataBufferCopies

namespace CoStream.DataBufferCompaction
open Foundation DataBuffer DataBufferCopies

variable {b next : DataBuffer} {inputData : List UInt8} {operation : Operation} {answers : List Answer} {size : Nat}

-- The compaction that copies within the block, without a temporary one.
def Direct (b : DataBuffer) (inputData : List UInt8) : Prop :=
  inputData ≠ [] ∧ Beyond b inputData.length ∧ ¬ Crowded b inputData.length ∧ b.dataLen < b.start

theorem direct_copies (direct : Direct b inputData) (live : List (Option UInt8)) :
    b.appendData inputData = b.appendCompact inputData ∧ b.keepLive live = .ok live := by
  obtain ⟨nonempty,beyond,spare,short⟩ := direct
  exact ⟨appendData_spare nonempty beyond spare,if_neg (by omega)⟩

-- What `memcpy` asks of the two ranges of that copy.
def RangesApart (b : DataBuffer) : Prop :=
  b.start+b.dataLen ≤ preReserveHeaderSize ∨ preReserveHeaderSize+b.dataLen ≤ b.start

instance : Decidable (Direct b inputData) := inferInstanceAs (Decidable (_ ∧ _ ∧ _ ∧ _))
instance : Decidable (RangesApart b) := inferInstanceAs (Decidable (_ ∨ _))

def CopiesApart (b : DataBuffer) (operation : Operation) : Prop :=
  ∀ inputData, operation = .appendData inputData → Direct b inputData → 0 < b.dataLen → RangesApart b

-- How many bytes the front has passed, steps back counted off, since the
-- buffer was last laid at the reserve.
def passedBy (b : DataBuffer) (passed : Int) : Operation → Int
  | .appendData inputData => if inputData ≠ [] ∧ Beyond b inputData.length then 0 else passed
  | .consumeData consumeLen =>
    if consumeLen > b.dataLen ∨ consumeLen < 0 ∧ preReserveHeaderSize+passed+consumeLen < 0 then passed
    else if consumeLen = b.dataLen then 0 else passed+consumeLen
  | .reset => 0

def passing (fresh : DataBuffer) : Machine (DataBuffer × Int) Operation Answer Fault :=
  (machine fresh).recording passedBy 0

theorem passedBy_front (front : b.start = 200+passed) (performed : b.perform operation = .ok (next,answers)) :
    next.start = 200+passedBy b passed operation := by
  cases operation with
  | appendData inputData =>
    obtain ⟨⟨reached,total⟩,appended,same⟩ := bind_ok.mp performed
    cases same
    by_cases empty : inputData = []
    · rw [appendData,if_pos empty] at appended
      cases appended
      simpa [passedBy,empty] using front
    · obtain ⟨-,-,start⟩ := append_result empty appended
      rw [start]
      simp only [passedBy,empty,ne_eq,not_false_eq_true,true_and]
      split
      · rfl
      · exact front
  | consumeData consumeLen =>
    obtain ⟨⟨reached,position⟩,consumed,same⟩ := bind_ok.mp performed
    cases same
    have same : b.start+consumeLen < 0 ↔ preReserveHeaderSize+passed+consumeLen < 0 := by
      simp only [preReserveHeaderSize]
      omega
    have result := consume_result consumed
    rw [same] at result
    simp only [passedBy]
    rcases result with ⟨rfl,refused⟩ | ⟨within,forward,rfl⟩
    · rw [if_pos refused]
      exact front
    · rw [if_neg (not_or.mpr ⟨within,forward⟩)]
      by_cases drained : consumeLen = b.dataLen
      · rw [if_pos drained,if_pos (by omega)]
        rfl
      · rw [if_neg drained,if_neg (by omega)]
        change b.start+consumeLen = 200+(passed+consumeLen)
        omega
  | reset =>
    cases performed
    rfl

theorem passing_front (created : create size = .ok fresh)
    (ran : (passing fresh).run operations = .ok ((b,passed),answers)) : b.start = 200+passed := by
  refine (passing fresh).history (fun _ _ s => s.1.start = 200+s.2) ?_ ?_ ran
  · obtain ⟨-,-,start,-⟩ := create_result created
    exact start
  · rintro _ _ ⟨b,passed⟩ operation ⟨next,later⟩ answers front stepped
    obtain ⟨performed,rfl⟩ := ((machine fresh).recording_step).mp stepped
    exact passedBy_front front performed

-- A direct compaction of a nonempty buffer comes after at least as many bytes
-- have gone from the front as are left, or after the front has stepped back
-- over all that is there.
def Passed (s : DataBuffer × Int) (operation : Operation) : Prop :=
  ∀ inputData, operation = .appendData inputData → Direct s.1 inputData → 0 < s.1.dataLen →
    s.1.dataLen ≤ s.2 ∨ s.2 ≤ -s.1.dataLen

theorem apart_iff (front : b.start = 200+passed) (operation : Operation) :
    CopiesApart b operation ↔ Passed (b,passed) operation := by
  have ranges : RangesApart b ↔ b.dataLen ≤ passed ∨ passed ≤ -b.dataLen := by
    simp only [RangesApart,preReserveHeaderSize]
    omega
  constructor
  · intro apart inputData same direct live
    exact ranges.mp (apart inputData same direct live)
  · intro gone inputData same direct live
    exact ranges.mpr (gone inputData same direct live)

theorem copies_apart_iff (size : Nat) (fresh : DataBuffer) (created : create size = .ok fresh)
    (operations : List Operation) :
    (machine fresh).Guarded (fun _ => CopiesApart) operations ↔
      (passing fresh).Guarded (fun _ => Passed) operations := by
  constructor
  · rintro apart before operation after shape ⟨b,passed⟩ answers ran
    have plain := ((machine fresh).recording_run).mpr ⟨passed,ran⟩
    exact (apart_iff (passing_front created ran) operation).mp (apart before operation after shape b answers plain)
  · intro gone before operation after shape b answers ran
    obtain ⟨passed,recorded⟩ := ((machine fresh).recording_run).mp ran
    exact (apart_iff (passing_front created recorded) operation).mpr
      (gone before operation after shape (b,passed) answers recorded)

-- Ninety bytes of which sixty have been read, and a hundred that do not fit
-- behind them: the other thirty are copied sixty bytes to the front.
def behindSixty : List Operation :=
  [.appendData (List.replicate 90 1),.consumeData 60,.appendData (List.replicate 100 2)]

theorem copies_apart_behindSixty : ∃ fresh, create 500 = .ok fresh ∧
    (∃ b answers, (machine fresh).run (behindSixty.take 2) = .ok (b,answers) ∧ Direct b (List.replicate 100 2) ∧
      b.dataLen = 30 ∧ b.start = 260) ∧
    ((machine fresh).Guarded (fun _ => CopiesApart) behindSixty ↔
      (passing fresh).Guarded (fun _ => Passed) behindSixty) :=
  ⟨_,rfl,⟨_,_,rfl,by decide,rfl,rfl⟩,copies_apart_iff 500 _ rfl behindSixty⟩

-- Fifty bytes, none of them read, are still at the reserve when the next
-- hundred no longer fit behind them: they are copied onto themselves.
def behindFifty : List Operation := [.appendData (List.replicate 50 1),.appendData (List.replicate 100 2)]

theorem behindFifty_overlaps : 200 ≤ 500 ∧ ∃ fresh, create 500 = .ok fresh ∧
    ∃ b answers, (machine fresh).run (behindFifty.take 1) = .ok (b,answers) ∧
      Direct b (List.replicate 100 2) ∧ 0 < b.dataLen ∧ ¬ RangesApart b ∧
      ¬ (machine fresh).Guarded (fun _ => CopiesApart) behindFifty := by
  refine ⟨by decide,_,rfl,_,_,rfl,by decide,by decide,by decide,?_⟩
  intro apart
  exact absurd (apart [_] _ [] rfl _ _ rfl _ rfl (by decide) (by decide)) (by decide)

end CoStream.DataBufferCompaction
