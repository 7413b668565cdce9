import CoStream.DataBufferCopies

namespace CoStream.DataBufferDeepCopy
open Foundation DataBuffer DataBufferCopies

variable {b next twin target : DataBuffer} {operation : Operation} {operations : List Operation}
  {answers : List Answer} {inputData : List UInt8} {size : Nat}

-- Everything a program can make of the class: constructions, calls, the setters
-- of the three flags and copies of any of these.
inductive Reachable : DataBuffer → Prop where
  | created {size : Nat} {b : DataBuffer} : create size = .ok b → Reachable b
  | performed {b next : DataBuffer} {operation : Operation} {answers : List Answer} :
      Reachable b → b.perform operation = .ok (next,answers) → Reachable next
  | flagged {b : DataBuffer} (sentFlag : Bool) (dstIp : List UInt8) (dstPort : UInt16) :
      Reachable b → Reachable {b with sentFlag,dstIp,dstPort}
  | copied {b next : DataBuffer} : Reachable b → b.copy = .ok next → Reachable next
  | assigned {target b next : DataBuffer} :
      Reachable target → Reachable b → target.assign b = .ok next → Reachable next

-- What a holder of two buffers can compare without changing them.
structure SameContents (b twin : DataBuffer) : Prop where
  sentFlag : twin.sentFlag = b.sentFlag
  dstIp : twin.dstIp = b.dstIp
  dstPort : twin.dstPort = b.dstPort
  dataLen : twin.dataLen = b.dataLen
  data : twin.data = b.data

-- Every further sequence of calls that is defined on the one is defined on the
-- other, answers the same and leads to the same contents.
def SameBehaviour (b twin : DataBuffer) : Prop :=
  ∀ operations final answers, (machine b).run operations = .ok (final,answers) →
    ∃ last, (machine twin).run operations = .ok (last,answers) ∧ SameContents final last

def Duplicates (b : DataBuffer) (made : Except Fault DataBuffer) : Prop :=
  ∃ twin, made = .ok twin ∧ SameContents b twin ∧ SameBehaviour b twin

def DeepCopied (b : DataBuffer) : Prop :=
  Duplicates b b.copy ∧ ∀ target, Reachable target → Duplicates b (target.assign b)

-- The copy takes the first `dataLen` bytes of the block, wherever the live ones
-- are. Nothing is lost only if no later byte that can come into view has ever
-- been written: one up to the tail, or one of the reserve.
structure FrontOnly (b : DataBuffer) : Prop where
  live : 0 ≤ b.dataLen
  blank : ∀ i : Nat, b.dataLen ≤ i → (i : Int) < b.end_ ∨ i < preReserveHeaderSize → b.buffer.cell i = none

theorem assign_copy (target input : DataBuffer) : target.assign input = input.copy := rfl

-- Beyond the positions, the block is never larger than the constructor's formula.
structure Sized (b : DataBuffer) : Prop extends Placed b where
  formula : b.buffer.capacity ≤ b.bufferSize+200
  unwrapped : b.bufferSize+200 < 2^64

theorem capacity_formula (unwrapped : size+200 < 2^64) : toSize (size+preReserveHeaderSize) = size+200 := by
  simp only [preReserveHeaderSize]
  rw [toSize_fits (by omega) (by omega)]
  omega

theorem copy_iff (sized : Sized b) : b.copy = .ok twin ↔ 0 ≤ b.dataLen ∧
    twin = {b with buffer := (Block.allocate (b.bufferSize+200)).store 0 (b.buffer.view 0 b.dataLen.toNat)} := by
  have start := sized.startNonneg
  have ends := sized.endsAt
  have inside := sized.inside
  have formula := sized.formula
  unfold copy
  rw [capacity_formula sized.unwrapped]
  constructor
  · intro made
    obtain ⟨cells,loaded,later⟩ := bind_ok.mp made
    obtain ⟨buffer,stored,same⟩ := bind_ok.mp later
    obtain ⟨⟨-,live,-⟩,rfl⟩ := Block.load_iff.mp loaded
    obtain ⟨-,rfl⟩ := Block.copyIn_iff.mp stored
    cases same
    exact ⟨live,rfl⟩
  · rintro ⟨live,rfl⟩
    refine bind_ok.mpr ⟨_,Block.load_iff.mpr ⟨⟨Int.le_refl 0,live,by omega⟩,rfl⟩,bind_ok.mpr ⟨_,Block.copyIn_iff.mpr ?_,rfl⟩⟩
    refine ⟨⟨Int.le_refl 0,?_⟩,rfl⟩
    rw [Block.length_view,Block.capacity_allocate]
    omega

theorem copy_sized (sized : Sized b) (made : b.copy = .ok next) : Sized next := by
  have inside := sized.inside
  have formula := sized.formula
  obtain ⟨live,rfl⟩ := (copy_iff sized).mp made
  have wide : b.buffer.capacity ≤ ((Block.allocate (b.bufferSize+200)).store 0
      (b.buffer.view 0 b.dataLen.toNat)).capacity := formula
  refine ⟨⟨sized.startNonneg,sized.endsAt,?_,?_,?_,?_,sized.unwrapped,sized.endFits⟩,Nat.le_refl _,sized.unwrapped⟩
  · dsimp only
    omega
  · exact Nat.le_trans sized.sized wide
  · exact Nat.le_trans sized.reserve wide
  · intro small
    change b.bufferSize+200 < 400
    dsimp only at small
    omega

theorem append_sized (sized : Sized b) (appended : b.appendData inputData = .ok (next,total)) : Sized next := by
  have placed := append_placed sized.toPlaced appended
  have kept : next.bufferSize = b.bufferSize ∧ next.buffer.capacity = b.buffer.capacity ∨
      next.buffer.capacity = next.bufferSize ∧ next.bufferSize < 2^31 := by
    by_cases empty : inputData = []
    · rw [appendData,if_pos empty] at appended
      cases appended
      exact .inl ⟨rfl,rfl⟩
    by_cases beyond : Beyond b inputData.length
    · by_cases crowded : Crowded b inputData.length
      · rw [appendData_crowded empty beyond crowded] at appended
        obtain ⟨room,length,_,_,_,_,size,capacity⟩ := grow_result appended
        obtain ⟨-,least,most,-⟩ := newLen_bounds length
        refine .inr ⟨capacity.trans size.symm,?_⟩
        rw [size,toSize_fits (by omega) (by omega)]
        omega
      · rw [appendData_spare empty beyond crowded] at appended
        obtain ⟨_,_,_,_,size,capacity⟩ := compact_result appended
        exact .inl ⟨size,capacity⟩
    · rw [appendData_near empty beyond] at appended
      obtain ⟨_,_,_,_,size,capacity⟩ := inPlace_result appended
      exact .inl ⟨size,capacity⟩
  have formula := sized.formula
  have unwrapped := sized.unwrapped
  rcases kept with ⟨size,capacity⟩ | ⟨capacity,small⟩
  · exact ⟨placed,by omega,by omega⟩
  · exact ⟨placed,by omega,by omega⟩

theorem reset_sized (sized : Sized b) : Sized b.reset :=
  ⟨reset_placed sized.toPlaced,sized.formula,sized.unwrapped⟩

theorem perform_sized (sized : Sized b) (performed : b.perform operation = .ok (next,answers)) : Sized next := by
  cases operation with
  | appendData inputData =>
    obtain ⟨⟨reached,total⟩,appended,same⟩ := bind_ok.mp performed
    cases same
    exact append_sized sized appended
  | consumeData consumeLen =>
    obtain ⟨⟨reached,front⟩,consumed,same⟩ := bind_ok.mp performed
    cases same
    have placed := consume_placed sized.toPlaced consumed
    rcases consume_result consumed with ⟨rfl,-⟩ | ⟨-,-,rfl⟩
    · exact sized
    · by_cases emptied : b.dataLen-consumeLen = 0
      · rw [if_pos emptied]
        exact reset_sized sized
      · rw [if_neg emptied] at placed ⊢
        exact ⟨placed,sized.formula,sized.unwrapped⟩
  | reset =>
    cases performed
    exact reset_sized sized

theorem reachable_sized (reachable : Reachable b) : Sized b := by
  induction reachable with
  | created made =>
    obtain ⟨size,_,_,_,capacity,unwrapped⟩ := create_result made
    exact ⟨create_placed made,by omega,by omega⟩
  | performed _ performed ih => exact perform_sized ih performed
  | flagged sentFlag dstIp dstPort _ ih =>
    exact ⟨⟨ih.startNonneg,ih.endsAt,ih.inside,ih.sized,ih.reserve,ih.narrow,ih.addressed,ih.endFits⟩,ih.formula,ih.unwrapped⟩
  | copied _ made ih => exact copy_sized ih made
  | assigned _ _ made _ ih => exact copy_sized ih made

-- The positions the block can be seen at: up to the tail, and the reserve.
def reach (b : DataBuffer) : Nat := max b.end_.toNat preReserveHeaderSize

-- The relation two buffers with one history keep: the same in everything but
-- the block, the second block no smaller, and the same cells in reach.
structure Backs (b : DataBuffer) (block : Block UInt8) : Prop where
  placed : Placed b
  room : b.buffer.capacity ≤ block.capacity
  agree : Block.Agree (reach b) b.buffer block

def Twins (b twin : DataBuffer) : Prop := ∃ block, twin = {b with buffer:=block} ∧ Backs b block

theorem backs_view (backs : Backs b block) :
    block.view b.start.toNat b.dataLen.toNat = b.buffer.view b.start.toNat b.dataLen.toNat := by
  have start := backs.placed.startNonneg
  have ends := backs.placed.endsAt
  by_cases live : 0 ≤ b.dataLen
  · exact (backs.agree.view (by unfold reach; omega)).symm
  · have empty : b.dataLen.toNat = 0 := by omega
    rw [empty]
    rfl

theorem twins_contents (twins : Twins b twin) : SameContents b twin := by
  obtain ⟨block,rfl,backs⟩ := twins
  exact ⟨rfl,rfl,rfl,rfl,backs_view backs⟩

theorem load_twin {start count : Int} {one two : Block UInt8} (agree : Block.Agree limit one two)
    (within : start+count ≤ limit) (room : one.capacity ≤ two.capacity) (loaded : one.load start count = .ok cells) :
    two.load start count = .ok cells := by
  obtain ⟨⟨low,count,inside⟩,rfl⟩ := Block.load_iff.mp loaded
  exact Block.load_iff.mpr ⟨⟨low,count,by omega⟩,(agree.view (by omega)).symm⟩

theorem copyIn_twin {start : Int} {one two : Block UInt8} (room : one.capacity ≤ two.capacity)
    (stored : one.copyIn start cells = .ok filled) :
    filled = one.store start.toNat cells ∧ two.copyIn start cells = .ok (two.store start.toNat cells) := by
  obtain ⟨⟨low,inside⟩,rfl⟩ := Block.copyIn_iff.mp stored
  exact ⟨rfl,Block.copyIn_iff.mpr ⟨⟨low,by omega⟩,rfl⟩⟩

theorem inPlace_twins (backs : Backs b block) (placed : Placed next)
    (appended : b.appendInPlace inputData = .ok (next,total)) :
    ∃ following, appendInPlace {b with buffer:=block} inputData = .ok (following,total) ∧ Twins next following := by
  obtain ⟨filled,stored,later⟩ := bind_ok.mp appended
  obtain ⟨dataLen,summed,last⟩ := bind_ok.mp later
  obtain ⟨end_,ended,same⟩ := bind_ok.mp last
  obtain ⟨rfl,storedTwin⟩ := copyIn_twin backs.room stored
  cases same
  refine ⟨_,bind_ok.mpr ⟨_,storedTwin,bind_ok.mpr ⟨_,summed,bind_ok.mpr ⟨_,ended,rfl⟩⟩⟩,
    ⟨_,rfl,placed,backs.room,?_⟩⟩
  -- The tail moves by no more than the bytes that were stored.
  obtain ⟨-,moved⟩ := int_iff.mp ended
  have drift := toInt_le inputData.length
  have nonneg := (Block.copyIn_iff.mp stored).1.1
  have near := (backs.agree.less (show b.end_.toNat ≤ reach b by unfold reach; omega)).extend (inputData.map some)
  intro i below
  by_cases front : i < reach b
  · exact backs.agree.store _ _ i front
  · apply near
    simp only [reach] at front below
    rw [List.length_map]
    omega

theorem compact_twins (backs : Backs b block) (placed : Placed next)
    (appended : b.appendCompact inputData = .ok (next,total)) :
    ∃ following, appendCompact {b with buffer:=block} inputData = .ok (following,total) ∧ Twins next following := by
  obtain ⟨live,loaded,afterLive⟩ := bind_ok.mp appended
  obtain ⟨kept,keeps,afterKept⟩ := bind_ok.mp afterLive
  obtain ⟨moved,movedIn,afterMoved⟩ := bind_ok.mp afterKept
  obtain ⟨filled,stored,later⟩ := bind_ok.mp afterMoved
  obtain ⟨dataLen,summed,last⟩ := bind_ok.mp later
  obtain ⟨end_,ended,same⟩ := bind_ok.mp last
  have start := backs.placed.startNonneg
  have ends := backs.placed.endsAt
  obtain ⟨⟨-,nonneg,_⟩,whole⟩ := Block.load_iff.mp loaded
  have loadedTwin := load_twin backs.agree (by unfold reach; omega) backs.room loaded
  have length : (kept.length : Int) = b.dataLen := by
    rw [keepLive_same backs.placed nonneg live (by rw [← whole,Block.length_view]; omega)] at keeps
    cases keeps
    rw [← whole,Block.length_view]
    omega
  obtain ⟨rfl,movedTwin⟩ := copyIn_twin backs.room movedIn
  have room : (b.buffer.store (preReserveHeaderSize : Int).toNat kept).capacity ≤
      (block.store (preReserveHeaderSize : Int).toNat kept).capacity := backs.room
  obtain ⟨rfl,storedTwin⟩ := copyIn_twin room stored
  cases same
  refine ⟨_,bind_ok.mpr ⟨_,loadedTwin,bind_ok.mpr ⟨_,keeps,bind_ok.mpr ⟨_,movedTwin,bind_ok.mpr ⟨_,storedTwin,
    bind_ok.mpr ⟨_,summed,bind_ok.mpr ⟨_,ended,rfl⟩⟩⟩⟩⟩⟩,⟨_,rfl,placed,backs.room,?_⟩⟩
  obtain ⟨-,joined⟩ := int_iff.mp summed
  obtain ⟨-,tail⟩ := int_iff.mp ended
  have drift := toInt_le inputData.length
  have front : Block.Agree 200 b.buffer block := backs.agree.less (by simp only [reach,preReserveHeaderSize]; omega)
  have behind : ((preReserveHeaderSize : Int)+b.dataLen).toNat = 200+kept.length := by
    simp only [preReserveHeaderSize]
    omega
  have both := (front.extend kept).extend (inputData.map some)
  rw [← behind] at both
  apply both.less
  simp only [reach,preReserveHeaderSize,List.length_map] at tail ⊢
  omega

theorem grow_twins (backs : Backs b block) (placed : Placed next)
    (appended : b.appendGrow inputData = .ok (next,total)) :
    ∃ following, appendGrow {b with buffer:=block} inputData = .ok (following,total) ∧ Twins next following := by
  obtain ⟨joined,one,afterOne⟩ := bind_ok.mp appended
  obtain ⟨wanted,two,afterTwo⟩ := bind_ok.mp afterOne
  obtain ⟨room,three,afterThree⟩ := bind_ok.mp afterTwo
  obtain ⟨kept,loaded,afterKept⟩ := bind_ok.mp afterThree
  have start := backs.placed.startNonneg
  have ends := backs.placed.endsAt
  have loadedTwin := load_twin backs.agree (by unfold reach; omega) backs.room loaded
  -- Both go on in a new block of the same size.
  exact ⟨next,bind_ok.mpr ⟨_,one,bind_ok.mpr ⟨_,two,bind_ok.mpr ⟨_,three,bind_ok.mpr ⟨_,loadedTwin,afterKept⟩⟩⟩⟩,
    ⟨next.buffer,rfl,placed,Nat.le_refl _,fun _ _ => rfl⟩⟩

theorem append_twins (backs : Backs b block) (appended : b.appendData inputData = .ok (next,total)) :
    ∃ following, appendData {b with buffer:=block} inputData = .ok (following,total) ∧ Twins next following := by
  have placed := append_placed backs.placed appended
  by_cases empty : inputData = []
  · rw [appendData,if_pos empty] at appended
    cases appended
    exact ⟨_,if_pos empty,⟨block,rfl,backs⟩⟩
  by_cases beyond : Beyond b inputData.length
  · by_cases crowded : Crowded b inputData.length
    · rw [appendData_crowded empty beyond crowded] at appended
      rw [appendData_crowded (b := {b with buffer:=block}) empty beyond crowded]
      exact grow_twins backs placed appended
    · rw [appendData_spare empty beyond crowded] at appended
      rw [appendData_spare (b := {b with buffer:=block}) empty beyond crowded]
      exact compact_twins backs placed appended
  · rw [appendData_near empty beyond] at appended
    rw [appendData_near (b := {b with buffer:=block}) empty beyond]
    exact inPlace_twins backs placed appended

theorem reset_backs (backs : Backs b block) : Backs b.reset block :=
  ⟨reset_placed backs.placed,backs.room,backs.agree.less (by simp only [reach,DataBuffer.reset,preReserveHeaderSize]; omega)⟩

theorem consume_twins {front : Option Int} (backs : Backs b block) (consumed : b.consumeData consumeLen = .ok (next,front)) :
    ∃ following, consumeData {b with buffer:=block} consumeLen = .ok (following,front) ∧ Twins next following := by
  have placed := consume_placed backs.placed consumed
  unfold consumeData at consumed ⊢
  split at consumed
  · rename_i beyond
    cases consumed
    exact ⟨_,if_pos beyond,⟨block,rfl,backs⟩⟩
  rename_i within
  rw [if_neg within]
  obtain ⟨start,moved,later⟩ := bind_ok.mp consumed
  split at later
  · rename_i back
    cases later
    exact ⟨_,bind_ok.mpr ⟨start,moved,if_pos back⟩,⟨block,rfl,backs⟩⟩
  rename_i forward
  obtain ⟨dataLen,left,last⟩ := bind_ok.mp later
  cases last
  by_cases emptied : dataLen = 0
  · refine ⟨reset {b with buffer:=block},bind_ok.mpr ⟨start,moved,?_⟩,?_⟩
    · rw [if_neg forward]
      exact bind_ok.mpr ⟨dataLen,left,by simp only [if_pos emptied]; rfl⟩
    · rw [if_pos emptied]
      have same : Backs b.reset block := reset_backs backs
      exact ⟨block,rfl,same⟩
  · refine ⟨{b with buffer:=block,start,dataLen},bind_ok.mpr ⟨start,moved,?_⟩,?_⟩
    · rw [if_neg forward]
      exact bind_ok.mpr ⟨dataLen,left,by simp only [if_neg emptied]; rfl⟩
    · rw [if_neg emptied] at placed ⊢
      exact ⟨block,rfl,placed,backs.room,backs.agree⟩

theorem perform_twins (b twin : DataBuffer) (operation : Operation) (next : DataBuffer) (answers : List Answer)
    (twins : Twins b twin) (performed : b.perform operation = .ok (next,answers)) :
    ∃ following, twin.perform operation = .ok (following,answers) ∧ Twins next following := by
  obtain ⟨block,rfl,backs⟩ := twins
  cases operation with
  | appendData inputData =>
    obtain ⟨⟨reached,total⟩,appended,same⟩ := bind_ok.mp performed
    cases same
    obtain ⟨following,followed,twins⟩ := append_twins backs appended
    exact ⟨following,bind_ok.mpr ⟨_,followed,rfl⟩,twins⟩
  | consumeData consumeLen =>
    obtain ⟨⟨reached,front⟩,consumed,same⟩ := bind_ok.mp performed
    cases same
    obtain ⟨following,followed,twins⟩ := consume_twins backs consumed
    exact ⟨following,bind_ok.mpr ⟨_,followed,rfl⟩,twins⟩
  | reset =>
    cases performed
    exact ⟨_,rfl,block,rfl,reset_backs backs⟩

theorem twins_behaviour (twins : Twins b twin) : SameBehaviour b twin := by
  intro operations final answers ran
  obtain ⟨last,followed,related⟩ := (machine b).followed (machine twin) Twins perform_twins operations twins ran
  exact ⟨last,followed,twins_contents related⟩

-- The copy's block is the original's up to `dataLen` and unwritten behind.
theorem front_copied (sized : Sized b) (front : FrontOnly b) : ∃ twin, b.copy = .ok twin ∧ Twins b twin := by
  have live := front.live
  refine ⟨_,(copy_iff sized).mpr ⟨live,rfl⟩,_,rfl,sized.toPlaced,sized.formula,?_⟩
  intro i below
  unfold reach at below
  simp only [Block.store,Block.allocate,Block.length_view,Nat.zero_le,Nat.zero_add,Nat.sub_zero,true_and]
  by_cases covered : i < b.dataLen.toNat
  · rw [if_pos covered]
    simp [Block.view,covered]
  · rw [if_neg covered]
    exact front.blank i (by omega) (by omega)

-- The whole reach of a block can be brought into view by stepping back: as it
-- stands up to the tail, emptied up to the reserve.
def stepBack (b : DataBuffer) : List Operation := [.consumeData (-b.start)]
def emptied : List Operation := [.reset,.consumeData (-200)]

theorem stepBack_run (placed : Placed b) (live : 0 ≤ b.dataLen) (nonempty : 0 < b.end_) :
    (machine b).run (stepBack b) = .ok ({b with start:=0,dataLen:=b.end_},[.position (some 0)]) := by
  have start := placed.startNonneg
  have ends := placed.endsAt
  have fits := placed.endFits
  have within : ¬ -b.start > b.dataLen := by omega
  have moved : int (b.start+ -b.start) = .ok 0 := by
    rw [Int.add_right_neg]
    rfl
  have left : int (b.dataLen- -b.start) = .ok b.end_ := by
    rw [show b.dataLen- -b.start = b.end_ by omega]
    exact int_ok (by constructor <;> omega)
  have filled : ¬ b.end_ = 0 := by omega
  have consumed : b.consumeData (-b.start) = .ok ({b with start:=0,dataLen:=b.end_},some 0) := by
    refine (if_neg within).trans (bind_ok.mpr ⟨0,moved,(if_neg fun both => absurd both.2 (by decide)).trans ?_⟩)
    refine bind_ok.mpr ⟨b.end_,left,?_⟩
    simp only [if_neg filled,pure_ok]
  have performed : b.perform (.consumeData (-b.start)) = .ok ({b with start:=0,dataLen:=b.end_},[.position (some 0)]) :=
    bind_ok.mpr ⟨_,consumed,rfl⟩
  exact (machine b).runFrom_cons.mpr ⟨_,_,[],performed,rfl,rfl⟩

theorem emptied_run (b : DataBuffer) : (machine b).run emptied =
    .ok ({b with start:=0,dataLen:=200,end_:=200},[.nothing,.position (some 0)]) := rfl

theorem same_in_reach (one : Sized b) (two : Sized {b with buffer:=block}) (live : 0 ≤ b.dataLen)
    (same : SameBehaviour b {b with buffer:=block}) : Block.Agree (reach b) b.buffer block := by
  have low := one.startNonneg
  obtain ⟨last,ran,contents⟩ := same emptied _ _ (emptied_run b)
  rw [emptied_run] at ran
  cases ran
  have front : Block.Agree 200 b.buffer block := Block.agree_of_view contents.data.symm
  by_cases nonempty : 0 < b.end_
  · obtain ⟨last,ran,contents⟩ := same (stepBack b) _ _ (stepBack_run one.toPlaced live nonempty)
    have other : (machine {b with buffer:=block}).run (stepBack b) = _ := stepBack_run two.toPlaced live nonempty
    rw [other] at ran
    cases ran
    have tail : Block.Agree b.end_.toNat b.buffer block := Block.agree_of_view contents.data.symm
    intro i below
    by_cases early : i < 200
    · exact front i early
    · apply tail
      simp only [reach,preReserveHeaderSize] at below
      omega
  · apply front.less
    simp only [reach,preReserveHeaderSize]
    omega

theorem copy_front (sized : Sized b) (made : b.copy = .ok twin) (same : SameBehaviour b twin) : FrontOnly b := by
  have after := copy_sized sized made
  obtain ⟨live,rfl⟩ := (copy_iff sized).mp made
  have agree := same_in_reach sized after live same
  refine ⟨live,?_⟩
  intro i behind reached
  rw [agree i (by simp only [reach]; omega)]
  have outside : ¬ i < b.dataLen.toNat := by omega
  simp only [Block.store,Block.allocate,Block.length_view,Nat.zero_le,Nat.zero_add,true_and,if_neg outside]

-- A copy behaves like the original exactly when the bytes it leaves out had
-- never been written.
theorem deepCopied_iff (b : DataBuffer) (reachable : Reachable b) : DeepCopied b ↔ FrontOnly b := by
  have sized := reachable_sized reachable
  constructor
  · rintro ⟨⟨twin,made,-,same⟩,-⟩
    exact copy_front sized made same
  · intro front
    obtain ⟨twin,made,twins⟩ := front_copied sized front
    have duplicates : Duplicates b b.copy := ⟨twin,made,twins_contents twins,twins_behaviour twins⟩
    refine ⟨duplicates,?_⟩
    intro target _
    rw [assign_copy]
    exact duplicates

-- One byte, and a step back over the reserve: all that is in the block is live.
theorem deepCopied_steppedBack : ∃ fresh held b, create 100 = .ok fresh ∧
    fresh.perform (.appendData [97]) = .ok (held,[.length 1]) ∧
    held.perform (.consumeData (-200)) = .ok (b,[.position (some 0)]) ∧ b.dataLen = 201 ∧ DeepCopied b := by
  refine ⟨_,_,_,rfl,rfl,rfl,rfl,(deepCopied_iff _ ?_).mpr ⟨by decide,?_⟩⟩
  · exact .performed (.performed (.created (show create 100 = .ok _ from rfl))
      (show perform _ (.appendData [97]) = .ok (_,_) from rfl)) (show perform _ (.consumeData (-200)) = .ok (_,_) from rfl)
  · intro i behind reached
    change (201 : Int) ≤ i at behind
    change (i : Int) < 201 ∨ i < 200 at reached
    omega

-- One byte behind the reserve: the copy shows a byte that nobody wrote.
theorem oneByte_lost : ∃ fresh b answers twin, create 10240 = .ok fresh ∧ Reachable b ∧
    fresh.perform (.appendData [97]) = .ok (b,answers) ∧ b.copy = .ok twin ∧
      b.data = [some 97] ∧ twin.data = [none] ∧ ¬ DeepCopied b := by
  refine ⟨_,_,_,_,rfl,.performed (.created (show create 10240 = .ok _ from rfl))
    (show perform _ (.appendData [97]) = .ok (_,_) from rfl),rfl,rfl,rfl,rfl,?_⟩
  rintro ⟨⟨twin,made,contents,-⟩,-⟩
  cases made
  have lost := contents.data
  revert lost
  decide

end CoStream.DataBufferDeepCopy
