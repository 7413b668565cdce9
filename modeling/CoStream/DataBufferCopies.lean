import CoStream.DataBuffer

namespace CoStream.DataBufferCopies
open Foundation DataBuffer

variable {b next : DataBuffer} {inputData : List UInt8} {operation : Operation} {answers : List Answer} {size : Nat}

-- The two guards of `appendData`: the tail would pass the size less the
-- reserve, and the live bytes would fill it even from the front.
def Beyond (b : DataBuffer) (len : Nat) : Prop :=
  toSize (b.end_+len) > toSize (b.bufferSize-preReserveHeaderSize)
def Crowded (b : DataBuffer) (len : Nat) : Prop :=
  toSize (b.dataLen+len) ≥ toSize (b.bufferSize-preReserveHeaderSize)
instance : Decidable (Beyond b len) := inferInstanceAs (Decidable (_ > _))
instance : Decidable (Crowded b len) := inferInstanceAs (Decidable (_ ≥ _))

theorem appendData_near (nonempty : inputData ≠ []) (near : ¬ Beyond b inputData.length) :
    b.appendData inputData = b.appendInPlace inputData := by
  unfold appendData
  rw [if_neg nonempty]
  exact if_neg near

theorem appendData_crowded (nonempty : inputData ≠ []) (beyond : Beyond b inputData.length)
    (crowded : Crowded b inputData.length) : b.appendData inputData = b.appendGrow inputData := by
  unfold appendData
  rw [if_neg nonempty]
  exact (if_pos beyond).trans (if_pos crowded)

theorem appendData_spare (nonempty : inputData ≠ []) (beyond : Beyond b inputData.length)
    (spare : ¬ Crowded b inputData.length) : b.appendData inputData = b.appendCompact inputData := by
  unfold appendData
  rw [if_neg nonempty]
  exact (if_pos beyond).trans (if_neg spare)

-- What holds of every buffer that a run of the operations leaves behind,
-- whatever its construction size.
structure Placed (b : DataBuffer) : Prop where
  startNonneg : 0 ≤ b.start
  endsAt : b.end_ = b.start+b.dataLen
  inside : b.end_ ≤ b.buffer.capacity
  sized : b.bufferSize ≤ b.buffer.capacity
  reserve : 200 ≤ b.buffer.capacity
  narrow : b.bufferSize < 200 → b.buffer.capacity < 400
  addressed : b.buffer.capacity < 2^64
  endFits : b.end_ < 2^31

theorem create_result (created : create size = .ok b) :
    b.bufferSize = size ∧ b.dataLen = 0 ∧ b.start = 200 ∧ b.end_ = 200 ∧ b.buffer.capacity = size+200 ∧
      size+200 < 2^64 := by
  by_cases covered : size ≤ toSize (size+preReserveHeaderSize)
  · have unwrapped : size+200 < 2^64 := by
      unfold toSize preReserveHeaderSize at covered
      by_contra wide
      omega
    have capacity : toSize (size+preReserveHeaderSize) = size+200 := by
      rw [toSize_fits (by omega) (by simp only [preReserveHeaderSize]; omega)]
      simp only [preReserveHeaderSize]
      omega
    simp only [create,capacity,show size ≤ size+200 by omega,if_true,Except.ok.injEq] at created
    rw [← created]
    exact ⟨rfl,rfl,rfl,rfl,rfl,unwrapped⟩
  · simp only [create,covered,if_false] at created
    cases created

theorem create_placed (created : create size = .ok b) : Placed b := by
  obtain ⟨sized,empty,start,tail,capacity,unwrapped⟩ := create_result created
  exact ⟨by omega,by omega,by omega,by omega,by omega,by omega,by omega,by omega⟩

-- The length of the new block as a growth computes it, all of it in `int`.
def newLen (b : DataBuffer) (len : Nat) : Except Fault Int := do
  let joined ← int (b.dataLen+toInt len)
  let wanted ← int (joined+extraLen)
  getNewSize wanted

theorem getNewSize_bounds {room : Int} (sized : getNewSize wanted = .ok room) (fits : FitsInt wanted) :
    wanted ≤ room ∧ 51200 ≤ room ∧ room < 2^31 ∧ (room ≤ 512000 ∨ room = wanted+10240) := by
  obtain ⟨-,high⟩ := fits
  unfold getNewSize at sized
  split at sized
  · cases sized
    omega
  split at sized
  · cases sized
    omega
  split at sized
  · cases sized
    omega
  split at sized
  · cases sized
    omega
  · obtain ⟨⟨low,top⟩,rfl⟩ := int_iff.mp sized
    omega

theorem newLen_bounds {room : Int} (sized : newLen b len = .ok room) :
    b.dataLen+toInt len+10240 ≤ room ∧ 51200 ≤ room ∧ room < 2^31 ∧
      (room ≤ 512000 ∨ room = b.dataLen+toInt len+20480) := by
  obtain ⟨joined,first,later⟩ := bind_ok.mp sized
  obtain ⟨wanted,second,third⟩ := bind_ok.mp later
  obtain ⟨-,rfl⟩ := int_iff.mp first
  obtain ⟨fits,rfl⟩ := int_iff.mp second
  have bounds := getNewSize_bounds third fits
  simp only [extraLen] at bounds
  omega

-- Short of 2 GiB, with room for the growth, the new length is an `int`.
theorem newLen_defined {len : Nat} (low : 0 ≤ b.dataLen) (short : b.dataLen+len < 2^31-20480) :
    ∃ room, newLen b len = .ok room := by
  have exactly : toInt len = len := toInt_fits (by constructor <;> omega)
  unfold newLen
  rw [exactly,int_ok (by constructor <;> omega),ok_bind,int_ok (by simp only [extraLen]; constructor <;> omega),ok_bind]
  cases sized : getNewSize (b.dataLen+len+extraLen) with
  | ok room => exact ⟨room,rfl⟩
  | error fault =>
    unfold getNewSize extraLen at sized
    split at sized
    · cases sized
    split at sized
    · cases sized
    split at sized
    · cases sized
    split at sized
    · cases sized
    · rw [int_ok (by constructor <;> omega)] at sized
      cases sized

-- The positions that an append in place, and one behind a compaction, end with.
theorem inPlace_defined : (∃ result, b.appendInPlace inputData = .ok result) ↔
    (0 ≤ b.end_ ∧ b.end_+inputData.length ≤ b.buffer.capacity) ∧
      FitsInt (b.dataLen+toInt inputData.length) ∧ FitsInt (b.end_+toInt inputData.length) := by
  constructor
  · rintro ⟨result,appended⟩
    obtain ⟨filled,stored,later⟩ := bind_ok.mp appended
    obtain ⟨dataLen,summed,last⟩ := bind_ok.mp later
    obtain ⟨end_,ended,-⟩ := bind_ok.mp last
    obtain ⟨within,-⟩ := Block.copyIn_iff.mp stored
    rw [List.length_map] at within
    exact ⟨within,(int_iff.mp summed).1,(int_iff.mp ended).1⟩
  · rintro ⟨within,sum,tail⟩
    unfold appendInPlace
    rw [Block.copyIn_iff.mpr ⟨by rw [List.length_map]; exact within,rfl⟩,ok_bind,int_ok sum,ok_bind,int_ok tail]
    exact ⟨_,rfl⟩

theorem keepLive_same (placed : Placed b) (low : 0 ≤ b.dataLen) (cells : List (Option UInt8))
    (length : cells.length = b.dataLen) : b.keepLive cells = .ok cells := by
  obtain ⟨count,same⟩ := Int.eq_ofNat_of_zero_le low
  have count' : cells.length = count := by omega
  subst count'
  have short := placed.addressed
  have start := placed.startNonneg
  have ends := placed.endsAt
  have inside := placed.inside
  have capacity : toSize (cells.length : Int) = cells.length := by rw [toSize_fits (by omega) (by omega)]; omega
  have stored := Block.copyIn_ok (Block.allocate cells.length) 0 cells (by simp)
  have loaded := Block.load_ok ((Block.allocate cells.length).store 0 cells) 0 cells.length (by simp)
  rw [Block.view_store] at loaded
  simp only [Int.natCast_zero] at stored loaded
  unfold keepLive
  rw [same]
  split
  · rw [capacity,stored,ok_bind,loaded]
  · rfl

theorem live_loaded (placed : Placed b) (low : 0 ≤ b.dataLen) :
    b.buffer.load b.start b.dataLen = .ok (b.buffer.view b.start.toNat b.dataLen.toNat) ∧
      (b.buffer.view b.start.toNat b.dataLen.toNat).length = b.dataLen := by
  have start := placed.startNonneg
  have ends := placed.endsAt
  have inside := placed.inside
  refine ⟨Block.load_iff.mpr ⟨⟨start,low,by omega⟩,rfl⟩,?_⟩
  rw [Block.length_view]
  omega

theorem compact_defined (placed : Placed b) : (∃ result, b.appendCompact inputData = .ok result) ↔
    (0 ≤ b.dataLen ∧ 200+b.dataLen+inputData.length ≤ b.buffer.capacity) ∧
      FitsInt (b.dataLen+toInt inputData.length) ∧ FitsInt (200+(b.dataLen+toInt inputData.length)) := by
  constructor
  · rintro ⟨result,appended⟩
    obtain ⟨live,took,afterLive⟩ := bind_ok.mp appended
    obtain ⟨kept,held,afterKept⟩ := bind_ok.mp afterLive
    obtain ⟨moved,movedIn,afterMoved⟩ := bind_ok.mp afterKept
    obtain ⟨filled,stored,later⟩ := bind_ok.mp afterMoved
    obtain ⟨dataLen,summed,last⟩ := bind_ok.mp later
    obtain ⟨end_,ended,-⟩ := bind_ok.mp last
    obtain ⟨-,rfl⟩ := Block.copyIn_iff.mp movedIn
    obtain ⟨⟨-,inside⟩,-⟩ := Block.copyIn_iff.mp stored
    obtain ⟨sum,rfl⟩ := int_iff.mp summed
    have low := (Block.load_iff.mp took).1.2.1
    simp only [List.length_map,Block.capacity_store,preReserveHeaderSize] at inside
    exact ⟨⟨low,inside⟩,sum,(int_iff.mp ended).1⟩
  · rintro ⟨⟨low,inside⟩,sum,tail⟩
    obtain ⟨loaded,length⟩ := live_loaded placed low
    unfold appendCompact
    rw [loaded,ok_bind,keepLive_same placed low _ length,ok_bind]
    rw [Block.copyIn_iff.mpr ⟨⟨Int.natCast_nonneg _,by rw [length]; simp only [preReserveHeaderSize]; omega⟩,rfl⟩,ok_bind]
    rw [Block.copyIn_iff.mpr ⟨⟨by simp only [preReserveHeaderSize]; omega,
      by simp only [List.length_map,Block.capacity_store,preReserveHeaderSize]; exact inside⟩,rfl⟩,ok_bind,int_ok sum,ok_bind,
      int_ok (show FitsInt ((preReserveHeaderSize : Int)+(b.dataLen+toInt inputData.length)) from tail)]
    exact ⟨_,rfl⟩

theorem appendGrow_newLen : b.appendGrow inputData = (do
    let room ← newLen b inputData.length
    let kept ← b.buffer.load b.start b.dataLen
    let moved ← (Block.allocate (toSize room)).copyIn preReserveHeaderSize kept
    let filled ← moved.copyIn (preReserveHeaderSize+b.dataLen) (inputData.map some)
    let dataLen ← int (b.dataLen+toInt inputData.length)
    let end_ ← int (preReserveHeaderSize+dataLen)
    return ({b with buffer:=filled,bufferSize:=toSize room,dataLen,start:=preReserveHeaderSize,end_},dataLen)) := by
  simp only [appendGrow,newLen,bind_assoc]

-- A length that the conversion to `int` cut would not be in the new size.
theorem grow_defined (placed : Placed b) : (∃ result, b.appendGrow inputData = .ok result) ↔
    0 ≤ b.dataLen ∧ b.dataLen+inputData.length < 2^31-20480 := by
  rw [appendGrow_newLen]
  constructor
  · rintro ⟨result,appended⟩
    obtain ⟨room,sized,afterRoom⟩ := bind_ok.mp appended
    obtain ⟨kept,took,afterKept⟩ := bind_ok.mp afterRoom
    obtain ⟨moved,movedIn,afterMoved⟩ := bind_ok.mp afterKept
    obtain ⟨filled,stored,-⟩ := bind_ok.mp afterMoved
    obtain ⟨covers,least,most,bound⟩ := newLen_bounds sized
    have capacity : (toSize room : Int) = room := by rw [toSize_fits (by omega) (by omega)]; omega
    have low := (Block.load_iff.mp took).1.2.1
    obtain ⟨-,rfl⟩ := Block.copyIn_iff.mp movedIn
    obtain ⟨⟨-,inside⟩,-⟩ := Block.copyIn_iff.mp stored
    simp only [List.length_map,Block.capacity_store,Block.capacity_allocate,preReserveHeaderSize,capacity] at inside
    have short : inputData.length < 2^31 := by
      by_contra long
      have wraps := toInt_wraps (x := inputData.length) (by omega)
      omega
    rw [toInt_fits (by constructor <;> omega)] at bound
    omega
  · rintro ⟨low,short⟩
    have exactly : toInt inputData.length = inputData.length := toInt_fits (by constructor <;> omega)
    obtain ⟨room,sized⟩ := newLen_defined low short
    obtain ⟨covers,least,most,-⟩ := newLen_bounds sized
    rw [exactly] at covers
    have capacity : (toSize room : Int) = room := by rw [toSize_fits (by omega) (by omega)]; omega
    obtain ⟨loaded,length⟩ := live_loaded placed low
    rw [sized,ok_bind,loaded,ok_bind]
    rw [Block.copyIn_iff.mpr ⟨⟨Int.natCast_nonneg _,by
      rw [length,Block.capacity_allocate,capacity]; simp only [preReserveHeaderSize]; omega⟩,rfl⟩,ok_bind]
    rw [Block.copyIn_iff.mpr ⟨⟨by simp only [preReserveHeaderSize]; omega,by
      simp only [List.length_map,Block.capacity_store,Block.capacity_allocate,preReserveHeaderSize,capacity]; omega⟩,rfl⟩,ok_bind]
    rw [exactly,int_ok (by constructor <;> omega),ok_bind,int_ok (by simp only [preReserveHeaderSize]; constructor <;> omega)]
    exact ⟨_,rfl⟩

-- In place the front of the bytes stays; otherwise they are laid anew behind
-- the reserve, in the same block or in one of the new length.
theorem inPlace_result (appended : b.appendInPlace inputData = .ok (next,total)) :
    next.start = b.start ∧ next.dataLen = b.dataLen+toInt inputData.length ∧
      next.end_ = b.end_+toInt inputData.length ∧ next.end_ < 2^31 ∧ next.bufferSize = b.bufferSize ∧
      next.buffer.capacity = b.buffer.capacity := by
  obtain ⟨filled,stored,later⟩ := bind_ok.mp appended
  obtain ⟨dataLen,summed,last⟩ := bind_ok.mp later
  obtain ⟨end_,ended,same⟩ := bind_ok.mp last
  obtain ⟨-,rfl⟩ := Block.copyIn_iff.mp stored
  obtain ⟨-,rfl⟩ := int_iff.mp summed
  obtain ⟨fits,rfl⟩ := int_iff.mp ended
  cases same
  exact ⟨rfl,rfl,rfl,fits.2,rfl,rfl⟩

theorem compact_result (appended : b.appendCompact inputData = .ok (next,total)) :
    next.start = 200 ∧ next.dataLen = b.dataLen+toInt inputData.length ∧ next.end_ = 200+next.dataLen ∧
      next.end_ < 2^31 ∧ next.bufferSize = b.bufferSize ∧ next.buffer.capacity = b.buffer.capacity := by
  obtain ⟨live,_,afterLive⟩ := bind_ok.mp appended
  obtain ⟨kept,_,afterKept⟩ := bind_ok.mp afterLive
  obtain ⟨moved,movedIn,afterMoved⟩ := bind_ok.mp afterKept
  obtain ⟨filled,stored,later⟩ := bind_ok.mp afterMoved
  obtain ⟨dataLen,summed,last⟩ := bind_ok.mp later
  obtain ⟨end_,ended,same⟩ := bind_ok.mp last
  obtain ⟨-,rfl⟩ := Block.copyIn_iff.mp movedIn
  obtain ⟨-,rfl⟩ := Block.copyIn_iff.mp stored
  obtain ⟨-,rfl⟩ := int_iff.mp summed
  obtain ⟨fits,rfl⟩ := int_iff.mp ended
  cases same
  exact ⟨rfl,rfl,rfl,fits.2,rfl,rfl⟩

theorem grow_result (appended : b.appendGrow inputData = .ok (next,total)) :
    ∃ room, newLen b inputData.length = .ok room ∧ next.start = 200 ∧
      next.dataLen = b.dataLen+toInt inputData.length ∧ next.end_ = 200+next.dataLen ∧ next.end_ < 2^31 ∧
      next.bufferSize = toSize room ∧ next.buffer.capacity = toSize room := by
  rw [appendGrow_newLen] at appended
  obtain ⟨room,sized,afterRoom⟩ := bind_ok.mp appended
  obtain ⟨kept,_,afterKept⟩ := bind_ok.mp afterRoom
  obtain ⟨moved,movedIn,afterMoved⟩ := bind_ok.mp afterKept
  obtain ⟨filled,stored,later⟩ := bind_ok.mp afterMoved
  obtain ⟨dataLen,summed,last⟩ := bind_ok.mp later
  obtain ⟨end_,ended,same⟩ := bind_ok.mp last
  obtain ⟨-,rfl⟩ := Block.copyIn_iff.mp movedIn
  obtain ⟨-,rfl⟩ := Block.copyIn_iff.mp stored
  obtain ⟨-,rfl⟩ := int_iff.mp summed
  obtain ⟨fits,rfl⟩ := int_iff.mp ended
  cases same
  exact ⟨room,sized,rfl,rfl,rfl,fits.2,rfl,rfl⟩

theorem append_result (nonempty : inputData ≠ []) (appended : b.appendData inputData = .ok (next,total)) :
    next.dataLen = b.dataLen+toInt inputData.length ∧
      (next.bufferSize = b.bufferSize ∨ 51200 ≤ next.bufferSize) ∧
      next.start = if Beyond b inputData.length then 200 else b.start := by
  by_cases beyond : Beyond b inputData.length
  · rw [if_pos beyond]
    by_cases crowded : Crowded b inputData.length
    · rw [appendData_crowded nonempty beyond crowded] at appended
      obtain ⟨room,sized,front,length,_,_,size,_⟩ := grow_result appended
      obtain ⟨-,least,most,-⟩ := newLen_bounds sized
      refine ⟨length,.inr ?_,front⟩
      rw [size,toSize_fits (by omega) (by omega)]
      omega
    · rw [appendData_spare nonempty beyond crowded] at appended
      obtain ⟨front,length,_,_,size,_⟩ := compact_result appended
      exact ⟨length,.inl size,front⟩
  · rw [if_neg beyond]
    rw [appendData_near nonempty beyond] at appended
    obtain ⟨front,length,_,_,size,_⟩ := inPlace_result appended
    exact ⟨length,.inl size,front⟩

theorem append_placed (placed : Placed b) (appended : b.appendData inputData = .ok (next,total)) : Placed next := by
  have start := placed.startNonneg
  have ends := placed.endsAt
  have drift := toInt_le inputData.length
  by_cases empty : inputData = []
  · rw [appendData,if_pos empty] at appended
    cases appended
    exact placed
  by_cases beyond : Beyond b inputData.length
  · by_cases crowded : Crowded b inputData.length
    · rw [appendData_crowded empty beyond crowded] at appended
      obtain ⟨room,sized,front,length,tail,fits,size,capacity⟩ := grow_result appended
      obtain ⟨low,short⟩ := (grow_defined placed).mp ⟨_,appended⟩
      have whole : toInt inputData.length = inputData.length := toInt_fits (by constructor <;> omega)
      obtain ⟨covers,least,most,-⟩ := newLen_bounds sized
      have exactly : (toSize room : Int) = room := by rw [toSize_fits (by omega) (by omega)]; omega
      exact ⟨by omega,by omega,by omega,by omega,by omega,by omega,by omega,fits⟩
    · rw [appendData_spare empty beyond crowded] at appended
      obtain ⟨front,length,tail,fits,size,capacity⟩ := compact_result appended
      have room := ((compact_defined placed).mp ⟨_,appended⟩).1
      exact ⟨by omega,by omega,by omega,by rw [size,capacity]; exact placed.sized,by rw [capacity]; exact placed.reserve,
        by rw [size,capacity]; exact placed.narrow,by rw [capacity]; exact placed.addressed,fits⟩
  · rw [appendData_near empty beyond] at appended
    obtain ⟨front,length,tail,fits,size,capacity⟩ := inPlace_result appended
    have room := (inPlace_defined.mp ⟨_,appended⟩).1
    exact ⟨by omega,by omega,by omega,by rw [size,capacity]; exact placed.sized,by rw [capacity]; exact placed.reserve,
      by rw [size,capacity]; exact placed.narrow,by rw [capacity]; exact placed.addressed,fits⟩

theorem reset_placed (placed : Placed b) : Placed b.reset := by
  have reserve := placed.reserve
  refine ⟨?_,?_,?_,placed.sized,reserve,placed.narrow,placed.addressed,?_⟩
  all_goals simp only [DataBuffer.reset,preReserveHeaderSize]
  all_goals omega

-- A consume call that comes back was refused, or it moved the front and, with
-- nothing left, laid the empty buffer anew.
theorem consume_result {front : Option Int} (consumed : b.consumeData consumeLen = .ok (next,front)) :
    next = b ∧ (consumeLen > b.dataLen ∨ consumeLen < 0 ∧ b.start+consumeLen < 0) ∨
      ¬ consumeLen > b.dataLen ∧ ¬ (consumeLen < 0 ∧ b.start+consumeLen < 0) ∧
        next = (if b.dataLen-consumeLen = 0 then b.reset
          else {b with start:=b.start+consumeLen,dataLen:=b.dataLen-consumeLen}) := by
  unfold consumeData at consumed
  split at consumed
  · rename_i beyond
    cases consumed
    exact .inl ⟨rfl,.inl beyond⟩
  · rename_i within
    obtain ⟨start,moved,later⟩ := bind_ok.mp consumed
    obtain ⟨-,rfl⟩ := int_iff.mp moved
    split at later
    · rename_i back
      cases later
      exact .inl ⟨rfl,.inr back⟩
    · rename_i forward
      obtain ⟨dataLen,left,last⟩ := bind_ok.mp later
      obtain ⟨-,rfl⟩ := int_iff.mp left
      cases last
      exact .inr ⟨within,forward,rfl⟩

theorem consume_placed {front : Option Int} (placed : Placed b)
    (consumed : b.consumeData consumeLen = .ok (next,front)) : Placed next := by
  rcases consume_result consumed with ⟨rfl,-⟩ | ⟨within,forward,rfl⟩
  · exact placed
  · split
    · exact reset_placed placed
    · have start := placed.startNonneg
      have ends := placed.endsAt
      refine ⟨?_,?_,placed.inside,placed.sized,placed.reserve,placed.narrow,placed.addressed,placed.endFits⟩
      · change 0 ≤ b.start+consumeLen
        omega
      · change b.end_ = b.start+consumeLen+(b.dataLen-consumeLen)
        omega

theorem perform_placed (placed : Placed b) (performed : b.perform operation = .ok (next,answers)) : Placed next := by
  cases operation with
  | appendData inputData =>
    obtain ⟨⟨reached,total⟩,appended,same⟩ := bind_ok.mp performed
    cases same
    exact append_placed placed appended
  | consumeData consumeLen =>
    obtain ⟨⟨reached,front⟩,consumed,same⟩ := bind_ok.mp performed
    cases same
    exact consume_placed placed consumed
  | reset =>
    cases performed
    exact reset_placed placed

-- Every copy of an append ends inside its block, and every length and position
-- that it computes is an `int`: the call has a result.
def CopiesInside (b : DataBuffer) (operation : Operation) : Prop :=
  ∀ inputData, operation = .appendData inputData → ∃ result, b.appendData inputData = .ok result

-- How many bytes were appended since the buffer was last empty, by Reset or by a
-- ConsumeData of all that was left.
def filledBy (b : DataBuffer) (filled : Nat) : Operation → Nat
  | .appendData inputData => filled+inputData.length
  | .consumeData consumeLen => if consumeLen = b.dataLen then 0 else filled
  | .reset => 0

def filling (fresh : DataBuffer) : Machine (DataBuffer × Nat) Operation Answer Fault := (machine fresh).recording filledBy 0

-- What an append of `len` bytes asks. Below the reserve the size less the
-- reserve wraps, every append is taken for one that fits in place, and only what
-- was appended before decides. From the reserve on the guards make room, and
-- only the arithmetic is left: of the positions in place and behind a
-- compaction, of the new length in a growth.
structure Countable (b : DataBuffer) (filled len : Nat) : Prop where
  small : b.bufferSize < 200 → filled+len ≤ b.bufferSize
  inPlace : 200 ≤ b.bufferSize → ¬ Beyond b len →
    0 ≤ b.end_ ∧ b.end_+len < 2^64 ∧ FitsInt (b.dataLen+toInt len) ∧ FitsInt (b.end_+toInt len)
  compacted : 200 ≤ b.bufferSize → Beyond b len → ¬ Crowded b len →
    0 ≤ b.dataLen ∧ b.dataLen+len < 2^64 ∧ FitsInt (b.dataLen+toInt len) ∧ FitsInt (200+(b.dataLen+toInt len))
  grown : 200 ≤ b.bufferSize → Beyond b len → Crowded b len → 0 ≤ b.dataLen ∧ b.dataLen+len < 2^31-20480

def Fitting (s : DataBuffer × Nat) (operation : Operation) : Prop :=
  ∀ inputData, operation = .appendData inputData → inputData ≠ [] → Countable s.1 s.2 inputData.length

-- A buffer below the reserve has kept its first block, and all that was
-- appended lies behind the reserve.
structure Filled (b : DataBuffer) (filled : Nat) : Prop where
  placed : Placed b
  small : b.bufferSize < 200 → b.end_ = 200+filled ∧ b.buffer.capacity = b.bufferSize+200 ∧ 0 ≤ b.dataLen

-- Below the reserve an append that comes back was made in place.
theorem small_near (placed : Placed b) (small : b.bufferSize < 200) (nonempty : inputData ≠ [])
    (defined : ∃ result, b.appendData inputData = .ok result) : ¬ Beyond b inputData.length := by
  have start := placed.startNonneg
  have ends := placed.endsAt
  have inside := placed.inside
  have fits := placed.endFits
  have capped := placed.narrow small
  intro beyond
  have tail := beyond
  simp only [Beyond,preReserveHeaderSize,toSize] at tail
  by_cases crowded : Crowded b inputData.length
  · rw [appendData_crowded nonempty beyond crowded,grow_defined placed] at defined
    omega
  · rw [appendData_spare nonempty beyond crowded,compact_defined placed] at defined
    omega

theorem append_small (filled : Filled b count) (small : b.bufferSize < 200) (nonempty : inputData ≠ []) :
    (∃ result, b.appendData inputData = .ok result) ↔ count+inputData.length ≤ b.bufferSize := by
  obtain ⟨tail,capacity,live⟩ := filled.small small
  have start := filled.placed.startNonneg
  have ends := filled.placed.endsAt
  constructor
  · intro defined
    rw [appendData_near nonempty (small_near filled.placed small nonempty defined),inPlace_defined] at defined
    omega
  · intro room
    have exactly : toInt inputData.length = inputData.length := toInt_fits (by constructor <;> omega)
    have near : ¬ Beyond b inputData.length := by
      simp only [Beyond,preReserveHeaderSize,toSize]
      omega
    rw [appendData_near nonempty near,inPlace_defined,exactly]
    exact ⟨by omega,by constructor <;> omega,by constructor <;> omega⟩

theorem append_wide (placed : Placed b) (wide : 200 ≤ b.bufferSize) (nonempty : inputData ≠ []) :
    (∃ result, b.appendData inputData = .ok result) ↔ Countable b count inputData.length := by
  have start := placed.startNonneg
  have ends := placed.endsAt
  have inside := placed.inside
  have sized := placed.sized
  have addressed := placed.addressed
  have reserve : toSize (b.bufferSize-preReserveHeaderSize) = b.bufferSize-200 := by
    simp only [preReserveHeaderSize]
    rw [toSize_fits (by omega) (by omega)]
    omega
  by_cases beyond : Beyond b inputData.length
  · by_cases crowded : Crowded b inputData.length
    · rw [appendData_crowded nonempty beyond crowded,grow_defined placed]
      constructor
      · intro short
        exact ⟨fun small => absurd wide (by omega),fun _ near => absurd beyond near,
          fun _ _ spare => absurd crowded spare,fun _ _ _ => short⟩
      · intro countable
        exact countable.grown wide beyond crowded
    · rw [appendData_spare nonempty beyond crowded,compact_defined placed]
      constructor
      · rintro ⟨within,sums⟩
        exact ⟨fun small => absurd wide (by omega),fun _ near => absurd beyond near,
          fun _ _ _ => ⟨within.1,by omega,sums⟩,fun _ _ full => absurd full crowded⟩
      · intro countable
        obtain ⟨low,unwrapped,sums⟩ := countable.compacted wide beyond crowded
        have spare := crowded
        simp only [Crowded,reserve] at spare
        rw [toSize_fits (by omega) (by omega)] at spare
        exact ⟨⟨low,by omega⟩,sums⟩
  · rw [appendData_near nonempty beyond,inPlace_defined]
    constructor
    · rintro ⟨within,sums⟩
      exact ⟨fun small => absurd wide (by omega),fun _ _ => ⟨within.1,by omega,sums⟩,
        fun _ far => absurd far beyond,fun _ far => absurd far beyond⟩
    · intro countable
      obtain ⟨low,unwrapped,sums⟩ := countable.inPlace wide beyond
      have near := beyond
      simp only [Beyond,reserve] at near
      rw [toSize_fits (by omega) (by omega)] at near
      exact ⟨⟨low,by omega⟩,sums⟩

theorem inside_iff (filled : Filled b count) (operation : Operation) :
    CopiesInside b operation ↔ Fitting (b,count) operation := by
  have each : ∀ inputData : List UInt8, inputData ≠ [] →
      ((∃ result, b.appendData inputData = .ok result) ↔ Countable b count inputData.length) := by
    intro inputData nonempty
    by_cases small : b.bufferSize < 200
    · rw [append_small filled small nonempty]
      constructor
      · intro room
        exact ⟨fun _ => room,fun wide => absurd wide (by omega),fun wide => absurd wide (by omega),
          fun wide => absurd wide (by omega)⟩
      · exact fun countable => countable.small small
    · exact append_wide filled.placed (by omega) nonempty
  constructor
  · intro inside inputData same nonempty
    exact (each inputData nonempty).mp (inside inputData same)
  · intro fitting inputData same
    by_cases empty : inputData = []
    · exact ⟨_,by rw [appendData,if_pos empty]⟩
    · exact (each inputData empty).mpr (fitting inputData same empty)

theorem filled_step (filled : Filled b count) (performed : b.perform operation = .ok (next,answers)) :
    Filled next (filledBy b count operation) := by
  have start := filled.placed.startNonneg
  have ends := filled.placed.endsAt
  refine ⟨perform_placed filled.placed performed,?_⟩
  cases operation with
  | appendData inputData =>
    obtain ⟨⟨reached,total⟩,appended,same⟩ := bind_ok.mp performed
    cases same
    intro small
    by_cases empty : inputData = []
    · rw [appendData,if_pos empty] at appended
      cases appended
      rw [empty]
      exact filled.small small
    · have before : b.bufferSize < 200 := by
        have size := (append_result empty appended).2.1
        omega
      have room := (append_small filled before empty).mp ⟨_,appended⟩
      obtain ⟨tail,capacity,live⟩ := filled.small before
      have exactly : toInt inputData.length = inputData.length := toInt_fits (by constructor <;> omega)
      rw [appendData_near empty (small_near filled.placed before empty ⟨_,appended⟩)] at appended
      obtain ⟨-,length,ended,-,size,kept⟩ := inPlace_result appended
      simp only [filledBy]
      omega
  | consumeData consumeLen =>
    obtain ⟨⟨reached,front⟩,consumed,same⟩ := bind_ok.mp performed
    cases same
    intro small
    simp only [filledBy]
    rcases consume_result consumed with ⟨rfl,refused⟩ | ⟨within,forward,rfl⟩
    · have known := filled.small small
      rw [if_neg (by omega)]
      exact known
    · by_cases drained : consumeLen = b.dataLen
      · rw [if_pos (by omega)] at small ⊢
        rw [if_pos drained]
        exact ⟨rfl,(filled.small small).2.1,Int.le_refl 0⟩
      · rw [if_neg (by omega)] at small ⊢
        rw [if_neg drained]
        obtain ⟨tail,capacity,-⟩ := filled.small small
        refine ⟨tail,capacity,?_⟩
        change 0 ≤ b.dataLen-consumeLen
        omega
  | reset =>
    cases performed
    intro small
    exact ⟨rfl,(filled.small small).2.1,Int.le_refl 0⟩

theorem run_filled (created : create size = .ok fresh) (ran : (filling fresh).run operations = .ok ((b,count),answers)) :
    Filled b count := by
  refine (filling fresh).history (fun _ _ s => Filled s.1 s.2) ?_ ?_ ran
  · obtain ⟨sized,empty,-,tail,capacity,-⟩ := create_result created
    exact ⟨create_placed created,fun _ => ⟨tail,capacity.trans (by rw [← sized]; rfl),Int.le_of_eq empty.symm⟩⟩
  · rintro _ _ ⟨b,count⟩ operation ⟨next,later⟩ answers filled stepped
    obtain ⟨performed,rfl⟩ := ((machine fresh).recording_step).mp stepped
    exact filled_step filled performed

-- The copies of a whole run stay inside the block exactly if every append that
-- the run reaches can be counted.
theorem copies_inside_iff (size : Nat) (fresh : DataBuffer) (created : create size = .ok fresh)
    (operations : List Operation) :
    (machine fresh).Guarded (fun _ => CopiesInside) operations ↔ (filling fresh).Guarded (fun _ => Fitting) operations := by
  constructor
  · rintro inside before operation after shape ⟨b,count⟩ answers ran
    have plain := ((machine fresh).recording_run).mpr ⟨count,ran⟩
    exact (inside_iff (run_filled created ran) operation).mp (inside before operation after shape b answers plain)
  · intro fitting before operation after shape b answers ran
    obtain ⟨count,recorded⟩ := ((machine fresh).recording_run).mp ran
    exact (inside_iff (run_filled created recorded) operation).mpr
      (fitting before operation after shape (b,count) answers recorded)

-- Twice sixty bytes make a buffer for 300 compact and then grow.
def twiceSixty : List Operation := [.appendData (List.replicate 60 1),.appendData (List.replicate 60 2)]

theorem copies_inside_twiceSixty : ∃ fresh, create 300 = .ok fresh ∧ Beyond fresh 60 ∧ ¬ Crowded fresh 60 ∧
    (∃ b answers, (machine fresh).run (twiceSixty.take 1) = .ok (b,answers) ∧ Beyond b 60 ∧ Crowded b 60) ∧
    ((machine fresh).Guarded (fun _ => CopiesInside) twiceSixty ↔
      (filling fresh).Guarded (fun _ => Fitting) twiceSixty) :=
  ⟨_,rfl,by decide,by decide,⟨_,_,rfl,by decide,by decide⟩,copies_inside_iff 300 _ rfl twiceSixty⟩

-- Two packets of 60 bytes do not fit behind the reserve of a buffer for 100.
theorem hundred_overflows : ∃ fresh, create 100 = .ok fresh ∧
    (machine fresh).run twiceSixty = .error .outOfBounds ∧ ¬ (machine fresh).Guarded (fun _ => CopiesInside) twiceSixty := by
  refine ⟨_,rfl,rfl,?_⟩
  intro inside
  obtain ⟨result,appended⟩ := inside [_] _ [] rfl _ _ rfl _ rfl
  cases appended

def lengthOf : Operation → Nat
  | .appendData inputData => inputData.length
  | _ => 0

def appendedBy (operations : List Operation) : Nat := (operations.map lengthOf).sum

theorem appendedBy_append (one two : List Operation) : appendedBy (one++two) = appendedBy one+appendedBy two := by
  rw [appendedBy,List.map_append,List.sum_append]
  rfl

theorem appendedBy_cons (operation : Operation) (rest : List Operation) :
    appendedBy (operation::rest) = lengthOf operation+appendedBy rest := by
  rw [appendedBy,List.map_cons,List.sum_cons]
  rfl

def Forward (operations : List Operation) : Prop := ∀ consumeLen, .consumeData consumeLen ∈ operations → 0 ≤ consumeLen

structure Reserved (b : DataBuffer) (total : Nat) : Prop where
  placed : Placed b
  live : 0 ≤ b.dataLen
  front : 200 ≤ b.start
  tail : b.end_ ≤ 200+total
  reserve : 200 ≤ b.bufferSize

theorem append_reserved (reserved : Reserved b total) (short : inputData.length < 2^31)
    (appended : b.appendData inputData = .ok (next,answer)) : Reserved next (total+inputData.length) := by
  have live := reserved.live
  have front := reserved.front
  have tail := reserved.tail
  have reserve := reserved.reserve
  have ends := reserved.placed.endsAt
  by_cases empty : inputData = []
  · rw [appendData,if_pos empty] at appended
    cases appended
    rw [empty]
    exact reserved
  · have exactly : toInt inputData.length = inputData.length := toInt_fits (by constructor <;> omega)
    obtain ⟨length,size,start⟩ := append_result empty appended
    have placed := append_placed reserved.placed appended
    have ended := placed.endsAt
    split at start
    · exact ⟨placed,by omega,by omega,by omega,by omega⟩
    · exact ⟨placed,by omega,by omega,by omega,by omega⟩

theorem reset_reserved (reserved : Reserved b total) : Reserved b.reset total := by
  refine ⟨reset_placed reserved.placed,Int.le_refl 0,Int.le_refl 200,?_,reserved.reserve⟩
  simp only [DataBuffer.reset,preReserveHeaderSize]
  omega

theorem consume_reserved {front : Option Int} (reserved : Reserved b total) (forward : 0 ≤ consumeLen)
    (consumed : b.consumeData consumeLen = .ok (next,front)) : Reserved next total := by
  have placed := consume_placed reserved.placed consumed
  rcases consume_result consumed with ⟨rfl,-⟩ | ⟨within,-,rfl⟩
  · exact reserved
  · split
    · exact reset_reserved reserved
    · rename_i left
      rw [if_neg left] at placed
      have start := reserved.front
      refine ⟨placed,?_,?_,reserved.tail,reserved.reserve⟩
      · change 0 ≤ b.dataLen-consumeLen
        omega
      · change 200 ≤ b.start+consumeLen
        omega

theorem reserved_countable (reserved : Reserved b total) (short : total+len+20480 < 2^31) (filled : Nat) :
    Countable b filled len := by
  have live := reserved.live
  have front := reserved.front
  have tail := reserved.tail
  have reserve := reserved.reserve
  have ends := reserved.placed.endsAt
  have exactly : toInt len = len := toInt_fits (by constructor <;> omega)
  refine ⟨fun small => absurd reserve (by omega),fun _ _ => ?_,fun _ _ _ => ?_,fun _ _ _ => ⟨live,by omega⟩⟩
  · rw [exactly]
    exact ⟨by omega,by omega,by constructor <;> omega,by constructor <;> omega⟩
  · rw [exactly]
    exact ⟨live,by omega,by constructor <;> omega,by constructor <;> omega⟩

-- From the reserve on, no run that only goes forward and appends less than
-- 2 GiB in all copies outside its block.
theorem reserve_inside (reserve : 200 ≤ size) (created : create size = .ok fresh) (forward : Forward operations)
    (short : appendedBy operations+20480 < 2^31) : (machine fresh).Guarded (fun _ => CopiesInside) operations := by
  rw [copies_inside_iff size fresh created]
  rintro before operation after shape ⟨b,count⟩ answers ran
  have reached : Reserved b (appendedBy before) := by
    have plain := ((machine fresh).recording_run).mpr ⟨count,ran⟩
    refine (machine fresh).admissible_history (fun events => Forward events ∧ appendedBy events < 2^31) (fun _ _ _ => True)
      (fun events _ b => Reserved b (appendedBy events)) ?_ ?_ ?_ before ?_ (fun _ _ _ _ _ _ _ => trivial) plain
    · rintro front back ⟨all,few⟩
      rw [appendedBy_append] at few
      exact ⟨fun consumeLen member => all consumeLen (List.mem_append_left back member),
        Nat.lt_of_le_of_lt (Nat.le_add_right _ _) few⟩
    · obtain ⟨sized,empty,start,tail,-⟩ := create_result created
      refine ⟨create_placed created,Int.le_of_eq empty.symm,Int.le_of_eq start.symm,Int.le_of_eq tail,?_⟩
      exact Nat.le_trans reserve (Nat.le_of_eq sized.symm)
    · rintro events outputs s event next emitted ⟨all,few⟩ reserved _ performed
      rw [appendedBy_append,appendedBy_cons] at few ⊢
      cases event with
      | appendData inputData =>
        obtain ⟨⟨reached,total⟩,appended,same⟩ := bind_ok.mp performed
        cases same
        simp only [lengthOf] at few ⊢
        exact append_reserved reserved (by omega) appended
      | consumeData consumeLen =>
        obtain ⟨⟨reached,front⟩,consumed,same⟩ := bind_ok.mp performed
        cases same
        exact consume_reserved reserved (all consumeLen (by simp)) consumed
      | reset =>
        cases performed
        exact reset_reserved reserved
    · subst shape
      rw [appendedBy_append] at short
      exact ⟨fun consumeLen member => forward consumeLen (List.mem_append_left _ member),by omega⟩
  rintro inputData rfl _
  subst shape
  rw [appendedBy_append,appendedBy_cons,lengthOf] at short
  exact reserved_countable reached (by omega) count

end CoStream.DataBufferCopies
