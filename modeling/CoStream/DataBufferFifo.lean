import CoStream.DataBuffer

namespace CoStream.DataBufferFifo
open Foundation DataBuffer

variable {queue inputData : List UInt8} {b : DataBuffer} {target : Block UInt8} {size : Nat}

-- What a `DataBuffer` is for: a queue of bytes, in its own terms.
def enqueue (queue : List UInt8) : Operation → List UInt8
  | .appendData inputData => queue++inputData
  | .consumeData consumeLen => if consumeLen > queue.length then queue else queue.drop consumeLen.toNat
  | .reset => []

-- The queue admits an operation that does not step back and that leaves room
-- for the two reserves of 10 KiB below the range of `int`.
def Admits (queue : List UInt8) (operation : Operation) : Prop :=
  (∀ consumeLen, operation = .consumeData consumeLen → 0 ≤ consumeLen) ∧
    (enqueue queue operation).length+20480 < 2^31

structure InBounds (b : DataBuffer) : Prop where
  startNonneg : 0 ≤ b.start
  endsAt : b.end_ = b.start+b.dataLen
  endInside : b.end_ ≤ b.bufferSize
  sizeInside : b.bufferSize ≤ b.buffer.capacity

-- The guard of `appendData` compares with the size less the reserve, so the
-- bounds alone do not survive it: the positions must also stay in `int`.
structure Shows (queue : List UInt8) (b : DataBuffer) : Prop extends InBounds b where
  endFits : b.end_ < 2^31
  reserve : 200 ≤ b.bufferSize
  limit : b.bufferSize < 2^31+200
  length : b.dataLen = queue.length
  content : b.data = queue.map some

theorem create_shows (size : Nat) (reserve : 200 ≤ size) (limit : size < 2^31+200) :
    ∃ fresh, create size = .ok fresh ∧ Shows [] fresh := by
  have capacity : toSize (size+preReserveHeaderSize) = size+200 := by
    rw [toSize_fits (by omega) (by simp only [preReserveHeaderSize]; omega)]
    simp only [preReserveHeaderSize]
    omega
  simp only [create,capacity,show size ≤ size+200 by omega,if_true]
  refine ⟨_,rfl,⟨⟨?_,?_,?_,?_⟩,?_,reserve,limit,rfl,rfl⟩⟩
  all_goals simp only [preReserveHeaderSize,Block.fill,Block.allocate]
  all_goals omega

theorem getNewSize_ok (low : 0 ≤ newLen) (high : newLen+10240 < 2^31) :
    ∃ size, getNewSize newLen = .ok size ∧ newLen ≤ size ∧ 51200 ≤ size ∧ size < 2^31 := by
  unfold getNewSize
  split
  · exact ⟨_,rfl,by omega,by omega,by omega⟩
  split
  · exact ⟨_,rfl,by omega,by omega,by omega⟩
  split
  · exact ⟨_,rfl,by omega,by omega,by omega⟩
  split
  · exact ⟨_,rfl,by omega,by omega,by omega⟩
  · exact ⟨_,int_ok (by constructor <;> omega),by omega,by omega,by omega⟩

theorem load_live (shown : Shows queue b) : b.buffer.load b.start b.dataLen = .ok (queue.map some) := by
  obtain ⟨start,atStart⟩ := Int.eq_ofNat_of_zero_le shown.startNonneg
  have inside := shown.endInside
  have ends := shown.endsAt
  have wide := shown.sizeInside
  have content := shown.content
  rw [shown.length,atStart] at ends
  simp only [data,shown.length,atStart,Int.toNat_natCast] at content
  rw [shown.length,atStart,Block.load_ok _ _ _ (by omega),content]

-- Every length below the admitted limit survives the conversion to `int`, and
-- so does its sum with the reserve at the front of the block.
theorem toInt_length (room : queue.length+inputData.length+20480 < 2^31) :
    toInt inputData.length = inputData.length := toInt_fits (by constructor <;> omega)

theorem int_length (room : queue.length+inputData.length+20480 < 2^31) :
    int ((queue.length : Int)+inputData.length) = .ok (queue.length+inputData.length) :=
  int_ok (by constructor <;> omega)

theorem int_end (room : queue.length+inputData.length+20480 < 2^31) :
    int (preReserveHeaderSize+((queue.length : Int)+inputData.length)) =
      .ok (preReserveHeaderSize+(queue.length+inputData.length)) :=
  int_ok (by simp only [preReserveHeaderSize]; constructor <;> omega)

-- Growth and compaction end alike: the live bytes at the front of some block,
-- the new bytes right behind them.
def landed (b : DataBuffer) (target : Block UInt8) (size : Nat) (queue inputData : List UInt8) : DataBuffer :=
  {b with
    buffer := (target.store preReserveHeaderSize (queue.map some)).store
      (preReserveHeaderSize+queue.length) (inputData.map some)
    bufferSize := size
    dataLen := queue.length+inputData.length
    start := preReserveHeaderSize
    end_ := preReserveHeaderSize+(queue.length+inputData.length)}

theorem landed_shows (room : queue.length+inputData.length+20480 < 2^31)
    (fits : 200+queue.length+inputData.length ≤ size) (wide : size ≤ target.capacity) (limit : size < 2^31+200) :
    Shows (queue++inputData) (landed b target size queue inputData) := by
  refine ⟨⟨?_,?_,?_,?_⟩,?_,?_,limit,?_,?_⟩
  case refine_8 =>
    have both := Block.view_store_behind (target.store 200 (queue.map some)) 200 (queue.map some).length
      (inputData.map some)
    rw [Block.view_store,List.length_map,List.length_map] at both
    have count : ((queue.length : Int)+inputData.length).toNat = queue.length+inputData.length := by omega
    simpa [landed,data,count,preReserveHeaderSize] using both
  all_goals simp only [landed,preReserveHeaderSize,Block.capacity_store,List.length_append,Int.natCast_add]
  all_goals omega

theorem copies_land (target : Block UInt8) (queue inputData : List UInt8)
    (fits : 200+queue.length+inputData.length ≤ target.capacity) :
    target.copyIn preReserveHeaderSize (queue.map some) =
        .ok (target.store preReserveHeaderSize (queue.map some)) ∧
      (target.store preReserveHeaderSize (queue.map some)).copyIn (preReserveHeaderSize+(queue.length : Int))
          (inputData.map some) =
        .ok ((target.store preReserveHeaderSize (queue.map some)).store (preReserveHeaderSize+queue.length)
          (inputData.map some)) := by
  have moved := Block.copyIn_ok target preReserveHeaderSize (queue.map some)
    (by simp only [preReserveHeaderSize,List.length_map]; omega)
  have filled := Block.copyIn_ok (target.store preReserveHeaderSize (queue.map some))
    (preReserveHeaderSize+queue.length) (inputData.map some)
    (by simp only [preReserveHeaderSize,List.length_map,Block.capacity_store]; omega)
  rw [Int.natCast_add] at filled
  exact ⟨moved,filled⟩

theorem grow_shows (shown : Shows queue b) (room : queue.length+inputData.length+20480 < 2^31) :
    ∃ next, b.appendGrow inputData = .ok (next,queue.length+inputData.length) ∧ Shows (queue++inputData) next := by
  have wanted : int ((queue.length : Int)+inputData.length+extraLen) = .ok (queue.length+inputData.length+10240) := by
    rw [show extraLen = 10240 from rfl]
    exact int_ok (by constructor <;> omega)
  obtain ⟨size,sized,covers,least,most⟩ :=
    getNewSize_ok (show 0 ≤ (queue.length : Int)+inputData.length+10240 by omega) (by omega)
  have capacity : (toSize size : Int) = size := by rw [toSize_fits (by omega) (by omega)]; omega
  obtain ⟨moved,filled⟩ := copies_land (Block.allocate (toSize size)) queue inputData
    (by simp only [Block.capacity_allocate]; omega)
  have live := load_live shown
  rw [shown.length] at live
  refine ⟨landed b (Block.allocate (toSize size)) (toSize size) queue inputData,?_,
    landed_shows room (by omega) (Nat.le_refl _) (by omega)⟩
  simp only [appendGrow,shown.length,toInt_length room,int_length room,wanted,sized,live,moved,filled,
    int_end room,ok_bind,pure_ok,landed]

theorem keepLive_live (shown : Shows queue b) (small : queue.length < 2^31) :
    b.keepLive (queue.map some) = .ok (queue.map some) := by
  have capacity : toSize (queue.length : Int) = queue.length := by rw [toSize_fits (by omega) (by omega)]; omega
  have stored := Block.copyIn_ok (Block.allocate queue.length) 0 (queue.map some) (by simp)
  have loaded := Block.load_ok ((Block.allocate queue.length).store 0 (queue.map some)) 0 queue.length (by simp)
  have same := Block.view_store (Block.allocate queue.length) 0 (queue.map some)
  rw [List.length_map] at same
  rw [same] at loaded
  simp only [Int.natCast_zero] at stored loaded
  unfold keepLive
  rw [shown.length]
  split
  · rw [capacity,stored,ok_bind,loaded]
  · rfl

theorem compact_shows (shown : Shows queue b) (room : queue.length+inputData.length+20480 < 2^31)
    (fits : 200+queue.length+inputData.length ≤ b.bufferSize) :
    ∃ next, b.appendCompact inputData = .ok (next,queue.length+inputData.length) ∧ Shows (queue++inputData) next := by
  obtain ⟨moved,filled⟩ := copies_land b.buffer queue inputData (Nat.le_trans fits shown.sizeInside)
  have live := load_live shown
  rw [shown.length] at live
  refine ⟨landed b b.buffer b.bufferSize queue inputData,?_,landed_shows room fits shown.sizeInside shown.limit⟩
  simp only [appendCompact,shown.length,toInt_length room,int_length room,live,keepLive_live shown (by omega),
    moved,filled,int_end room,ok_bind,pure_ok,landed]

-- The fast path, up to the one sum that can leave `int`: the new tail.
theorem appendInPlace_stores (inputData : List UInt8) (tail count : Nat) (ends : b.end_ = tail)
    (length : b.dataLen = count)
    (inside : tail+inputData.length ≤ b.buffer.capacity) (fits : count+inputData.length < 2^31) :
    b.appendInPlace inputData = do
      let end_ ← int (tail+inputData.length : Nat)
      return ({b with buffer := b.buffer.store tail (inputData.map some)
                      dataLen := (count+inputData.length : Nat),end_},(count+inputData.length : Nat)) := by
  have narrow : toInt inputData.length = inputData.length := toInt_fits (by constructor <;> omega)
  have joined : int (count+inputData.length : Nat) = .ok (count+inputData.length : Nat) :=
    int_ok (by constructor <;> omega)
  have filled := Block.copyIn_ok b.buffer tail (inputData.map some) (by simpa using inside)
  simp only [appendInPlace,ends,length,narrow,joined,filled,ok_bind,← Int.natCast_add]

theorem inPlace_shows (shown : Shows queue b) (room : queue.length+inputData.length+20480 < 2^31)
    (fits : b.end_+inputData.length+200 ≤ b.bufferSize) :
    ∃ next dataLen, b.appendInPlace inputData = .ok (next,dataLen) ∧ Shows (queue++inputData) next := by
  obtain ⟨start,atStart⟩ := Int.eq_ofNat_of_zero_le shown.startNonneg
  have wide := shown.sizeInside
  have limit := shown.limit
  have endsAt : b.end_ = ((start+queue.length : Nat) : Int) := by
    rw [shown.endsAt,shown.length,atStart,Int.natCast_add]
  have ends : int ((start+queue.length)+inputData.length : Nat) = .ok ((start+queue.length)+inputData.length : Nat) :=
    int_ok (by constructor <;> omega)
  have content := shown.content
  simp only [data,shown.length,atStart,Int.toNat_natCast] at content
  have both := Block.view_store_behind b.buffer start queue.length (inputData.map some)
  rw [content,List.length_map,← List.map_append] at both
  rw [appendInPlace_stores inputData _ _ endsAt shown.length (by omega) (by omega),ends,ok_bind]
  refine ⟨_,_,rfl,⟨⟨shown.startNonneg,?_,?_,wide⟩,?_,shown.reserve,limit,?_,?_⟩⟩
  · simp only [atStart]; omega
  · simp only; omega
  · simp only; omega
  · simp only [List.length_append]
  · simpa only [data,atStart,Int.toNat_natCast] using both

theorem appendData_shows (shown : Shows queue b) (room : queue.length+inputData.length+20480 < 2^31) :
    ∃ next dataLen, b.appendData inputData = .ok (next,dataLen) ∧ Shows (queue++inputData) next := by
  have reserve := shown.reserve
  have limit := shown.limit
  have start := shown.startNonneg
  have ends := shown.endsAt
  have length := shown.length
  have inside := shown.endInside
  have front : toSize (b.bufferSize-preReserveHeaderSize) = b.bufferSize-200 := by
    simp only [preReserveHeaderSize]
    rw [toSize_fits (by omega) (by omega)]
    omega
  have tail : (toSize (b.end_+inputData.length) : Int) = b.end_+inputData.length := by
    rw [toSize_fits (by omega) (by omega)]
    omega
  have live : toSize (b.dataLen+inputData.length) = queue.length+inputData.length := by
    rw [toSize_fits (by omega) (by omega)]
    omega
  unfold appendData
  split
  · rename_i empty
    exact ⟨b,0,rfl,by simpa [empty] using shown⟩
  · rw [front,live]
    split
    · split
      · obtain ⟨next,grown,after⟩ := grow_shows shown room
        exact ⟨next,_,grown,after⟩
      · obtain ⟨next,compacted,after⟩ := compact_shows shown room (by omega)
        exact ⟨next,_,compacted,after⟩
    · exact inPlace_shows shown room (by omega)

theorem reset_shows (shown : Shows queue b) : Shows [] b.reset := by
  have reserve := shown.reserve
  have wide := shown.sizeInside
  refine ⟨⟨?_,?_,?_,wide⟩,?_,reserve,shown.limit,rfl,rfl⟩
  all_goals simp only [DataBuffer.reset,preReserveHeaderSize]
  all_goals omega

theorem consumeData_null (beyond : consumeLen > b.dataLen) : b.consumeData consumeLen = .ok (b,none) :=
  if_pos beyond

theorem consumeData_shows (shown : Shows queue b) (forward : 0 ≤ consumeLen) :
    ∃ next front, b.consumeData consumeLen = .ok (next,front) ∧
      Shows (enqueue queue (.consumeData consumeLen)) next := by
  have length := shown.length
  by_cases beyond : consumeLen > b.dataLen
  · exact ⟨b,none,consumeData_null beyond,by simpa [enqueue,← length,beyond] using shown⟩
  obtain ⟨start,atStart⟩ := Int.eq_ofNat_of_zero_le shown.startNonneg
  obtain ⟨count,rfl⟩ := Int.eq_ofNat_of_zero_le forward
  have fits := shown.endFits
  have ends := shown.endsAt
  have inside := shown.endInside
  have moved : int (b.start+count) = .ok (b.start+count) := int_ok (by constructor <;> omega)
  have left : int (b.dataLen-count) = .ok (b.dataLen-count) := int_ok (by constructor <;> omega)
  have notBack : ¬ ((count : Int) < 0 ∧ b.start+count < 0) := by omega
  have rest : enqueue queue (.consumeData count) = queue.drop count := by
    simp [enqueue,show ¬ (count : Int) > queue.length by omega]
  have shorter : Shows (queue.drop count) {b with start:=b.start+count,dataLen:=b.dataLen-count} := by
    refine ⟨⟨?_,?_,inside,shown.sizeInside⟩,fits,shown.reserve,shown.limit,?_,?_⟩
    · exact Int.add_nonneg shown.startNonneg forward
    · change b.end_ = b.start+count+(b.dataLen-count)
      omega
    · change b.dataLen-count = ((queue.drop count).length : Nat)
      rw [List.length_drop]
      omega
    · have content := shown.content
      simp only [data,atStart,length,Int.toNat_natCast] at content
      have suffix := Block.view_drop b.buffer start queue.length count (by omega)
      rw [content,← List.map_drop] at suffix
      have count1 : ((queue.length : Int)-count).toNat = queue.length-count := by omega
      have count2 : ((start : Int)+count).toNat = start+count := by omega
      simpa only [data,atStart,length,count1,count2] using suffix
  unfold consumeData
  rw [if_neg beyond,moved,ok_bind,if_neg notBack,left,ok_bind,pure_ok,rest]
  by_cases drained : b.dataLen-count = 0
  · have none : queue.drop count = [] := List.drop_eq_nil_of_le (by omega)
    rw [if_pos drained,none]
    exact ⟨_,_,rfl,reset_shows shorter⟩
  · rw [if_neg drained]
    exact ⟨_,_,rfl,shorter⟩

theorem perform_shows (b : DataBuffer) (queue : List UInt8) (operation : Operation)
    (shown : Shows queue b) (admitted : Admits queue operation) :
    ∃ next answers, b.perform operation = .ok (next,answers) ∧ Shows (enqueue queue operation) next := by
  obtain ⟨forward,room⟩ := admitted
  cases operation with
  | appendData inputData =>
    obtain ⟨next,dataLen,appended,after⟩ := appendData_shows shown
      (by simpa only [enqueue,List.length_append] using room)
    exact ⟨next,[.length dataLen],by simp [perform,appended],after⟩
  | consumeData consumeLen =>
    obtain ⟨next,front,consumed,after⟩ := consumeData_shows shown (forward consumeLen rfl)
    exact ⟨next,[.position front],by simp [perform,consumed],after⟩
  | reset => exact ⟨b.reset,[.nothing],rfl,reset_shows shown⟩

def contentOf (operations : List Operation) : List UInt8 := operations.foldl enqueue []

-- A buffer of this construction size shows the queue after every admitted run,
-- with no copy outside its block and no position outside `int`.
def RefinesFifo (size : Nat) : Prop :=
  ∀ operations, Machine.AdmittedFrom enqueue Admits [] operations → ∃ fresh final answers,
    create size = .ok fresh ∧ (machine fresh).run operations = .ok (final,answers) ∧ InBounds final ∧
      final.dataLen = (contentOf operations).length ∧ final.data = (contentOf operations).map some ∧
      ∀ consumeLen, consumeLen > final.dataLen → final.consumeData consumeLen = .ok (final,none)

theorem refinesFifo_below (reserve : 200 ≤ size) (limit : size < 2^31+200) : RefinesFifo size := by
  intro operations admitted
  obtain ⟨fresh,created,shown⟩ := create_shows size reserve limit
  obtain ⟨final,answers,ran,after⟩ := (machine fresh).simulates enqueue Admits (fun b queue => Shows queue b)
    perform_shows shown admitted
  exact ⟨fresh,final,answers,created,ran,after.toInBounds,after.length,after.content,fun _ => consumeData_null⟩

-- In a wider block the guard lets the tail walk past the last `int`: one long
-- append, a read that leaves a single byte, and a second append behind it.
def walkPast (first second : List UInt8) : List Operation :=
  [.appendData first,.consumeData ((first.length-1 : Nat) : Int),.appendData second]

variable {first second : List UInt8}

theorem walkPast_admitted (one : first.length = 2^30) (two : second.length = 2^30-200) :
    Machine.AdmittedFrom enqueue Admits [] (walkPast first second) := by
  have kept : ¬ ((first.length-1 : Nat) : Int) > first.length := by omega
  simp only [walkPast,Machine.AdmittedFrom,Admits,enqueue,List.nil_append,kept,if_false,Int.toNat_natCast,
    List.length_append,List.length_drop]
  refine ⟨⟨by simp,by omega⟩,⟨?_,by omega⟩,⟨by simp,by omega⟩,trivial⟩
  rintro _ ⟨⟩
  omega

theorem appendData_inPlace (nonempty : inputData ≠ [])
    (tail : toSize (b.end_+inputData.length) ≤ toSize (b.bufferSize-preReserveHeaderSize)) :
    b.appendData inputData = b.appendInPlace inputData := by
  unfold appendData
  rw [if_neg nonempty,if_neg (by omega)]

theorem walkPast_overflows (wide : 2^31+200 ≤ size) (representable : size+200 < 2^64)
    (one : first.length = 2^30) (two : second.length = 2^30-200) (created : create size = .ok fresh) :
    (machine fresh).run (walkPast first second) = .error .signedOverflow := by
  have capacity : toSize (size+preReserveHeaderSize) = size+200 := by
    simp only [preReserveHeaderSize]
    rw [toSize_fits (by omega) (by omega)]
    omega
  have guard : toSize (size-preReserveHeaderSize) = size-200 := by
    simp only [preReserveHeaderSize]
    rw [toSize_fits (by omega) (by omega)]
    omega
  simp only [create,capacity,show size ≤ size+200 by omega,if_true,Except.ok.injEq] at created
  have nonempty : first ≠ [] ∧ second ≠ [] := by
    constructor <;> rintro rfl <;> simp at one two
  let grown : DataBuffer := {fresh with
    buffer := fresh.buffer.store 200 (first.map some)
    dataLen := (0+first.length : Nat),end_ := (200+first.length : Nat)}
  let read : DataBuffer := {grown with
    start := (200 : Int)+(first.length-1 : Nat)
    dataLen := ((0+first.length : Nat) : Int)-(first.length-1 : Nat)}
  have appended : fresh.perform (.appendData first) = .ok (grown,[.length (0+first.length : Nat)]) := by
    have ends : int (200+first.length : Nat) = .ok (200+first.length : Nat) := int_ok (by constructor <;> omega)
    have inPlace := appendInPlace_stores (b := fresh) first 200 0
      (by rw [← created]; rfl) (by rw [← created]; rfl)
      (by rw [← created]; change 200+first.length ≤ size+200; omega) (by omega)
    have taken := appendData_inPlace (b := fresh) nonempty.1 (by
      rw [← created]
      change toSize (200+(first.length : Int)) ≤ toSize (size-preReserveHeaderSize)
      rw [guard,toSize_fits (by omega) (by omega)]
      omega)
    simp only [perform,taken,inPlace,ends,ok_bind,pure_ok,grown]
  have consumed : grown.perform (.consumeData (first.length-1 : Nat)) = .ok (read,[.position (some read.start)]) := by
    have moved : int ((200 : Int)+(first.length-1 : Nat)) = .ok (200+(first.length-1 : Nat)) :=
      int_ok (by constructor <;> omega)
    have left : int (((0+first.length : Nat) : Int)-(first.length-1 : Nat)) =
        .ok (((0+first.length : Nat) : Int)-(first.length-1 : Nat)) := int_ok (by constructor <;> omega)
    have start : grown.start = 200 := by rw [show grown.start = fresh.start from rfl,← created]; rfl
    have within : ¬ ((first.length-1 : Nat) : Int) > ((0+first.length : Nat) : Int) := by omega
    have forward : ¬ (((first.length-1 : Nat) : Int) < 0 ∧ (200 : Int)+(first.length-1 : Nat) < 0) := by omega
    have remains : ¬ ((0+first.length : Nat) : Int)-(first.length-1 : Nat) = 0 := by omega
    simp only [perform,consumeData,start,show grown.dataLen = (0+first.length : Nat) from rfl,if_neg within,moved,
      if_neg forward,left,if_neg remains,ok_bind,pure_ok,read]
  have overflowed : read.perform (.appendData second) = .error .signedOverflow := by
    have ends : int (200+first.length+second.length : Nat) = .error .signedOverflow :=
      int_fault (by simp only [FitsInt]; omega)
    have capacity : read.buffer.capacity = size+200 := by
      rw [show read.buffer.capacity = fresh.buffer.capacity from rfl,← created]
      rfl
    have inPlace := appendInPlace_stores (b := read) second (200+first.length) 1
      rfl (by simp only [read]; omega) (by omega) (by omega)
    have taken := appendData_inPlace (b := read) nonempty.2 (by
      rw [show read.bufferSize = fresh.bufferSize from rfl,← created]
      change toSize (((200+first.length : Nat) : Int)+(second.length : Int)) ≤ toSize (size-preReserveHeaderSize)
      rw [guard,toSize_fits (by omega) (by omega)]
      omega)
    simp only [perform,taken,inPlace,ends,error_bind]
  change (machine fresh).runFrom fresh _ = _
  simp only [walkPast,Machine.runFrom,machine,appended,consumed,overflowed,ok_bind,error_bind]

def longInput : List UInt8 := List.replicate (2^30) 0
def nextInput : List UInt8 := List.replicate (2^30-200) 0

theorem longInput_length : longInput.length = 2^30 := List.length_replicate
theorem nextInput_length : nextInput.length = 2^30-200 := List.length_replicate

theorem wide_unrefined (wide : 2^31+200 ≤ size) (representable : size+200 < 2^64) : ¬ RefinesFifo size := by
  intro refines
  obtain ⟨fresh,final,answers,created,ran,-⟩ :=
    refines _ (walkPast_admitted longInput_length nextInput_length)
  rw [walkPast_overflows wide representable longInput_length nextInput_length created] at ran
  cases ran

-- `int` positions carry a block of less than 2 GiB and its reserve, no more.
theorem refinesFifo_iff (size : Nat) (reserve : 200 ≤ size) (representable : size+200 < 2^64) :
    RefinesFifo size ↔ size < 2^31+200 := by
  refine ⟨?_,refinesFifo_below reserve⟩
  intro refines
  by_contra wide
  exact wide_unrefined (by omega) representable refines

theorem refinesFifo_smallest : RefinesFifo 200 :=
  (refinesFifo_iff 200 (by decide) (by decide)).mpr (by decide)

-- Four GiB are enough for the walk, and the queue admits every step of it.
theorem fourGiB_overflows :
    200 ≤ 2^32 ∧ Machine.AdmittedFrom enqueue Admits [] (walkPast longInput nextInput) ∧
      (∀ fresh, create (2^32) = .ok fresh →
        (machine fresh).run (walkPast longInput nextInput) = .error .signedOverflow) ∧ ¬ RefinesFifo (2^32) :=
  ⟨by decide,walkPast_admitted longInput_length nextInput_length,
    fun _ => walkPast_overflows (by decide) (by decide) longInput_length nextInput_length,
    wide_unrefined (by decide) (by decide)⟩

end CoStream.DataBufferFifo
