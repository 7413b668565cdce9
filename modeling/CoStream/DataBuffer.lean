import CoStream.Foundation.Undefined

namespace CoStream
open Foundation

def extraLen : Int := 10*1024
def preReserveHeaderSize : Nat := 200

-- Positions are `int`, the size of the block is `size_t`. After the constructor
-- `bufferSize` is the capacity less the reserve, after a growth the capacity.
structure DataBuffer where
  sentFlag : Bool := false
  dstIp : List UInt8 := []
  dstPort : UInt16 := 0
  buffer : Block UInt8
  bufferSize : Nat
  dataLen : Int
  start : Int
  end_ : Int

namespace DataBuffer

def create (dataSize : Nat) : Except Fault DataBuffer :=
  let capacity := toSize (dataSize+preReserveHeaderSize)
  -- The constructor's `memset` clears `dataSize` bytes, not the whole block.
  if dataSize ≤ capacity then
    .ok {
      buffer := (Block.allocate capacity).fill dataSize 0
      bufferSize := dataSize
      dataLen := 0
      start := preReserveHeaderSize
      end_ := preReserveHeaderSize
    }
  else .error .outOfBounds

def getNewSize (newLen : Int) : Except Fault Int :=
  if newLen ≤ 50*1024 then .ok (50*1024)
  else if newLen > 50*1024 ∧ newLen ≤ 100*1024 then .ok (100*1024)
  else if newLen > 100*1024 ∧ newLen ≤ 200*1024 then .ok (200*1024)
  else if newLen > 200*1024 ∧ newLen ≤ 500*1024 then .ok (500*1024)
  else int (newLen+10*1024)

-- The three ways `appendData` ends. Growth moves everything to a new block.
def appendGrow (b : DataBuffer) (inputData : List UInt8) : Except Fault (DataBuffer × Int) := do
  let joined ← int (b.dataLen+toInt inputData.length)
  let wanted ← int (joined+extraLen)
  let newLen ← getNewSize wanted
  let kept ← b.buffer.load b.start b.dataLen
  let moved ← (Block.allocate (toSize newLen)).copyIn preReserveHeaderSize kept
  let filled ← moved.copyIn (preReserveHeaderSize+b.dataLen) (inputData.map some)
  let dataLen ← int (b.dataLen+toInt inputData.length)
  let end_ ← int (preReserveHeaderSize+dataLen)
  return ({b with buffer:=filled,bufferSize:=toSize newLen,dataLen,start:=preReserveHeaderSize,end_},dataLen)

-- Compaction moves the live bytes to the front of the same block, through a
-- temporary block when they are as long as the gap before them.
def keepLive (b : DataBuffer) (live : List (Option UInt8)) : Except Fault (List (Option UInt8)) :=
  if b.dataLen ≥ b.start then do
    let temp ← (Block.allocate (toSize b.dataLen)).copyIn 0 live
    temp.load 0 b.dataLen
  else .ok live

def appendCompact (b : DataBuffer) (inputData : List UInt8) : Except Fault (DataBuffer × Int) := do
  let live ← b.buffer.load b.start b.dataLen
  let kept ← b.keepLive live
  let moved ← b.buffer.copyIn preReserveHeaderSize kept
  let filled ← moved.copyIn (preReserveHeaderSize+b.dataLen) (inputData.map some)
  let dataLen ← int (b.dataLen+toInt inputData.length)
  let end_ ← int (preReserveHeaderSize+dataLen)
  return ({b with buffer:=filled,dataLen,start:=preReserveHeaderSize,end_},dataLen)

def appendInPlace (b : DataBuffer) (inputData : List UInt8) : Except Fault (DataBuffer × Int) := do
  let filled ← b.buffer.copyIn b.end_ (inputData.map some)
  let dataLen ← int (b.dataLen+toInt inputData.length)
  let end_ ← int (b.end_+toInt inputData.length)
  return ({b with buffer:=filled,dataLen,end_},dataLen)

def appendData (b : DataBuffer) (inputData : List UInt8) : Except Fault (DataBuffer × Int) :=
  if inputData = [] then .ok (b,0)
  else if toSize (b.end_+inputData.length) > toSize (b.bufferSize-preReserveHeaderSize) then
    if toSize (b.dataLen+inputData.length) ≥ toSize (b.bufferSize-preReserveHeaderSize) then b.appendGrow inputData
    else b.appendCompact inputData
  else b.appendInPlace inputData

def reset (b : DataBuffer) : DataBuffer :=
  {b with start:=preReserveHeaderSize,end_:=preReserveHeaderSize,dataLen:=0}

-- `none` is the null pointer, `some at` the position of the new front.
def consumeData (b : DataBuffer) (consumeLen : Int) : Except Fault (DataBuffer × Option Int) :=
  if consumeLen > b.dataLen then .ok (b,none)
  else do
    let start ← int (b.start+consumeLen)
    if consumeLen < 0 ∧ start < 0 then return (b,none)
    let dataLen ← int (b.dataLen-consumeLen)
    let moved := {b with start,dataLen}
    let next := if dataLen = 0 then moved.reset else moved
    return (next,some next.start)

-- What `Data()` and `DataLen()` show to a reader.
def data (b : DataBuffer) : List (Option UInt8) := b.buffer.view b.start.toNat b.dataLen.toNat

def require (b : DataBuffer) (len : Nat) : Bool := toInt len ≤ b.dataLen

-- The copy constructor: a new block with the `dataLen` bytes from the front of
-- the old one, and the old positions.
def copy (input : DataBuffer) : Except Fault DataBuffer := do
  let cells ← input.buffer.load 0 input.dataLen
  let buffer ← (Block.allocate (toSize (input.bufferSize+preReserveHeaderSize))).copyIn 0 cells
  return {
    sentFlag := input.sentFlag
    dstIp := input.dstIp
    dstPort := input.dstPort
    buffer
    bufferSize := input.bufferSize
    dataLen := input.dataLen
    start := input.start
    end_ := input.end_
  }

-- `operator=` from another object. The block of the target is not given back.
def assign (target input : DataBuffer) : Except Fault DataBuffer := do
  let cells ← input.buffer.load 0 input.dataLen
  let buffer ← (Block.allocate (toSize (input.bufferSize+preReserveHeaderSize))).copyIn 0 cells
  return {target with
    sentFlag := input.sentFlag
    dstIp := input.dstIp
    dstPort := input.dstPort
    buffer
    bufferSize := input.bufferSize
    dataLen := input.dataLen
    start := input.start
    end_ := input.end_
  }

inductive Operation where
  | appendData (inputData : List UInt8)
  | consumeData (consumeLen : Int)
  | reset
deriving DecidableEq,Repr

inductive Answer where
  | length (dataLen : Int)
  | position (front : Option Int)
  | nothing
deriving DecidableEq,Repr

def perform (b : DataBuffer) : Operation → Except Fault (DataBuffer × List Answer)
  | .appendData inputData => do
    let (next,dataLen) ← b.appendData inputData
    return (next,[.length dataLen])
  | .consumeData consumeLen => do
    let (next,front) ← b.consumeData consumeLen
    return (next,[.position front])
  | .reset => .ok (b.reset,[.nothing])

def machine (initial : DataBuffer) : Machine DataBuffer Operation Answer Fault := ⟨initial,perform⟩

end DataBuffer
end CoStream
