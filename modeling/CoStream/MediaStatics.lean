import CoStream.Foundation.Undefined

namespace CoStream.MediaStatics
open Foundation

inductive Stop where
  | signedOverflow
  | divisionByZero
deriving DecidableEq,Repr

inductive MediaPktType where
  | unknown
  | video
  | audio
  | movbox
  | metadata
deriving DecidableEq,Repr

-- `dataLen` is what `buffer_ptr_->DataLen()` answers.
structure MediaPacket where
  avType : MediaPktType := .unknown
  dts : Int := -1
  isKeyFrame : Bool := false
  dataLen : Nat
deriving DecidableEq,Repr

-- The fields that there are once for video and once for audio.
structure Track where
  lastTs : Int := -1
  bytes : Int := 0
  frames : Int := 0
  lastBytes : Int := 0
  lastFrames : Int := 0
  kbitsSec : Int := 0
  framesSec : Int := 0
deriving DecidableEq,Repr

structure Stats where
  interval : Int
  video : Track := {}
  audio : Track := {}
  gopFrames : Int := 0
  gop : Int := 0
deriving DecidableEq,Repr

def defInterval : Int := 2000

def create (interval : Int) : Stats := {interval:=if interval < defInterval then defInterval else interval}

-- What one report is computed from: the counts of its window and its divisor.
structure Report where
  bytes : Int
  frames : Int
  diffT : Int
deriving DecidableEq,Repr

def checked (x : Int) : Except Stop Int := if FitsInt64 x then .ok x else .error .signedOverflow
def checkedInt (x : Int) : Except Stop Int := if FitsInt x then .ok x else .error .signedOverflow
def divide (x y : Int) : Except Stop Int := if y = 0 then .error .divisionByZero else checked (x.tdiv y)

-- A length is added as a `size_t`, so the sum keeps its low 64 bits.
def Track.count (t : Track) (dataLen : Nat) : Except Stop Track := do
  let frames ← checked (t.frames+1)
  .ok {t with bytes:=toInt64 (t.bytes+dataLen),frames}

-- A jump back is measured only where the time is the earlier one.
def Track.jumpsBack (t : Track) (interval currentTs : Int) : Except Stop Bool :=
  if currentTs < t.lastTs then do
    let gap ← checked (t.lastTs-currentTs)
    .ok (gap > interval)
  else .ok false

-- The part that the two handlers share behind the counting; a report is what
-- they return 1 for.
def Track.measure (t : Track) (interval currentTs : Int) : Except Stop (Track × Option Report) :=
  if t.lastTs < 0 then .ok ({t with lastTs:=currentTs},none)
  else do
    let back ← t.jumpsBack interval currentTs
    if back then .ok ({t with lastTs:=currentTs},none)
    else do
      let diffT ← checked (if currentTs > t.lastTs then currentTs-t.lastTs else t.lastTs-currentTs)
      if diffT ≥ interval then do
        let bytes ← checked (t.bytes-t.lastBytes)
        let frames ← checked (t.frames-t.lastFrames)
        let bits ← checked (bytes*8)
        let kbitsSec ← divide bits diffT
        let framesSec ← divide frames (diffT.tdiv 1000)
        .ok ({t with kbitsSec,framesSec,lastBytes:=t.bytes,lastFrames:=t.frames,lastTs:=currentTs},
          some ⟨bytes,frames,diffT⟩)
      else .ok (t,none)

def handleVideo (s : Stats) (pkt : MediaPacket) (currentTs : Int) : Except Stop (Stats × Option Report) := do
  let counted ← s.video.count pkt.dataLen
  let gopFrames ← checkedInt (s.gopFrames+1)
  let (gop,gopFrames) := if pkt.isKeyFrame then (gopFrames,0) else (s.gop,gopFrames)
  let (video,report) ← counted.measure s.interval currentTs
  .ok ({s with video,gop,gopFrames},report)

def handleAudio (s : Stats) (pkt : MediaPacket) (currentTs : Int) : Except Stop (Stats × Option Report) := do
  let counted ← s.audio.count pkt.dataLen
  let (audio,report) ← counted.measure s.interval currentTs
  .ok ({s with audio},report)

-- `now` is what `now_millisec()` answers.
structure Input where
  pkt : Option MediaPacket
  basedOnSysTime : Bool := true
  now : Int := 0
deriving DecidableEq,Repr

def Input.currentTs (input : Input) (pkt : MediaPacket) : Int := if input.basedOnSysTime then input.now else pkt.dts

def inputPacket (s : Stats) (input : Input) : Except Stop (Stats × Option Report) :=
  match input.pkt with
  | none => .ok (s,none)
  | some pkt =>
    match pkt.avType with
    | .video => handleVideo s pkt (input.currentTs pkt)
    | .audio => handleAudio s pkt (input.currentTs pkt)
    | _ => .ok (s,none)

end CoStream.MediaStatics
