import Mathlib.Algebra.Ring.Int.Defs

namespace Foundation

-- A party that looks at the clock now and then, pings when its last ping lies
-- more than an interval back, and keeps the time at which it last heard from the
-- other side. The time of its last look, the time of the last event and the pings
-- are history.
structure Heartbeat where
  lastPing : Int
  lastPong : Int
  lastTick : Int
  clock : Int
  pings : List Int
deriving DecidableEq,Repr

namespace Heartbeat

inductive Beat where
  | tick (now : Int)
  | heard (now : Int)
  | other (now : Int)

def Beat.now : Beat → Int
  | .tick now => now
  | .heard now => now
  | .other now => now

def beat (interval : Int) (h : Heartbeat) : Beat → Heartbeat
  | .tick now =>
    if now-h.lastPing > interval then {h with lastPing:=now,lastTick:=now,clock:=now,pings:=now::h.pings}
    else {h with lastTick:=now,clock:=now}
  | .heard now => {h with lastPong:=now,clock:=now}
  | .other now => {h with clock:=now}

-- The clock goes forward, the last look is not too long ago, and a ping that is
-- older than a delay has been heard of.
structure Prompt (gap delay : Int) (h : Heartbeat) (now : Int) : Prop where
  forward : h.clock ≤ now
  looked : now-h.lastTick ≤ gap
  answered : ∀ ping ∈ h.pings, ping+delay < now → ping ≤ h.lastPong

theorem prompt_iff {gap delay now : Int} {h : Heartbeat} : Prompt gap delay h now ↔ h.clock ≤ now ∧
    now-h.lastTick ≤ gap ∧ ∀ ping ∈ h.pings, ping+delay < now → ping ≤ h.lastPong :=
  ⟨fun prompt => ⟨prompt.forward,prompt.looked,prompt.answered⟩,fun ⟨forward,looked,answered⟩ => ⟨forward,looked,answered⟩⟩

instance {gap delay now : Int} {h : Heartbeat} : Decidable (Prompt gap delay h now) := decidable_of_iff' _ prompt_iff

-- Up to the last look, there is never a long time without a ping. The start
-- counts as one.
structure Beating (interval gap start : Int) (h : Heartbeat) : Prop where
  since : start ≤ h.lastTick
  ticked : h.lastTick ≤ h.clock
  heard : start ≤ h.lastPong
  pinged : h.lastPing ∈ h.pings ∨ h.lastPing ≤ start
  before : h.lastPing ≤ h.lastTick
  recent : h.lastTick-h.lastPing ≤ interval ∨ h.lastTick = start
  dense : ∀ time, start ≤ time → time ≤ h.lastTick →
    ∃ ping, (ping ∈ h.pings ∨ ping ≤ start) ∧ time-(interval+gap) ≤ ping ∧ ping ≤ time

variable {interval gap delay start now : Int} {h : Heartbeat}

theorem tick_lastPing : (h.beat interval (.tick now)).lastPing = if now-h.lastPing > interval then now else h.lastPing := by
  unfold beat
  dsimp only
  split <;> rfl

theorem beat_clock (b : Beat) : (h.beat interval b).clock = b.now := by
  unfold beat
  cases b with
  | tick now =>
    dsimp only
    split <;> rfl
  | _ => rfl

theorem tick_lastPong : (h.beat interval (.tick now)).lastPong = h.lastPong := by
  unfold beat
  dsimp only
  split <;> rfl

theorem beating_start (room : 0 ≤ interval+gap) (lastPing : Int) (early : lastPing ≤ start) (lastPong : Int)
    (heard : start ≤ lastPong) : Beating interval gap start ⟨lastPing,lastPong,start,start,[]⟩ where
  since := Int.le_refl _
  ticked := Int.le_refl _
  heard := heard
  pinged := .inr early
  before := early
  recent := .inr rfl
  dense := by
    intro time behind upTo
    have same : time ≤ start := upTo
    exact ⟨start,.inr (Int.le_refl _),by omega,behind⟩

-- A ping that was sent in time before some moment.
theorem Beating.bridge (beating : Beating interval gap start h) (positive : 0 ≤ interval) (time : Int)
    (within : time-h.lastTick ≤ gap) :
    ∃ ping, (ping ∈ h.pings ∨ ping ≤ start) ∧ time-(interval+gap) ≤ ping ∧ ping ≤ h.lastTick := by
  have since := beating.since
  have before := beating.before
  rcases beating.recent with recent | first
  · exact ⟨h.lastPing,beating.pinged,by omega,before⟩
  · exact ⟨start,.inr (Int.le_refl _),by omega,since⟩

theorem Beating.tick (beating : Beating interval gap start h) (positive : 0 ≤ interval) (prompt : Prompt gap delay h now) :
    Beating interval gap start (h.beat interval (.tick now)) := by
  have forward := prompt.forward
  have looked := prompt.looked
  have ticked := beating.ticked
  have since := beating.since
  have before := beating.before
  have dense : ∀ time, start ≤ time → time ≤ now →
      ∃ ping, (ping ∈ h.pings ∨ ping ≤ start) ∧ time-(interval+gap) ≤ ping ∧ ping ≤ time := by
    intro time behind upTo
    by_cases early : time ≤ h.lastTick
    · exact beating.dense time behind early
    · obtain ⟨ping,sent,late,below⟩ := beating.bridge positive time (by omega)
      exact ⟨ping,sent,late,by omega⟩
  unfold beat
  dsimp only
  split
  · exact {
      since := by dsimp only; omega
      ticked := Int.le_refl _
      heard := beating.heard
      pinged := .inl (List.mem_cons_self)
      before := Int.le_refl _
      recent := .inl (by dsimp only; omega)
      dense := by
        intro time behind upTo
        obtain ⟨ping,sent,late,below⟩ := dense time behind upTo
        exact ⟨ping,sent.imp_left (List.mem_cons_of_mem _),late,below⟩}
  · exact {
      since := by dsimp only; omega
      ticked := Int.le_refl _
      heard := beating.heard
      pinged := beating.pinged
      before := by dsimp only; omega
      recent := .inl (by dsimp only; omega)
      dense := dense}

theorem Beating.beat (beating : Beating interval gap start h) (positive : 0 ≤ interval) (b : Beat)
    (prompt : Prompt gap delay h b.now) : Beating interval gap start (h.beat interval b) := by
  have forward := prompt.forward
  have ticked := beating.ticked
  have since := beating.since
  cases b with
  | tick now => exact beating.tick positive prompt
  | heard now =>
    have later : h.clock ≤ now := forward
    exact {beating with
      ticked := by show h.lastTick ≤ now; omega
      heard := by show start ≤ now; omega}
  | other now =>
    have later : h.clock ≤ now := forward
    exact {beating with ticked := by show h.lastTick ≤ now; omega}

-- So it was heard of not long ago: pings come at least every interval and gap,
-- and each of them is heard of in time.
theorem Beating.heard_lately (beating : Beating interval gap start h) (positive : 0 ≤ interval) (patient : 0 ≤ delay)
    (prompt : Prompt gap delay h now) : now-h.lastPong ≤ interval+gap+delay+1 := by
  have forward := prompt.forward
  have looked := prompt.looked
  have ticked := beating.ticked
  have since := beating.since
  have heard := beating.heard
  have answered : ∀ ping, (ping ∈ h.pings ∨ ping ≤ start) → ping+delay < now → ping ≤ h.lastPong := by
    rintro ping (sent | early) due
    · exact prompt.answered ping sent due
    · omega
  -- The moment that is just more than a delay ago.
  by_cases early : now-delay-1 < start
  · omega
  · by_cases seen : now-delay-1 ≤ h.lastTick
    · obtain ⟨ping,sent,late,below⟩ := beating.dense (now-delay-1) (by omega) seen
      have due := answered ping sent (by omega)
      omega
    · obtain ⟨ping,sent,late,below⟩ := beating.bridge positive (now-delay-1) (by omega)
      have due := answered ping sent (by omega)
      omega

end Heartbeat
end Foundation
