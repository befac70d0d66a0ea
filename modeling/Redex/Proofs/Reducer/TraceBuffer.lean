import Redex.Reducer

/-! # Trace buffers

    A trace can be kept without a log, in an array with a place for each event that it has
    room for.  Events are written from the front until the array is full, and the ones behind
    are lost.  The array is not cleared between reductions, so places from an index on may
    still hold events of earlier ones; and it is made anew whenever tracing is enabled.

    A buffer shows what the window on a log shows (`Shows`).  Recording an event, starting
    afresh and enabling keep this up, as long as the log does the same. -/

namespace Redex

open Reduction

/-- A buffer for events. -/
structure TraceBuffer where
  /-- The places for events.  A place that was never written holds nothing. -/
  places : Array (Option Event)
  capacity : Nat
  /-- The place that the next event goes to. -/
  index : Nat
  on : Bool
  size_places : places.size = capacity
  index_le : index ≤ capacity

namespace TraceBuffer

/-- The buffer of a reducer that has never traced. -/
def off : TraceBuffer where
  places := #[]
  capacity := 0
  index := 0
  on := false
  size_places := rfl
  index_le := Nat.le_refl 0

/-- Writes an event to the next place, unless the buffer is off or full. -/
def record (buffer : TraceBuffer) (event : Event) : TraceBuffer :=
  if h : buffer.on = false ∨ buffer.capacity ≤ buffer.index then buffer
  else
    { buffer with
      places := buffer.places.set buffer.index (some event)
        (by rw [buffer.size_places]; omega)
      index := buffer.index + 1
      size_places := by rw [Array.size_set, buffer.size_places]
      index_le := by omega }

/-- Starts again at the first place.  What is in the places stays there. -/
def reset (buffer : TraceBuffer) : TraceBuffer :=
  { buffer with index := 0, index_le := Nat.zero_le _ }

/-- A new buffer with room for `capacity` events, and for one at least. -/
def enabled (capacity : Int) : TraceBuffer :=
  let room := if capacity ≤ 0 then 1 else capacity.toNat
  { places := .replicate room none
    capacity := room
    index := 0
    on := true
    size_places := Array.size_replicate
    index_le := Nat.zero_le _ }

def disable (buffer : TraceBuffer) : TraceBuffer :=
  { buffer with on := false }

/-- The places written since the start, unless the buffer is off. -/
def snapshot (buffer : TraceBuffer) : Option (List (Option Event)) :=
  if buffer.on then some (buffer.places.toList.take buffer.index) else none

/-! ### What a buffer keeps -/

/-- The places before the index hold the first of the events, as many as there is room for. -/
def Keeps (buffer : TraceBuffer) (events : List Event) : Prop :=
  buffer.places.toList.take buffer.index = (events.take buffer.capacity).map some

variable {buffer : TraceBuffer} {events log : List Event} {window : Option TraceWindow}

theorem Keeps.index_eq (h : buffer.Keeps events) :
    buffer.index = min buffer.capacity events.length := by
  have hlength := congrArg List.length h
  have hindex := buffer.index_le
  rw [List.length_take, Array.length_toList, buffer.size_places, List.length_map,
    List.length_take] at hlength
  omega

/-- Recording an event behind the others. -/
theorem Keeps.record (h : buffer.Keeps events) (hon : buffer.on = true) (event : Event) :
    (buffer.record event).Keeps (events ++ [event]) := by
  have hindex := h.index_eq
  unfold TraceBuffer.record
  split
  · -- the buffer is full, and so the event is not among those that it has room for
    rename_i hfull
    have hfull : buffer.capacity ≤ buffer.index := by simpa [hon] using hfull
    unfold Keeps
    rw [List.take_append_of_le_length (by omega)]
    exact h
  · rename_i hroom
    have hplace : buffer.index < buffer.places.size := by
      rw [buffer.size_places]
      omega
    have hfits : (events ++ [event]).length ≤ buffer.capacity := by
      rw [List.length_append, List.length_singleton]
      omega
    show ((buffer.places.set buffer.index (some event) hplace).toList.take (buffer.index + 1)) =
      ((events ++ [event]).take buffer.capacity).map some
    rw [List.take_of_length_le hfits, List.take_add_one, Array.toList_set,
      List.take_set_of_le (Nat.le_refl _), h, List.take_of_length_le (by omega), List.map_append]
    congr 1
    simp [hplace]

theorem keeps_nil (h : buffer.index = 0) : buffer.Keeps [] := by
  unfold Keeps
  rw [h]
  simp

/-! ### What a buffer shows -/

/-- The buffer shows what the window on a log shows.  The log has its latest event first. -/
inductive Shows (buffer : TraceBuffer) (log : List Event) : Option TraceWindow → Prop where
  | off (hoff : buffer.on = false) : Shows buffer log none
  | on {start : Nat} (hon : buffer.on = true) (hstart : start ≤ log.length)
      (hkeeps : buffer.Keeps (log.reverse.drop start)) :
      Shows buffer log (some ⟨start, buffer.capacity⟩)

theorem Shows.record (h : buffer.Shows log window) (event : Event) :
    (buffer.record event).Shows (event :: log) window := by
  cases h with
  | off hoff =>
    have hsame : buffer.record event = buffer := dif_pos (.inl hoff)
    rw [hsame]
    exact .off hoff
  | @on start hon hstart hkeeps =>
    have hroom : (buffer.record event).capacity = buffer.capacity := by
      unfold TraceBuffer.record
      split <;> rfl
    have hstays : (buffer.record event).on = true := by
      unfold TraceBuffer.record
      split <;> exact hon
    rw [← hroom]
    apply Shows.on hstays (Nat.le_succ_of_le hstart)
    rw [List.reverse_cons, List.drop_append_of_le_length (by rwa [List.length_reverse])]
    exact hkeeps.record hon event

/-- A log that starts afresh, and the buffer with it. -/
theorem Shows.reset (h : buffer.Shows log window) :
    buffer.reset.Shows [] (window.map ({ · with start := 0 })) := by
  cases h with
  | off hoff => exact .off hoff
  | on hon => exact .on hon (Nat.le_refl 0) (keeps_nil rfl)

/-- A window on an empty log starts at its front. -/
theorem Shows.map_start_eq (h : buffer.Shows [] window) :
    window.map ({ · with start := 0 }) = window := by
  cases h with
  | off hoff => rfl
  | on hon hstart hkeeps =>
    obtain rfl := Nat.le_zero.1 hstart
    rfl

theorem shows_enabled (capacity : Int) (log : List Event) :
    (enabled capacity).Shows log (some ⟨log.length, max 1 capacity.toNat⟩) := by
  have hroom : max 1 capacity.toNat = (enabled capacity).capacity := by
    show max 1 capacity.toNat = if capacity ≤ 0 then 1 else capacity.toNat
    split <;> omega
  rw [hroom]
  apply Shows.on rfl (Nat.le_refl _)
  rw [List.drop_of_length_le (Nat.le_of_eq List.length_reverse)]
  exact keeps_nil rfl

theorem Shows.snapshot_eq (h : buffer.Shows log window) :
    buffer.snapshot = window.map fun window =>
      ((log.reverse.drop window.start).take window.capacity).map some := by
  unfold snapshot
  cases h with
  | off hoff =>
    rw [hoff]
    rfl
  | on hon _ hkeeps =>
    rw [hon, if_pos rfl, hkeeps]
    rfl

end TraceBuffer

end Redex
