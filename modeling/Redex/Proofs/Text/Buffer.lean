import Redex.Proofs.Token.Scanning
import Redex.Text.Lines

/-! # Reading lines through a buffer

    The bytes of a file come in chunks, as many bytes at a time as the source hands out, and
    go into a buffer.  A line is delivered once its newline is in the buffer.  A buffer that is
    full and has no newline in it fails, even if the file ends there: the end of the file only
    shows at the next read, and there is no room for one.

    How the bytes are divided into chunks does not show.  Every reading delivers the lines that
    `linesOnto` finds in all bytes together (`delivers_iff`). -/

namespace Redex.Text

open Token (Stops)

/-- The lines that a reading delivers from the bytes in the buffer and those behind them, with
    room for `limit` bytes in the buffer.  Of each line the delivery drops one carriage return,
    and the reader of the lines another one.  The lines delivered before a failure are lost. -/
inductive Delivers (limit : Nat) :
    List UInt8 → List UInt8 → Except LinesError (List (List UInt8)) → Prop where
  /-- A newline in the buffer ends a line. -/
  | line {line buffer behind : List UInt8} {outcome : Except LinesError (List (List UInt8))}
      (first : newline ∉ line) (next : Delivers limit buffer behind outcome) :
      Delivers limit (line ++ newline :: buffer) behind
        (outcome.map (dropReturn (dropReturn line) :: ·))
  /-- Without a newline in the buffer a chunk is read. -/
  | read {buffer chunk behind : List UInt8} {outcome : Except LinesError (List (List UInt8))}
      (unended : newline ∉ buffer) (nonempty : chunk ≠ [])
      (room : buffer.length + chunk.length ≤ limit)
      (next : Delivers limit (buffer ++ chunk) behind outcome) :
      Delivers limit buffer (chunk ++ behind) outcome
  /-- There is no room for a read. -/
  | full {buffer behind : List UInt8} (unended : newline ∉ buffer)
      (full : limit ≤ buffer.length) :
      Delivers limit buffer behind (.error .tooLong)
  /-- A read finds the end of the file.  What is left in the buffer is the last line, unless
      nothing is left. -/
  | finish {buffer : List UInt8} (unended : newline ∉ buffer) (room : buffer.length < limit) :
      Delivers limit buffer []
        (.ok (if buffer.isEmpty then [] else [dropReturn (dropReturn buffer)]))

/-! ### The first line -/

theorem ne_newline_of_mem {line : List UInt8} (hline : newline ∉ line) :
    ∀ byte ∈ line, (byte != newline) = true := by
  intro byte hmem
  have hne : byte ≠ newline := fun h => hline (h ▸ hmem)
  simpa using hne

/-- A line with a newline behind it. -/
theorem linesOnto_line {line : List UInt8} (hline : newline ∉ line) (limit : Nat)
    (read : List (List UInt8)) (rest : List UInt8) :
    linesOnto limit read (line ++ newline :: rest) =
      if limit ≤ line.length then .error .tooLong
      else linesOnto limit (dropReturn (dropReturn line) :: read) rest := by
  have hrun := ne_newline_of_mem hline
  have hstop : Stops (· != newline) (newline :: rest) := .cons (by simp)
  rw [linesOnto, hstop.takeWhile_append hrun]
  split
  · rfl
  · split
    · rename_i hnil
      simp [hstop.dropWhile_append hrun] at hnil
    · rename_i hcons
      rw [hstop.dropWhile_append hrun] at hcons
      cases hcons
      rfl

/-- The bytes behind the last newline. -/
theorem linesOnto_last {line : List UInt8} (hline : newline ∉ line) (limit : Nat)
    (read : List (List UInt8)) :
    linesOnto limit read line =
      if limit ≤ line.length then .error .tooLong
      else .ok (if line.isEmpty then read else dropReturn (dropReturn line) :: read).reverse := by
  have hrun := ne_newline_of_mem hline
  have htake := Stops.nil.takeWhile_append hrun
  have hdrop := Stops.nil.dropWhile_append hrun
  rw [List.append_nil] at htake hdrop
  rw [linesOnto, htake]
  split
  · rfl
  · split
    · rfl
    · rename_i hcons
      simp [hdrop] at hcons

/-- A first line that alone takes more room than there is. -/
theorem linesOnto_full {line : List UInt8} (hline : newline ∉ line) {limit : Nat}
    (hfull : limit ≤ line.length) (read : List (List UInt8)) (rest : List UInt8) :
    linesOnto limit read (line ++ rest) = .error .tooLong := by
  have hlength : limit ≤ ((line ++ rest).takeWhile (· != newline)).length := by
    rw [List.takeWhile_append_of_pos (ne_newline_of_mem hline), List.length_append]
    omega
  rw [linesOnto, if_pos hlength]

/-- The lines already read stand before the others. -/
theorem linesOnto_eq_map (limit : Nat) (read : List (List UInt8)) (bytes : List UInt8) :
    linesOnto limit read bytes = (linesOnto limit [] bytes).map (read.reverse ++ ·) := by
  induction h : bytes.length using Nat.strongRecOn generalizing read bytes with
  | _ n ih =>
    by_cases hmem : newline ∈ bytes
    · obtain ⟨line, rest, rfl, hline⟩ := List.eq_append_cons_of_mem hmem
      rw [linesOnto_line hline, linesOnto_line hline]
      split
      · rfl
      · have hshort : rest.length < n := by
          rw [← h, List.length_append, List.length_cons]
          omega
        rw [ih _ hshort _ rest rfl, ih _ hshort [_] rest rfl]
        cases linesOnto limit [] rest <;> simp [Except.map]
    · rw [linesOnto_last hmem, linesOnto_last hmem]
      split
      · rfl
      · cases bytes <;> simp [Except.map]

/-! ### Readings -/

/-- Every reading delivers the lines of all bytes together. -/
theorem Delivers.eq_linesOnto {limit : Nat} {buffer behind : List UInt8}
    {outcome : Except LinesError (List (List UInt8))}
    (h : Delivers limit buffer behind outcome) (hroom : buffer.length ≤ limit) :
    outcome = linesOnto limit [] (buffer ++ behind) := by
  -- the buffer never holds more than it has room for, so a line in it is not too long
  induction h with
  | @line line buffer behind outcome first next ih =>
    rw [List.length_append, List.length_cons] at hroom
    have hshort : ¬ limit ≤ line.length := by omega
    rw [List.append_assoc, List.cons_append, linesOnto_line first, if_neg hshort,
      linesOnto_eq_map, ih (by omega)]
    rfl
  | @read buffer chunk behind outcome unended nonempty room next ih =>
    rw [← List.append_assoc]
    apply ih
    rw [List.length_append]
    exact room
  | full unended full => exact (linesOnto_full unended full _ _).symm
  | @finish buffer unended room =>
    rw [List.append_nil, linesOnto_last unended, if_neg (Nat.not_le.2 room)]
    cases buffer <;> rfl

/-- There is a reading, whatever the bytes. -/
theorem exists_delivers (limit : Nat) (buffer behind : List UInt8) :
    ∃ outcome, Delivers limit buffer behind outcome := by
  -- a read of one byte moves it to the buffer, and a line takes it out of there
  induction h : buffer.length + 2 * behind.length using Nat.strongRecOn
    generalizing buffer behind with
  | _ n ih =>
    by_cases hmem : newline ∈ buffer
    · obtain ⟨line, buffer, rfl, hline⟩ := List.eq_append_cons_of_mem hmem
      rw [List.length_append, List.length_cons] at h
      obtain ⟨outcome, hnext⟩ := ih (buffer.length + 2 * behind.length) (by omega) _ _ rfl
      exact ⟨_, .line hline hnext⟩
    · by_cases hfull : limit ≤ buffer.length
      · exact ⟨_, .full hmem hfull⟩
      · cases behind with
        | nil => exact ⟨_, .finish hmem (by omega)⟩
        | cons byte behind =>
          rw [List.length_cons] at h
          have hlength : (buffer ++ [byte]).length = buffer.length + 1 := by simp
          obtain ⟨outcome, hnext⟩ := ih ((buffer ++ [byte]).length + 2 * behind.length)
            (by omega) _ _ rfl
          exact ⟨outcome, .read hmem (List.cons_ne_nil _ _) (Nat.lt_of_not_le hfull) hnext⟩

/-- However the bytes are divided into chunks, they are read, and the outcome is that of all
    bytes together. -/
theorem delivers_iff {limit : Nat} {bytes : List UInt8}
    {outcome : Except LinesError (List (List UInt8))} :
    Delivers limit [] bytes outcome ↔ outcome = linesOnto limit [] bytes := by
  constructor
  · intro h
    exact h.eq_linesOnto (Nat.zero_le _)
  · intro h
    obtain ⟨other, hother⟩ := exists_delivers limit [] bytes
    have heq : other = linesOnto limit [] bytes := hother.eq_linesOnto (Nat.zero_le _)
    rw [h, ← heq]
    exact hother

end Redex.Text
