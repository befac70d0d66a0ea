import Redex.Proofs.Text.Buffer

/-! # Lines and their ends

    A text is written line by line, and each line with an end of its own: a newline, with up to
    two carriage returns before it.  Only the last line may go without.  Reading gives the lines
    back if each fits into the buffer, its end included, and fails if one of them does not,
    wherever it stands (`linesOfBytes_lined`).

    A last line without an end has one byte less room than the others: the buffer is not full
    when it is delivered, or the end of the text would not be seen. -/

namespace Redex.Text

/-- The end of a line. -/
inductive LineEnd where
  | lf
  | crlf
  | crcrlf
deriving DecidableEq, Repr

/-- The number of carriage returns in the end of a line. -/
def LineEnd.returns : LineEnd → Nat
  | .lf => 0
  | .crlf => 1
  | .crcrlf => 2

/-- The bytes of the end of a line. -/
def LineEnd.bytes (ending : LineEnd) : List UInt8 :=
  List.replicate ending.returns carriageReturn ++ [newline]

/-- A line: no byte of it could belong to its end. -/
structure Line where
  bytes : List UInt8
  no_newline : newline ∉ bytes
  no_return : bytes.getLast? ≠ some carriageReturn

/-- A line with its end. -/
structure EndedLine where
  line : Line
  ending : LineEnd

/-- The bytes of a line and of its end. -/
def EndedLine.bytes (ended : EndedLine) : List UInt8 :=
  ended.line.bytes ++ ended.ending.bytes

/-- A text made of lines.  The last one may have no end, unless it is empty. -/
structure LinedText where
  ended : List EndedLine
  last : Option Line
  last_ne_nil : ∀ line ∈ last, line.bytes ≠ []

namespace LinedText

/-- The bytes of a text. -/
def bytes (text : LinedText) : List UInt8 :=
  text.ended.flatMap EndedLine.bytes ++ (text.last.map Line.bytes).getD []

/-- The lines of a text without their ends. -/
def lines (text : LinedText) : List (List UInt8) :=
  text.ended.map (·.line.bytes) ++ (text.last.map Line.bytes).toList

/-- Every line fits into a buffer of `limit` bytes: with its end, or with one byte to spare. -/
def Fits (text : LinedText) (limit : Nat) : Prop :=
  (∀ ended ∈ text.ended, ended.bytes.length ≤ limit) ∧
    ∀ line ∈ text.last, line.bytes.length < limit

end LinedText

/-! ### One line -/

/-- A line has no carriage return at its end to be dropped. -/
theorem Line.dropReturn_bytes (line : Line) : dropReturn line.bytes = line.bytes := by
  unfold dropReturn
  exact if_neg line.no_return

theorem dropReturn_concat (bytes : List UInt8) :
    dropReturn (bytes ++ [carriageReturn]) = bytes := by
  simp [dropReturn]

/-- What stands before the newline is the line and up to two carriage returns, and dropping two
    of them leaves the line. -/
theorem EndedLine.dropReturn_returns (ended : EndedLine) :
    dropReturn (dropReturn
      (ended.line.bytes ++ List.replicate ended.ending.returns carriageReturn)) =
        ended.line.bytes := by
  obtain ⟨line, ending⟩ := ended
  cases ending with
  | lf => simp [LineEnd.returns, line.dropReturn_bytes]
  | crlf =>
    show dropReturn (dropReturn (line.bytes ++ [carriageReturn])) = line.bytes
    rw [dropReturn_concat, line.dropReturn_bytes]
  | crcrlf =>
    have htwo : line.bytes ++ [carriageReturn, carriageReturn] =
        line.bytes ++ [carriageReturn] ++ [carriageReturn] := by simp
    show dropReturn (dropReturn (line.bytes ++ [carriageReturn, carriageReturn])) = line.bytes
    rw [htwo, dropReturn_concat, dropReturn_concat]

/-- The newline of a line's end is the first one. -/
theorem EndedLine.newline_not_mem (ended : EndedLine) :
    newline ∉ ended.line.bytes ++ List.replicate ended.ending.returns carriageReturn := by
  have hne : newline ≠ carriageReturn := by decide
  simp [ended.line.no_newline, hne]

theorem EndedLine.length_bytes (ended : EndedLine) :
    ended.bytes.length = ended.line.bytes.length + ended.ending.returns + 1 := by
  simp [EndedLine.bytes, LineEnd.bytes]
  omega

/-- A line with its end is read as the line, if both fit. -/
theorem EndedLine.linesOnto_append (ended : EndedLine) (limit : Nat) (read : List (List UInt8))
    (rest : List UInt8) :
    linesOnto limit read (ended.bytes ++ rest) =
      if ended.bytes.length ≤ limit then linesOnto limit (ended.line.bytes :: read) rest
      else .error .tooLong := by
  have hbytes : ended.bytes ++ rest =
      ended.line.bytes ++ List.replicate ended.ending.returns carriageReturn
        ++ newline :: rest := by
    simp [EndedLine.bytes, LineEnd.bytes]
  have hlength : ended.bytes.length =
      (ended.line.bytes ++ List.replicate ended.ending.returns carriageReturn).length + 1 := by
    rw [ended.length_bytes, List.length_append, List.length_replicate]
  rw [hbytes, linesOnto_line ended.newline_not_mem, ended.dropReturn_returns, hlength]
  by_cases hfits : limit ≤
      (ended.line.bytes ++ List.replicate ended.ending.returns carriageReturn).length
  · rw [if_pos hfits, if_neg (by omega)]
  · rw [if_neg hfits, if_pos (by omega)]

/-- A last line without an end is read as it is, if it leaves a byte of the buffer free. -/
theorem Line.linesOnto_bytes (line : Line) (hne : line.bytes ≠ []) (limit : Nat)
    (read : List (List UInt8)) :
    linesOnto limit read line.bytes =
      if line.bytes.length < limit then .ok (line.bytes :: read).reverse
      else .error .tooLong := by
  have hnonempty : line.bytes.isEmpty = false := by simpa using hne
  rw [linesOnto_last line.no_newline, line.dropReturn_bytes, line.dropReturn_bytes, hnonempty]
  by_cases hfits : line.bytes.length < limit
  · rw [if_neg (Nat.not_le.2 hfits), if_pos hfits]
    rfl
  · rw [if_pos (Nat.not_lt.1 hfits), if_neg hfits]

/-! ### Whole texts -/

/-- Where everything fits, every line is read. -/
theorem LinedText.Fits.linesOnto_eq {text : LinedText} {limit : Nat} (h : text.Fits limit)
    (hlimit : 0 < limit) (read : List (List UInt8)) :
    linesOnto limit read text.bytes = .ok (read.reverse ++ text.lines) := by
  obtain ⟨ended, last, last_ne_nil⟩ := text
  obtain ⟨hended, hlast⟩ := h
  induction ended generalizing read with
  | nil =>
    cases last with
    | none =>
      have hempty : ¬ limit ≤ ([] : List UInt8).length := Nat.not_le.2 hlimit
      show linesOnto limit read [] = _
      rw [linesOnto_last List.not_mem_nil, if_neg hempty]
      simp [lines]
    | some line =>
      show linesOnto limit read line.bytes = _
      rw [line.linesOnto_bytes (last_ne_nil line rfl), if_pos (hlast line rfl)]
      simp [lines]
  | cons first ended ih =>
    have hfirst : first.bytes.length ≤ limit := hended first List.mem_cons_self
    have hothers : ∀ other ∈ ended, other.bytes.length ≤ limit :=
      fun other hmem => hended other (List.mem_cons_of_mem _ hmem)
    have hrest := ih (first.line.bytes :: read) hothers hlast
    simp only [bytes, lines] at hrest ⊢
    rw [List.flatMap_cons, List.append_assoc, first.linesOnto_append, if_pos hfirst, hrest]
    simp

/-- One line that does not fit is enough to lose all, wherever it stands. -/
theorem LinedText.linesOnto_of_not_fits {text : LinedText} {limit : Nat}
    (h : ¬ text.Fits limit) (read : List (List UInt8)) :
    linesOnto limit read text.bytes = .error .tooLong := by
  obtain ⟨ended, last, last_ne_nil⟩ := text
  induction ended generalizing read with
  | nil =>
    cases last with
    | none => exact absurd ⟨by simp, by simp⟩ h
    | some line =>
      have hlong : ¬ line.bytes.length < limit := by
        intro hfits
        refine h ⟨by simp, ?_⟩
        intro other hmem
        rwa [← Option.some.inj hmem]
      show linesOnto limit read line.bytes = _
      rw [line.linesOnto_bytes (last_ne_nil line rfl), if_neg hlong]
  | cons first ended ih =>
    simp only [bytes] at ih ⊢
    rw [List.flatMap_cons, List.append_assoc, first.linesOnto_append]
    by_cases hfirst : first.bytes.length ≤ limit
    · -- the first line fits, so one of the others does not
      rw [if_pos hfirst]
      apply ih
      rintro ⟨hended, hlast⟩
      refine h ⟨?_, hlast⟩
      rintro other (_ | ⟨_, hmem⟩)
      · exact hfirst
      · exact hended other hmem
    · rw [if_neg hfirst]

/-- Reading gives the lines of a text back, whatever their ends, if every line that has an end
    takes at most 1048576 bytes with it, and a last line without one at most 1048575 bytes.  As
    soon as one line takes more, reading fails and gives no line.  Both hold of every reading
    through a buffer, however the bytes come in. -/
theorem linesOfBytes_lined (text : LinedText) :
    ((∀ ended ∈ text.ended, ended.bytes.length ≤ 1048576) →
      (∀ line ∈ text.last, line.bytes.length ≤ 1048575) →
        linesOfBytes text.bytes = .ok text.lines) ∧
    ((∃ ended ∈ text.ended, 1048576 < ended.bytes.length) ∨
      (∃ line ∈ text.last, 1048575 < line.bytes.length) →
        linesOfBytes text.bytes = .error .tooLong) ∧
    ∀ outcome, Delivers 1048576 [] text.bytes outcome ↔ outcome = linesOfBytes text.bytes := by
  refine ⟨?_, ?_, ?_⟩
  · intro hended hlast
    have hfits : text.Fits lineLimit :=
      ⟨hended, fun line hmem => Nat.lt_succ_of_le (hlast line hmem)⟩
    exact hfits.linesOnto_eq (by decide) []
  · intro hlong
    apply LinedText.linesOnto_of_not_fits
    rintro ⟨hended, hlast⟩
    rcases hlong with ⟨ended, hmem, hlong⟩ | ⟨line, hmem, hlong⟩
    · exact Nat.not_le.2 hlong (hended ended hmem)
    · exact Nat.not_le.2 hlong (Nat.le_of_lt_succ (hlast line hmem))
  · intro outcome
    exact delivers_iff

/-- A line of as many letters as asked for. -/
def Line.letters (count : Nat) : Line where
  bytes := List.replicate count 97
  no_newline := by simp [List.mem_replicate, newline]
  no_return := by simp [List.getLast?_replicate, carriageReturn]

theorem Line.length_letters (count : Nat) : (Line.letters count).bytes.length = count :=
  List.length_replicate

theorem EndedLine.length_letters (count : Nat) :
    (EndedLine.mk (.letters count) .crlf).bytes.length = count + 2 := by
  rw [length_bytes, Line.length_letters]
  rfl

/-- A text of an empty line, a line of `first` letters and a last line of `last` letters. -/
def LinedText.ofLengths (first last : Nat) (h : 0 < last) : LinedText where
  ended := [⟨.letters 0, .crcrlf⟩, ⟨.letters first, .crlf⟩]
  last := some (.letters last)
  last_ne_nil := by
    intro line hmem
    rw [← Option.some.inj hmem]
    simpa [Line.letters] using Nat.ne_of_gt h

theorem LinedText.mem_ofLengths {first last : Nat} (h : 0 < last) {ended : EndedLine} :
    ended ∈ (ofLengths first last h).ended ↔
      ended = ⟨.letters 0, .crcrlf⟩ ∨ ended = ⟨.letters first, .crlf⟩ := by
  simp [ofLengths]

/-- Two lines take all the room that there is, and either of them with one letter more is too
    long. -/
theorem linesOfBytes_lined_limits :
    linesOfBytes (LinedText.ofLengths 1048574 1048575 (by decide)).bytes =
      .ok (LinedText.ofLengths 1048574 1048575 (by decide)).lines ∧
    linesOfBytes (LinedText.ofLengths 1048575 1048575 (by decide)).bytes = .error .tooLong ∧
    linesOfBytes (LinedText.ofLengths 1048574 1048576 (by decide)).bytes = .error .tooLong ∧
    Delivers 1048576 [] (LinedText.ofLengths 1048574 1048576 (by decide)).bytes
      (.error .tooLong) := by
  have hlong := (linesOfBytes_lined (.ofLengths 1048574 1048576 (by decide))).2.1
    (.inr ⟨.letters 1048576, rfl, by rw [Line.length_letters]; decide⟩)
  refine ⟨?_, ?_, hlong, ?_⟩
  · refine (linesOfBytes_lined (.ofLengths 1048574 1048575 (by decide))).1 ?_ ?_
    · intro ended hmem
      rcases (LinedText.mem_ofLengths _).1 hmem with rfl | rfl
      · decide
      · exact Nat.le_of_eq (EndedLine.length_letters 1048574)
    · intro line hmem
      rw [← Option.some.inj hmem]
      exact Nat.le_of_eq (Line.length_letters 1048575)
  · refine (linesOfBytes_lined (.ofLengths 1048575 1048575 (by decide))).2.1 (.inl ?_)
    refine ⟨⟨.letters 1048575, .crlf⟩, (LinedText.mem_ofLengths _).2 (.inr rfl), ?_⟩
    rw [EndedLine.length_letters]
    decide
  · exact ((linesOfBytes_lined _).2.2 _).2 hlong.symm

end Redex.Text
