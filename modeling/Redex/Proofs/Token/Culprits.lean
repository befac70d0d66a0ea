import Redex.Proofs.Token.Steps

/-! # Where faults are reported

    The position of an error is that of a character of the text, and the cause says what is
    wrong with this character and with the text around it (`Culprit`).

    The steps before a fault are only more text in front of the character, and no cause looks
    at how that text begins (`Culprit.append`).  So it is enough to look at a text that begins
    with its fault (`Fault.exists_culprit`). -/

namespace Redex.Token

open Text

/-- The text ends with a marker, and nothing but white space behind it. -/
def EndsWithMarker (before : List Char) : Prop :=
  ∃ front marker gap, before = front ++ marker :: gap ∧ isMarker marker = true ∧ IsGap gap

/-- The text ends with a marker, white space, and the beginning of a name or nothing. -/
def EndsInBinder (before : List Char) : Prop :=
  ∃ front name, before = front ++ name ∧ EndsWithMarker front ∧
    (name = [] ∨ isBinderName (String.ofList name) = true)

/-- What a cause says about a character with the given text before and after it. -/
def Culprit (before : List Char) (c : Char) (after : List Char) : LexError.Cause → Prop
  | .emptyVariableName => endsBinder c = true ∧ EndsWithMarker before
  | .invalidCharacter char =>
    char = c ∧ c ∉ punctuation ∧ c.isAlpha = false ∧ isBlank c = false ∧ isControl c = false
  | .invalidVariableName =>
    isAlphanumeric c = true ∧ c.isLower = false ∧ endsBinder c = false ∧ EndsWithMarker before
  | .invalidBinderCharacter char =>
    char = c ∧ isBlank c = false ∧ isAlphanumeric c = false ∧ endsBinder c = false ∧
      EndsInBinder before
  | .emptyBinder => isMarker c = true ∧ IsGap after
  | .invalidArrow => c = '-' ∧ after.head? ≠ some '>'
  -- behind the white space there is nothing, or a colon
  | .trailingDot => c = '.' ∧
    ∃ gap rest, after = gap ++ rest ∧ IsGap gap ∧ ∀ d ∈ rest.head?, d = ':'

/-! ### More text in front -/

theorem EndsWithMarker.append {before : List Char} (h : EndsWithMarker before)
    (piece : List Char) : EndsWithMarker (piece ++ before) := by
  obtain ⟨front, marker, gap, rfl, hmarker, hgap⟩ := h
  exact ⟨piece ++ front, marker, gap, by rw [List.append_assoc], hmarker, hgap⟩

theorem EndsInBinder.append {before : List Char} (h : EndsInBinder before)
    (piece : List Char) : EndsInBinder (piece ++ before) := by
  obtain ⟨front, name, rfl, hfront, hname⟩ := h
  exact ⟨piece ++ front, name, by rw [List.append_assoc], hfront.append piece, hname⟩

/-- No cause depends on how the text before its character begins. -/
theorem Culprit.append {before after : List Char} {c : Char} {cause : LexError.Cause}
    (h : Culprit before c after cause) (piece : List Char) :
    Culprit (piece ++ before) c after cause := by
  cases cause with
  | emptyVariableName => exact ⟨h.1, h.2.append piece⟩
  | invalidVariableName =>
    obtain ⟨hc, hlower, hends, hbefore⟩ := h
    exact ⟨hc, hlower, hends, hbefore.append piece⟩
  | invalidBinderCharacter char =>
    obtain ⟨hchar, hblank, hc, hends, hbefore⟩ := h
    exact ⟨hchar, hblank, hc, hends, hbefore.append piece⟩
  | invalidCharacter | emptyBinder | invalidArrow | trailingDot => exact h

/-! ### The character of a fault -/

theorem endsWithMarker_cons {marker : Char} {gap : List Char} (hmarker : isMarker marker = true)
    (hgap : IsGap gap) : EndsWithMarker (marker :: gap) :=
  ⟨[], marker, gap, rfl, hmarker, hgap⟩

/-- The offset of a fault is that of a character which the cause is about. -/
theorem Fault.exists_culprit {text : List Char} {cause : LexError.Cause} {offset : Nat}
    (h : Fault text cause offset) :
    ∃ before c after, text = before ++ c :: after ∧ before.length = offset ∧
      Culprit before c after cause := by
  cases h with
  | emptyBinder hmarker hgap => exact ⟨[], _, _, rfl, rfl, hmarker, hgap⟩
  | @emptyVariableName marker d gap rest hmarker hgap hends =>
    refine ⟨marker :: gap, d, rest, rfl, ?_, hends, endsWithMarker_cons hmarker hgap⟩
    rw [List.length_cons, Nat.add_comm]
  | @invalidVariableName marker d gap rest hmarker hgap hends hd hlower =>
    refine ⟨marker :: gap, d, rest, rfl, ?_, hd, hlower, hends,
      endsWithMarker_cons hmarker hgap⟩
    rw [List.length_cons, Nat.add_comm]
  | @invalidFirst marker d gap rest hmarker hgap hblank hends hd =>
    have hbinder : EndsInBinder (marker :: gap) :=
      ⟨marker :: gap, [], (List.append_nil _).symm, endsWithMarker_cons hmarker hgap, .inl rfl⟩
    refine ⟨marker :: gap, d, rest, rfl, ?_, rfl, hblank, hd, hends, hbinder⟩
    rw [List.length_cons, Nat.add_comm]
  | @invalidNext marker d gap rest name hmarker hgap hname hblank hends hd =>
    have hvalid : isBinderName (String.ofList name.toList) = true := by
      rw [String.ofList_toList]
      exact hname
    have hbinder : EndsInBinder (marker :: gap ++ name.toList) :=
      ⟨marker :: gap, name.toList, rfl, endsWithMarker_cons hmarker hgap, .inr hvalid⟩
    refine ⟨marker :: gap ++ name.toList, d, rest, ?_, ?_, rfl, hblank, hd, hends, hbinder⟩
    · rw [List.append_assoc, List.cons_append]
    · rw [List.length_append, List.length_cons, String.length_toList, Nat.add_comm 1]
  | invalidArrow hrest => exact ⟨[], '-', _, rfl, rfl, rfl, hrest⟩
  | trailingDot hgap hrest => exact ⟨[], '.', _, rfl, rfl, rfl, _, _, rfl, hgap, hrest⟩
  | @invalidCharacter c rest hc halpha hblank hcontrol =>
    exact ⟨[], c, rest, rfl, rfl, rfl, hc, halpha, hblank, hcontrol⟩

/-- An error points at a character of the text, which the cause is about. -/
theorem exists_culprit_of_scanFrom {pos : Nat} {text : List Char} {e : LexError}
    (h : scanFrom pos text = .error e) :
    ∃ before c after, text = before ++ c :: after ∧ e.pos = pos + before.length ∧
      Culprit before c after e.cause := by
  induction text using steps_induction generalizing pos with
  | nil =>
    rw [Scans.nil] at h
    cases h
  | reads piece new rest hreads ih =>
    -- the error is that of the text behind the step, which has moved on with the position
    rw [hreads.scanFrom_eq] at h
    cases hrest : scanFrom (pos + piece.length) rest with
    | ok tokens =>
      rw [hrest] at h
      cases h
    | error e' =>
      rw [hrest] at h
      cases h
      obtain ⟨before, c, after, rfl, hpos, hculprit⟩ := ih hrest
      refine ⟨piece ++ before, c, after, by rw [List.append_assoc], ?_, hculprit.append piece⟩
      rw [hpos, List.length_append, Nat.add_assoc]
  | fault text cause offset hfault =>
    rw [hfault.scanFrom_eq] at h
    cases h
    obtain ⟨before, c, after, htext, hoffset, hculprit⟩ := hfault.exists_culprit
    exact ⟨before, c, after, htext, by rw [hoffset], hculprit⟩

/-- A cause names the character that it is about, or none at all. -/
theorem Culprit.char?_eq {before after : List Char} {c : Char} {cause : LexError.Cause}
    (h : Culprit before c after cause) :
    cause.char? =
      if cause.name ∈ ["InvalidCharacter", "InvalidLambdaVariableChar"] then some c
      else none := by
  cases cause with
  | invalidCharacter char =>
    obtain ⟨rfl, -⟩ := h
    rfl
  | invalidBinderCharacter char =>
    obtain ⟨rfl, -⟩ := h
    rfl
  | emptyVariableName | invalidVariableName | emptyBinder | invalidArrow | trailingDot => rfl

/-- An error of the scanner points at a character of the text.  It names this character where its
    cause is one of those that name any, and the character and the text around it are what the
    cause says they are. -/
theorem scan_error_culprit {text : String} {e : LexError} (h : scan text = .error e) :
    1 ≤ e.pos ∧ e.pos ≤ text.length ∧
    ∃ before c after, text.toList = before ++ c :: after ∧ e.pos = before.length + 1 ∧
      e.cause.char? =
        (if e.cause.name ∈ ["InvalidCharacter", "InvalidLambdaVariableChar"] then some c
          else none) ∧
      Culprit before c after e.cause := by
  obtain ⟨before, c, after, htext, hpos, hculprit⟩ := exists_culprit_of_scanFrom h
  have hlength : text.length = before.length + (after.length + 1) := by
    rw [← String.length_toList, htext, List.length_append, List.length_cons]
  refine ⟨by omega, by omega, before, c, after, htext, ?_, hculprit.char?_eq, hculprit⟩
  rw [hpos, Nat.add_comm]

/-- In `(λ x1$` the name `x1` ends with a character that has no place there, the sixth. -/
theorem scan_error_culprit_behind_name :
    scan "(λ x1$" = .error ⟨.invalidBinderCharacter '$', 6⟩ ∧
    ∃ before after, "(λ x1$".toList = before ++ '$' :: after ∧ 6 = before.length + 1 ∧
      EndsInBinder before := by
  have hgap : IsGap [' '] := List.all_eq_true.1 (by decide)
  have hfault : Fault ['λ', ' ', 'x', '1', '$'] (.invalidBinderCharacter '$') 4 :=
    @Fault.invalidNext 'λ' '$' [' '] [] "x1" (by decide) hgap (by decide) (by decide)
      (by decide) (by decide)
  have hstep : Reads ['('] [⟨.lparen, ""⟩] ['λ', ' ', 'x', '1', '$'] := .symbol (by decide)
  have hscan : scan "(λ x1$" = .error ⟨.invalidBinderCharacter '$', 6⟩ := by
    show scanFrom 1 (['('] ++ ['λ', ' ', 'x', '1', '$']) = _
    rw [hstep.scanFrom_eq, hfault.scanFrom_eq]
    rfl
  obtain ⟨-, -, before, c, after, htext, hpos, -, rfl, -, -, -, hbefore⟩ :=
    scan_error_culprit hscan
  exact ⟨hscan, before, after, htext, hpos, hbefore⟩

end Redex.Token
