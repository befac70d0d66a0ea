import Redex.Token.Lexer

/-! # Scanning one token after the other

    `Reads piece tokens rest` is one step of the scanner: a piece of text is read, provided that
    the text behind it does not go on with something that belongs to the piece.  These are the
    steps that the scanner takes (`Reads.scanFrom_eq`).

    `Scans text tokens` says that the scanner reads the tokens from the text, wherever the
    text stands.  Each step gives a rule: its piece in front of a text that scans gives a text
    that scans. -/

namespace Redex.Token

open Text

/-! ### Character classes -/

/-- The characters, other than letters, with which a token may start. -/
def punctuation : List Char :=
  ['\\', 'λ', '(', ')', '^', ':', '-', '.']

theorem isAlpha_eq_false_of_mem_punctuation {c : Char} (h : c ∈ punctuation) :
    c.isAlpha = false := by
  have hall : punctuation.all (fun c => !c.isAlpha) = true := by decide
  simpa using List.all_eq_true.1 hall c h

theorem isBlank_eq_false_of_mem_punctuation {c : Char} (h : c ∈ punctuation) :
    isBlank c = false := by
  have hall : punctuation.all (fun c => !isBlank c) = true := by decide
  simpa using List.all_eq_true.1 hall c h

theorem isControl_eq_false_of_mem_punctuation {c : Char} (h : c ∈ punctuation) :
    isControl c = false := by
  have hall : punctuation.all (fun c => !isControl c) = true := by decide
  simpa using List.all_eq_true.1 hall c h

theorem isUpper_iff {c : Char} : c.isUpper = true ↔ 65 ≤ c.toNat ∧ c.toNat ≤ 90 :=
  decide_eq_true_iff

theorem isLower_iff {c : Char} : c.isLower = true ↔ 97 ≤ c.toNat ∧ c.toNat ≤ 122 :=
  Bool.and_eq_true_iff.trans (and_congr decide_eq_true_iff decide_eq_true_iff)

theorem isDigit_iff {c : Char} : c.isDigit = true ↔ 48 ≤ c.toNat ∧ c.toNat ≤ 57 :=
  Bool.and_eq_true_iff.trans (and_congr decide_eq_true_iff decide_eq_true_iff)

theorem isAlpha_iff {c : Char} : c.isAlpha = true ↔ c.isUpper = true ∨ c.isLower = true :=
  Bool.or_eq_true_iff

theorem isBlank_eq_false_of_isAlpha {c : Char} (h : c.isAlpha = true) :
    isBlank c = false := by
  have hranges : ∀ run ∈ isBlank.blankRanges, run.2 < 65 ∨ 122 < run.1 := by decide
  rw [Bool.eq_false_iff, Ne, isBlank, Ranges.contains_iff]
  rintro ⟨run, hmem, hlow, hhigh⟩
  have hrun := hranges run hmem
  rw [isAlpha_iff, isUpper_iff, isLower_iff] at h
  omega

theorem isControl_eq_false_of_isAlpha {c : Char} (h : c.isAlpha = true) :
    isControl c = false := by
  rw [isAlpha_iff, isUpper_iff, isLower_iff] at h
  simp only [isControl, Bool.or_eq_false_iff, Bool.and_eq_false_iff, decide_eq_false_iff_not]
  omega

theorem contains_eq_false_of_apart {ranges others : Ranges}
    (h : ∀ run ∈ ranges, ∀ other ∈ others, run.2 < other.1 ∨ other.2 < run.1) {code : Nat}
    (hcode : others.contains code = true) : ranges.contains code = false := by
  rw [Bool.eq_false_iff, Ne, Ranges.contains_iff]
  rintro ⟨run, hrun, hlow, hhigh⟩
  obtain ⟨other, hother, hlow', hhigh'⟩ := (Ranges.contains_iff _ _).1 hcode
  have hapart := h run hrun other hother
  omega

/-- White space belongs to no name. -/
theorem isAlphanumeric_eq_false_of_isBlank {c : Char} (h : isBlank c = true) :
    isAlphanumeric c = false := by
  have hletters : ∀ run ∈ letterRanges, ∀ blank ∈ isBlank.blankRanges,
      run.2 < blank.1 ∨ blank.2 < run.1 := by decide +kernel
  have hdecimals : ∀ run ∈ decimalRanges, ∀ blank ∈ isBlank.blankRanges,
      run.2 < blank.1 ∨ blank.2 < run.1 := by decide +kernel
  have hranges : ∀ run ∈ isBlank.blankRanges, run.2 < 48 ∨ 57 < run.1 := by decide
  have halpha : c.isAlpha = false := by
    rw [Bool.eq_false_iff]
    intro halpha
    simp [isBlank_eq_false_of_isAlpha halpha] at h
  have hdigit : c.isDigit = false := by
    obtain ⟨run, hmem, hlow, hhigh⟩ := (Ranges.contains_iff _ _).1 h
    have hrun := hranges run hmem
    rw [Bool.eq_false_iff, Ne, isDigit_iff]
    omega
  simp [isAlphanumeric, isLetter, isDecimal, halpha, hdigit,
    contains_eq_false_of_apart hletters h, contains_eq_false_of_apart hdecimals h]

theorem isLower_eq_false_of_isUpper {c : Char} (h : c.isUpper = true) : c.isLower = false := by
  rw [isUpper_iff] at h
  rw [Bool.eq_false_iff, Ne, isLower_iff]
  omega

theorem not_mem_punctuation_of_isAlpha {c : Char} (h : c.isAlpha = true) :
    c ∉ punctuation := by
  intro hmem
  simp [isAlpha_eq_false_of_mem_punctuation hmem] at h

theorem endsBinder_eq_false_of_isAlpha {c : Char} (h : c.isAlpha = true) :
    endsBinder c = false := by
  have hc := not_mem_punctuation_of_isAlpha h
  simp only [punctuation, List.mem_cons, List.not_mem_nil, or_false, not_or] at hc
  simp [endsBinder, isMarker, hc]

/-- Of the two lambda markers only `λ` is a letter. -/
theorem continuesBinder_eq (c : Char) :
    continuesBinder c = (isAlphanumeric c && c != 'λ') := by
  have hbackslash : isAlphanumeric '\\' = false := by decide
  by_cases hc : c = '\\'
  · subst hc
    simp [continuesBinder, hbackslash]
  · have hmarker : isMarker c = (c == 'λ') := by simp [isMarker, hc]
    rw [continuesBinder, hmarker, bne]

/-- What may stand behind the name of a binder does not go on with it. -/
theorem continuesBinder_eq_false {c : Char} (h : endsBinder c = true ∨ isBlank c = true) :
    continuesBinder c = false := by
  rcases h with h | h
  · simp only [endsBinder, isMarker, Bool.or_eq_true, beq_iff_eq] at h
    rcases h with ((rfl | rfl) | rfl) | rfl | rfl <;> decide
  · simp [continuesBinder, isAlphanumeric_eq_false_of_isBlank h]

/-! ### Runs -/

section Stops

variable {α : Type} {p : α → Bool} {a : α} {run rest : List α}

/-- A list that does not start with a member of the class. -/
def Stops (p : α → Bool) (rest : List α) : Prop :=
  ∀ a ∈ rest.head?, p a = false

theorem Stops.nil : Stops p [] := by
  simp [Stops]

theorem Stops.cons (h : p a = false) : Stops p (a :: rest) := by
  simpa [Stops] using h

theorem Stops.takeWhile_eq (h : Stops p rest) : rest.takeWhile p = [] := by
  cases rest with
  | nil => rfl
  | cons a rest => simp [h a rfl]

theorem Stops.dropWhile_eq (h : Stops p rest) : rest.dropWhile p = rest := by
  cases rest with
  | nil => rfl
  | cons a rest => simp [h a rfl]

theorem Stops.takeWhile_append (h : Stops p rest) (hrun : ∀ a ∈ run, p a = true) :
    (run ++ rest).takeWhile p = run := by
  rw [List.takeWhile_append_of_pos hrun, h.takeWhile_eq, List.append_nil]

theorem Stops.dropWhile_append (h : Stops p rest) (hrun : ∀ a ∈ run, p a = true) :
    (run ++ rest).dropWhile p = rest := by
  rw [List.dropWhile_append_of_pos hrun, h.dropWhile_eq]

/-- Every list is a run of a class, and a rest that does not go on with it. -/
theorem exists_run_append (p : α → Bool) (text : List α) :
    ∃ run rest, text = run ++ rest ∧ (∀ a ∈ run, p a = true) ∧ Stops p rest := by
  refine ⟨text.takeWhile p, text.dropWhile p, List.takeWhile_append_dropWhile.symm,
    List.all_eq_true.1 List.all_takeWhile, ?_⟩
  intro a ha
  simpa [Option.mem_def.1 ha] using List.head?_dropWhile_not p text

end Stops

/-! ### Names -/

/-- A name is a character of one class, and characters of another behind it. -/
def isName (first next : Char → Bool) (name : String) : Bool :=
  match name.toList with
  | [] => false
  | c :: text => first c && text.all next

/-- An ASCII lower-case letter, and letters and digits of any script. -/
def isVariableName : String → Bool :=
  isName Char.isLower isAlphanumeric

/-- The name of a variable without `λ`. -/
def isBinderName : String → Bool :=
  isName Char.isLower fun c => isAlphanumeric c && c != 'λ'

/-- An ASCII upper-case letter, and letters and digits of any script. -/
def isTypeName : String → Bool :=
  isName Char.isUpper isAlphanumeric

theorem exists_of_isName {first next : Char → Bool} {name : String}
    (h : isName first next name = true) :
    ∃ c text, name = String.ofList (c :: text) ∧ first c = true ∧ ∀ d ∈ text, next d = true := by
  unfold isName at h
  split at h
  · simp at h
  · rename_i c text hname
    rw [Bool.and_eq_true, List.all_eq_true] at h
    exact ⟨c, text, by rw [← hname, String.ofList_toList], h.1, h.2⟩

theorem isName_ofList {first next : Char → Bool} {c : Char} {text : List Char}
    (hc : first c = true) (htext : ∀ d ∈ text, next d = true) :
    isName first next (String.ofList (c :: text)) = true := by
  simp only [isName, String.toList_ofList, Bool.and_eq_true, List.all_eq_true]
  exact ⟨hc, htext⟩

/-! ### Steps -/

/-- The characters that are a token each, whatever follows. -/
def symbols : List (Char × Kind) :=
  [('(', .lparen), (')', .rparen), ('^', .hat), (':', .colon)]

/-- White space of any length. -/
def IsGap (gap : List Char) : Prop :=
  ∀ c ∈ gap, isBlank c = true

/-- A step of the scanner: in front of `rest` the piece of text is read as the tokens.  There is
    one token, or none where the piece is skipped. -/
inductive Reads : List Char → List Token → List Char → Prop where
  | symbol {c : Char} {kind : Kind} {rest : List Char} (hc : (c, kind) ∈ symbols) :
      Reads [c] [⟨kind, ""⟩] rest
  | arrow {rest : List Char} : Reads ['-', '>'] [⟨.arrow, ""⟩] rest
  /-- The white space behind a dot belongs to it. -/
  | dot {gap : List Char} {d : Char} {rest : List Char} (hgap : IsGap gap)
      (hblank : isBlank d = false) (hcolon : d ≠ ':') :
      Reads ('.' :: gap) [⟨.dot, ""⟩] (d :: rest)
  | varName {name : String} {rest : List Char} (hname : isVariableName name = true)
      (hstop : Stops isAlphanumeric rest) : Reads name.toList [⟨.lower, name⟩] rest
  | typeName {name : String} {rest : List Char} (hname : isTypeName name = true)
      (hstop : Stops isAlphanumeric rest) : Reads name.toList [⟨.upper, name⟩] rest
  | binder {marker : Char} {gap : List Char} {name : String} {rest : List Char}
      (hmarker : isMarker marker = true) (hgap : IsGap gap) (hname : isBinderName name = true)
      (hends : ∀ d ∈ rest.head?, endsBinder d = true ∨ isBlank d = true) :
      Reads (marker :: (gap ++ name.toList)) [⟨.lambda, name⟩] rest
  | skip {c : Char} {rest : List Char} (hc : isBlank c = true ∨ isControl c = true) :
      Reads [c] [] rest

theorem scanFrom_symbol {c : Char} {kind : Kind} (hc : (c, kind) ∈ symbols) (pos : Nat)
    (text : List Char) :
    scanFrom pos (c :: text) = (scanFrom (pos + 1) text).map (⟨kind, ""⟩ :: ·) := by
  rw [scanFrom.eq_def]
  simp only [symbols, List.mem_cons, Prod.mk.injEq, List.not_mem_nil, or_false] at hc
  rcases hc with ⟨rfl, rfl⟩ | ⟨rfl, rfl⟩ | ⟨rfl, rfl⟩ | ⟨rfl, rfl⟩ <;> simp [isMarker]

theorem scanFrom_dash (pos : Nat) (text : List Char) :
    scanFrom pos ('-' :: text) =
      match text with
      | '>' :: rest => (scanFrom (pos + 2) rest).map (⟨.arrow, ""⟩ :: ·)
      | _ => .error ⟨.invalidArrow, pos⟩ := by
  rw [scanFrom.eq_def]
  rfl

theorem scanFrom_dot (pos : Nat) (text : List Char) :
    scanFrom pos ('.' :: text) =
      match text.dropWhile isBlank with
      | [] => .error ⟨.trailingDot, pos⟩
      | d :: rest =>
        if d == ':' then .error ⟨.trailingDot, pos⟩
        else
          (scanFrom (pos + 1 + (text.takeWhile isBlank).length) (d :: rest)).map
            (⟨.dot, ""⟩ :: ·) := by
  rw [scanFrom.eq_def]
  simp only [isMarker, Char.reduceBEq, Bool.or_self, Bool.false_eq_true, if_false, if_true]
  split <;> rename_i hrest <;> simp [hrest]

/-- A character that is no punctuation starts a name, is skipped, or is refused. -/
theorem scanFrom_of_not_mem_punctuation {c : Char} (hc : c ∉ punctuation) (pos : Nat)
    (text : List Char) :
    scanFrom pos (c :: text) =
      if c.isAlpha then
        (scanFrom (pos + (c :: text.takeWhile isAlphanumeric).length)
          (text.dropWhile isAlphanumeric)).map
          (⟨if c.isLower then .lower else .upper,
            String.ofList (c :: text.takeWhile isAlphanumeric)⟩ :: ·)
      else if isBlank c || isControl c then scanFrom (pos + 1) text
      else .error ⟨.invalidCharacter c, pos⟩ := by
  simp only [punctuation, List.mem_cons, List.not_mem_nil, or_false, not_or] at hc
  rw [scanFrom.eq_def]
  simp [isMarker, hc]

/-- A name takes all letters and digits behind its first letter, which gives the kind. -/
theorem scanFrom_name {c : Char} {run rest : List Char} (hc : c.isAlpha = true)
    (hrun : ∀ d ∈ run, isAlphanumeric d = true) (hstop : Stops isAlphanumeric rest) (pos : Nat) :
    scanFrom pos (c :: run ++ rest) =
      (scanFrom (pos + (c :: run).length) rest).map
        (⟨if c.isLower then .lower else .upper, String.ofList (c :: run)⟩ :: ·) := by
  rw [List.cons_append, scanFrom_of_not_mem_punctuation (not_mem_punctuation_of_isAlpha hc),
    if_pos hc, hstop.takeWhile_append hrun, hstop.dropWhile_append hrun]

theorem scanFrom_skip {c : Char} (hc : isBlank c = true ∨ isControl c = true) (pos : Nat)
    (text : List Char) : scanFrom pos (c :: text) = scanFrom (pos + 1) text := by
  have hpunctuation : c ∉ punctuation := by
    intro hmem
    simp [isBlank_eq_false_of_mem_punctuation hmem,
      isControl_eq_false_of_mem_punctuation hmem] at hc
  have halpha : c.isAlpha = false := by
    rw [Bool.eq_false_iff]
    intro halpha
    simp [isBlank_eq_false_of_isAlpha halpha, isControl_eq_false_of_isAlpha halpha] at hc
  rw [scanFrom_of_not_mem_punctuation hpunctuation]
  simp [halpha, hc]

theorem scanFrom_marker {marker : Char} (hmarker : isMarker marker = true) (pos : Nat)
    (text : List Char) :
    scanFrom pos (marker :: text) =
      match binderName pos (pos + 1 + (text.takeWhile isBlank).length)
          (text.dropWhile isBlank) with
      | .error e => .error e
      | .ok (name, rest) =>
        (scanFrom (pos + 1 + (text.takeWhile isBlank).length + name.length) rest).map
          (⟨.lambda, String.ofList name⟩ :: ·) := by
  rw [scanFrom.eq_def]
  simp only [hmarker, if_true]
  split <;> rename_i hname <;> simp [hname]

theorem binderName_append_rest {name : String} (hname : isBinderName name = true)
    {rest : List Char} (hends : ∀ d ∈ rest.head?, endsBinder d = true ∨ isBlank d = true)
    (marker pos : Nat) :
    binderName marker pos (name.toList ++ rest) = .ok (name.toList, rest) := by
  obtain ⟨c, run, rfl, hc, hrun⟩ := exists_of_isName hname
  have hfirst : endsBinder c = false := endsBinder_eq_false_of_isAlpha (isAlpha_iff.2 (.inr hc))
  have hrun : ∀ e ∈ run, continuesBinder e = true := by
    simpa only [continuesBinder_eq] using hrun
  have hstop : Stops continuesBinder rest := fun d hd => continuesBinder_eq_false (hends d hd)
  rw [String.toList_ofList, List.cons_append]
  simp only [binderName, hfirst, hc, hstop.takeWhile_append hrun, hstop.dropWhile_append hrun]
  cases rest with
  | nil => rfl
  | cons d rest => simp [hends d rfl]

/-- The name of a binder does not start with white space. -/
theorem stops_isBlank_binderName {name : String} (hname : isBinderName name = true)
    (rest : List Char) : Stops isBlank (name.toList ++ rest) := by
  obtain ⟨c, run, rfl, hc, -⟩ := exists_of_isName hname
  rw [String.toList_ofList]
  exact .cons (isBlank_eq_false_of_isAlpha (isAlpha_iff.2 (.inr hc)))

/-- The scanner takes the step, wherever the piece stands, and goes on behind it. -/
theorem Reads.scanFrom_eq {piece rest : List Char} {new : List Token} (h : Reads piece new rest)
    (pos : Nat) :
    scanFrom pos (piece ++ rest) = (scanFrom (pos + piece.length) rest).map (new ++ ·) := by
  cases h with
  | symbol hc => exact scanFrom_symbol hc pos rest
  | arrow => exact scanFrom_dash pos ('>' :: rest)
  | @dot gap d rest hgap hblank hcolon =>
    have hstop : Stops isBlank (d :: rest) := .cons hblank
    rw [List.cons_append, scanFrom_dot, hstop.dropWhile_append hgap, hstop.takeWhile_append hgap]
    simp [hcolon, Nat.add_comm, Nat.add_left_comm]
  | varName hname hstop =>
    obtain ⟨c, run, rfl, hc, hrun⟩ := exists_of_isName hname
    rw [String.toList_ofList, scanFrom_name (isAlpha_iff.2 (.inr hc)) hrun hstop]
    simp [hc]
  | typeName hname hstop =>
    obtain ⟨c, run, rfl, hc, hrun⟩ := exists_of_isName hname
    rw [String.toList_ofList, scanFrom_name (isAlpha_iff.2 (.inl hc)) hrun hstop]
    simp [isLower_eq_false_of_isUpper hc]
  | @binder marker gap name rest hmarker hgap hname hends =>
    have hstop := stops_isBlank_binderName hname rest
    rw [List.cons_append, List.append_assoc, scanFrom_marker hmarker,
      hstop.dropWhile_append hgap, hstop.takeWhile_append hgap,
      binderName_append_rest hname hends]
    simp [Nat.add_assoc, Nat.add_comm 1]
  | skip hc =>
    rw [List.singleton_append, scanFrom_skip hc]
    cases scanFrom (pos + 1) rest <;> rfl

/-! ### Rules -/

/-- The scanner reads the tokens from the text, at any position. -/
def Scans (text : List Char) (tokens : List Token) : Prop :=
  ∀ pos, scanFrom pos text = .ok tokens

theorem Scans.nil : Scans [] [] := by
  intro pos
  rw [scanFrom.eq_def]

section Scans

variable {text : List Char} {tokens : List Token}

theorem Scans.scan_ofList (h : Scans text tokens) : scan (String.ofList text) = .ok tokens := by
  rw [scan, String.toList_ofList]
  exact h 1

/-- A step in front of a text that scans. -/
theorem Reads.scans {piece : List Char} {new : List Token} (h : Reads piece new text)
    (htext : Scans text tokens) : Scans (piece ++ text) (new ++ tokens) := by
  intro pos
  rw [h.scanFrom_eq, htext]
  rfl

theorem Scans.symbol {c : Char} {kind : Kind} (hc : (c, kind) ∈ symbols)
    (h : Scans text tokens) : Scans (c :: text) (⟨kind, ""⟩ :: tokens) :=
  (Reads.symbol hc).scans h

theorem Scans.arrow (h : Scans text tokens) :
    Scans ('-' :: '>' :: text) (⟨.arrow, ""⟩ :: tokens) :=
  Reads.arrow.scans h

/-- A dot needs something behind it, and not a colon. -/
theorem Scans.dot {d : Char} (h : Scans (d :: text) tokens) (hblank : isBlank d = false)
    (hcolon : d ≠ ':') : Scans ('.' :: d :: text) (⟨.dot, ""⟩ :: tokens) := by
  have hgap : IsGap [] := by simp [IsGap]
  exact (Reads.dot hgap hblank hcolon).scans h

theorem Scans.blank {c : Char} (hc : isBlank c = true) (h : Scans text tokens) :
    Scans (c :: text) tokens :=
  (Reads.skip (.inl hc)).scans h

theorem Scans.variable {name : String} (hname : isVariableName name = true)
    (hstop : Stops isAlphanumeric text) (h : Scans text tokens) :
    Scans (name.toList ++ text) (⟨.lower, name⟩ :: tokens) :=
  (Reads.varName hname hstop).scans h

theorem Scans.typeName {name : String} (hname : isTypeName name = true)
    (hstop : Stops isAlphanumeric text) (h : Scans text tokens) :
    Scans (name.toList ++ text) (⟨.upper, name⟩ :: tokens) :=
  (Reads.typeName hname hstop).scans h

/-- The name of a binder stands right behind its marker, and ends with a delimiter. -/
theorem Scans.binder {name : String} (hname : isBinderName name = true) {d : Char}
    (hd : endsBinder d = true) (h : Scans (d :: text) tokens) :
    Scans ('λ' :: (name.toList ++ d :: text)) (⟨.lambda, name⟩ :: tokens) := by
  have hgap : IsGap [] := by simp [IsGap]
  have hends : ∀ e ∈ (d :: text).head?, endsBinder e = true ∨ isBlank e = true := by simp [hd]
  exact (Reads.binder (by decide) hgap hname hends).scans h

end Scans

/-! ### Scanned tokens -/

/-- Whether the text of a token is what its kind asks for: a name of its class for binders,
    variables and base types, and nothing for punctuation. -/
def wellNamed (token : Token) : Bool :=
  match token.kind with
  | .lambda => isBinderName token.text
  | .lower => isVariableName token.text
  | .upper => isTypeName token.text
  | _ => token.text.isEmpty

end Redex.Token
