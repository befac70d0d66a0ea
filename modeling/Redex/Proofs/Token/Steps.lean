import Redex.Proofs.Token.Cuts
import Redex.Proofs.Token.Scanning

/-! # Step by step to the end, or to a fault

    A text that is not empty can be read for one step, or it begins with a fault; there is nothing
    else that the scanner does (`reads_or_fault`).  So a property of all texts follows from what
    it is at the end, how a step passes it on, and what it is at a fault (`steps_induction`).

    The first consequences: the position of a text moves its faults and nothing else
    (`scanFrom_add`), and every token that is scanned has the text that its kind asks for. -/

namespace Redex.Token

open Text

/-! ### Faults -/

/-- The text begins with a fault.  The cause is reported at the character with the given number
    of characters before it. -/
inductive Fault : List Char → LexError.Cause → Nat → Prop where
  | emptyBinder {marker : Char} {gap : List Char} (hmarker : isMarker marker = true)
      (hgap : IsGap gap) : Fault (marker :: gap) .emptyBinder 0
  | emptyVariableName {marker d : Char} {gap rest : List Char}
      (hmarker : isMarker marker = true) (hgap : IsGap gap) (hends : endsBinder d = true) :
      Fault (marker :: (gap ++ d :: rest)) .emptyVariableName (1 + gap.length)
  | invalidVariableName {marker d : Char} {gap rest : List Char}
      (hmarker : isMarker marker = true) (hgap : IsGap gap) (hends : endsBinder d = false)
      (hd : isAlphanumeric d = true) (hlower : d.isLower = false) :
      Fault (marker :: (gap ++ d :: rest)) .invalidVariableName (1 + gap.length)
  /-- The character stands where the name of a binder should start. -/
  | invalidFirst {marker d : Char} {gap rest : List Char} (hmarker : isMarker marker = true)
      (hgap : IsGap gap) (hblank : isBlank d = false) (hends : endsBinder d = false)
      (hd : isAlphanumeric d = false) :
      Fault (marker :: (gap ++ d :: rest)) (.invalidBinderCharacter d) (1 + gap.length)
  /-- The character stands right behind the name of a binder. -/
  | invalidNext {marker d : Char} {gap rest : List Char} {name : String}
      (hmarker : isMarker marker = true) (hgap : IsGap gap) (hname : isBinderName name = true)
      (hblank : isBlank d = false) (hends : endsBinder d = false)
      (hd : isAlphanumeric d = false) :
      Fault (marker :: (gap ++ (name.toList ++ d :: rest))) (.invalidBinderCharacter d)
        (1 + gap.length + name.length)
  | invalidArrow {rest : List Char} (hrest : rest.head? ≠ some '>') :
      Fault ('-' :: rest) .invalidArrow 0
  /-- Behind the white space there is nothing, or a colon. -/
  | trailingDot {gap rest : List Char} (hgap : IsGap gap) (hrest : ∀ d ∈ rest.head?, d = ':') :
      Fault ('.' :: (gap ++ rest)) .trailingDot 0
  | invalidCharacter {c : Char} {rest : List Char} (hc : c ∉ punctuation)
      (halpha : c.isAlpha = false) (hblank : isBlank c = false) (hcontrol : isControl c = false) :
      Fault (c :: rest) (.invalidCharacter c) 0

theorem isLower_eq_false_of_isAlphanumeric {c : Char} (h : isAlphanumeric c = false) :
    c.isLower = false := by
  rw [Bool.eq_false_iff]
  intro hlower
  have hascii : c.toNat < 0x80 := by
    rw [isLower_iff] at hlower
    omega
  simp [isAlphanumeric, isLetter, hascii, isAlpha_iff.2 (.inr hlower)] at h

theorem isAlphanumeric_eq_false {c : Char} (hc : continuesBinder c = false)
    (hends : endsBinder c = false) : isAlphanumeric c = false := by
  simp only [endsBinder, Bool.or_eq_false_iff] at hends
  simpa [continuesBinder, hends.2] using hc

theorem binderName_invalidNext {name : String} (hname : isBinderName name = true) {d : Char}
    (hblank : isBlank d = false) (hends : endsBinder d = false) (hd : isAlphanumeric d = false)
    (marker pos : Nat) (rest : List Char) :
    binderName marker pos (name.toList ++ d :: rest) =
      .error ⟨.invalidBinderCharacter d, pos + name.length⟩ := by
  obtain ⟨c, run, rfl, hc, hrun⟩ := exists_of_isName hname
  have hfirst : endsBinder c = false := endsBinder_eq_false_of_isAlpha (isAlpha_iff.2 (.inr hc))
  have hrun : ∀ e ∈ run, continuesBinder e = true := by
    simpa only [continuesBinder_eq] using hrun
  have hstop : Stops continuesBinder (d :: rest) := .cons (by simp [continuesBinder, hd])
  rw [String.toList_ofList, List.cons_append]
  simp [binderName, hfirst, hc, hstop.takeWhile_append hrun, hstop.dropWhile_append hrun, hblank,
    hends, Nat.add_comm]

theorem isBlank_eq_false_of_endsBinder {c : Char} (h : endsBinder c = true) :
    isBlank c = false := by
  simp only [endsBinder, isMarker, Bool.or_eq_true, beq_iff_eq] at h
  rcases h with ((rfl | rfl) | rfl) | rfl | rfl <;> decide

theorem isBlank_eq_false_of_isAlphanumeric {c : Char} (h : isAlphanumeric c = true) :
    isBlank c = false := by
  rw [Bool.eq_false_iff]
  intro hblank
  simp [isAlphanumeric_eq_false_of_isBlank hblank] at h

/-- What the scanner reports behind a marker and white space. -/
theorem scanFrom_marker_error {marker : Char} {gap rest : List Char} {e : LexError} {pos : Nat}
    (hmarker : isMarker marker = true) (hgap : IsGap gap) (hstop : Stops isBlank rest)
    (h : binderName pos (pos + 1 + gap.length) rest = .error e) :
    scanFrom pos (marker :: (gap ++ rest)) = .error e := by
  rw [scanFrom_marker hmarker, hstop.dropWhile_append hgap, hstop.takeWhile_append hgap, h]

/-- The scanner reports the fault, wherever the text stands. -/
theorem Fault.scanFrom_eq {text : List Char} {cause : LexError.Cause} {offset : Nat}
    (h : Fault text cause offset) (pos : Nat) :
    scanFrom pos text = .error ⟨cause, pos + offset⟩ := by
  cases h with
  | @emptyBinder marker gap hmarker hgap =>
    have hname : binderName pos (pos + 1 + gap.length) [] = .error ⟨.emptyBinder, pos⟩ := rfl
    simpa using scanFrom_marker_error hmarker hgap .nil hname
  | @emptyVariableName marker d gap rest hmarker hgap hends =>
    refine scanFrom_marker_error hmarker hgap (.cons (isBlank_eq_false_of_endsBinder hends)) ?_
    simp [binderName, hends, Nat.add_assoc]
  | @invalidVariableName marker d gap rest hmarker hgap hends hd hlower =>
    refine scanFrom_marker_error hmarker hgap (.cons (isBlank_eq_false_of_isAlphanumeric hd)) ?_
    simp [binderName, hends, hd, hlower, Nat.add_assoc]
  | @invalidFirst marker d gap rest hmarker hgap hblank hends hd =>
    refine scanFrom_marker_error hmarker hgap (.cons hblank) ?_
    simp [binderName, hends, hd, isLower_eq_false_of_isAlphanumeric hd, Nat.add_assoc]
  | @invalidNext marker d gap rest name hmarker hgap hname hblank hends hd =>
    refine scanFrom_marker_error hmarker hgap (stops_isBlank_binderName hname _) ?_
    rw [binderName_invalidNext hname hblank hends hd]
    simp [Nat.add_assoc]
  | @invalidArrow rest hrest =>
    rw [scanFrom_dash]
    split
    · simp at hrest
    · rfl
  | @trailingDot gap rest hgap hrest =>
    have hstop : Stops isBlank rest := by
      intro d hd
      rw [hrest d hd]
      decide
    rw [scanFrom_dot, hstop.dropWhile_append hgap]
    cases rest with
    | nil => rfl
    | cons d rest => simp [hrest d rfl]
  | invalidCharacter hc halpha hblank hcontrol =>
    rw [scanFrom_of_not_mem_punctuation hc]
    simp [halpha, hblank, hcontrol]

/-! ### Steps and faults are all -/

/-- Behind a marker stands the name of a binder, or a fault is found. -/
theorem binder_or_fault {marker : Char} (hmarker : isMarker marker = true) (text : List Char) :
    (∃ piece new rest, marker :: text = piece ++ rest ∧ Reads piece new rest) ∨
    ∃ cause offset, Fault (marker :: text) cause offset := by
  obtain ⟨gap, behind, rfl, hgap, hstop⟩ := exists_run_append isBlank text
  cases behind with
  | nil =>
    rw [List.append_nil]
    exact .inr ⟨_, _, .emptyBinder hmarker hgap⟩
  | cons d behind =>
    -- only a lower-case letter starts a name; anything else behind the white space is a fault
    have hblank : isBlank d = false := hstop d rfl
    by_cases hends : endsBinder d = true
    · exact .inr ⟨_, _, .emptyVariableName hmarker hgap hends⟩
    rw [Bool.not_eq_true] at hends
    by_cases hlower : d.isLower = true
    · obtain ⟨run, rest, rfl, hrun, hstop⟩ := exists_run_append continuesBinder behind
      have hname : isBinderName (String.ofList (d :: run)) = true :=
        isName_ofList hlower (by simpa only [continuesBinder_eq] using hrun)
      have htext : gap ++ d :: (run ++ rest) =
          gap ++ ((String.ofList (d :: run)).toList ++ rest) := by
        rw [String.toList_ofList]
        rfl
      rw [htext]
      -- the name is complete, and what stands behind it decides
      by_cases hrest : ∀ e ∈ rest.head?, endsBinder e = true ∨ isBlank e = true
      · refine .inl ⟨_, _, rest, ?_, .binder hmarker hgap hname hrest⟩
        rw [List.cons_append, List.append_assoc]
      · cases rest with
        | nil => simp at hrest
        | cons e rest =>
          simp only [List.head?_cons, Option.mem_def, Option.some.injEq, forall_eq', not_or,
            Bool.not_eq_true] at hrest
          have he : isAlphanumeric e = false := isAlphanumeric_eq_false (hstop e rfl) hrest.1
          exact .inr ⟨_, _, .invalidNext hmarker hgap hname hrest.2 hrest.1 he⟩
    rw [Bool.not_eq_true] at hlower
    cases hd : isAlphanumeric d with
    | true => exact .inr ⟨_, _, .invalidVariableName hmarker hgap hends hd hlower⟩
    | false => exact .inr ⟨_, _, .invalidFirst hmarker hgap hblank hends hd⟩

/-- A dot is read together with the white space behind it, or it is trailing. -/
theorem dot_or_fault (text : List Char) :
    (∃ piece new rest, '.' :: text = piece ++ rest ∧ Reads piece new rest) ∨
    ∃ cause offset, Fault ('.' :: text) cause offset := by
  obtain ⟨gap, rest, rfl, hgap, hstop⟩ := exists_run_append isBlank text
  by_cases hrest : ∀ d ∈ rest.head?, d = ':'
  · exact .inr ⟨_, _, .trailingDot hgap hrest⟩
  · cases rest with
    | nil => simp at hrest
    | cons d rest =>
      have hcolon : d ≠ ':' := by simpa using hrest
      exact .inl ⟨'.' :: gap, _, d :: rest, rfl, .dot hgap (hstop d rfl) hcolon⟩

theorem reads_name {c : Char} (hc : c.isAlpha = true) (text : List Char) :
    ∃ piece new rest, c :: text = piece ++ rest ∧ Reads piece new rest := by
  obtain ⟨run, rest, rfl, hrun, hstop⟩ := exists_run_append isAlphanumeric text
  have htext : c :: (run ++ rest) = (String.ofList (c :: run)).toList ++ rest := by
    rw [String.toList_ofList]
    rfl
  rcases isAlpha_iff.1 hc with hupper | hlower
  · exact ⟨_, _, rest, htext, .typeName (isName_ofList hupper hrun) hstop⟩
  · exact ⟨_, _, rest, htext, .varName (isName_ofList hlower hrun) hstop⟩

/-- A text can be read for one step, or it begins with a fault. -/
theorem reads_or_fault (c : Char) (text : List Char) :
    (∃ piece new rest, c :: text = piece ++ rest ∧ Reads piece new rest) ∨
    ∃ cause offset, Fault (c :: text) cause offset := by
  by_cases hpunctuation : c ∈ punctuation
  · simp only [punctuation, List.mem_cons, List.not_mem_nil, or_false] at hpunctuation
    rcases hpunctuation with rfl | rfl | rfl | rfl | rfl | rfl | rfl | rfl
    · exact binder_or_fault (by decide) text
    · exact binder_or_fault (by decide) text
    · exact .inl ⟨['('], [⟨.lparen, ""⟩], text, rfl, .symbol (by decide)⟩
    · exact .inl ⟨[')'], [⟨.rparen, ""⟩], text, rfl, .symbol (by decide)⟩
    · exact .inl ⟨['^'], [⟨.hat, ""⟩], text, rfl, .symbol (by decide)⟩
    · exact .inl ⟨[':'], [⟨.colon, ""⟩], text, rfl, .symbol (by decide)⟩
    · by_cases hrest : text.head? = some '>'
      · obtain ⟨rest, rfl⟩ := List.head?_eq_some_iff.1 hrest
        exact .inl ⟨['-', '>'], _, rest, rfl, .arrow⟩
      · exact .inr ⟨_, _, .invalidArrow hrest⟩
    · exact dot_or_fault text
  by_cases halpha : c.isAlpha = true
  · exact .inl (reads_name halpha text)
  by_cases hskip : isBlank c = true ∨ isControl c = true
  · exact .inl ⟨[c], [], text, rfl, .skip hskip⟩
  · simp only [not_or, Bool.not_eq_true] at halpha hskip
    exact .inr ⟨_, _, .invalidCharacter hpunctuation halpha hskip.1 hskip.2⟩

theorem Reads.piece_ne_nil {piece rest : List Char} {new : List Token}
    (h : Reads piece new rest) : piece ≠ [] := by
  cases h with
  | varName hname | typeName hname =>
    obtain ⟨c, run, rfl, -⟩ := exists_of_isName hname
    simp
  | _ => simp

/-- What holds at the end and at every fault, and is passed on from behind a step to the front of
    it, holds of all texts. -/
@[elab_as_elim]
theorem steps_induction {motive : List Char → Prop} (nil : motive [])
    (reads : ∀ piece new rest, Reads piece new rest → motive rest → motive (piece ++ rest))
    (fault : ∀ text cause offset, Fault text cause offset → motive text) (text : List Char) :
    motive text := by
  -- a step has a length of its own, so the text behind it is shorter
  induction hlength : text.length using Nat.strongRecOn generalizing text with
  | ind length ih =>
    cases text with
    | nil => exact nil
    | cons c text =>
      rcases reads_or_fault c text with ⟨piece, new, rest, htext, hreads⟩ | ⟨cause, offset, hfault⟩
      · rw [htext] at hlength ⊢
        have hpiece := List.length_pos_iff.2 hreads.piece_ne_nil
        rw [List.length_append] at hlength
        exact reads piece new rest hreads (ih rest.length (by omega) rest rfl)
      · exact fault _ cause offset hfault

/-! ### Positions -/

/-- The position at which a text stands moves its fault, if it has one, and nothing else. -/
theorem scanFrom_add (pos more : Nat) (text : List Char) :
    scanFrom (pos + more) text =
      (scanFrom pos text).mapError fun e => ⟨e.cause, e.pos + more⟩ := by
  induction text using steps_induction generalizing pos with
  | nil =>
    rw [Scans.nil, Scans.nil]
    rfl
  | reads piece new rest hreads ih =>
    rw [hreads.scanFrom_eq, hreads.scanFrom_eq, Nat.add_right_comm, ih]
    cases scanFrom (pos + piece.length) rest <;> rfl
  | fault text cause offset hfault =>
    rw [hfault.scanFrom_eq, hfault.scanFrom_eq, Nat.add_right_comm]
    rfl

/-! ### Texts that scan -/

/-- A text that scans at one position scans at all. -/
theorem scans_of_scanFrom {pos : Nat} {text : List Char} {tokens : List Token}
    (h : scanFrom pos text = .ok tokens) : Scans text tokens := by
  -- a position may be smaller than the given one, so both are compared with the first of all
  have hmove := fun more => scanFrom_add 0 more text
  simp only [Nat.zero_add] at hmove
  intro more
  rw [hmove] at h ⊢
  cases hzero : scanFrom 0 text with
  | error e =>
    rw [hzero] at h
    cases h
  | ok others =>
    rw [hzero] at h
    exact h

/-- What can be scanned in front of a step can be scanned behind it. -/
theorem Reads.exists_of_scans {piece rest : List Char} {new tokens : List Token}
    (h : Reads piece new rest) (hscans : Scans (piece ++ rest) tokens) :
    ∃ others, Scans rest others ∧ tokens = new ++ others := by
  have hscan := hscans 0
  rw [h.scanFrom_eq] at hscan
  obtain ⟨others, hrest, rfl⟩ := exists_of_map_eq_ok hscan
  exact ⟨others, scans_of_scanFrom hrest, rfl⟩

theorem Fault.not_scans {text : List Char} {cause : LexError.Cause} {offset : Nat}
    {tokens : List Token} (h : Fault text cause offset) : ¬ Scans text tokens := by
  intro hscans
  have hscan := hscans 0
  rw [h.scanFrom_eq] at hscan
  cases hscan

/-- A text that scans is read in steps up to its end. -/
@[elab_as_elim]
theorem Scans.steps_induction
    {motive : (text : List Char) → (tokens : List Token) → Scans text tokens → Prop}
    (nil : motive [] [] Scans.nil)
    (reads : ∀ piece new rest tokens (hreads : Reads piece new rest) (hrest : Scans rest tokens),
      motive rest tokens hrest → motive (piece ++ rest) (new ++ tokens) (hreads.scans hrest))
    {text : List Char} {tokens : List Token} (h : Scans text tokens) : motive text tokens h := by
  induction text using Token.steps_induction generalizing tokens with
  | nil =>
    have hscan := h 0
    rw [Scans.nil] at hscan
    cases hscan
    exact nil
  | reads piece new rest hreads ih =>
    obtain ⟨others, hrest, rfl⟩ := hreads.exists_of_scans h
    exact reads piece new rest others hreads hrest (ih hrest)
  | fault text cause offset hfault => exact absurd h hfault.not_scans

theorem Reads.wellNamed {piece rest : List Char} {new : List Token} (h : Reads piece new rest) :
    ∀ token ∈ new, token.wellNamed = true := by
  cases h with
  | symbol hc =>
    simp only [symbols, List.mem_cons, Prod.mk.injEq, List.not_mem_nil, or_false] at hc
    rcases hc with ⟨-, rfl⟩ | ⟨-, rfl⟩ | ⟨-, rfl⟩ | ⟨-, rfl⟩ <;> simp [Token.wellNamed]
  | skip => simp
  | _ => simp_all [Token.wellNamed]

/-- Every token that is scanned has the text that its kind asks for. -/
theorem wellNamed_of_scanFrom {pos : Nat} {text : List Char} {tokens : List Token}
    (h : scanFrom pos text = .ok tokens) : ∀ token ∈ tokens, token.wellNamed = true := by
  have hscans := scans_of_scanFrom h
  clear h
  induction hscans using Scans.steps_induction with
  | nil => simp
  | reads piece new rest tokens hreads _ ih =>
    intro token htoken
    rcases List.mem_append.1 htoken with htoken | htoken
    · exact hreads.wellNamed token htoken
    · exact ih token htoken

end Redex.Token
