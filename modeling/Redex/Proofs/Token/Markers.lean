import Mathlib.Data.List.Basic
import Redex.Proofs.Token.Steps

/-! # The two spellings of a marker

    A lambda marker is spelled `\` or `λ`.  A text is respelled by putting `λ` for some of its
    backslashes.

    Wherever a token may start, and behind the name of a binder, the two spellings are read
    alike: every step and every fault of a text is one of the respelled text
    (`Reads.respelled`, `Fault.respelled`).  Only a bare name tells them apart.  It ends in front
    of `\`, but `λ` is a letter, so that the name goes on.  Hence a text is scanned the same if the
    respelling spares all backslashes behind bare names; and if a text can be scanned at all,
    these are the only respellings with the same tokens (`scan_respelled`). -/

namespace Redex.Token

open Text

/-! ### Respelled texts -/

/-- The second text is the first one with `λ` for some of its backslashes. -/
inductive Respelled : List Char → List Char → Prop where
  | nil : Respelled [] []
  | keep (c : Char) {text text' : List Char} (h : Respelled text text') :
      Respelled (c :: text) (c :: text')
  | swap {text text' : List Char} (h : Respelled text text') :
      Respelled ('\\' :: text) ('λ' :: text')

namespace Respelled

variable {text text' first rest : List Char}

theorem length_eq (h : Respelled text text') : text'.length = text.length := by
  induction h with
  | nil => rfl
  | keep c _ ih => rw [List.length_cons, List.length_cons, ih]
  | swap _ ih => rw [List.length_cons, List.length_cons, ih]

/-- The parts of a text are respelled one by one. -/
theorem exists_of_append (h : Respelled (first ++ rest) text') :
    ∃ first' rest', text' = first' ++ rest' ∧ Respelled first first' ∧ Respelled rest rest' := by
  induction first generalizing text' with
  | nil => exact ⟨[], text', rfl, .nil, h⟩
  | cons c first ih =>
    cases h with
    | keep _ h =>
      obtain ⟨first', rest', rfl, hfirst, hrest⟩ := ih h
      exact ⟨c :: first', rest', rfl, .keep c hfirst, hrest⟩
    | swap h =>
      obtain ⟨first', rest', rfl, hfirst, hrest⟩ := ih h
      exact ⟨'λ' :: first', rest', rfl, .swap hfirst, hrest⟩

/-- A text of characters from a class without the backslash stays as it is. -/
theorem eq_of_class {p : Char → Bool} (hp : p '\\' = false) (htext : ∀ c ∈ text, p c = true)
    (h : Respelled text text') : text' = text := by
  induction h with
  | nil => rfl
  | keep c _ ih => rw [ih fun d hd => htext d (.tail _ hd)]
  | swap _ _ =>
    have hbackslash := htext '\\' (.head _)
    rw [hp] at hbackslash
    cases hbackslash

theorem eq_of_isGap (hgap : IsGap text) (h : Respelled text text') : text' = text :=
  h.eq_of_class (by decide) hgap

/-- What both spellings of a marker satisfy is kept at the beginning of a text. -/
theorem forall_head? {p : Char → Prop} (hp : p 'λ') (h : Respelled text text')
    (htext : ∀ c ∈ text.head?, p c) : ∀ c ∈ text'.head?, p c := by
  cases h with
  | nil => exact htext
  | keep c _ => exact htext
  | swap _ => simpa using hp

/-- A marker stays a marker, and the white space behind it stays as it is. -/
theorem exists_of_marker {marker : Char} {gap : List Char} (hmarker : isMarker marker = true)
    (hgap : IsGap gap) (h : Respelled (marker :: (gap ++ rest)) text') :
    ∃ marker' rest', text' = marker' :: (gap ++ rest') ∧ isMarker marker' = true ∧
      Respelled rest rest' := by
  cases h with
  | keep _ h =>
    obtain ⟨gap', rest', rfl, hgap', hrest⟩ := h.exists_of_append
    rw [hgap'.eq_of_isGap hgap]
    exact ⟨marker, rest', rfl, hmarker, hrest⟩
  | swap h =>
    obtain ⟨gap', rest', rfl, hgap', hrest⟩ := h.exists_of_append
    rw [hgap'.eq_of_isGap hgap]
    exact ⟨'λ', rest', rfl, by decide, hrest⟩

/-- A character that is no marker stays as it is. -/
theorem exists_of_not_endsBinder {c : Char} (hc : endsBinder c = false)
    (h : Respelled (c :: text) text') : ∃ rest', text' = c :: rest' ∧ Respelled text rest' := by
  cases h with
  | keep _ h => exact ⟨_, rfl, h⟩
  | swap h => exact absurd hc (by decide)

end Respelled

/-! ### Names -/

theorem isAlphanumeric_of_isAlpha {c : Char} (h : c.isAlpha = true) : isAlphanumeric c = true := by
  have hascii : c.toNat < 0x80 := by
    rw [isAlpha_iff, isUpper_iff, isLower_iff] at h
    omega
  simp [isAlphanumeric, isLetter, hascii, h]

/-- All characters of a name are letters or digits. -/
theorem isAlphanumeric_of_isName {first next : Char → Bool} {name : String}
    (hfirst : ∀ c, first c = true → c.isAlpha = true)
    (hnext : ∀ c, next c = true → isAlphanumeric c = true) (h : isName first next name = true) :
    ∀ c ∈ name.toList, isAlphanumeric c = true := by
  obtain ⟨d, run, rfl, hd, hrun⟩ := exists_of_isName h
  intro c hc
  rw [String.toList_ofList] at hc
  rcases List.mem_cons.1 hc with rfl | hc
  · exact isAlphanumeric_of_isAlpha (hfirst c hd)
  · exact hnext c (hrun c hc)

theorem isAlphanumeric_of_isVariableName {name : String} (h : isVariableName name = true) :
    ∀ c ∈ name.toList, isAlphanumeric c = true :=
  isAlphanumeric_of_isName (fun _ hc => isAlpha_iff.2 (.inr hc)) (fun _ hc => hc) h

theorem isAlphanumeric_of_isTypeName {name : String} (h : isTypeName name = true) :
    ∀ c ∈ name.toList, isAlphanumeric c = true :=
  isAlphanumeric_of_isName (fun _ hc => isAlpha_iff.2 (.inl hc)) (fun _ hc => hc) h

theorem isAlphanumeric_of_isBinderName {name : String} (h : isBinderName name = true) :
    ∀ c ∈ name.toList, isAlphanumeric c = true :=
  isAlphanumeric_of_isName (fun _ hc => isAlpha_iff.2 (.inr hc))
    (fun _ hc => (Bool.and_eq_true_iff.1 hc).1) h

/-- There is no backslash in a name. -/
theorem Respelled.eq_of_isAlphanumeric {text text' : List Char}
    (htext : ∀ c ∈ text, isAlphanumeric c = true) (h : Respelled text text') : text' = text :=
  h.eq_of_class (by decide) htext

/-- The token is a name that stands for itself: a variable or a base type. -/
def IsBare (token : Token) : Prop :=
  token.kind = .lower ∨ token.kind = .upper

/-! ### Steps and faults -/

/-- A step of a text is one of the respelled text, unless it reads a bare name and the character
    behind that name is respelled. -/
theorem Reads.respelled {piece rest piece' rest' : List Char} {new : List Token}
    (h : Reads piece new rest) (hpiece : Respelled piece piece') (hrest : Respelled rest rest')
    (hbehind : ∀ token ∈ new, token.IsBare → rest'.head? = rest.head?) :
    Reads piece' new rest' := by
  cases h with
  | symbol hc =>
    cases hpiece with
    | keep _ hnil =>
      cases hnil
      exact .symbol hc
    | swap _ => simp [symbols] at hc
  | arrow =>
    cases hpiece with
    | keep _ hpiece =>
      cases hpiece with
      | keep _ hnil =>
        cases hnil
        exact .arrow
  | dot hgap hblank hcolon =>
    cases hpiece with
    | keep _ hpiece =>
      rw [hpiece.eq_of_isGap hgap]
      cases hrest with
      | keep _ hrest => exact .dot hgap hblank hcolon
      | swap hrest => exact .dot hgap (by decide) (by decide)
  | varName hname hstop =>
    rw [hpiece.eq_of_isAlphanumeric (isAlphanumeric_of_isVariableName hname)]
    refine .varName hname ?_
    unfold Stops
    rw [hbehind _ (.head _) (.inl rfl)]
    exact hstop
  | typeName hname hstop =>
    rw [hpiece.eq_of_isAlphanumeric (isAlphanumeric_of_isTypeName hname)]
    refine .typeName hname ?_
    unfold Stops
    rw [hbehind _ (.head _) (.inr rfl)]
    exact hstop
  | binder hmarker hgap hname hends =>
    obtain ⟨marker', name', rfl, hmarker', hname'⟩ := hpiece.exists_of_marker hmarker hgap
    rw [hname'.eq_of_isAlphanumeric (isAlphanumeric_of_isBinderName hname)]
    exact .binder hmarker' hgap hname (hrest.forall_head? (.inl (by decide)) hends)
  | skip hc =>
    cases hpiece with
    | keep _ hnil =>
      cases hnil
      exact .skip hc
    | swap _ => exact absurd hc (by decide)

/-- A fault of a text is the same fault of the respelled text.  A marker is a fault only where both
    spellings are, and no cause names it. -/
theorem Fault.respelled {text text' : List Char} {cause : LexError.Cause} {offset : Nat}
    (hfault : Fault text cause offset) (h : Respelled text text') : Fault text' cause offset := by
  cases hfault with
  | @emptyBinder marker gap hmarker hgap =>
    rw [← List.append_nil gap] at h
    obtain ⟨marker', rest', rfl, hmarker', hrest⟩ := h.exists_of_marker hmarker hgap
    cases hrest
    rw [List.append_nil]
    exact .emptyBinder hmarker' hgap
  | emptyVariableName hmarker hgap hends =>
    obtain ⟨marker', rest', rfl, hmarker', hrest⟩ := h.exists_of_marker hmarker hgap
    cases hrest with
    | keep _ hrest => exact .emptyVariableName hmarker' hgap hends
    | swap hrest => exact .emptyVariableName hmarker' hgap (by decide)
  | invalidVariableName hmarker hgap hends hd hlower =>
    obtain ⟨marker', _, rfl, hmarker', hrest⟩ := h.exists_of_marker hmarker hgap
    obtain ⟨rest', rfl, -⟩ := hrest.exists_of_not_endsBinder hends
    exact .invalidVariableName hmarker' hgap hends hd hlower
  | invalidFirst hmarker hgap hblank hends hd =>
    obtain ⟨marker', _, rfl, hmarker', hrest⟩ := h.exists_of_marker hmarker hgap
    obtain ⟨rest', rfl, -⟩ := hrest.exists_of_not_endsBinder hends
    exact .invalidFirst hmarker' hgap hblank hends hd
  | invalidNext hmarker hgap hname hblank hends hd =>
    obtain ⟨marker', _, rfl, hmarker', hrest⟩ := h.exists_of_marker hmarker hgap
    obtain ⟨name', _, rfl, hname', hrest⟩ := hrest.exists_of_append
    rw [hname'.eq_of_isAlphanumeric (isAlphanumeric_of_isBinderName hname)]
    obtain ⟨rest', rfl, -⟩ := hrest.exists_of_not_endsBinder hends
    exact .invalidNext hmarker' hgap hname hblank hends hd
  | invalidArrow hrest =>
    cases h with
    | keep _ h =>
      refine .invalidArrow ?_
      cases h with
      | nil => exact hrest
      | keep _ _ => exact hrest
      | swap _ => simp
  | trailingDot hgap hrest =>
    cases h with
    | keep _ h =>
      obtain ⟨gap', rest', rfl, hgap', hbehind⟩ := h.exists_of_append
      rw [hgap'.eq_of_isGap hgap]
      refine .trailingDot hgap ?_
      -- a colon is not respelled, so a backslash is not what stands behind the dot
      cases hbehind with
      | nil => exact hrest
      | keep _ _ => exact hrest
      | swap _ => exact absurd (hrest '\\' rfl) (by decide)
  | invalidCharacter hc halpha hblank hcontrol =>
    cases h with
    | keep _ h => exact .invalidCharacter hc halpha hblank hcontrol
    | swap _ => simp [punctuation] at hc

/-! ### Behind bare names -/

/-- The last thing to be read in the text is a bare name, and the text ends with it. -/
def EndsWithName (text : List Char) : Prop :=
  (∃ tokens token, Scans text (tokens ++ [token]) ∧ token.IsBare) ∧
    ∃ c ∈ text.getLast?, isAlphanumeric c = true

/-- No backslash that is respelled stands right behind a bare name. -/
def SparesNames (text text' : List Char) : Prop :=
  ∀ i : Nat, text[i]? = some '\\' → text'[i]? = some 'λ' → ¬ EndsWithName (text.take i)

theorem EndsWithName.ne_nil {text : List Char} (h : EndsWithName text) : text ≠ [] := by
  rintro rfl
  obtain ⟨-, c, hc, -⟩ := h
  cases hc

/-- A step depends on nothing but the first character behind it. -/
theorem Reads.of_head? {piece rest rest' : List Char} {new : List Token} (h : Reads piece new rest)
    (hhead : rest'.head? = rest.head?) : Reads piece new rest' := by
  cases h with
  | symbol hc => exact .symbol hc
  | arrow => exact .arrow
  | dot hgap hblank hcolon =>
    obtain ⟨rest', rfl⟩ := List.head?_eq_some_iff.1 hhead
    exact .dot hgap hblank hcolon
  | varName hname hstop => exact .varName hname fun d hd => hstop d (hhead ▸ hd)
  | typeName hname hstop => exact .typeName hname fun d hd => hstop d (hhead ▸ hd)
  | binder hmarker hgap hname hends =>
    exact .binder hmarker hgap hname fun d hd => hends d (hhead ▸ hd)
  | skip hc => exact .skip hc

/-- A step is also taken if the text is cut off further behind. -/
theorem Reads.take {piece rest : List Char} {new : List Token} (h : Reads piece new rest)
    {i : Nat} (hi : i ≠ 0) : Reads piece new (rest.take i) := by
  refine h.of_head? ?_
  rw [List.head?_take, if_neg hi]

theorem Scans.unique {text : List Char} {tokens tokens' : List Token} (h : Scans text tokens)
    (h' : Scans text tokens') : tokens = tokens' :=
  Except.ok.inj ((h 0).symm.trans (h' 0))

/-- A bare name is read up to its end, and would be read the same at the end of the text. -/
theorem Reads.exists_of_isBare {piece rest : List Char} {new : List Token} {token : Token}
    (h : Reads piece new rest) (htoken : token ∈ new) (hbare : token.IsBare) :
    ∃ c run, piece = c :: run ∧ new = [⟨token.kind, String.ofList (c :: run)⟩] ∧
      c.isAlpha = true ∧ (∀ d ∈ piece, isAlphanumeric d = true) ∧ Reads piece new [] := by
  cases h with
  | varName hname hstop =>
    obtain rfl := List.mem_singleton.1 htoken
    have hall := isAlphanumeric_of_isVariableName hname
    have hend := Reads.varName hname .nil
    obtain ⟨c, run, rfl, hc, -⟩ := exists_of_isName hname
    exact ⟨c, run, String.toList_ofList, rfl, isAlpha_iff.2 (.inr hc), hall, hend⟩
  | typeName hname hstop =>
    obtain rfl := List.mem_singleton.1 htoken
    have hall := isAlphanumeric_of_isTypeName hname
    have hend := Reads.typeName hname .nil
    obtain ⟨c, run, rfl, hc, -⟩ := exists_of_isName hname
    exact ⟨c, run, String.toList_ofList, rfl, isAlpha_iff.2 (.inl hc), hall, hend⟩
  | symbol hc =>
    obtain rfl := List.mem_singleton.1 htoken
    simp only [symbols, List.mem_cons, Prod.mk.injEq, List.not_mem_nil, or_false] at hc
    rcases hc with ⟨-, rfl⟩ | ⟨-, rfl⟩ | ⟨-, rfl⟩ | ⟨-, rfl⟩ <;> simp [IsBare] at hbare
  | skip => cases htoken
  | arrow | dot | binder =>
    obtain rfl := List.mem_singleton.1 htoken
    simp [IsBare] at hbare

/-- A piece that is read as a bare name ends with it. -/
theorem Reads.endsWithName {piece rest : List Char} {new : List Token} {token : Token}
    (h : Reads piece new rest) (htoken : token ∈ new) (hbare : token.IsBare) :
    EndsWithName piece := by
  obtain ⟨c, run, rfl, rfl, -, hall, hend⟩ := h.exists_of_isBare htoken hbare
  have hscans := hend.scans .nil
  rw [List.append_nil] at hscans
  have hne := List.cons_ne_nil c run
  exact ⟨⟨[], _, hscans, hbare⟩, _, List.getLast?_eq_some_getLast hne,
    hall _ (List.getLast_mem hne)⟩

/-- A text that ends with a bare name still does so with a step in front of it. -/
theorem EndsWithName.append {piece front : List Char} {new : List Token}
    (h : EndsWithName front) (hreads : Reads piece new front) : EndsWithName (piece ++ front) := by
  have hne := h.ne_nil
  obtain ⟨⟨tokens, token, hscans, hbare⟩, hlast⟩ := h
  have hall := hreads.scans hscans
  rw [← List.append_assoc] at hall
  refine ⟨⟨new ++ tokens, token, hall, hbare⟩, ?_⟩
  rw [List.getLast?_append_of_ne_nil _ hne]
  exact hlast

/-- What is spared in a text is spared behind a step. -/
theorem SparesNames.behind {piece rest piece' rest' : List Char} {new : List Token}
    (h : SparesNames (piece ++ rest) (piece' ++ rest')) (hreads : Reads piece new rest)
    (hlength : piece'.length = piece.length) : SparesNames rest rest' := by
  intro i hi hi' hends
  have hpos : i ≠ 0 := by
    rintro rfl
    exact hends.ne_nil rfl
  refine h (piece.length + i) ?_ ?_ ?_
  · rw [List.getElem?_append_right (Nat.le_add_right _ _), Nat.add_sub_cancel_left, hi]
  · rw [← hlength, List.getElem?_append_right (Nat.le_add_right _ _), Nat.add_sub_cancel_left, hi']
  · rw [List.take_length_add_append]
    exact hends.append (hreads.take hpos)

/-- A respelling that spares the names changes nothing for the scanner. -/
theorem Respelled.scanFrom_eq {text text' : List Char} (h : Respelled text text')
    (hspares : SparesNames text text') (pos : Nat) : scanFrom pos text' = scanFrom pos text := by
  induction text using steps_induction generalizing text' pos with
  | nil =>
    cases h
    rfl
  | reads piece new rest hreads ih =>
    obtain ⟨piece', rest', rfl, hpiece, hrest⟩ := h.exists_of_append
    have hbehind : ∀ token ∈ new, token.IsBare → rest'.head? = rest.head? := by
      intro token htoken hbare
      cases hrest with
      | nil => rfl
      | keep _ _ => rfl
      | swap _ =>
        have hends := hreads.endsWithName htoken hbare
        refine absurd hends ?_
        have hspared := hspares piece.length (by simp) (by simp [← hpiece.length_eq])
        rwa [List.take_left] at hspared
    have hreads' := hreads.respelled hpiece hrest hbehind
    have hspares' := hspares.behind hreads hpiece.length_eq
    rw [hreads'.scanFrom_eq, hreads.scanFrom_eq, ih hrest hspares', hpiece.length_eq]
  | fault text cause offset hfault =>
    rw [(hfault.respelled h).scanFrom_eq, hfault.scanFrom_eq]

/-! ### Names that go on -/

/-- Control characters belong to no name. -/
theorem isAlphanumeric_eq_false_of_isControl {c : Char} (h : isControl c = true) :
    isAlphanumeric c = false := by
  have hletters : ∀ run ∈ letterRanges, 0xa0 ≤ run.1 := by decide +kernel
  have hdecimals : ∀ run ∈ decimalRanges, 0xa0 ≤ run.1 := by decide +kernel
  have hcontains : ∀ {ranges : Ranges}, (∀ run ∈ ranges, 0xa0 ≤ run.1) → c.toNat < 0xa0 →
      ranges.contains c.toNat = false := by
    intro ranges hranges hcode
    rw [Bool.eq_false_iff, Ne, Ranges.contains_iff]
    rintro ⟨run, hmem, hlow, -⟩
    have hrun := hranges run hmem
    omega
  simp only [isControl, Bool.or_eq_true, Bool.and_eq_true, decide_eq_true_eq] at h
  have halpha : c.isAlpha = false := by
    rw [Bool.eq_false_iff, Ne, isAlpha_iff, isUpper_iff, isLower_iff]
    omega
  have hdigit : c.isDigit = false := by
    rw [Bool.eq_false_iff, Ne, isDigit_iff]
    omega
  simp [isAlphanumeric, isLetter, isDecimal, halpha, hdigit, hcontains hletters (by omega),
    hcontains hdecimals (by omega)]

/-- Where no token is read, there is nothing but white space and control characters. -/
theorem Scans.skipped {text : List Char} {tokens : List Token} (h : Scans text tokens)
    (hnone : tokens = []) : ∀ c ∈ text, isBlank c = true ∨ isControl c = true := by
  induction h using Scans.steps_induction with
  | nil => simp
  | reads piece new rest tokens hreads _ ih =>
    obtain ⟨rfl, rfl⟩ := List.append_eq_nil_iff.1 hnone
    intro d hd
    cases hreads with
    | skip hc =>
      rcases List.mem_cons.1 hd with rfl | hd
      · exact hc
      · exact ih rfl d hd

/-- A text that ends with a bare name does so behind a step, unless it ends there. -/
theorem EndsWithName.of_append {piece front : List Char} {new : List Token}
    (h : EndsWithName (piece ++ front)) (hreads : Reads piece new front) (hfront : front ≠ []) :
    EndsWithName front := by
  obtain ⟨⟨tokens, token, hscans, hbare⟩, hlast⟩ := h
  rw [List.getLast?_append_of_ne_nil _ hfront] at hlast
  obtain ⟨others, hothers, htokens⟩ := hreads.exists_of_scans hscans
  rcases List.eq_nil_or_concat others with rfl | ⟨init, last, rfl⟩
  · -- the text behind the step is skipped, so it does not end with a letter or digit
    obtain ⟨c, hc, hname⟩ := hlast
    rcases hothers.skipped rfl c (List.mem_of_getLast? hc) with hblank | hcontrol
    · simp [isAlphanumeric_eq_false_of_isBlank hblank] at hname
    · simp [isAlphanumeric_eq_false_of_isControl hcontrol] at hname
  · rw [List.concat_eq_append, ← List.append_assoc] at htokens
    obtain ⟨-, hsame⟩ := List.append_inj' htokens rfl
    obtain rfl : token = last := List.singleton_inj.1 hsame
    rw [List.concat_eq_append] at hothers
    exact ⟨⟨init, token, hothers, hbare⟩, hlast⟩

/-- A piece that ends with a bare name has been read as that. -/
theorem Reads.exists_bare {piece rest : List Char} {new : List Token} (h : Reads piece new rest)
    (hends : EndsWithName piece) : ∃ token ∈ new, token.IsBare := by
  obtain ⟨⟨tokens, token, hscans, hbare⟩, -⟩ := hends
  have hnew : Reads piece new [] → ∃ token ∈ new, token.IsBare := by
    intro hreads
    have hscans' := hreads.scans .nil
    rw [List.append_nil, List.append_nil] at hscans'
    rw [hscans'.unique hscans]
    exact ⟨token, by simp, hbare⟩
  cases h with
  | symbol hc => exact hnew (.symbol hc)
  | arrow => exact hnew .arrow
  | @dot gap d rest hgap hblank hcolon =>
    -- read on its own, the dot would be trailing
    have hfault : Fault ('.' :: (gap ++ [])) .trailingDot 0 := .trailingDot hgap (by simp)
    rw [List.append_nil] at hfault
    exact absurd hscans hfault.not_scans
  | varName hname hstop => exact hnew (.varName hname .nil)
  | typeName hname hstop => exact hnew (.typeName hname .nil)
  | binder hmarker hgap hname hends => exact hnew (.binder hmarker hgap hname (by simp))
  | skip hc => exact hnew (.skip hc)

/-- A name that goes on is not read as if it had ended. -/
theorem not_scans_of_name_goes_on {c d : Char} {run rest : List Char} {kind : Kind}
    {tokens : List Token} (hc : c.isAlpha = true) (hrun : ∀ e ∈ run, isAlphanumeric e = true)
    (hd : isAlphanumeric d = true) :
    ¬ Scans (c :: run ++ d :: rest) (⟨kind, String.ofList (c :: run)⟩ :: tokens) := by
  intro hscans
  obtain ⟨more, behind, hmore, hall, hstop⟩ := exists_run_append isAlphanumeric (d :: rest)
  have hlonger : ∀ e ∈ run ++ more, isAlphanumeric e = true := by
    intro e he
    rcases List.mem_append.1 he with he | he
    · exact hrun e he
    · exact hall e he
  have hscan := hscans 0
  rw [hmore, ← List.append_assoc, List.cons_append, scanFrom_name hc hlonger hstop] at hscan
  obtain ⟨others, -, htokens⟩ := exists_of_map_eq_ok hscan
  simp only [List.cons.injEq, Token.mk.injEq, String.ofList_inj, true_and] at htokens
  have hnone : more = [] := by simpa using htokens.1.2
  subst hnone
  -- so the name ends where a letter or digit stands
  rw [List.nil_append] at hmore
  rw [← hmore] at hstop
  rw [hstop d rfl] at hd
  cases hd

/-- Behind a bare name the two spellings of a marker give different tokens. -/
theorem Reads.not_scans_lambda {piece rest rest' : List Char} {new tokens : List Token}
    {token : Token} (h : Reads piece new rest) (htoken : token ∈ new) (hbare : token.IsBare) :
    ¬ Scans (piece ++ 'λ' :: rest') (new ++ tokens) := by
  obtain ⟨c, run, rfl, rfl, hc, hall, -⟩ := h.exists_of_isBare htoken hbare
  have hrun : ∀ d ∈ run, isAlphanumeric d = true := fun d hd => hall d (.tail _ hd)
  exact not_scans_of_name_goes_on hc hrun (by decide +kernel)

/-- In a piece of text that is read, only the first character may be a backslash. -/
theorem Reads.backslash_first {piece rest : List Char} {new : List Token} {i : Nat}
    (h : Reads piece new rest) (hi : piece[i]? = some '\\') : i = 0 := by
  by_contra hpos
  obtain ⟨j, rfl⟩ := Nat.exists_eq_succ_of_ne_zero hpos
  rw [← List.getElem?_tail] at hi
  have htail := List.mem_of_getElem? hi
  have hname : isAlphanumeric '\\' = false := by decide
  have hblank : isBlank '\\' = false := by decide
  cases h with
  | symbol | arrow | skip => simp at htail
  | dot hgap _ _ => simp [hgap '\\' htail] at hblank
  | varName hvariable _ =>
    have hmem := isAlphanumeric_of_isVariableName hvariable '\\' (List.mem_of_mem_tail htail)
    simp [hmem] at hname
  | typeName htype _ =>
    have hmem := isAlphanumeric_of_isTypeName htype '\\' (List.mem_of_mem_tail htail)
    simp [hmem] at hname
  | binder _ hgap hbinder _ =>
    rcases List.mem_append.1 htail with hmem | hmem
    · simp [hgap '\\' hmem] at hblank
    · simp [isAlphanumeric_of_isBinderName hbinder '\\' hmem] at hname

/-- What is spared behind a step is spared in the whole text, unless the step reads a bare name and
    the character behind that name is respelled. -/
theorem SparesNames.append {piece rest piece' rest' : List Char} {new : List Token}
    (h : SparesNames rest rest') (hreads : Reads piece new rest)
    (hlength : piece'.length = piece.length)
    (hbehind : ∀ token ∈ new, token.IsBare → rest'.head? = rest.head?) :
    SparesNames (piece ++ rest) (piece' ++ rest') := by
  intro i hi hi' hends
  rcases Nat.lt_or_ge i piece.length with hlt | hge
  · -- a backslash in the piece stands at its beginning, so there is no name before it
    rw [List.getElem?_append_left hlt] at hi
    obtain rfl := hreads.backslash_first hi
    exact hends.ne_nil rfl
  · obtain ⟨j, rfl⟩ := Nat.exists_eq_add_of_le hge
    rw [List.getElem?_append_right hge, Nat.add_sub_cancel_left] at hi
    rw [← hlength] at hi'
    rw [List.getElem?_append_right (Nat.le_add_right _ _), Nat.add_sub_cancel_left] at hi'
    rw [List.take_length_add_append] at hends
    by_cases hpos : j = 0
    · -- the piece itself ends with a bare name, and the character behind it is not the same
      subst hpos
      rw [List.take_zero, List.append_nil] at hends
      obtain ⟨token, htoken, hbare⟩ := hreads.exists_bare hends
      have hhead := hbehind token htoken hbare
      rw [List.head?_eq_getElem?, List.head?_eq_getElem?, hi, hi'] at hhead
      exact absurd hhead (by decide)
    · refine h j hi hi' (hends.of_append (hreads.take hpos) ?_)
      intro hnil
      rw [List.take_eq_nil_iff] at hnil
      rcases hnil with rfl | rfl
      · exact hpos rfl
      · cases hi

/-- A respelling that leaves the tokens of a text as they are spares the names. -/
theorem Scans.sparesNames {text text' : List Char} {tokens : List Token} (h : Scans text tokens)
    (hrespelled : Respelled text text') (h' : Scans text' tokens) : SparesNames text text' := by
  induction h using Scans.steps_induction generalizing text' with
  | nil =>
    intro i hi
    cases hi
  | reads piece new rest tokens hreads _ ih =>
    obtain ⟨piece', rest', rfl, hpiece, hrest⟩ := hrespelled.exists_of_append
    have hbehind : ∀ token ∈ new, token.IsBare → rest'.head? = rest.head? := by
      intro token htoken hbare
      cases hrest with
      | nil => rfl
      | keep _ _ => rfl
      | swap _ =>
        obtain ⟨-, -, -, -, -, hall, -⟩ := hreads.exists_of_isBare htoken hbare
        rw [hpiece.eq_of_isAlphanumeric hall] at h'
        exact absurd h' (hreads.not_scans_lambda htoken hbare)
    have hreads' := hreads.respelled hpiece hrest hbehind
    obtain ⟨others, hothers, htokens⟩ := hreads'.exists_of_scans h'
    obtain rfl := List.append_cancel_left htokens
    exact (ih hrest hothers).append hreads hpiece.length_eq hbehind

/-! ### The scanner and the spelling of markers -/

/-- The two spellings of a marker are read alike, except behind bare names.  A text that is
    respelled elsewhere has the same tokens, or the same error at the same position; and where a
    text has tokens, these are all respellings that have the same. -/
theorem scan_respelled {text text' : String} (h : Respelled text.toList text'.toList) :
    (SparesNames text.toList text'.toList → scan text' = scan text) ∧
    ∀ tokens, scan text = .ok tokens →
      (scan text' = .ok tokens ↔ SparesNames text.toList text'.toList) := by
  have hsame : SparesNames text.toList text'.toList → scan text' = scan text :=
    fun hspares => h.scanFrom_eq hspares 1
  refine ⟨hsame, fun tokens hscan => ⟨fun hscan' => ?_, fun hspares => ?_⟩⟩
  · exact (scans_of_scanFrom hscan).sparesNames h (scans_of_scanFrom hscan')
  · rw [hsame hspares, hscan]

/-- In `f (\x\y.x)` both markers may be respelled, although the second one stands right behind a
    name: this is the name of a binder. -/
theorem scan_respelled_binders :
    Respelled "f (\\x\\y.x)".toList "f (λxλy.x)".toList ∧
      scan "f (λxλy.x)" = scan "f (\\x\\y.x)" := by
  have h : Respelled "f (\\x\\y.x)".toList "f (λxλy.x)".toList :=
    .keep 'f' <| .keep ' ' <| .keep '(' <| .swap <| .keep 'x' <| .swap <| .keep 'y' <|
      .keep '.' <| .keep 'x' <| .keep ')' .nil
  refine ⟨h, (scan_respelled h).1 ?_⟩
  have hplaces : ∀ i : Fin 10, "f (\\x\\y.x)".toList[i.1]? = some '\\' → i.1 = 3 ∨ i.1 = 5 := by
    decide
  rintro i hi - ⟨⟨tokens, token, hscans, hbare⟩, c, hc, hname⟩
  obtain ⟨hlt, -⟩ := List.getElem?_eq_some_iff.1 hi
  rcases hplaces ⟨i, hlt⟩ hi with rfl | rfl
  · -- the text before the first marker ends with a parenthesis
    cases hc
    exact absurd hname (by decide)
  · -- the text before the second one ends with the binder
    have hgap : IsGap [] := by simp [IsGap]
    have hbinder : Reads ['\\', 'x'] [⟨.lambda, "x"⟩] [] :=
      @Reads.binder '\\' [] "x" [] (by decide) hgap (by decide) (by simp)
    have hread : Scans ['f', ' ', '(', '\\', 'x'] [⟨.lower, "f"⟩, ⟨.lparen, ""⟩, ⟨.lambda, "x"⟩] :=
      Scans.variable (by decide : isVariableName "f" = true) (.cons (by decide)) <|
        .blank (by decide) <| .symbol (by decide) (hbinder.scans .nil)
    have htokens := hscans.unique hread
    obtain rfl : token = ⟨.lambda, "x"⟩ := by simpa using congrArg List.getLast? htokens
    simp [IsBare] at hbare

/-- In `x\y` the marker stands right behind the bare name `x`: with the other spelling, the text is
    a single name. -/
theorem scan_respelled_behind_name :
    Respelled "x\\y".toList "xλy".toList ∧
      scan "x\\y" = .ok [⟨.lower, "x"⟩, ⟨.lambda, "y"⟩] ∧ scan "xλy" = .ok [⟨.lower, "xλy"⟩] ∧
      scan "xλy" ≠ scan "x\\y" := by
  have hgap : IsGap [] := by simp [IsGap]
  have hbinder : Reads ['\\', 'y'] [⟨.lambda, "y"⟩] [] :=
    @Reads.binder '\\' [] "y" [] (by decide) hgap (by decide) (by simp)
  have hname : isVariableName "xλy" = true := by decide +kernel
  have hscan : scan "x\\y" = .ok [⟨.lower, "x"⟩, ⟨.lambda, "y"⟩] :=
    (Scans.variable (by decide : isVariableName "x" = true) (.cons (by decide))
      (hbinder.scans .nil)).scan_ofList
  have hscan' : scan "xλy" = .ok [⟨.lower, "xλy"⟩] :=
    (Scans.variable hname .nil .nil).scan_ofList
  refine ⟨.keep 'x' <| .swap <| .keep 'y' .nil, hscan, hscan', ?_⟩
  rw [hscan, hscan']
  simp

end Redex.Token
