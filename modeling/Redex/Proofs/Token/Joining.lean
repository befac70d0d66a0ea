import Redex.Proofs.Token.Steps

/-! # Texts joined by white space

    A text that scans is read in steps, and none of them looks beyond white space at the end of
    the text: the step is the same with white space and any other text behind it
    (`Reads.append_blank`).  So behind the white space the scanner begins as with a new text,
    and only its count of positions goes on. -/

namespace Redex.Token

open Text

/-- What is asked of the first character of a text, if it has one, is asked of white space where
    the text is empty. -/
theorem forall_head?_append_cons {p : Char → Prop} {rest : List Char} {blank : Char}
    (hrest : ∀ d ∈ rest.head?, p d) (hblank : p blank) (text : List Char) :
    ∀ d ∈ (rest ++ blank :: text).head?, p d := by
  cases rest with
  | nil => simpa using hblank
  | cons c rest => exact hrest

/-- A step is the same with white space and more text behind what follows it.  A name, of either
    kind, ends there if it has not ended before; a dot has something else behind it already. -/
theorem Reads.append_blank {piece rest : List Char} {new : List Token} {blank : Char}
    (h : Reads piece new rest) (hblank : isBlank blank = true) (text : List Char) :
    Reads piece new (rest ++ blank :: text) := by
  have hname := isAlphanumeric_eq_false_of_isBlank hblank
  cases h with
  | symbol hc => exact .symbol hc
  | arrow => exact .arrow
  | dot hgap hd hcolon => exact .dot hgap hd hcolon
  | varName hvariable hstop => exact .varName hvariable (forall_head?_append_cons hstop hname text)
  | typeName htype hstop => exact .typeName htype (forall_head?_append_cons hstop hname text)
  | binder hmarker hgap hbinder hends =>
    exact .binder hmarker hgap hbinder (forall_head?_append_cons hends (.inr hblank) text)
  | skip hc => exact .skip hc

/-- Behind a text that scans, and white space, the scanner goes on with the rest. -/
theorem Scans.scanFrom_append_blank {text : List Char} {tokens : List Token} {blank : Char}
    (h : Scans text tokens) (hblank : isBlank blank = true) (more : List Char) (pos : Nat) :
    scanFrom pos (text ++ blank :: more) =
      (scanFrom (pos + text.length + 1) more).map (tokens ++ ·) := by
  induction h using Scans.steps_induction generalizing pos with
  | nil => exact (Reads.skip (.inl hblank)).scanFrom_eq pos
  | reads piece new rest tokens hreads _ ih =>
    rw [List.append_assoc, (hreads.append_blank hblank more).scanFrom_eq, ih,
      List.length_append, ← Nat.add_assoc]
    cases scanFrom (pos + piece.length + rest.length + 1) more <;> simp [Except.map]

/-- A text that scans, white space and a second text: the tokens are those of the two texts one
    after the other, and a fault of the second text is reported as such, at the same character. -/
theorem scan_append_blank {first : String} {tokens : List Token} (h : scan first = .ok tokens)
    {blank : Char} (hblank : isBlank blank = true) (second : String) :
    scan (first ++ String.singleton blank ++ second) =
      match scan second with
      | .ok more => .ok (tokens ++ more)
      | .error e => .error ⟨e.cause, e.pos + first.length + 1⟩ := by
  have hjoin : (first ++ String.singleton blank ++ second).toList =
      first.toList ++ blank :: second.toList := by simp
  have hfirst : 1 + first.toList.length + 1 = 1 + (first.length + 1) := by
    rw [String.length_toList, Nat.add_assoc]
  unfold scan at h ⊢
  rw [hjoin, (scans_of_scanFrom h).scanFrom_append_blank hblank, hfirst, scanFrom_add]
  cases scanFrom 1 second.toList <;> rfl

/-- In `(λx` the text ends with the name of a binder, and in `-y` it begins with a fault.  Joined
    by an ideographic space, the fault stands at the fifth character. -/
theorem scan_append_blank_invalid_arrow :
    scan "(λx" = .ok [⟨.lparen, ""⟩, ⟨.lambda, "x"⟩] ∧ scan "-y" = .error ⟨.invalidArrow, 1⟩ ∧
      scan "(λx\u3000-y" = .error ⟨.invalidArrow, 5⟩ := by
  have hgap : IsGap [] := by simp [IsGap]
  have hbinder : Reads ['λ', 'x'] [⟨.lambda, "x"⟩] [] :=
    @Reads.binder 'λ' [] "x" [] (by decide) hgap (by decide) (by simp)
  have hfirst : scan "(λx" = .ok [⟨.lparen, ""⟩, ⟨.lambda, "x"⟩] :=
    (Scans.symbol (by decide) (hbinder.scans .nil)).scan_ofList
  have hfault : Fault ['-', 'y'] .invalidArrow 0 := .invalidArrow (by decide)
  have hsecond : scan "-y" = .error ⟨.invalidArrow, 1⟩ := hfault.scanFrom_eq 1
  have hblank : isBlank '\u3000' = true := by decide
  have hjoin := scan_append_blank hfirst hblank "-y"
  rw [hsecond] at hjoin
  exact ⟨hfirst, hsecond, hjoin⟩

end Redex.Token
