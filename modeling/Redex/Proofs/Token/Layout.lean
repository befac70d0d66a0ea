import Redex.Proofs.Token.Steps

/-! # Tokens and their spellings

    A list of tokens is legal if every token has the text that its kind asks for and every dot
    has a token behind it that is no colon.  It is spelled by the spellings of its tokens in
    order, with white space between neighbours and around.

    Legal lists are what the scanner reads: every spelling of a legal list scans into the list
    (`Layout.scans`), and what is scanned from a text is legal, unless the text has control
    characters that are no white space (`Scans.legal`).  These may stand behind a dot, and
    then are skipped. -/

namespace Redex.Token

open Text

/-! ### Legal lists -/

/-- Whether every dot has a token behind it that is no colon. -/
def dotsLead : List Token → Bool
  | [] => true
  | token :: tokens =>
    (token.kind != .dot || tokens.head?.any fun next => next.kind != .colon) && dotsLead tokens

/-- Whether a list of tokens can be spelled. -/
def legal (tokens : List Token) : Bool :=
  tokens.all (fun token => token.kind != .other && token.wellNamed) && dotsLead tokens

theorem legal_cons_iff {token : Token} {tokens : List Token} :
    legal (token :: tokens) = true ↔
      token.kind ≠ .other ∧ token.wellNamed = true ∧
      (token.kind = .dot → ∃ next rest, tokens = next :: rest ∧ next.kind ≠ .colon) ∧
      legal tokens = true := by
  have hnext : (tokens.head?.any fun next => next.kind != .colon) = true ↔
      ∃ next rest, tokens = next :: rest ∧ next.kind ≠ .colon := by
    cases tokens <;> simp
  simp only [legal, List.all_cons, dotsLead, Bool.and_eq_true, Bool.or_eq_true, bne_iff_ne, hnext]
  grind

/-! ### Spellings -/

/-- The spellings of a token.  White space may stand between a marker and the name behind it. -/
inductive Spelling : Token → List Char → Prop where
  | binder {marker : Char} {gap : List Char} (name : String) (hmarker : isMarker marker = true)
      (hgap : IsGap gap) : Spelling ⟨.lambda, name⟩ (marker :: (gap ++ name.toList))
  | varName (name : String) : Spelling ⟨.lower, name⟩ name.toList
  | typeName (name : String) : Spelling ⟨.upper, name⟩ name.toList
  | symbol {c : Char} {kind : Kind} (hc : (c, kind) ∈ symbols) : Spelling ⟨kind, ""⟩ [c]
  | arrow : Spelling ⟨.arrow, ""⟩ ['-', '>']
  | dot : Spelling ⟨.dot, ""⟩ ['.']

/-- The text spells the tokens in order.  White space may stand behind each of them, and does so
    between neighbours. -/
inductive Layout : List Token → List Char → Prop where
  | nil : Layout [] []
  | cons {token : Token} {tokens : List Token} {piece gap text : List Char}
      (hpiece : Spelling token piece) (hgap : IsGap gap) (hbetween : tokens ≠ [] → gap ≠ [])
      (htext : Layout tokens text) : Layout (token :: tokens) (piece ++ (gap ++ text))

/-- A token is spelled with something that may stand behind a dot, unless it is a colon. -/
theorem Spelling.exists_cons {token : Token} {piece : List Char} (h : Spelling token piece)
    (hnamed : token.wellNamed = true) (hcolon : token.kind ≠ .colon) :
    ∃ d rest, piece = d :: rest ∧ isBlank d = false ∧ d ≠ ':' := by
  have hname : ∀ {c : Char}, c.isAlpha = true → isBlank c = false ∧ c ≠ ':' := by
    intro c hc
    refine ⟨isBlank_eq_false_of_isAlpha hc, ?_⟩
    rintro rfl
    exact absurd hc (by decide)
  cases h with
  | binder name hmarker hgap =>
    simp only [isMarker, Bool.or_eq_true, beq_iff_eq] at hmarker
    rcases hmarker with rfl | rfl
    · exact ⟨_, _, rfl, by decide, by decide⟩
    · exact ⟨_, _, rfl, by decide, by decide⟩
  | varName name =>
    obtain ⟨c, run, rfl, hc, -⟩ := exists_of_isName hnamed
    exact ⟨c, run, String.toList_ofList, hname (isAlpha_iff.2 (.inr hc))⟩
  | typeName name =>
    obtain ⟨c, run, rfl, hc, -⟩ := exists_of_isName hnamed
    exact ⟨c, run, String.toList_ofList, hname (isAlpha_iff.2 (.inl hc))⟩
  | symbol hc =>
    simp only [symbols, List.mem_cons, Prod.mk.injEq, List.not_mem_nil, or_false] at hc
    rcases hc with ⟨rfl, rfl⟩ | ⟨rfl, rfl⟩ | ⟨rfl, rfl⟩ | ⟨rfl, rfl⟩
    · exact ⟨_, _, rfl, by decide, by decide⟩
    · exact ⟨_, _, rfl, by decide, by decide⟩
    · exact ⟨_, _, rfl, by decide, by decide⟩
    · exact absurd rfl hcolon
  | arrow => exact ⟨_, _, rfl, by decide, by decide⟩
  | dot => exact ⟨_, _, rfl, by decide, by decide⟩

theorem Scans.gap {gap text : List Char} {tokens : List Token} (hgap : IsGap gap)
    (h : Scans text tokens) : Scans (gap ++ text) tokens := by
  induction gap with
  | nil => exact h
  | cons c gap ih =>
    have hrest : IsGap gap := fun d hd => hgap d (.tail _ hd)
    exact .blank (hgap c (.head _)) (ih hrest)

/-- Behind a spelling there is white space, or nothing. -/
theorem Layout.isBlank_of_head? {tokens : List Token} {gap text : List Char}
    (h : Layout tokens text) (hgap : IsGap gap) (hbetween : tokens ≠ [] → gap ≠ []) :
    ∀ d ∈ (gap ++ text).head?, isBlank d = true := by
  cases gap with
  | nil =>
    cases h with
    | nil => simp
    | cons => exact absurd rfl (hbetween (by simp))
  | cons c gap => simpa using hgap c (.head _)

/-- Every spelling of a legal list scans into the list. -/
theorem Layout.scans {tokens : List Token} {text : List Char} (h : Layout tokens text)
    (hlegal : legal tokens = true) : Scans text tokens := by
  induction h with
  | nil => exact .nil
  | @cons token tokens piece gap text hpiece hgap hbetween htext ih =>
    obtain ⟨-, hnamed, hdot, hrest⟩ := legal_cons_iff.1 hlegal
    have hscans := ih hrest
    have hblank := htext.isBlank_of_head? hgap hbetween
    have hstop : Stops isAlphanumeric (gap ++ text) := fun d hd =>
      isAlphanumeric_eq_false_of_isBlank (hblank d hd)
    cases hpiece with
    | binder name hmarker hspace =>
      have hends : ∀ d ∈ (gap ++ text).head?, endsBinder d = true ∨ isBlank d = true :=
        fun d hd => .inr (hblank d hd)
      exact (Reads.binder hmarker hspace hnamed hends).scans (hscans.gap hgap)
    | varName name => exact (Reads.varName hnamed hstop).scans (hscans.gap hgap)
    | typeName name => exact (Reads.typeName hnamed hstop).scans (hscans.gap hgap)
    | symbol hc => exact (Reads.symbol hc).scans (hscans.gap hgap)
    | arrow => exact Reads.arrow.scans (hscans.gap hgap)
    | dot =>
      -- the white space belongs to the dot, and the next token begins behind it
      obtain ⟨next, rest, rfl, hcolon⟩ := hdot rfl
      obtain ⟨-, hnext, -⟩ := legal_cons_iff.1 hrest
      cases htext with
      | cons hpiece' _ _ _ =>
        obtain ⟨d, piece, rfl, hd, hne⟩ := hpiece'.exists_cons hnext hcolon
        exact (Reads.dot hgap hd hne).scans hscans

/-! ### What is scanned -/

/-- A text that begins with something to be read, and no colon, gives a first token. -/
theorem Scans.exists_token {d : Char} {text : List Char} {tokens : List Token}
    (h : Scans (d :: text) tokens) (hblank : isBlank d = false) (hcontrol : isControl d = false)
    (hcolon : d ≠ ':') : ∃ next others, tokens = next :: others ∧ next.kind ≠ .colon := by
  rcases reads_or_fault d text with ⟨piece, new, rest, htext, hreads⟩ | ⟨_, _, hfault⟩
  · rw [htext] at h
    obtain ⟨others, -, rfl⟩ := hreads.exists_of_scans h
    cases hreads with
    | @symbol c kind rest hc =>
      obtain ⟨rfl, -⟩ := List.cons.inj htext
      refine ⟨_, _, rfl, ?_⟩
      rintro rfl
      simp [symbols] at hc
      exact hcolon hc
    | @skip c rest hc =>
      obtain ⟨rfl, -⟩ := List.cons.inj htext
      simp [hblank, hcontrol] at hc
    | _ => exact ⟨_, _, rfl, by simp⟩
  · exact absurd h hfault.not_scans

/-- What is scanned is legal.  Where a dot is read, the text goes on with a character that is not
    skipped, so the next token is read from there. -/
theorem Scans.legal {text : List Char} {tokens : List Token} (h : Scans text tokens)
    (hcontrol : ∀ c ∈ text, isControl c = true → isBlank c = true) : legal tokens = true := by
  induction h using Scans.steps_induction with
  | nil => rfl
  | reads piece new rest tokens hreads hrest ih =>
    have htokens := ih fun c hc => hcontrol c (List.mem_append_right piece hc)
    have hnamed := hreads.wellNamed
    cases hreads with
    | skip hc => exact htokens
    | @dot gap d rest hgap hblank hcolon =>
      -- a control character behind the dot would be skipped, but there is none
      have hd : isControl d = false := by
        rw [Bool.eq_false_iff]
        intro hd
        have hskipped := hcontrol d (by simp) hd
        simp [hblank] at hskipped
      have hnext := hrest.exists_token hblank hd hcolon
      exact legal_cons_iff.2 ⟨by simp, rfl, fun _ => hnext, htokens⟩
    | symbol hc =>
      simp only [symbols, List.mem_cons, Prod.mk.injEq, List.not_mem_nil, or_false] at hc
      rcases hc with ⟨-, rfl⟩ | ⟨-, rfl⟩ | ⟨-, rfl⟩ | ⟨-, rfl⟩ <;>
        exact legal_cons_iff.2 ⟨by simp, rfl, by simp, htokens⟩
    | _ => exact legal_cons_iff.2 ⟨by simp, hnamed _ (.head _), by simp, htokens⟩

/-- Every spelling of a legal list of tokens scans into the list, with any white space around; and
    every list that is scanned is legal, unless the text has control characters that are no white
    space. -/
theorem scan_layout_and_legal :
    (∀ (tokens : List Token) (front text : List Char), legal tokens = true → IsGap front →
      Layout tokens text → scan (String.ofList (front ++ text)) = .ok tokens) ∧
    ∀ (text : String) (tokens : List Token),
      (∀ c ∈ text.toList, isControl c = true → isBlank c = true) → scan text = .ok tokens →
      legal tokens = true := by
  constructor
  · intro tokens front text hlegal hfront htext
    exact ((htext.scans hlegal).gap hfront).scan_ofList
  · intro text tokens hcontrol hscan
    exact (scans_of_scanFrom hscan).legal hcontrol

/-- In the text `\` stands apart from its name, a variable has `λ` in its name, and the dot has
    white space of two kinds behind it. -/
theorem scan_layout_and_legal_spaced :
    scan "\n\\ x1\t.\u3000\tyλ : A " =
      .ok [⟨.lambda, "x1"⟩, ⟨.dot, ""⟩, ⟨.lower, "yλ"⟩, ⟨.colon, ""⟩, ⟨.upper, "A"⟩] ∧
    (∀ c ∈ "\n\\ x1\t.\u3000\tyλ : A ".toList, isControl c = true → isBlank c = true) ∧
    legal [⟨.lambda, "x1"⟩, ⟨.dot, ""⟩, ⟨.lower, "yλ"⟩, ⟨.colon, ""⟩, ⟨.upper, "A"⟩] = true := by
  have hspace : IsGap [' '] := List.all_eq_true.1 (by decide)
  have htab : IsGap ['\t'] := List.all_eq_true.1 (by decide)
  have hwide : IsGap ['\u3000', '\t'] := List.all_eq_true.1 (by decide)
  have hline : IsGap ['\n'] := List.all_eq_true.1 (by decide)
  have hmarker : isMarker '\\' = true := by decide
  have htext : Layout _ _ :=
    .cons (.binder "x1" hmarker hspace) htab (by simp) <|
      .cons .dot hwide (by simp) <| .cons (.varName "yλ") hspace (by simp) <|
      .cons (.symbol (by decide : (':', .colon) ∈ symbols)) hspace (by simp) <|
      .cons (.typeName "A") hspace (by simp) .nil
  have hscan := scan_layout_and_legal.1 _ _ _ (by decide) hline htext
  have hcontrol : ∀ c ∈ "\n\\ x1\t.\u3000\tyλ : A ".toList,
      isControl c = true → isBlank c = true := by
    have hall : "\n\\ x1\t.\u3000\tyλ : A ".toList.all
        (fun c => !isControl c || isBlank c) = true := by decide
    intro c hmem hc
    simpa [hc] using List.all_eq_true.1 hall c hmem
  exact ⟨hscan, hcontrol, scan_layout_and_legal.2 _ _ hcontrol hscan⟩

end Redex.Token
