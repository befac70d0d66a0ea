import Redex.Token.Extent

/-! # Where the cuts end

    A cut finds the end of a phrase by counting parentheses, without reading the phrase.
    Inside parentheses the three cuts end at the same place (`cuts_agree`), and over
    balanced tokens they pass as a whole.  So a cut ends where a group of balanced tokens
    was closed, and what follows the group does not matter. -/

namespace Redex.Token

/-- A mapped result comes from a result. -/
theorem exists_of_map_eq_ok {ε α β : Type} {result : Except ε α} {f : α → β} {b : β}
    (h : result.map f = .ok b) : ∃ a, result = .ok a ∧ f a = b := by
  cases result with
  | error e => simp [Except.map] at h
  | ok a => exact ⟨a, rfl, Except.ok.inj h⟩

/-! ### One token -/

theorem annotationCut_cons {depth : Int} {token : Token} (behind : Int) (tokens : List Token)
    (harrow : token.kind = .arrow → depth ≠ 0) (hbehind : depthBehind depth token = behind)
    (hne : behind ≠ 0) :
    annotationCut depth (token :: tokens) =
      (annotationCut behind tokens).map (consFirst token) := by
  rw [annotationCut, if_neg (not_and.2 harrow), hbehind, if_neg hne]

/-- The cut of an annotation takes the first token at least. -/
theorem exists_of_annotationCut {depth : Int} {tokens ty rest : List Token}
    (h : annotationCut depth tokens = .ok (ty, rest)) :
    ∃ token ty' tokens', tokens = token :: tokens' ∧ ty = token :: ty' := by
  cases tokens with
  | nil => simp [annotationCut] at h
  | cons token tokens =>
    unfold annotationCut at h
    split at h
    · simp at h
    · split at h
      · cases h
        exact ⟨token, [], _, rfl, rfl⟩
      · obtain ⟨cut, -, hcons⟩ := exists_of_map_eq_ok h
        cases hcons
        exact ⟨token, cut.1, tokens, rfl, rfl⟩

/-- Inside a group, a token that does not close it changes the depth for all cuts alike. -/
theorem cuts_cons (depth : Nat) (token : Token) :
    (token.kind = .rparen ∧ depth = 0) ∨
    ∃ behind : Nat, ∀ tokens,
      groupCut depth (token :: tokens) = (groupCut behind tokens).map (consFirst token) ∧
      annotationCut (depth + 1) (token :: tokens) =
        (annotationCut (behind + 1) tokens).map (consFirst token) ∧
      shortBodyCut (depth + 1) (token :: tokens) =
        (shortBodyCut (behind + 1) tokens).map (consFirst token) := by
  obtain ⟨kind, text⟩ := token
  cases kind with
  | lparen =>
    refine .inr ⟨depth + 1, fun tokens => ⟨rfl, ?_, rfl⟩⟩
    exact annotationCut_cons _ _ (by simp) rfl (by omega)
  | rparen =>
    cases depth with
    | zero => exact .inl ⟨rfl, rfl⟩
    | succ depth =>
      have hdown : ((depth + 1 : Nat) + 1 : Int) - 1 = depth + 1 := by omega
      have hne : ((depth + 1 : Nat) + 1 : Int) ≠ 1 := by omega
      refine .inr ⟨depth, fun tokens => ⟨rfl, ?_, ?_⟩⟩
      · exact annotationCut_cons _ _ (by simp) hdown (by omega)
      · simp only [shortBodyCut, if_neg hne, hdown]
  | lower =>
    have hne : (depth + 1 : Int) ≠ 0 := by omega
    refine .inr ⟨depth, fun tokens => ⟨rfl, annotationCut_cons _ _ (by simp) rfl hne, ?_⟩⟩
    simp only [shortBodyCut, if_neg hne]
  | _ =>
    refine .inr ⟨depth, fun tokens => ⟨rfl, ?_, rfl⟩⟩
    exact annotationCut_cons _ _ (by omega) rfl (by omega)

/-! ### Groups -/

/-- Inside a group all cuts end with the parenthesis that closes it, or none ends at all. -/
theorem cuts_agree (depth : Nat) (tokens : List Token) :
    (groupCut depth tokens = none ∧
      annotationCut (depth + 1) tokens = .error .unclosedLParen ∧
      shortBodyCut (depth + 1) tokens = none) ∨
    ∃ inside closing rest, closing.kind = .rparen ∧ tokens = inside ++ closing :: rest ∧
      groupCut depth tokens = some (inside, rest) ∧
      annotationCut (depth + 1) tokens = .ok (inside ++ [closing], rest) ∧
      shortBodyCut (depth + 1) tokens = some (inside ++ [closing], rest) := by
  induction tokens generalizing depth with
  | nil => exact .inl ⟨rfl, rfl, rfl⟩
  | cons token tokens ih =>
    rcases cuts_cons depth token with ⟨hclosing, rfl⟩ | ⟨behind, hcuts⟩
    · refine .inr ⟨[], token, tokens, hclosing, rfl, ?_, ?_, ?_⟩
      · simp [groupCut, hclosing]
      · simp [annotationCut, depthBehind, hclosing]
      · simp [shortBodyCut, hclosing]
    · obtain ⟨hgroup, hhat, hbody⟩ := hcuts tokens
      rw [hgroup, hhat, hbody]
      rcases ih behind with ⟨hnone, herror, hnone'⟩ |
        ⟨inside, closing, rest, hclosing, rfl, hsome, hok, hsome'⟩
      · rw [hnone, herror, hnone']
        exact .inl ⟨rfl, rfl, rfl⟩
      · rw [hsome, hok, hsome']
        exact .inr ⟨token :: inside, closing, rest, hclosing, rfl, rfl, rfl, rfl⟩

/-- The cut of a group loses nothing but the parenthesis that closes it. -/
theorem exists_of_groupCut {depth : Nat} {tokens inside rest : List Token}
    (h : groupCut depth tokens = some (inside, rest)) :
    ∃ text, tokens = inside ++ ⟨.rparen, text⟩ :: rest := by
  rcases cuts_agree depth tokens with ⟨hnone, -⟩ | ⟨_, ⟨_, text⟩, _, rfl, rfl, hsome, -⟩
  · simp [hnone] at h
  · cases h.symm.trans hsome
    exact ⟨text, rfl⟩

/-- A group is cut off the same way whatever follows it. -/
theorem groupCut_append {depth : Nat} {tokens inside rest : List Token}
    (h : groupCut depth tokens = some (inside, rest)) (text : String) (more : List Token) :
    groupCut depth (inside ++ ⟨.rparen, text⟩ :: more) = some (inside, more) := by
  induction tokens generalizing depth inside with
  | nil => simp [groupCut] at h
  | cons token tokens ih =>
    rcases cuts_cons depth token with ⟨hclosing, rfl⟩ | ⟨behind, hcuts⟩
    · simp only [groupCut, hclosing, Option.some.injEq, Prod.mk.injEq] at h
      rw [← h.1]
      rfl
    · rw [(hcuts tokens).1] at h
      obtain ⟨⟨inside', _⟩, hcut, hcons⟩ := Option.map_eq_some_iff.1 h
      cases hcons
      rw [List.cons_append, (hcuts _).1, ih hcut]
      rfl

/-- An annotation in parentheses is the group. -/
theorem annotationCut_lparen {text : String} {tokens ty rest : List Token}
    (h : annotationCut 0 (⟨.lparen, text⟩ :: tokens) = .ok (ty, rest)) :
    ∃ inside text', tokens = inside ++ ⟨.rparen, text'⟩ :: rest ∧
      groupCut 0 tokens = some (inside, rest) ∧
      ty = ⟨.lparen, text⟩ :: (inside ++ [⟨.rparen, text'⟩]) := by
  rw [annotationCut_cons 1 tokens (by simp) rfl (by decide)] at h
  obtain ⟨cut, hcut, hcons⟩ := exists_of_map_eq_ok h
  rcases cuts_agree 0 tokens with ⟨-, herror, -⟩ |
    ⟨inside, ⟨_, text'⟩, _, rfl, rfl, hsome, hok, -⟩
  · cases hcut.symm.trans herror
  · cases hcut.symm.trans hok
    cases hcons
    exact ⟨inside, text', rfl, hsome, rfl⟩

/-! ### Balanced tokens -/

/-- The kinds that neither open nor close a group nor divide a judgement. -/
def Kind.isPlain : Kind → Bool
  | .lparen | .rparen | .colon => false
  | _ => true

/-- Tokens without a colon and with a partner for every parenthesis. -/
inductive Balanced : List Token → Prop where
  | nil : Balanced []
  | single {token : Token} (h : token.kind.isPlain = true) : Balanced [token]
  | append {tokens others : List Token} (h : Balanced tokens) (hothers : Balanced others) :
    Balanced (tokens ++ others)
  | group {inside : List Token} (text text' : String) (h : Balanced inside) :
    Balanced (⟨.lparen, text⟩ :: (inside ++ [⟨.rparen, text'⟩]))

namespace Balanced

variable {tokens inside : List Token}

theorem cons {token : Token} (htoken : token.kind.isPlain = true) (h : Balanced tokens) :
    Balanced (token :: tokens) :=
  .append (.single htoken) h

theorem kind_ne_colon (h : Balanced tokens) : ∀ token ∈ tokens, token.kind ≠ .colon := by
  induction h with
  | nil => simp
  | single h => grind [Kind.isPlain]
  | append _ _ ih ihothers => grind
  | group _ _ _ ih => grind

/-- The cut of a group passes over balanced tokens, at any depth. -/
theorem groupCut_append (h : Balanced tokens) {depth : Nat} {more inside rest : List Token}
    (hcut : groupCut depth more = some (inside, rest)) :
    groupCut depth (tokens ++ more) = some (tokens ++ inside, rest) := by
  induction h generalizing depth more inside with
  | nil => exact hcut
  | @single token h =>
    obtain ⟨kind, text⟩ := token
    cases kind <;> first | contradiction | simp [groupCut, hcut, consFirst]
  | append _ _ ih ihothers =>
    simpa only [List.append_assoc] using ih (ihothers hcut)
  | group text text' _ ih =>
    have hclose : groupCut (depth + 1) (⟨.rparen, text'⟩ :: more) =
        some (⟨.rparen, text'⟩ :: inside, rest) := by
      simp [groupCut, hcut, consFirst]
    simp [groupCut, ih hclose, consFirst]

/-- The cut of a group ends with the parenthesis that closes it. -/
theorem groupCut_rparen (h : Balanced inside) (text : String) (more : List Token) :
    groupCut 0 (inside ++ ⟨.rparen, text⟩ :: more) = some (inside, more) := by
  have hclose : groupCut 0 (⟨.rparen, text⟩ :: more) = some ([], more) := rfl
  simpa only [List.append_nil] using h.groupCut_append hclose

/-- So do the other cuts. -/
theorem cuts_rparen (h : Balanced inside) (text : String) (more : List Token) :
    annotationCut 1 (inside ++ ⟨.rparen, text⟩ :: more) =
        .ok (inside ++ [⟨.rparen, text⟩], more) ∧
      shortBodyCut 1 (inside ++ ⟨.rparen, text⟩ :: more) =
        some (inside ++ [⟨.rparen, text⟩], more) := by
  have hcut := h.groupCut_rparen text more
  rcases cuts_agree 0 (inside ++ ⟨.rparen, text⟩ :: more) with ⟨hnone, -⟩ |
    ⟨_, closing, _, -, htokens, hsome, hok, hsome'⟩
  · simp [hcut] at hnone
  · cases hcut.symm.trans hsome
    obtain rfl : closing = ⟨.rparen, text⟩ := by simpa using htokens.symm
    exact ⟨hok, hsome'⟩

/-- An annotation in parentheses is cut off as a whole. -/
theorem annotationCut_group (h : Balanced inside) (text text' : String) (more : List Token) :
    annotationCut 0 (⟨.lparen, text⟩ :: (inside ++ ⟨.rparen, text'⟩ :: more)) =
      .ok (⟨.lparen, text⟩ :: (inside ++ [⟨.rparen, text'⟩]), more) := by
  rw [annotationCut_cons 1 _ (by simp) rfl (by decide), (h.cuts_rparen text' more).1]
  rfl

/-- So is a short body in parentheses. -/
theorem shortBodyCut_group (h : Balanced inside) (text text' : String) (more : List Token) :
    shortBodyCut 0 (⟨.lparen, text⟩ :: (inside ++ ⟨.rparen, text'⟩ :: more)) =
      some (⟨.lparen, text⟩ :: (inside ++ [⟨.rparen, text'⟩]), more) := by
  simp [shortBodyCut, (h.cuts_rparen text' more).2, consFirst]

end Balanced

/-! ### Short bodies -/

/-- A token ends a short body, or it only changes the depth; what follows does not matter. -/
theorem shortBodyCut_cons (depth : Int) (token : Token) :
    (∀ tokens, shortBodyCut depth (token :: tokens) = some ([token], tokens)) ∨
    ∃ behind, ∀ tokens,
      shortBodyCut depth (token :: tokens) =
        (shortBodyCut behind tokens).map (consFirst token) := by
  obtain ⟨kind, text⟩ := token
  cases kind with
  | lparen => exact .inr ⟨depth + 1, fun _ => rfl⟩
  | rparen =>
    by_cases hdepth : depth = 1
    · exact .inl fun tokens => by simp [shortBodyCut, hdepth]
    · exact .inr ⟨depth - 1, fun tokens => by simp [shortBodyCut, hdepth]⟩
  | lower =>
    by_cases hdepth : depth = 0
    · exact .inl fun tokens => by simp [shortBodyCut, hdepth]
    · exact .inr ⟨depth, fun tokens => by simp [shortBodyCut, hdepth]⟩
  | _ => exact .inr ⟨depth, fun _ => rfl⟩

/-- A short body is cut off the same way whatever follows it. -/
theorem shortBodyCut_append {depth : Int} {tokens body rest : List Token}
    (h : shortBodyCut depth tokens = some (body, rest)) :
    tokens = body ++ rest ∧ ∀ more, shortBodyCut depth (body ++ more) = some (body, more) := by
  induction tokens generalizing depth body with
  | nil => simp [shortBodyCut] at h
  | cons token tokens ih =>
    rcases shortBodyCut_cons depth token with hend | ⟨behind, hstep⟩
    · rw [hend] at h
      cases h
      exact ⟨rfl, hend⟩
    · rw [hstep] at h
      obtain ⟨⟨body', _⟩, hcut, hcons⟩ := Option.map_eq_some_iff.1 h
      cases hcons
      obtain ⟨rfl, hmore⟩ := ih hcut
      refine ⟨rfl, fun more => ?_⟩
      rw [List.cons_append, hstep, hmore]
      rfl

/-- The tokens that a short body may lead in with: binders, hats and base types, and dots.
    They neither end the body nor change the depth. -/
def LeadsIn (token : Token) : Prop :=
  token.kind ∈ [.lambda, .hat, .upper, .dot]

namespace LeadsIn

variable {lead : List Token}

theorem balanced (h : ∀ token ∈ lead, LeadsIn token) : Balanced lead := by
  induction lead with
  | nil => exact .nil
  | cons token lead ih =>
    have hkinds : ∀ kind ∈ [Kind.lambda, .hat, .upper, .dot], kind.isPlain = true := by decide
    have htoken := hkinds token.kind (h token (.head _))
    exact .cons htoken (ih fun token hmem => h token (.tail _ hmem))

theorem shortBodyCut_append_iff (h : ∀ token ∈ lead, LeadsIn token) {depth : Int}
    {tokens body rest : List Token} :
    shortBodyCut depth (lead ++ tokens) = some (lead ++ body, rest) ↔
      shortBodyCut depth tokens = some (body, rest) := by
  induction lead with
  | nil => simp
  | cons token lead ih =>
    have hstep : shortBodyCut depth (token :: lead ++ tokens) =
        (shortBodyCut depth (lead ++ tokens)).map (consFirst token) := by
      have htoken := h token (.head _)
      obtain ⟨kind, text⟩ := token
      cases kind <;> first | rfl | simp [LeadsIn] at htoken
    rw [hstep, ← ih fun token hmem => h token (.tail _ hmem)]
    cases shortBodyCut depth (lead ++ tokens) <;> simp [consFirst, Prod.ext_iff]

end LeadsIn

end Redex.Token
