import Redex.Proofs.Ty.Grammar
import Redex.Term.Parser

/-! # The grammar of expressions

    An expression is a non-empty sequence of items, applied from left to right.  A dot, or an
    abstraction with a dot, is the last item and takes all that follows.  The body of a
    short abstraction is a variable, a group, or another abstraction with such a body.

    The parser does not follow these rules: it looks for the end of a phrase with the cuts of
    `Token` and reads what lies in between.  Still it reads exactly the expressions of the
    grammar, as the grammar builds them (`ofTokens_eq_ok_iff_derives`). -/

namespace Redex.Term

open Token

/-! ### The grammar -/

/-- The tokens between a binder and its body: in the typed mode a hat and a base type or a type
    in parentheses, in any other mode none. -/
inductive Annotation (mode : Mode) : List Token → Ty → Prop where
  | absent (h : mode.isTyped = false) : Annotation mode [] .missing
  | hat {tokens : List Token} {ty : Ty} (h : mode.isTyped = true) (text : String) :
      Ty.Operand tokens ty → Annotation mode (⟨.hat, text⟩ :: tokens) ty

/-- The same inside a short body, where a type in parentheses has no place. -/
inductive ShortAnnotation (mode : Mode) : List Token → Ty → Prop where
  | absent (h : mode.isTyped = false) : ShortAnnotation mode [] .missing
  | hat (h : mode.isTyped = true) (text name : String) :
      ShortAnnotation mode [⟨.hat, text⟩, ⟨.upper, name⟩] (.base name)

mutual

/-- The tokens spell the expression. -/
inductive Derives (mode : Mode) : List Token → Term → Prop where
  | apply {tokens : List Token} {first : Term} {others : List Term} :
      Items mode tokens (first :: others) → Derives mode tokens (others.foldl .app first)

/-- The tokens spell the sequence of items. -/
inductive Items (mode : Mode) : List Token → List Term → Prop where
  | nil : Items mode [] []
  | var {rest : List Token} {items : List Term} (name : String) :
      Items mode rest items → Items mode (⟨.lower, name⟩ :: rest) (.var name :: items)
  | group {inside rest : List Token} {t : Term} {items : List Term} (text text' : String) :
      Derives mode inside t → Items mode rest items →
      Items mode (⟨.lparen, text⟩ :: (inside ++ ⟨.rparen, text'⟩ :: rest)) (t :: items)
  | dot {rest : List Token} {t : Term} (text : String) :
      Derives mode rest t → Items mode (⟨.dot, text⟩ :: rest) [t]
  | abs {hat body : List Token} {ty : Ty} {t : Term} (binder text : String) :
      Annotation mode hat ty → Derives mode body t →
      Items mode (⟨.lambda, binder⟩ :: (hat ++ ⟨.dot, text⟩ :: body)) [.abs binder ty t]
  | shortAbs {hat body rest : List Token} {ty : Ty} {t : Term} {items : List Term}
      (binder : String) :
      Annotation mode hat ty → Short mode body t → Items mode rest items →
      Items mode (⟨.lambda, binder⟩ :: (hat ++ (body ++ rest))) (.abs binder ty t :: items)

/-- The tokens spell the expression as a body without a dot. -/
inductive Short (mode : Mode) : List Token → Term → Prop where
  | var (name : String) : Short mode [⟨.lower, name⟩] (.var name)
  | group {inside : List Token} {t : Term} (text text' : String) :
      Derives mode inside t → Short mode (⟨.lparen, text⟩ :: (inside ++ [⟨.rparen, text'⟩])) t
  | abs {hat dots body : List Token} {ty : Ty} {t : Term} (binder : String) :
      ShortAnnotation mode hat ty → (∀ dot ∈ dots, dot.kind = .dot) → Short mode body t →
      Short mode (⟨.lambda, binder⟩ :: (hat ++ (dots ++ body))) (.abs binder ty t)

end

/-! ### Balance -/

theorem Annotation.balanced {mode : Mode} {hat : List Token} {ty : Ty}
    (h : Annotation mode hat ty) : Balanced hat := by
  cases h with
  | absent h => exact .nil
  | hat h text hty => exact .cons rfl hty.balanced

theorem ShortAnnotation.annotation {mode : Mode} {hat : List Token} {ty : Ty}
    (h : ShortAnnotation mode hat ty) : Annotation mode hat ty := by
  cases h with
  | absent h => exact .absent h
  | hat h text name => exact .hat h text (.base name)

/-- A binder, its annotation and dots may lead in a short body. -/
theorem ShortAnnotation.leadsIn {mode : Mode} {hat : List Token} {ty : Ty}
    (h : ShortAnnotation mode hat ty) (binder : String) {dots : List Token}
    (hdots : ∀ dot ∈ dots, dot.kind = .dot) :
    ∀ token ∈ ⟨.lambda, binder⟩ :: (hat ++ dots), LeadsIn token := by
  cases h <;> grind [LeadsIn]

mutual

theorem Derives.balanced {mode : Mode} {tokens : List Token} {t : Term} :
    Derives mode tokens t → Balanced tokens
  | .apply hitems => hitems.balanced

theorem Items.balanced {mode : Mode} {tokens : List Token} {items : List Term} :
    Items mode tokens items → Balanced tokens
  | .nil => .nil
  | .var _ hrest => .cons rfl hrest.balanced
  | .group text text' hinside hrest => by
    simpa using (hinside.balanced.group text text').append hrest.balanced
  | .dot _ hrest => .cons rfl hrest.balanced
  | .abs _ _ hhat hbody => .cons rfl (hhat.balanced.append (.cons rfl hbody.balanced))
  | .shortAbs _ hhat hbody hrest =>
    .cons rfl (hhat.balanced.append (hbody.balanced.append hrest.balanced))

theorem Short.balanced {mode : Mode} {tokens : List Token} {t : Term} :
    Short mode tokens t → Balanced tokens
  | .var _ => .single rfl
  | .group text text' hinside => hinside.balanced.group text text'
  | .abs binder hhat hdots hbody => by
    simpa using (LeadsIn.balanced (hhat.leadsIn binder hdots)).append hbody.balanced

end

/-! ### What the parser reads

    One equivalence for each token that may start an item: the cuts that are made, and the
    parts that are read. -/

section Parser

variable {mode : Mode} {rest : List Token} {items : List Term} {t : Term}

theorem itemsOfTokens_nil : itemsOfTokens mode [] = .ok [] := by
  rw [itemsOfTokens]

theorem itemsOfTokens_lower_eq_ok_iff {name : String} :
    itemsOfTokens mode (⟨.lower, name⟩ :: rest) = .ok items ↔
      ∃ others, itemsOfTokens mode rest = .ok others ∧ items = .var name :: others := by
  rw [itemsOfTokens]
  cases itemsOfTokens mode rest <;> grind [Except.map]

theorem itemsOfTokens_lparen_eq_ok_iff {text : String} :
    itemsOfTokens mode (⟨.lparen, text⟩ :: rest) = .ok items ↔
      ∃ inside behind t others, groupCut 0 rest = some (inside, behind) ∧
        ofTokens mode inside = .ok t ∧ itemsOfTokens mode behind = .ok others ∧
        items = t :: others := by
  rw [itemsOfTokens]
  simp only [ofTokens]
  split
  · rename_i hcut
    simp [hcut]
  · rename_i inside behind hcut
    cases hinside : (itemsOfTokens mode inside).bind applyAll <;>
      cases hbehind : itemsOfTokens mode behind <;> grind [Except.map]

theorem itemsOfTokens_dot_eq_ok_iff {text : String} :
    itemsOfTokens mode (⟨.dot, text⟩ :: rest) = .ok items ↔
      ∃ t, ofTokens mode rest = .ok t ∧ items = [t] := by
  rw [itemsOfTokens]
  simp only [ofTokens]
  cases (itemsOfTokens mode rest).bind applyAll <;> grind [Except.map]

theorem itemsOfTokens_lambda_eq_ok_iff {binder : String} :
    itemsOfTokens mode (⟨.lambda, binder⟩ :: rest) = .ok items ↔
      ∃ ty body inside behind t others, annotationOf mode rest = .ok (ty, body) ∧
        bodyCut body = some (inside, behind) ∧ ofTokens mode inside = .ok t ∧
        itemsOfTokens mode behind = .ok others ∧ items = .abs binder ty t :: others := by
  rw [itemsOfTokens]
  simp only [ofTokens]
  split
  · rename_i hhat
    simp [hhat]
  · rename_i ty body hhat
    split
    · rename_i hcut
      grind
    · rename_i inside behind hcut
      cases hinside : (itemsOfTokens mode inside).bind applyAll <;>
        cases hbehind : itemsOfTokens mode behind <;> grind [Except.map]

/-- No other token starts an item. -/
theorem kind_of_itemsOfTokens {token : Token}
    (h : itemsOfTokens mode (token :: rest) = .ok items) :
    token.kind = .lambda ∨ token.kind = .lower ∨ token.kind = .lparen ∨ token.kind = .dot := by
  obtain ⟨kind, text⟩ := token
  cases kind <;> simp_all [itemsOfTokens]

theorem ofTokens_eq_ok_iff {tokens : List Token} :
    ofTokens mode tokens = .ok t ↔
      ∃ first others, itemsOfTokens mode tokens = .ok (first :: others) ∧
        t = others.foldl .app first := by
  unfold ofTokens
  cases itemsOfTokens mode tokens with
  | error e => simp [Except.bind]
  | ok items => cases items <;> grind [Except.bind, applyAll]

end Parser

/-! ### Annotations -/

theorem annotation_of_annotationOf {mode : Mode} {tokens rest : List Token} {ty : Ty}
    (h : annotationOf mode tokens = .ok (ty, rest)) :
    ∃ hat, tokens = hat ++ rest ∧ Annotation mode hat ty := by
  cases tokens with
  | nil => simp [annotationOf] at h
  | cons token tokens =>
    obtain ⟨kind, text⟩ := token
    cases hmode : mode.isTyped with
    | false =>
      simp only [annotationOf, hmode] at h
      cases h
      exact ⟨[], rfl, .absent hmode⟩
    | true =>
      simp only [annotationOf, hmode, if_true] at h
      split at h
      · rename_i hkind
        cases hkind
        split at h
        · simp at h
        · split at h
          · simp at h
          · rename_i inside behind hcut
            obtain ⟨_, hty, hpair⟩ := exists_of_map_eq_ok h
            cases hpair
            obtain ⟨rfl, hoperand⟩ := Ty.operand_of_annotationCut hcut hty
            exact ⟨⟨.hat, text⟩ :: inside, rfl, .hat hmode text hoperand⟩
      · simp at h

theorem Annotation.annotationOf_append {mode : Mode} {hat rest : List Token} {ty : Ty}
    (h : Annotation mode hat ty) (hrest : rest ≠ []) :
    annotationOf mode (hat ++ rest) = .ok (ty, rest) := by
  cases h with
  | absent hmode =>
    cases rest with
    | nil => exact absurd rfl hrest
    | cons token rest => simp [annotationOf, hmode]
  | @hat tokens _ hmode text hoperand =>
    have hread : Ty.ofTokens tokens = .ok ty := Ty.ofTokens_eq_ok_iff.2 (.operand hoperand)
    simp [annotationOf, hmode, hrest, hoperand.annotationCut_append, hread, Except.map]

/-! ### Short bodies and their cut -/

/-- A short body is cut off as a whole. -/
theorem Short.shortBodyCut_append {mode : Mode} {body : List Token} {t : Term}
    (more : List Token) :
    Short mode body t → shortBodyCut 0 (body ++ more) = some (body, more)
  | .var name => rfl
  | .group text text' hinside => by
    simpa using hinside.balanced.shortBodyCut_group text text' more
  | .abs binder hhat hdots hbody => by
    have hcut := hbody.shortBodyCut_append more
    simpa using (LeadsIn.shortBodyCut_append_iff (hhat.leadsIn binder hdots)).2 hcut

/-- The cut of a short body ends with an annotation in parentheses, so such an annotation is
    never followed by the rest of the body. -/
theorem Annotation.shortAnnotation {mode : Mode} {hat rest : List Token} {ty : Ty}
    {binder : String} (h : Annotation mode hat ty) (hrest : rest ≠ [])
    (hcut : shortBodyCut 0 (⟨.lambda, binder⟩ :: (hat ++ rest)) =
      some (⟨.lambda, binder⟩ :: (hat ++ rest), [])) :
    ShortAnnotation mode hat ty := by
  cases h with
  | absent hmode => exact .absent hmode
  | hat hmode text hoperand =>
    cases hoperand with
    | base name => exact .hat hmode text name
    | group text' text'' hinside =>
      simp [shortBodyCut, (hinside.balanced.cuts_rparen text'' rest).2, consFirst, hrest] at hcut

theorem Short.ne_nil {mode : Mode} {body : List Token} {t : Term} (h : Short mode body t) :
    body ≠ [] := by
  cases h <;> simp

theorem Items.eq_nil {mode : Mode} {items : List Term} (h : Items mode [] items) :
    items = [] := by
  cases h
  rfl

mutual

/-- An expression that is its own short body is one, behind dots. -/
theorem Derives.short_of_shortBodyCut {mode : Mode} {body : List Token} {t : Term}
    (hcut : shortBodyCut 0 body = some (body, [])) :
    Derives mode body t →
      ∃ dots short, body = dots ++ short ∧ (∀ dot ∈ dots, dot.kind = .dot) ∧ Short mode short t
  | .apply hitems => by
    obtain ⟨t, hsingle, hshort⟩ := hitems.short_of_shortBodyCut hcut
    cases hsingle
    exact hshort

theorem Items.short_of_shortBodyCut {mode : Mode} {body : List Token} {items : List Term}
    (hcut : shortBodyCut 0 body = some (body, [])) :
    Items mode body items →
      ∃ t, items = [t] ∧ ∃ dots short, body = dots ++ short ∧
        (∀ dot ∈ dots, dot.kind = .dot) ∧ Short mode short t
  | .nil => by simp [shortBodyCut] at hcut
  | .var name hrest => by
    obtain rfl := (Prod.mk.inj (Option.some.inj hcut)).2
    rw [hrest.eq_nil]
    exact ⟨_, rfl, [], _, rfl, by simp, .var name⟩
  | .group text text' hinside hrest => by
    rw [hinside.balanced.shortBodyCut_group] at hcut
    obtain rfl := (Prod.mk.inj (Option.some.inj hcut)).2
    rw [hrest.eq_nil]
    exact ⟨_, rfl, [], _, rfl, by simp, .group text text' hinside⟩
  | .dot text hrest => by
    have hlead : ∀ token ∈ [(⟨.dot, text⟩ : Token)], LeadsIn token := by simp [LeadsIn]
    have hcut := (LeadsIn.shortBodyCut_append_iff hlead).1 hcut
    obtain ⟨dots, short, rfl, hdots, hshort⟩ := hrest.short_of_shortBodyCut hcut
    refine ⟨_, rfl, ⟨.dot, text⟩ :: dots, short, rfl, ?_, hshort⟩
    simpa using hdots
  | .abs binder text hhat hbody => by
    have hshortHat := hhat.shortAnnotation (by simp) hcut
    have hdot : ∀ dot ∈ [(⟨.dot, text⟩ : Token)], dot.kind = .dot := by simp
    have hcut := (LeadsIn.shortBodyCut_append_iff (hshortHat.leadsIn binder hdot)).1
      (by simpa using hcut)
    obtain ⟨dots, short, rfl, hdots, hshort⟩ := hbody.short_of_shortBodyCut hcut
    have hdots : ∀ dot ∈ ⟨.dot, text⟩ :: dots, dot.kind = .dot := by simpa using hdots
    exact ⟨_, rfl, [], _, rfl, by simp, .abs binder hshortHat hdots hshort⟩
  | .shortAbs binder hhat hbody hrest => by
    have hshortHat := hhat.shortAnnotation (by simp [hbody.ne_nil]) hcut
    have hdot : ∀ dot ∈ ([] : List Token), dot.kind = .dot := by simp
    have hcut := (LeadsIn.shortBodyCut_append_iff (hshortHat.leadsIn binder hdot)).1
      (by simpa using hcut)
    rw [hbody.shortBodyCut_append] at hcut
    obtain rfl := (Prod.mk.inj (Option.some.inj hcut)).2
    rw [hrest.eq_nil]
    refine ⟨_, rfl, [], _, rfl, by simp, ?_⟩
    simpa using Short.abs binder hshortHat hdot hbody

end

/-! ### The parser and the grammar -/

theorem Derives.of_dot {mode : Mode} {text : String} {rest : List Token} {t : Term}
    (h : Derives mode (⟨.dot, text⟩ :: rest) t) : Derives mode rest t := by
  cases h with
  | apply hitems =>
    cases hitems with
    | dot _ hrest => exact hrest

mutual

/-- What the parser reads is spelled in the grammar. -/
theorem derives_of_ofTokens {mode : Mode} {tokens : List Token} {t : Term}
    (h : ofTokens mode tokens = .ok t) : Derives mode tokens t := by
  obtain ⟨first, others, hitems, rfl⟩ := ofTokens_eq_ok_iff.1 h
  exact .apply (items_of_itemsOfTokens tokens hitems)
termination_by (tokens.length, 1)

theorem items_of_itemsOfTokens {mode : Mode} {items : List Term} (tokens : List Token)
    (h : itemsOfTokens mode tokens = .ok items) : Items mode tokens items :=
  match tokens with
  | [] => by
    rw [itemsOfTokens_nil] at h
    cases h
    exact .nil
  | ⟨kind, text⟩ :: rest => by
    rcases kind_of_itemsOfTokens h with rfl | rfl | rfl | rfl
    · obtain ⟨ty, body, inside, behind, t, others, hhat, hcut, hinside, hbehind, rfl⟩ :=
        itemsOfTokens_lambda_eq_ok_iff.1 h
      have hlength := annotationOf_length hhat
      have hlength' := bodyCut_length hcut
      have hbody := derives_of_ofTokens hinside
      have hrest := items_of_itemsOfTokens behind hbehind
      obtain ⟨hat, rfl, hannotation⟩ := annotation_of_annotationOf hhat
      unfold bodyCut at hcut
      split at hcut
      · -- the dot takes all tokens
        cases hcut
        rw [hrest.eq_nil]
        exact .abs text _ hannotation hbody.of_dot
      · -- the body is short: what it leads in with is no dot
        rename_i hdot
        obtain ⟨rfl, hsame⟩ := shortBodyCut_append hcut
        obtain ⟨dots, short, rfl, hdots, hshort⟩ :=
          hbody.short_of_shortBodyCut (by simpa using hsame [])
        cases dots with
        | nil => exact .shortAbs text hannotation hshort hrest
        | cons dot dots =>
          obtain ⟨_, _⟩ := dot
          cases hdots _ (.head _)
          exact absurd rfl (hdot _ _)
    · obtain ⟨others, hrest, rfl⟩ := itemsOfTokens_lower_eq_ok_iff.1 h
      exact .var text (items_of_itemsOfTokens rest hrest)
    · obtain ⟨inside, behind, t, others, hcut, hinside, hbehind, rfl⟩ :=
        itemsOfTokens_lparen_eq_ok_iff.1 h
      have hlength := groupCut_length hcut
      obtain ⟨text', rfl⟩ := exists_of_groupCut hcut
      exact .group text text' (derives_of_ofTokens hinside)
        (items_of_itemsOfTokens behind hbehind)
    · obtain ⟨t, hrest, rfl⟩ := itemsOfTokens_dot_eq_ok_iff.1 h
      exact .dot text (derives_of_ofTokens hrest)
termination_by (tokens.length, 0)

end

/-- A dot in front of an expression makes no difference. -/
theorem ofTokens_dots {mode : Mode} {dots : List Token} (h : ∀ dot ∈ dots, dot.kind = .dot)
    {tokens : List Token} {t : Term} (ht : ofTokens mode tokens = .ok t) :
    ofTokens mode (dots ++ tokens) = .ok t := by
  induction dots with
  | nil => exact ht
  | cons dot dots ih =>
    obtain ⟨kind, text⟩ := dot
    cases h _ (.head _)
    have hrest := ih fun dot hdot => h dot (.tail _ hdot)
    exact ofTokens_eq_ok_iff.2 ⟨t, [], itemsOfTokens_dot_eq_ok_iff.2 ⟨t, hrest, rfl⟩, rfl⟩

theorem Short.bodyCut_append {mode : Mode} {body : List Token} {t : Term}
    (h : Short mode body t) (more : List Token) : bodyCut (body ++ more) = some (body, more) := by
  have hcut := h.shortBodyCut_append more
  cases h <;> exact hcut

/-- A short body is all of the body also behind dots. -/
theorem Short.bodyCut_dots {mode : Mode} {dots body : List Token} {t : Term}
    (h : Short mode body t) (hdots : ∀ dot ∈ dots, dot.kind = .dot) :
    bodyCut (dots ++ body) = some (dots ++ body, []) := by
  cases dots with
  | nil => simpa using h.bodyCut_append []
  | cons dot dots =>
    obtain ⟨kind, text⟩ := dot
    cases hdots _ (.head _)
    rfl

mutual

/-- What is spelled in the grammar is read by the parser. -/
theorem Derives.ofTokens_eq {mode : Mode} {tokens : List Token} {t : Term} :
    Derives mode tokens t → ofTokens mode tokens = .ok t
  | .apply hitems => ofTokens_eq_ok_iff.2 ⟨_, _, hitems.itemsOfTokens_eq, rfl⟩

theorem Items.itemsOfTokens_eq {mode : Mode} {tokens : List Token} {items : List Term} :
    Items mode tokens items → itemsOfTokens mode tokens = .ok items
  | .nil => itemsOfTokens_nil
  | .var name hrest => itemsOfTokens_lower_eq_ok_iff.2 ⟨_, hrest.itemsOfTokens_eq, rfl⟩
  | .group text text' hinside hrest =>
    itemsOfTokens_lparen_eq_ok_iff.2 ⟨_, _, _, _, hinside.balanced.groupCut_rparen text' _,
      hinside.ofTokens_eq, hrest.itemsOfTokens_eq, rfl⟩
  | .dot text hrest => itemsOfTokens_dot_eq_ok_iff.2 ⟨_, hrest.ofTokens_eq, rfl⟩
  | .abs binder text hhat hbody => by
    have hdot : ∀ dot ∈ [(⟨.dot, text⟩ : Token)], dot.kind = .dot := by simp
    have hread := ofTokens_dots hdot hbody.ofTokens_eq
    exact itemsOfTokens_lambda_eq_ok_iff.2 ⟨_, _, _, _, _, _,
      hhat.annotationOf_append (by simp), rfl, hread, itemsOfTokens_nil, rfl⟩
  | .shortAbs binder hhat hbody hrest => by
    have hread : ofTokens mode _ = .ok _ :=
      ofTokens_eq_ok_iff.2 ⟨_, [], hbody.itemsOfTokens_eq, rfl⟩
    exact itemsOfTokens_lambda_eq_ok_iff.2 ⟨_, _, _, _, _, _,
      hhat.annotationOf_append (by simp [hbody.ne_nil]), hbody.bodyCut_append _, hread,
      hrest.itemsOfTokens_eq, rfl⟩

theorem Short.itemsOfTokens_eq {mode : Mode} {body : List Token} {t : Term} :
    Short mode body t → itemsOfTokens mode body = .ok [t]
  | .var name => itemsOfTokens_lower_eq_ok_iff.2 ⟨[], itemsOfTokens_nil, rfl⟩
  | .group text text' hinside =>
    itemsOfTokens_lparen_eq_ok_iff.2 ⟨_, [], _, _, hinside.balanced.groupCut_rparen text' [],
      hinside.ofTokens_eq, itemsOfTokens_nil, rfl⟩
  | .abs binder hhat hdots hbody => by
    have hread : ofTokens mode _ = .ok _ :=
      ofTokens_eq_ok_iff.2 ⟨_, [], hbody.itemsOfTokens_eq, rfl⟩
    exact itemsOfTokens_lambda_eq_ok_iff.2 ⟨_, _, _, _, _, _,
      hhat.annotation.annotationOf_append (by simp [hbody.ne_nil]), hbody.bodyCut_dots hdots,
      ofTokens_dots hdots hread, itemsOfTokens_nil, rfl⟩

end

theorem derives_iff {mode : Mode} {tokens : List Token} {t : Term} :
    Derives mode tokens t ↔ ofTokens mode tokens = .ok t :=
  ⟨Derives.ofTokens_eq, derives_of_ofTokens⟩

theorem ne_nil_of_ofTokens {mode : Mode} {tokens : List Token} {t : Term}
    (h : ofTokens mode tokens = .ok t) : tokens ≠ [] := by
  rintro rfl
  rw [ofTokens, itemsOfTokens_nil] at h
  cases h

theorem kind_ne_colon_of_ofTokens {mode : Mode} {tokens : List Token} {t : Term}
    (h : ofTokens mode tokens = .ok t) : ∀ token ∈ tokens, token.kind ≠ .colon :=
  (derives_of_ofTokens h).balanced.kind_ne_colon

/-- The parser accepts exactly the token lists that spell an expression, and returns the
    expression they spell; so no list spells two. -/
theorem ofTokens_eq_ok_iff_derives (mode : Mode) (tokens : List Token) :
    (∀ t, ofTokens mode tokens = .ok t ↔ Derives mode tokens t) ∧
      ∀ t u, Derives mode tokens t → Derives mode tokens u → t = u := by
  refine ⟨fun t => derives_iff.symm, fun t u ht hu => ?_⟩
  rw [derives_iff] at ht hu
  exact Except.ok.inj (ht.symm.trans hu)

/-- In `λx^(A -> A) λy^A . z w` the body of `x` is short: it ends with `z`, although the dot
    behind `y` would take all that follows. -/
theorem ofTokens_eq_ok_iff_derives_short :
    ofTokens .typed
        [⟨.lambda, "x"⟩, ⟨.hat, ""⟩, ⟨.lparen, ""⟩, ⟨.upper, "A"⟩, ⟨.arrow, ""⟩, ⟨.upper, "A"⟩,
          ⟨.rparen, ""⟩, ⟨.lambda, "y"⟩, ⟨.hat, ""⟩, ⟨.upper, "A"⟩, ⟨.dot, ""⟩, ⟨.lower, "z"⟩,
          ⟨.lower, "w"⟩] =
        .ok (.app (.abs "x" (.arrow (.base "A") (.base "A")) (.abs "y" (.base "A") (.var "z")))
          (.var "w")) ∧
      ¬ Derives .typed
        [⟨.lambda, "x"⟩, ⟨.hat, ""⟩, ⟨.lparen, ""⟩, ⟨.upper, "A"⟩, ⟨.arrow, ""⟩, ⟨.upper, "A"⟩,
          ⟨.rparen, ""⟩, ⟨.lambda, "y"⟩, ⟨.hat, ""⟩, ⟨.upper, "A"⟩, ⟨.dot, ""⟩, ⟨.lower, "z"⟩,
          ⟨.lower, "w"⟩]
        (.abs "x" (.arrow (.base "A") (.base "A"))
          (.abs "y" (.base "A") (.app (.var "z") (.var "w")))) := by
  have hhat : Annotation .typed _ _ :=
    .hat rfl "" (.group "" "" (.arrow "" (.base "A") (.operand (.base "A"))))
  have hdot : ∀ dot ∈ [(⟨.dot, ""⟩ : Token)], dot.kind = .dot := by simp
  have hbody : Short .typed _ _ := .abs "y" (.hat rfl "" "A") hdot (.var "z")
  have hderives : Derives .typed _ _ := .apply (.shortAbs "x" hhat hbody (.var "w" .nil))
  exact ⟨((ofTokens_eq_ok_iff_derives _ _).1 _).2 hderives, fun h =>
    absurd ((ofTokens_eq_ok_iff_derives _ _).2 _ _ hderives h) (by decide)⟩

end Redex.Term
