import Redex.Proofs.Judgement.Grammar
import Redex.Proofs.Token.Positions

/-! # Parsing by positions

    The parsers of phrases once more, as loops over the indices of a list of tokens.  Every
    element and every part of a list is taken with a check that it lies in range, every call
    on a part with a check that the part is shorter, and every loop with a check that its index
    goes forward.

    They read what the parsers of `Term`, `Ty` and `Judgement` read and refuse what these
    refuse, in every mode and for any tokens.  So no check ever fails (`parse_in_range`). -/

namespace Redex.Indexed

open Token

/-! ### The parsers -/

/-- A phrase in parentheses, and the position of the right one. -/
def group {α : Type} (tokens : List Token) (parse : PartParser tokens α) (i : Int) :
    Except Stop (α × Int) := do
  let last ← groupEnd tokens i
  let inside ← slice tokens (i + 1) last
  let phrase ← shorter tokens parse inside
  return (phrase, last)

/-- One step in a type: from the operands read so far, and whether one is due, to those behind
    the step. -/
def typeStep (tokens : List Token) (parse : PartParser tokens Ty) (i : Int)
    (state : List Ty × Bool) : Except Stop ((List Ty × Bool) × Int) := do
  let (operands, due) := state
  let token ← element tokens i
  match token.kind with
  | .upper =>
    if due then return ((operands ++ [.base token.text], false), i) else refuse .invalidType
  | .lparen =>
    if due then
      let (inner, last) ← group tokens parse i
      return ((operands ++ [inner], false), last)
    else refuse .invalidType
  | .arrow =>
    if operands.isEmpty then refuse .arrowBeforeType
    else if due then refuse .invalidType
    else return ((operands, true), i)
  | .rparen => refuse .unexpectedRParen
  | .lambda | .lower | .hat | .colon | .dot | .other => refuse .expressionOutsideExpression

/-- The type of all operands.  Arrows associate to the right. -/
def joinOperands (state : List Ty × Bool) : Except Stop Ty := do
  let (operands, due) := state
  if operands.isEmpty then refuse .noType
  else if due then refuse .invalidType
  else
    let last : Int := operands.length - 1
    let sources ← slice operands 0 last
    let target ← element operands last
    return sources.foldr .arrow target

/-- The type that a list of tokens spells. -/
def parseType (tokens : List Token) : Except Stop Ty :=
  loop tokens (typeStep tokens fun part _ => parseType part) joinOperands 0 ([], true)
termination_by tokens.length

/-- The type that starts at `start`, behind a hat, and the position where the body starts. -/
def hatType (tokens : List Token) (start : Int) : Except Stop (Ty × Int) := do
  let last ← annotationEnd tokens start
  let part ← slice tokens start (last + 1)
  let ty ← shorter tokens (fun part _ => parseType part) part
  if tokens.length ≤ last + 1 then refuse .noAbstractionBody else return (ty, last + 1)

/-- The type of a binder, and the position where the body starts. -/
def binderType (mode : Mode) (tokens : List Token) (next : Int) : Except Stop (Ty × Int) := do
  if mode.isTyped then
    let hat ← element tokens next
    if hat.kind = .hat then hatType tokens (next + 1) else refuse .noTypeHat
  else return (.missing, next)

/-- The body that starts at `next`, and the position of its last token. -/
def body (tokens : List Token) (parse : PartParser tokens Term) (next : Int) :
    Except Stop (Term × Int) := do
  let last ← bodyEnd tokens next
  if tokens.length ≤ last then refuse .noAbstractionBody
  else
    let part ← slice tokens next (last + 1)
    let inner ← shorter tokens parse part
    return (inner, last)

/-- The abstraction whose binder is at `start`, and the position of its last token. -/
def abstraction (mode : Mode) (tokens : List Token) (parse : PartParser tokens Term)
    (start : Int) : Except Stop (Term × Int) := do
  let binder ← element tokens start
  if tokens.length ≤ start + 1 then refuse .noAbstractionBody
  else
    let (ty, next) ← binderType mode tokens (start + 1)
    let (inner, last) ← body tokens parse next
    return (.abs binder.text ty inner, last)

/-- One step in an expression: from the items read so far to those behind the step.  A dot takes
    all tokens, and leaves the index behind the last one. -/
def itemStep (mode : Mode) (tokens : List Token) (parse : PartParser tokens Term) (i : Int)
    (items : List Term) : Except Stop (List Term × Int) := do
  let token ← element tokens i
  match token.kind with
  | .lambda =>
    let (abs, last) ← abstraction mode tokens parse i
    return (items ++ [abs], last)
  | .lower => return (items ++ [.var token.text], i)
  | .lparen =>
    let (inner, last) ← group tokens parse i
    return (items ++ [inner], last)
  | .rparen => refuse .unexpectedRParen
  | .dot =>
    let part ← slice tokens (i + 1) tokens.length
    let rest ← shorter tokens parse part
    return (items ++ [rest], tokens.length)
  | .upper | .arrow | .hat | .colon | .other => refuse .typeOutsideType

/-- The application of all items.  It associates to the left. -/
def joinItems (items : List Term) : Except Stop Term := do
  if items.isEmpty then refuse .emptyExpression
  else
    let others ← slice items 1 items.length
    let first ← element items 0
    return others.foldl .app first

/-- The expression that a list of tokens spells. -/
def parseTerm (mode : Mode) (tokens : List Token) : Except Stop Term :=
  loop tokens (itemStep mode tokens fun part _ => parseTerm mode part) joinItems 0 []
termination_by tokens.length

/-- The position of the first colon, or -1. -/
def colonAt (tokens : List Token) : Int :=
  (tokens.findIdx? (·.kind == .colon)).elim (-1) (fun i => i)

/-- The judgement that a list of tokens spells. -/
def parseJudgement (mode : Mode) (tokens : List Token) : Except Stop Judgement := do
  if tokens.isEmpty then refuse .emptyJudgement
  else if tokens.length < 3 then refuse .judgementTooShort
  else if tokens.countP (·.kind == .colon) = 0 then refuse .noType
  else if tokens.countP (·.kind == .colon) ≠ 1 then refuse .tooManyColons
  else
    let left ← slice tokens 0 (colonAt tokens)
    let right ← slice tokens (colonAt tokens + 1) tokens.length
    if left.isEmpty then refuse .emptyExpression
    else if right.isEmpty then refuse .noType
    else
      let term ← shorter tokens (fun part _ => parseTerm mode part) left
      let ty ← shorter tokens (fun part _ => parseType part) right
      return ⟨term, ty⟩

/-! ### Refusals -/

section Refusing

variable {α β : Type}

theorem ok_bind (a : α) (f : α → Except Stop β) : (Except.ok a >>= f) = f a := rfl

theorem refusing_ok (a : α) : refusing (.ok a) = .ok a := rfl

end Refusing

/-! ### Groups -/

variable {mode : Mode} {tokens rest : List Token} {token : Token}

theorem length_lt_of_suffix {inside : List Token} (h : token :: (inside ++ rest) <:+ tokens) :
    inside.length < tokens.length := by
  have hlen := h.length_le
  rw [List.length_cons, List.length_append] at hlen
  omega

/-- A group is read from the tokens that are cut off. -/
theorem group_place {α : Type} {text : String} {run : List Token → Except ParseError α}
    {parse : PartParser tokens α} (hparse : ∀ part h, parse part h = refusing (run part))
    (hrest : ⟨.lparen, text⟩ :: rest <:+ tokens) :
    group tokens parse (place tokens (⟨.lparen, text⟩ :: rest)) =
      (groupCut 0 rest).elim (refuse .unclosedLParen) fun cut =>
        refusing ((run cut.1).map fun phrase => (phrase, lastOf tokens cut)) := by
  rw [group, groupEnd_place hrest, place_cons]
  cases hcut : groupCut 0 rest with
  | none => rfl
  | some cut =>
    obtain ⟨inside, behind⟩ := cut
    obtain ⟨text', rfl⟩ := exists_of_groupCut hcut
    have hlast : lastOf tokens (inside, behind) = place tokens (⟨.rparen, text'⟩ :: behind) := by
      rw [lastOf, ← place_cons tokens behind ⟨.rparen, text'⟩, Int.add_sub_cancel]
    rw [Option.elim_some, Option.elim_some, ok_bind, hlast,
      slice_place ((List.suffix_cons _ _).trans hrest), ok_bind,
      shorter_eq (length_lt_of_suffix hrest), hparse]
    cases run inside <;> rfl

/-- Behind a group the loop goes on with the tokens behind the cut. -/
theorem behind_group {text : String} {inside behind : List Token}
    (hrest : ⟨.lparen, text⟩ :: rest <:+ tokens) (hcut : groupCut 0 rest = some (inside, behind)) :
    place tokens (⟨.lparen, text⟩ :: rest) ≤ lastOf tokens (inside, behind) ∧
      tokens.drop (lastOf tokens (inside, behind) + 1).toNat = behind := by
  obtain ⟨text', rfl⟩ := exists_of_groupCut hcut
  have hbehind : behind <:+ ⟨.lparen, text⟩ :: (inside ++ ⟨.rparen, text'⟩ :: behind) :=
    ⟨⟨.lparen, text⟩ :: (inside ++ [⟨.rparen, text'⟩]), by simp⟩
  have hlen : behind.length <
      (⟨.lparen, text⟩ :: (inside ++ ⟨.rparen, text'⟩ :: behind) : List Token).length := by
    simp only [List.length_cons, List.length_append]
    omega
  exact ⟨place_le_lastOf hlen, drop_lastOf (hbehind.trans hrest)⟩

/-! ### Types -/

theorem ofTokensFrom_lparen {first : Bool} {text : String} :
    Ty.ofTokensFrom first (⟨.lparen, text⟩ :: rest) =
      (groupCut 0 rest).elim (.error .unclosedLParen) fun cut =>
        (Ty.ofTokens cut.1).bind fun operand => Ty.ofOperand operand cut.2 := by
  rw [Ty.ofTokensFrom]
  simp only [Ty.ofTokens]
  split
  · rename_i hcut
    rw [hcut]
    rfl
  · rename_i inside behind hcut
    rw [hcut]
    cases hinside : Ty.ofTokensFrom true inside <;> simp [hinside, Except.bind]

/-- The states of the loop over a type: an operand is due, or one has been read last. -/
def TypeState (state : List Ty × Bool) : Prop :=
  state.2 = true ∨ ∃ operands operand, state = (operands ++ [operand], false)

/-- What the tokens that are left come to behind some operands. -/
def typeResult (rest : List Token) (state : List Ty × Bool) : Except Stop Ty :=
  refusing (if state.2 then (Ty.ofTokensFrom state.1.isEmpty rest).map (state.1.foldr .arrow ·)
    else (Ty.ofOperand (state.1.getLastD .missing) rest).map (state.1.dropLast.foldr .arrow ·))

theorem typeResult_due (rest : List Token) (operands : List Ty) :
    typeResult rest (operands, true) =
      refusing ((Ty.ofTokensFrom operands.isEmpty rest).map (operands.foldr .arrow ·)) := rfl

theorem typeResult_concat (rest : List Token) (operands : List Ty) (operand : Ty) :
    typeResult rest (operands ++ [operand], false) =
      refusing ((Ty.ofOperand operand rest).map (operands.foldr .arrow ·)) := by
  simp [typeResult]

theorem joinOperands_eq {state : List Ty × Bool} (h : TypeState state) :
    joinOperands state = typeResult [] state := by
  obtain ⟨operands, due⟩ := state
  rcases h with rfl | ⟨operands, operand, hstate⟩
  · rw [typeResult_due, Ty.ofTokensFrom]
    cases operands <;> rfl
  · cases hstate
    have hsuffix : [operand] <:+ operands ++ [operand] := List.suffix_append _ _
    have hlast : ((operands ++ [operand]).length : Int) - 1 =
        place (operands ++ [operand]) [operand] := rfl
    have hnonempty : (operands ++ [operand]).isEmpty = false := by simp
    rw [joinOperands, typeResult_concat, Ty.ofOperand]
    simp only [hnonempty, hlast, slice_start_place, element_place hsuffix, ok_bind]
    rfl

/-- One step in a type keeps what it comes to. -/
theorem typeStep_place {parse : PartParser tokens Ty}
    (hparse : ∀ part h, parse part h = refusing (Ty.ofTokens part))
    (hrest : token :: rest <:+ tokens) {state : List Ty × Bool} (hstate : TypeState state) :
    (∃ stop, typeStep tokens parse (place tokens (token :: rest)) state = .error stop ∧
      typeResult (token :: rest) state = .error stop) ∨
    ∃ next last, typeStep tokens parse (place tokens (token :: rest)) state = .ok (next, last) ∧
      place tokens (token :: rest) ≤ last ∧ TypeState next ∧
      typeResult (token :: rest) state = typeResult (tokens.drop (last + 1).toNat) next := by
  have hbehind : tokens.drop (place tokens (token :: rest) + 1).toNat = rest := by
    rw [place_cons, drop_place ((List.suffix_cons _ _).trans hrest)]
  obtain ⟨kind, text⟩ := token
  obtain ⟨operands, due⟩ := state
  rw [typeStep]
  simp only [element_place hrest, ok_bind]
  rcases hstate with rfl | ⟨operands, operand, hstate⟩
  · -- an operand is due
    rw [typeResult_due]
    cases kind with
    | upper =>
      refine .inr ⟨(operands ++ [.base text], false), _, rfl, Int.le_refl _, .inr ⟨_, _, rfl⟩, ?_⟩
      rw [hbehind, typeResult_concat, Ty.ofTokensFrom_upper]
    | lparen =>
      simp only [group_place hparse hrest, ofTokensFrom_lparen]
      cases hcut : groupCut 0 rest with
      | none => exact .inl ⟨_, rfl, rfl⟩
      | some cut =>
        obtain ⟨inside, behind⟩ := cut
        simp only [Option.elim_some]
        cases Ty.ofTokens inside with
        | error error => exact .inl ⟨_, rfl, rfl⟩
        | ok operand =>
          obtain ⟨hforward, hbehind⟩ := behind_group hrest hcut
          refine .inr ⟨(operands ++ [operand], false), _, rfl, hforward, .inr ⟨_, _, rfl⟩, ?_⟩
          rw [hbehind, typeResult_concat]
          rfl
    | arrow => cases operands <;> exact .inl ⟨_, rfl, by simp [Ty.ofTokensFrom]; rfl⟩
    | _ => exact .inl ⟨_, rfl, by simp [Ty.ofTokensFrom]; rfl⟩
  · -- an operand has been read last
    cases hstate
    rw [typeResult_concat]
    cases kind with
    | arrow =>
      have hnonempty : (operands ++ [operand]).isEmpty = false := by simp
      simp only [hnonempty]
      refine .inr ⟨(operands ++ [operand], true), _, rfl, Int.le_refl _, .inl rfl, ?_⟩
      rw [hbehind, typeResult_due, hnonempty, Ty.ofOperand]
      cases Ty.ofTokensFrom false rest with
      | error error => rfl
      | ok target => simp [Except.map]
    | _ => exact .inl ⟨_, rfl, by simp [Ty.ofOperand]; rfl⟩

/-- The parser of types by positions reads and refuses what the other does. -/
theorem parseType_eq (tokens : List Token) : parseType tokens = refusing (Ty.ofTokens tokens) := by
  fun_induction parseType tokens with
  | case1 tokens ih =>
    rw [loop_eq TypeState typeResult (fun _ => joinOperands_eq)
      (fun _ _ _ hrest hstate => typeStep_place ih hrest hstate) (Int.le_refl 0) (.inl rfl)]
    show refusing ((Ty.ofTokensFrom true tokens).map ([].foldr .arrow ·)) =
      refusing (Ty.ofTokensFrom true tokens)
    cases Ty.ofTokensFrom true tokens <;> rfl

/-! ### Annotations -/

theorem annotationCut_append {depth : Int} {rest ty behind : List Token}
    (h : annotationCut depth rest = .ok (ty, behind)) : rest = ty ++ behind := by
  induction rest generalizing depth ty with
  | nil => cases h
  | cons token rest ih =>
    unfold annotationCut at h
    split at h
    · cases h
    · split at h
      · cases h
        rfl
      · obtain ⟨cut, hcut, hcons⟩ := exists_of_map_eq_ok h
        cases hcons
        rw [ih hcut]
        rfl

/-- Where the body behind an annotation starts.  There has to be one. -/
def bodyPlace (tokens : List Token) (hat : Ty × List Token) : Except ParseError (Ty × Int) :=
  if hat.2.isEmpty then .error .noAbstractionBody else .ok (hat.1, place tokens hat.2)

/-- The type behind a hat is read from the tokens that are cut off. -/
theorem hatType_place {first : Token} (hrest : token :: first :: rest <:+ tokens) :
    hatType tokens (place tokens (first :: rest)) =
      refusing ((annotationCut 0 (first :: rest)).bind fun cut =>
        (Ty.ofTokens cut.1).bind fun ty => bodyPlace tokens (ty, cut.2)) := by
  have hsuffix := (List.suffix_cons _ _).trans hrest
  rw [hatType, annotationEnd_place hsuffix]
  cases hcut : annotationCut 0 (first :: rest) with
  | error error => rfl
  | ok cut =>
    obtain ⟨inside, behind⟩ := cut
    rw [annotationCut_append hcut] at hsuffix hrest ⊢
    show _ = refusing ((Ty.ofTokens inside).bind fun ty => bodyPlace tokens (ty, behind))
    simp only [Except.map, refusing_ok, ok_bind, lastOf_add_one, slice_place hsuffix,
      shorter_eq (length_lt_of_suffix hrest), parseType_eq]
    cases Ty.ofTokens inside with
    | error error => rfl
    | ok ty =>
      -- if nothing is left, the body would start at the end of the tokens
      cases behind with
      | nil =>
        rw [refusing_ok, ok_bind, place_nil, if_pos (Int.le_refl _)]
        rfl
      | cons next behind =>
        rw [refusing_ok, ok_bind, if_neg (Int.not_le.2 (place_cons_lt ..))]
        rfl

/-- The type of a binder is read from its annotation. -/
theorem binderType_place (hrest : token :: rest <:+ tokens) :
    binderType mode tokens (place tokens (token :: rest)) =
      refusing ((Term.annotationOf mode (token :: rest)).bind (bodyPlace tokens)) := by
  rw [binderType, Term.annotationOf]
  by_cases hmode : mode.isTyped
  · simp only [hmode, if_true, element_place hrest, ok_bind, place_cons]
    by_cases hkind : token.kind = .hat
    · simp only [hkind, if_true]
      cases rest with
      | nil =>
        -- the scan does not start behind the last token
        rw [hatType, annotationEnd, place_nil, if_pos (Int.le_refl _)]
        rfl
      | cons first rest =>
        rw [hatType_place hrest]
        cases annotationCut 0 (first :: rest) with
        | error error => rfl
        | ok cut =>
          obtain ⟨inside, behind⟩ := cut
          simp only [Except.bind, List.isEmpty_cons]
          cases Ty.ofTokens inside <;> rfl
    · simp only [hkind, if_false]
      rfl
  · simp only [hmode]
    rfl

/-! ### Abstractions -/

theorem bodyCut_append {body behind : List Token} (h : bodyCut rest = some (body, behind)) :
    rest = body ++ behind := by
  unfold bodyCut at h
  split at h
  · cases h
    rw [List.append_nil]
  · exact (shortBodyCut_append h).1

/-- A body is read from the tokens that are cut off. -/
theorem body_place {parse : PartParser tokens Term}
    (hparse : ∀ part h, parse part h = refusing (Term.ofTokens mode part))
    (hrest : token :: rest <:+ tokens) (hlength : (token :: rest).length < tokens.length) :
    body tokens parse (place tokens (token :: rest)) =
      refusing ((bodyCut (token :: rest)).elim (.error .noAbstractionBody) fun cut =>
        (Term.ofTokens mode cut.1).map fun inner => (inner, lastOf tokens cut)) := by
  rw [body, bodyEnd_place hrest]
  cases hcut : bodyCut (token :: rest) with
  | none =>
    -- the number of tokens is no position, and is told apart before it is used as one
    rw [Option.elim_none, ok_bind, if_pos (Int.le_refl _)]
    rfl
  | some cut =>
    obtain ⟨inside, behind⟩ := cut
    have happend := bodyCut_append hcut
    have hshort : inside.length < tokens.length := by
      rw [happend, List.length_append] at hlength
      omega
    rw [happend] at hrest ⊢
    rw [Option.elim_some, Option.elim_some, ok_bind, if_neg (Int.not_le.2 (lastOf_lt ..)),
      lastOf_add_one, slice_place hrest, ok_bind, shorter_eq hshort, hparse]
    cases Term.ofTokens mode inside <;> rfl

/-- An abstraction is read from its annotation and from its body. -/
theorem abstraction_place {binder : String} {parse : PartParser tokens Term}
    (hparse : ∀ part h, parse part h = refusing (Term.ofTokens mode part))
    (hrest : ⟨.lambda, binder⟩ :: rest <:+ tokens) :
    abstraction mode tokens parse (place tokens (⟨.lambda, binder⟩ :: rest)) =
      refusing ((Term.annotationOf mode rest).bind fun hat =>
        (bodyCut hat.2).elim (.error .noAbstractionBody) fun cut =>
          (Term.ofTokens mode cut.1).map fun inner =>
            (.abs binder hat.1 inner, lastOf tokens cut)) := by
  rw [abstraction, element_place hrest, ok_bind, place_cons]
  cases rest with
  | nil =>
    rw [place_nil, if_pos (Int.le_refl _)]
    rfl
  | cons first rest =>
    have hsuffix := (List.suffix_cons _ _).trans hrest
    rw [if_neg (Int.not_le.2 (place_cons_lt ..)), binderType_place hsuffix]
    cases hhat : Term.annotationOf mode (first :: rest) with
    | error error => rfl
    | ok hat =>
      obtain ⟨ty, behind⟩ := hat
      cases behind with
      | nil => rfl
      | cons next behind =>
        obtain ⟨hat, happend, -⟩ := Term.annotation_of_annotationOf hhat
        have hbody : next :: behind <:+ tokens := .trans ⟨hat, happend.symm⟩ hsuffix
        have hlength : (next :: behind).length < tokens.length := by
          have hbehind := Term.annotationOf_length hhat
          have htokens := hrest.length_le
          rw [List.length_cons] at htokens
          omega
        show (body tokens parse (place tokens (next :: behind)) >>= _) = _
        rw [body_place hparse hbody hlength]
        simp only [Except.bind]
        cases bodyCut (next :: behind) with
        | none => rfl
        | some cut =>
          simp only [Option.elim_some]
          cases Term.ofTokens mode cut.1 <;> rfl

/-- Behind an abstraction the loop goes on with the tokens behind the cut of its body. -/
theorem behind_abstraction {binder : String} {ty : Ty} {behind : List Token}
    {cut : List Token × List Token} (hrest : ⟨.lambda, binder⟩ :: rest <:+ tokens)
    (hhat : Term.annotationOf mode rest = .ok (ty, behind)) (hcut : bodyCut behind = some cut) :
    place tokens (⟨.lambda, binder⟩ :: rest) ≤ lastOf tokens cut ∧
      tokens.drop (lastOf tokens cut + 1).toNat = cut.2 := by
  have hbehind := Term.annotationOf_length hhat
  have hbody := bodyCut_length hcut
  obtain ⟨hat, happend, -⟩ := Term.annotation_of_annotationOf hhat
  have hsuffix : cut.2 <:+ rest :=
    .trans ⟨cut.1, (bodyCut_append hcut).symm⟩ ⟨hat, happend.symm⟩
  constructor
  · apply place_le_lastOf
    rw [List.length_cons]
    omega
  · exact drop_lastOf (hsuffix.trans ((List.suffix_cons _ _).trans hrest))

/-! ### Expressions -/

theorem itemsOfTokens_lparen {text : String} :
    Term.itemsOfTokens mode (⟨.lparen, text⟩ :: rest) =
      (groupCut 0 rest).elim (.error .unclosedLParen) fun cut =>
        (Term.ofTokens mode cut.1).bind fun inner =>
          (Term.itemsOfTokens mode cut.2).map (inner :: ·) := by
  rw [Term.itemsOfTokens]
  simp only [Term.ofTokens]
  split
  · rename_i hcut
    rw [hcut]
    rfl
  · rename_i inside behind hcut
    rw [hcut, Option.elim_some]
    cases (Term.itemsOfTokens mode inside).bind Term.applyAll <;> rfl

theorem itemsOfTokens_lambda {binder : String} :
    Term.itemsOfTokens mode (⟨.lambda, binder⟩ :: rest) =
      (Term.annotationOf mode rest).bind fun hat =>
        (bodyCut hat.2).elim (.error .noAbstractionBody) fun cut =>
          (Term.ofTokens mode cut.1).bind fun body =>
            (Term.itemsOfTokens mode cut.2).map (.abs binder hat.1 body :: ·) := by
  rw [Term.itemsOfTokens]
  simp only [Term.ofTokens]
  split
  · rename_i hhat
    rw [hhat]
    rfl
  · rename_i ty body hhat
    rw [hhat]
    show _ = (bodyCut body).elim _ _
    split
    · rename_i hcut
      rw [hcut]
      rfl
    · rename_i inside behind hcut
      rw [hcut, Option.elim_some]
      cases (Term.itemsOfTokens mode inside).bind Term.applyAll <;> rfl

theorem itemsOfTokens_dot {text : String} :
    Term.itemsOfTokens mode (⟨.dot, text⟩ :: rest) = (Term.ofTokens mode rest).map ([·]) := by
  rw [Term.itemsOfTokens, Term.ofTokens]

/-- What the tokens that are left come to behind some items. -/
def itemResult (mode : Mode) (rest : List Token) (items : List Term) : Except Stop Term :=
  refusing ((Term.itemsOfTokens mode rest).bind fun others => Term.applyAll (items ++ others))

theorem joinItems_eq (mode : Mode) (items : List Term) :
    joinItems items = itemResult mode [] items := by
  rw [itemResult, Term.itemsOfTokens_nil]
  show _ = refusing (Term.applyAll (items ++ []))
  rw [List.append_nil]
  cases items with
  | nil => rfl
  | cons first others =>
    have hfirst : element (first :: others) 0 = .ok first := by
      rw [← place_self (first :: others)]
      exact element_place (List.suffix_refl _)
    have hothers : slice (first :: others) 1 (first :: others).length = .ok others := by
      have hplace : place (first :: others) others = 1 := by
        rw [← place_cons _ _ first, place_self]
        rfl
      rw [← hplace]
      exact slice_place_end (List.suffix_cons first others)
    rw [joinItems]
    simp only [hfirst, hothers, ok_bind]
    rfl

/-- An item is followed by the items of the tokens behind it. -/
theorem itemResult_cons {items : List Term} {item : Term} {rest behind : List Token}
    (h : Term.itemsOfTokens mode rest = (Term.itemsOfTokens mode behind).map (item :: ·)) :
    itemResult mode rest items = itemResult mode behind (items ++ [item]) := by
  rw [itemResult, itemResult, h]
  cases Term.itemsOfTokens mode behind with
  | error error => rfl
  | ok others =>
    show refusing (Term.applyAll (items ++ item :: others)) =
      refusing (Term.applyAll (items ++ [item] ++ others))
    rw [List.append_assoc]
    rfl

/-- One step in an expression keeps what it comes to. -/
theorem itemStep_place {parse : PartParser tokens Term}
    (hparse : ∀ part h, parse part h = refusing (Term.ofTokens mode part))
    (hrest : token :: rest <:+ tokens) (items : List Term) :
    (∃ error, itemStep mode tokens parse (place tokens (token :: rest)) items = refuse error ∧
      Term.itemsOfTokens mode (token :: rest) = .error error) ∨
    ∃ item last,
      itemStep mode tokens parse (place tokens (token :: rest)) items =
        .ok (items ++ [item], last) ∧
      place tokens (token :: rest) ≤ last ∧
      Term.itemsOfTokens mode (token :: rest) =
        (Term.itemsOfTokens mode (tokens.drop (last + 1).toNat)).map (item :: ·) := by
  have hsuffix := (List.suffix_cons _ _).trans hrest
  obtain ⟨kind, text⟩ := token
  rw [itemStep]
  simp only [element_place hrest, ok_bind]
  cases kind with
  | lower =>
    refine .inr ⟨.var text, _, rfl, Int.le_refl _, ?_⟩
    rw [place_cons, drop_place hsuffix, Term.itemsOfTokens]
  | lparen =>
    simp only [group_place hparse hrest, itemsOfTokens_lparen]
    cases hcut : groupCut 0 rest with
    | none => exact .inl ⟨_, rfl, rfl⟩
    | some cut =>
      obtain ⟨inside, behind⟩ := cut
      simp only [Option.elim_some]
      cases Term.ofTokens mode inside with
      | error error => exact .inl ⟨_, rfl, rfl⟩
      | ok inner =>
        obtain ⟨hforward, hbehind⟩ := behind_group hrest hcut
        refine .inr ⟨inner, _, rfl, hforward, ?_⟩
        rw [hbehind]
        rfl
  | dot =>
    have hlength : rest.length < tokens.length := hrest.length_le
    simp only [place_cons, slice_place_end hsuffix, ok_bind, shorter_eq hlength, hparse]
    rw [itemsOfTokens_dot]
    cases Term.ofTokens mode rest with
    | error error => exact .inl ⟨_, rfl, rfl⟩
    | ok inner =>
      -- the index goes past the end by one, where no tokens are left either
      refine .inr ⟨inner, _, rfl, Int.le_of_lt (place_cons_lt ..), ?_⟩
      rw [List.drop_eq_nil_of_le (by omega), Term.itemsOfTokens_nil]
      rfl
  | lambda =>
    simp only [abstraction_place hparse hrest, itemsOfTokens_lambda]
    cases hhat : Term.annotationOf mode rest with
    | error error => exact .inl ⟨_, rfl, rfl⟩
    | ok hat =>
      obtain ⟨ty, body⟩ := hat
      simp only [Except.bind]
      cases hcut : bodyCut body with
      | none => exact .inl ⟨_, rfl, rfl⟩
      | some cut =>
        simp only [Option.elim_some]
        cases Term.ofTokens mode cut.1 with
        | error error => exact .inl ⟨_, rfl, rfl⟩
        | ok inner =>
          obtain ⟨hforward, hbehind⟩ := behind_abstraction hrest hhat hcut
          refine .inr ⟨.abs text ty inner, lastOf tokens cut, rfl, hforward, ?_⟩
          rw [hbehind]
  | _ => exact .inl ⟨_, rfl, by rw [Term.itemsOfTokens]⟩

/-- The parser of expressions by positions reads and refuses what the other does. -/
theorem parseTerm_eq (mode : Mode) (tokens : List Token) :
    parseTerm mode tokens = refusing (Term.ofTokens mode tokens) := by
  fun_induction parseTerm mode tokens with
  | case1 tokens ih =>
    rw [loop_eq (fun _ => True) (itemResult mode) (fun items _ => joinItems_eq mode items) _
      (Int.le_refl 0) trivial]
    · rfl
    · intro token rest items hrest _
      rcases itemStep_place ih hrest items with
        ⟨error, hstep, hitems⟩ | ⟨item, last, hstep, hforward, hitems⟩
      · refine .inl ⟨_, hstep, ?_⟩
        rw [itemResult, hitems]
        rfl
      · exact .inr ⟨_, _, hstep, hforward, trivial, itemResult_cons hitems⟩

/-! ### Judgements -/

section Colon

variable {left right : List Token} {text : String}

theorem countP_append_colon (hleft : ∀ token ∈ left, token.kind ≠ .colon) :
    (left ++ ⟨.colon, text⟩ :: right : List Token).countP (·.kind == .colon) =
      right.countP (·.kind == .colon) + 1 := by
  have hnone : left.countP (·.kind == .colon) = 0 := by
    rw [List.countP_eq_zero]
    simpa using hleft
  rw [List.countP_append, List.countP_cons, hnone, Nat.zero_add]
  rfl

theorem colonAt_append (hleft : ∀ token ∈ left, token.kind ≠ .colon) :
    colonAt (left ++ ⟨.colon, text⟩ :: right) =
      place (left ++ ⟨.colon, text⟩ :: right) (⟨.colon, text⟩ :: right) := by
  have hnone : left.findIdx? (·.kind == .colon) = none := by
    rw [List.findIdx?_eq_none_iff]
    simpa using hleft
  have hplace : place (left ++ ⟨.colon, text⟩ :: right) (⟨.colon, text⟩ :: right) =
      left.length := by
    unfold place
    rw [List.length_append]
    omega
  have hfirst : (⟨.colon, text⟩ :: right : List Token).findIdx? (·.kind == .colon) = some 0 := by
    rw [List.findIdx?_cons]
    rfl
  rw [hplace, colonAt, List.findIdx?_append, hnone, hfirst]
  simp

/-- The tokens on both sides of the first colon. -/
theorem parseJudgement_append (mode : Mode) (hleft : ∀ token ∈ left, token.kind ≠ .colon)
    (hlength : 3 ≤ (left ++ ⟨.colon, text⟩ :: right : List Token).length) :
    parseJudgement mode (left ++ ⟨.colon, text⟩ :: right) =
      refusing (if right.any (·.kind == .colon) then .error .tooManyColons
        else if left.isEmpty then .error .emptyExpression
        else if right.isEmpty then .error .noType
        else (Term.ofTokens mode left).bind fun term =>
          (Ty.ofTokens right).map fun ty => ⟨term, ty⟩) := by
  have hempty : (left ++ ⟨.colon, text⟩ :: right : List Token).isEmpty = false := by simp
  unfold parseJudgement
  rw [hempty, if_neg Bool.false_ne_true, if_neg (Nat.not_lt.2 hlength), countP_append_colon hleft,
    if_neg (Nat.succ_ne_zero _)]
  by_cases hmany : right.any (·.kind == .colon)
  · have hcount : right.countP (·.kind == .colon) + 1 ≠ 1 := by
      have hpos := List.countP_pos_iff.2 (List.any_eq_true.1 hmany)
      omega
    rw [if_pos hcount, if_pos hmany]
    rfl
  · have hcount : right.countP (·.kind == .colon) = 0 := by
      rw [List.countP_eq_zero]
      simpa using hmany
    have hsuffix : right <:+ left ++ ⟨.colon, text⟩ :: right :=
      (List.suffix_cons _ _).trans (List.suffix_append _ _)
    have hshort : left.length < (left ++ ⟨.colon, text⟩ :: right : List Token).length ∧
        right.length < (left ++ ⟨.colon, text⟩ :: right : List Token).length := by
      rw [List.length_append, List.length_cons]
      omega
    rw [hcount, if_neg (by decide), if_neg hmany, colonAt_append hleft, slice_start_place, ok_bind,
      place_cons, slice_place_end hsuffix, ok_bind, shorter_eq hshort.1, shorter_eq hshort.2,
      parseTerm_eq, parseType_eq]
    by_cases hnoTerm : left.isEmpty
    · rw [if_pos hnoTerm, if_pos hnoTerm]
      rfl
    rw [if_neg hnoTerm, if_neg hnoTerm]
    by_cases hnoType : right.isEmpty
    · rw [if_pos hnoType, if_pos hnoType]
      rfl
    rw [if_neg hnoType, if_neg hnoType]
    cases Term.ofTokens mode left with
    | error error => rfl
    | ok term => cases Ty.ofTokens right <;> rfl

end Colon

/-- The parser of judgements by positions reads and refuses what the other does. -/
theorem parseJudgement_eq (mode : Mode) (tokens : List Token) :
    parseJudgement mode tokens = refusing (Judgement.ofTokens mode tokens) := by
  by_cases hempty : tokens.isEmpty
  · rw [parseJudgement, Judgement.ofTokens, if_pos hempty, if_pos hempty]
    rfl
  by_cases hshort : tokens.length < 3
  · rw [parseJudgement, Judgement.ofTokens, if_neg hempty, if_neg hempty, if_pos hshort,
      if_pos hshort]
    rfl
  by_cases hcolon : tokens.any (fun token => token.kind == .colon)
  · obtain ⟨text, htokens⟩ := Token.exists_of_any_colon hcolon
    have hleft : ∀ token ∈ tokens.takeWhile (fun token => !token.kind == .colon),
        token.kind ≠ .colon := by
      intro token hmem
      simpa using List.all_eq_true.1 List.all_takeWhile token hmem
    have hparse := parseJudgement_append mode hleft (by rw [← htokens]; omega)
    rw [← htokens] at hparse
    rw [hparse, Judgement.ofTokens, if_neg hempty, if_neg hshort]
    simp only [hcolon]
    cases Term.ofTokens mode (tokens.takeWhile fun token => !token.kind == .colon) <;> rfl
  · have hcount : tokens.countP (·.kind == .colon) = 0 := by
      rw [List.countP_eq_zero]
      simpa using hcolon
    rw [parseJudgement, Judgement.ofTokens, if_neg hempty, if_neg hempty, if_neg hshort,
      if_neg hshort, if_pos hcount]
    simp only [hcolon]
    rfl

/-! ### All in range -/

/-- In every mode and for any tokens, the parsers by positions come to what the parsers of terms,
    types and judgements come to.  So they refuse tokens at most: no index or part is out of range,
    no call is on a part as long as the whole, no loop stands still.  The three scans report
    positions from their start on and before the end, whatever parentheses they pass. -/
theorem parse_in_range (mode : Mode) (tokens : List Token) :
    parseTerm mode tokens = refusing (Term.ofTokens mode tokens) ∧
    parseType tokens = refusing (Ty.ofTokens tokens) ∧
    parseJudgement mode tokens = refusing (Judgement.ofTokens mode tokens) ∧
    ∀ start pos : Int,
      (groupEnd tokens start = .ok pos → start ≤ pos ∧ pos < tokens.length) ∧
      (annotationEnd tokens start = .ok pos → start ≤ pos ∧ pos < tokens.length) ∧
      (bodyEnd tokens start = .ok pos → pos ≠ tokens.length →
        start ≤ pos ∧ pos < tokens.length) := by
  refine ⟨parseTerm_eq mode tokens, parseType_eq tokens, parseJudgement_eq mode tokens, ?_⟩
  intro start pos
  refine ⟨groupEnd_bounds, annotationEnd_bounds, ?_⟩
  intro hpos hne
  rcases bodyEnd_bounds hpos with hend | hbounds
  · exact absurd hend hne
  · exact hbounds

/-- The tokens of `λx ) ( y ( z )`. -/
def unbalanced : List Token :=
  [⟨.lambda, "x"⟩, ⟨.rparen, ""⟩, ⟨.lparen, ""⟩, ⟨.lower, "y"⟩, ⟨.lparen, ""⟩, ⟨.lower, "z"⟩,
    ⟨.rparen, ""⟩]

/-- The first right parenthesis in `λx ) ( y ( z )` has no partner, and behind it the count is
    negative.  The scans from there on end at three different tokens, all in the list. -/
theorem parse_in_range_unbalanced :
    parseTerm .untyped unbalanced = refuse .unexpectedRParen ∧
    (groupEnd unbalanced 1 = .ok 6 ∧ (1 : Int) ≤ 6 ∧ (6 : Int) < unbalanced.length) ∧
    (annotationEnd unbalanced 1 = .ok 2 ∧ (1 : Int) ≤ 2 ∧ (2 : Int) < unbalanced.length) ∧
    (bodyEnd unbalanced 1 = .ok 3 ∧ (1 : Int) ≤ 3 ∧ (3 : Int) < unbalanced.length) := by
  have hterm : Term.ofTokens .untyped unbalanced = .error .unexpectedRParen := by decide +kernel
  have hgroup : groupEnd unbalanced 1 = .ok 6 := by decide +kernel
  have hhat : annotationEnd unbalanced 1 = .ok 2 := by decide +kernel
  have hbody : bodyEnd unbalanced 1 = .ok 3 := by decide +kernel
  obtain ⟨hexpr, -, -, hpositions⟩ := parse_in_range .untyped unbalanced
  rw [hterm] at hexpr
  exact ⟨hexpr, ⟨hgroup, (hpositions 1 6).1 hgroup⟩,
    ⟨hhat, (hpositions 1 2).2.1 hhat⟩,
    ⟨hbody, (hpositions 1 3).2.2 hbody (by decide)⟩⟩

end Redex.Indexed
