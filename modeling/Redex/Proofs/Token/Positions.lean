import Redex.Proofs.Token.Cuts

/-! # Positions in a list of tokens

    A parser may keep its place in a list of tokens by an index, and cut the list by the
    positions that it finds.  Much can go wrong then that cannot where lists are taken apart:
    an index lies outside the list, a part ends before it starts, a parser is called on a part
    that is no shorter than the whole, a loop stands still.  Here all of these are checked
    where they are met, and each check has an outcome of its own.

    * `seek` looks for the end of a phrase with a count of open parentheses.  Whatever the
      count is, a position that it finds lies in the list and not before its start
      (`seek_bounds`), and it is the one where the cut of the phrase ends.
    * `loop` goes through a list step by step.  If each step keeps what the tokens from its
      index on come to, the loop computes it (`loop_eq`). -/

namespace Redex.Indexed

open Token

/-! ### Checks -/

/-- Why a checked computation stops. -/
inductive Stop where
  /-- The tokens are refused. -/
  | refused (error : ParseError)
  /-- An index or a part lies outside the list, or a part ends before it starts. -/
  | outOfRange
  /-- A parser is called on a part that is no shorter than the whole. -/
  | notShorter
  /-- A loop goes on at an index that is no further than the one before. -/
  | notForward
deriving DecidableEq, Repr

/-- The outcome of a computation that may refuse the tokens, but fails no check. -/
def refusing {α : Type} (result : Except ParseError α) : Except Stop α :=
  result.mapError .refused

def refuse {α : Type} (error : ParseError) : Except Stop α :=
  .error (.refused error)

/-- The element at an index. -/
def element {α : Type} (list : List α) (i : Int) : Except Stop α :=
  if h : 0 ≤ i ∧ i < list.length then .ok (list.get ⟨i.toNat, by omega⟩) else .error .outOfRange

/-- The part of a list from one index up to another. -/
def slice {α : Type} (list : List α) (low high : Int) : Except Stop (List α) :=
  if 0 ≤ low ∧ low ≤ high ∧ high ≤ list.length then
    .ok ((list.take high.toNat).drop low.toNat)
  else .error .outOfRange

/-- A parser for the parts of some tokens that are shorter than the whole. -/
abbrev PartParser (tokens : List Token) (α : Type) : Type :=
  (part : List Token) → part.length < tokens.length → Except Stop α

/-- Calls a parser on a part of some tokens. -/
def shorter {α : Type} (tokens : List Token) (parse : PartParser tokens α) (part : List Token) :
    Except Stop α :=
  if h : part.length < tokens.length then parse part h else .error .notShorter

/-- Where the last elements of a list start. -/
def place {α : Type} (list rest : List α) : Int :=
  list.length - rest.length

section Access

variable {α : Type} {list inside rest : List α} {a : α}

theorem place_cons (list rest : List α) (a : α) :
    place list (a :: rest) + 1 = place list rest := by
  unfold place
  rw [List.length_cons]
  omega

theorem place_nil (list : List α) : place list [] = list.length := by
  unfold place
  rw [List.length_nil]
  omega

theorem place_self (list : List α) : place list list = 0 :=
  Int.sub_self _

theorem place_nonneg (h : rest <:+ list) : 0 ≤ place list rest := by
  have hlen := h.length_le
  unfold place
  omega

theorem place_cons_lt (list rest : List α) (a : α) : place list (a :: rest) < list.length := by
  unfold place
  rw [List.length_cons]
  omega

theorem drop_place (h : rest <:+ list) : list.drop (place list rest).toNat = rest := by
  obtain ⟨before, rfl⟩ := h
  have hplace : (place (before ++ rest) rest).toNat = before.length := by
    unfold place
    rw [List.length_append]
    omega
  rw [hplace, List.drop_left]

/-- Every index in a list is the place of what is left from there on. -/
theorem exists_of_lt {i : Int} (hi : 0 ≤ i) (hlt : i < list.length) :
    ∃ a rest, list.drop i.toNat = a :: rest ∧ a :: rest <:+ list ∧ i = place list (a :: rest) := by
  have hlen : (list.drop i.toNat).length = list.length - i.toNat := List.length_drop
  have hsuffix := List.drop_suffix i.toNat list
  cases hdrop : list.drop i.toNat with
  | nil =>
    rw [hdrop, List.length_nil] at hlen
    omega
  | cons a rest =>
    rw [hdrop] at hlen hsuffix
    refine ⟨a, rest, rfl, hsuffix, ?_⟩
    unfold place
    omega

theorem element_place (h : a :: rest <:+ list) :
    element list (place list (a :: rest)) = .ok a := by
  have hget : list[(place list (a :: rest)).toNat]? = some a := by
    rw [← List.head?_drop, drop_place h]
    rfl
  rw [element, dif_pos ⟨place_nonneg h, place_cons_lt list rest a⟩]
  exact congrArg Except.ok (List.getElem?_eq_some_iff.1 hget).2

theorem slice_place (h : inside ++ rest <:+ list) :
    slice list (place list (inside ++ rest)) (place list rest) = .ok inside := by
  obtain ⟨before, rfl⟩ := h
  have hlow : place (before ++ (inside ++ rest)) (inside ++ rest) = before.length := by
    unfold place
    rw [List.length_append]
    omega
  have hhigh : place (before ++ (inside ++ rest)) rest = (before ++ inside).length := by
    unfold place
    simp only [List.length_append]
    omega
  have hrange : 0 ≤ (before.length : Int) ∧
      (before.length : Int) ≤ (before ++ inside).length ∧
      ((before ++ inside).length : Int) ≤ (before ++ (inside ++ rest)).length := by
    simp only [List.length_append]
    omega
  rw [slice, hlow, hhigh, if_pos hrange, Int.toNat_natCast, Int.toNat_natCast,
    ← List.append_assoc, List.take_left, List.drop_left]

theorem slice_place_end (h : rest <:+ list) :
    slice list (place list rest) list.length = .ok rest := by
  have hslice : slice list (place list (rest ++ [])) (place list []) = .ok rest :=
    slice_place (by rwa [List.append_nil])
  rwa [List.append_nil, place_nil] at hslice

theorem slice_start_place (inside rest : List α) :
    slice (inside ++ rest) 0 (place (inside ++ rest) rest) = .ok inside := by
  have hslice := slice_place (List.suffix_refl (inside ++ rest))
  rwa [place_self] at hslice

theorem shorter_eq {tokens part : List Token} {parse : PartParser tokens α}
    (h : part.length < tokens.length) : shorter tokens parse part = parse part h := by
  rw [shorter, dif_pos h]

end Access

/-! ### Scans -/

/-- What a token means to a scan. -/
inductive Verdict where
  | ends
  | refuses (error : ParseError)
  | passes

/-- The position of the first token that ends a phrase, from an index on.  The verdict on a
    token goes by the count of open parentheses before it. -/
def seek (verdict : Int → Token → Verdict) (missing : Except Stop Int) (tokens : List Token)
    (depth i : Int) : Except Stop Int :=
  if i < tokens.length then
    match element tokens i with
    | .error stop => .error stop
    | .ok token =>
      match verdict depth token with
      | .ends => .ok i
      | .refuses error => refuse error
      | .passes => seek verdict missing tokens (depthBehind depth token) (i + 1)
  else missing
termination_by (tokens.length - i).toNat
decreasing_by omega

/-- A group ends with the right parenthesis that brings the count back to zero. -/
def closesGroup (depth : Int) (token : Token) : Verdict :=
  if token.kind = .rparen ∧ depthBehind depth token = 0 then .ends else .passes

/-- So does a body, if no variable outside parentheses ends it before. -/
def endsBody (depth : Int) (token : Token) : Verdict :=
  if token.kind = .rparen ∧ depthBehind depth token = 0 ∨ token.kind = .lower ∧ depth = 0 then
    .ends
  else .passes

/-- An annotation ends with any token that leaves the count at zero, but with no arrow. -/
def endsType (depth : Int) (token : Token) : Verdict :=
  if token.kind = .arrow ∧ depth = 0 then .refuses .invalidType
  else if depthBehind depth token = 0 then .ends
  else .passes

/-- The position of the parenthesis that closes the one at `start`. -/
def groupEnd (tokens : List Token) (start : Int) : Except Stop Int :=
  seek closesGroup (refuse .unclosedLParen) tokens 0 start

/-- The position of the last token of a body.  A dot takes all tokens, and the number of
    tokens says that the body does not end. -/
def bodyEnd (tokens : List Token) (start : Int) : Except Stop Int :=
  match element tokens start with
  | .error stop => .error stop
  | .ok first =>
    if first.kind = .dot then .ok (tokens.length - 1)
    else seek endsBody (.ok tokens.length) tokens 0 start

/-- The position of the last token of an annotation. -/
def annotationEnd (tokens : List Token) (start : Int) : Except Stop Int :=
  if tokens.length ≤ start then refuse .noType
  else seek endsType (refuse .unclosedLParen) tokens 0 start

/-! ### Positions that are found -/

/-- A position that a scan finds is not before its start, and before the end.  The count of
    open parentheses does not matter, so it may as well be negative. -/
theorem seek_bounds {verdict : Int → Token → Verdict} {missing : Except Stop Int}
    {tokens : List Token} {depth start pos : Int}
    (h : seek verdict missing tokens depth start = .ok pos) :
    missing = .ok pos ∨ start ≤ pos ∧ pos < tokens.length := by
  fun_induction seek verdict missing tokens depth start with
  | case1 => cases h
  | case2 _ start hstart =>
    obtain rfl : start = pos := Except.ok.inj h
    exact .inr ⟨Int.le_refl _, hstart⟩
  | case3 => cases h
  | case4 _ start _ _ _ _ ih =>
    rcases ih h with hmissing | ⟨hle, hlt⟩
    · exact .inl hmissing
    · exact .inr ⟨by omega, hlt⟩
  | case5 => exact .inl h

theorem groupEnd_bounds {tokens : List Token} {start pos : Int}
    (h : groupEnd tokens start = .ok pos) : start ≤ pos ∧ pos < tokens.length := by
  rcases seek_bounds h with hmissing | hbounds
  · cases hmissing
  · exact hbounds

theorem annotationEnd_bounds {tokens : List Token} {start pos : Int}
    (h : annotationEnd tokens start = .ok pos) : start ≤ pos ∧ pos < tokens.length := by
  unfold annotationEnd at h
  split at h
  · cases h
  · rcases seek_bounds h with hmissing | hbounds
    · cases hmissing
    · exact hbounds

theorem element_bounds {α : Type} {list : List α} {i : Int} {a : α}
    (h : element list i = .ok a) : 0 ≤ i ∧ i < list.length := by
  unfold element at h
  split at h
  · assumption
  · cases h

theorem bodyEnd_bounds {tokens : List Token} {start pos : Int}
    (h : bodyEnd tokens start = .ok pos) :
    pos = tokens.length ∨ start ≤ pos ∧ pos < tokens.length := by
  unfold bodyEnd at h
  split at h
  · cases h
  · rename_i first hfirst
    have hstart := element_bounds hfirst
    split at h
    · -- a dot takes all tokens, and there is one at least
      obtain rfl : (tokens.length : Int) - 1 = pos := Except.ok.inj h
      exact .inr ⟨by omega, by omega⟩
    · rcases seek_bounds h with hmissing | hbounds
      · exact .inl (Except.ok.inj hmissing).symm
      · exact .inr hbounds

/-! ### Scans and cuts -/

section Seek

variable {verdict : Int → Token → Verdict} {missing : Except Stop Int} {tokens rest : List Token}
  {token : Token} {depth : Int}

theorem seek_place_nil : seek verdict missing tokens depth (place tokens []) = missing := by
  rw [seek, place_nil, if_neg (by omega)]

theorem seek_of_ends (hrest : token :: rest <:+ tokens) (h : verdict depth token = .ends) :
    seek verdict missing tokens depth (place tokens (token :: rest)) =
      .ok (place tokens rest - 1) := by
  rw [seek, if_pos (place_cons_lt _ _ _), element_place hrest]
  simp only [h]
  rw [← place_cons tokens rest token, Int.add_sub_cancel]

theorem seek_of_refuses {error : ParseError} (hrest : token :: rest <:+ tokens)
    (h : verdict depth token = .refuses error) :
    seek verdict missing tokens depth (place tokens (token :: rest)) = refuse error := by
  rw [seek, if_pos (place_cons_lt _ _ _), element_place hrest]
  simp only [h]

theorem seek_of_passes (hrest : token :: rest <:+ tokens) (h : verdict depth token = .passes) :
    seek verdict missing tokens depth (place tokens (token :: rest)) =
      seek verdict missing tokens (depthBehind depth token) (place tokens rest) := by
  rw [seek, if_pos (place_cons_lt _ _ _), element_place hrest]
  simp only [h]
  rw [place_cons]

/-- The rule of scans.  A cut keeps a count of its own, and `depthOf` says what the scan has
    counted then; `found` is the position where the cut ends.  If the cut does with each token
    what the verdict says, the scan ends there. -/
theorem seek_eq {σ : Type} (depthOf : σ → Int) (found : σ → List Token → Except Stop Int)
    (hnil : ∀ count, found count [] = missing)
    (hcons : ∀ count token rest,
      verdict (depthOf count) token = .ends ∧
        found count (token :: rest) = .ok (place tokens rest - 1) ∨
      (∃ error, verdict (depthOf count) token = .refuses error ∧
        found count (token :: rest) = refuse error) ∨
      verdict (depthOf count) token = .passes ∧
        ∃ behind, depthBehind (depthOf count) token = depthOf behind ∧
          found count (token :: rest) = found behind rest)
    (count : σ) (hrest : rest <:+ tokens) :
    seek verdict missing tokens (depthOf count) (place tokens rest) = found count rest := by
  induction rest generalizing count with
  | nil => rw [seek_place_nil, hnil]
  | cons token rest ih =>
    rcases hcons count token rest with
      ⟨hends, hfound⟩ | ⟨error, hrefuses, hfound⟩ | ⟨hpasses, behind, hbehind, hfound⟩
    · rw [seek_of_ends hrest hends, hfound]
    · rw [seek_of_refuses hrest hrefuses, hfound]
    · rw [seek_of_passes hrest hpasses, hbehind, hfound]
      exact ih behind ((List.suffix_cons token rest).trans hrest)

end Seek

variable {tokens rest : List Token}

/-- The position of the last token of a cut. -/
def lastOf (tokens : List Token) (cut : List Token × List Token) : Int :=
  place tokens cut.2 - 1

theorem lastOf_add_one (tokens : List Token) (cut : List Token × List Token) :
    lastOf tokens cut + 1 = place tokens cut.2 :=
  Int.sub_add_cancel ..

theorem lastOf_lt (tokens : List Token) (cut : List Token × List Token) :
    lastOf tokens cut < tokens.length := by
  unfold lastOf place
  omega

theorem drop_lastOf {cut : List Token × List Token} (h : cut.2 <:+ tokens) :
    tokens.drop (lastOf tokens cut + 1).toNat = cut.2 := by
  rw [lastOf_add_one, drop_place h]

theorem place_le_lastOf {cut : List Token × List Token} (h : cut.2.length < rest.length) :
    place tokens rest ≤ lastOf tokens cut := by
  unfold lastOf place
  omega

/-- A token in front of a cut does not change where the cut ends. -/
theorem elim_consFirst {missing : Except Stop Int} (tokens : List Token) (token : Token)
    (cut : Option (List Token × List Token)) :
    ((cut.map (consFirst token)).elim missing fun cut => .ok (lastOf tokens cut)) =
      cut.elim missing fun cut => .ok (lastOf tokens cut) := by
  cases cut <;> rfl

/-- The scan from a left parenthesis on ends where the cut of the group does. -/
theorem groupEnd_place {text : String} (hrest : ⟨.lparen, text⟩ :: rest <:+ tokens) :
    groupEnd tokens (place tokens (⟨.lparen, text⟩ :: rest)) =
      (groupCut 0 rest).elim (refuse .unclosedLParen) fun cut => .ok (lastOf tokens cut) := by
  have hpasses : closesGroup 0 ⟨.lparen, text⟩ = .passes := rfl
  have hsuffix := (List.suffix_cons _ rest).trans hrest
  rw [groupEnd, seek_of_passes hrest hpasses]
  -- the cut does not count the parenthesis that it starts behind
  refine seek_eq (fun count : Nat => count + 1)
    (fun count rest => (groupCut count rest).elim (refuse .unclosedLParen)
      fun cut => .ok (lastOf tokens cut)) (fun _ => rfl) ?_ 0 hsuffix
  intro count token rest
  obtain ⟨kind, text⟩ := token
  cases kind with
  | rparen =>
    cases count with
    | zero => exact .inl ⟨rfl, rfl⟩
    | succ count =>
      have hdepth : depthBehind ((count + 1 : Nat) + 1) ⟨.rparen, text⟩ = count + 1 := by
        show ((count + 1 : Nat) + 1 : Int) - 1 = count + 1
        omega
      refine .inr (.inr ⟨?_, count, hdepth, elim_consFirst ..⟩)
      rw [closesGroup, if_neg]
      omega
  | lparen => exact .inr (.inr ⟨rfl, count + 1, rfl, elim_consFirst ..⟩)
  | _ => exact .inr (.inr ⟨rfl, count, rfl, elim_consFirst ..⟩)

/-- The scan for the end of a short body ends where its cut does. -/
theorem seek_endsBody (depth : Int) (hrest : rest <:+ tokens) :
    seek endsBody (.ok tokens.length) tokens depth (place tokens rest) =
      (shortBodyCut depth rest).elim (.ok tokens.length) fun cut => .ok (lastOf tokens cut) := by
  refine seek_eq (fun depth => depth)
    (fun depth rest => (shortBodyCut depth rest).elim (.ok tokens.length)
      fun cut => .ok (lastOf tokens cut)) (fun _ => rfl) ?_ depth hrest
  intro depth token rest
  obtain ⟨kind, text⟩ := token
  cases kind with
  | rparen =>
    by_cases hdepth : depth = 1
    · subst hdepth
      exact .inl ⟨rfl, rfl⟩
    · refine .inr (.inr ⟨?_, depth - 1, rfl, ?_⟩)
      · have hne : depth - 1 ≠ 0 := by omega
        simp [endsBody, depthBehind, hne]
      · simp only [shortBodyCut, if_neg hdepth]
        exact elim_consFirst ..
  | lower =>
    by_cases hdepth : depth = 0
    · subst hdepth
      exact .inl ⟨rfl, rfl⟩
    · refine .inr (.inr ⟨?_, depth, rfl, ?_⟩)
      · simp [endsBody, hdepth]
      · simp only [shortBodyCut, if_neg hdepth]
        exact elim_consFirst ..
  | lparen => exact .inr (.inr ⟨rfl, depth + 1, rfl, elim_consFirst ..⟩)
  | _ => exact .inr (.inr ⟨rfl, depth, rfl, elim_consFirst ..⟩)

/-- The scan for the end of a body ends where its cut does. -/
theorem bodyEnd_place {token : Token} (hrest : token :: rest <:+ tokens) :
    bodyEnd tokens (place tokens (token :: rest)) =
      (bodyCut (token :: rest)).elim (.ok tokens.length) fun cut => .ok (lastOf tokens cut) := by
  obtain ⟨kind, text⟩ := token
  rw [bodyEnd, element_place hrest]
  by_cases hdot : kind = .dot
  · subst hdot
    show Except.ok ((tokens.length : Int) - 1) = Except.ok (place tokens [] - 1)
    rw [place_nil]
  · simp only [hdot, if_false]
    rw [seek_endsBody 0 hrest]
    cases kind <;> first | contradiction | rfl

/-- The scan for the end of an annotation ends where its cut does, or it refuses what the cut
    refuses. -/
theorem seek_endsType (depth : Int) (hrest : rest <:+ tokens) :
    seek endsType (refuse .unclosedLParen) tokens depth (place tokens rest) =
      refusing ((annotationCut depth rest).map (lastOf tokens)) := by
  refine seek_eq (fun depth => depth)
    (fun depth rest => refusing ((annotationCut depth rest).map (lastOf tokens)))
    (fun _ => rfl) ?_ depth hrest
  intro depth token rest
  by_cases harrow : token.kind = .arrow ∧ depth = 0
  · refine .inr (.inl ⟨.invalidType, ?_, ?_⟩)
    · rw [endsType, if_pos harrow]
    · rw [annotationCut, if_pos harrow]
      rfl
  · by_cases hzero : depthBehind depth token = 0
    · refine .inl ⟨?_, ?_⟩
      · rw [endsType, if_neg harrow, if_pos hzero]
      · rw [annotationCut, if_neg harrow, if_pos hzero]
        rfl
    · refine .inr (.inr ⟨?_, _, rfl, ?_⟩)
      · rw [endsType, if_neg harrow, if_neg hzero]
      · rw [annotationCut_cons _ rest (not_and.1 harrow) rfl hzero]
        cases annotationCut (depthBehind depth token) rest <;> rfl

theorem annotationEnd_place {token : Token} (hrest : token :: rest <:+ tokens) :
    annotationEnd tokens (place tokens (token :: rest)) =
      refusing ((annotationCut 0 (token :: rest)).map (lastOf tokens)) := by
  have hlt := place_cons_lt tokens rest token
  rw [annotationEnd, if_neg (by omega), seek_endsType 0 hrest]

/-! ### Loops -/

/-- Goes through a list of tokens from an index on.  A step returns the position of the last
    token that it has used. -/
def loop {σ β : Type} (tokens : List Token) (step : Int → σ → Except Stop (σ × Int))
    (finish : σ → Except Stop β) (i : Int) (state : σ) : Except Stop β :=
  if i < tokens.length then
    match step i state with
    | .error stop => .error stop
    | .ok (next, last) =>
      if i < last + 1 then loop tokens step finish (last + 1) next else .error .notForward
  else finish state
termination_by (tokens.length - i).toNat
decreasing_by omega

/-- The rule of loops: `result` says what the tokens that are left come to in a state.  If each
    step refuses tokens only where `result` does, and otherwise goes forward to a place that
    comes to the same, then the loop computes `result`. -/
theorem loop_eq {σ β : Type} {tokens : List Token} {step : Int → σ → Except Stop (σ × Int)}
    {finish : σ → Except Stop β} (Inv : σ → Prop) (result : List Token → σ → Except Stop β)
    (hfinish : ∀ state, Inv state → finish state = result [] state)
    (hstep : ∀ token rest state, token :: rest <:+ tokens → Inv state →
      (∃ stop, step (place tokens (token :: rest)) state = .error stop ∧
        result (token :: rest) state = .error stop) ∨
      ∃ next last, step (place tokens (token :: rest)) state = .ok (next, last) ∧
        place tokens (token :: rest) ≤ last ∧ Inv next ∧
        result (token :: rest) state = result (tokens.drop (last + 1).toNat) next)
    {i : Int} {state : σ} (hi : 0 ≤ i) (hstate : Inv state) :
    loop tokens step finish i state = result (tokens.drop i.toNat) state := by
  fun_induction loop tokens step finish i state with
  | case1 i state hlt stop herror =>
    obtain ⟨token, rest, hdrop, hrest, rfl⟩ := exists_of_lt hi hlt
    rw [hdrop]
    rcases hstep token rest state hrest hstate with ⟨_, herror', hresult⟩ | ⟨_, _, hok, -⟩
    · cases herror.symm.trans herror'
      exact hresult.symm
    · cases herror.symm.trans hok
  | case2 i state hlt next last hok hforward ih =>
    obtain ⟨token, rest, hdrop, hrest, rfl⟩ := exists_of_lt hi hlt
    rw [hdrop]
    rcases hstep token rest state hrest hstate with ⟨_, herror, -⟩ | ⟨_, _, hok', -, hnext, hresult⟩
    · cases hok.symm.trans herror
    · cases hok.symm.trans hok'
      rw [hresult]
      exact ih (by omega) hnext
  | case3 i state hlt next last hok hstill =>
    -- no step stands still
    obtain ⟨token, rest, -, hrest, rfl⟩ := exists_of_lt hi hlt
    rcases hstep token rest state hrest hstate with ⟨_, herror, -⟩ | ⟨_, _, hok', hforward, -⟩
    · cases hok.symm.trans herror
    · cases hok.symm.trans hok'
      omega
  | case4 i state hge =>
    rw [hfinish state hstate, List.drop_eq_nil_of_le (by omega)]

end Redex.Indexed
