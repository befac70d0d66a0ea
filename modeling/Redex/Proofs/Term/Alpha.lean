import Redex.Proofs.Nameless.Form

/-! # Laws of equality up to bound names

    Equality up to bound names is equality of nameless forms.  So it is an equivalence, and
    the parts of an application or of an abstraction can be exchanged for equal ones.

    The comparison needs no scopes that grow with the binders.  One table for each term is
    enough: it gives the level of a name, is patched when a binder is entered, and is restored
    when the binder is left (`compareWith`).  The tables are shared by all branches, and they
    stand for the scopes at every point of the comparison (`compareWith_levels`). -/

namespace Redex.Term

open Function

/-! ### Nameless forms below a binder -/

/-- Below a single binder, its name is bound and every other name stands for itself. -/
theorem bind_free (x : String) : Env.bind .free x = update .free x (.bound 0) := by
  funext y
  by_cases hy : y = x
  · rw [hy, Env.bind_self, update_self]
  · rw [Env.bind_of_ne _ hy, update_of_ne hy]
    rfl

theorem namelessIn_bind_free (t : Term) (x : String) :
    t.namelessIn (Env.bind .free x) = t.nameless.replace x (.bound 0) := by
  rw [bind_free, replace_nameless]

/-- The form below a binder tells the form outside: the index is taken back to the name. -/
theorem instantiate_bind_free (t : Term) (x : String) :
    (t.namelessIn (Env.bind .free x)).instantiate (.free x) = t.nameless := by
  rw [instantiate_namelessIn_bind, update_eq_self]
  rfl

/-! ### Congruence -/

theorem alphaEq_equivalence : Equivalence fun t u : Term => t.alphaEq u = true := by
  simp only [alphaEq_iff]
  exact ⟨fun _ => rfl, Eq.symm, Eq.trans⟩

theorem alphaEq_app_iff {fn fn' arg arg' : Term} :
    (app fn arg).alphaEq (app fn' arg') = true ↔
      fn.alphaEq fn' = true ∧ arg.alphaEq arg' = true := by
  simp only [alphaEq_iff]
  show Nameless.app fn.nameless arg.nameless = .app fn'.nameless arg'.nameless ↔ _
  rw [Nameless.app.injEq]

theorem alphaEq_abs_iff {x : String} {ty ty' : Ty} {t u : Term} :
    (abs x ty t).alphaEq (abs x ty' u) = true ↔ ty = ty' ∧ t.alphaEq u = true := by
  simp only [alphaEq_iff]
  show Nameless.abs ty (t.namelessIn (Env.bind .free x)) =
    .abs ty' (u.namelessIn (Env.bind .free x)) ↔ _
  rw [Nameless.abs.injEq]
  constructor
  · rintro ⟨hty, hbody⟩
    refine ⟨hty, ?_⟩
    rw [← instantiate_bind_free t x, hbody, instantiate_bind_free]
  · rintro ⟨hty, hbody⟩
    refine ⟨hty, ?_⟩
    rw [namelessIn_bind_free, namelessIn_bind_free, hbody]

/-! ### Comparison with tables -/

/-- The level of each bound name: the number of binders around its own one. -/
abbrev Levels := String → Option Nat

/-- The level of each name of a scope, whose binders are listed from the inside out. -/
def levels : List String → Levels
  | [] => fun _ => none
  | x :: scope => update (levels scope) x (some scope.length)

/-- Compares two terms below `depth` binders, where a table for each term gives the levels of
    its bound names.  Returns the tables as they are behind the terms. -/
def compareWith : Nat → Levels × Levels → Term → Term → Bool × (Levels × Levels)
  | _, tables, .missing, .missing => (true, tables)
  | _, tables, .var x, .var y =>
    match tables.1 x, tables.2 y with
    | some i, some j => (i == j, tables)
    | none, none => (x == y, tables)
    | _, _ => (false, tables)
  | depth, tables, .abs x ty body, .abs y ty' body' =>
    if ty = ty' then
      let patched := (update tables.1 x (some depth), update tables.2 y (some depth))
      let (same, behind) := compareWith (depth + 1) patched body body'
      (same, (update behind.1 x (tables.1 x), update behind.2 y (tables.2 y)))
    else (false, tables)
  | depth, tables, .app fn arg, .app fn' arg' =>
    let (same, tables) := compareWith depth tables fn fn'
    if same then compareWith depth tables arg arg' else (false, tables)
  | _, tables, _, _ => (false, tables)

/-- A comparison leaves the tables as it has found them, whatever its outcome. -/
theorem compareWith_restores (depth : Nat) (tables : Levels × Levels) (t u : Term) :
    (compareWith depth tables t u).2 = tables := by
  fun_induction compareWith depth tables t u with
  | case1 | case2 | case3 | case4 | case6 | case9 => rfl
  | case5 depth tables x body y ty body' patched same behind hbody ih =>
    -- the patch is all that the tables behind the body differ by, and it is taken back
    have hbehind : behind = patched := by
      rw [hbody] at ih
      exact ih
    show (update behind.1 x (tables.1 x), update behind.2 y (tables.2 y)) = tables
    rw [hbehind]
    simp only [patched, update_idem, update_eq_self]
  | case7 depth tables fn arg fn' arg' behind hfn ihf iha =>
    rw [hfn] at ihf
    exact iha.trans ihf
  | case8 depth tables fn arg fn' arg' same behind hfn hsame ihf =>
    rw [hfn] at ihf
    exact ihf

theorem compareWith_abs (depth : Nat) (tables : Levels × Levels) (x y : String) (ty ty' : Ty)
    (body body' : Term) :
    (compareWith depth tables (.abs x ty body) (.abs y ty' body')).1 =
      (ty == ty' && (compareWith (depth + 1)
        (update tables.1 x (some depth), update tables.2 y (some depth)) body body').1) := by
  rw [compareWith]
  by_cases hty : ty = ty'
  · rw [if_pos hty, beq_iff_eq.2 hty, Bool.true_and]
  · rw [if_neg hty, beq_eq_false_iff_ne.2 hty, Bool.false_and]

/-- The argument is compared with the tables that the function has been compared with. -/
theorem compareWith_app (depth : Nat) (tables : Levels × Levels) (fn fn' arg arg' : Term) :
    (compareWith depth tables (.app fn arg) (.app fn' arg')).1 =
      ((compareWith depth tables fn fn').1 && (compareWith depth tables arg arg').1) := by
  have hrestored := compareWith_restores depth tables fn fn'
  rw [compareWith]
  rcases hfn : compareWith depth tables fn fn' with ⟨same, behind⟩
  rw [hfn] at hrestored
  obtain rfl : behind = tables := hrestored
  cases same <;> rfl

/-- The level of a name counts from the outside, its place in the scope from the inside. -/
theorem levels_eq (scope : List String) (x : String) :
    levels scope x = (scope.idxOf? x).map (scope.length - 1 - ·) := by
  induction scope with
  | nil => rfl
  | cons y scope ih =>
    unfold levels
    by_cases hx : x = y
    · subst hx
      simp [List.idxOf?_cons]
    · have hne : (y == x) = false := by simpa using Ne.symm hx
      rw [update_of_ne hx, ih, List.idxOf?_cons, hne]
      cases scope.idxOf? x with
      | none => rfl
      | some i =>
        show some (scope.length - 1 - i) = some (scope.length + 1 - 1 - (i + 1))
        congr 1
        omega

/-- With tables that stand for the scopes, the comparison is that of terms in their scopes. -/
theorem compareWith_levels (t u : Term) {scope scope' : List String}
    (hlength : scope.length = scope'.length) :
    (compareWith scope.length (levels scope, levels scope') t u).1 =
      alphaEqIn scope scope' t u := by
  fun_induction alphaEqIn scope scope' t u with
  | case1 => simp only [compareWith]
  | case2 scope scope' x y i j hx hy =>
    -- two levels are equal iff the places are, since both are inside scopes of one length
    obtain ⟨hi, -⟩ := List.idxOf?_eq_some_iff.1 hx
    obtain ⟨hj, -⟩ := List.idxOf?_eq_some_iff.1 hy
    have hiff : scope.length - 1 - i = scope'.length - 1 - j ↔ i = j := by omega
    simp only [compareWith, levels_eq, hx, hy, Option.map_some]
    rw [Bool.eq_iff_iff, beq_iff_eq, beq_iff_eq]
    exact hiff
  | case3 scope scope' x y hx hy =>
    simp only [compareWith, levels_eq, hx, hy, Option.map_none]
  | case4 scope scope' x y hsome hnone =>
    -- one of the two is bound and the other is free
    simp only [compareWith, levels_eq]
    cases hx : scope.idxOf? x <;> cases hy : scope'.idxOf? y
    · exact absurd hy (hnone hx)
    · rfl
    · rfl
    · exact absurd hy (hsome _ _ hx)
  | case5 scope scope' x ty body y ty' body' ih =>
    -- the patched tables stand for the scopes with the two binders
    have hbody := ih (congrArg (· + 1) hlength)
    rw [compareWith_abs, ← hbody]
    simp only [levels, List.length_cons, hlength]
  | case6 scope scope' fn arg fn' arg' ihf iha =>
    rw [compareWith_app, ihf hlength, iha hlength]
  | case7 t scope scope' u hmissing hvar habs happ =>
    rw [compareWith]
    · exact hmissing
    · exact hvar
    · exact habs
    · exact happ

/-! ### What the comparison decides -/

/-- The comparison decides whether two terms have the same nameless form, and it gives the same
    answer when it is made with one pair of tables, which it leaves empty again.  It is an
    equivalence, and two applications, or two abstractions of one name, are equal iff their
    parts are. -/
theorem alphaEq_decides_nameless :
    (∀ t u : Term, t.alphaEq u = true ↔ t.nameless = u.nameless) ∧
    (∀ t u : Term, compareWith 0 (levels [], levels []) t u =
      (t.alphaEq u, (levels [], levels []))) ∧
    (Equivalence fun t u : Term => t.alphaEq u = true) ∧
    (∀ fn fn' arg arg' : Term, (app fn arg).alphaEq (app fn' arg') = true ↔
      fn.alphaEq fn' = true ∧ arg.alphaEq arg' = true) ∧
    ∀ (x : String) (ty ty' : Ty) (t u : Term), (abs x ty t).alphaEq (abs x ty' u) = true ↔
      ty = ty' ∧ t.alphaEq u = true := by
  refine ⟨fun t u => alphaEq_iff, fun t u => ?_, alphaEq_equivalence,
    fun _ _ _ _ => alphaEq_app_iff, fun _ _ _ _ _ => alphaEq_abs_iff⟩
  have hsame := compareWith_levels t u (Eq.refl ([] : List String).length)
  exact Prod.ext hsame (compareWith_restores 0 _ t u)

end Redex.Term
