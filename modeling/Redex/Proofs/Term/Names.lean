import Redex.Term.Alpha

/-! # Occurrences of names

    What it means for a name to occur free in a term, or to occur at all, by recursion on
    the term; and that the two sets collected by `Term.free` and `Term.names` hold exactly
    these names.  The sets are built with accumulators, so each statement is first made for
    the accumulating function. -/

namespace Redex.Term

/-! ### Occurrences -/

/-- The name occurs free: some variable has it that no binder around it has. -/
def HasFree : Term → String → Prop
  | .missing, _ => False
  | .var y, x => x = y
  | .abs y _ body, x => x ≠ y ∧ body.HasFree x
  | .app fn arg, x => fn.HasFree x ∨ arg.HasFree x

/-- The name occurs as a variable or as a binder. -/
def Mentions : Term → String → Prop
  | .missing, _ => False
  | .var y, x => x = y
  | .abs y _ body, x => x = y ∨ body.Mentions x
  | .app fn arg, x => fn.Mentions x ∨ arg.Mentions x

/-- All names of the term belong to a set of names in use. -/
def NamedIn (t : Term) (used : NameSet) : Prop :=
  ∀ x, t.Mentions x → x ∈ used

theorem HasFree.mentions {t : Term} {x : String} (h : t.HasFree x) : t.Mentions x := by
  induction t with
  | missing => exact h
  | var y => exact h
  | abs y ty body ih => exact Or.inr (ih h.2)
  | app fn arg ihf iha =>
    rcases h with h | h
    · exact Or.inl (ihf h)
    · exact Or.inr (iha h)

section NamedIn

variable {used used' : NameSet} {t fn arg body : Term} {x y : String} {ty : Ty}

theorem NamedIn.mono (h : t.NamedIn used) (hsub : ∀ x ∈ used, x ∈ used') :
    t.NamedIn used' :=
  fun x hx => hsub x (h x hx)

theorem NamedIn.of_abs (h : (abs y ty body).NamedIn used) : y ∈ used ∧ body.NamedIn used :=
  ⟨h y (Or.inl rfl), fun x hx => h x (Or.inr hx)⟩

theorem NamedIn.of_app (h : (app fn arg).NamedIn used) :
    fn.NamedIn used ∧ arg.NamedIn used :=
  ⟨fun x hx => h x (Or.inl hx), fun x hx => h x (Or.inr hx)⟩

theorem NamedIn.abs (hy : y ∈ used) (hbody : body.NamedIn used) :
    (abs y ty body).NamedIn used := by
  intro x hx
  rcases hx with rfl | hx
  · exact hy
  · exact hbody x hx

theorem NamedIn.app (hfn : fn.NamedIn used) (harg : arg.NamedIn used) :
    (app fn arg).NamedIn used := by
  intro x hx
  rcases hx with hx | hx
  · exact hfn x hx
  · exact harg x hx

end NamedIn

/-! ### The collected sets -/

theorem mem_addFree (t : Term) (bound free : NameSet) (x : String) :
    x ∈ t.addFree bound free ↔ x ∈ free ∨ (x ∉ bound ∧ t.HasFree x) := by
  induction t generalizing bound free with
  | missing => simp [addFree, HasFree]
  | var y =>
    unfold addFree HasFree
    split
    · rename_i hbound
      constructor
      · exact Or.inl
      · rintro (h | ⟨hx, rfl⟩)
        · exact h
        · exact absurd hbound hx
    · rename_i hbound
      rw [Std.TreeSet.mem_insert, Std.compare_eq_iff_eq]
      constructor
      · rintro (rfl | h)
        · exact Or.inr ⟨hbound, rfl⟩
        · exact Or.inl h
      · rintro (h | ⟨_, rfl⟩)
        · exact Or.inr h
        · exact Or.inl rfl
  | abs y ty body ih =>
    rw [addFree, ih, HasFree, Std.TreeSet.mem_insert, Std.compare_eq_iff_eq]
    grind
  | app fn arg ihf iha =>
    rw [addFree, iha, ihf, HasFree]
    grind

/-- The free variables are collected exactly. -/
theorem mem_free {t : Term} {x : String} : x ∈ t.free ↔ t.HasFree x := by
  simp [free, mem_addFree]

theorem mem_addNames (t : Term) (names : NameSet) (x : String) :
    x ∈ t.addNames names ↔ x ∈ names ∨ t.Mentions x := by
  induction t generalizing names with
  | missing => simp [addNames, Mentions]
  | var y =>
    rw [addNames, Mentions, Std.TreeSet.mem_insert, Std.compare_eq_iff_eq]
    grind
  | abs y ty body ih =>
    rw [addNames, ih, Mentions, Std.TreeSet.mem_insert, Std.compare_eq_iff_eq]
    grind
  | app fn arg ihf iha =>
    rw [addNames, iha, ihf, Mentions]
    grind

/-- All names of a term are collected exactly. -/
theorem mem_names {t : Term} {x : String} : x ∈ t.names ↔ t.Mentions x := by
  simp [names, mem_addNames]

end Redex.Term
