import Redex.Proofs.Phrase.Reduced

/-! # What the naming check decides

    The check reads four collections: the free variables of the expression, the base types of its
    annotations, the base types of the declared type, and the first of these that is unknown.
    Here each of them is given by what belongs to it, and the check by its three answers: a
    judgement passes, its free variables are listed in increasing order, or the leftmost base
    type without an annotation is named (`Judgement.check_decides_naming`). -/

namespace Redex

/-! ### Base types -/

namespace Ty

/-- The base types of a type, from left to right. -/
def bases : Ty → List String
  | .missing => []
  | .base name => [name]
  | .arrow source target => source.bases ++ target.bases

theorem mem_addNames (ty : Ty) (names : NameSet) (x : String) :
    x ∈ ty.addNames names ↔ x ∈ names ∨ x ∈ ty.bases := by
  induction ty generalizing names with
  | missing => simp [addNames, bases]
  | base name =>
    rw [addNames, bases, Std.TreeSet.mem_insert, Std.compare_eq_iff_eq, List.mem_singleton,
      or_comm, eq_comm]
  | arrow source target ihs iht =>
    rw [addNames, iht, ihs, bases, List.mem_append, or_assoc]

/-- The search goes through the base types from left to right. -/
theorem firstUnknown_eq_find? (known : NameSet) (ty : Ty) :
    ty.firstUnknown known = ty.bases.find? (!known.contains ·) := by
  induction ty with
  | missing => rfl
  | base name =>
    unfold firstUnknown bases
    cases hknown : known.contains name <;> simp [hknown]
  | arrow source target ihs iht =>
    rw [firstUnknown, bases, List.find?_append, ihs, iht]

theorem firstUnknown_eq_none_iff {known : NameSet} {ty : Ty} :
    ty.firstUnknown known = none ↔ ∀ name ∈ ty.bases, name ∈ known := by
  simp [firstUnknown_eq_find?, List.find?_eq_none]

theorem firstUnknown_eq_some_iff {known : NameSet} {ty : Ty} {name : String} :
    ty.firstUnknown known = some name ↔
      name ∉ known ∧ ∃ before after, ty.bases = before ++ name :: after ∧
        ∀ other ∈ before, other ∈ known := by
  rw [firstUnknown_eq_find?, List.find?_eq_some_iff_append]
  simp only [Bool.not_not, Std.TreeSet.contains_iff_mem, Bool.not_eq_true', Bool.eq_false_iff, Ne]

end Ty

/-! ### Annotations -/

namespace Term

/-- Some abstraction of the term is annotated with the type. -/
def HasAnnotation : Term → Ty → Prop
  | .missing, _ => False
  | .var _, _ => False
  | .abs _ own body, ty => ty = own ∨ body.HasAnnotation ty
  | .app fn arg, ty => fn.HasAnnotation ty ∨ arg.HasAnnotation ty

/-- Some annotation of the term mentions the base type. -/
def Annotates (t : Term) (name : String) : Prop :=
  ∃ ty, t.HasAnnotation ty ∧ name ∈ ty.bases

theorem annotates_abs_iff {binder : String} {own : Ty} {body : Term} {name : String} :
    (abs binder own body).Annotates name ↔ name ∈ own.bases ∨ body.Annotates name := by
  simp only [Annotates, HasAnnotation, or_and_right, exists_or, exists_eq_left]

theorem annotates_app_iff {fn arg : Term} {name : String} :
    (app fn arg).Annotates name ↔ fn.Annotates name ∨ arg.Annotates name := by
  simp only [Annotates, HasAnnotation, or_and_right, exists_or]

theorem mem_addAnnotationNames (t : Term) (names : NameSet) (x : String) :
    x ∈ t.addAnnotationNames names ↔ x ∈ names ∨ t.Annotates x := by
  induction t generalizing names with
  | missing => simp [addAnnotationNames, Annotates, HasAnnotation]
  | var y => simp [addAnnotationNames, Annotates, HasAnnotation]
  | abs y own body ih => rw [addAnnotationNames, ih, Ty.mem_addNames, annotates_abs_iff, or_assoc]
  | app fn arg ihf iha => rw [addAnnotationNames, iha, ihf, annotates_app_iff, or_assoc]

/-- The base types of the annotations are collected exactly. -/
theorem mem_annotationNames {t : Term} {x : String} : x ∈ t.annotationNames ↔ t.Annotates x := by
  simp [annotationNames, mem_addAnnotationNames]

/-! ### Listed names -/

/-- The free variables are listed in increasing order, each once. -/
theorem free_toList_pairwise (t : Term) : t.free.toList.Pairwise (· < ·) := by
  refine Std.TreeSet.ordered_toList.imp ?_
  intro x y hxy
  exact compareOfLessAndEq_eq_lt.1 hxy

theorem mem_free_toList {t : Term} {x : String} : x ∈ t.free.toList ↔ t.HasFree x := by
  rw [Std.TreeSet.mem_toList, mem_free]

end Term

/-! ### The check -/

namespace Judgement

theorem check_eq_unknownType_iff {j : Judgement} {names : List String} :
    j.check = .error (.unknownType names) ↔
      (∃ x, j.term.HasFree x) ∧ names = j.term.free.toList := by
  unfold check
  split
  · rename_i hclosed
    have hnone := Term.free_isEmpty_iff.1 hclosed
    cases j.ty.firstUnknown j.term.annotationNames <;> simp [hnone]
  · rename_i hfree
    simp only [Term.free_isEmpty_iff, not_forall, not_not] at hfree
    simp [hfree, eq_comm]

theorem check_eq_mismatchedTypes_iff {j : Judgement} {names : List String} :
    j.check = .error (.mismatchedTypes names) ↔
      (∀ x, ¬ j.term.HasFree x) ∧
      ∃ name, j.ty.firstUnknown j.term.annotationNames = some name ∧ names = [name] := by
  rw [← Term.free_isEmpty_iff]
  unfold check
  split
  · rename_i hclosed
    cases j.ty.firstUnknown j.term.annotationNames <;> simp [hclosed, eq_comm]
  · rename_i hfree
    simp [hfree]

/-- The check passes exactly the judgements about a closed expression that annotates every base
    type of the declared type.  It lists the free variables, in increasing order and each once,
    exactly where there are some.  In all other cases it names one base type: the leftmost one of
    the declared type that no annotation mentions. -/
theorem check_decides_naming (j : Judgement) :
    (j.check = .ok () ↔
      (∀ x, ¬ j.term.HasFree x) ∧ ∀ name ∈ j.ty.bases, j.term.Annotates name) ∧
    ((∃ names, j.check = .error (.unknownType names)) ↔ ∃ x, j.term.HasFree x) ∧
    (∀ names, j.check = .error (.unknownType names) →
      names.Pairwise (· < ·) ∧ ∀ x, x ∈ names ↔ j.term.HasFree x) ∧
    ((∀ x, ¬ j.term.HasFree x) → (¬ ∀ name ∈ j.ty.bases, j.term.Annotates name) →
      ∃ before name after, j.check = .error (.mismatchedTypes [name]) ∧
        j.ty.bases = before ++ name :: after ∧ ¬ j.term.Annotates name ∧
        ∀ other ∈ before, j.term.Annotates other) := by
  have hknown : j.ty.firstUnknown j.term.annotationNames = none ↔
      ∀ name ∈ j.ty.bases, j.term.Annotates name := by
    simp only [Ty.firstUnknown_eq_none_iff, Term.mem_annotationNames]
  refine ⟨?_, ?_, ?_, ?_⟩
  · rw [check_eq_ok_iff, hknown]
  · constructor
    · rintro ⟨names, h⟩
      exact (check_eq_unknownType_iff.1 h).1
    · intro h
      exact ⟨_, check_eq_unknownType_iff.2 ⟨h, rfl⟩⟩
  · intro names h
    obtain ⟨-, rfl⟩ := check_eq_unknownType_iff.1 h
    exact ⟨j.term.free_toList_pairwise, fun x => Term.mem_free_toList⟩
  · intro hclosed hunknown
    rw [← hknown] at hunknown
    obtain ⟨name, hname⟩ := Option.ne_none_iff_exists'.1 hunknown
    obtain ⟨hnot, before, after, hbases, hbefore⟩ := Ty.firstUnknown_eq_some_iff.1 hname
    simp only [Term.mem_annotationNames] at hnot hbefore
    have hcheck := check_eq_mismatchedTypes_iff.2 ⟨hclosed, name, hname, rfl⟩
    exact ⟨before, name, after, hcheck, hbases, hnot, hbefore⟩

/-- In `y (x y) : A` the free variables are sorted, and `y` is listed once.  In
    `λx^A.x : (A -> C) -> B` neither `C` nor `B` is annotated, and `C` is named. -/
theorem check_decides_naming_leftmost :
    (mk (.app (.var "y") (.app (.var "x") (.var "y"))) (.base "A")).check =
        .error (.unknownType ["x", "y"]) ∧
      ["x", "y"].Pairwise (· < ·) ∧
      (mk (.abs "x" (.base "A") (.var "x"))
        (.arrow (.arrow (.base "A") (.base "C")) (.base "B"))).check =
        .error (.mismatchedTypes ["C"]) ∧
      ∃ before after, ["A", "C", "B"] = before ++ "C" :: after ∧
        ∀ other ∈ before, (Term.abs "x" (.base "A") (.var "x")).Annotates other := by
  have hlisted : (mk (.app (.var "y") (.app (.var "x") (.var "y"))) (.base "A")).check =
      .error (.unknownType ["x", "y"]) := by rfl
  have hnamed : (mk (.abs "x" (.base "A") (.var "x"))
      (.arrow (.arrow (.base "A") (.base "C")) (.base "B"))).check =
      .error (.mismatchedTypes ["C"]) := by rfl
  have hclosed : ∀ x, ¬ (Term.abs "x" (.base "A") (.var "x")).HasFree x := by
    simp [Term.HasFree]
  have hunknown : ¬ ∀ name ∈ ["A", "C", "B"],
      (Term.abs "x" (.base "A") (.var "x")).Annotates name := by
    simp [Term.Annotates, Term.HasAnnotation, Ty.bases]
  obtain ⟨before, name, after, hcheck, hbases, -, hbefore⟩ :=
    (check_decides_naming
      (mk _ (.arrow (.arrow (.base "A") (.base "C")) (.base "B")))).2.2.2 hclosed hunknown
  cases hnamed.symm.trans hcheck
  exact ⟨hlisted, ((check_decides_naming _).2.2.1 _ hlisted).1, hnamed, before, after, hbases,
    hbefore⟩

end Judgement

end Redex
