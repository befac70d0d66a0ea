import Redex.Proofs.Phrase.Reading
import Redex.Proofs.Reduction.Labels
import Redex.Proofs.Reduction.Simulation
import Redex.Reducer

/-! # Reduced phrases

    Reduction keeps what a phrase needs in order to be printed and read again.  A fresh name is
    the name of a binder with digits behind it, so it is read as a binder again, and its
    annotation stays with it.  No part goes missing.

    No name becomes free.  So a judgement that passes the naming check, and is then reduced, can
    only fail it for a base type whose annotations have all gone
    (`Judgement.check_of_hasFree`). -/

namespace Redex

open Function Reduction Text

/-! ### Fresh names can be read -/

namespace Token

theorem isAlphanumeric_of_isDigit {c : Char} (h : c.isDigit = true) : isAlphanumeric c = true := by
  have hascii : c.toNat < 0x80 := by
    rw [isDigit_iff] at h
    omega
  simp [isAlphanumeric, isDecimal, hascii, h]

theorem isName_mono {first next next' : Char → Bool} (hnext : ∀ c, next c = true → next' c = true)
    {name : String} (h : isName first next name = true) : isName first next' name = true := by
  obtain ⟨c, text, rfl, hc, htext⟩ := exists_of_isName h
  exact isName_ofList hc fun d hd => hnext d (htext d hd)

/-- A name with a number behind it is a name. -/
theorem isName_candidate {first next : Char → Bool}
    (hdigit : ∀ c, c.isDigit = true → next c = true) {base : String}
    (h : isName first next base = true) (number : Nat) :
    isName first next (Supply.candidate base number) = true := by
  obtain ⟨c, text, rfl, hc, htext⟩ := exists_of_isName h
  have hname : Supply.candidate (String.ofList (c :: text)) number =
      String.ofList (c :: (text ++ Nat.toDigits 10 number)) := by
    show String.ofList (c :: text) ++ String.ofList (Nat.toDigits 10 number) = _
    rw [← String.ofList_append]
    rfl
  rw [hname]
  refine isName_ofList hc fun d hd => ?_
  rcases List.mem_append.1 hd with hd | hd
  · exact htext d hd
  · exact hdigit d (Nat.isDigit_of_mem_toDigits (by decide) (by decide) hd)

theorem isBinderName_candidate {base : String} (h : isBinderName base = true) (number : Nat) :
    isBinderName (Supply.candidate base number) = true := by
  refine isName_candidate (fun c hc => ?_) h number
  have hne : c ≠ 'λ' := by
    rintro rfl
    exact absurd hc (by decide)
  simp [isAlphanumeric_of_isDigit hc, hne]

theorem isVariableName_of_isBinderName {name : String} (h : isBinderName name = true) :
    isVariableName name = true := by
  refine isName_mono (fun c hc => ?_) h
  rw [Bool.and_eq_true] at hc
  exact hc.1

end Token

/-! ### Reduced terms -/

open Token

/-- The label is one of a term that can be read in the mode. -/
def Label.Readable (mode : Mode) : Label → Prop
  | .missing => False
  | .var name => isVariableName name = true
  | .abs binder ty =>
    isBinderName binder = true ∧ (ty = .missing ∨ ty.wellNamed = true) ∧
      mode.isTyped = (ty != .missing)

theorem Label.readable_renewable (mode : Mode) : Label.Renewable (Label.Readable mode) := by
  rintro binder ty number ⟨hbinder, hty, hmode⟩
  have hfresh := isBinderName_candidate hbinder number
  exact ⟨⟨hfresh, hty, hmode⟩, isVariableName_of_isBinderName hfresh⟩

/-- Whether a term can be read is a matter of its labels. -/
theorem Term.readable_iff_every {mode : Mode} {t : Term} :
    t.Readable mode ↔ t.Every (Label.Readable mode) := by
  induction t with
  | missing =>
    constructor
    · intro h
      exact absurd h.wellNamed (by simp [wellNamed])
    · exact False.elim
  | var name => exact ⟨fun h => h.wellNamed, Readable.var⟩
  | abs binder ty body ih =>
    rw [Every, ← ih]
    constructor
    · intro h
      have hnames := h.wellNamed
      have hfits := h.fits
      simp only [wellNamed, fits, Bool.and_eq_true, Bool.or_eq_true, beq_iff_eq] at hnames hfits
      exact ⟨⟨hnames.1.1, hnames.1.2, hfits.1⟩, hnames.2, hfits.2⟩
    · rintro ⟨⟨hbinder, hty, hmode⟩, hbody⟩
      constructor
      · simp [wellNamed, hbinder, hty, hbody.wellNamed]
      · simp [fits, hmode, hbody.fits]
  | app fn arg ihf iha =>
    rw [Every, ← ihf, ← iha]
    constructor
    · intro h
      have hnames := h.wellNamed
      have hfits := h.fits
      simp only [wellNamed, fits, Bool.and_eq_true] at hnames hfits
      exact ⟨⟨hnames.1, hfits.1⟩, hnames.2, hfits.2⟩
    · rintro ⟨hfn, harg⟩
      exact hfn.app harg

namespace Reducer

variable {r : Reducer} {t n : Term}

theorem normalizes_of_reduce (h : (r.reduce t).1 = .ok n) :
    Normalizes t (.ofTerm t) n (r.reduce t).2.progress :=
  normalizes_of_visit (Prod.ext h rfl)

theorem readable_of_reduce {mode : Mode} (h : (r.reduce t).1 = .ok n) (ht : t.Readable mode) :
    n.Readable mode := by
  rw [Term.readable_iff_every] at ht ⊢
  exact (normalizes_of_reduce h).every (Label.readable_renewable mode) ht

/-- Reduction makes no name free.  What a name that is not free stands for does not matter to
    the reduction, so it does not matter to the result. -/
theorem hasFree_of_reduce {x : String} (h : (r.reduce t).1 = .ok n) (hx : n.HasFree x) :
    t.HasFree x := by
  by_contra hfree
  let env : Env := update .free x (.bound 0)
  have henv : env.Simple := by
    intro y
    by_cases hy : y = x
    · simp [env, hy, Nameless.isVar]
    · simp [env, hy, Nameless.isVar]
  have hnamed := Supply.namedIn_ofTerm t
  have hplain := visit_agrees r.ceiling r.ceiling t (.ofTerm t) .free hnamed Env.simple_free
  have hother := visit_agrees r.ceiling r.ceiling t (.ofTerm t) env hnamed henv
  have hrun : visit r.ceiling r.ceiling t (.ofTerm t) = (.ok n, (r.reduce t).2.progress) :=
    Prod.ext h rfl
  rw [hrun] at hplain hother
  rw [Term.namelessIn_update_of_not_free .free _ hfree] at hother
  have hforms := hother.eq_of_ok.symm.trans hplain.eq_of_ok
  have hsame : n.namelessIn env = n.namelessIn .free :=
    Option.some.inj (congrArg Prod.fst hforms)
  have hmeaning := (Term.namelessIn_eq_iff n env .free).1 hsame x hx
  simp [env] at hmeaning

end Reducer

/-! ### Reduced judgements -/

theorem Term.free_isEmpty_iff {t : Term} : t.free.isEmpty = true ↔ ∀ x, ¬ t.HasFree x := by
  rw [Std.TreeSet.isEmpty_iff_forall_not_mem]
  simp only [mem_free]

/-- A base type that is unknown to one set of names, where another set knows them all. -/
theorem Ty.mem_of_firstUnknown {known known' : NameSet} {ty : Ty} {name : String}
    (hunknown : ty.firstUnknown known = some name) (hknown : ty.firstUnknown known' = none) :
    name ∉ known ∧ name ∈ known' := by
  induction ty with
  | missing => cases hunknown
  | base base =>
    simp only [firstUnknown] at hunknown hknown
    split at hunknown
    · cases hunknown
    · rename_i hnot
      cases hunknown
      split at hknown
      · rename_i hmem
        exact ⟨hnot, hmem⟩
      · cases hknown
  | arrow source target ihs iht =>
    simp only [firstUnknown, Option.or_eq_none_iff, Option.or_eq_some_iff] at hunknown hknown
    rcases hunknown with hsource | ⟨-, htarget⟩
    · exact ihs hsource hknown.1
    · exact iht htarget hknown.2

namespace Judgement

theorem check_eq_ok_iff {j : Judgement} :
    j.check = .ok () ↔
      (∀ x, ¬ j.term.HasFree x) ∧ j.ty.firstUnknown j.term.annotationNames = none := by
  rw [← Term.free_isEmpty_iff]
  unfold check
  split
  · rename_i hclosed
    cases j.ty.firstUnknown j.term.annotationNames <;> simp [hclosed]
  · rename_i hfree
    simp [hfree]

/-- A judgement that has passed the check, about an expression in which no other names are free:
    it passes, or a base type of the declared type has lost all of its annotations. -/
theorem check_of_hasFree {j : Judgement} {n : Term} (hcheck : j.check = .ok ())
    (hfree : ∀ x, n.HasFree x → j.term.HasFree x) :
    check ⟨n, j.ty⟩ = .ok () ∨
    ∃ name, check ⟨n, j.ty⟩ = .error (.mismatchedTypes [name]) ∧
      name ∈ j.term.annotationNames ∧ name ∉ n.annotationNames := by
  obtain ⟨hclosed, hknown⟩ := check_eq_ok_iff.1 hcheck
  have hclosed' : n.free.isEmpty = true :=
    Term.free_isEmpty_iff.2 fun x hx => hclosed x (hfree x hx)
  unfold check
  rw [if_pos hclosed']
  cases hunknown : j.ty.firstUnknown n.annotationNames with
  | none => exact .inl rfl
  | some name =>
    obtain ⟨hgone, hwas⟩ := Ty.mem_of_firstUnknown hunknown hknown
    exact .inr ⟨name, rfl, hwas, hgone⟩

end Judgement

end Redex
