import Mathlib.Order.Bounds.Basic
import Redex.Proofs.Reduction.Supply

/-! # The search for a fresh name, without a bound

    `Supply.fresh` looks at as many numbers as there are names in use, and takes the number
    behind them without looking.  The plain search has no such bound: it tries one number
    after the other until a candidate is not in use, and nothing in it says that it ends.

    * `turn` is one turn of the plain search, and `Finds` a search that ends, with the number
      of its turns.
    * A turn that hands out nothing passes over no unused number (`unused_of_turn_none`).  So
      a search that ends has found the least of them (`Finds.isLeast`), and where there is a
      least one the search comes to it (`finds_of_isLeast`).
    * Of `used.size + 1` numbers in a row one is unused, since distinct numbers give distinct
      candidates (`exists_candidate_not_mem`).

    Together: the plain search ends within `used.size + 1` turns, and hands out what
    `Supply.fresh` does. -/

namespace Redex.Reduction.Supply

/-! ### Turns -/

/-- One turn of the search.  The next number is used up in any case.  Its candidate is put
    into use and handed out, unless it is in use already. -/
def turn (supply : Supply) (base : String) : Option String × Supply :=
  let name := candidate base supply.next
  let supply := { supply with next := supply.next + 1 }
  if supply.used.contains name then (none, supply)
  else (some name, { supply with used := supply.used.insert name })

/-- The search takes turn after turn until one of them hands out a name.  From `supply` on it
    takes `turns` turns; the last hands out `name`, and leaves the supply `after`. -/
inductive Finds (base : String) : Supply → Nat → String → Supply → Prop where
  | found {supply after : Supply} {name : String}
      (h : supply.turn base = (some name, after)) : Finds base supply 1 name after
  | goesOn {supply supply' after : Supply} {name : String} {turns : Nat}
      (h : supply.turn base = (none, supply')) (hrest : Finds base supply' turns name after) :
      Finds base supply (turns + 1) name after

/-- The unused numbers: those from the next one on whose candidates are not in use. -/
def unused (supply : Supply) (base : String) : Set Nat :=
  {k | supply.next ≤ k ∧ candidate base k ∉ supply.used}

/-- The supply that is left when the name with this number is handed out. -/
def handOut (supply : Supply) (base : String) (number : Nat) : Supply :=
  { used := supply.used.insert (candidate base number), next := number + 1 }

section Turn

variable {supply after : Supply} {base name : String}

theorem turn_of_mem (h : candidate base supply.next ∈ supply.used) :
    supply.turn base = (none, { supply with next := supply.next + 1 }) := by
  unfold turn
  exact if_pos h

theorem turn_of_not_mem (h : candidate base supply.next ∉ supply.used) :
    supply.turn base =
      (some (candidate base supply.next), supply.handOut base supply.next) := by
  unfold turn
  exact if_neg h

/-- What a turn that hands out a name has found, and what it leaves. -/
theorem of_turn_some (h : supply.turn base = (some name, after)) :
    candidate base supply.next ∉ supply.used ∧ name = candidate base supply.next ∧
      after = supply.handOut base supply.next := by
  by_cases hmem : candidate base supply.next ∈ supply.used
  · rw [turn_of_mem hmem] at h
    cases h
  · rw [turn_of_not_mem hmem] at h
    cases h
    exact ⟨hmem, rfl, rfl⟩

/-- A turn that hands out nothing has met a name in use, and only counts on. -/
theorem of_turn_none (h : supply.turn base = (none, after)) :
    candidate base supply.next ∈ supply.used ∧
      after = { supply with next := supply.next + 1 } := by
  by_cases hmem : candidate base supply.next ∈ supply.used
  · rw [turn_of_mem hmem] at h
    cases h
    exact ⟨hmem, rfl⟩
  · rw [turn_of_not_mem hmem] at h
    cases h

/-- A turn that hands out nothing passes over no unused number. -/
theorem unused_of_turn_none (h : supply.turn base = (none, after)) :
    after.unused base = supply.unused base := by
  obtain ⟨hmem, rfl⟩ := of_turn_none h
  ext k
  show supply.next + 1 ≤ k ∧ candidate base k ∉ supply.used ↔
    supply.next ≤ k ∧ candidate base k ∉ supply.used
  constructor
  · rintro ⟨hk, hfree⟩
    exact ⟨by omega, hfree⟩
  · rintro ⟨hk, hfree⟩
    refine ⟨Nat.lt_of_le_of_ne hk ?_, hfree⟩
    rintro rfl
    exact hfree hmem

end Turn

/-! ### Searches -/

variable {supply after : Supply} {base name : String} {turns k : Nat}

/-- A search that ends has tried a number with each turn, and found the least unused one. -/
theorem Finds.isLeast (h : Finds base supply turns name after) :
    ∃ k, IsLeast (supply.unused base) k ∧ k + 1 = supply.next + turns ∧
      name = candidate base k ∧ after = supply.handOut base k := by
  induction h with
  | found h =>
    obtain ⟨hfree, rfl, rfl⟩ := of_turn_some h
    exact ⟨_, ⟨⟨le_rfl, hfree⟩, fun _ hk => hk.1⟩, rfl, rfl, rfl⟩
  | @goesOn supply _ _ _ turns h _ ih =>
    obtain ⟨k, hleast, hturns, hname, hafter⟩ := ih
    -- the unused numbers are the invariant, so the least of them is found from here on too
    rw [unused_of_turn_none h] at hleast
    obtain ⟨-, rfl⟩ := of_turn_none h
    have hturns : k + 1 = supply.next + 1 + turns := hturns
    exact ⟨k, hleast, by omega, hname, hafter⟩

/-- Where there is a least unused number, the search comes to it. -/
theorem finds_of_isLeast (h : IsLeast (supply.unused base) k) :
    Finds base supply (k - supply.next + 1) (candidate base k) (supply.handOut base k) := by
  -- by induction on the distance that is left, with the supply counting on
  induction hd : k - supply.next generalizing supply with
  | zero =>
    obtain ⟨⟨hk, hfree⟩, -⟩ := h
    obtain rfl : supply.next = k := by omega
    exact .found (turn_of_not_mem hfree)
  | succ distance ih =>
    have hmem : candidate base supply.next ∈ supply.used := by
      by_contra hfree
      have hle : k ≤ supply.next := h.2 ⟨le_rfl, hfree⟩
      omega
    have hturn := turn_of_mem hmem
    rw [← unused_of_turn_none hturn] at h
    apply Finds.goesOn hturn
    apply ih h
    show k - (supply.next + 1) = distance
    omega

/-- Where there is a least unused number, the search ends in exactly one way. -/
theorem finds_iff_of_isLeast (h : IsLeast (supply.unused base) k) :
    Finds base supply turns name after ↔
      turns = k - supply.next + 1 ∧ name = candidate base k ∧ after = supply.handOut base k := by
  constructor
  · intro hfinds
    obtain ⟨k', hleast, hturns, hname, hafter⟩ := hfinds.isLeast
    obtain rfl : k' = k := hleast.unique h
    have hk : supply.next ≤ k' := h.1.1
    exact ⟨by omega, hname, hafter⟩
  · rintro ⟨rfl, rfl, rfl⟩
    exact finds_of_isLeast h

/-- The least unused number is at most as far off as there are names in use. -/
theorem le_of_isLeast (h : IsLeast (supply.unused base) k) :
    k ≤ supply.next + supply.used.size := by
  obtain ⟨free, hfree, hle, hunused⟩ :=
    exists_candidate_not_mem supply.used base supply.next
  have hk : k ≤ free := h.2 ⟨hfree, hunused⟩
  omega

/-! ### The bounded search -/

theorem le_firstUnused (used : NameSet) (base : String) (number tries : Nat) :
    number ≤ firstUnused used base number tries := by
  fun_induction firstUnused used base number tries with
  | case1 number => exact le_rfl
  | case2 number tries hused ih => omega
  | case3 number tries hunused => exact le_rfl

/-- The bounded search finds the least unused number as well. -/
theorem isLeast_firstUnused (supply : Supply) (base : String) :
    IsLeast (supply.unused base)
      (firstUnused supply.used base supply.next supply.used.size) := by
  constructor
  · exact ⟨le_firstUnused _ _ _ _, candidate_firstUnused_not_mem _ _ _⟩
  · intro k hk
    by_contra hlt
    exact hk.2 (mem_of_lt_firstUnused hk.1 (Nat.lt_of_not_le hlt))

/-- Whatever names are in use and wherever counting stands, the plain search ends in exactly
    one way.  It takes at most one turn more than there are names in use, and it hands out what
    `fresh` does: the base with the least number, from the next one on, that makes a name not
    in use.  Counting goes on behind this number, and this name alone is put into use. -/
theorem fresh_least_unused (supply : Supply) (base : String) :
    ∃ k, IsLeast {k | supply.next ≤ k ∧ base ++ toString k ∉ supply.used} k ∧
      (∀ turns name after, Finds base supply turns name after ↔
        turns = k - supply.next + 1 ∧ (name, after) = supply.fresh base) ∧
      k - supply.next + 1 ≤ supply.used.size + 1 ∧
      (supply.fresh base).1 = base ++ toString k ∧
      (supply.fresh base).2.next = k + 1 ∧
      ∀ x, x ∈ (supply.fresh base).2.used ↔ x ∈ supply.used ∨ x = base ++ toString k := by
  have hleast := isLeast_firstUnused supply base
  have hbound := le_of_isLeast hleast
  refine ⟨_, hleast, ?_, by omega, rfl, rfl, ?_⟩
  · intro turns name after
    rw [finds_iff_of_isLeast hleast, ← Prod.mk.injEq]
    rfl
  · intro x
    rw [mem_fresh_used, or_comm]
    rfl

/-- The base `x1` ends with a digit itself.  The names `x11` and `x12` are passed over; `x1` is in
    use as well, but no candidate. -/
example :
    let (name, after) := (⟨.ofList ["x1", "x11", "x12"], 1⟩ : Supply).fresh "x1"
    name = "x13" ∧ after.next = 4 ∧ after.used.toList = ["x1", "x11", "x12", "x13"] := by
  decide +kernel

end Redex.Reduction.Supply
