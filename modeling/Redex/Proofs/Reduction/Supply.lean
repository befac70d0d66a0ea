import Mathlib.Data.List.Nodup
import Mathlib.Data.List.Perm.Subperm
import Std.Data.String.ToNat
import Redex.Proofs.Term.Names
import Redex.Reduction.Progress

/-! # Fresh names are new

    The search for a fresh name looks at as many numbers as there are names in use.  If all
    of them were taken, and the number behind them too, the names in use would be more than
    there are: distinct numbers give distinct candidates.  So the name handed out is not in
    use, and from then on it is. -/

namespace Redex.Reduction.Supply

/-! ### The search -/

theorem candidate_injective (base : String) : Function.Injective (candidate base) := by
  intro m n h
  exact Nat.repr_injective ((String.append_right_inj base).1 h)

/-- The numbers that the search passes over are taken. -/
theorem mem_of_lt_firstUnused {used : NameSet} {base : String} {number tries k : Nat}
    (hk : number ≤ k) (hlt : k < firstUnused used base number tries) :
    candidate base k ∈ used := by
  fun_induction firstUnused used base number tries with
  | case1 number => omega
  | case2 number tries hused ih =>
    rcases Nat.eq_or_lt_of_le hk with rfl | hk
    · exact hused
    · exact ih hk hlt
  | case3 number tries hunused => omega

/-- The search ends at a number that is not taken, or behind its last try. -/
theorem firstUnused_not_mem_or (used : NameSet) (base : String) (number tries : Nat) :
    candidate base (firstUnused used base number tries) ∉ used ∨
      firstUnused used base number tries = number + tries := by
  fun_induction firstUnused used base number tries with
  | case1 number => exact Or.inr rfl
  | case2 number tries hused ih =>
    rcases ih with h | h
    · exact Or.inl h
    · exact Or.inr (by omega)
  | case3 number tries hunused => exact Or.inl hunused

/-- As many consecutive candidates as there are names in use cannot all be in use
    together with the next one. -/
theorem exists_candidate_not_mem (used : NameSet) (base : String) (number : Nat) :
    ∃ k, number ≤ k ∧ k ≤ number + used.size ∧ candidate base k ∉ used := by
  by_contra hall
  push Not at hall
  let candidates := (List.range (used.size + 1)).map fun i => candidate base (number + i)
  have hnodup : candidates.Nodup := by
    apply List.Nodup.map _ List.nodup_range
    intro i j hij
    have := candidate_injective base hij
    omega
  have hsub : candidates ⊆ used.toList := by
    intro name hname
    obtain ⟨i, hi, rfl⟩ := List.mem_map.1 hname
    have hi := List.mem_range.1 hi
    exact Std.TreeSet.mem_toList.2 (hall (number + i) (by omega) (by omega))
  have hlen := (List.Nodup.subperm hnodup hsub).length_le
  rw [Std.TreeSet.length_toList, List.length_map, List.length_range] at hlen
  omega

/-- With as many tries as there are names in use, the search succeeds. -/
theorem candidate_firstUnused_not_mem (used : NameSet) (base : String) (number : Nat) :
    candidate base (firstUnused used base number used.size) ∉ used := by
  rcases firstUnused_not_mem_or used base number used.size with h | h
  · exact h
  · obtain ⟨k, hk, hle, hfree⟩ := exists_candidate_not_mem used base number
    rcases Nat.eq_or_lt_of_le hle with rfl | hlt
    · rwa [h]
    · exact absurd (mem_of_lt_firstUnused hk (h ▸ hlt)) hfree

/-! ### Handing out names -/

variable (supply : Supply) (base : String)

theorem fresh_not_mem : (supply.fresh base).1 ∉ supply.used :=
  candidate_firstUnused_not_mem supply.used base supply.next

theorem mem_fresh_used (x : String) :
    x ∈ (supply.fresh base).2.used ↔ x = (supply.fresh base).1 ∨ x ∈ supply.used := by
  unfold fresh
  rw [Std.TreeSet.mem_insert, Std.compare_eq_iff_eq]
  exact or_congr_left eq_comm

theorem mem_reserve_used (t : Term) (x : String) :
    x ∈ (supply.reserve t).used ↔ x ∈ supply.used ∨ t.Mentions x :=
  Term.mem_addNames t supply.used x

theorem namedIn_ofTerm (t : Term) : t.NamedIn (ofTerm t).used :=
  fun _ hx => Term.mem_names.2 hx

end Redex.Reduction.Supply
