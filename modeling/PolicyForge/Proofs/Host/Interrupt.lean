import PolicyForge.Host.Interrupt
/-!
# Looks at an interrupt

An interrupt is quiet up to some look and set from then on (`isSet_afterLooks`).
-/
namespace PolicyForge

namespace Interrupt

/-- The interrupt is still quiet at the look number `n`, counted from zero. -/
def QuietAt (i : Interrupt) (n : Nat) : Prop := ∀ k, i.quietFor = some k → n < k

/-- The interrupt after `n` looks at it. -/
def afterLooks (i : Interrupt) (n : Nat) : Interrupt := ⟨i.quietFor.map (· - n)⟩

theorem afterLook_afterLooks (i : Interrupt) (n : Nat) :
    (i.afterLooks n).afterLook = i.afterLooks (n + 1) := by
  cases i with
  | mk quietFor =>
    cases quietFor with
    | none => rfl
    | some k => simp [afterLooks, afterLook, Nat.sub_sub]

theorem afterLook_thrice (i : Interrupt) : i.afterLook.afterLook.afterLook = i.afterLooks 3 := by
  have hone : i.afterLook = i.afterLooks 1 := rfl
  rw [hone, afterLook_afterLooks, afterLook_afterLooks]

/-- A look that none before it has found set is the first to find it set, or finds it quiet. -/
theorem isSet_afterLooks {i : Interrupt} {n : Nat} (h : ∀ m < n, i.QuietAt m) :
    (i.afterLooks n).isSet = true ∧ i.quietFor = some n ∨
      (i.afterLooks n).isSet = false ∧ i.QuietAt n := by
  cases hk : i.quietFor with
  | none =>
    right
    refine ⟨by simp [isSet, afterLooks, hk], ?_⟩
    intro k h'
    rw [hk] at h'
    cases h'
  | some k =>
    have hle : n ≤ k := by
      refine Nat.le_of_not_lt fun hlt => ?_
      have := h k hlt k hk
      omega
    rcases Nat.eq_or_lt_of_le hle with rfl | hlt
    · left
      simp [isSet, afterLooks, hk]
    · right
      refine ⟨?_, ?_⟩
      · simp only [isSet, afterLooks, hk, Option.map_some]
        simp only [beq_eq_false_iff_ne, ne_eq, Option.some.injEq]
        omega
      · intro j hj
        rw [hk, Option.some.injEq] at hj
        omega

theorem isSet_eq_false_iff {i : Interrupt} : i.isSet = false ↔ i.QuietAt 0 := by
  rcases i with ⟨_ | k⟩
  · simp [isSet, QuietAt]
  · cases k <;> simp [isSet, QuietAt]

theorem quietAt_afterLook {i : Interrupt} {n : Nat} : i.afterLook.QuietAt n ↔ i.QuietAt (n + 1) := by
  rcases i with ⟨_ | k⟩
  · simp [afterLook, QuietAt]
  · simp [afterLook, QuietAt]
    omega

theorem quietAt_quiet (n : Nat) : quiet.QuietAt n := nofun

theorem QuietAt.mono {i : Interrupt} {m n : Nat} (h : i.QuietAt n) (hmn : m ≤ n) : i.QuietAt m :=
  fun k hk => Nat.lt_of_le_of_lt hmn (h k hk)

end Interrupt

end PolicyForge
