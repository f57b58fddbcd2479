import PolicyForge.Framework.Identity
import PolicyForge.Proofs.Framework.Lenient
import PolicyForge.Proofs.Framework.Precedence
/-!
# The greatest runtime that is installed

A listing names a version of the shared framework on each line whose first word is the name of the
framework and whose second word can be read as a version (`Lists`).  Of these versions the greatest
is the runtime that is found (`IsHighest`).  Since versions of one rank are the same version,
neither the order of the lines nor what else is installed makes a difference (`highestListed_spec`).
-/
namespace PolicyForge.RuntimeIdentity

open Text

/-- The line is about the shared framework in this version. -/
def LineLists (line : List Char) (v : Version) : Prop :=
  ∃ word rest, words line = sharedFramework.toList :: word :: rest ∧
    Version.parseLenient (String.ofList word) = some v

def Lists (listing : String) (v : Version) : Prop := ∃ line ∈ lines listing.toList, LineLists line v

/-- The runtime of the greatest version of the shared framework that is listed. -/
structure IsHighest (listing : String) (r : RuntimeIdentity) : Prop where
  listed : Lists listing r.version
  greatest : ∀ v, Lists listing v → v.rank ≤ r.version.rank
  family : r.family = if 5 ≤ r.version.major then .modern else .core

/-! ## Lines and listings -/

theorem listedVersion?_eq_some_iff {line : List Char} {v : Version} :
    listedVersion? line = some v ↔ LineLists line v := by
  unfold listedVersion?
  constructor
  · intro h
    split at h
    · rename_i name word rest hwords
      split at h
      · rename_i hname
        rw [beq_iff_eq] at hname
        exact ⟨word, rest, hname ▸ hwords, h⟩
      · cases h
    · cases h
  · rintro ⟨word, rest, hwords, hv⟩
    rw [hwords]
    exact (if_pos (beq_self_eq_true _)).trans hv

theorem LineLists.isSemantic {line : List Char} {v : Version} (h : LineLists line v) : v.IsSemantic := by
  obtain ⟨_, _, -, hv⟩ := h
  exact Version.isSemantic_of_parseLenient hv

def versionsOn (ls : List (List Char)) : List Version := ls.filterMap listedVersion?

theorem mem_versionsOn {ls : List (List Char)} {v : Version} :
    v ∈ versionsOn ls ↔ ∃ line ∈ ls, LineLists line v := by
  simp only [versionsOn, List.mem_filterMap, listedVersion?_eq_some_iff]

/-- Lines that list nothing can stand wherever they like. -/
theorem mem_versionsOn_of_perm {ls ls' extra : List (List Char)} (hperm : ls'.Perm (ls ++ extra))
    (hextra : ∀ line ∈ extra, ∀ v, ¬LineLists line v) {v : Version} :
    v ∈ versionsOn ls' ↔ v ∈ versionsOn ls := by
  simp only [mem_versionsOn, hperm.mem_iff, List.mem_append]
  constructor
  · rintro ⟨line, hline | hline, hv⟩
    · exact ⟨line, hline, hv⟩
    · exact absurd hv (hextra line hline v)
  · rintro ⟨line, hline, hv⟩
    exact ⟨line, .inl hline, hv⟩

/-! ## The greatest version -/

theorem highestListed_eq_some_iff {listing : String} {r : RuntimeIdentity} :
    highestListed listing = some r ↔ IsHighest listing r := by
  have hversions : ∀ w ∈ versionsOn (lines listing.toList), w.IsSemantic := by
    intro w hw
    obtain ⟨_, -, hlists⟩ := mem_versionsOn.1 hw
    exact hlists.isSemantic
  have hgreatest : highestListed listing = some r ↔
      ∃ v, Version.greatest (versionsOn (lines listing.toList)) = some v ∧ ofFrameworkVersion v = r :=
    Option.map_eq_some_iff
  rw [hgreatest]
  simp only [Version.greatest_eq_some_iff hversions, mem_versionsOn]
  constructor
  · rintro ⟨v, ⟨hlisted, hmax⟩, rfl⟩
    exact ⟨hlisted, hmax, rfl⟩
  · rintro ⟨hlisted, hmax, hfamily⟩
    refine ⟨r.version, ⟨hlisted, hmax⟩, ?_⟩
    rw [ofFrameworkVersion, ← hfamily]

theorem isSome_highestListed_iff {listing : String} :
    (highestListed listing).isSome = true ↔ ∃ v, Lists listing v := by
  have hsome : (highestListed listing).isSome =
      (Version.greatest (versionsOn (lines listing.toList))).isSome :=
    Option.isSome_map
  have hlists : (∃ v, Lists listing v) ↔ ∃ v, v ∈ versionsOn (lines listing.toList) :=
    exists_congr fun v => mem_versionsOn.symm
  rw [hsome, hlists]
  cases versionsOn (lines listing.toList) with
  | nil => simp [Version.greatest]
  | cons v rest => exact ⟨fun _ => ⟨v, List.mem_cons_self⟩, fun _ => rfl⟩

/-- **The greatest version of the shared framework is found.**  There is one if and only if a line
lists one; no version that is listed is above it; and listings that list the same lines in another
order, or lines between them about anything but versions of the shared framework, have the same. -/
theorem highestListed_spec (listing : String) :
    (∀ r, highestListed listing = some r ↔ IsHighest listing r) ∧
    ((highestListed listing).isSome = true ↔ ∃ v, Lists listing v) ∧
    (∀ other extra, (lines other.toList).Perm (lines listing.toList ++ extra) →
      (∀ line ∈ extra, ∀ v, ¬LineLists line v) → highestListed other = highestListed listing) := by
  refine ⟨fun r => highestListed_eq_some_iff, isSome_highestListed_iff,
    fun other extra hperm hextra => ?_⟩
  have hlists : ∀ v, Lists other v ↔ Lists listing v := fun v =>
    mem_versionsOn.symm.trans ((mem_versionsOn_of_perm hperm hextra).trans mem_versionsOn)
  have hhighest : ∀ r, IsHighest other r ↔ IsHighest listing r := fun r =>
    ⟨fun h => ⟨(hlists _).1 h.listed, fun v hv => h.greatest v ((hlists v).2 hv), h.family⟩,
      fun h => ⟨(hlists _).2 h.listed, fun v hv => h.greatest v ((hlists v).1 hv), h.family⟩⟩
  exact Option.ext fun r =>
    highestListed_eq_some_iff.trans ((hhighest r).trans highestListed_eq_some_iff.symm)

/-- The tenth pre-release is above the ninth one, and another framework may stand between them. -/
theorem highestListed_spec_preRelease :
    IsHighest "Microsoft.NETCore.App 8.0.0-rc.10\nMicrosoft.NETCore.App 8.0.0-rc.9"
      ⟨.modern, 8, 0, 0, "rc.10", ""⟩ ∧
    highestListed
        "Microsoft.NETCore.App 8.0.0-rc.9\nMicrosoft.AspNetCore.App 9.0.1\nMicrosoft.NETCore.App 8.0.0-rc.10\n" =
      some ⟨.modern, 8, 0, 0, "rc.10", ""⟩ := by
  have hlisted : highestListed "Microsoft.NETCore.App 8.0.0-rc.10\nMicrosoft.NETCore.App 8.0.0-rc.9" =
      some ⟨.modern, 8, 0, 0, "rc.10", ""⟩ := by decide +kernel
  have hextra : ∀ line ∈ ["Microsoft.AspNetCore.App 9.0.1".toList], ∀ v, ¬LineLists line v := by
    intro line hline v hv
    rw [List.mem_singleton.1 hline, ← listedVersion?_eq_some_iff] at hv
    have hnone : listedVersion? "Microsoft.AspNetCore.App 9.0.1".toList = none := by decide +kernel
    rw [hnone] at hv
    cases hv
  refine ⟨((highestListed_spec _).1 _).1 hlisted,
    ((highestListed_spec _).2.2 _ _ ?_ hextra).trans hlisted⟩
  -- the same two lines the other way round, and the line of the other framework
  decide +kernel

end PolicyForge.RuntimeIdentity
