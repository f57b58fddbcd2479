import PolicyForge.Framework.Identity
import PolicyForge.Proofs.Framework.Lenient
import PolicyForge.Proofs.Text.Words
/-!
# Runtimes by their descriptions

The description of a runtime is read back as the runtime (`text_readBack`).  Its version is the last word,
which starts with a figure; and the name of the modern family, with which those of three others start,
is followed by that figure and not by what goes on in the others.
-/
namespace PolicyForge.RuntimeIdentity

open Text

theorem toList_text (r : RuntimeIdentity) :
    r.text.toList = r.family.description.toList ++ ' ' :: r.version.text.toList := by
  rw [text, String.toList_append, String.toList_append, List.append_assoc]
  rfl

theorem exists_text_cons (v : Version) : ∃ d s, v.text.toList = d :: s ∧ isAsciiDigit d = true := by
  rw [Version.toList_text]
  cases hdigits : Nat.toDigits 10 v.major with
  | nil => exact absurd hdigits Nat.toDigits_ne_nil
  | cons d ds =>
    exact ⟨d, _, rfl, isAsciiDigit_of_mem_toDigits (by rw [hdigits]; exact List.mem_cons_self)⟩

theorem isBlank_of_mem_text {v : Version} (hv : v.IsSemantic) {c : Char} (hc : c ∈ v.text.toList) :
    isBlank c = false := by
  have hrange : 0x2B ≤ c.toNat ∧ c.toNat ≤ 0x7A := by
    rcases Version.mem_text hv.isSpelled hc with h | rfl
    · have hval : c.toNat = c.val.toNat := rfl
      simp [Version.isLabelChar, Version.isIdentifierChar, isAsciiLetter, isAsciiDigit, Char.le_def,
        UInt32.le_iff_toNat_le] at h
      rcases h with (h | rfl) | rfl
      · omega
      · decide
      · decide
    · decide
  simp [isBlank]
  omega

theorem versionWord_text {r : RuntimeIdentity} (hr : r.version.IsSemantic) :
    versionWord r.text = some r.version.text.toList := by
  obtain ⟨d, s, hs, hd⟩ := exists_text_cons r.version
  have hne : r.version.text.toList ≠ [] := by
    rw [hs]
    exact List.cons_ne_nil d s
  rw [versionWord, toList_text, words_append_word (by decide) hne fun c hc => isBlank_of_mem_text hr hc,
    List.reverse_append, List.reverse_singleton, List.singleton_append]
  refine List.find?_cons_of_pos ?_
  rw [hs]
  exact hd

/-- A figure behind the name of the modern family keeps the other families out. -/
theorem isPrefixOf_modern {d : Char} (hd : isAsciiDigit d = true) (s : List Char) {f : RuntimeFamily}
    (hf : f ∈ [RuntimeFamily.native, .framework, .core]) :
    f.description.toList.isPrefixOf (RuntimeFamily.modern.description.toList ++ ' ' :: d :: s) =
      false := by
  have hletter : ∀ {c : Char} (w : List Char), isAsciiDigit c = false →
      ('.' :: 'N' :: 'E' :: 'T' :: ' ' :: c :: w).isPrefixOf
        ('.' :: 'N' :: 'E' :: 'T' :: ' ' :: d :: s) = false := by
    intro c w hc
    have hne : (c == d) = false := beq_eq_false_iff_ne.2 (ne_of_holds (p := isAsciiDigit) hd hc).symm
    simp [List.isPrefixOf, hne]
  simp only [List.mem_cons, List.not_mem_nil, or_false] at hf
  rcases hf with rfl | rfl | rfl
  · exact hletter "ative".toList (by decide)
  · exact hletter "ramework".toList (by decide)
  · exact hletter "ore".toList (by decide)

/-- **The family is recognised in front of a version.** -/
theorem classify_text (r : RuntimeIdentity) : RuntimeFamily.classify r.text = r.family := by
  obtain ⟨d, s, hs, hd⟩ := exists_text_cons r.version
  rw [RuntimeFamily.classify, toList_text, hs]
  cases r.family with
  | native => rfl
  | framework => rfl
  | core => rfl
  | modern =>
    have hfind : RuntimeFamily.recognised.find? (fun f =>
        f.description.toList.isPrefixOf
          (RuntimeFamily.modern.description.toList ++ ' ' :: d :: s)) = some .modern := by
      refine List.find?_eq_some_iff_append.2 ⟨rfl, [.native, .framework, .core], [], rfl, fun f hf => ?_⟩
      rw [isPrefixOf_modern hd s hf]
      rfl
    exact congrArg (Option.getD · .unknown) hfind
  | unknown => rfl

theorem parse_text_of_isSemantic {r : RuntimeIdentity} (hr : r.version.IsSemantic) :
    parse r.text = some r := by
  simp only [parse, versionWord_text hr, Option.bind_eq_bind, Option.bind_some,
    String.ofList_toList, hr.parseLenient_text, classify_text]
  rfl

theorem isSupported_ofFrameworkVersion (v : Version) :
    (ofFrameworkVersion v).isSupported = true ↔ 3 ≤ v.major := by
  have hfamily : (ofFrameworkVersion v).family.isSupported = true := by
    unfold ofFrameworkVersion
    dsimp only
    split <;> rfl
  rw [isSupported, hfamily, Bool.true_and]
  exact decide_eq_true_iff

/-- **The description of a runtime is read back as the runtime**, of every family and with whatever
labels its version has.  So the runtime of a version of the shared framework keeps its family, and
whether there are references for it. -/
theorem text_readBack :
    (∀ r : RuntimeIdentity, r.version.IsSemantic → parse r.text = some r) ∧
    (∀ v : Version, v.IsSemantic → ∃ r, parse (ofFrameworkVersion v).text = some r ∧
      r.family = (ofFrameworkVersion v).family ∧ r.isSupported = (ofFrameworkVersion v).isSupported ∧
      (r.isSupported = true ↔ 3 ≤ v.major)) := by
  refine ⟨fun r hr => parse_text_of_isSemantic hr, fun v hv => ?_⟩
  exact ⟨ofFrameworkVersion v, parse_text_of_isSemantic hv, rfl, rfl, isSupported_ofFrameworkVersion v⟩

/-- A version whose labels hold hyphens, figures and zeros in front of them. -/
theorem text_readBack_labelled : (⟨9, 0, 100, "rc-1.0a.7", "007.x"⟩ : Version).IsSemantic ∧
    parse ".NET Framework 9.0.100-rc-1.0a.7+007.x" =
      some ⟨.framework, 9, 0, 100, "rc-1.0a.7", "007.x"⟩ ∧
    ∃ r, parse ".NET 9.0.100-rc-1.0a.7+007.x" = some r ∧ r.family = .modern ∧ r.isSupported = true := by
  have hv : (⟨9, 0, 100, "rc-1.0a.7", "007.x"⟩ : Version).IsSemantic := by decide
  have hframework : (⟨.framework, 9, 0, 100, "rc-1.0a.7", "007.x"⟩ : RuntimeIdentity).text =
      ".NET Framework 9.0.100-rc-1.0a.7+007.x" := by decide +kernel
  have hmodern : (ofFrameworkVersion ⟨9, 0, 100, "rc-1.0a.7", "007.x"⟩).text =
      ".NET 9.0.100-rc-1.0a.7+007.x" := by
    decide +kernel
  obtain ⟨r, hr, hfamily, -, hsupported⟩ := text_readBack.2 _ hv
  rw [hmodern] at hr
  refine ⟨hv, ?_, r, hr, hfamily, hsupported.2 (by decide)⟩
  rw [← hframework]
  exact text_readBack.1 _ hv

end PolicyForge.RuntimeIdentity
