import PolicyForge.Proofs.Text.Lines
import PolicyForge.Source.Name
/-!
# The characters of names

A legal name holds nothing but characters that may stand in a name; a dotted one holds dots
besides.  So no name holds a character that means anything else in source.
-/
namespace PolicyForge.Source

open Text

def isPathPart (c : Char) : Bool := c == '.' || isMemberPart c

theorem isPathPart_of_isMemberPart {c : Char} (h : isMemberPart c = true) : isPathPart c = true := by
  rw [isPathPart, h, Bool.or_true]

theorem isMemberPart_of_isNamePart {c : Char} (h : isNamePart c = true) :
    isMemberPart c = true := by
  rw [isMemberPart, h, Bool.or_true]

/-- A legal name holds characters that are kept, and it may start with an underscore. -/
theorem isMemberPart_of_mem_legalName {keep : Char → Bool} {lead : Bool} {name : List Char}
    (hkeep : ∀ c, keep c = true → isMemberPart c = true) {c : Char}
    (h : c ∈ legalName keep lead name) : isMemberPart c = true := by
  have hkept : c ∈ name.filter keep → isMemberPart c = true := fun hc =>
    hkeep c (List.mem_filter.1 hc).2
  unfold legalName at h
  split at h
  · cases h
  · dsimp only at h
    split at h
    · exact hkept h
    · rcases List.mem_cons.1 h with rfl | h
      · rfl
      · exact hkept h

theorem isPathPart_of_mem_typeChars {name : List Char} {c : Char} (h : c ∈ typeChars name) :
    isPathPart c = true :=
  isPathPart_of_isMemberPart
    (isMemberPart_of_mem_legalName (fun _ => isMemberPart_of_isNamePart) h)

theorem isPathPart_of_mem_memberChars {name : List Char} {c : Char} (h : c ∈ memberChars name) :
    isPathPart c = true :=
  isPathPart_of_isMemberPart (isMemberPart_of_mem_legalName (fun _ hc => hc) h)

theorem isPathPart_of_mem_namespaceChars {name : List Char} {c : Char}
    (h : c ∈ namespaceChars name) : isPathPart c = true := by
  rcases mem_join h with hc | ⟨segment, hsegment, hc⟩
  · rw [List.mem_singleton.1 hc]
    rfl
  · rw [segments, List.mem_filter, List.mem_map] at hsegment
    obtain ⟨⟨s, -, rfl⟩, -⟩ := hsegment
    exact isPathPart_of_mem_typeChars hc

end PolicyForge.Source
