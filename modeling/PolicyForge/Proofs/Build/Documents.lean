import PolicyForge.Proofs.Build.Overwriting
import PolicyForge.Proofs.Data.Xml
/-!
# The documents next to a build

Projects, manifests and scripts are XML documents in which the name of the assembly and that of the
project stand as they are.  So the documents say these names exactly if XML has no other use for any
part of them (`carries_iff`): what stands before and after a name is read once, and a name in between
is read as it is if it is literal, and only then.
-/
namespace PolicyForge.Build

open Act Xml State

/-- The text of a project, of its manifest and of a script are well-formed, and say the names that
they have been given. -/
structure Carries (assembly project csproj manifest script : String) : Prop where
  inProject : ∃ ts, read csproj = some ts ∧
    contents "HintPath" ts = [some (assembly ++ ".dll").toList] ∧
    attributeValues "Reference" "Include" ts = [assembly.toList]
  inManifest : ∃ ts, read manifest = some ts ∧
    attributeValues "assemblyIdentity" "name" ts = [(project ++ ".app").toList]
  inScript : ∃ ts, read script = some ts ∧
    attributeValues "Reference" "Relative" ts = [(assembly ++ ".dll").toList] ∧
    contents "Reference" ts = [some (assembly ++ ".dll").toList]

/-- A name in which no character means anything to XML or is none that XML has. -/
structure Unmarked (name : String) : Prop where
  ampersand : '&' ∉ name.toList
  less : '<' ∉ name.toList
  quote : '"' ∉ name.toList
  reversed : '\uFFFE' ∉ name.toList
  nothing : '\uFFFF' ∉ name.toList

def ControlFree (name : String) : Prop :=
  ∀ c ∈ name.toList, 32 ≤ c.toNat ∧ ¬(127 ≤ c.toNat ∧ c.toNat < 160)

-- the instances look at the characters that are there, not at all characters

instance (name : String) : Decidable (ControlFree name) :=
  decidable_of_iff
    ((name.toList.all fun c => decide (32 ≤ c.toNat ∧ ¬(127 ≤ c.toNat ∧ c.toNat < 160))) = true)
    (by simp only [List.all_eq_true, decide_eq_true_eq, ControlFree])

variable {name suffix assembly project : String} {c : Char}

/-! ## Names with what follows them -/

theorem isCharacter_iff (hc : 32 ≤ c.toNat) :
    isCharacter c = true ↔ c ≠ '\uFFFE' ∧ c ≠ '\uFFFF' := by
  have htab : c ≠ '\t' := by
    rintro rfl
    exact absurd hc (by decide)
  have hline : c ≠ '\n' := by
    rintro rfl
    exact absurd hc (by decide)
  have hreturn : c ≠ '\r' := by
    rintro rfl
    exact absurd hc (by decide)
  simp [isCharacter, htab, hline, hreturn, hc, ← Char.toNat_inj]

instance (w : List Char) : Decidable (IsLiteral w) :=
  decidable_of_iff (w.all isCharacter = true ∧ '"' ∉ w ∧ '<' ∉ w ∧ '&' ∉ w)
    ⟨fun ⟨hlegal, hquote, hless, hampersand⟩ =>
      ⟨List.all_eq_true.1 hlegal, hquote, hless, hampersand⟩,
      fun hw => ⟨List.all_eq_true.2 hw.legal, hw.quote, hw.less, hw.ampersand⟩⟩

instance (w : List Char) : Decidable (Spaced w) :=
  decidable_of_iff ((w.all fun c => decide (isBlank c = true → c = ' ')) = true)
    (by simp only [List.all_eq_true, decide_eq_true_eq, Spaced])

theorem isLiteral_append_iff {w v : List Char} (hv : IsLiteral v) : IsLiteral (w ++ v) ↔ IsLiteral w := by
  constructor
  · intro h
    exact ⟨fun c hc => h.legal c (List.mem_append_left _ hc),
      fun hc => h.quote (List.mem_append_left _ hc),
      fun hc => h.less (List.mem_append_left _ hc), fun hc => h.ampersand (List.mem_append_left _ hc)⟩
  · intro h
    refine ⟨fun c hc => ?_, ?_, ?_, ?_⟩
    · exact (List.mem_append.1 hc).elim (h.legal c) (hv.legal c)
    · exact fun hc => (List.mem_append.1 hc).elim h.quote hv.quote
    · exact fun hc => (List.mem_append.1 hc).elim h.less hv.less
    · exact fun hc => (List.mem_append.1 hc).elim h.ampersand hv.ampersand

theorem isLiteral_iff (hname : ControlFree name) : IsLiteral name.toList ↔ Unmarked name := by
  constructor
  · intro h
    have hfound : ∀ c ∈ name.toList, c ≠ '\uFFFE' ∧ c ≠ '\uFFFF' := fun c hc =>
      (isCharacter_iff (hname c hc).1).1 (h.legal c hc)
    exact ⟨h.ampersand, h.less, h.quote, fun hc => (hfound _ hc).1 rfl, fun hc => (hfound _ hc).2 rfl⟩
  · intro h
    refine ⟨fun c hc => (isCharacter_iff (hname c hc).1).2 ⟨?_, ?_⟩, h.quote, h.less, h.ampersand⟩
    · rintro rfl
      exact h.reversed hc
    · rintro rfl
      exact h.nothing hc

theorem spaced_of_controlFree (hname : ControlFree name) : Spaced name.toList := by
  intro c hc hb
  have hlow := (hname c hc).1
  simp only [isBlank, Bool.or_eq_true, beq_iff_eq] at hb
  rcases hb with ((rfl | rfl) | rfl) | rfl
  · rfl
  all_goals exact absurd hlow (by decide)

theorem spaced_append {w v : List Char} (hw : Spaced w) (hv : Spaced v) : Spaced (w ++ v) :=
  fun c hc => (List.mem_append.1 hc).elim (hw c) (hv c)

theorem infix_append_iff_of_not_mem {p w v : List Char} {x : Char} (hx : x ∉ v) :
    p ++ [x] <:+: w ++ v ↔ p ++ [x] <:+: w := by
  refine ⟨fun h => ?_, fun h => h.trans (List.infix_append' [] w v)⟩
  rcases List.infix_append_iff.1 h with h | h | ⟨l, l', heq, hl, hl'⟩
  · exact h
  · exact absurd (h.subset (List.mem_append_right p List.mem_cons_self)) hx
  · rcases List.eq_nil_or_concat l' with rfl | ⟨front, y, rfl⟩
    · rw [List.append_nil] at heq
      exact heq ▸ hl.isInfix
    · rw [List.concat_eq_append] at heq hl'
      rw [← List.append_assoc] at heq
      obtain ⟨-, hy⟩ := List.append_inj' heq rfl
      cases hy
      exact absurd (hl'.subset (List.mem_append_right front List.mem_cons_self)) hx

/-! ## The parts of the documents -/

/-- Lines that are ended. -/
def ended (ls : List String) : List Char := ls.flatMap fun l => l.toList ++ ['\n']

theorem toList_unlines (ls : List String) : (unlines ls).toList = ended ls := by
  rw [unlines, String.toList_join, ended]
  simp [List.flatMap_map]

/-- A script up to the first name in it. -/
def scriptStart : List Char := ended ["<Query Kind=\"Statements\">"] ++ "  <Reference Relative=\"".toList

/-- A script from the last name in it on, but for the `<` there. -/
def scriptEnd : List Char := "/Reference>\n</Query>\n\n".toList

def scriptRest (d : List Char) : List Char := d ++ ['"'] ++ (['>'] ++ (d ++ ['<'] ++ scriptEnd))

theorem toList_scriptText (a : String) :
    (scriptText a).toList = scriptStart ++ scriptRest (a ++ ".dll").toList := by
  unfold scriptText scriptStart scriptRest scriptEnd
  rw [toList_unlines]
  unfold ended
  simp only [List.flatMap_cons, List.flatMap_nil, String.toList_append]
  repeat rw [String.toList_ofList]
  simp only [List.append_assoc]
  rfl

/-- A manifest up to the name in it. -/
def manifestStart : List Char :=
  ended ["<?xml version=\"1.0\" encoding=\"utf-8\"?>",
    "<assembly manifestVersion=\"1.0\" xmlns=\"urn:schemas-microsoft-com:asm.v1\">"] ++
      "  <assemblyIdentity version=\"1.0.0.0\" name=\"".toList

/-- A manifest from the name in it on, but for the end of that tag. -/
def manifestEnd : List Char :=
  '\n' :: ended ["  <trustInfo xmlns=\"urn:schemas-microsoft-com:asm.v2\">",
    "    <security>",
    "      <requestedPrivileges xmlns=\"urn:schemas-microsoft-com:asm.v3\">",
    "        <requestedExecutionLevel level=\"highestAvailable\" uiAccess=\"false\" />",
    "      </requestedPrivileges>",
    "    </security>",
    "  </trustInfo>",
    "  <compatibility xmlns=\"urn:schemas-microsoft-com:compatibility.v1\">",
    "    <application>",
    "      <supportedOS Id=\"\x7b8e0f7a12-bfb3-4fe8-b9a5-48fd50a15a9a\x7d\" />",
    "    </application>",
    "  </compatibility>",
    "</assembly>"]

def manifestRest (d : List Char) : List Char := d ++ ['"'] ++ (['/', '>'] ++ manifestEnd)

set_option maxRecDepth 8000 in
theorem toList_manifestText (p : String) :
    (manifestText p).toList = manifestStart ++ manifestRest (p ++ ".app").toList := by
  unfold manifestText manifestStart manifestRest manifestEnd
  rw [toList_unlines]
  unfold ended
  simp only [List.flatMap_cons, List.flatMap_nil, String.toList_append]
  repeat rw [String.toList_ofList]
  simp only [List.append_assoc]
  rfl

/-- A project up to the first name in it. -/
def projectStart : List Char :=
  ended ["<Project Sdk=\"Microsoft.NET.Sdk\">",
    "  <PropertyGroup>",
    "    <OutputType>Exe</OutputType>",
    "    <TargetFramework>net8.0-windows</TargetFramework>",
    "    <ApplicationManifest>app.manifest</ApplicationManifest>",
    "  </PropertyGroup>",
    "  <ItemGroup>",
    "    <Compile Remove=\"*.cs\" />",
    "    <Compile Include=\"Program.cs\" />",
    "  </ItemGroup>",
    "  <ItemGroup>"]

/-- What ends the names of the files of a build that its project leaves out. -/
def removedSuffixes : List String := [".dll", ".linq", ".pdb", ".xml", ".log"]

/-- The line of a project that leaves a file out. -/
def removal (a suffix : String) : List Char :=
  "    <None Remove=\"".toList ++ ((a ++ suffix).toList ++ ['"'] ++ " />\n".toList)

/-- A project between the files that it leaves out and the assembly that it refers to. -/
def projectMiddle : List Char :=
  ended ["  </ItemGroup>", "  <ItemGroup>"] ++ "    <Reference Include=\"".toList

/-- A project from the last name in it on, but for the `<` there. -/
def projectEnd : List Char := "/HintPath>\n    </Reference>\n  </ItemGroup>\n</Project>\n".toList

/-- A project from the assembly that it refers to on. -/
def projectRest (a : String) : List Char :=
  a.toList ++ ['"'] ++
    (['>'] ++ ("\n      <HintPath>".toList ++ ((a ++ ".dll").toList ++ ['<'] ++ projectEnd)))

set_option maxRecDepth 8000 in
theorem toList_projectText (a : String) : (projectText a).toList =
    projectStart ++ (removedSuffixes.flatMap (removal a) ++ (projectMiddle ++ projectRest a)) := by
  unfold projectText projectStart removedSuffixes projectMiddle projectRest projectEnd targetFramework
  rw [toList_unlines]
  unfold ended removal
  simp only [List.flatMap_cons, List.flatMap_nil, String.toList_append]
  repeat rw [String.toList_ofList]
  simp only [List.append_assoc]
  rfl

/-! ## The documents as they are read

The parts without names are evaluated once for each document, all that is needed of them together. -/

theorem script_parts :
    (∃ ts, Reads (State.first scriptStart).1 (State.first scriptStart).2
      ⟨.value ⟨some "Reference".toList, []⟩ "Relative".toList '"' [], ["Query".toList], true⟩ ts ∧
      lacks "Reference" ts = true) ∧
    Reads ⟨.opened, ["Reference".toList, "Query".toList], true⟩ scriptEnd
      ⟨.text "\n\n".toList, [], true⟩
      [.stop "Reference".toList, .text "\n".toList, .stop "Query".toList] ∧
    '\r' ∉ scriptStart ∧ '\r' ∉ scriptEnd ∧ 6 ≤ scriptStart.length := by
  unfold scriptStart scriptEnd ended
  repeat rw [List.flatMap_cons]
  repeat rw [String.toList_ofList]
  refine ⟨exists_reads ?_, ?_⟩
  · decide +kernel
  · unfold Reads
    decide +kernel

theorem manifest_parts :
    (∃ ts, Reads (State.first manifestStart).1 (State.first manifestStart).2
      ⟨.value ⟨some "assemblyIdentity".toList, [("version".toList, "1.0.0.0".toList)]⟩
        "name".toList '"' [],
        ["assembly".toList], true⟩ ts ∧ lacks "assemblyIdentity" ts = true) ∧
    (∃ ts, Reads ⟨.text [], ["assembly".toList], true⟩ manifestEnd ⟨.text "\n".toList,
      [], true⟩ ts ∧
      lacks "assemblyIdentity" ts = true) ∧
    '\r' ∉ manifestStart ∧ '\r' ∉ manifestEnd ∧ 6 ≤ manifestStart.length := by
  unfold manifestStart manifestEnd ended
  repeat rw [List.flatMap_cons]
  repeat rw [String.toList_ofList]
  refine ⟨exists_reads ?_, exists_reads ?_, ?_⟩
  all_goals decide +kernel

def inGroup : State := ⟨.text ['\n'], ["ItemGroup".toList, "Project".toList], true⟩

theorem project_parts :
    (∃ ts, Reads (State.first projectStart).1 (State.first projectStart).2 inGroup ts ∧
      (lacks "HintPath" ts && lacks "Reference" ts) = true) ∧
    (∃ ts, Reads inGroup projectMiddle
        ⟨.value ⟨some "Reference".toList, []⟩ "Include".toList '"' [],
          ["ItemGroup".toList, "Project".toList], true⟩ ts ∧
      (lacks "HintPath" ts && lacks "Reference" ts) = true) ∧
    Reads ⟨.opened, ["HintPath".toList, "Reference".toList, "ItemGroup".toList, "Project".toList],
      true⟩ projectEnd
      ⟨.text ['\n'], [], true⟩
      [.stop "HintPath".toList, .text "\n    ".toList, .stop "Reference".toList,
        .text "\n  ".toList, .stop "ItemGroup".toList,
        .text "\n".toList, .stop "Project".toList] ∧
    '\r' ∉ projectStart ∧ '\r' ∉ projectMiddle ∧ '\r' ∉ projectEnd ∧ 6 ≤ projectStart.length := by
  unfold inGroup projectStart projectMiddle projectEnd ended
  repeat rw [List.flatMap_cons]
  repeat rw [String.toList_ofList]
  refine ⟨exists_reads (f := fun ts => lacks _ ts && lacks _ ts) ?_,
    exists_reads (f := fun ts => lacks _ ts && lacks _ ts) ?_, ?_⟩
  · decide +kernel
  · decide +kernel
  · unfold Reads
    decide +kernel

theorem reads_removal (h : IsLiteral (name ++ suffix).toList) (hspaced : Spaced (name ++ suffix).toList) :
    Reads inGroup (removal name suffix) inGroup
      ([.text "\n    ".toList] ++
        ([] ++ [.start "None".toList [("Remove".toList, (name ++ suffix).toList)],
          .stop "None".toList])) := by
  have hstart : Reads inGroup "    <None Remove=\"".toList
      ⟨.value ⟨some "None".toList, []⟩ "Remove".toList '"' [],
        ["ItemGroup".toList, "Project".toList], true⟩
      [.text "\n    ".toList] := by
    unfold inGroup
    repeat rw [String.toList_ofList]
    rfl
  have hend : Reads ⟨.tag ⟨some "None".toList, [("Remove".toList, (name ++ suffix).toList)]⟩ false,
      ["ItemGroup".toList, "Project".toList], true⟩ " />\n".toList inGroup
      [.start "None".toList [("Remove".toList, (name ++ suffix).toList)], .stop "None".toList] := by
    unfold inGroup
    repeat rw [String.toList_ofList]
    rfl
  exact hstart.append ((reads_value h hspaced List.not_mem_nil).append hend)

theorem reads_removals : ∀ {suffixes : List String},
    (∀ suffix ∈ suffixes, IsLiteral (name ++ suffix).toList ∧ Spaced (name ++ suffix).toList) →
      ∃ ts, Reads inGroup (suffixes.flatMap (removal name)) inGroup ts ∧
        lacks "HintPath" ts = true ∧ lacks "Reference" ts = true
  | [], _ => ⟨[], .nil _, rfl, rfl⟩
  | suffix :: suffixes, h => by
    obtain ⟨ts, hreads, hhint, hreference⟩ := reads_removals fun t ht => h t (List.mem_cons_of_mem _ ht)
    obtain ⟨hliteral, hspaced⟩ := h suffix List.mem_cons_self
    refine ⟨_, (reads_removal hliteral hspaced).append hreads, ?_, ?_⟩
    · rw [lacks_append, hhint, Bool.and_true]
      rfl
    · rw [lacks_append, hreference, Bool.and_true]
      rfl

theorem reads_hint {e : List Char} {stack : List (List Char)} :
    Reads ⟨.text [], e :: stack, true⟩ "\n      <HintPath>".toList
      ⟨.text [], "HintPath".toList :: e :: stack, true⟩
      [.text "\n      ".toList, .start "HintPath".toList []] := by
  repeat rw [String.toList_ofList]
  rfl

/-! ## Names in the documents -/

theorem return_not_mem_removal (h : '\r' ∉ (name ++ suffix).toList) : '\r' ∉ removal name suffix := by
  have hstart : '\r' ∉ "    <None Remove=\"".toList := by
    rw [String.toList_ofList]
    decide
  have hend : '\r' ∉ " />\n".toList := by
    rw [String.toList_ofList]
    decide
  exact List.not_mem_append hstart (List.not_mem_append (List.not_mem_append h (by decide)) hend)

theorem return_not_mem (hname : ControlFree name) (hsuffix : '\r' ∉ suffix.toList) :
    '\r' ∉ (name ++ suffix).toList := by
  rw [String.toList_append, List.mem_append, not_or]
  exact ⟨fun hc => absurd (hname _ hc).1 (by decide), hsuffix⟩

theorem removedSuffixes_literal : ∀ suffix ∈ removedSuffixes,
    '\r' ∉ suffix.toList ∧ IsLiteral suffix.toList ∧ Spaced suffix.toList := by
  decide

theorem read_scriptText_iff {ts : List Token} (ha : ControlFree assembly) :
    read (scriptText assembly) = some ts ↔
    ∃ st', Reads (State.first scriptStart).1
      ((State.first scriptStart).2 ++ scriptRest (assembly ++ ".dll").toList) st' ts ∧
      st'.isEnd = true := by
  obtain ⟨-, -, hstart, hend, hlong⟩ := script_parts
  have hname : '\r' ∉ (assembly ++ ".dll").toList := return_not_mem ha (by decide)
  refine read_eq_some_iff (toList_scriptText assembly) ?_ hlong
  simp only [scriptRest, List.mem_append, hstart, hname, hend, or_false, false_or]
  decide

theorem read_manifestText_iff {ts : List Token} (hp : ControlFree project) :
    read (manifestText project) = some ts ↔
    ∃ st', Reads (State.first manifestStart).1
      ((State.first manifestStart).2 ++ manifestRest (project ++ ".app").toList) st' ts ∧
      st'.isEnd = true := by
  obtain ⟨-, -, hstart, hend, hlong⟩ := manifest_parts
  have hname : '\r' ∉ (project ++ ".app").toList := return_not_mem hp (by decide)
  refine read_eq_some_iff (toList_manifestText project) ?_ hlong
  simp only [manifestRest, List.mem_append, hstart, hname, hend, or_false, false_or]
  decide

theorem read_projectText_iff {ts : List Token} (ha : ControlFree assembly) :
    read (projectText assembly) = some ts ↔
    ∃ st', Reads (State.first projectStart).1 ((State.first projectStart).2 ++
      (removedSuffixes.flatMap (removal assembly) ++ (projectMiddle ++ projectRest assembly))) st'
        ts ∧ st'.isEnd = true := by
  obtain ⟨-, -, -, hstart, hmiddle, hend, hlong⟩ := project_parts
  have hhint : '\r' ∉ "\n      <HintPath>".toList := by
    rw [String.toList_ofList]
    decide
  have hname : ∀ suffix ∈ removedSuffixes, '\r' ∉ (assembly ++ suffix).toList := fun suffix hmem =>
    return_not_mem ha (removedSuffixes_literal suffix hmem).1
  have hremovals : '\r' ∉ removedSuffixes.flatMap (removal assembly) := by
    rw [List.mem_flatMap]
    rintro ⟨suffix, hmem, hc⟩
    exact return_not_mem_removal (hname suffix hmem) hc
  have hrest : '\r' ∉ projectRest assembly := by
    have hbare : '\r' ∉ assembly.toList := fun hc => absurd (ha _ hc).1 (by decide)
    have hdll : '\r' ∉ (assembly ++ ".dll").toList := hname ".dll" (by decide)
    exact List.not_mem_append (List.not_mem_append hbare (by decide)) (List.not_mem_append (by decide)
      (List.not_mem_append hhint (List.not_mem_append (List.not_mem_append hdll (by decide)) hend)))
  exact read_eq_some_iff (toList_projectText assembly)
    (List.not_mem_append hstart (List.not_mem_append hremovals (List.not_mem_append hmiddle hrest))) hlong

theorem script_of_literal {d : List Char} (hliteral : IsLiteral d) (hspaced : Spaced d) (hne : d ≠ [])
    (hclose : ¬"]]>".toList <:+: d) : ∃ st' ts, st'.isEnd = true ∧
      Reads (State.first scriptStart).1 ((State.first scriptStart).2 ++ scriptRest d) st' ts ∧
        attributeValues "Reference" "Relative" ts = [d] ∧ contents "Reference" ts = [some d] := by
  obtain ⟨⟨ts₀, hstart, hlacks⟩, hend, -⟩ := script_parts
  refine ⟨_, _, ?_, hstart.append ((reads_value hliteral hspaced List.not_mem_nil).append
    (reads_open.append ((reads_content hliteral hne hclose).append hend))), ?_, ?_⟩
  · rfl
  · rw [attributeValues_append, attributeValues_of_lacks hlacks]
    rfl
  · rw [contents_append_of_lacks hlacks]
    exact congrArg (fun s => [some s]) (List.append_nil d)

theorem literal_of_script {d : List Char} {st' : State} {ts : List Token} (hspaced : Spaced d)
    (hreads : Reads (State.first scriptStart).1
      ((State.first scriptStart).2 ++ scriptRest d) st' ts) (hend : st'.isEnd = true)
    (hvalues : attributeValues "Reference" "Relative" ts = [d]) :
    IsLiteral d ∧ ¬"]]>".toList <:+: d := by
  obtain ⟨⟨ts₀, hstart, hlacks⟩, -⟩ := script_parts
  obtain ⟨us, hvalue, rfl⟩ := hstart.of_append hreads
  rw [attributeValues_append, attributeValues_of_lacks hlacks, List.nil_append] at hvalues
  have hquoted := hvalue
  rw [scriptRest, List.append_assoc] at hquoted
  have hliteral : IsLiteral d := literal_of_attributeValues hspaced hquoted hend hvalues
  obtain ⟨us', htag, -⟩ := (reads_value hliteral hspaced List.not_mem_nil).of_append hvalue
  obtain ⟨us'', htext, -⟩ := reads_open.of_append htag
  rw [List.append_assoc] at htext
  exact ⟨hliteral, not_infix_of_reads hliteral htext⟩

theorem manifest_of_literal {d : List Char} (hliteral : IsLiteral d) (hspaced : Spaced d) :
    ∃ st' ts, st'.isEnd = true ∧
    Reads (State.first manifestStart).1 ((State.first manifestStart).2 ++ manifestRest d) st' ts ∧
      attributeValues "assemblyIdentity" "name" ts = [d] := by
  obtain ⟨⟨ts₀, hstart, hlacks⟩, ⟨ts₁, hend, hlacksEnd⟩, -⟩ := manifest_parts
  refine ⟨_, _, ?_, hstart.append
    ((reads_value hliteral hspaced (by decide)).append (reads_openClosed.append hend)), ?_⟩
  · rfl
  · rw [attributeValues_append, attributeValues_of_lacks hlacks, List.nil_append, List.nil_append,
      attributeValues_append, attributeValues_of_lacks hlacksEnd]
    rfl

theorem literal_of_manifest {d : List Char} {st' : State} {ts : List Token} (hspaced : Spaced d)
    (hreads : Reads (State.first manifestStart).1
      ((State.first manifestStart).2 ++ manifestRest d) st' ts) (hend : st'.isEnd = true)
    (hvalues : attributeValues "assemblyIdentity" "name" ts = [d]) : IsLiteral d := by
  obtain ⟨⟨ts₀, hstart, hlacks⟩, -⟩ := manifest_parts
  obtain ⟨us, hvalue, rfl⟩ := hstart.of_append hreads
  rw [attributeValues_append, attributeValues_of_lacks hlacks, List.nil_append] at hvalues
  rw [manifestRest, List.append_assoc] at hvalue
  exact literal_of_attributeValues hspaced hvalue hend hvalues

theorem project_of_literal {a : String} (hliteral : IsLiteral a.toList) (hspaced : Spaced a.toList)
    (hclose : ¬"]]>".toList <:+: (a ++ ".dll").toList) : ∃ st' ts, st'.isEnd = true ∧
      Reads (State.first projectStart).1 ((State.first projectStart).2 ++
        (removedSuffixes.flatMap (removal a) ++ (projectMiddle ++ projectRest a))) st' ts ∧
      contents "HintPath" ts = [some (a ++ ".dll").toList] ∧
      attributeValues "Reference" "Include" ts = [a.toList] := by
  have hnames : ∀ suffix ∈ removedSuffixes, IsLiteral (a ++ suffix).toList ∧
      Spaced (a ++ suffix).toList := by
    intro suffix hmem
    obtain ⟨-, hsuffix, hblanks⟩ := removedSuffixes_literal suffix hmem
    rw [String.toList_append, isLiteral_append_iff hsuffix]
    exact ⟨hliteral, spaced_append hspaced hblanks⟩
  obtain ⟨⟨ts₀, hstart, hlacks⟩, ⟨ts₂, hmiddle, hlacks₂⟩, hend, -⟩ := project_parts
  obtain ⟨ts₁, hremovals, hhint₁, hreference₁⟩ := reads_removals hnames
  obtain ⟨hhint₀, hreference₀⟩ := Bool.and_eq_true_iff.1 hlacks
  obtain ⟨hhint₂, hreference₂⟩ := Bool.and_eq_true_iff.1 hlacks₂
  have hcontent : Reads
      ⟨.text [], ["HintPath".toList, "Reference".toList, "ItemGroup".toList, "Project".toList], true⟩
      ((a ++ ".dll").toList ++ ['<'])
      ⟨.opened, ["HintPath".toList, "Reference".toList, "ItemGroup".toList, "Project".toList], true⟩
      [.text (a ++ ".dll").toList] :=
    reads_content (hnames ".dll" (by decide)).1 (by simp) hclose
  refine ⟨_, _, ?_, hstart.append (hremovals.append (hmiddle.append
    ((reads_value hliteral hspaced List.not_mem_nil).append
      (reads_open.append (reads_hint.append (hcontent.append hend)))))), ?_, ?_⟩
  · rfl
  · rw [contents_append_of_lacks hhint₀, contents_append_of_lacks hhint₁,
      contents_append_of_lacks hhint₂]
    exact congrArg (fun s => [some s]) (List.append_nil (a ++ ".dll").toList)
  · simp only [attributeValues_append, attributeValues_of_lacks hreference₀,
      attributeValues_of_lacks hreference₁, attributeValues_of_lacks hreference₂]
    rfl

/-- The documents say the names in them exactly if both are literal and that of the assembly does not
end what a text may hold. -/
theorem carries_iff (ha : ControlFree assembly) (hp : ControlFree project) :
    Carries assembly project (projectText assembly) (manifestText project) (scriptText assembly) ↔
      Unmarked assembly ∧ ¬"]]>".toList <:+: assembly.toList ∧ Unmarked project := by
  have hspaced : Spaced assembly.toList := spaced_of_controlFree ha
  have hdll : Spaced (assembly ++ ".dll").toList := by
    rw [String.toList_append]
    exact spaced_append hspaced (by decide)
  have happ : Spaced (project ++ ".app").toList := by
    rw [String.toList_append]
    exact spaced_append (spaced_of_controlFree hp) (by decide)
  have hassembly : IsLiteral (assembly ++ ".dll").toList ↔ Unmarked assembly := by
    rw [String.toList_append, isLiteral_append_iff (by decide), isLiteral_iff ha]
  have hproject : IsLiteral (project ++ ".app").toList ↔ Unmarked project := by
    rw [String.toList_append, isLiteral_append_iff (by decide), isLiteral_iff hp]
  have hclose : "]]>".toList <:+: (assembly ++ ".dll").toList ↔ "]]>".toList <:+: assembly.toList := by
    rw [String.toList_append]
    exact infix_append_iff_of_not_mem (p := [']', ']']) (by decide)
  constructor
  · rintro ⟨-, ⟨ts, hmanifest, hvalues⟩, us, hscript, hvalues', -⟩
    obtain ⟨st, hreads, hend⟩ := (read_manifestText_iff hp).1 hmanifest
    obtain ⟨st', hreads', hend'⟩ := (read_scriptText_iff ha).1 hscript
    obtain ⟨hliteral, hnone⟩ := literal_of_script hdll hreads' hend' hvalues'
    exact ⟨hassembly.1 hliteral, fun h => hnone (hclose.2 h),
      hproject.1 (literal_of_manifest happ hreads hend hvalues)⟩
  · rintro ⟨hunmarked, hnone, hunmarked'⟩
    have hclosed : ¬"]]>".toList <:+: (assembly ++ ".dll").toList := fun h => hnone (hclose.1 h)
    obtain ⟨st, ts, hend, hreads, hhint, hinclude⟩ :=
      project_of_literal ((isLiteral_iff ha).2 hunmarked) hspaced hclosed
    obtain ⟨st', us, hend', hreads', hname⟩ := manifest_of_literal (hproject.2 hunmarked') happ
    obtain ⟨st'', us', hend'', hreads'', hrelative, hcontent⟩ :=
      script_of_literal (hassembly.2 hunmarked) hdll (by simp) hclosed
    exact ⟨⟨ts, (read_projectText_iff ha).2 ⟨st, hreads, hend⟩, hhint, hinclude⟩,
      ⟨us, (read_manifestText_iff hp).2 ⟨st', hreads', hend'⟩, hname⟩,
      us', (read_scriptText_iff ha).2 ⟨st'', hreads'', hend''⟩, hrelative, hcontent⟩

/-! ## Documents on the disk -/

theorem holds_project {r : BuildResult} {files : ProjectFiles} {dir : String} {h h' : Host}
    (hr : Succeeded r assembly dir) (hproject : writeProject r project h = (.ok files, h')) :
    HoldsText h' files.project (projectText assembly) ∧
    HoldsText h' files.manifest (manifestText project) := by
  have hholds := write_ok (x := .project project) hr ((bind_of_ok hproject).trans rfl)
  rw [writeProject_files hr hproject]
  simp only [Request.Holds, Request.files, List.forall_mem_cons] at hholds
  obtain ⟨⟨_, rfl, hcsproj⟩, ⟨_, rfl, hmanifest⟩, -⟩ := hholds
  exact ⟨hcsproj, hmanifest⟩

theorem holds_script {r : BuildResult} {fileName script dir : String} {h h' : Host}
    (hr : Succeeded r assembly dir) (hscript : writeScript r fileName h = (.ok script, h')) :
    HoldsText h' script (scriptText assembly) := by
  have hholds := write_ok (x := .script fileName) hr ((bind_of_ok hscript).trans rfl)
  rw [writeScript_path hr hscript]
  obtain ⟨_, rfl, hheld⟩ := hholds _ List.mem_cons_self
  exact hheld

/-- **The documents next to a build say the names that they are given exactly if these are unmarked.**
For every build that succeeds, every project and every script that are written and names without control
characters: the documents are well-formed and say the names in them if and only if neither name has an
ampersand, a `<`, a double quote or a character that XML does not have, and the name of the assembly
does not have `]]>`. -/
theorem companions_carry_iff {source : ReferenceSource} {c : Compiler} {m : Model}
    {dir fileName script : String} {h h₁ h₂ h₃ k k' : Host} {result : BuildResult}
    {files : ProjectFiles} (ha : ControlFree assembly) (hp : ControlFree project)
    (he : emit source c m assembly dir h = (.ok result, h₁)) (hs : result.succeeded = true)
    (hproject : writeProject result project h₂ = (.ok files, h₃))
    (hscript : writeScript result fileName k = (.ok script, k')) :
    ∃ csproj manifest text, HoldsText h₃ files.project csproj ∧
      HoldsText h₃ files.manifest manifest ∧
      HoldsText k' script text ∧ (Carries assembly project csproj manifest text ↔
        Unmarked assembly ∧ ¬"]]>".toList <:+: assembly.toList ∧ Unmarked project) := by
  have hr := succeeded_of_emit he hs
  obtain ⟨hcsproj, hmanifest⟩ := holds_project hr hproject
  exact ⟨_, _, _, hcsproj, hmanifest, holds_script hr hscript, carries_iff ha hp⟩

/-- The documents next to a build of `A` say its name and that of their project. -/
theorem companions_carry_plain :
    ControlFree "A" ∧ ControlFree "App" ∧ ∃ result h₁ files h₂ script h₃,
    emit (.fixed [⟨"R.dll", .empty⟩]) (.simulated .pass) (.ofPolicy (.named "a" "n" "k")) "A" "out"
      (hostWith ⟨[(["out"], .directory)]⟩) = (.ok result, h₁) ∧ result.succeeded = true ∧
    writeProject result "App" h₁ = (.ok files, h₂) ∧
    writeScript result "q.linq" h₂ = (.ok script, h₃) ∧
    ∃ csproj manifest text, HoldsText h₂ files.project csproj ∧
      HoldsText h₂ files.manifest manifest ∧
      HoldsText h₃ script text ∧ Carries "A" "App" csproj manifest text := by
  have ha : ControlFree "A" := by decide
  have hp : ControlFree "App" := by decide
  obtain ⟨result, h₁, files, h₂, script, h₃, he, hs, hproject, hscript⟩ :=
    exists_companions "A" (by decide)
    (by decide +kernel) (by decide +kernel) (by decide +kernel) (by decide +kernel)
  obtain ⟨csproj, manifest, text, hcsproj, hmanifest, htext, hcarries⟩ :=
    companions_carry_iff ha hp he hs hproject hscript
  have hunmarked : Unmarked "A" ∧ ¬"]]>".toList <:+: "A".toList ∧ Unmarked "App" :=
    ⟨⟨by decide, by decide, by decide, by decide, by decide⟩, by decide, by decide, by decide,
      by decide, by decide, by decide⟩
  exact ⟨ha, hp, result, h₁, files, h₂, script, h₃, he, hs, hproject, hscript, csproj, manifest,
    text, hcsproj, hmanifest,
    htext, hcarries.2 hunmarked⟩

/-- A project whose first line with a name in it cannot be read is none. -/
theorem read_projectText_eq_none (ha : ControlFree assembly)
    (hfails : inGroup.run (removal assembly ".dll") = none) :
    read (projectText assembly) = none := by
  refine Option.eq_none_iff_forall_ne_some.2 fun ts hread => ?_
  obtain ⟨st', hreads, -⟩ := (read_projectText_iff ha).1 hread
  obtain ⟨⟨ts₀, hstart, -⟩, -⟩ := project_parts
  obtain ⟨us, hrest, -⟩ := hstart.of_append hreads
  rw [Reads, removedSuffixes, List.flatMap_cons, List.append_assoc, run_append, hfails] at hrest
  cases hrest

/-- The project and the script next to a build of `A&B` are not well-formed. -/
theorem companions_carry_ampersand :
    ControlFree "A&B" ∧ ControlFree "App" ∧ ∃ result h₁ files h₂ script h₃,
    emit (.fixed [⟨"R.dll", .empty⟩]) (.simulated .pass) (.ofPolicy (.named "a" "n" "k")) "A&B" "out"
      (hostWith ⟨[(["out"], .directory)]⟩) = (.ok result, h₁) ∧ result.succeeded = true ∧
    writeProject result "App" h₁ = (.ok files, h₂) ∧
    writeScript result "q.linq" h₂ = (.ok script, h₃) ∧
    ∃ csproj manifest text, HoldsText h₂ files.project csproj ∧
      HoldsText h₂ files.manifest manifest ∧
      HoldsText h₃ script text ∧ read csproj = none ∧ read text = none ∧
      ¬Carries "A&B" "App" csproj manifest text := by
  have ha : ControlFree "A&B" := by decide
  obtain ⟨result, h₁, files, h₂, script, h₃, he, hs, hproject, hscript⟩ :=
    exists_companions "A&B" (by decide)
    (by decide +kernel) (by decide +kernel) (by decide +kernel) (by decide +kernel)
  have hr := succeeded_of_emit he hs
  obtain ⟨hcsproj, hmanifest⟩ := holds_project hr hproject
  have hunread : read (scriptText "A&B") = none := by
    unfold Xml.read
    rw [toList_scriptText]
    unfold scriptStart scriptRest scriptEnd ended
    repeat rw [List.flatMap_cons]
    repeat rw [String.toList_ofList]
    decide +kernel
  have hunread' : read (projectText "A&B") = none := by
    refine read_projectText_eq_none ha ?_
    unfold inGroup removal
    repeat rw [String.toList_ofList]
    decide +kernel
  refine ⟨ha, by decide, result, h₁, files, h₂, script, h₃, he, hs, hproject, hscript, _, _, _,
    hcsproj, hmanifest,
    holds_script hr hscript, hunread', hunread, fun hcarries => ?_⟩
  obtain ⟨ts, hread, -⟩ := hcarries.inScript
  rw [hunread] at hread
  cases hread

end PolicyForge.Build
