import PolicyForge.Build.Result
/-!
# Companion files

Next to a successful build go, on request, a log of its diagnostics, a project that uses the
assembly, and a script that refers to it.  Each needs the directory of the build to be there.
-/
namespace PolicyForge.Build

/-- The name and the directory of a successful build. -/
def requireSuccess (r : BuildResult) (artifact : Companion) : Act BuildError (String × String) := do
  if !r.succeeded then throw (.failedBuild artifact)
  match r.assembly.filter fun name => !Text.allBlank name.toList with
  | none => throw (.invalidName .assembly .blank)
  | some name =>
    match r.directory with
    | none => throw (.missingDirectory "")
    | some dir =>
      if ← Act.ask fun h => h.disk.isDirectory h.cwd dir then return (name, dir)
      else throw (.missingDirectory dir)

/-! ## The log -/

def logText (diagnostics : List String) : String := String.join (diagnostics.map (· ++ "\n"))

def logPath (dir assembly : String) : String := Path.join dir (assembly ++ ".log")

def writeLog (r : BuildResult) : Act BuildError String := do
  let (name, dir) ← requireSuccess r .log
  let path := logPath dir name
  Act.writeText .io path (logText r.diagnostics)
  return path

/-! ## The project -/

structure ProjectFiles where
  project : String
  manifest : String
  program : String
  solution : String
  deriving DecidableEq, Repr

def ProjectFiles.toList (f : ProjectFiles) : List String :=
  [f.project, f.manifest, f.program, f.solution]

def ProjectFiles.inDirectory (dir assembly project : String) : ProjectFiles :=
  { project := Path.join dir (project ++ ".csproj")
    manifest := Path.join dir "app.manifest"
    program := Path.join dir "Program.cs"
    solution := Path.join dir (assembly ++ ".sln") }

def targetFramework : String := "net8.0-windows"

def unlines (lines : List String) : String := String.join (lines.map (· ++ "\n"))

def projectText (assembly : String) : String :=
  unlines
    ["<Project Sdk=\"Microsoft.NET.Sdk\">",
      "  <PropertyGroup>",
      "    <OutputType>Exe</OutputType>",
      "    <TargetFramework>" ++ targetFramework ++ "</TargetFramework>",
      "    <ApplicationManifest>app.manifest</ApplicationManifest>",
      "  </PropertyGroup>",
      "  <ItemGroup>",
      "    <Compile Remove=\"*.cs\" />",
      "    <Compile Include=\"Program.cs\" />",
      "  </ItemGroup>",
      "  <ItemGroup>",
      "    <None Remove=\"" ++ assembly ++ ".dll\" />",
      "    <None Remove=\"" ++ assembly ++ ".linq\" />",
      "    <None Remove=\"" ++ assembly ++ ".pdb\" />",
      "    <None Remove=\"" ++ assembly ++ ".xml\" />",
      "    <None Remove=\"" ++ assembly ++ ".log\" />",
      "  </ItemGroup>",
      "  <ItemGroup>",
      "    <Reference Include=\"" ++ assembly ++ "\">",
      "      <HintPath>" ++ assembly ++ ".dll</HintPath>",
      "    </Reference>",
      "  </ItemGroup>",
      "</Project>"]

def manifestText (project : String) : String :=
  unlines
    ["<?xml version=\"1.0\" encoding=\"utf-8\"?>",
      "<assembly manifestVersion=\"1.0\" xmlns=\"urn:schemas-microsoft-com:asm.v1\">",
      "  <assemblyIdentity version=\"1.0.0.0\" name=\"" ++ project ++ ".app\"/>",
      "  <trustInfo xmlns=\"urn:schemas-microsoft-com:asm.v2\">",
      "    <security>",
      "      <requestedPrivileges xmlns=\"urn:schemas-microsoft-com:asm.v3\">",
      "        <requestedExecutionLevel level=\"highestAvailable\" uiAccess=\"false\" />",
      "      </requestedPrivileges>",
      "    </security>",
      "  </trustInfo>",
      "  <compatibility xmlns=\"urn:schemas-microsoft-com:compatibility.v1\">",
      "    <application>",
      "      <supportedOS Id=\"\x7b8e0f7a12-bfb3-4fe8-b9a5-48fd50a15a9a\x7d\" />",
      "    </application>",
      "  </compatibility>",
      "</assembly>"]

def programText : String :=
  unlines
    ["using System;",
      "",
      "internal static class Program",
      "\x7b",
      "    [STAThread]",
      "    private static void Main()",
      "    \x7b",
      "    \x7d",
      "\x7d"]

/-- An identifier as solutions write it. -/
def braced (id : String) : String := "\x7b" ++ id.toUpper ++ "\x7d"

/-- The solution with a project, under made-up identifiers for its type and for itself. -/
def solutionText (project typeId projectId : String) : String :=
  let id := braced projectId
  String.join
    (["",
      "Microsoft Visual Studio Solution File, Format Version 12.00",
      "# Visual Studio Version 17",
      "VisualStudioVersion = 17.10.35004.147",
      "MinimumVisualStudioVersion = 10.0.40219.1",
      "Project(\"" ++ braced typeId ++ "\") = \"" ++ project ++ "\", \"" ++ project ++
        ".csproj\", \"" ++ id ++ "\"",
      "EndProject",
      "Global",
      "\tGlobalSection(SolutionConfigurationPlatforms) = preSolution",
      "\t\tDebug|Any CPU = Debug|Any CPU",
      "\t\tRelease|Any CPU = Release|Any CPU",
      "\tEndGlobalSection",
      "\tGlobalSection(ProjectConfigurationPlatforms) = postSolution",
      "\t\t" ++ id ++ ".Debug|Any CPU.ActiveCfg = Debug|Any CPU",
      "\t\t" ++ id ++ ".Debug|Any CPU.Build.0 = Debug|Any CPU",
      "\t\t" ++ id ++ ".Release|Any CPU.ActiveCfg = Release|Any CPU",
      "\t\t" ++ id ++ ".Release|Any CPU.Build.0 = Release|Any CPU",
      "\tEndGlobalSection",
      "\tGlobalSection(SolutionProperties) = preSolution",
      "\t\tHideSolutionNode = FALSE",
      "\tEndGlobalSection",
      "EndGlobal"].map (· ++ "\r\n"))

/-- Whether two texts are the same up to the case of ASCII letters. -/
def sameLetters (a b : String) : Bool := a.toLower == b.toLower

/-- Writes a project that uses a build, and gives its files. -/
def writeProject (r : BuildResult) (project : String) : Act BuildError ProjectFiles := do
  let (name, dir) ← requireSuccess r .project
  if Text.allBlank project.toList then throw (.invalidName .project .blank)
  if sameLetters project name then throw (.invalidName .project (.ofAssembly project))
  let files := ProjectFiles.inDirectory dir name project
  Act.writeText .io files.project (projectText name)
  Act.writeText .io files.manifest (manifestText project)
  Act.writeText .io files.program programText
  let typeId := identifierOf (← Act.freshNumber)
  let projectId := identifierOf (← Act.freshNumber)
  Act.writeText .io files.solution (solutionText project typeId projectId)
  return files

/-! ## The script -/

def scriptText (assembly : String) : String :=
  unlines
    ["<Query Kind=\"Statements\">",
      "  <Reference Relative=\"" ++ assembly ++ ".dll\">" ++ assembly ++ ".dll</Reference>",
      "</Query>",
      ""]

def writeScript (r : BuildResult) (fileName : String) : Act BuildError String := do
  let (name, dir) ← requireSuccess r .script
  if Text.allBlank fileName.toList then throw (.invalidName .script .blank)
  let path := Path.join dir fileName
  Act.writeText .io path (scriptText name)
  return path

end PolicyForge.Build
