import PolicyForge.Framework.Identity
import PolicyForge.Host.Basic
import PolicyForge.Package.Archive
/-!
# References

A reference is a library that a compilation sees.  A reference package holds its libraries below
`ref/`; everything else in the package is passed over.
-/
namespace PolicyForge

/-- A library with its content. -/
structure Reference where
  name : String
  content : ByteArray

inductive DownloadCause where
  | unanswered
  | status (code : Nat)
  | interrupted
  deriving DecidableEq, Repr

def DownloadCause.message : DownloadCause → String
  | .unanswered => "error sending request"
  | .status code => "HTTP status error (" ++ toString code ++ ")"
  | .interrupted => "error decoding response body"

inductive ReferenceError where
  | unsupportedRuntime (runtime : RuntimeIdentity)
  | unknownRuntime (description : String)
  | probe (reason : String)
  | download (address : String) (cause : DownloadCause)
  | package (e : Package.ArchiveError)
  | noReferences (path : String)
  | io (e : IoError)
  | cancelled
  deriving DecidableEq, Repr

def ReferenceError.message : ReferenceError → String
  | .unsupportedRuntime r => "Platform not supported: " ++ r.text
  | .unknownRuntime description => "Unrecognized runtime description: '" ++ description ++ "'"
  | .probe reason => "Runtime probe failed: " ++ reason
  | .download address cause => "Failed to download '" ++ address ++ "': " ++ cause.message
  | .package e => "Cannot read reference package: " ++ e.message
  | .noReferences path => "Cannot obtain runtime reference assemblies from " ++ path
  | .io e => "IO error: " ++ e.message
  | .cancelled => cancelledMessage

def ReferenceError.isCancelled : ReferenceError → Bool
  | .cancelled => true
  | _ => false

namespace Package

def referenceFolder : List Char := "ref/".toList

def librarySuffix : List Char := ".dll".toList

def isReferenceName (name : String) : Bool :=
  referenceFolder.isPrefixOf name.toList && librarySuffix.isSuffixOf name.toList

/-- What follows the last separator of the name of an entry. -/
def libraryName (name : String) : String :=
  String.ofList (name.toList.reverse.takeWhile (· != '/')).reverse

/-- The references among the entries of an archive, in order.  Every entry is opened, also one that
is passed over. -/
def referencesAmong (data : ByteArray) : List Listed → Except ReferenceError (List Reference)
  | [] => .ok []
  | l :: rest =>
    match l.open data with
    | .error e => .error (.package e)
    | .ok entry =>
      if entry.isLink || !isReferenceName entry.name then referencesAmong data rest
      else
        match entry.content with
        | .error e => .error (.io e)
        | .ok content => do
          let more ← referencesAmong data rest
          return ⟨libraryName entry.name, content⟩ :: more

def references (data : ByteArray) : Except ReferenceError (List Reference) :=
  match directory data with
  | .error e => .error (.package e)
  | .ok entries => referencesAmong data entries

def readReferences (path : String) : Act ReferenceError (List Reference) := do
  let data ← Act.readBytes
    (fun e => if e = .isADirectory then .package .unreadable else .io e) path
  Act.ofExcept (references data)

end Package

end PolicyForge
