import PolicyForge.Host.Disk
import PolicyForge.Package.Inflate
import PolicyForge.Text.Utf8
/-!
# Archives

An archive ends with a directory of its entries, and each entry stands where the directory says.
Entries come in the order of the directory; of several entries of one name the last one counts, in
the place of the first.  The content of an entry is stored as it is or deflated, and its checksum
is checked.

The record at the end is where its mark stands last, its directory stands right before it, and its
numbers are those of the short form.  Archives are not read that have something between the two, the
mark once more or more than 65535 bytes behind the record, or the long form of its numbers.
-/
namespace PolicyForge.Package

/-- Some bytes are no archive that can be read. -/
inductive ArchiveError where
  /-- There is no directory, or it is damaged. -/
  | unreadable
  /-- An entry is stored in a way that is not understood. -/
  | unsupported
  deriving DecidableEq, Repr

def ArchiveError.message : ArchiveError → String
  | .unreadable => "invalid Zip archive: Could not find EOCD"
  | .unsupported => "unsupported Zip archive: Compression method not supported"

structure ArchiveEntry where
  name : String
  isLink : Bool
  deflated : Bool
  checksum : Nat
  data : ByteArray

/-! ## Numbers in an archive -/

/-- The number of `width` bytes at a place, the lowest byte first. -/
def numberAt (data : ByteArray) (place : Nat) : Nat → Nat
  | 0 => 0
  | width + 1 => (data.data.getD place 0).toNat + 256 * numberAt data (place + 1) width

/-- The checksum of some bytes: the remainder of a division in the polynomials over two elements. -/
def checksumStep (sum : Nat) (byte : UInt8) : Nat :=
  (List.range 8).foldl
    (fun s _ => if s % 2 = 1 then Nat.xor (s / 2) 0xEDB88320 else s / 2) (Nat.xor sum byte.toNat)

def checksum (data : ByteArray) : Nat :=
  Nat.xor (data.data.foldl checksumStep 0xFFFFFFFF) 0xFFFFFFFF

/-! ## Names -/

/-- The characters of the bytes from 128 on in names without a mark for Unicode. -/
def upperCharacters : List Char :=
  ("ÇüéâäàåçêëèïîìÄÅÉæÆôöòûùÿÖÜ¢£¥₧ƒáíóúñÑªº¿⌐¬½¼¡«»░▒▓│┤╡╢╖╕╣║╗╝╜╛┐└┴┬├─┼╞╟╚╔╩╦╠═╬╧╨╤╥╙╘╒╓╫╪┘┌█▄▌▐▀" ++
    "αßΓπΣσµτΦΘΩδ∞φε∩≡±≥≤⌠⌡÷≈°∙·√ⁿ²■\u00A0").toList

def nameOf (unicode : Bool) (bytes : ByteArray) : String :=
  if unicode then Text.ofBytes bytes
  else
    String.ofList (bytes.data.toList.map fun b =>
      if b < 128 then Char.ofNat b.toNat else upperCharacters.getD (b.toNat - 128) '?')

/-! ## The directory -/

/-- Where the record that ends an archive may start, last first. -/
def endRecord? (data : ByteArray) : Option Nat :=
  let last := data.size - 22
  if data.size < 22 then none
  else
    ((List.range (min last 65535 + 1)).map (last - ·)).find? fun place =>
      numberAt data place 4 == 0x06054B50

/-- The data of the entry whose own header is at a place. -/
def entryData (data : ByteArray) (place size : Nat) : Except ArchiveError ByteArray :=
  if numberAt data place 4 ≠ 0x04034B50 then .error .unreadable
  else
    let start := place + 30 + numberAt data (place + 26) 2 + numberAt data (place + 28) 2
    .ok (data.extract start (start + size))

/-- An entry as the directory describes it, before its data are looked for. -/
structure Listed where
  name : String
  isLink : Bool
  method : Nat
  encrypted : Bool
  checksum : Nat
  size : Nat
  /-- Where the entry's own header is. -/
  header : Nat

def listed (data : ByteArray) (shift : Int) : Nat → Nat → Except ArchiveError (List Listed)
  | 0, _ => .ok []
  | n + 1, place =>
    if numberAt data place 4 ≠ 0x02014B50 then .error .unreadable
    else do
      let flags := numberAt data (place + 8) 2
      let nameSize := numberAt data (place + 28) 2
      let system := numberAt data (place + 5) 1
      let mode := numberAt data (place + 40) 2
      let entry : Listed :=
        { name := nameOf (flags / 2048 % 2 == 1) (data.extract (place + 46) (place + 46 + nameSize))
          isLink := system == 3 && mode / 4096 == 10
          method := numberAt data (place + 10) 2
          encrypted := flags % 2 == 1
          checksum := numberAt data (place + 16) 4
          size := numberAt data (place + 20) 4
          header := (numberAt data (place + 42) 4 + shift).toNat }
      let next := place + 46 + nameSize + numberAt data (place + 30) 2 + numberAt data (place + 32) 2
      return entry :: (← listed data shift n next)

/-- Entries with one more among them: an entry of the same name gives up its place. -/
def putListed (l : Listed) : List Listed → List Listed
  | [] => [l]
  | m :: rest => if m.name = l.name then l :: rest else m :: putListed l rest

def directory (data : ByteArray) : Except ArchiveError (List Listed) :=
  match endRecord? data with
  | none => .error .unreadable
  | some place =>
    let count := numberAt data (place + 10) 2
    let size := numberAt data (place + 12) 4
    let start := numberAt data (place + 16) 4
    if place < size then .error .unreadable
    else do
      let all ← listed data ((place - size : Nat) - start) count (place - size)
      return all.foldl (fun entries l => putListed l entries) []

def Listed.open (data : ByteArray) (l : Listed) : Except ArchiveError ArchiveEntry := do
  if l.encrypted then throw .unsupported
  let bytes ← entryData data l.header l.size
  match l.method with
  | 0 => return ⟨l.name, l.isLink, false, l.checksum, bytes⟩
  | 8 => return ⟨l.name, l.isLink, true, l.checksum, bytes⟩
  | _ => throw .unsupported

def ArchiveEntry.content (e : ArchiveEntry) : Except IoError ByteArray :=
  let content : Except IoError ByteArray :=
    if e.deflated then
      match inflate e.data with
      | .ok bytes => .ok bytes
      | .error .truncated => .error .wrongChecksum
      | .error .corrupt => .error .corruptData
    else .ok e.data
  match content with
  | .error err => .error err
  | .ok bytes => if Package.checksum bytes = e.checksum then .ok bytes else .error .wrongChecksum

end PolicyForge.Package
