import ClassFormat.Source.Tree
import ClassFormat.Text.Quoted
import ClassFormat.Text.Utf8

namespace ClassFormat.Archive

inductive Error where
  | noEnd
  | notADirectory
  | notAnEntry
  | encrypted
  | compressed
  | checksum
  deriving DecidableEq

def Error.message : Error → String
  | .noEnd => "invalid Zip archive: Could not find EOCD"
  | .notADirectory => "invalid Zip archive: Invalid Central Directory header"
  | .notAnEntry => "invalid Zip archive: Invalid local file header"
  | .encrypted => "unsupported Zip archive: Password required to decrypt file"
  | .compressed => "unsupported Zip archive: Compression method not supported"
  | .checksum => "Invalid checksum"

/-- The number of `width` bytes at a place, its lowest byte first. -/
def number (bytes : Bytes) (place width : Nat) : Nat :=
  ofBigEndian ((bytes.drop place).take width).reverse

/-- One step of the checksum, with the polynomial `0xedb88320`. -/
def shiftOut (sum : UInt32) : UInt32 :=
  if sum &&& 1 = 1 then sum >>> 1 ^^^ 0xedb88320 else sum >>> 1

def checksum (bytes : Bytes) : UInt32 :=
  bytes.foldl (fun sum b => Nat.repeat shiftOut 8 (sum ^^^ b.toUInt32)) 0xffffffff ^^^ 0xffffffff

def entryMark : Bytes := [0x50, 0x4b, 0x03, 0x04]
def listedMark : Bytes := [0x50, 0x4b, 0x01, 0x02]
def endMark : Bytes := [0x50, 0x4b, 0x05, 0x06]

/-- Where the last record starts that can be the one at the end. -/
def findEnd : (place : Nat) → (found : Option Nat) → Bytes → Option Nat
  | _, found, [] => found
  | place, found, b :: bytes =>
    let isEnd := endMark.isPrefixOf (b :: bytes) && 22 ≤ bytes.length + 1
    findEnd (place + 1) (if isEnd then some place else found) bytes

structure Listed where
  name : String
  encrypted : Bool
  method : Nat
  checksum : UInt32
  size : Nat
  place : Nat

def listed (bytes : Bytes) : (count place : Nat) → Except Error (List Listed)
  | 0, _ => .ok []
  | count + 1, place => do
    let header := bytes.drop place
    let nameLength := number header 28 2
    let length := 46 + nameLength + number header 30 2 + number header 32 2
    if listedMark.isPrefixOf header && length ≤ header.length then
      let entries ← listed bytes count (place + length)
      return {
        name := String.ofList (Utf8.decodeLossy ((header.drop 46).take nameLength))
        encrypted := number header 8 2 % 2 = 1
        method := number header 10 2
        checksum := UInt32.ofNat (number header 16 4)
        size := number header 20 4
        place := number header 42 4 } :: entries
    else .error .notADirectory

def directory (bytes : Bytes) : Except Error (List Listed) :=
  match findEnd 0 none bytes with
  | some place => listed bytes (number bytes (place + 10) 2) (number bytes (place + 16) 4)
  | none => .error .noEnd

/-- The bytes of an entry that is stored as it is and has the checksum that the directory says. -/
def Listed.stored (entry : Listed) (bytes : Bytes) : Except Error Bytes :=
  let header := bytes.drop entry.place
  if entry.encrypted then .error .encrypted
  else if entryMark.isPrefixOf header && 30 ≤ header.length then
    if entry.method ≠ 0 then .error .compressed
    else .ok ((header.drop (30 + number header 26 2 + number header 28 2)).take entry.size)
  else .error .notAnEntry

/-- Reads the wanted entries in their order, up to one that cannot be read, of which it gives the
messages. Of entries that are not wanted, only the header is looked at. -/
def readListed (wanted : ArchiveEntry → Bool) (bytes : Bytes) :
    List Listed → List ArchiveEntry × Option (List String)
  | [] => ([], none)
  | first :: entries =>
    match first.stored bytes with
    | .error error => ([], some [error.message])
    | .ok stored =>
      let entry : ArchiveEntry := ⟨first.name, first.name.endsWith "/", stored⟩
      if !wanted entry then readListed wanted bytes entries
      else if checksum stored ≠ first.checksum then
        ([], some ["failed to read entry " ++ Text.quoted first.name, Error.checksum.message])
      else
        let (read, failure) := readListed wanted bytes entries
        (entry :: read, failure)

def read (wanted : ArchiveEntry → Bool) (bytes : Bytes) :
    List ArchiveEntry × Option (List String) :=
  match directory bytes with
  | .error error => ([], some [error.message])
  | .ok entries => readListed wanted bytes entries

end ClassFormat.Archive
