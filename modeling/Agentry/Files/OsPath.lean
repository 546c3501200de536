import Agentry.Files.Tree
import Agentry.Text.Quoted
import Agentry.Text.Utf8
/-!
# Paths in octets

To the system a path is a row of octets, which need not spell a text. A tree keeps a name that is no
text under a spelling of its own: a NUL, which no name has, and a character for each octet.
-/
namespace Agentry

/-- A path as the system has it. -/
structure OsPath where
  octets : List UInt8
  deriving DecidableEq, Repr

namespace OsPath

def ofText (text : String) : OsPath := ⟨text.toUTF8.data.toList⟩

instance : Coe String OsPath := ⟨ofText⟩

/-- The text that a path spells, if it spells one. -/
def text? (path : OsPath) : Option String :=
  String.fromUTF8? ⟨path.octets.toArray⟩

def slash : UInt8 := 47

def isAbsolute (path : OsPath) : Bool :=
  path.octets.head? = some slash

/-- A relative path put behind a base. An absolute path stands alone. -/
def join (base path : OsPath) : OsPath :=
  if path.isAbsolute then path
  else if base.octets.isEmpty || base.octets.getLast? = some slash then
    ⟨base.octets ++ path.octets⟩
  else ⟨base.octets ++ slash :: path.octets⟩

/-- The path as people read it. -/
def display (path : OsPath) : String :=
  Text.decodeLossy ⟨path.octets.toArray⟩

/-! ## In messages -/

/-- An octet that belongs to no character. -/
def strayOctet (octet : UInt8) : List Char :=
  let digits := (Text.hexDigits octet.toNat).map Char.toUpper
  '\\' :: 'x' :: List.replicate (2 - digits.length) '0' ++ digits

/-- Shows at most so many characters and stray octets. -/
def shown : Nat → List UInt8 → List Char
  | _, [] => []
  | 0, _ => []
  | n + 1, octet :: rest =>
    match ByteArray.utf8DecodeChar? ⟨(octet :: rest).toArray⟩ 0 with
    | some c => Text.quotedChar c ++ shown n ((octet :: rest).drop c.utf8Size)
    | none => strayOctet octet ++ shown n rest

/-- The path between double quotes. -/
def quoted (path : OsPath) : String :=
  match path.text? with
  | some text => Text.quoted text
  | none => String.ofList ('"' :: shown path.octets.length path.octets ++ ['"'])

/-! ## In trees -/

/-- One character for each octet. -/
def characters (octets : List UInt8) : List Char :=
  octets.map fun octet => Char.ofNat octet.toNat

/-- A name as a tree keeps it. -/
def spelledName (name : List UInt8) : String :=
  (text? ⟨name⟩).getD (String.ofList ('\x00' :: characters name))

/-- The octets of a name that a tree keeps. -/
def octetsOfName (name : String) : List UInt8 :=
  match name.toList with
  | '\x00' :: cs => cs.map fun c => UInt8.ofNat c.toNat
  | _ => name.toUTF8.data.toList

/-- The path with each name in it as a tree keeps it. -/
def spelling (path : OsPath) : String :=
  "/".intercalate <| (Text.splitOn '/' (characters path.octets)).map fun piece =>
    spelledName (piece.map fun c => UInt8.ofNat c.toNat)

/-- The path without links and dots that leads to a location. -/
def ofLocation (loc : Location) : OsPath :=
  if loc = [] then ⟨[slash]⟩ else ⟨loc.flatMap fun name => slash :: octetsOfName name⟩

end OsPath

namespace FileTree

/-- The location that a path leads to, whether the path is a text or not. -/
def locatePath (tree : FileTree) (home : Location) (arrival : Arrival) (path : OsPath) :
    Except IoError Location :=
  match path.text? with
  | some text => tree.locate home arrival text
  | none =>
    if path.octets.contains 0 then .error .nulInPath
    else if path.octets.length ≥ pathLimit then .error .nameTooLong
    else
      walk tree arrival linkLimit (if path.isAbsolute then [] else home)
        (Path.steps path.spelling)

/-- The location of a directory that a path leads to. -/
def directoryAt (tree : FileTree) (home : Location) (path : OsPath) : Except IoError Location := do
  let loc ← tree.locatePath home .existing path
  if tree.isDirectoryAt loc then .ok loc else .error .notADirectory

end FileTree
end Agentry
