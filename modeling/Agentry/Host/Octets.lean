import Agentry.Files.OsPath
/-!
# Octets as text

The programs of a host work on octets. Between them a text holds each octet as the character of its
number; only what people read is a text of its own.
-/
namespace Agentry.Host.Octets

/-- The octets of a text, each as a character. -/
def ofText (text : String) : String :=
  String.ofList (text.toUTF8.toList.map fun octet => Char.ofNat octet.toNat)

def ofBytes (bytes : ByteArray) : String :=
  String.ofList (bytes.toList.map fun octet => Char.ofNat octet.toNat)

def toBytes (octets : String) : ByteArray :=
  octets.toList.foldl (fun bytes c => bytes.push (UInt8.ofNat c.toNat)) .empty

/-- The text that some octets spell. -/
def toText (octets : String) : String :=
  Text.decodeLossy (toBytes octets)

/-- The path that some octets are. -/
def toPath (octets : String) : OsPath :=
  ⟨(toBytes octets).toList⟩

def ofPath (path : OsPath) : String :=
  String.ofList (OsPath.characters path.octets)

/-- The octets of a path whose names are spelled as a tree keeps them. -/
def ofSpelling (spelling : String) : String :=
  "/".intercalate <| (Text.splitOn '/' spelling.toList).map fun name =>
    ofPath ⟨OsPath.octetsOfName (String.ofList name)⟩

end Agentry.Host.Octets
