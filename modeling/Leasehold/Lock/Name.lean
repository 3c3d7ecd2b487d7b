/-!
# Lock names

* `Lock.isNameChar`: the alphabet of lock names.
* `Lock.isName`: the names that may be locked.
-/

namespace Leasehold

namespace Lock

/-- The longest lock name in bytes. -/
def maxNameBytes : Nat := 255

/-- The alphabet of lock names: letters and digits of ASCII, and four marks. -/
def isNameChar (c : Char) : Bool :=
  c.isAlphanum || c = '_' || c = '.' || c = ':' || c = '-'

/-- A lock name has at least one character, only characters of the alphabet, and at
most 255 bytes. -/
def isName (name : String) : Bool :=
  name.utf8ByteSize ≤ maxNameBytes && !name.isEmpty && name.toList.all isNameChar

end Lock

end Leasehold
