import Agentry.Text.Blank
import Agentry.Text.Lowercase
/-!
# Slugs

A slug names an agent's file: lower-case letters, digits and single hyphens between them. `slugify`
reads a display name once. A letter or a digit is kept, a blank or a hyphen asks for a hyphen unless
one would lead or repeat, and every other character is dropped.
-/
namespace Agentry

def isSlugLetter (c : Char) : Bool :=
  let n := c.toNat
  (97 ≤ n && n ≤ 122) || (48 ≤ n && n ≤ 57)

namespace Slug

/-- What a lower-case character contributes before hyphens are collapsed. -/
def mapped (c : Char) : Option Char :=
  if isSlugLetter c then some c
  else if c = '-' || Text.isBlank c then some '-'
  else none

/-- Drops the hyphens that repeat, and those at the front when `atBreak` holds. -/
def collapse : Bool → List Char → List Char
  | _, [] => []
  | atBreak, c :: rest =>
    if c = '-' then
      if atBreak then collapse true rest else '-' :: collapse true rest
    else c :: collapse false rest

def dropTrailing (cs : List Char) : List Char :=
  (cs.reverse.dropWhile (· = '-')).reverse

def ofChars (cs : List Char) : List Char :=
  dropTrailing (collapse true ((Text.lowercase cs).filterMap mapped))

end Slug

/-- The slug of a display name. It is empty when the name has no letter or digit to keep. -/
def slugify (name : String) : String :=
  String.ofList (Slug.ofChars name.toList)

/-- The slug of the `n`-th agent of a base name. -/
def numberedSlug (base : String) (n : Nat) : String :=
  base ++ "-" ++ toString n

end Agentry
