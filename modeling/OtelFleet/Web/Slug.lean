import OtelFleet.Lib.Strings
import OtelFleet.Tenants.Slug
import Mathlib.Data.List.DropRight

-- The slug that the form for a new customer shows.
namespace Web

open Tenants (isAlnum)

def isCombining (c : Char) : Bool :=
  '\u0300' ≤ c && c ≤ '\u036f'

-- The letters and digits of a text, and where there is something else that is not taken away.
def shape (cs : List Char) : List Char :=
  (cs.filter (!isCombining ·)).map fun c => if isAlnum c then c else '-'

-- What a browser knows about letters. Marks are put in order, and the lower case of a sigma depends on
-- what follows; apart from that characters are treated one by one. ASCII is the same everywhere.
class Unicode where
  toLowerCase : List Char → List Char
  nfkd : List Char → List Char
  charwise (s : List Char) : shape (nfkd (toLowerCase s)) = s.flatMap fun c => shape (nfkd (toLowerCase [c]))
  ascii (c : Char) : (Tenants.toLower c).toNat < 128 → shape (nfkd (toLowerCase [c])) = shape [Tenants.toLower c]

def isSpace (c : Char) : Bool :=
  "\t\n\x0b\x0c\r \u00a0\u1680\u2028\u2029\u202f\u205f\u3000\ufeff".toList.contains c ||
    ('\u2000' ≤ c && c ≤ '\u200a')

def trim (s : String) : String :=
  .ofList ((s.toList.dropWhile isSpace).rdropWhile isSpace)

-- Replaces each run of some characters by one. The flag tells whether a run has begun.
def replaceRuns (p : Char → Bool) (sub : Char) : Bool → List Char → List Char
  | _, [] => []
  | inRun, c :: cs =>
    if p c then
      if inRun then replaceRuns p sub true cs else sub :: replaceRuns p sub true cs
    else c :: replaceRuns p sub false cs

def isValidSlug (slug : String) : Bool :=
  Tenants.validSlug slug

variable [Unicode]

def letters (name : String) : List Char :=
  (Unicode.nfkd (Unicode.toLowerCase name.toList)).filter (!isCombining ·)

def deriveSlug (name : String) : String :=
  let s := replaceRuns (!isAlnum ·) '-' false (letters name)
  let s := (s.dropWhile (· == '-')).rdropWhile (· == '-')
  .ofList ((s.take 64).rdropWhile (· == '-'))

end Web
