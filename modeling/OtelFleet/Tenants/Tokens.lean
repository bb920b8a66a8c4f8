import OtelFleet.Lib.Strings
import OtelFleet.Runtime

-- The tokens that agents authenticate with.
namespace Tenants

def isLowerHex (c : Char) : Bool :=
  ('0' ≤ c && c ≤ '9') || ('a' ≤ c && c ≤ 'f')

-- The lookup prefix of a token of the form otm_<kind>_<8 hex>_<secret>.
def parseTokenPrefix (kind token : String) : Option String := do
  let (head, rest) ← Strings.cut token '_'
  let (kind', rest) ← Strings.cut rest '_'
  let (digits, secret) ← Strings.cut rest '_'
  if head = "otm" ∧ kind' = kind ∧ digits.utf8ByteSize = 8 ∧ secret ≠ "" ∧ digits.toList.all isLowerHex then
    some ("otm_" ++ kind ++ "_" ++ digits)
  else none

def parseBootstrapTokenPrefix (token : String) : Option String :=
  parseTokenPrefix "bt" token

def parseAgentTokenPrefix (token : String) : Option String :=
  parseTokenPrefix "at" token

def parseAPITokenPrefix (token : String) : Option String :=
  parseTokenPrefix "pat" token

def hashAPIKey [Runtime] (key : String) : List UInt8 :=
  Runtime.sha256 key

structure GeneratedKey where
  secret : String
  keyPrefix : String
  hash : List UInt8
deriving DecidableEq

def generateAgentToken [Runtime] (digits random : String) : GeneratedKey :=
  let keyPrefix := "otm_at_" ++ digits
  let secret := keyPrefix ++ "_" ++ random
  { secret := secret, keyPrefix := keyPrefix, hash := hashAPIKey secret }

end Tenants
